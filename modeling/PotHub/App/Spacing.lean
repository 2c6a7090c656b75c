import PotHub.App.Detector
import Mathlib.Algebra.Order.Ring.Int
import Mathlib.Data.List.Basic

/-!
# How the reports are spaced

A run of the detector: location updates and samples in any order.  The shocks so
far are kept with their positions.

The place that a shock is compared with is that of the shock before, reported
or not (`Drive.spaced_of_reach`).  So a long rough stretch is reported once,
and a report may be next to an earlier one.
-/

namespace PotHub.App

open PotHub.Json PotHub.Lib

variable {K : Type}

/-- A shock, and whether it has been reported. -/
structure ShockRecord (K : Type) where
  position : LatLng K
  reported : Bool
deriving DecidableEq

/-- The state of a run. -/
structure Drive (K : Type) where
  detector : Detector K
  /-- What has been handed to `reportPotHole`. -/
  reports : List (Pothole K)
  /-- Ghost: the magnitudes of the samples so far. -/
  samples : List K
  /-- Ghost: the shocks so far. -/
  shocks : List (ShockRecord K)

/-- The steps. -/
inductive DriveEvent (K : Type)
  | location (location : Option (LatLng K))
  | sample (sample : Sample K)

/-! ## Spacing -/

/-- Behind the first report, a shock is reported exactly when it is more than 30
away from the reference that the shocks before it give. -/
def Spaced [Ring K] [LinearOrder K] (M : Measures K)
    (reference : List (ShockRecord K) → Option (ShockRecord K)) (shocks : List (ShockRecord K)) :
    Prop :=
  ∀ before q after p, shocks = before ++ q :: after → (∃ r ∈ before, r.reported = true) →
    reference before = some p →
      (q.reported = true ↔ M.FarApart p.position q.position)

/-- The last shock. -/
def lastShock (shocks : List (ShockRecord K)) : Option (ShockRecord K) := shocks.getLast?

/-- The last shock that has been reported. -/
def lastReport (shocks : List (ShockRecord K)) : Option (ShockRecord K) :=
  (shocks.filter ShockRecord.reported).getLast?

section Spaced

variable [Ring K] [LinearOrder K] {M : Measures K}
  {reference : List (ShockRecord K) → Option (ShockRecord K)} {shocks : List (ShockRecord K)}

theorem spaced_nil : Spaced M reference [] := by
  intro before q after p h
  simp at h

/-- One more shock. -/
theorem Spaced.append {q : ShockRecord K} (h : Spaced M reference shocks)
    (hq : (∃ r ∈ shocks, r.reported = true) → ∀ p, reference shocks = some p →
      (q.reported = true ↔ M.FarApart p.position q.position)) :
    Spaced M reference (shocks ++ [q]) := by
  intro before q' after p heq hbefore hp
  rcases List.eq_nil_or_concat after with rfl | ⟨after, last, rfl⟩
  · obtain ⟨rfl, hlast⟩ := List.append_inj' heq rfl
    obtain rfl : q = q' := by simpa using hlast
    exact hq hbefore p hp
  · rw [List.concat_eq_append, ← List.cons_append, ← List.append_assoc] at heq
    obtain ⟨rfl, -⟩ := List.append_inj' heq rfl
    exact h before q' after p rfl hbefore hp

end Spaced

/-! ## The run -/

variable [Ring K] [LinearOrder K] (M : Measures K)

namespace Drive

def init : Drive K := ⟨.init, [], [], []⟩

/-- The magnitude of the sample before; the first one is compared with the
initial value of `previous_acceleration`. -/
def sampleBefore (s : Drive K) : K := s.samples.getLastD Detector.init.previousAcceleration

/-- The state behind a sample. -/
def afterSample (s : Drive K) (x : Sample K) (report : Option (Pothole K)) (d : Detector K) :
    Drive K where
  detector := d
  reports := s.reports ++ report.toList
  samples := if x.isAccelerometer then s.samples ++ [x.acceleration] else s.samples
  shocks :=
    if x.isAccelerometer ∧ threshold ≤ x.acceleration - s.sampleBefore then
      s.shocks ++ [⟨s.detector.current, report.isSome⟩]
    else s.shocks

/-- A step; there is none when the process ends in an exception. -/
def next (s : Drive K) : DriveEvent K → Option (Drive K)
  | .location location => some { s with detector := s.detector.onLocationResult location }
  | .sample x =>
      match s.detector.onSensorChanged M x with
      | .ok (report, d) => some (s.afterSample x report d)
      | .error _ => none

end Drive

/-- A run of the detector as a machine. -/
def driveMachine : Machine (Drive K) (DriveEvent K) where
  init := .init
  step := Drive.next M

/-- The geocoder finds a place with a name. -/
def GeocoderAnswer.Succeeds : GeocoderAnswer → Prop
  | .returns (some (first :: _)) => first.locality.isSome
  | _ => False

instance : DecidablePred GeocoderAnswer.Succeeds
  | .ioException => isFalse id
  | .returns none => isFalse id
  | .returns (some []) => isFalse id
  | .returns (some (_ :: _)) => inferInstanceAs (Decidable (_ = _))

/-- The geocoder succeeds. -/
def GeocoderOk (_ : Drive K) : DriveEvent K → Prop
  | .location _ => True
  | .sample x => x.geocoder.Succeeds

instance (s : Drive K) : DecidablePred (GeocoderOk s)
  | .location _ => inferInstanceAs (Decidable True)
  | .sample x => inferInstanceAs (Decidable x.geocoder.Succeeds)

/-! ## A sample -/

variable {M} {d : Detector K} {x : Sample K}

omit [LinearOrder K] in
theorem tryReport_of_succeeds (h : x.geocoder.Succeeds) :
    ∃ p, tryReport M d x = .ok (some p) ∧ p.position = d.current := by
  rcases x with ⟨accelerometer, acceleration, geocoder, username, today⟩
  match geocoder with
  | .ioException => exact absurd h id
  | .returns none => exact absurd h id
  | .returns (some []) => exact absurd h id
  | .returns (some (⟨none, code⟩ :: rest)) => exact absurd h (by simp [GeocoderAnswer.Succeeds])
  | .returns (some (⟨some locality, code⟩ :: rest)) => exact ⟨_, rfl, rfl⟩

namespace Detector

/-- A shock is to be reported. -/
def Reports (M : Measures K) (d : Detector K) : Prop :=
  if d.isFirstPothole then d.latitude ≠ 0
  else M.FarApart d.previous d.current

instance : Decidable (d.Reports M) :=
  inferInstanceAs (Decidable (if d.isFirstPothole = true then d.latitude ≠ 0
    else M.FarApart d.previous d.current))

/-- The two branches of a shock as one. -/
theorem onShock_eq (M : Measures K) (d : Detector K) (x : Sample K) :
    d.onShock M x =
      if d.Reports M then
        (tryReport M d x).map fun report => (report, { d.mark with isFirstPothole := false })
      else .ok (none, d.mark) := by
  cases hfirst : d.isFirstPothole with
  | false =>
      have hmark : ({ d.mark with isFirstPothole := false } : Detector K) = d.mark := by
        rw [← hfirst]
        rfl
      simp [onShock, Reports, hfirst, hmark]
  | true => simp [onShock, Reports, hfirst]

/-- The branch of a shock, with a geocoder that succeeds. -/
theorem onShock_of_succeeds (h : x.geocoder.Succeeds) :
    (d.Reports M ∧ ∃ p, p.position = d.current ∧
        d.onShock M x = .ok (some p, { d.mark with isFirstPothole := false })) ∨
      (¬ d.Reports M ∧ d.onShock M x = .ok (none, d.mark)) := by
  obtain ⟨p, hp, hposition⟩ := tryReport_of_succeeds (M := M) (d := d) h
  by_cases hreports : d.Reports M
  · exact Or.inl ⟨hreports, p, hposition, by rw [onShock_eq, if_pos hreports, hp]; rfl⟩
  · exact Or.inr ⟨hreports, by rw [onShock_eq, if_neg hreports]⟩

theorem onSensorChanged_of_shock {report : Option (Pothole K)} {d' : Detector K}
    (haccelerometer : x.isAccelerometer = true) (hshock : d.Shock x)
    (h : d.onShock M x = .ok (report, d')) :
    d.onSensorChanged M x = .ok (report, { d' with previousAcceleration := x.acceleration }) := by
  rw [onSensorChanged, if_pos haccelerometer, if_pos hshock, h]
  rfl

theorem onSensorChanged_of_not_shock (haccelerometer : x.isAccelerometer = true)
    (hshock : ¬ d.Shock x) :
    d.onSensorChanged M x = .ok (none, { d with previousAcceleration := x.acceleration }) := by
  rw [onSensorChanged, if_pos haccelerometer, if_neg hshock]
  rfl

theorem onSensorChanged_of_other (haccelerometer : ¬ x.isAccelerometer = true) :
    d.onSensorChanged M x = .ok (none, d) := by
  rw [onSensorChanged, if_neg haccelerometer]

/-- A shock that is to be reported. -/
theorem onSensorChanged_of_reports (haccelerometer : x.isAccelerometer = true)
    (hshock : d.Shock x) (hreports : d.Reports M) :
    d.onSensorChanged M x = (tryReport M d x).map fun report =>
      (report, { d.mark with
        isFirstPothole := false
        previousAcceleration := x.acceleration }) := by
  rw [onSensorChanged, if_pos haccelerometer, if_pos hshock, onShock_eq, if_pos hreports]
  cases tryReport M d x <;> rfl

/-- A shock that is not. -/
theorem onSensorChanged_of_not_reports (haccelerometer : x.isAccelerometer = true)
    (hshock : d.Shock x) (hreports : ¬ d.Reports M) :
    d.onSensorChanged M x =
      .ok (none, { d.mark with previousAcceleration := x.acceleration }) :=
  onSensorChanged_of_shock haccelerometer hshock (by rw [onShock_eq, if_neg hreports])

/-- What a sample does, if it does not end in an exception: a report comes of a
shock that is to be reported, and a sample of the accelerometer is remembered. -/
theorem onSensorChanged_cases {report : Option (Pothole K)} {d' : Detector K}
    (h : d.onSensorChanged M x = .ok (report, d')) :
    x.isAccelerometer = false ∧ report = none ∧ d' = d ∨
      x.isAccelerometer = true ∧ d'.previousAcceleration = x.acceleration ∧
        (report = none ∨ d.Shock x ∧ d.Reports M ∧ tryReport M d x = .ok report) := by
  cases haccelerometer : x.isAccelerometer with
  | false =>
      rw [onSensorChanged_of_other (by simp [haccelerometer])] at h
      cases h
      exact .inl ⟨rfl, rfl, rfl⟩
  | true =>
      refine .inr ⟨rfl, ?_⟩
      by_cases hshock : d.Shock x
      · by_cases hreports : d.Reports M
        · rw [onSensorChanged_of_reports haccelerometer hshock hreports] at h
          cases htry : tryReport M d x with
          | error e =>
              rw [htry] at h
              cases h
          | ok report' =>
              rw [htry] at h
              cases h
              exact ⟨rfl, .inr ⟨hshock, hreports, rfl⟩⟩
        · rw [onSensorChanged_of_not_reports haccelerometer hshock hreports] at h
          cases h
          exact ⟨rfl, .inl rfl⟩
      · rw [onSensorChanged_of_not_shock haccelerometer hshock] at h
        cases h
        exact ⟨rfl, .inl rfl⟩

end Detector

/-! ## The invariant -/

namespace Drive

variable {s : Drive K}

/-- What the fields of the detector say about the samples and the shocks. -/
structure Inv (M : Measures K) (s : Drive K) : Prop where
  acceleration : s.detector.previousAcceleration = s.sampleBefore
  first : s.detector.isFirstPothole = false ↔ ∃ q ∈ s.shocks, q.reported = true
  last : ∀ q, lastShock s.shocks = some q → q.position = s.detector.previous
  reports : s.reports.map Pothole.position =
    (s.shocks.filter ShockRecord.reported).map ShockRecord.position
  spaced : Spaced M lastShock s.shocks

/-- A shock that is compared with the one before. -/
theorem Inv.shock {x : Sample K} {report : Option (Pothole K)} {d : Detector K} (h : s.Inv M)
    (haccelerometer : x.isAccelerometer = true) (hshock : s.detector.Shock x)
    (hreport : report.isSome ↔ s.detector.Reports M)
    (hposition : ∀ p ∈ report, p.position = s.detector.current)
    (hacceleration : d.previousAcceleration = x.acceleration)
    (hfirst : d.isFirstPothole = (s.detector.isFirstPothole && !report.isSome))
    (hlast : d.previous = s.detector.current) : (s.afterSample x report d).Inv M := by
  have hshocks : (s.afterSample x report d).shocks =
      s.shocks ++ [⟨s.detector.current, report.isSome⟩] := by
    have hrise : threshold ≤ x.acceleration - s.sampleBefore := h.acceleration ▸ hshock
    simp [afterSample, haccelerometer, hrise]
  refine ⟨?_, ?_, ?_, ?_, ?_⟩
  · simp [afterSample, haccelerometer, sampleBefore, hacceleration]
  · show d.isFirstPothole = false ↔ _
    have hold := h.first
    rw [hshocks, hfirst]
    cases hr : report.isSome <;> simp [hold, or_and_right, exists_or]
  · intro q hq
    rw [hshocks, lastShock, List.getLast?_concat, Option.some.injEq] at hq
    show q.position = d.previous
    rw [← hq, hlast]
  · rw [hshocks, List.filter_append, List.map_append, ← h.reports]
    show (s.reports ++ report.toList).map Pothole.position = _
    rw [List.map_append]
    cases report with
    | none => simp
    | some p => simpa using hposition p rfl
  · rw [hshocks]
    refine h.spaced.append fun hsome p hp => ?_
    rw [hreport, Detector.Reports, if_neg (by simp [h.first.2 hsome]), h.last p hp]

/-- A sample of the accelerometer that is no shock. -/
theorem Inv.no_shock {x : Sample K} {d : Detector K} (h : s.Inv M)
    (haccelerometer : x.isAccelerometer = true) (hshock : ¬ s.detector.Shock x)
    (hd : d = { s.detector with previousAcceleration := x.acceleration }) :
    (s.afterSample x none d).Inv M := by
  have hshocks : (s.afterSample x none d).shocks = s.shocks := by
    have hrise : ¬ threshold ≤ x.acceleration - s.sampleBefore := h.acceleration ▸ hshock
    simp [afterSample, hrise]
  have hreports : (s.afterSample x none d).reports = s.reports := List.append_nil _
  subst hd
  refine ⟨?_, hshocks ▸ h.first, hshocks ▸ h.last, ?_, hshocks ▸ h.spaced⟩
  · simp [afterSample, haccelerometer, sampleBefore]
  · rw [hshocks, hreports]
    exact h.reports

theorem Inv.next {s' : Drive K} {e : DriveEvent K} (h : s.Inv M) (hok : GeocoderOk s e)
    (hstep : s.next M e = some s') : s'.Inv M := by
  cases e with
  | location location =>
      obtain rfl := Option.some.inj hstep
      cases location <;> exact ⟨h.acceleration, h.first, h.last, h.reports, h.spaced⟩
  | sample x =>
      by_cases haccelerometer : x.isAccelerometer = true
      · by_cases hshock : s.detector.Shock x
        · rcases Detector.onShock_of_succeeds (M := M) (d := s.detector) hok with
            ⟨hreports, p, hp, hx⟩ | ⟨hreports, hx⟩
          · rw [Drive.next, Detector.onSensorChanged_of_shock haccelerometer hshock hx] at hstep
            obtain rfl := Option.some.inj hstep
            exact h.shock haccelerometer hshock (by simpa using hreports) (by simpa using hp) rfl
              (by simp) rfl
          · rw [Drive.next, Detector.onSensorChanged_of_shock haccelerometer hshock hx] at hstep
            obtain rfl := Option.some.inj hstep
            exact h.shock haccelerometer hshock (by simpa using hreports) (by simp) rfl
              (by simp [Detector.mark]) rfl
        · rw [Drive.next, Detector.onSensorChanged_of_not_shock haccelerometer hshock] at hstep
          obtain rfl := Option.some.inj hstep
          exact h.no_shock haccelerometer hshock rfl
      · rw [Drive.next, Detector.onSensorChanged_of_other haccelerometer] at hstep
        obtain rfl := Option.some.inj hstep
        have hsame : s.afterSample x none s.detector = s := by
          simp [afterSample, haccelerometer]
        rw [hsame]
        exact h

/-- **How the reports are spaced.**  In every run with a geocoder that succeeds,
each shock behind the first report is reported exactly when it is more than 30
away from the shock before it, reported or not; and what is reported are the
shocks that are. -/
theorem spaced_of_reach (h : (driveMachine M).Reach GeocoderOk s) :
    Spaced M lastShock s.shocks ∧
      s.reports.map Pothole.position =
        (s.shocks.filter ShockRecord.reported).map ShockRecord.position := by
  have hinv : s.Inv M := by
    refine h.invariant (I := Inv M) ?_ fun s e s' _ hok hI hstep => hI.next hok hstep
    exact ⟨rfl, by simp [driveMachine, init, Detector.init],
      by simp [driveMachine, init, lastShock], rfl, spaced_nil⟩
  exact ⟨hinv.spaced, hinv.reports⟩

/-! ## A rough stretch -/

/-- Whole numbers, with distances along the axes. -/
def wholeMeasures : Measures Int where
  computeDistanceBetween p q :=
    (p.latitude - q.latitude).natAbs + (p.longitude - q.longitude).natAbs
  toInt n := n

/-- A shock at a latitude, behind a calm sample. -/
def shockAt (latitude : Int) : List (DriveEvent Int) :=
  let sample (acceleration : Int) : DriveEvent Int := .sample
    ⟨true, acceleration, .returns (some [⟨some "Napoli".toList, some "IT".toList⟩]), "fab".toList,
      "14/03/2024".toList⟩
  [sample 10, .location (some ⟨latitude, 0⟩), sample 25]

/-- A stretch of 40 with shocks every 20, and the way back. -/
def roughStretch : List (DriveEvent Int) :=
  shockAt 1000 ++ shockAt 1020 ++ shockAt 1040 ++ shockAt 1005

/-- The shocks of the stretch: the third is 40 away from the report, the fourth
5. -/
def roughShocks : List (ShockRecord Int) :=
  [⟨⟨0, 0⟩, false⟩, ⟨⟨1000, 0⟩, true⟩, ⟨⟨1020, 0⟩, false⟩, ⟨⟨1040, 0⟩, false⟩, ⟨⟨1005, 0⟩, true⟩]

theorem exists_roughShocks : ∃ s : Drive Int,
    (driveMachine wholeMeasures).Reach GeocoderOk s ∧ s.shocks = roughShocks :=
  Machine.exists_reach_of_tryRun roughStretch (by decide +kernel)

theorem spaced_roughStretch : ∃ s : Drive Int, s.shocks = roughShocks ∧
    Spaced wholeMeasures lastShock s.shocks := by
  obtain ⟨s, hs, hshocks⟩ := exists_roughShocks
  exact ⟨s, hshocks, (spaced_of_reach hs).1⟩

theorem not_spaced_against_reports :
    ¬ ∀ s : Drive Int, (driveMachine wholeMeasures).Reach GeocoderOk s →
      Spaced wholeMeasures lastReport s.shocks := by
  intro h
  obtain ⟨s, hs, hshocks⟩ := exists_roughShocks
  have hfar := h s hs [⟨⟨0, 0⟩, false⟩, ⟨⟨1000, 0⟩, true⟩, ⟨⟨1020, 0⟩, false⟩] ⟨⟨1040, 0⟩, false⟩
    [⟨⟨1005, 0⟩, true⟩] ⟨⟨1000, 0⟩, true⟩ hshocks (by simp) (by decide)
  exact absurd (hfar.2 (by decide)) (by decide)

end Drive

end PotHub.App
