import PotHub.App.Spacing
import PotHub.Lib.Refinement
import Mathlib.Tactic.NormNum

/-!
# What stands behind a report

A run of the detector in which each report is kept with the sample that has
triggered it, and with the sample of the accelerometer before that one.

The sample before is the one that the detector has compared with, except for the
first sample of a run: that one is compared with the initial value of
`previous_acceleration`, and so is a shock whatever it measures.  It is not
reported where no latitude has come in yet (`backed_of_reach`), and is reported
where one has (`exists_unbacked`).
-/

namespace PotHub.App

open PotHub.Json PotHub.Lib

variable {K : Type}

/-- A report with what has triggered it. -/
structure Trigger (K : Type) where
  /-- The magnitude of the sample before, if there is one. -/
  before : Option K
  acceleration : K
  report : Pothole K

/-- The state of a run, with the triggers of its reports. -/
structure TracedDrive (K : Type) where
  drive : Drive K
  /-- Ghost: the triggers so far. -/
  triggers : List (Trigger K)

/-- The geocoder throws an `IOException`. -/
def GeocoderAnswer.Fails : GeocoderAnswer → Prop
  | .ioException => True
  | .returns _ => False

instance : DecidablePred GeocoderAnswer.Fails
  | .ioException => isTrue trivial
  | .returns _ => isFalse id

variable [Ring K] [LinearOrder K]

/-- There is a sample before, the rise from it is a shock, and the intensity is
that of the rise. -/
def Trigger.Backed (M : Measures K) (r : Trigger K) : Prop :=
  ∃ p, r.before = some p ∧ threshold ≤ r.acceleration - p ∧
    r.report.intensity = getPotholeIntensity (M.toInt (r.acceleration - p))

variable (M : Measures K)

namespace TracedDrive

def init : TracedDrive K := ⟨.init, []⟩

/-- The state behind a sample. -/
def afterSample (t : TracedDrive K) (x : Sample K) (report : Option (Pothole K))
    (d : Detector K) : TracedDrive K where
  drive := t.drive.afterSample x report d
  triggers := t.triggers ++ report.toList.map fun p =>
    ⟨t.drive.samples.getLast?, x.acceleration, p⟩

/-- A step; there is none when the process ends in an exception. -/
def next (t : TracedDrive K) : DriveEvent K → Option (TracedDrive K)
  | .location location =>
      some { t with drive := { t.drive with
        detector := t.drive.detector.onLocationResult location } }
  | .sample x =>
      match t.drive.detector.onSensorChanged M x with
      | .ok (report, d) => some (t.afterSample x report d)
      | .error _ => none

end TracedDrive

/-- A run with the triggers of its reports, as a machine. -/
def tracedMachine : Machine (TracedDrive K) (DriveEvent K) where
  init := .init
  step := TracedDrive.next M

/-- The first sample of the accelerometer meets no latitude, or a geocoder that
fails. -/
def FirstUnreported (t : TracedDrive K) : DriveEvent K → Prop
  | .location _ => True
  | .sample x => x.isAccelerometer = true → t.drive.samples = [] →
      t.drive.detector.latitude = 0 ∨ x.geocoder.Fails

instance (t : TracedDrive K) [DecidableEq K] : DecidablePred (FirstUnreported t)
  | .location _ => inferInstanceAs (Decidable True)
  | .sample _ => inferInstanceAs (Decidable (_ → _ → _ ∨ _))

variable {M}

/-! ## A report -/

section Report

variable {d : Detector K} {x : Sample K} {p : Pothole K}

omit [LinearOrder K] in
theorem tryReport_of_fails (h : x.geocoder.Fails) : tryReport M d x = .ok none := by
  rcases x with ⟨accelerometer, acceleration, geocoder, username, today⟩
  cases geocoder with
  | ioException => rfl
  | returns addresses => exact absurd h id

omit [LinearOrder K] in
/-- The intensity is that of the rise the detector sees. -/
theorem intensity_of_setupReport {addresses : Option (List Address)}
    (h : setupReport M d x addresses = .ok p) :
    p.intensity = getPotholeIntensity (M.toInt (x.acceleration - d.previousAcceleration)) := by
  rcases addresses with _ | ⟨_ | ⟨⟨_ | locality, code⟩, rest⟩⟩
  · cases h
  · cases h
  · cases h
  · cases h
    rfl

omit [LinearOrder K] in
theorem intensity_of_tryReport (h : tryReport M d x = .ok (some p)) :
    p.intensity = getPotholeIntensity (M.toInt (x.acceleration - d.previousAcceleration)) := by
  rw [tryReport] at h
  split at h
  · cases h
  · rename_i addresses _
    cases hsetup : setupReport M d x addresses with
    | error e =>
        rw [hsetup] at h
        cases h
    | ok p' =>
        rw [hsetup] at h
        cases h
        exact intensity_of_setupReport hsetup

end Report

namespace TracedDrive

variable {t t' : TracedDrive K}

/-- The triggers are a record only. -/
theorem map_drive_next (e : DriveEvent K) :
    (t.next M e).map TracedDrive.drive = t.drive.next M e := by
  cases e with
  | location location => rfl
  | sample x =>
      rw [TracedDrive.next, Drive.next]
      cases t.drive.detector.onSensorChanged M x <;> rfl

theorem traced_refines_drive :
    (tracedMachine M).Refines (driveMachine M) fun t s => t.drive = s := by
  refine ⟨rfl, ?_⟩
  rintro t t' s e rfl hstep
  refine .inr ⟨e, t'.drive, ?_, rfl⟩
  show t.drive.next M e = some t'.drive
  rw [← map_drive_next, show t.next M e = some t' from hstep, Option.map_some]

/-- What the detector remembers of the run. -/
structure Inv (t : TracedDrive K) : Prop where
  acceleration : t.drive.detector.previousAcceleration = t.drive.sampleBefore
  first : t.drive.samples = [] → t.drive.detector.isFirstPothole = true
  reports : t.triggers.map Trigger.report = t.drive.reports

/-- A report of a sample that has one before it. -/
theorem Inv.backed {x : Sample K} {p : Pothole K} (h : t.Inv) (hsamples : t.drive.samples ≠ [])
    (hshock : t.drive.detector.Shock x) (htry : tryReport M t.drive.detector x = .ok (some p)) :
    Trigger.Backed M ⟨t.drive.samples.getLast?, x.acceleration, p⟩ := by
  have hlast := List.getLast?_eq_some_getLast hsamples
  have hbefore : t.drive.detector.previousAcceleration = t.drive.samples.getLast hsamples := by
    rw [h.acceleration, Drive.sampleBefore, List.getLastD_eq_getLast?, hlast, Option.getD_some]
  refine ⟨_, hlast, ?_, ?_⟩
  · rw [← hbefore]
    exact hshock
  · rw [← hbefore]
    exact intensity_of_tryReport htry

theorem Inv.afterSample {x : Sample K} {report : Option (Pothole K)} {d : Detector K} (h : t.Inv)
    (hd : t.drive.detector.onSensorChanged M x = .ok (report, d)) :
    (t.afterSample x report d).Inv := by
  have hreports : (t.afterSample x report d).triggers.map Trigger.report =
      (t.afterSample x report d).drive.reports := by
    show (t.triggers ++ _).map Trigger.report = t.drive.reports ++ _
    rw [List.map_append, h.reports, List.map_map]
    simp [Function.comp_def]
  rcases Detector.onSensorChanged_cases hd with
    ⟨haccelerometer, rfl, rfl⟩ | ⟨haccelerometer, hacceleration, -⟩
  · have hsamples : (t.afterSample x none t.drive.detector).drive.samples = t.drive.samples :=
      if_neg (by simp [haccelerometer])
    refine ⟨?_, ?_, hreports⟩
    · rw [Drive.sampleBefore, hsamples]
      exact h.acceleration
    · rw [hsamples]
      exact h.first
  · have hsamples : (t.afterSample x report d).drive.samples =
        t.drive.samples ++ [x.acceleration] := if_pos haccelerometer
    refine ⟨?_, ?_, hreports⟩
    · rw [Drive.sampleBefore, hsamples, List.getLastD_concat]
      exact hacceleration
    · intro hnil
      rw [hsamples] at hnil
      simp at hnil

theorem Inv.next {e : DriveEvent K} (h : t.Inv) (hstep : t.next M e = some t') : t'.Inv := by
  cases e with
  | location location =>
      obtain rfl := Option.some.inj hstep
      cases location <;> exact ⟨h.acceleration, h.first, h.reports⟩
  | sample x =>
      rw [TracedDrive.next] at hstep
      split at hstep
      · rename_i report d hd
        obtain rfl := Option.some.inj hstep
        exact h.afterSample hd
      · cases hstep

theorem inv_of_reach {guard : TracedDrive K → DriveEvent K → Prop}
    (h : (tracedMachine M).Reach guard t) : t.Inv :=
  h.invariant (I := Inv) ⟨rfl, fun _ => rfl, rfl⟩ fun _ _ _ _ _ hI hstep => hI.next hstep

/-- A report triggered by a sample that is not an exposed first one. -/
theorem Inv.backed_of_report {x : Sample K} {p : Pothole K} {d : Detector K} (h : t.Inv)
    (hguard : FirstUnreported t (.sample x))
    (hd : t.drive.detector.onSensorChanged M x = .ok (some p, d)) :
    Trigger.Backed M ⟨t.drive.samples.getLast?, x.acceleration, p⟩ := by
  rcases Detector.onSensorChanged_cases hd with
    ⟨-, hnone, -⟩ | ⟨haccelerometer, -, hnone | ⟨hshock, hreports, htry⟩⟩
  · cases hnone
  · cases hnone
  · refine h.backed ?_ hshock htry
    intro hsamples
    rcases hguard haccelerometer hsamples with hlatitude | hfails
    · rw [Detector.Reports, if_pos (h.first hsamples)] at hreports
      exact hreports hlatitude
    · rw [tryReport_of_fails hfails] at htry
      cases htry

/-- **Reports are backed by two samples where the first sample is not
reported.**  Then each report is triggered by a sample that has one before it
and rises from it by the threshold, and the intensity is that of this rise. -/
theorem backed_of_reach (h : (tracedMachine M).Reach FirstUnreported t) :
    t.triggers.map Trigger.report = t.drive.reports ∧ ∀ r ∈ t.triggers, r.Backed M := by
  refine ⟨(inv_of_reach h).reports, ?_⟩
  refine h.invariant (I := fun t => ∀ r ∈ t.triggers, r.Backed M) ?_ ?_
  · intro r hr
    cases hr
  · intro t e t' hreach hguard hbacked hstep
    cases e with
    | location location =>
        obtain rfl := Option.some.inj hstep
        exact hbacked
    | sample x =>
        change t.next M (.sample x) = some t' at hstep
        rw [TracedDrive.next] at hstep
        split at hstep
        · rename_i report d hd
          obtain rfl := Option.some.inj hstep
          intro r hr
          rcases List.mem_append.1 hr with hold | hnew
          · exact hbacked r hold
          · cases report with
            | none => cases hnew
            | some p =>
                rw [Option.toList_some, List.map_singleton, List.mem_singleton] at hnew
                rw [hnew]
                exact (inv_of_reach hreach).backed_of_report hguard hd
        · cases hstep

/-- Where the geocoder finds a place and a latitude is there, the first sample
is reported, whatever it measures. -/
theorem exists_unbacked [IsStrictOrderedRing K] {x : Sample K}
    (h : (tracedMachine M).Reach Machine.anyStep t) (hsamples : t.drive.samples = [])
    (haccelerometer : x.isAccelerometer = true) (hpos : 0 ≤ x.acceleration)
    (hlatitude : t.drive.detector.latitude ≠ 0) (hgeocoder : x.geocoder.Succeeds) :
    ∃ t' r, t.next M (.sample x) = some t' ∧ r ∈ t'.triggers ∧ r.before = none := by
  have hinv := inv_of_reach h
  have hshock : t.drive.detector.Shock x := by
    have hbefore : t.drive.detector.previousAcceleration = -99999999 := by
      rw [hinv.acceleration, Drive.sampleBefore, hsamples]
      rfl
    rw [Detector.Shock, hbefore, threshold, sub_neg_eq_add]
    have hle : (10 : K) ≤ 99999999 := by norm_num
    exact hle.trans (le_add_of_nonneg_left hpos)
  have hreports : t.drive.detector.Reports M := by
    rw [Detector.Reports, if_pos (hinv.first hsamples)]
    exact hlatitude
  obtain ⟨p, hp, -⟩ := tryReport_of_succeeds (M := M) (d := t.drive.detector) hgeocoder
  obtain ⟨d, hd⟩ : ∃ d, t.drive.detector.onSensorChanged M x = .ok (some p, d) := by
    rw [Detector.onSensorChanged_of_reports haccelerometer hshock hreports, hp]
    exact ⟨_, rfl⟩
  refine ⟨t.afterSample x (some p) d, ⟨none, x.acceleration, p⟩, ?_, ?_, rfl⟩
  · rw [TracedDrive.next, hd]
  · refine List.mem_append_right _ ?_
    rw [hsamples]
    exact List.mem_singleton_self _

/-! ## A start while the car is at rest -/

/-- A location, and then a sample of the car at rest. -/
def restingStart : List (DriveEvent Int) :=
  [.location (some ⟨45, 9⟩), .sample ⟨true, 10,
    .returns (some [⟨some "Milano".toList, some "IT".toList⟩]), "fab".toList, "14/03/2024".toList⟩]

theorem backed_shockAt : ∃ t : TracedDrive Int, t.triggers.map Trigger.before = [some 10] ∧
    (t.triggers.map Trigger.report = t.drive.reports ∧
      ∀ r ∈ t.triggers, r.Backed Drive.wholeMeasures) := by
  obtain ⟨t, ht, htriggers⟩ : ∃ t, (tracedMachine Drive.wholeMeasures).Reach FirstUnreported t ∧
      t.triggers.map Trigger.before = [some 10] :=
    Machine.exists_reach_of_tryRun (Drive.shockAt 45) (by decide +kernel)
  exact ⟨t, htriggers, backed_of_reach ht⟩

theorem not_backed_restingStart :
    ¬ ∀ t : TracedDrive Int, (tracedMachine Drive.wholeMeasures).Reach Machine.anyStep t →
      ∀ r ∈ t.triggers, r.Backed Drive.wholeMeasures := by
  intro h
  obtain ⟨t, ht, htriggers⟩ : ∃ t, (tracedMachine Drive.wholeMeasures).Reach Machine.anyStep t ∧
      t.triggers.map Trigger.before = [none] :=
    Machine.exists_reach_of_tryRun restingStart (by decide +kernel)
  obtain ⟨r, hr, hnone⟩ : ∃ r ∈ t.triggers, r.before = none := by
    rw [← List.mem_map, htriggers]
    exact List.mem_singleton_self _
  obtain ⟨p, hp, -⟩ := h t ht r hr
  rw [hnone] at hp
  cases hp

end TracedDrive

end PotHub.App
