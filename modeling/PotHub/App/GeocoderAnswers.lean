import PotHub.App.Triggers
import PotHub.App.ServiceLife

/-!
# The answers of the geocoder

`onSensorChanged` asks the geocoder for the place of a shock that is to be
reported, and hands the report to `reportPotHole`, which sends it to the field
`handler`.

An `IOException` is caught.  A null list, an empty one, and a place that has no
locality each end the process, and so does a report that is made before the
background thread has set `handler` (`survives_iff`).
-/

namespace PotHub.App

open PotHub.Json PotHub.Lib

variable {K : Type}

/-- What `setupReport` makes of a locality and a country code. -/
def addressText (locality : Text) (countryCode : Option Text) : Text :=
  (locality.map fun c => if c = apostrophe then ' ' else c) ++ "#".toList ++
    countryCode.getD "null".toList

/-- The address of the report is made of a locality that the geocoder has
answered with. -/
def Pothole.NamedBy (p : Pothole K) (answer : GeocoderAnswer) : Prop :=
  ∃ locality countryCode rest,
    answer = .returns (some (⟨some locality, countryCode⟩ :: rest)) ∧
      p.address = addressText locality countryCode

variable [Ring K] [LinearOrder K] (M : Measures K)

namespace Detector

/-- `onSensorChanged` with `reportPotHole`, for a field `handler` that is set or
null: the calls of `reportPotHole`, and the fields behind it. -/
def onSensorChangedWith (handler : Bool) (d : Detector K) (x : Sample K) :
    Except JavaException (List (Pothole K) × Detector K) :=
  (d.onSensorChanged M x).bind fun
    | (none, d) => .ok ([], d)
    | (some report, d) => if handler then .ok ([report], d) else .error .nullPointer

/-- `onSensorChanged` returns with the magnitude remembered, and has called
`reportPotHole` once at most, with the name of a place. -/
def Survives (handler : Bool) (d : Detector K) (x : Sample K) : Prop :=
  ∃ calls d', d.onSensorChangedWith M handler x = .ok (calls, d') ∧
    d'.previousAcceleration = x.acceleration ∧ calls.length ≤ 1 ∧
      ∀ p ∈ calls, p.NamedBy x.geocoder

/-- If the geocoder is asked, it fails, or it finds a place with a name and the
handler is there. -/
def Answered (handler : Bool) (d : Detector K) (x : Sample K) : Prop :=
  d.Shock x → d.Reports M → x.geocoder.Fails ∨ x.geocoder.Succeeds ∧ handler = true

end Detector

variable {M}

/-- An instance that listens handles a sample so. -/
theorem Instance.onSample_eq {i : Instance K} {x : Sample K}
    {geocoder : LatLng K → GeocoderAnswer} (h : i.listening = true) :
    i.onSample M x geocoder =
      (i.detector.onSensorChangedWith M i.handler
        { x with geocoder := geocoder i.detector.current }).map fun p =>
          ({ i with detector := p.2, sent := i.sent ++ p.1.map .reportPothole }, p.1) := by
  rw [Instance.onSample, if_pos h, Detector.onSensorChangedWith]
  rcases i.detector.onSensorChanged M { x with geocoder := geocoder i.detector.current } with
    e | ⟨_ | report, d⟩
  · rfl
  · show Except.ok _ = Except.ok _
    simp
  · cases hhandler : i.handler with
    | false => rfl
    | true => rfl

theorem GeocoderAnswer.Succeeds.not_fails {answer : GeocoderAnswer} (h : answer.Succeeds) :
    ¬ answer.Fails := by
  cases answer with
  | ioException => exact absurd h id
  | returns addresses => exact id

namespace Detector

variable {handler : Bool} {d : Detector K} {x : Sample K}

omit [LinearOrder K] in
/-- The three kinds of answers. -/
theorem tryReport_cases (M : Measures K) (d : Detector K) (x : Sample K) :
    (x.geocoder.Fails ∧ tryReport M d x = .ok none) ∨
      (x.geocoder.Succeeds ∧ ∃ p, tryReport M d x = .ok (some p) ∧ p.NamedBy x.geocoder) ∨
        (¬ x.geocoder.Fails ∧ ¬ x.geocoder.Succeeds ∧ ∃ e, tryReport M d x = .error e) := by
  rcases x with ⟨accelerometer, acceleration, geocoder, username, today⟩
  rcases geocoder with _ | _ | _ | ⟨⟨_ | locality, code⟩, rest⟩
  · exact .inl ⟨trivial, rfl⟩
  · exact .inr (.inr ⟨id, id, _, rfl⟩)
  · exact .inr (.inr ⟨id, id, _, rfl⟩)
  · exact .inr (.inr ⟨id, Bool.false_ne_true, _, rfl⟩)
  · exact .inr (.inl ⟨rfl, _, rfl, locality, code, rest, rfl, rfl⟩)

theorem survives_of_no_report {d' : Detector K} (h : d.onSensorChanged M x = .ok (none, d'))
    (hacceleration : d'.previousAcceleration = x.acceleration) : d.Survives M handler x := by
  refine ⟨[], d', ?_, hacceleration, Nat.zero_le _, fun p hp => absurd hp List.not_mem_nil⟩
  rw [onSensorChangedWith, h]
  rfl

/-- A report needs the handler. -/
theorem survives_iff_of_report {p : Pothole K} {d' : Detector K}
    (h : d.onSensorChanged M x = .ok (some p, d'))
    (hacceleration : d'.previousAcceleration = x.acceleration) (hp : p.NamedBy x.geocoder) :
    d.Survives M handler x ↔ handler = true := by
  have heq : d.onSensorChangedWith M handler x =
      if handler then .ok ([p], d') else .error .nullPointer := by
    rw [onSensorChangedWith, h]
    rfl
  cases handler with
  | false =>
      refine iff_of_false ?_ Bool.false_ne_true
      rintro ⟨calls, d'', hcalls, -⟩
      rw [heq] at hcalls
      cases hcalls
  | true => exact iff_of_true ⟨[p], d', heq, hacceleration, le_rfl, by simpa using hp⟩ rfl

/-- **Which samples are survived.**  Those for which the geocoder is not asked,
or fails with an `IOException`, or finds a place with a name when the handler is
there. -/
theorem survives_iff (haccelerometer : x.isAccelerometer = true) :
    d.Survives M handler x ↔ d.Answered M handler x := by
  by_cases hshock : d.Shock x
  · by_cases hreports : d.Reports M
    · have hx := onSensorChanged_of_reports haccelerometer hshock hreports
      have hanswered : d.Answered M handler x ↔
          x.geocoder.Fails ∨ x.geocoder.Succeeds ∧ handler = true := by
        simp only [Answered, hshock, hreports, forall_const]
      rw [hanswered]
      rcases tryReport_cases M d x with
        ⟨hfails, htry⟩ | ⟨hsucceeds, p, htry, hp⟩ | ⟨hfails, hsucceeds, e, htry⟩
      · rw [htry] at hx
        exact iff_of_true (survives_of_no_report hx rfl) (.inl hfails)
      · rw [htry] at hx
        simp [survives_iff_of_report hx rfl hp, hsucceeds.not_fails, hsucceeds]
      · -- The exception of `setupReport` goes through.
        refine iff_of_false ?_ (by simp [hfails, hsucceeds])
        rintro ⟨calls, d', hcalls, -⟩
        rw [onSensorChangedWith, hx, htry] at hcalls
        cases hcalls
    · exact iff_of_true
        (survives_of_no_report (onSensorChanged_of_not_reports haccelerometer hshock hreports) rfl)
        fun _ h => absurd h hreports
  · exact iff_of_true
      (survives_of_no_report (onSensorChanged_of_not_shock haccelerometer hshock) rfl)
      fun h => absurd h hshock

/-! ## A shock at sea -/

/-- Behind a calm sample, with a location. -/
def calm : Detector Int := { init with previousAcceleration := 10, latitude := 45, longitude := 9 }

/-- A shock, with what the geocoder answers. -/
def shock (geocoder : GeocoderAnswer) : Sample Int :=
  ⟨true, 25, geocoder, "fab".toList, "14/03/2024".toList⟩

theorem survives_failure : calm.Survives Drive.wholeMeasures false (shock .ioException) :=
  (survives_iff rfl).2 fun _ _ => .inl trivial

/-- There is no place at the position. -/
theorem not_survives_noPlace :
    ¬ calm.Survives Drive.wholeMeasures true (shock (.returns (some []))) := by
  rintro ⟨calls, d', hcalls, -⟩
  have herror : calm.onSensorChangedWith Drive.wholeMeasures true (shock (.returns (some []))) =
      .error .indexOutOfBounds := rfl
  rw [herror] at hcalls
  cases hcalls

end Detector

end PotHub.App
