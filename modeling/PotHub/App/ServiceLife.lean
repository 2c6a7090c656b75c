import PotHub.App.Connection
import PotHub.Lib.Refinement
import Mathlib.Algebra.Order.Ring.Int
import Mathlib.Data.List.Forall2

/-!
# The life of the location service

The commands that come to `onStartCommand` of `LocationService`, the samples of
the accelerometer and the updates of the location.  A start after a stop makes a
new instance, and comes behind `onDestroy` of the old one.

A start registers the instance with the sensors and for the updates of the
location.  A stop takes back the second, and nothing takes back the first: an
instance that is destroyed goes on with its detector.  So the samples are
processed as they should be up to the first stop (`clean_iff_of_reach`).  What an
instance that is started once sends to its handler is a tracking session, as
`App.Connection` has it, and behind it what a destroyed instance still reports
(`sessions_of_reach`).

The foreground state, which `App.Connectivity` is about, is left out, and of the
background thread it is kept whether its handler is there.
-/

namespace PotHub.App

open PotHub.Json PotHub.Lib

/-- A `LocationService`. -/
structure Instance (K : Type) where
  detector : Detector K
  /-- It is registered with the `sensor_manager`. -/
  listening : Bool
  /-- It has asked for updates of the location. -/
  locating : Bool
  /-- The background thread is started. -/
  thread : Bool
  /-- The field `handler` is set. -/
  handler : Bool
  /-- What has been sent to the handler. -/
  sent : List (Message K Unit)

structure ServiceLife (K : Type) where
  /-- The instance that is not destroyed. -/
  current : Option (Instance K)
  /-- `stopSelf` has been called, and `onDestroy` is to come. -/
  stopping : Bool
  /-- The instances that are destroyed. -/
  past : List (Instance K)
  /-- What the current instances have handed to their handlers. -/
  reports : List (Pothole K)
  /-- What has been handed to a handler behind `onDestroy`. -/
  lateReports : List (Pothole K)
  /-- Ghost: `onDestroy` has run, and no start has come since. -/
  atRest : Bool

inductive ServiceEvent (K : Type)
  /-- `onStartCommand` with `ACTION_START_LOCATION_SERVICE`. -/
  | start
  /-- `onStartCommand` with `ACTION_STP_LOCATION_SERVICE`. -/
  | stop
  /-- The background thread calls `onSuccess`. -/
  | handlerReady
  | onDestroy
  | location (location : Option (LatLng K))
  /-- A sample, with what the geocoder answers for a position. -/
  | sample (sample : Sample K) (geocoder : LatLng K → GeocoderAnswer)

variable {K : Type} [Ring K] [LinearOrder K] (M : Measures K)

namespace Instance

def init : Instance K := ⟨.init, false, false, false, false, []⟩

def start (i : Instance K) : Instance K :=
  { i with listening := true, locating := true, thread := true }

/-- `stopService`. -/
def stop (i : Instance K) : Instance K := { i with locating := false }

def onLocationResult (location : Option (LatLng K)) (i : Instance K) : Instance K :=
  if i.locating then { i with detector := i.detector.onLocationResult location } else i

def send (message : Message K Unit) (i : Instance K) : Instance K :=
  { i with sent := i.sent ++ [message] }

/-- What an instance makes of a sample, with what it hands to its handler. -/
def onSample (sample : Sample K) (geocoder : LatLng K → GeocoderAnswer) (i : Instance K) :
    Except JavaException (Instance K × List (Pothole K)) :=
  if i.listening then
    (i.detector.onSensorChanged M { sample with geocoder := geocoder i.detector.current }).bind
      fun
      | (none, d) => .ok ({ i with detector := d }, [])
      | (some report, d) =>
          if i.handler then .ok ({ i with detector := d }.send (.reportPothole report), [report])
          else .error .nullPointer
  else .ok (i, [])

/-- The same for several instances, one after the other. -/
def onSampleAll (sample : Sample K) (geocoder : LatLng K → GeocoderAnswer) :
    List (Instance K) → Except JavaException (List (Instance K) × List (Pothole K))
  | [] => .ok ([], [])
  | i :: is =>
      (i.onSample M sample geocoder).bind fun p =>
        (onSampleAll sample geocoder is).map fun q => (p.1 :: q.1, p.2 ++ q.2)

end Instance

namespace ServiceLife

def init : ServiceLife K := ⟨none, false, [], [], [], false⟩

/-- The instance that a command is for: it is created if there is none. -/
def target (s : ServiceLife K) : Instance K := s.current.getD .init

/-- A step; there is none when the process ends in an exception. -/
def next (s : ServiceLife K) : ServiceEvent K → Option (ServiceLife K)
  | .start =>
      if s.stopping then none
      else some { s with current := some s.target.start, atRest := false }
  | .stop => some { s with current := some s.target.stop, stopping := true }
  | .handlerReady =>
      match s.current with
      | some i =>
          if i.thread then
            some { s with
              current := some ({ i with handler := true }.send .openConnectionWithServer) }
          else none
      | none => none
  | .onDestroy =>
      match s.current with
      | some i =>
          -- without a handler, sending `CLOSE_CONNECTION_WITH_SERVER` ends the process
          if s.stopping ∧ i.handler then
            some { s with
              current := none
              stopping := false
              past := s.past ++ [i.send .closeConnectionWithServer]
              atRest := true }
          else none
      | none => none
  | .location location =>
      some { s with
        current := s.current.map (Instance.onLocationResult location)
        past := s.past.map (Instance.onLocationResult location) }
  | .sample sample geocoder =>
      match Instance.onSampleAll M sample geocoder s.past,
        Instance.onSampleAll M sample geocoder s.current.toList with
      | .ok (past, late), .ok (current, reports) =>
          some { s with
            current := current.head?
            past := past
            reports := s.reports ++ reports
            lateReports := s.lateReports ++ late }
      | _, _ => none

/-- The instances that process a sample. -/
def processors (s : ServiceLife K) : List (Instance K) :=
  (s.past ++ s.current.toList).filter Instance.listening

/-- A sample is processed by one instance at most, and by none between
`onDestroy` and the next start; it is reported once at most, and nothing is
handed to the handler of an instance that is destroyed. -/
structure Clean (s : ServiceLife K) (sample : Sample K)
    (geocoder : LatLng K → GeocoderAnswer) : Prop where
  one : s.processors.length ≤ 1
  none_at_rest : s.atRest = true → s.processors = []
  reports : ∀ s', s.next M (.sample sample geocoder) = some s' →
    s'.reports.length ≤ s.reports.length + 1
  lateReports : ∀ s', s.next M (.sample sample geocoder) = some s' →
    s'.lateReports = s.lateReports

end ServiceLife

/-- The service as a machine. -/
def serviceMachine : Machine (ServiceLife K) (ServiceEvent K) where
  init := .init
  step := ServiceLife.next M

variable {M}

/-! ## What a sample leaves alone -/

namespace Instance

variable {i i' : Instance K} {sample : Sample K} {geocoder : LatLng K → GeocoderAnswer}
  {new : List (Pothole K)}

/-- The second is the first with another state of the detector and, if there is a
handler, with more reports. -/
def Keeps (i i' : Instance K) : Prop :=
  ∃ d reports, i' = { i with detector := d, sent := i.sent ++ reports.map .reportPothole } ∧
    (i.handler = false → reports = [])

omit [Ring K] [LinearOrder K] in
theorem keeps_detector (i : Instance K) (d : Detector K) : i.Keeps { i with detector := d } :=
  ⟨d, [], by rw [List.map_nil, List.append_nil], fun _ => rfl⟩

omit [Ring K] [LinearOrder K] in
theorem keeps_onLocationResult (location : Option (LatLng K)) (i : Instance K) :
    i.Keeps (i.onLocationResult location) := by
  rw [onLocationResult]
  by_cases hlocating : i.locating = true
  · rw [if_pos hlocating]
    exact keeps_detector i _
  · rw [if_neg hlocating]
    exact keeps_detector i i.detector

theorem onSample_ok (h : i.onSample M sample geocoder = .ok (i', new)) :
    i.Keeps i' ∧ new.length ≤ ([i].filter listening).length := by
  rw [onSample] at h
  by_cases hlistening : i.listening = true
  · rw [if_pos hlistening] at h
    rw [List.filter_cons_of_pos hlistening]
    rcases hsensor : i.detector.onSensorChanged M
        { sample with geocoder := geocoder i.detector.current } with e | ⟨_ | report, d⟩
    · rw [hsensor] at h
      cases h
    · rw [hsensor] at h
      cases h
      exact ⟨keeps_detector i d, Nat.zero_le _⟩
    · rw [hsensor] at h
      by_cases hhandler : i.handler = true
      · simp only [Except.bind, hhandler, if_true, Except.ok.injEq, Prod.mk.injEq] at h
        obtain ⟨rfl, rfl⟩ := h
        exact ⟨⟨d, [report], by simp [send, hhandler], by simp [hhandler]⟩, le_refl 1⟩
      · simp [Except.bind, hhandler] at h
  · rw [if_neg hlistening] at h
    cases h
    exact ⟨keeps_detector i i.detector, Nat.zero_le _⟩

theorem onSampleAll_ok {is is' : List (Instance K)}
    (h : onSampleAll M sample geocoder is = .ok (is', new)) :
    List.Forall₂ Keeps is is' ∧ new.length ≤ (is.filter listening).length := by
  induction is generalizing is' new with
  | nil =>
      cases h
      exact ⟨.nil, le_refl 0⟩
  | cons i is ih =>
      rw [onSampleAll] at h
      rcases hi : i.onSample M sample geocoder with e | ⟨i₁, new₁⟩
      · rw [hi] at h
        cases h
      · rcases his : onSampleAll M sample geocoder is with e | ⟨is₁, news⟩
        · rw [hi, his] at h
          cases h
        · rw [hi, his] at h
          cases h
          obtain ⟨hkeeps, hlength⟩ := onSample_ok hi
          obtain ⟨hall, hlengths⟩ := ih his
          refine ⟨.cons hkeeps hall, ?_⟩
          rw [List.length_append, ← List.singleton_append, List.filter_append, List.length_append]
          exact Nat.add_le_add hlength hlengths

end Instance

/-! ## The registrations -/

namespace ServiceLife

variable {s s' : ServiceLife K} {sample : Sample K} {geocoder : LatLng K → GeocoderAnswer}

/-- The registrations of an instance: a handler takes a start, and so does the
registration with the sensors, which is never taken back. -/
structure Registered (s : ServiceLife K) : Prop where
  past : ∀ i ∈ s.past, i.listening = true ∧ i.locating = false
  thread : ∀ i, s.current = some i → i.handler = true → i.thread = true
  listening : ∀ i, s.current = some i → i.thread = true → i.listening = true
  locating : ∀ i, s.current = some i → s.stopping = true → i.locating = false
  at_rest : s.atRest = true → s.past ≠ []
  awake : s.past ≠ [] → s.atRest = false → ∃ i, s.current = some i ∧ i.listening = true

/-- Only the states of the detectors are others. -/
structure Moved (s s' : ServiceLife K) : Prop where
  past : List.Forall₂ Instance.Keeps s.past s'.past
  current : List.Forall₂ Instance.Keeps s.current.toList s'.current.toList
  stopping : s'.stopping = s.stopping
  atRest : s'.atRest = s.atRest

omit [Ring K] [LinearOrder K] in
theorem Moved.of_past (h : Moved s s') {i' : Instance K} (hi' : i' ∈ s'.past) :
    ∃ i ∈ s.past, i.Keeps i' := by
  obtain ⟨n, hn, rfl⟩ := List.getElem_of_mem hi'
  have hlength := h.past.length_eq
  exact ⟨s.past[n], List.getElem_mem _, h.past.get (hlength ▸ hn) hn⟩

omit [Ring K] [LinearOrder K] in
theorem Moved.of_current (h : Moved s s') {i' : Instance K} (hi' : s'.current = some i') :
    ∃ i, s.current = some i ∧ i.Keeps i' := by
  have hall := h.current
  rw [hi'] at hall
  cases hcurrent : s.current with
  | none =>
      rw [hcurrent] at hall
      cases hall
  | some i =>
      rw [hcurrent] at hall
      cases hall with
      | cons hkeeps _ => exact ⟨i, rfl, hkeeps⟩

omit [Ring K] [LinearOrder K] in
theorem Moved.to_current (h : Moved s s') {i : Instance K} (hi : s.current = some i) :
    ∃ i', s'.current = some i' ∧ i.Keeps i' := by
  have hall := h.current
  rw [hi] at hall
  cases hcurrent : s'.current with
  | none =>
      rw [hcurrent] at hall
      cases hall
  | some i' =>
      rw [hcurrent] at hall
      cases hall with
      | cons hkeeps _ => exact ⟨i', rfl, hkeeps⟩

omit [Ring K] [LinearOrder K] in
theorem Registered.moved (h : s.Registered) (hm : Moved s s') : s'.Registered where
  past i' hi' := by
    obtain ⟨i, hi, d, reports, rfl, -⟩ := hm.of_past hi'
    exact h.past i hi
  thread i' hi' := by
    obtain ⟨i, hi, d, reports, rfl, -⟩ := hm.of_current hi'
    exact h.thread i hi
  listening i' hi' := by
    obtain ⟨i, hi, d, reports, rfl, -⟩ := hm.of_current hi'
    exact h.listening i hi
  locating i' hi' hstopping := by
    obtain ⟨i, hi, d, reports, rfl, -⟩ := hm.of_current hi'
    exact h.locating i hi (hm.stopping ▸ hstopping)
  at_rest hrest hnil := by
    have hpast : s.past = [] := by
      rw [← List.length_eq_zero_iff, hm.past.length_eq, hnil, List.length_nil]
    exact h.at_rest (hm.atRest ▸ hrest) hpast
  awake hpast hrest := by
    have hpast' : s.past ≠ [] := by
      intro hnil
      refine hpast (List.length_eq_zero_iff.1 ?_)
      rw [← hm.past.length_eq, hnil, List.length_nil]
    obtain ⟨i, hi, hlistening⟩ := h.awake hpast' (hm.atRest ▸ hrest)
    obtain ⟨i', hi', d, reports, rfl, -⟩ := hm.to_current hi
    exact ⟨_, hi', hlistening⟩

theorem moved_of_location {location : Option (LatLng K)}
    (hstep : s.next M (.location location) = some s') : Moved s s' := by
  simp only [ServiceLife.next, Option.some.injEq] at hstep
  subst hstep
  refine ⟨?_, ?_, rfl, rfl⟩
  · exact List.forall₂_map_right_iff.2
      (List.forall₂_same.2 fun i _ => i.keeps_onLocationResult location)
  · cases hcurrent : s.current with
    | none => exact .nil
    | some i => exact .cons (i.keeps_onLocationResult location) .nil

/-! ## What an event makes of the state -/

theorem start_eq_some (hstep : s.next M .start = some s') :
    s.stopping ≠ true ∧ s' = { s with current := some s.target.start, atRest := false } := by
  simp only [ServiceLife.next, Option.ite_none_left_eq_some, Option.some.injEq] at hstep
  exact ⟨hstep.1, hstep.2.symm⟩

theorem handlerReady_eq_some (hstep : s.next M .handlerReady = some s') :
    ∃ i, s.current = some i ∧ i.thread = true ∧ s' = { s with
      current := some ({ i with handler := true }.send .openConnectionWithServer) } := by
  cases hcurrent : s.current with
  | none => simp [ServiceLife.next, hcurrent] at hstep
  | some i =>
      simp only [ServiceLife.next, hcurrent, Option.ite_none_right_eq_some,
        Option.some.injEq] at hstep
      exact ⟨i, rfl, hstep.1, hstep.2.symm⟩

theorem onDestroy_eq_some (hstep : s.next M .onDestroy = some s') :
    ∃ i, s.current = some i ∧ (s.stopping = true ∧ i.handler = true) ∧ s' = { s with
      current := none, stopping := false
      past := s.past ++ [i.send .closeConnectionWithServer], atRest := true } := by
  cases hcurrent : s.current with
  | none => simp [ServiceLife.next, hcurrent] at hstep
  | some i =>
      simp only [ServiceLife.next, hcurrent, Option.ite_none_right_eq_some,
        Option.some.injEq] at hstep
      exact ⟨i, rfl, hstep.1, hstep.2.symm⟩

theorem sample_eq_some (hstep : s.next M (.sample sample geocoder) = some s') :
    ∃ past late current reports,
      Instance.onSampleAll M sample geocoder s.past = .ok (past, late) ∧
      Instance.onSampleAll M sample geocoder s.current.toList = .ok (current, reports) ∧
      s' = { s with
        current := current.head?, past := past
        reports := s.reports ++ reports, lateReports := s.lateReports ++ late } := by
  rcases hpast : Instance.onSampleAll M sample geocoder s.past with e | ⟨past, late⟩
  · simp [ServiceLife.next, hpast] at hstep
  · rcases hcurrent : Instance.onSampleAll M sample geocoder s.current.toList
      with e | ⟨current, reports⟩
    · simp [ServiceLife.next, hpast, hcurrent] at hstep
    · simp only [ServiceLife.next, hpast, hcurrent, Option.some.injEq] at hstep
      exact ⟨past, late, current, reports, rfl, rfl, hstep.symm⟩

theorem moved_of_sample (hstep : s.next M (.sample sample geocoder) = some s') : Moved s s' := by
  obtain ⟨past, late, current, reports, hpast, hcurrent, rfl⟩ := sample_eq_some hstep
  refine ⟨(Instance.onSampleAll_ok hpast).1, ?_, rfl, rfl⟩
  have hall := (Instance.onSampleAll_ok hcurrent).1
  show List.Forall₂ Instance.Keeps s.current.toList current.head?.toList
  cases hs : s.current with
  | none =>
      rw [hs] at hall
      cases hall
      exact .nil
  | some i =>
      rw [hs] at hall
      cases hall with
      | cons hkeeps hnil =>
          cases hnil
          exact .cons hkeeps .nil

omit [Ring K] [LinearOrder K] in
theorem registered_init : (init : ServiceLife K).Registered where
  past _ hi := by cases hi
  thread _ hi := by cases hi
  listening _ hi := by cases hi
  locating _ hi := by cases hi
  at_rest hrest := by cases hrest
  awake hpast := absurd rfl hpast

omit [LinearOrder K] in
/-- A command finds the registrations of the current instance, or a new one. -/
theorem Registered.target (h : s.Registered) :
    (s.target.handler = true → s.target.thread = true) ∧
      (s.target.thread = true → s.target.listening = true) := by
  rw [ServiceLife.target]
  cases hcurrent : s.current with
  | none => exact ⟨fun hhandler => (by cases hhandler), fun hthread => (by cases hthread)⟩
  | some i => exact ⟨h.thread i hcurrent, h.listening i hcurrent⟩

omit [Ring K] [LinearOrder K] in
/-- The registrations where there is a current instance. -/
theorem Registered.of_current {i : Instance K} (hcurrent : s.current = some i)
    (hpast : ∀ j ∈ s.past, j.listening = true ∧ j.locating = false)
    (hthread : i.handler = true → i.thread = true)
    (hlistening : i.thread = true → i.listening = true)
    (hlocating : s.stopping = true → i.locating = false) (hrest : s.atRest = true → s.past ≠ [])
    (hawake : s.past ≠ [] → s.atRest = false → i.listening = true) : s.Registered where
  past := hpast
  thread j hj := by
    obtain rfl := Option.some.inj (hcurrent.symm.trans hj)
    exact hthread
  listening j hj := by
    obtain rfl := Option.some.inj (hcurrent.symm.trans hj)
    exact hlistening
  locating j hj := by
    obtain rfl := Option.some.inj (hcurrent.symm.trans hj)
    exact hlocating
  at_rest := hrest
  awake hne hawake' := ⟨i, hcurrent, hawake hne hawake'⟩

theorem Registered.next {event : ServiceEvent K} (h : s.Registered)
    (hstep : s.next M event = some s') : s'.Registered := by
  cases event with
  | start =>
      obtain ⟨hstopping, rfl⟩ := start_eq_some hstep
      exact .of_current rfl h.past (fun _ => rfl) (fun _ => rfl)
        (fun hstop => absurd hstop hstopping) (fun hrest => (by cases hrest)) fun _ _ => rfl
  | stop =>
      simp only [ServiceLife.next, Option.some.injEq] at hstep
      subst hstep
      refine .of_current rfl h.past h.target.1 h.target.2 (fun _ => rfl) h.at_rest ?_
      intro hpast hrest
      obtain ⟨i, hi, hlistening⟩ := h.awake hpast hrest
      show s.target.listening = true
      rw [ServiceLife.target, hi]
      exact hlistening
  | handlerReady =>
      obtain ⟨i, hcurrent, hthread, rfl⟩ := handlerReady_eq_some hstep
      exact .of_current rfl h.past (fun _ => hthread) (h.listening i hcurrent)
        (h.locating i hcurrent) h.at_rest fun _ _ => h.listening i hcurrent hthread
  | onDestroy =>
      obtain ⟨i, hcurrent, ⟨hstopping, hhandler⟩, rfl⟩ := onDestroy_eq_some hstep
      refine ⟨fun j hj => ?_, fun _ hj => (by cases hj), fun _ hj => (by cases hj),
        fun _ hj => (by cases hj), fun _ hnil => ?_, fun _ hrest => (by cases hrest)⟩
      · rcases List.mem_append.1 hj with hj | hj
        · exact h.past j hj
        · obtain rfl := List.mem_singleton.1 hj
          exact ⟨h.listening i hcurrent (h.thread i hcurrent hhandler),
            h.locating i hcurrent hstopping⟩
      · exact List.append_ne_nil_of_right_ne_nil s.past (List.cons_ne_nil _ []) hnil
  | location location => exact h.moved (moved_of_location hstep)
  | sample sample geocoder => exact h.moved (moved_of_sample hstep)

theorem registered_of_reach {guard : ServiceLife K → ServiceEvent K → Prop}
    (h : (serviceMachine M).Reach guard s) : s.Registered :=
  h.invariant (I := Registered) registered_init fun _ _ _ _ _ hI hstep => hI.next hstep

/-! ## What is sent to the handlers -/

/-- Each instance is started once, and its handler gets ready once. -/
def StartsOnce (s : ServiceLife K) : ServiceEvent K → Prop
  | .start => s.current = none
  | .handlerReady => ∀ i, s.current = some i → i.handler = false
  | _ => True

/-- The current instance has sent the beginning of a tracking session, and each
that is destroyed a whole one, with reports behind it. -/
structure Sessions (s : ServiceLife K) : Prop where
  waiting : ∀ i, s.current = some i → i.handler = false → i.sent = []
  opened : ∀ i, s.current = some i → i.handler = true →
    ∃ reports : List (Pothole K),
      i.sent = .openConnectionWithServer :: reports.map .reportPothole
  finished : ∀ i ∈ s.past, ∃ reports late : List (Pothole K),
    i.sent = CustomHandler.sessionMessages reports ++ late.map .reportPothole

omit [Ring K] [LinearOrder K] in
theorem Sessions.moved (h : s.Sessions) (hm : Moved s s') : s'.Sessions where
  waiting i' hi' hhandler := by
    obtain ⟨i, hi, d, reports, rfl, hnone⟩ := hm.of_current hi'
    rw [h.waiting i hi hhandler, hnone hhandler]
    rfl
  opened i' hi' hhandler := by
    obtain ⟨i, hi, d, reports, rfl, -⟩ := hm.of_current hi'
    obtain ⟨before, hsent⟩ := h.opened i hi hhandler
    exact ⟨before ++ reports, by rw [hsent, List.map_append, List.cons_append]⟩
  finished i' hi' := by
    obtain ⟨i, hi, d, reports, rfl, -⟩ := hm.of_past hi'
    obtain ⟨before, late, hsent⟩ := h.finished i hi
    exact ⟨before, late ++ reports, by rw [hsent, List.map_append, List.append_assoc]⟩

omit [LinearOrder K] in
/-- A command finds what has been sent by the current instance, or nothing. -/
theorem Sessions.target (h : s.Sessions) :
    (s.target.handler = false → s.target.sent = []) ∧
      (s.target.handler = true →
        ∃ reports : List (Pothole K),
          s.target.sent = .openConnectionWithServer :: reports.map .reportPothole) := by
  rw [ServiceLife.target]
  cases hcurrent : s.current with
  | none => exact ⟨fun _ => rfl, fun hhandler => (by cases hhandler)⟩
  | some i => exact ⟨h.waiting i hcurrent, h.opened i hcurrent⟩

omit [Ring K] [LinearOrder K] in
/-- What has been sent where there is a current instance. -/
theorem Sessions.of_current {i : Instance K} (hcurrent : s.current = some i)
    (hwaiting : i.handler = false → i.sent = [])
    (hopened : i.handler = true → ∃ reports : List (Pothole K),
      i.sent = .openConnectionWithServer :: reports.map .reportPothole)
    (hfinished : ∀ j ∈ s.past, ∃ reports late : List (Pothole K),
      j.sent = CustomHandler.sessionMessages reports ++ late.map .reportPothole) :
    s.Sessions where
  waiting j hj := by
    obtain rfl := Option.some.inj (hcurrent.symm.trans hj)
    exact hwaiting
  opened j hj := by
    obtain rfl := Option.some.inj (hcurrent.symm.trans hj)
    exact hopened
  finished := hfinished

theorem Sessions.next {event : ServiceEvent K} (h : s.Sessions) (honce : s.StartsOnce event)
    (hstep : s.next M event = some s') : s'.Sessions := by
  cases event with
  | start =>
      obtain ⟨-, rfl⟩ := start_eq_some hstep
      exact .of_current rfl h.target.1 h.target.2 h.finished
  | stop =>
      simp only [ServiceLife.next, Option.some.injEq] at hstep
      subst hstep
      exact .of_current rfl h.target.1 h.target.2 h.finished
  | handlerReady =>
      obtain ⟨i, hcurrent, -, rfl⟩ := handlerReady_eq_some hstep
      refine .of_current rfl (fun hhandler => (by cases hhandler)) ?_ h.finished
      intro _
      refine ⟨[], ?_⟩
      show i.sent ++ [.openConnectionWithServer] = _
      rw [h.waiting i hcurrent (honce i hcurrent)]
      rfl
  | onDestroy =>
      obtain ⟨i, hcurrent, ⟨-, hhandler⟩, rfl⟩ := onDestroy_eq_some hstep
      refine ⟨fun _ hj => (by cases hj), fun _ hj => (by cases hj), fun j hj => ?_⟩
      rcases List.mem_append.1 hj with hj | hj
      · exact h.finished j hj
      · obtain rfl := List.mem_singleton.1 hj
        obtain ⟨reports, hsent⟩ := h.opened i hcurrent hhandler
        refine ⟨reports, [], ?_⟩
        show i.sent ++ [.closeConnectionWithServer] = _
        rw [hsent, List.map_nil, List.append_nil]
        rfl
  | location location => exact h.moved (moved_of_location hstep)
  | sample sample geocoder => exact h.moved (moved_of_sample hstep)

/-- Where each instance is started once, the messages that go to its handler are
those of a tracking session, up to `onDestroy`. -/
theorem sessions_of_reach (h : (serviceMachine M).Reach StartsOnce s) : s.Sessions := by
  refine h.invariant (I := Sessions) ?_ fun _ _ _ _ honce hI hstep => hI.next honce hstep
  exact ⟨fun _ hi => (by cases hi), fun _ hi => (by cases hi), fun _ hi => (by cases hi)⟩

/-- So whatever the network does, a handler gets the messages of a tracking
session from an instance that is destroyed. -/
theorem trackingSession_of_reach (h : (serviceMachine M).Reach StartsOnce s) {i : Instance K}
    (hi : i ∈ s.past) (atOpen atClose network : Network) :
    ∃ (reports : List (Network × Pothole K)) (late : List (Pothole K)),
      (∀ report ∈ reports, report.1 = network) ∧
      i.sent = (CustomHandler.trackingSession atOpen atClose reports).map Prod.snd ++
        late.map .reportPothole := by
  obtain ⟨reports, late, hsent⟩ := (sessions_of_reach h).finished i hi
  refine ⟨reports.map fun report => (network, report), late, ?_, ?_⟩
  · intro report hreport
    obtain ⟨p, -, rfl⟩ := List.mem_map.1 hreport
    rfl
  · rw [hsent, CustomHandler.trackingSession_map_snd, List.map_map]
    simp [Function.comp_def]

/-! ## Samples -/

/-- Before the first `onDestroy` there is one instance at most. -/
theorem clean_of_past_nil (h : s.Registered) (hpast : s.past = []) :
    s.Clean M sample geocoder where
  one := by
    rw [processors, hpast, List.nil_append]
    refine (List.length_filter_le _ _).trans ?_
    cases s.current <;> simp
  none_at_rest hrest := absurd hpast (h.at_rest hrest)
  reports s' hstep := by
    obtain ⟨past, late, current, reports, -, hcurrent, rfl⟩ := sample_eq_some hstep
    have hlength : reports.length ≤ 1 := by
      refine (Instance.onSampleAll_ok hcurrent).2.trans ((List.length_filter_le _ _).trans ?_)
      cases s.current <;> simp
    rw [List.length_append]
    exact Nat.add_le_add_left hlength _
  lateReports s' hstep := by
    obtain ⟨past, late, current, reports, hlate, -, rfl⟩ := sample_eq_some hstep
    rw [hpast] at hlate
    cases hlate
    exact List.append_nil _

/-- An instance that is destroyed still processes every sample. -/
theorem past_nil_of_clean (h : s.Registered) (hclean : s.Clean M sample geocoder) :
    s.past = [] := by
  by_contra hpast
  obtain ⟨i, past, heq⟩ := List.exists_cons_of_ne_nil hpast
  have hi : i.listening = true := (h.past i (heq ▸ List.mem_cons_self)).1
  have hprocessors : s.processors = i :: (past ++ s.current.toList).filter Instance.listening := by
    rw [processors, heq, List.cons_append, List.filter_cons_of_pos hi]
  cases hrest : s.atRest with
  | true =>
      -- between two sessions it is alone
      have hnone := hclean.none_at_rest hrest
      rw [hprocessors] at hnone
      cases hnone
  | false =>
      -- in a session it is there beside the current one
      obtain ⟨j, hj, hlistening⟩ := h.awake hpast hrest
      have hone := hclean.one
      rw [hprocessors, hj, List.filter_append, List.length_cons, List.length_append] at hone
      have hlast : ((some j).toList.filter Instance.listening).length = 1 := by
        simp [hlistening]
      omega

/-- **One live detector.**  In every state that a run reaches, a sample is
processed as it should be exactly when no instance has been destroyed so far. -/
theorem clean_iff_of_reach (h : (serviceMachine M).Reach Machine.anyStep s) (sample : Sample K)
    (geocoder : LatLng K → GeocoderAnswer) : s.Clean M sample geocoder ↔ s.past = [] :=
  ⟨past_nil_of_clean (registered_of_reach h), clean_of_past_nil (registered_of_reach h)⟩

/-- A sample of the accelerometer. -/
def calm (acceleration : ℤ) : Sample ℤ := ⟨true, acceleration, .ioException, [], []⟩

def noAddress (_ : LatLng ℤ) : GeocoderAnswer := .ioException

/-- The service is started, and a sample comes. -/
theorem clean_of_firstSession :
    ∃ s : ServiceLife ℤ, (s.processors.length = 1 ∧ s.past = []) ∧
      (s.Clean ⟨fun _ _ => 0, id⟩ (calm 9) noAddress ↔ s.past = []) := by
  have hrun : ∃ s, (serviceMachine (K := ℤ) ⟨fun _ _ => 0, id⟩).Reach Machine.anyStep s ∧
      s.processors.length = 1 ∧ s.past.length = 0 :=
    Machine.exists_reach_of_tryRun [.start, .handlerReady, .sample (calm 9) noAddress]
      (by decide +kernel)
  obtain ⟨s, hs, hend⟩ := hrun
  exact ⟨s, ⟨hend.1, List.length_eq_zero_iff.1 hend.2⟩, clean_iff_of_reach hs _ _⟩

/-- After the second start a sample is processed twice. -/
theorem not_clean_of_restart :
    ¬ ∀ s, (serviceMachine (K := ℤ) ⟨fun _ _ => 0, id⟩).Reach Machine.anyStep s →
      s.Clean ⟨fun _ _ => 0, id⟩ (calm 9) noAddress := by
  intro hall
  have hrun : ∃ s, (serviceMachine (K := ℤ) ⟨fun _ _ => 0, id⟩).Reach Machine.anyStep s ∧
      s.processors.length = 2 :=
    Machine.exists_reach_of_tryRun
      [.start, .handlerReady, .stop, .onDestroy, .start, .handlerReady] (by decide +kernel)
  obtain ⟨s, hs, hend⟩ := hrun
  have hone := (hall s hs).one
  rw [hend] at hone
  exact absurd hone (by decide)

end ServiceLife

end PotHub.App
