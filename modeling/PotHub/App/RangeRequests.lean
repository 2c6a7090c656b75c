import PotHub.App.Connection
import PotHub.Lib.Refinement
import Mathlib.Logic.Function.Basic

/-!
# The requests for a range

`RightHomeModel` with the threads that it starts, and the list that
`RightHomeFragment` holds.  A call writes its parameters to the fields of the
model, one after the other, and starts a thread; the thread reads the fields one
after the other, makes the request on a connection of its own and posts the
potholes to the thread of the user interface, which takes over what is posted in
that order.  Each read and each write is a step of its own, seen at once by the
other threads.  The listener is the presenter in every call and is left out.

Nothing tells a reply to an earlier call from one to the last call.  The list is
the one of the last call as long as no such reply comes in behind that of the
thread of the last call (`lastRange_of_reach`).
-/

namespace PotHub.App

open PotHub.Json PotHub.Lib

/-- The parameters of a call, and the fields of the model that take them. -/
structure RangeParams (K : Type) where
  meters : K
  latitude : K
  longitude : K
deriving DecidableEq

/-- A list for `onPotholesLoaded`. -/
structure RangeReply (K : Type) where
  /-- Ghost: what has been asked for. -/
  request : RangeParams K
  potholes : List (Option (Pothole K))
deriving DecidableEq

/-- Where a thread is. -/
inductive RangePhase (K : Type)
  /-- In `onSuccess`, with what it has read. -/
  | readsMeters
  | readsLatitude (meters : K)
  | readsLongitude (meters latitude : K)
  /-- The message is in the queue of the handler. -/
  | requesting (request : RangeParams K)
  /-- `onPotholesLoaded` has been called. -/
  | answered
  /-- The message is handled, without `onPotholesLoaded`. -/
  | failed
deriving DecidableEq

/-- Where the thread of the user interface is in `getPotholesByRange`. -/
inductive RangeCall (K : Type)
  | idle
  | writesMeters (params : RangeParams K)
  | writesLatitude (params : RangeParams K)
  | writesLongitude (params : RangeParams K)
  | startsThread (params : RangeParams K)
deriving DecidableEq

structure RightHome (K : Type) where
  /-- The fields of the model. -/
  fields : RangeParams K
  call : RangeCall K
  /-- How many threads have been started; they are numbered in that order. -/
  started : ℕ
  phase : ℕ → RangePhase K
  /-- What `runOnUiThread` has posted, with the number of the thread. -/
  posted : List (ℕ × RangeReply K)
  /-- The field `potholes` of the fragment. -/
  potholes : Option (RangeReply K)
  /-- Ghost: the parameters of the last call. -/
  lastCall : Option (RangeParams K)

inductive RangeEvent (K : Type)
  /-- A button is pressed. -/
  | getPotholesByRange (params : RangeParams K)
  /-- The call goes on. -/
  | callStep
  /-- A thread reads the next field. -/
  | read (thread : ℕ)
  /-- The handler of a thread handles the message. -/
  | handle (thread : ℕ) (network : Network)
  /-- What is posted first is run. -/
  | runPosted

variable {K : Type}

/-- The list for `onPotholesLoaded`, if it is called for the request. -/
def loadedPotholes (lib : Libraries K) (network : Network) (request : RangeParams K) :
    Except JavaException (Option (List (Option (Pothole K)))) :=
  ((CustomHandler.init (L := Unit)).handleMessage lib network
    (.getPotholesByRange request.latitude request.longitude request.meters ())).map fun h =>
      match h.calls with
      | [((), .onPotholesLoaded potholes)] => some potholes
      | _ => none

namespace RightHome

def init [Zero K] : RightHome K :=
  ⟨⟨0, 0, 0⟩, .idle, 0, fun _ => .readsMeters, [], none, none⟩

/-- The thread moves on. -/
def moved (s : RightHome K) (thread : ℕ) (phase : RangePhase K) : RightHome K :=
  { s with phase := Function.update s.phase thread phase }

/-- The next line of `getPotholesByRange`. -/
def callStep (s : RightHome K) : Option (RightHome K) :=
  match s.call with
  | .idle => none
  | .writesMeters p =>
      some { s with fields := { s.fields with meters := p.meters }, call := .writesLatitude p }
  | .writesLatitude p =>
      some { s with fields := { s.fields with latitude := p.latitude }, call := .writesLongitude p }
  | .writesLongitude p =>
      some { s with fields := { s.fields with longitude := p.longitude }, call := .startsThread p }
  | .startsThread _ =>
      some { s.moved s.started .readsMeters with started := s.started + 1, call := .idle }

/-- The arguments of the `CustomMessage` are read from left to right. -/
def read (s : RightHome K) (thread : ℕ) : Option (RightHome K) :=
  match s.phase thread with
  | .readsMeters => some (s.moved thread (.readsLatitude s.fields.meters))
  | .readsLatitude meters => some (s.moved thread (.readsLongitude meters s.fields.latitude))
  | .readsLongitude meters latitude =>
      some (s.moved thread (.requesting ⟨meters, latitude, s.fields.longitude⟩))
  | _ => none

/-- The handling of the message; there is no step when it ends in an
exception. -/
def handle (lib : Libraries K) (network : Network) (s : RightHome K) (thread : ℕ) :
    Option (RightHome K) :=
  match s.phase thread with
  | .requesting request =>
      match loadedPotholes lib network request with
      | .ok (some potholes) =>
          some { s.moved thread .answered with
            posted := s.posted ++ [(thread, ⟨request, potholes⟩)] }
      | .ok none => some (s.moved thread .failed)
      | .error _ => none
  | _ => none

/-- A step. -/
def next (lib : Libraries K) (s : RightHome K) : RangeEvent K → Option (RightHome K)
  | .getPotholesByRange p =>
      match s.call with
      | .idle => some { s with call := .writesMeters p, lastCall := some p }
      | _ => none
  | .callStep => s.callStep
  | .read thread => if thread < s.started then s.read thread else none
  | .handle thread network => if thread < s.started then s.handle lib network thread else none
  | .runPosted =>
      match s.call, s.posted with
      | .idle, (_, reply) :: posted => some { s with posted := posted, potholes := some reply }
      | _, _ => none

/-- The reply of the thread has been taken over. -/
def Shown (s : RightHome K) (thread : ℕ) : Prop :=
  s.phase thread = .answered ∧ ∀ entry ∈ s.posted, entry.1 ≠ thread

/-- Behind the reply of the thread of the last call, only replies for its
parameters come in. -/
def InTime (s : RightHome K) : RangeEvent K → Prop
  | .runPosted =>
      match s.posted with
      | [] => True
      | (_, reply) :: _ => s.Shown (s.started - 1) → some reply.request = s.lastCall
  | _ => True

/-- Once everything is answered, the list is one for the parameters of the last
call. -/
def LastRangeShown (s : RightHome K) : Prop :=
  s.call = .idle → 0 < s.started → (∀ thread < s.started, s.phase thread = .answered) →
    s.posted = [] → s.potholes.map RangeReply.request = s.lastCall

section Decidable

variable [DecidableEq K]

instance (s : RightHome K) (thread : ℕ) : Decidable (s.Shown thread) :=
  inferInstanceAs (Decidable (_ ∧ _))

instance (s : RightHome K) (event : RangeEvent K) : Decidable (s.InTime event) :=
  match event with
  | .runPosted =>
      match h : s.posted with
      | [] => isTrue (by simp [InTime, h])
      | (_, reply) :: _ =>
          decidable_of_iff (s.Shown (s.started - 1) → some reply.request = s.lastCall)
            (by simp [InTime, h])
  | .getPotholesByRange _ => isTrue trivial
  | .callStep => isTrue trivial
  | .read _ => isTrue trivial
  | .handle _ _ => isTrue trivial

instance (s : RightHome K) : Decidable s.LastRangeShown :=
  inferInstanceAs (Decidable (_ → _ → _ → _ → _))

end Decidable

end RightHome

/-- The model and the fragment as a machine. -/
def rangeMachine [Zero K] (lib : Libraries K) : Machine (RightHome K) (RangeEvent K) where
  init := .init
  step := RightHome.next lib

/-! ## The thread of the last call -/

/-- What the thread has read agrees with the fields. -/
def RangePhase.Agrees (fields : RangeParams K) : RangePhase K → Prop
  | .readsMeters => True
  | .readsLatitude meters => meters = fields.meters
  | .readsLongitude meters latitude => meters = fields.meters ∧ latitude = fields.latitude
  | .requesting request => request = fields
  | .answered => True
  | .failed => True

/-- What a call has written so far agrees with its parameters, which are those of
the last call. -/
def RangeCall.Written (fields : RangeParams K) (lastCall : Option (RangeParams K)) :
    RangeCall K → Prop
  | .idle => True
  | .writesMeters p => lastCall = some p
  | .writesLatitude p => lastCall = some p ∧ fields.meters = p.meters
  | .writesLongitude p =>
      lastCall = some p ∧ fields.meters = p.meters ∧ fields.latitude = p.latitude
  | .startsThread p => lastCall = some p ∧ fields = p

namespace RightHome

/-- Between two calls the last thread works with the parameters of the last
call. -/
structure LastThread (s : RightHome K) (thread : ℕ) : Prop where
  fields : s.lastCall = some s.fields
  agrees : (s.phase thread).Agrees s.fields
  posted : ∀ entry ∈ s.posted, entry.1 = thread → entry.2.request = s.fields
  shown : s.Shown thread → ∃ reply, s.potholes = some reply ∧ reply.request = s.fields

structure Fresh (s : RightHome K) : Prop where
  written : s.call.Written s.fields s.lastCall
  posted_lt : ∀ entry ∈ s.posted, entry.1 < s.started
  last : ∀ thread, s.call = .idle → s.started = thread + 1 → s.LastThread thread

variable {s s' : RightHome K}

theorem moved_phase_self (s : RightHome K) (thread : ℕ) (phase : RangePhase K) :
    (s.moved thread phase).phase thread = phase :=
  Function.update_self ..

theorem moved_phase_of_ne (s : RightHome K) {thread other : ℕ} (hother : other ≠ thread)
    (phase : RangePhase K) : (s.moved thread phase).phase other = s.phase other :=
  Function.update_of_ne hother ..

theorem fresh_init [Zero K] : (init : RightHome K).Fresh where
  written := trivial
  posted_lt _ hentry := by simp [init] at hentry
  last _ _ hstarted := by simp [init] at hstarted

/-- A thread goes from one phase to another and its reply is not yet taken
over. -/
theorem Fresh.moved (h : s.Fresh) {thread : ℕ} {phase : RangePhase K}
    (hagrees : (s.phase thread).Agrees s.fields → phase.Agrees s.fields)
    (hphase : phase ≠ .answered) : (s.moved thread phase).Fresh where
  written := h.written
  posted_lt := h.posted_lt
  last last hidle hlast := by
    have hl := h.last last hidle hlast
    -- only the phase of the last thread counts
    by_cases hthread : thread = last
    · subst hthread
      have hself := s.moved_phase_self thread phase
      refine ⟨hl.fields, ?_, hl.posted, fun hshown => ?_⟩
      · rw [hself]
        exact hagrees hl.agrees
      · exact absurd (hself.symm.trans hshown.1) hphase
    · have hother := s.moved_phase_of_ne (Ne.symm hthread) phase
      refine ⟨hl.fields, ?_, hl.posted, fun hshown => ?_⟩
      · rw [hother]
        exact hl.agrees
      · exact hl.shown ⟨hother.symm.trans hshown.1, hshown.2⟩

theorem Fresh.callStep (h : s.Fresh) (hstep : s.callStep = some s') : s'.Fresh := by
  have hwritten := h.written
  rw [RightHome.callStep] at hstep
  cases hcall : s.call with
  | idle => simp [hcall] at hstep
  | writesMeters p =>
      simp only [hcall, Option.some.injEq] at hstep hwritten
      subst hstep
      exact ⟨⟨hwritten, rfl⟩, h.posted_lt, fun _ hidle => by simp at hidle⟩
  | writesLatitude p =>
      simp only [hcall, Option.some.injEq] at hstep hwritten
      subst hstep
      exact ⟨⟨hwritten.1, hwritten.2, rfl⟩, h.posted_lt, fun _ hidle => by simp at hidle⟩
  | writesLongitude p =>
      simp only [hcall, Option.some.injEq] at hstep hwritten
      obtain ⟨hlast, hmeters, hlatitude⟩ := hwritten
      subst hstep
      refine ⟨⟨hlast, ?_⟩, h.posted_lt, fun _ hidle => by simp at hidle⟩
      show RangeParams.mk s.fields.meters s.fields.latitude p.longitude = p
      rw [hmeters, hlatitude]
  | startsThread p =>
      simp only [hcall, Option.some.injEq] at hstep hwritten
      obtain ⟨hlast, hfields⟩ := hwritten
      subst hstep
      refine ⟨trivial, fun entry hentry => Nat.lt_succ_of_lt (h.posted_lt entry hentry), ?_⟩
      intro thread _ hthread
      obtain rfl : s.started = thread := Nat.succ_injective hthread
      have hself := s.moved_phase_self s.started .readsMeters
      refine ⟨hlast.trans (congrArg some hfields.symm), ?_, ?_, ?_⟩
      · show ((s.moved s.started .readsMeters).phase s.started).Agrees s.fields
        rw [hself]
        trivial
      · -- nothing is posted under the new number
        intro entry hentry hthread
        exact absurd (h.posted_lt entry hentry) (Nat.not_lt.2 hthread.ge)
      · intro hshown
        cases hself.symm.trans hshown.1

theorem Fresh.read (h : s.Fresh) {thread : ℕ} (hstep : s.read thread = some s') : s'.Fresh := by
  rw [RightHome.read] at hstep
  cases hphase : s.phase thread with
  | readsMeters =>
      simp only [hphase, Option.some.injEq] at hstep
      subst hstep
      exact h.moved (fun _ => rfl) (by simp)
  | readsLatitude meters =>
      simp only [hphase, Option.some.injEq] at hstep
      subst hstep
      refine h.moved (fun hread => ⟨?_, rfl⟩) (by simp)
      rw [hphase] at hread
      exact hread
  | readsLongitude meters latitude =>
      simp only [hphase, Option.some.injEq] at hstep
      subst hstep
      refine h.moved (fun hread => ?_) (by simp)
      rw [hphase] at hread
      obtain ⟨rfl, rfl⟩ := hread
      rfl
  | requesting request => simp [hphase] at hstep
  | answered => simp [hphase] at hstep
  | failed => simp [hphase] at hstep

/-- The reply of a thread is posted. -/
theorem Fresh.posted (h : s.Fresh) {thread : ℕ} {request : RangeParams K}
    {potholes : List (Option (Pothole K))} (hlt : thread < s.started)
    (hphase : s.phase thread = .requesting request) :
    Fresh { s.moved thread .answered with
      posted := s.posted ++ [(thread, ⟨request, potholes⟩)] } where
  written := h.written
  posted_lt entry hentry := by
    rcases List.mem_append.1 hentry with hentry | hentry
    · exact h.posted_lt entry hentry
    · obtain rfl := List.mem_singleton.1 hentry
      exact hlt
  last last hidle hlast := by
    have hl := h.last last hidle hlast
    refine ⟨hl.fields, ?_, ?_, ?_⟩
    · show ((s.moved thread .answered).phase last).Agrees s.fields
      by_cases hthread : last = thread
      · rw [hthread, moved_phase_self]
        trivial
      · rw [s.moved_phase_of_ne hthread]
        exact hl.agrees
    · intro entry hentry hthread
      rcases List.mem_append.1 hentry with hentry | hentry
      · exact hl.posted entry hentry hthread
      · obtain rfl := List.mem_singleton.1 hentry
        have hagrees := hl.agrees
        rw [← hthread, hphase] at hagrees
        exact hagrees
    · rintro ⟨hanswered, hposted⟩
      have hthread : thread ≠ last :=
        hposted _ (List.mem_append_right _ (List.mem_singleton_self _))
      refine hl.shown ⟨?_, fun entry hentry => hposted entry (List.mem_append_left _ hentry)⟩
      exact (s.moved_phase_of_ne hthread.symm _).symm.trans hanswered

theorem Fresh.handle {lib : Libraries K} {network : Network} (h : s.Fresh) {thread : ℕ}
    (hlt : thread < s.started) (hstep : s.handle lib network thread = some s') : s'.Fresh := by
  rw [RightHome.handle] at hstep
  cases hphase : s.phase thread with
  | requesting request =>
      simp only [hphase] at hstep
      rcases hloaded : loadedPotholes lib network request with e | _ | potholes
      · simp [hloaded] at hstep
      · simp only [hloaded, Option.some.injEq] at hstep
        subst hstep
        exact h.moved (fun _ => trivial) (by simp)
      · simp only [hloaded, Option.some.injEq] at hstep
        subst hstep
        exact h.posted hlt hphase
  | readsMeters => simp [hphase] at hstep
  | readsLatitude meters => simp [hphase] at hstep
  | readsLongitude meters latitude => simp [hphase] at hstep
  | answered => simp [hphase] at hstep
  | failed => simp [hphase] at hstep

/-- A reply is taken over; the guard excludes one that is too late. -/
theorem Fresh.runPosted (h : s.Fresh) {thread : ℕ} {reply : RangeReply K}
    {posted : List (ℕ × RangeReply K)} (hposted : s.posted = (thread, reply) :: posted)
    (hguard : s.InTime .runPosted) :
    Fresh { s with posted := posted, potholes := some reply } where
  written := h.written
  posted_lt entry hentry := h.posted_lt entry (hposted ▸ List.mem_cons_of_mem _ hentry)
  last last hidle hlast := by
    have hl := h.last last hidle hlast
    refine ⟨hl.fields, hl.agrees, ?_, ?_⟩
    · exact fun entry hentry => hl.posted entry (hposted ▸ List.mem_cons_of_mem _ hentry)
    · rintro ⟨hanswered, hother⟩
      refine ⟨reply, rfl, ?_⟩
      by_cases hthread : thread = last
      · exact hl.posted (thread, reply) (hposted ▸ List.mem_cons_self) hthread
      · -- the reply of another thread, behind that of the last: what the guard is about
        have hshown : s.Shown (s.started - 1) := by
          rw [hlast]
          refine ⟨hanswered, fun entry hentry => ?_⟩
          rw [hposted] at hentry
          rcases List.mem_cons.1 hentry with rfl | hentry
          · exact hthread
          · exact hother entry hentry
        have hrequest : some reply.request = s.lastCall := by
          simp only [InTime, hposted] at hguard
          exact hguard hshown
        exact Option.some.inj (hrequest.trans hl.fields)

theorem Fresh.next {lib : Libraries K} {event : RangeEvent K} (h : s.Fresh)
    (hguard : s.InTime event) (hstep : s.next lib event = some s') : s'.Fresh := by
  cases event with
  | getPotholesByRange p =>
      cases hcall : s.call with
      | idle =>
          simp only [RightHome.next, hcall, Option.some.injEq] at hstep
          subst hstep
          exact ⟨rfl, h.posted_lt, fun _ hidle => by simp at hidle⟩
      | _ => simp [RightHome.next, hcall] at hstep
  | callStep => exact h.callStep hstep
  | read thread =>
      simp only [RightHome.next, Option.ite_none_right_eq_some] at hstep
      exact h.read hstep.2
  | handle thread network =>
      simp only [RightHome.next, Option.ite_none_right_eq_some] at hstep
      exact h.handle hstep.1 hstep.2
  | runPosted =>
      rcases hposted : s.posted with _ | ⟨⟨thread, reply⟩, posted⟩
      · cases hcall : s.call <;> simp [RightHome.next, hposted, hcall] at hstep
      · cases hcall : s.call with
        | idle =>
            simp only [RightHome.next, hposted, hcall, Option.some.injEq] at hstep
            subst hstep
            rw [← hcall]
            exact h.runPosted hposted hguard
        | _ => simp [RightHome.next, hcall] at hstep

theorem fresh_of_reach [Zero K] {lib : Libraries K} (h : (rangeMachine lib).Reach InTime s) :
    s.Fresh :=
  h.invariant (I := Fresh) fresh_init fun _ _ _ _ hguard hI hstep => hI.next hguard hstep

/-- A reply to an earlier call that comes in last of all is shown for the last
call. -/
theorem not_lastRangeShown_of_late {lib : Libraries K} {thread : ℕ} {reply : RangeReply K}
    (hidle : s.call = .idle) (hstarted : 0 < s.started)
    (hanswered : ∀ thread < s.started, s.phase thread = .answered)
    (hposted : s.posted = [(thread, reply)]) (hlate : some reply.request ≠ s.lastCall)
    (hstep : s.next lib .runPosted = some s') : ¬ s'.LastRangeShown := by
  simp only [RightHome.next, hidle, hposted, Option.some.injEq] at hstep
  subst hstep
  exact fun hshown => hlate (hshown rfl hstarted hanswered rfl)

/-- **The last range.**  In every run in which no reply for other parameters
comes in behind that of the thread of the last call, the list held once
everything is answered is one for the parameters of the last call. -/
theorem lastRange_of_reach [Zero K] {lib : Libraries K}
    (h : (rangeMachine lib).Reach InTime s) : s.LastRangeShown := by
  intro hidle hstarted hanswered hposted
  obtain ⟨last, hlast⟩ := Nat.exists_eq_succ_of_ne_zero hstarted.ne'
  have hl := (fresh_of_reach h).last last hidle hlast
  have hshown : s.Shown last := by
    refine ⟨hanswered last (hlast ▸ Nat.lt_succ_self last), fun entry hentry => ?_⟩
    rw [hposted] at hentry
    cases hentry
  obtain ⟨reply, hreply, hrequest⟩ := hl.shown hshown
  rw [hreply, hl.fields, Option.map_some, hrequest]

/-- The server answers with an empty array. -/
def emptyReplies : Libraries ℤ where
  toJson _ _ := []
  fromJson _ := .ok (some [])
  toText _ := ['0']

def emptyLine : Network := ⟨.succeeds, .returns (some ['[', ']']), .succeeds⟩

/-- A press of a button and the reads of the thread that is started. -/
def callAndReads (meters : ℤ) (thread : ℕ) : List (RangeEvent ℤ) :=
  .getPotholesByRange ⟨meters, 45, 9⟩ ::
    (List.replicate 4 .callStep ++ List.replicate 3 (.read thread))

/-- The buttons for 100 and for 250 metres. -/
def twoCalls : List (RangeEvent ℤ) := callAndReads 100 0 ++ callAndReads 250 1

/-- Two calls, each thread with the parameters of its call; the replies come in
the order of the calls. -/
theorem lastRange_of_repliesInOrder :
    ∃ s, (rangeMachine emptyReplies).Reach InTime s ∧
      (s.started = 2 ∧ s.posted = []) ∧ s.LastRangeShown := by
  have hrun : ∃ s, (rangeMachine emptyReplies).Reach InTime s ∧ s.started = 2 ∧ s.posted = [] :=
    Machine.exists_reach_of_tryRun
      (twoCalls ++ [.handle 0 emptyLine, .handle 1 emptyLine, .runPosted, .runPosted])
      (by decide +kernel)
  obtain ⟨s, hs, hend⟩ := hrun
  exact ⟨s, hs, hend, lastRange_of_reach hs⟩

/-- The same two calls; the first is answered last. -/
theorem not_lastRange_of_repliesSwapped :
    ¬ ∀ s, (rangeMachine emptyReplies).Reach Machine.anyStep s → s.LastRangeShown := by
  intro hall
  have hrun : ∃ s, (rangeMachine emptyReplies).Reach Machine.anyStep s ∧ ¬ s.LastRangeShown :=
    Machine.exists_reach_of_tryRun
      (twoCalls ++ [.handle 1 emptyLine, .handle 0 emptyLine, .runPosted, .runPosted])
      (by decide +kernel)
  obtain ⟨s, hs, hend⟩ := hrun
  exact hend (hall s hs)

end RightHome

end PotHub.App
