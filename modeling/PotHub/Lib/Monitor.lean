import PotHub.Lib.Runs
import Mathlib.Data.Fintype.Basic
import Mathlib.Logic.Function.Basic

/-!
# Monitors with two conditions

Threads of two sides share a resource under one mutex.  A thread takes the
mutex, waits on the condition of its side while that side is blocked, acts on
the resource, gives the mutex back, and then signals the other side.  Waiting
gives the mutex back and falls asleep in one step; a signal wakes at least one
sleeper of the other side, if there is one; a sleeper may also wake by itself.
Between two rounds a thread is away, where its steps leave alone what the sides
wait for.

No wake-up is lost (`Monitor.watched_of_reach`): whenever all threads of a side
sleep, the side is blocked, or a thread of the other side has acted and not yet
signalled.  Nor does the mutex stop the threads (`Monitor.exists_progress`).
-/

namespace PotHub.Lib

universe u v w

/-- What the threads of a monitor share and do. -/
structure Monitor (X : Type u) (ρ : Type v) (α : Type w) where
  /-- The side of a thread. -/
  side : X → Bool
  manned : ∀ b, ∃ x, side x = b
  /-- The condition on which the threads of a side wait. -/
  blocked : Bool → ρ → Prop
  /-- The action of a thread in its critical section. -/
  act : X → ρ → ρ
  /-- May the thread start a round? -/
  ready : X → ρ → Prop
  /-- The steps of a thread that is away. -/
  outside : X → α → ρ → Option ρ
  outside_blocked : ∀ {x a r r'}, outside x a r = some r' → ∀ b, blocked b r' ↔ blocked b r
  act_ready : ∀ {x y r}, x ≠ y → ready x r → ready x (act y r)
  outside_ready : ∀ {x y a r r'}, x ≠ y → outside y a r = some r' → ready x r → ready x r'

/-- Where a thread is in its round. -/
inductive Phase
  /-- Between two rounds. -/
  | away
  /-- At the lock. -/
  | locking
  /-- With the mutex, in front of the test. -/
  | checking
  /-- In the wait, without the mutex. -/
  | asleep
  /-- Woken up, and without the mutex. -/
  | waking
  /-- With the mutex, behind the action. -/
  | acted
  /-- Behind the unlock, in front of the signal. -/
  | signalling
deriving DecidableEq, Repr

/-- The thread has the mutex. -/
def Phase.Inside (p : Phase) : Prop := p = .checking ∨ p = .acted

/-- The thread is in a round, in front of its action. -/
def Phase.InFront (p : Phase) : Prop :=
  p = .locking ∨ p = .checking ∨ p = .asleep ∨ p = .waking

/-- The thread has acted and not yet signalled. -/
def Phase.Owes (p : Phase) : Prop := p = .acted ∨ p = .signalling

namespace Monitor

variable {X : Type u} {ρ : Type v} {α : Type w}

/-- A state of the monitor. -/
structure State (X : Type u) (ρ : Type v) where
  resource : ρ
  mutex : Option X
  phase : X → Phase

/-- The steps. -/
inductive Event (X : Type u) (α : Type w)
  /-- A step of a thread that is away. -/
  | outside (x : X) (a : α)
  | enter (x : X)
  | lock (x : X)
  /-- The wait: the mutex is given back. -/
  | wait (x : X)
  /-- A sleeper wakes up without a signal. -/
  | spurious (x : X)
  /-- The wait returns, with the mutex. -/
  | relock (x : X)
  | act (x : X)
  | unlock (x : X)
  /-- The signal, and the threads that it wakes. -/
  | signal (x : X) (woken : Finset X)
deriving DecidableEq

/-- The steps inside a round that nobody but the threads themselves decides. -/
def Event.Progress : Event X α → Prop
  | .lock _ | .wait _ | .relock _ | .act _ | .unlock _ | .signal _ _ => True
  | _ => False

variable (M : Monitor X ρ α)

/-- When is an event possible? -/
def Enabled (s : State X ρ) : Event X α → Prop
  | .outside x a => s.phase x = .away ∧ (M.outside x a s.resource).isSome
  | .enter x => s.phase x = .away ∧ M.ready x s.resource
  | .lock x => s.phase x = .locking ∧ s.mutex = none
  | .wait x => s.phase x = .checking ∧ M.blocked (M.side x) s.resource
  | .spurious x => s.phase x = .asleep
  | .relock x => s.phase x = .waking ∧ s.mutex = none
  | .act x => s.phase x = .checking ∧ ¬ M.blocked (M.side x) s.resource
  | .unlock x => s.phase x = .acted
  | .signal x woken => s.phase x = .signalling ∧
      (∀ y ∈ woken, M.side y ≠ M.side x ∧ s.phase y = .asleep) ∧
      (woken = ∅ → ∀ y, M.side y ≠ M.side x → s.phase y ≠ .asleep)

variable [DecidableEq X]

/-- The state after an event. -/
def next (s : State X ρ) : Event X α → State X ρ
  | .outside x a => { s with resource := (M.outside x a s.resource).getD s.resource }
  | .enter x => { s with phase := Function.update s.phase x .locking }
  | .lock x => { s with mutex := some x, phase := Function.update s.phase x .checking }
  | .wait x => { s with mutex := none, phase := Function.update s.phase x .asleep }
  | .spurious x => { s with phase := Function.update s.phase x .waking }
  | .relock x => { s with mutex := some x, phase := Function.update s.phase x .checking }
  | .act x =>
      { s with resource := M.act x s.resource, phase := Function.update s.phase x .acted }
  | .unlock x => { s with mutex := none, phase := Function.update s.phase x .signalling }
  | .signal x woken =>
      { s with
        phase := Function.update (fun y => if y ∈ woken then .waking else s.phase y) x .away }

/-- All threads away. -/
def init (resource : ρ) : State X ρ := ⟨resource, none, fun _ => .away⟩

variable {M} {s : State X ρ} {x : X} {p : Phase}

/-! ## The mutex -/

/-- Exactly the threads inside have the mutex. -/
def Locked (s : State X ρ) : Prop := ∀ x, s.mutex = some x ↔ (s.phase x).Inside

omit [DecidableEq X] in
theorem Locked.of_keep {s' : State X ρ} (h : Locked s) (hmutex : s'.mutex = s.mutex)
    (hphase : ∀ y, (s'.phase y).Inside ↔ (s.phase y).Inside) : Locked s' :=
  fun y => by rw [hmutex, hphase, h y]

/-- The mutex is taken by a thread. -/
theorem Locked.of_take (h : Locked s) (hfree : s.mutex = none) (hp : p.Inside) :
    Locked { s with mutex := some x, phase := Function.update s.phase x p } := by
  intro y
  by_cases hy : y = x
  · subst hy
    simpa using hp
  · have hout : ¬ (s.phase y).Inside := fun hin => by simp [(h y).2 hin] at hfree
    simpa [hy, Ne.symm hy] using hout

/-- The mutex is given back by the thread that has it. -/
theorem Locked.of_release (h : Locked s) (hin : (s.phase x).Inside) (hp : ¬ p.Inside) :
    Locked { s with mutex := none, phase := Function.update s.phase x p } := by
  intro y
  by_cases hy : y = x
  · subst hy
    simpa using hp
  · have hout : ¬ (s.phase y).Inside := fun hin' =>
      hy (Option.some.inj (((h y).2 hin').symm.trans ((h x).2 hin)))
    simpa [hy] using hout

/-- A thread moves without the mutex, or within its section. -/
theorem Locked.of_move (h : Locked s) (hp : p.Inside ↔ (s.phase x).Inside) {resource : ρ} :
    Locked { s with resource := resource, phase := Function.update s.phase x p } := by
  refine h.of_keep rfl fun y => ?_
  by_cases hy : y = x
  · subst hy
    simpa using hp
  · simp [hy]

theorem Locked.next (h : Locked s) {e : Event X α} (he : M.Enabled s e) :
    Locked (M.next s e) := by
  cases e with
  | outside x a => exact h.of_keep rfl fun _ => Iff.rfl
  | enter x => exact h.of_move (by simp [he.1, Phase.Inside])
  | lock x => exact h.of_take he.2 (by simp [Phase.Inside])
  | wait x => exact h.of_release (by simp [he.1, Phase.Inside]) (by simp [Phase.Inside])
  | spurious x =>
      have he : s.phase x = .asleep := he
      exact h.of_move (by simp [he, Phase.Inside])
  | relock x => exact h.of_take he.2 (by simp [Phase.Inside])
  | act x => exact h.of_move (by simp [he.1, Phase.Inside])
  | unlock x =>
      have he : s.phase x = .acted := he
      exact h.of_release (by simp [he, Phase.Inside]) (by simp [Phase.Inside])
  | signal x woken =>
      refine h.of_keep rfl fun y => ?_
      by_cases hy : y = x
      · subst hy
        simp [Monitor.next, he.1, Phase.Inside]
      · by_cases hw : y ∈ woken
        · simp [Monitor.next, hy, hw, (he.2.1 y hw).2, Phase.Inside]
        · simp [Monitor.next, hy, hw]

/-! ## The wake-ups -/

/-- Whenever all threads of a side sleep, the side is blocked, or a thread of
the other side still has a signal to issue. -/
def Watched (M : Monitor X ρ α) (s : State X ρ) : Prop :=
  ∀ b, (∀ x, M.side x = b → s.phase x = .asleep) →
    M.blocked b s.resource ∨ ∃ y, M.side y ≠ b ∧ (s.phase y).Owes

/-- A thread moves that does not fall asleep, and that keeps what it owes. -/
theorem Watched.of_move (h : M.Watched s) (hp : p ≠ .asleep)
    (howes : (s.phase x).Owes → p.Owes) {mutex : Option X} :
    M.Watched { s with mutex := mutex, phase := Function.update s.phase x p } := by
  intro b hb
  have hx : M.side x ≠ b := fun hx => hp (by simpa using hb x hx)
  have hsleep : ∀ y, M.side y = b → s.phase y = .asleep := by
    intro y hy
    have hne : y ≠ x := fun h => hx (h ▸ hy)
    simpa [hne] using hb y hy
  refine (h b hsleep).imp_right ?_
  rintro ⟨y, hy, hyo⟩
  by_cases hyx : y = x
  · subst hyx
    exact ⟨y, hy, by simpa using howes hyo⟩
  · exact ⟨y, hy, by simpa [hyx] using hyo⟩

/-- A thread falls asleep in front of its condition. -/
theorem Watched.of_wait (h : M.Watched s) (hx : s.phase x = .checking)
    (hblocked : M.blocked (M.side x) s.resource) : M.Watched (M.next s (.wait x)) := by
  intro b hb
  by_cases hxb : M.side x = b
  · exact Or.inl (hxb ▸ hblocked)
  · have hsleep : ∀ y, M.side y = b → s.phase y = .asleep := by
      intro y hy
      have hne : y ≠ x := fun h => hxb (h ▸ hy)
      simpa [next, hne] using hb y hy
    refine (h b hsleep).imp_right ?_
    rintro ⟨y, hy, hyo⟩
    have hne : y ≠ x := by
      rintro rfl
      simp [hx, Phase.Owes] at hyo
    exact ⟨y, hy, by simpa [next, hne] using hyo⟩

/-- A signal wakes a thread of the other side, if all of them sleep. -/
theorem Watched.of_signal {woken : Finset X} (he : M.Enabled s (.signal x woken)) :
    M.Watched (M.next s (.signal x woken)) := by
  obtain ⟨-, hwoken, hempty⟩ := he
  intro b hb
  have hx : M.side x ≠ b := fun hx => by simpa [next] using hb x hx
  obtain ⟨y, hy⟩ := M.manned b
  have hyx : y ≠ x := fun h => hx (h ▸ hy)
  have hyw : y ∉ woken := fun hw => by simpa [next, hyx, hw] using hb y hy
  have hysleep : s.phase y = .asleep := by simpa [next, hyx, hyw] using hb y hy
  have hne : woken ≠ ∅ := fun h0 => hempty h0 y (hy ▸ hx.symm) hysleep
  obtain ⟨z, hz⟩ := Finset.nonempty_iff_ne_empty.2 hne
  have hzb : M.side z = b := by
    rw [Bool.eq_not_of_ne (hwoken z hz).1, Bool.eq_not_of_ne hx, Bool.not_not]
  have hzx : z ≠ x := fun h => hx (h ▸ hzb)
  simpa [next, hzx, hz] using hb z hzb

theorem Watched.next (h : M.Watched s) {e : Event X α} (he : M.Enabled s e) :
    M.Watched (M.next s e) := by
  cases e with
  | outside x a =>
      obtain ⟨r, hr⟩ := Option.isSome_iff_exists.1 he.2
      intro b hb
      have hres : (M.next s (.outside x a)).resource = r := by simp [Monitor.next, hr]
      rw [hres, M.outside_blocked hr]
      exact h b hb
  | enter x => exact h.of_move (by simp) (by simp [he.1, Phase.Owes])
  | lock x => exact h.of_move (by simp) (by simp [he.1, Phase.Owes])
  | wait x => exact h.of_wait he.1 he.2
  | spurious x =>
      have he : s.phase x = .asleep := he
      exact h.of_move (by simp) (by simp [he, Phase.Owes])
  | relock x => exact h.of_move (by simp) (by simp [he.1, Phase.Owes])
  | act x =>
      intro b hb
      have hx : M.side x ≠ b := fun hx => by simpa [Monitor.next] using hb x hx
      exact Or.inr ⟨x, hx, by simp [Monitor.next, Phase.Owes]⟩
  | unlock x => exact h.of_move (by simp) (by simp [Phase.Owes])
  | signal x woken => exact Watched.of_signal he

/-! ## Readiness -/

/-- In front of its action, a thread is ready for it. -/
def Ready (M : Monitor X ρ α) (s : State X ρ) : Prop :=
  ∀ x, (s.phase x).InFront → M.ready x s.resource

/-- A thread moves within a round, or at the end of one. -/
theorem Ready.of_move (h : M.Ready s) (hp : p.InFront → (s.phase x).InFront)
    {mutex : Option X} :
    M.Ready { s with mutex := mutex, phase := Function.update s.phase x p } := by
  intro y hy
  by_cases hyx : y = x
  · subst hyx
    exact h y (hp (by simpa using hy))
  · exact h y (by simpa [hyx] using hy)

theorem Ready.next (h : M.Ready s) {e : Event X α} (he : M.Enabled s e) :
    M.Ready (M.next s e) := by
  cases e with
  | outside x a =>
      obtain ⟨r, hr⟩ := Option.isSome_iff_exists.1 he.2
      have hres : (M.next s (.outside x a)).resource = r := by simp [Monitor.next, hr]
      intro y hy
      have hfront : (s.phase y).InFront := hy
      have hne : y ≠ x := by
        rintro rfl
        simp [he.1, Phase.InFront] at hfront
      rw [hres]
      exact M.outside_ready hne hr (h y hfront)
  | enter x =>
      intro y hy
      by_cases hyx : y = x
      · subst hyx
        exact he.2
      · exact h y (by simpa [Monitor.next, hyx] using hy)
  | lock x => exact h.of_move (by simp [he.1, Phase.InFront])
  | wait x => exact h.of_move (by simp [he.1, Phase.InFront])
  | spurious x =>
      have he : s.phase x = .asleep := he
      exact h.of_move (by simp [he, Phase.InFront])
  | relock x => exact h.of_move (by simp [he.1, Phase.InFront])
  | act x =>
      intro y hy
      have hne : y ≠ x := by
        rintro rfl
        simp [Monitor.next, Phase.InFront] at hy
      exact M.act_ready hne (h y (by simpa [Monitor.next, hne] using hy))
  | unlock x => exact h.of_move (by simp [Phase.InFront])
  | signal x woken =>
      intro y hy
      by_cases hyx : y = x
      · subst hyx
        simp [Monitor.next, Phase.InFront] at hy
      · by_cases hw : y ∈ woken
        · exact h y (by simp [(he.2.1 y hw).2, Phase.InFront])
        · exact h y (by simpa [Monitor.next, hyx, hw] using hy)

/-! ## Runs -/

variable [Fintype X] [∀ b r, Decidable (M.blocked b r)] [∀ x r, Decidable (M.ready x r)]

instance : DecidablePred (M.Enabled s)
  | .outside _ _ => inferInstanceAs (Decidable (_ ∧ _))
  | .enter _ => inferInstanceAs (Decidable (_ ∧ _))
  | .lock _ => inferInstanceAs (Decidable (_ ∧ _))
  | .wait _ => inferInstanceAs (Decidable (_ ∧ _))
  | .spurious _ => inferInstanceAs (Decidable (_ = _))
  | .relock _ => inferInstanceAs (Decidable (_ ∧ _))
  | .act _ => inferInstanceAs (Decidable (_ ∧ _))
  | .unlock _ => inferInstanceAs (Decidable (_ = _))
  | .signal _ _ => inferInstanceAs (Decidable (_ ∧ (∀ _ ∈ _, _) ∧ (_ → ∀ _, _ → _)))

variable (M) in
/-- The monitor as a machine, with all threads away at first. -/
def machine (resource : ρ) : Machine (State X ρ) (Event X α) where
  init := init resource
  step s e := if M.Enabled s e then some (M.next s e) else none

variable {resource : ρ} {guard : State X ρ → Event X α → Prop}

theorem machine_step_iff {s' : State X ρ} {e : Event X α} :
    (M.machine resource).step s e = some s' ↔ M.Enabled s e ∧ M.next s e = s' := by
  simp [machine]

theorem locked_of_reach (h : (M.machine resource).Reach guard s) : Locked s := by
  refine h.invariant (I := Locked) ?_ fun s e s' _ _ hI hstep => ?_
  · intro x
    simp [machine, init, Phase.Inside]
  · obtain ⟨he, rfl⟩ := machine_step_iff.1 hstep
    exact hI.next he

theorem ready_of_reach (h : (M.machine resource).Reach guard s) : M.Ready s := by
  refine h.invariant (I := M.Ready) ?_ fun s e s' _ _ hI hstep => ?_
  · intro x hx
    simp [machine, init, Phase.InFront] at hx
  · obtain ⟨he, rfl⟩ := machine_step_iff.1 hstep
    exact hI.next he

/-- **No wake-up is lost.** -/
theorem watched_of_reach (h : (M.machine resource).Reach guard s) : M.Watched s := by
  refine h.invariant (I := M.Watched) ?_ fun s e s' _ _ hI hstep => ?_
  · intro b hb
    obtain ⟨x, hx⟩ := M.manned b
    simpa [machine, init] using hb x hx
  · obtain ⟨he, rfl⟩ := machine_step_iff.1 hstep
    exact hI.next he

omit [DecidableEq X] [∀ b r, Decidable (M.blocked b r)] [∀ x r, Decidable (M.ready x r)] in
/-- A thread that is neither away nor asleep is not stopped for good: it can
step itself, or the thread can that has the mutex. -/
theorem exists_progress (h : Locked s) (haway : s.phase x ≠ .away) (hsleep : s.phase x ≠ .asleep) :
    ∃ e : Event X α, e.Progress ∧ M.Enabled s e := by
  cases hm : s.mutex with
  | some y =>
      rcases (h y).1 hm with hy | hy
      · by_cases hb : M.blocked (M.side y) s.resource
        · exact ⟨.wait y, trivial, hy, hb⟩
        · exact ⟨.act y, trivial, hy, hb⟩
      · exact ⟨.unlock y, trivial, hy⟩
  | none =>
      have hout : ¬ (s.phase x).Inside := fun hin => by simp [(h x).2 hin] at hm
      cases hx : s.phase x with
      | away => exact absurd hx haway
      | asleep => exact absurd hx hsleep
      | checking => simp [hx, Phase.Inside] at hout
      | acted => simp [hx, Phase.Inside] at hout
      | locking => exact ⟨.lock x, trivial, hx, hm⟩
      | waking => exact ⟨.relock x, trivial, hx, hm⟩
      | signalling =>
          refine ⟨.signal x (Finset.univ.filter fun y => M.side y ≠ M.side x ∧ s.phase y = .asleep),
            trivial, hx, fun y hy => by simpa using hy, fun h0 y hy hys => ?_⟩
          have hmem : y ∈ Finset.univ.filter fun y =>
              M.side y ≠ M.side x ∧ s.phase y = .asleep := by
            simp [hy, hys]
          rw [h0] at hmem
          exact absurd hmem (Finset.notMem_empty y)

end Monitor

end PotHub.Lib
