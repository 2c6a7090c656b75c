import PotHub.Json.Tree
import PotHub.Lib.Refinement

/-!
# Signing in

The button of `SigninFragment`, the sign-ins in the background, and the static
`username` that every report and every query for the user's potholes carries.

A press overwrites the name at once, and the sign-ins complete when they will.
So what is stored when one completes is the session of that press, and the name
is the one of the last press (`named_iff_of_reach`).  `MainActivity` takes the
name from the stored session, but only when it is created.
-/

namespace PotHub.App

open PotHub.Json PotHub.Lib

/-- What is read of a session. -/
structure CognitoUserSession where
  username : Text
deriving DecidableEq, Repr

/-- A sign-in in the background. -/
structure SignInTask where
  /-- The name given to `getUser`. -/
  username : Text
  /-- The fragment that is called back still has its activity. -/
  attached : Bool
deriving DecidableEq, Repr

structure SignIn where
  /-- The static `SigninFragment.username`. -/
  username : Option Text
  /-- The preference `CognitoUserSession`. -/
  stored : Option CognitoUserSession
  /-- `MainActivity` is there, with a fragment. -/
  created : Bool
  /-- `HomeActivity` has been opened. -/
  home : Bool
  /-- The sign-ins that have not completed. -/
  tasks : List SignInTask
  /-- Ghost: the names of the presses since `MainActivity` was created. -/
  pressed : List Text
deriving DecidableEq

inductive SignInEvent
  /-- `MainActivity` is created; the stored session, if there is one, is valid or
  not. -/
  | create (isValid : Bool)
  | destroy
  /-- The button is pressed. -/
  | press (username : Text)
  /-- `onSuccess` of the handler of a sign-in. -/
  | succeed (i : ℕ) (session : CognitoUserSession)
  /-- `onFailure` of the handler of a sign-in. -/
  | fail (i : ℕ)

namespace SignIn

/-- The state before the app is started. -/
def init : SignIn := ⟨none, none, false, false, [], []⟩

/-- The process dies of an exception: what is static is lost, what is stored is
not. -/
def died (s : SignIn) : SignIn := { init with stored := s.stored }

/-- `MainActivity.onCreate`, with `isSessionValid`. -/
def onCreate (s : SignIn) (isValid : Bool) : SignIn :=
  match s.stored with
  | some session =>
      { s with username := some session.username, created := true, home := isValid, pressed := [] }
  | none => { s with created := true, home := false, pressed := [] }

/-- The listener of the button. -/
def onClick (s : SignIn) (username : Text) : SignIn :=
  { s with
    username := some username
    tasks := s.tasks ++ [⟨username, true⟩]
    pressed := s.pressed ++ [username] }

/-- `signInCompleted`, called with the activity there. -/
def signInCompleted (s : SignIn) (session : CognitoUserSession) : SignIn :=
  { s with stored := some session, home := true }

/-- A callback of a sign-in: without its activity the fragment fails, in
`signInCompleted` as in `displayError`. -/
def callBack (s : SignIn) (i : ℕ) (view : SignIn → SignIn) : Option SignIn :=
  s.tasks[i]?.map fun task =>
    if task.attached then view { s with tasks := s.tasks.eraseIdx i } else s.died

/-- A step. -/
def next (s : SignIn) : SignInEvent → Option SignIn
  | .create isValid => if s.created then none else some (s.onCreate isValid)
  | .destroy =>
      if s.created then
        some { s with
          created := false
          tasks := s.tasks.map fun task => { task with attached := false }
          pressed := [] }
      else none
  | .press username => if s.created then some (s.onClick username) else none
  | .succeed i session => s.callBack i (signInCompleted · session)
  | .fail i => s.callBack i id

/-- The app as a machine. -/
def machine : Machine SignIn SignInEvent where
  init := init
  step := next

/-- A sign-in yields a session of the user it was started for. -/
def Authentic (s : SignIn) : SignInEvent → Prop
  | .succeed i session => s.tasks[i]?.map SignInTask.username = some session.username
  | _ => True

instance (s : SignIn) : DecidablePred s.Authentic
  | .succeed _ _ => inferInstanceAs (Decidable (_ = _))
  | .create _ | .destroy | .press _ | .fail _ => inferInstanceAs (Decidable True)

/-- The invariant of the runs. -/
structure Inv (s : SignIn) : Prop where
  /-- The name is the one of the last press. -/
  last : s.pressed ≠ [] → s.username = s.pressed.getLast?
  /-- The sign-ins that call back are of the presses. -/
  attached : ∀ task ∈ s.tasks, task.attached = true → s.created = true ∧ task.username ∈ s.pressed

variable {s s' : SignIn}

theorem Inv.died (s : SignIn) : s.died.Inv where
  last h := absurd rfl h
  attached _ htask := absurd htask List.not_mem_nil

/-- A callback that leaves the presses alone. -/
theorem Inv.callBack (h : s.Inv) {i : ℕ} (view : SignIn → SignIn)
    (hview : ∀ s : SignIn, (view s).username = s.username ∧ (view s).created = s.created ∧
      (view s).pressed = s.pressed ∧ (view s).tasks = s.tasks)
    (hstep : s.callBack i view = some s') : s'.Inv := by
  obtain ⟨task, -, rfl⟩ := Option.map_eq_some_iff.1 hstep
  split_ifs
  · obtain ⟨hname, hcreated, hpressed, htasks⟩ := hview { s with tasks := s.tasks.eraseIdx i }
    refine ⟨?_, ?_⟩
    · rw [hname, hpressed]
      exact h.last
    · rw [hcreated, hpressed, htasks]
      exact fun task htask => h.attached task ((List.eraseIdx_sublist _ _).subset htask)
  · exact .died s

theorem Inv.onCreate (h : s.Inv) (hc : s.created = false) (isValid : Bool) :
    (s.onCreate isValid).Inv := by
  have htasks : (s.onCreate isValid).tasks = s.tasks := by
    cases hs : s.stored <;> simp [SignIn.onCreate, hs]
  have hpressed : (s.onCreate isValid).pressed = [] := by
    cases hs : s.stored <;> simp [SignIn.onCreate, hs]
  refine ⟨fun hne => absurd hpressed hne, ?_⟩
  intro task htask hatt
  -- the sign-ins of an activity that is gone do not call back
  rw [htasks] at htask
  exact absurd (h.attached task htask hatt).1 (by simp [hc])

theorem Inv.onClick (h : s.Inv) (hc : s.created = true) (username : Text) :
    (s.onClick username).Inv where
  last _ := by simp [SignIn.onClick]
  attached task htask hatt := by
    refine ⟨hc, List.mem_append.2 ?_⟩
    rcases List.mem_append.1 htask with htask | htask
    · exact Or.inl (h.attached task htask hatt).2
    · exact Or.inr (by simp [List.mem_singleton.1 htask])

theorem Inv.next (h : s.Inv) {e : SignInEvent} (hstep : s.next e = some s') : s'.Inv := by
  cases e with
  | create isValid =>
      obtain ⟨hc, rfl⟩ : s.created = false ∧ s.onCreate isValid = s' := by
        simpa [SignIn.next] using hstep
      exact h.onCreate hc isValid
  | destroy =>
      obtain ⟨-, hs⟩ := Option.ite_none_right_eq_some.1 hstep
      obtain rfl := Option.some.inj hs
      refine ⟨fun hne => absurd rfl hne, ?_⟩
      intro task htask hatt
      obtain ⟨task', -, rfl⟩ := List.mem_map.1 htask
      cases hatt
  | press username =>
      obtain ⟨hc, hs⟩ := Option.ite_none_right_eq_some.1 hstep
      exact Option.some.inj hs ▸ h.onClick hc username
  | succeed i session =>
      exact h.callBack (signInCompleted · session) (fun _ => ⟨rfl, rfl, rfl, rfl⟩) hstep
  | fail i => exact h.callBack id (fun _ => ⟨rfl, rfl, rfl, rfl⟩) hstep

theorem inv_of_reach {guard : SignIn → SignInEvent → Prop} (h : machine.Reach guard s) : s.Inv := by
  refine h.invariant (I := Inv) ⟨fun hne => absurd rfl hne, ?_⟩ fun _ _ _ _ _ hI hstep =>
    hI.next hstep
  exact fun _ htask => absurd htask List.not_mem_nil

/-- **Whose name it is.**  Whenever a sign-in completes, in whatever order, its
session is stored and the home screen opened; and the name is the one of the
session exactly when the last press was made with the name of that sign-in. -/
theorem named_iff_of_reach (h : machine.Reach Authentic s) {i : ℕ} {task : SignInTask}
    {session : CognitoUserSession} (htask : s.tasks[i]? = some task)
    (hattached : task.attached = true) (hauth : s.Authentic (.succeed i session)) :
    ∃ s', s.next (.succeed i session) = some s' ∧ s'.stored = some session ∧ s'.home = true ∧
      (s'.username = some session.username ↔ s.pressed.getLast? = some task.username) := by
  have hinv := inv_of_reach h
  have hmem := (hinv.attached task (List.mem_of_getElem? htask) hattached).2
  have hname : session.username = task.username := by
    have hauth' : s.tasks[i]?.map SignInTask.username = some session.username := hauth
    rw [htask] at hauth'
    exact (Option.some.inj hauth').symm
  refine ⟨signInCompleted { s with tasks := s.tasks.eraseIdx i } session, ?_, rfl, rfl, ?_⟩
  · simp [SignIn.next, callBack, htask, hattached]
  · show s.username = some session.username ↔ _
    rw [hinv.last (List.ne_nil_of_mem hmem), hname]

/-- Two users on one device: the first one's sign-in completes behind the second
one's press. -/
def twoPresses : List SignInEvent :=
  [.create false, .press "anna".toList, .press "bruno".toList]

theorem misnamed_of_twoPresses : ∃ s, machine.Reach Authentic s ∧
    s.stored = some ⟨"anna".toList⟩ ∧ s.home = true ∧ s.username = some "bruno".toList :=
  Machine.exists_reach_of_tryRun (twoPresses ++ [.succeed 0 ⟨"anna".toList⟩]) (by decide +kernel)

theorem named_of_second : ∃ s s', machine.Reach Authentic s ∧
    s.next (.succeed 1 ⟨"bruno".toList⟩) = some s' ∧ s'.username = some "bruno".toList := by
  have hrun : ∃ s, machine.Reach Authentic s ∧ (s.tasks[1]? = some ⟨"bruno".toList, true⟩ ∧
      s.pressed.getLast? = some "bruno".toList ∧
      s.Authentic (.succeed 1 ⟨"bruno".toList⟩)) :=
    Machine.exists_reach_of_tryRun twoPresses (by decide +kernel)
  obtain ⟨s, hs, htask, hlast, hauth⟩ := hrun
  obtain ⟨s', hnext, -, -, hiff⟩ := named_iff_of_reach hs htask rfl hauth
  exact ⟨s, s', hs, hnext, hiff.2 hlast⟩

end SignIn

end PotHub.App
