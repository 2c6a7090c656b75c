import PotHub.Json.Tree
import PotHub.Lib.Refinement

/-!
# Resetting the password

`ResetCredentialsModel` between its presenter and the calls of Cognito, which
come back in the background.  The presenter hands a listener to each of the two
steps.  But the second step continues the task of the first, whose handler has
the first listener; what it was handed itself is dropped.
-/

namespace PotHub.App

open PotHub.Json PotHub.Lib

/-- The calls of `ResetCredentialsContract.View`. -/
inductive ResetViewCall
  | changeFragmentToResetCRPassword
  | resetDone (message : Text)
  | displayUsernameNotFoundError (message : Text)
  | displayResetError (message : Text)
deriving DecidableEq, Repr

/-- A listener of `ResetCredentialsPresenter`, by the calls that its methods
make. -/
structure OnFinishListener where
  onSuccess : Text → ResetViewCall
  onError : Text → ResetViewCall

/-- The listener of `requestCodeButtonClicked`. -/
def requestCodeListener : OnFinishListener where
  onSuccess _ := .changeFragmentToResetCRPassword
  onError message := .displayUsernameNotFoundError message

/-- The listener of `resetPasswordButtonClicked`. -/
def resetPasswordListener : OnFinishListener where
  onSuccess message := .resetDone message
  onError message := .displayResetError message

/-- The handler of a code request. -/
structure ForgotPasswordHandler where
  username : Text
  onFinishListener : OnFinishListener

namespace ForgotPasswordHandler

/-- `onSuccess`, and the same call in `getResetCode`. -/
def onSuccess (handler : ForgotPasswordHandler) : ResetViewCall :=
  handler.onFinishListener.onSuccess "1 STEP RESET DONE".toList

def onFailure (handler : ForgotPasswordHandler) : ResetViewCall :=
  handler.onFinishListener.onError "Reset credentials failed".toList

end ForgotPasswordHandler

/-- A continuation calls back the handler that it was given to. -/
structure ForgotPasswordContinuation where
  handler : ForgotPasswordHandler
  password : Option Text
  verificationCode : Option Text

/-- What comes of a step. -/
inductive ResetOutcome
  | codeGranted
  | codeRefused
  | passwordReset
  | resetFailed
deriving DecidableEq, Repr

/-- The outcome that a call on the view is there to report. -/
def ResetViewCall.reports : ResetViewCall → ResetOutcome
  | .changeFragmentToResetCRPassword => .codeGranted
  | .displayUsernameNotFoundError _ => .codeRefused
  | .resetDone _ => .passwordReset
  | .displayResetError _ => .resetFailed

/-- Is it an outcome of `resetPassword`? -/
def ResetOutcome.OfReset (o : ResetOutcome) : Prop := o = .passwordReset ∨ o = .resetFailed

instance : DecidablePred ResetOutcome.OfReset := fun _ => inferInstanceAs (Decidable (_ ∨ _))

structure ResetCredentials where
  /-- The field `continuation` of the model. -/
  continuation : Option ForgotPasswordContinuation
  /-- The code requests in the background. -/
  requests : List ForgotPasswordHandler
  /-- The continued tasks in the background. -/
  resets : List ForgotPasswordContinuation
  /-- The process has died of an exception. -/
  died : Bool
  /-- Ghost: the calls on the view, in order. -/
  viewCalls : List ResetViewCall
  /-- Ghost: what came of the steps, in order. -/
  outcomes : List ResetOutcome

inductive ResetEvent
  | requestCodeButtonClicked (username : Text)
  | resetPasswordButtonClicked (username password code : Text)
  /-- Cognito sends a code, and calls `getResetCode`. -/
  | codeSent (i : ℕ)
  /-- It refuses to, and calls `onFailure`. -/
  | codeRefused (i : ℕ)
  /-- The password is changed, and `onSuccess` called. -/
  | passwordChanged (i : ℕ)
  /-- It is not, and `onFailure` is called. -/
  | changeRefused (i : ℕ)

namespace ResetCredentials

def init : ResetCredentials := ⟨none, [], [], false, [], []⟩

/-- `ResetCredentialsModel.requestCode`. -/
def requestCode (s : ResetCredentials) (username : Text) (onFinishListener : OnFinishListener) :
    ResetCredentials :=
  { s with requests := s.requests ++ [⟨username, onFinishListener⟩] }

/-- `ResetCredentialsModel.resetPassword`.  Without a continuation it throws; the
listener is not used. -/
def resetPassword (s : ResetCredentials) (_username password code : Text)
    (_onFinishListener : OnFinishListener) : ResetCredentials :=
  match s.continuation with
  | none => { s with died := true }
  | some c =>
      let c' := { c with password := some password, verificationCode := some code }
      { s with continuation := some c', resets := s.resets ++ [c'] }

/-- `getResetCode` of a handler. -/
def getResetCode (s : ResetCredentials) (handler : ForgotPasswordHandler) : ResetCredentials :=
  { s with
    continuation := some ⟨handler, none, none⟩
    viewCalls := s.viewCalls ++ [handler.onSuccess]
    outcomes := s.outcomes ++ [.codeGranted] }

/-- A call of the view, for an outcome. -/
def report (s : ResetCredentials) (call : ResetViewCall) (outcome : ResetOutcome) :
    ResetCredentials :=
  { s with viewCalls := s.viewCalls ++ [call], outcomes := s.outcomes ++ [outcome] }

/-- A step of a process that has not died. -/
def step (s : ResetCredentials) : ResetEvent → Option ResetCredentials
  | .requestCodeButtonClicked username => some (s.requestCode username requestCodeListener)
  | .resetPasswordButtonClicked username password code =>
      some (s.resetPassword username password code resetPasswordListener)
  | .codeSent i => s.requests[i]?.map fun handler =>
      { s with requests := s.requests.eraseIdx i }.getResetCode handler
  | .codeRefused i => s.requests[i]?.map fun handler =>
      { s with requests := s.requests.eraseIdx i }.report handler.onFailure .codeRefused
  | .passwordChanged i => s.resets[i]?.map fun c =>
      { s with resets := s.resets.eraseIdx i }.report c.handler.onSuccess .passwordReset
  | .changeRefused i => s.resets[i]?.map fun c =>
      { s with resets := s.resets.eraseIdx i }.report c.handler.onFailure .resetFailed

/-- The flow as a machine. -/
def machine : Machine ResetCredentials ResetEvent where
  init := init
  step s e := if s.died then none else s.step e

/-- Every outcome has been reported to the step it belongs to, once, and the view
has had no other call. -/
def Reported (s : ResetCredentials) : Prop := s.viewCalls.map ResetViewCall.reports = s.outcomes

instance (s : ResetCredentials) : Decidable s.Reported := inferInstanceAs (Decidable (_ = _))

/-- As what an outcome is reported. -/
def reportedAs : ResetOutcome → ResetOutcome
  | .codeGranted | .passwordReset => .codeGranted
  | .codeRefused | .resetFailed => .codeRefused

theorem reportedAs_eq_iff {o : ResetOutcome} : reportedAs o = o ↔ ¬ o.OfReset := by
  cases o <;> decide

/-- The invariant of the runs. -/
structure Inv (s : ResetCredentials) : Prop where
  requests : ∀ handler ∈ s.requests, handler.onFinishListener = requestCodeListener
  resets : ∀ c ∈ s.resets, c.handler.onFinishListener = requestCodeListener
  continuation : ∀ c, s.continuation = some c →
    c.handler.onFinishListener = requestCodeListener
  viewCalls : s.viewCalls.map ResetViewCall.reports = s.outcomes.map reportedAs

section Inv

variable {s s' : ResetCredentials}

theorem reports_onSuccess {handler : ForgotPasswordHandler}
    (h : handler.onFinishListener = requestCodeListener) :
    handler.onSuccess.reports = .codeGranted := by
  rw [ForgotPasswordHandler.onSuccess, h]
  rfl

theorem reports_onFailure {handler : ForgotPasswordHandler}
    (h : handler.onFinishListener = requestCodeListener) :
    handler.onFailure.reports = .codeRefused := by
  rw [ForgotPasswordHandler.onFailure, h]
  rfl

theorem Inv.report (h : s.Inv) {call : ResetViewCall} (outcome : ResetOutcome)
    (hcall : call.reports = reportedAs outcome) : (s.report call outcome).Inv where
  requests := h.requests
  resets := h.resets
  continuation := h.continuation
  viewCalls := by
    show (s.viewCalls ++ [call]).map _ = (s.outcomes ++ [outcome]).map _
    rw [List.map_append, List.map_append, h.viewCalls, List.map_singleton, List.map_singleton,
      hcall]

theorem Inv.eraseRequest (h : s.Inv) (i : ℕ) :
    { s with requests := s.requests.eraseIdx i }.Inv :=
  ⟨fun handler hmem => h.requests handler ((List.eraseIdx_sublist _ _).subset hmem), h.resets,
    h.continuation, h.viewCalls⟩

theorem Inv.eraseReset (h : s.Inv) (i : ℕ) : { s with resets := s.resets.eraseIdx i }.Inv :=
  ⟨h.requests, fun c hmem => h.resets c ((List.eraseIdx_sublist _ _).subset hmem),
    h.continuation, h.viewCalls⟩

theorem Inv.getResetCode (h : s.Inv) {handler : ForgotPasswordHandler}
    (hhandler : handler.onFinishListener = requestCodeListener) : (s.getResetCode handler).Inv where
  requests := h.requests
  resets := h.resets
  continuation c hc := by
    cases hc
    exact hhandler
  viewCalls := (h.report .codeGranted (reports_onSuccess hhandler)).viewCalls

theorem Inv.resetPassword (h : s.Inv) (username password code : Text)
    (listener : OnFinishListener) : (s.resetPassword username password code listener).Inv := by
  cases hc : s.continuation with
  | none =>
      simp only [ResetCredentials.resetPassword, hc]
      refine ⟨h.requests, h.resets, ?_, h.viewCalls⟩
      intro c hc'
      exact h.continuation c (hc.trans hc')
  | some c =>
      -- the continued task keeps the handler of the request
      have hlistener := h.continuation c hc
      simp only [ResetCredentials.resetPassword, hc]
      refine ⟨h.requests, ?_, ?_, h.viewCalls⟩
      · intro c' hc'
        rcases List.mem_append.1 hc' with hc' | hc'
        · exact h.resets c' hc'
        · rw [List.mem_singleton.1 hc']
          exact hlistener
      · intro c' hc'
        cases hc'
        exact hlistener

theorem Inv.step (h : s.Inv) {e : ResetEvent} (hstep : s.step e = some s') : s'.Inv := by
  cases e with
  | requestCodeButtonClicked username =>
      obtain rfl := Option.some.inj hstep
      refine ⟨?_, h.resets, h.continuation, h.viewCalls⟩
      intro handler hmem
      rcases List.mem_append.1 hmem with hmem | hmem
      · exact h.requests handler hmem
      · rw [List.mem_singleton.1 hmem]
  | resetPasswordButtonClicked username password code =>
      obtain rfl := Option.some.inj hstep
      exact h.resetPassword ..
  | codeSent i =>
      obtain ⟨handler, hi, rfl⟩ := Option.map_eq_some_iff.1 hstep
      exact (h.eraseRequest i).getResetCode (h.requests handler (List.mem_of_getElem? hi))
  | codeRefused i =>
      obtain ⟨handler, hi, rfl⟩ := Option.map_eq_some_iff.1 hstep
      exact (h.eraseRequest i).report _
        (reports_onFailure (h.requests handler (List.mem_of_getElem? hi)))
  | passwordChanged i =>
      obtain ⟨c, hi, rfl⟩ := Option.map_eq_some_iff.1 hstep
      exact (h.eraseReset i).report _ (reports_onSuccess (h.resets c (List.mem_of_getElem? hi)))
  | changeRefused i =>
      obtain ⟨c, hi, rfl⟩ := Option.map_eq_some_iff.1 hstep
      exact (h.eraseReset i).report _ (reports_onFailure (h.resets c (List.mem_of_getElem? hi)))

theorem inv_of_reach {guard : ResetCredentials → ResetEvent → Prop}
    (h : machine.Reach guard s) : s.Inv := by
  refine h.invariant (I := Inv) ?_ ?_
  · exact ⟨fun _ hmem => absurd hmem List.not_mem_nil, fun _ hmem => absurd hmem List.not_mem_nil,
      fun _ hc => absurd hc (by simp [machine, init]), rfl⟩
  · intro s e s' _ _ hI hstep
    have hstep' : s.step e = some s' := by
      by_cases hd : s.died = true
      · simp [machine, hd] at hstep
      · simpa [machine, hd] using hstep
    exact hI.step hstep'

end Inv

/-- **Who hears of it.**  In every run, the outcomes are reported as they should
be exactly when none of them is an outcome of `resetPassword`. -/
theorem reported_iff_of_reach {s : ResetCredentials} (h : machine.Reach Machine.anyStep s) :
    s.Reported ↔ ∀ o ∈ s.outcomes, ¬ o.OfReset := by
  have hself : s.outcomes.map reportedAs = s.outcomes ↔ ∀ o ∈ s.outcomes, reportedAs o = o := by
    simpa using List.map_inj_left (f := reportedAs) (g := id) (l := s.outcomes)
  rw [Reported, (inv_of_reach h).viewCalls, hself]
  exact forall₂_congr fun o _ => reportedAs_eq_iff

/-- A code is sent, and the password is changed. -/
def changesPassword : List ResetEvent :=
  [.requestCodeButtonClicked "anna".toList, .codeSent 0,
    .resetPasswordButtonClicked "anna".toList "secret".toList "123456".toList, .passwordChanged 0]

theorem not_reported_of_changesPassword : ∃ s, machine.Reach Machine.anyStep s ∧
    (s.outcomes = [.codeGranted, .passwordReset] ∧
      s.viewCalls = [.changeFragmentToResetCRPassword, .changeFragmentToResetCRPassword] ∧
      ¬ s.Reported) :=
  Machine.exists_reach_of_tryRun changesPassword (by decide +kernel)

theorem reported_of_two_requests : ∃ s, machine.Reach Machine.anyStep s ∧
    s.outcomes = [.codeRefused, .codeGranted] ∧ s.Reported := by
  have hrun : ∃ s, machine.Reach Machine.anyStep s ∧ s.outcomes = [.codeRefused, .codeGranted] :=
    Machine.exists_reach_of_tryRun [.requestCodeButtonClicked "ann".toList,
      .requestCodeButtonClicked "anna".toList, .codeRefused 0, .codeSent 0] (by decide +kernel)
  obtain ⟨s, hs, houtcomes⟩ := hrun
  refine ⟨s, hs, houtcomes, (reported_iff_of_reach hs).2 ?_⟩
  rw [houtcomes]
  decide

end ResetCredentials

end PotHub.App
