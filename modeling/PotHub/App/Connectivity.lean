import PotHub.Lib.Fifo

/-!
# Tracking and connectivity

`networkReceiver` of `LiveMapActivity` and the intents that it sends to the
location service.  `startService` only queues an intent; `onStartCommand` gets
the intents later, in order.  The service counts as running while it is in the
foreground.

A status of 1 is to stop the service and to start it again.  But whether it is
running is looked at twice before any of the two intents is delivered, so only
one of them is sent.  When the service ends up as the last broadcast asks is
said in `tracks_iff_of_reach`.
-/

namespace PotHub.App

open PotHub.Lib

/-- The type of a network. -/
inductive NetworkType
  | wifi
  | mobile
  | other
deriving DecidableEq, Repr

/-- The status, for the active network if there is one. -/
def getConnectivityStatusString : Option NetworkType → ℕ
  | some .wifi => 1
  | some .mobile => 1
  | some .other => 0
  | none => 0

/-- The action of an intent. -/
inductive ServiceAction
  | startLocationService
  | stopLocationService
deriving DecidableEq, Repr

/-- A broadcast, with the state in which it has been handled. -/
structure Broadcast where
  status : ℕ
  /-- The service was in the foreground. -/
  running : Bool
  /-- The intents that were not yet delivered. -/
  intents : List ServiceAction
deriving DecidableEq, Repr

structure Tracking where
  /-- The service is in the foreground. -/
  foreground : Bool
  /-- The intents that are not yet delivered, the next one in front. -/
  intents : List ServiceAction
  /-- Ghost: the last broadcast. -/
  lastBroadcast : Option Broadcast

inductive TrackingEvent
  /-- A broadcast is received while the network is the active one. -/
  | broadcast (activeNetwork : Option NetworkType)
  /-- The next intent gets to `onStartCommand`. -/
  | deliver

/-- Whether the service is in the foreground behind `onStartCommand`. -/
def ServiceAction.onStartCommand : ServiceAction → Bool
  | .startLocationService => true
  | .stopLocationService => false

namespace Tracking

def isLocationServiceRunning (s : Tracking) : Bool := s.foreground

def startLocationService (s : Tracking) : Tracking :=
  if ¬ s.isLocationServiceRunning then
    { s with intents := s.intents ++ [.startLocationService] }
  else s

def stopLocationService (s : Tracking) : Tracking :=
  if s.isLocationServiceRunning then
    { s with intents := s.intents ++ [.stopLocationService] }
  else s

/-- `networkReceiver.onReceive`, for the status. -/
def onReceive (s : Tracking) : ℕ → Tracking
  | 0 => s.stopLocationService
  | 1 => s.stopLocationService.startLocationService
  | _ => s

/-- A step. -/
def next (s : Tracking) : TrackingEvent → Option Tracking
  | .broadcast activeNetwork =>
      let status := getConnectivityStatusString activeNetwork
      some { s.onReceive status with lastBroadcast := some ⟨status, s.foreground, s.intents⟩ }
  | .deliver =>
      match s.intents with
      | [] => none
      | action :: intents => some { s with foreground := action.onStartCommand, intents := intents }

end Tracking

/-- The receiver and the service as a machine; the service may be running
already. -/
def trackingMachine (running : Bool) : Machine Tracking TrackingEvent where
  init := ⟨running, [], none⟩
  step := Tracking.next

/-- The broadcast was handled in a state in which it leads to what it asks for: a
connected network while the service was not running, and any other while it was
running or no start was to come last. -/
def Broadcast.Timely (b : Broadcast) : Prop :=
  if b.status = 1 then b.running = false
  else b.running = true ∨ b.intents.getLast? ≠ some .startLocationService

namespace Tracking

variable {s s' : Tracking}

/-- The foreground state as a register that the intents write. -/
def deferred (s : Tracking) : Deferred Bool :=
  ⟨s.foreground, s.intents.map ServiceAction.onStartCommand⟩

theorem deferred_startLocationService (h : s.foreground = false) :
    s.startLocationService.deferred = s.deferred.write true := by
  simp [startLocationService, isLocationServiceRunning, h, deferred, Deferred.write,
    ServiceAction.onStartCommand]

theorem startLocationService_of_running (h : s.foreground = true) :
    s.startLocationService = s := by
  simp [startLocationService, isLocationServiceRunning, h]

theorem deferred_stopLocationService (h : s.foreground = true) :
    s.stopLocationService.deferred = s.deferred.write false := by
  simp [stopLocationService, isLocationServiceRunning, h, deferred, Deferred.write,
    ServiceAction.onStartCommand]

theorem stopLocationService_of_not_running (h : s.foreground = false) :
    s.stopLocationService = s := by
  simp [stopLocationService, isLocationServiceRunning, h]

/-- A service that is not running will be running exactly when a start comes
last. -/
theorem eventual_of_not_running (h : s.foreground = false) :
    s.deferred.eventual = true ↔ s.intents.getLast? = some .startLocationService := by
  rcases List.eq_nil_or_concat s.intents with hnil | ⟨intents, action, hlast⟩
  · simp [deferred, hnil, Deferred.eventual, h]
  · rw [List.concat_eq_append] at hlast
    have hdeferred : s.deferred =
        (⟨s.foreground, intents.map ServiceAction.onStartCommand⟩ : Deferred Bool).write
          action.onStartCommand := by
      simp [deferred, hlast, Deferred.write]
    rw [hdeferred, Deferred.eventual_write, hlast, List.getLast?_concat]
    cases action <;> simp [ServiceAction.onStartCommand]

/-- What comes of a broadcast: with status 1 a running service is stopped, and
with status 0 one that is not running is left to the intents before. -/
theorem eventual_onReceive (s : Tracking) (activeNetwork : Option NetworkType) :
    ((s.onReceive (getConnectivityStatusString activeNetwork)).deferred.eventual = true ↔
        getConnectivityStatusString activeNetwork = 1) ↔
      Broadcast.Timely ⟨getConnectivityStatusString activeNetwork, s.foreground, s.intents⟩ := by
  have hstatus : getConnectivityStatusString activeNetwork = 0 ∨
      getConnectivityStatusString activeNetwork = 1 := by
    rcases activeNetwork with _ | _ | _ | _ <;> decide
  rcases hstatus with hstatus | hstatus <;> rw [hstatus]
  · show (s.stopLocationService.deferred.eventual = true ↔ 0 = 1) ↔ _
    cases hrunning : s.foreground with
    | true =>
        rw [deferred_stopLocationService hrunning, Deferred.eventual_write]
        simp [Broadcast.Timely]
    | false =>
        -- nothing is sent, also when a start is on its way
        rw [stopLocationService_of_not_running hrunning, eventual_of_not_running hrunning]
        simp [Broadcast.Timely]
  · show (s.stopLocationService.startLocationService.deferred.eventual = true ↔ 1 = 1) ↔ _
    cases hrunning : s.foreground with
    | true =>
        -- the stop is only queued, so the second look finds the service running
        have hstill : s.stopLocationService.foreground = true := by
          simp [stopLocationService, isLocationServiceRunning, hrunning]
        rw [startLocationService_of_running hstill, deferred_stopLocationService hrunning,
          Deferred.eventual_write]
        simp [Broadcast.Timely]
    | false =>
        rw [stopLocationService_of_not_running hrunning, deferred_startLocationService hrunning,
          Deferred.eventual_write]
        simp [Broadcast.Timely]

/-- A delivery is one of the register. -/
theorem deferred_deliver (h : s.next .deliver = some s') :
    s.deferred.deliver = some s'.deferred ∧ s'.lastBroadcast = s.lastBroadcast := by
  cases hintents : s.intents with
  | nil => simp [next, hintents] at h
  | cons action intents =>
      simp only [next, hintents, Option.some.injEq] at h
      subst h
      simp [deferred, hintents, Deferred.deliver]

/-- The last broadcast gets what it asks for in the end, or not. -/
def Decided (s : Tracking) : Prop :=
  ∀ b, s.lastBroadcast = some b → ((s.deferred.eventual = true ↔ b.status = 1) ↔ b.Timely)

theorem Decided.next {event : TrackingEvent} (h : s.Decided) (hstep : s.next event = some s') :
    s'.Decided := by
  cases event with
  | broadcast activeNetwork =>
      simp only [Tracking.next, Option.some.injEq] at hstep
      subst hstep
      intro b hb
      obtain rfl := Option.some.inj hb
      exact eventual_onReceive s activeNetwork
  | deliver =>
      obtain ⟨hdeliver, hlast⟩ := deferred_deliver hstep
      intro b hb
      rw [Deferred.eventual_deliver hdeliver]
      exact h b (hlast ▸ hb)

/-- **Tracking follows the connectivity.**  Once all intents are delivered, the
service runs exactly when the last broadcast had status 1, if and only if that
broadcast was handled in time. -/
theorem tracks_iff_of_reach {running : Bool} {b : Broadcast}
    (h : (trackingMachine running).Reach Machine.anyStep s) (hintents : s.intents = [])
    (hlast : s.lastBroadcast = some b) :
    (s.foreground = true ↔ b.status = 1) ↔ b.Timely := by
  have hdecided : s.Decided :=
    h.invariant (I := Decided) (fun b hb => by cases hb) fun _ _ _ _ _ hI hstep => hI.next hstep
  have hsettled : s.deferred.eventual = s.foreground :=
    Deferred.eventual_of_settled (by rw [deferred, hintents, List.map_nil])
  rw [← hsettled]
  exact hdecided b hlast

/-- The network comes up while the service is not running. -/
theorem tracks_of_firstBroadcast :
    ∃ (s : Tracking) (b : Broadcast), s.lastBroadcast = some b ∧ b.Timely ∧
      ((s.foreground = true ↔ b.status = 1) ↔ b.Timely) := by
  have hrun : ∃ s, (trackingMachine false).Reach Machine.anyStep s ∧
      s.intents = [] ∧ s.lastBroadcast = some ⟨1, false, []⟩ :=
    Machine.exists_reach_of_tryRun [.broadcast (some .wifi), .deliver] (by decide +kernel)
  obtain ⟨s, hs, hintents, hlast⟩ := hrun
  exact ⟨s, ⟨1, false, []⟩, hlast, rfl, tracks_iff_of_reach hs hintents hlast⟩

/-- From the one network to the other: the service is stopped for good. -/
theorem not_tracks_of_networkSwitch :
    ¬ ∀ s b, (trackingMachine false).Reach Machine.anyStep s → s.intents = [] →
      s.lastBroadcast = some b → (s.foreground = true ↔ b.status = 1) := by
  intro hall
  have hrun : ∃ s, (trackingMachine false).Reach Machine.anyStep s ∧
      s.intents = [] ∧ s.lastBroadcast = some ⟨1, true, []⟩ ∧ s.foreground = false :=
    Machine.exists_reach_of_tryRun
      [.broadcast (some .wifi), .deliver, .broadcast (some .mobile), .deliver] (by decide +kernel)
  obtain ⟨s, hs, hintents, hlast, hforeground⟩ := hrun
  rw [(hall s _ hs hintents hlast).2 rfl] at hforeground
  cases hforeground

end Tracking

end PotHub.App
