/-
  File:      LocalSend/Isolates/MulticastListener.lean
  Subject:   THE MULTICAST LISTENER: `startListener` of `multicast_discovery.dart`, in the isolate
             of `multicast_discovery_isolate.dart`.

  Each round of the loop reads the shared state, opens its sockets with it and listens until
  `_cancelCompleter` is completed, by a change of the configuration or by a restart request. The
  completer of a round is made after its sockets are open.

  * `ListenerConfig` -- the part of the shared state the sockets are opened with;
  * `nextRound`, `handleSync`, `restartListener`, `step` -- the loop between two awaits;
  * `InStep`, `inStep_step` -- the last state that was emitted has the configuration of the isolate;
  * `attentive` -- no change of the configuration is read while sockets are being opened;
  * `listener_follows` -- **then a listener that is not to stop has the current configuration**;
  * `change_lost` -- otherwise it may keep an old one.

  Left out: the datagrams, the announcements and the single network interfaces.
-/
import LocalSend.Isolates.Sync

namespace LocalSend.Isolates.MulticastListener

open Lib

/-! ## 1. The loop -/

structure ListenerConfig where
  port : Int
  multicastGroup : String
  networkWhitelist : Option (List String)
  networkBlacklist : Option (List String)
  deriving DecidableEq, Repr

/-- What the listener of `syncProvider` compares, and what `_getSockets` is called with. -/
def config (syncState : SyncState) : ListenerConfig where
  port := syncState.port
  multicastGroup := syncState.multicastGroup
  networkWhitelist := syncState.networkWhitelist
  networkBlacklist := syncState.networkBlacklist

/-- A round of the loop: its local `syncState`, the events of `syncProvider` its subscription has
    not read yet, and the configuration its sockets are opened with. -/
structure Round where
  syncState : SyncState
  events : List SyncState
  sockets : ListenerConfig
  deriving DecidableEq, Repr

/-- Where `startListener` stands. -/
inductive Phase where
  /-- `_listening` is false -/
  | idle
  /-- `_getSockets` -/
  | opening (round : Round)
  /-- `yield*` -/
  | listening (round : Round)
  /-- `sleepAsync` -/
  | sleeping
  /-- an uncaught error ends an isolate -/
  | terminated
  deriving DecidableEq, Repr

structure State where
  syncProvider : SyncState
  /-- `_cancelCompleter` is completed -/
  cancelCompleted : Bool
  phase : Phase
  deriving DecidableEq, Repr

def State.initial (syncState : SyncState) : State := ⟨syncState, false, .idle⟩

/-- A round up to the opening of its sockets. -/
def nextRound (s : State) : State :=
  { s with phase := .opening ⟨s.syncProvider, [], config s.syncProvider⟩ }

/-- The subscription is told. -/
def Round.emit (round : Round) (next : SyncState) : Round :=
  { round with events := round.events ++ [next] }

/-- `UpdateSyncStateAction`: who has a subscription gets an event. -/
def updateSyncState (s : State) (next : SyncState) : State where
  syncProvider := next
  cancelCompleted := s.cancelCompleted
  phase :=
    match s.phase with
    | .opening round => .opening (round.emit next)
    | .listening round => .listening (round.emit next)
    | phase => phase

/-- The subscription reads its next event, and says whether it calls `restartListener`. -/
def Round.onEvent (round : Round) : Option (Round × Bool) :=
  match round.events with
  | [] => none
  | next :: events =>
    if config next ≠ config round.syncState then some ({ round with events := events }, true)
    else some ({ round with syncState := next, events := events }, false)

/-- `restartListener` from the subscription: it throws when the completer is completed already, and
    nothing catches that. -/
def handled (s : State) (phase : Phase) (restart : Bool) : State :=
  if restart = false then { s with phase := phase }
  else if s.cancelCompleted then { s with phase := .terminated }
  else { s with cancelCompleted := true, phase := phase }

def handleSync (s : State) : Option State :=
  match s.phase with
  | .opening round => round.onEvent.map fun r => handled s (.opening r.1) r.2
  | .listening round => round.onEvent.map fun r => handled s (.listening r.1) r.2
  | _ => none

/-- A restart request; what `restartListener` throws is caught by `_handleMessage`. -/
def restartListener (s : State) : State := { s with cancelCompleted := true }

inductive Event where
  /-- `startListener` is called; it does nothing while it is running already -/
  | startListener
  | updateSyncState (next : SyncState)
  | handleSync
  | restartListener
  /-- the sockets are open -/
  | opened
  /-- `_getSockets` throws -/
  | openFailed
  /-- the stream of the round is closed, and its subscription is cancelled -/
  | stopped
  /-- the pause is over -/
  | awake
  deriving DecidableEq, Repr

def step (s : State) (e : Event) : Option State :=
  match s.phase, e with
  | .terminated, _ => none
  | .idle, .startListener => some (nextRound s)
  | _, .startListener => some s
  | _, .updateSyncState next => some (updateSyncState s next)
  | _, .handleSync => handleSync s
  | _, .restartListener => some (restartListener s)
  | .opening round, .opened =>
    some { s with cancelCompleted := false, phase := .listening round }
  | .opening _, .openFailed => some { s with phase := .idle }
  | .listening _, .stopped =>
    if s.cancelCompleted then some { s with phase := .sleeping } else none
  | .sleeping, .awake => some (nextRound s)
  | _, _ => none

/-- **The multicast listener.** -/
def listener : Machine State Event := ⟨step⟩

/-! ## 2. The invariant -/

/-- The configuration of the last event, or of the local state if there is none to read. -/
def Round.latest (round : Round) : ListenerConfig :=
  config (round.events.getLast?.getD round.syncState)

/-- **The configuration of the isolate is the last one a round will read**, unless the round is to
    stop; and the sockets have the one of its local state. -/
def InStep (s : State) : Prop :=
  match s.phase with
  | .opening round =>
    round.sockets = config round.syncState ∧ round.latest = config s.syncProvider
  | .listening round =>
    round.sockets = config round.syncState ∧
      (s.cancelCompleted = false → round.latest = config s.syncProvider)
  | _ => True

/-- **No change of the configuration is read while the sockets are being opened.** -/
def attentive (s : State) (e : Event) : Prop :=
  match e, s.phase with
  | .handleSync, .opening round =>
    ∀ next ∈ round.events.head?, config next = config round.syncState
  | _, _ => True

section Step

variable {s t : State} {e : Event} {round round' : Round} {restart : Bool}

theorem latest_emit (round : Round) (next : SyncState) : (round.emit next).latest = config next := by
  simp [Round.latest, Round.emit]

/-- **Reading an event**: one with another configuration asks for a restart, any other leaves the
    sockets right and the last configuration the last. -/
theorem onEvent_cases (h : round.onEvent = some (round', restart)) :
    round'.sockets = round.sockets ∧
    (restart = true → ∃ next ∈ round.events.head?, config next ≠ config round.syncState) ∧
    (restart = true → round'.syncState = round.syncState) ∧
    (restart = false → config round'.syncState = config round.syncState ∧
      round'.latest = round.latest) := by
  unfold Round.onEvent at h
  split at h
  · cases h
  · rename_i next events hevents
    split at h
    · rename_i hne
      cases h
      refine ⟨rfl, fun _ => ⟨next, by rw [hevents]; rfl, hne⟩, fun _ => rfl, fun h => by cases h⟩
    · rename_i heq
      cases h
      refine ⟨rfl, fun h => (by cases h), fun h => (by cases h), fun _ => ⟨not_not.mp heq, ?_⟩⟩
      simp [Round.latest, hevents, List.getLast?_cons]

theorem inStep_nextRound (s : State) : InStep (nextRound s) := ⟨rfl, rfl⟩

theorem inStep_updateSyncState (h : InStep s) (next : SyncState) :
    InStep (updateSyncState s next) := by
  obtain ⟨provider, completed, phase⟩ := s
  cases phase with
  | opening round => exact ⟨h.1, latest_emit round next⟩
  | listening round => exact ⟨h.1, fun _ => latest_emit round next⟩
  | _ => trivial

/-- **Reading an event**: a listener that hears of another configuration is to stop. -/
theorem inStep_handleSync (h : InStep s) (hg : attentive s .handleSync)
    (hs : handleSync s = some t) : InStep t := by
  obtain ⟨provider, completed, phase⟩ := s
  cases phase with
  | opening round =>
      obtain ⟨⟨round', restart⟩, hround, rfl⟩ := Option.map_eq_some_iff.mp hs
      obtain ⟨hsockets, hchange, _, hsame⟩ := onEvent_cases hround
      cases restart with
      | true =>
          obtain ⟨next, hnext, hne⟩ := hchange rfl
          exact absurd (hg next hnext) hne
      | false =>
          obtain ⟨hconfig, hlatest⟩ := hsame rfl
          exact ⟨hsockets.trans (h.1.trans hconfig.symm), hlatest.trans h.2⟩
  | listening round =>
      obtain ⟨⟨round', restart⟩, hround, rfl⟩ := Option.map_eq_some_iff.mp hs
      obtain ⟨hsockets, _, hkept, hsame⟩ := onEvent_cases hround
      cases restart with
      | true =>
          cases completed with
          | true => trivial
          | false =>
              have hstate : config round'.syncState = config round.syncState :=
                congrArg config (hkept rfl)
              exact ⟨hsockets.trans (h.1.trans hstate.symm), fun h => by cases h⟩
      | false =>
          obtain ⟨hconfig, hlatest⟩ := hsame rfl
          exact ⟨hsockets.trans (h.1.trans hconfig.symm), fun hc => hlatest.trans (h.2 hc)⟩
  | _ => cases hs

/-- **Every `attentive` step keeps the invariant.** -/
theorem inStep_step (h : InStep s) (hg : attentive s e) (hs : listener.step s e = some t) :
    InStep t := by
  simp only [listener, step] at hs
  split at hs
  · cases hs
  · cases hs
    exact inStep_nextRound s
  · cases hs
    exact h
  · cases hs
    exact inStep_updateSyncState h _
  · exact inStep_handleSync h hg hs
  · cases hs
    obtain ⟨provider, completed, phase⟩ := s
    cases phase with
    | opening round => exact h
    | listening round => exact ⟨h.1, fun h => by cases h⟩
    | _ => trivial
  · rename_i round hphase
    cases hs
    rw [InStep, hphase] at h
    exact ⟨h.1, fun _ => h.2⟩
  · cases hs
    trivial
  · split at hs
    · cases hs
      trivial
    · cases hs
  · cases hs
    exact inStep_nextRound s
  · cases hs

end Step

/-! ## 3. Every run -/

section Runs

variable {s : State} {es : List Event} {syncState : SyncState} {round : Round}

/-- **The listener follows its configuration**: when it is listening, is not to stop and has read
    every event, its sockets have the configuration of the isolate; in any run in which no change
    of the configuration is read while sockets are being opened. -/
theorem listener_follows (h : listener.Run attentive (.initial syncState) es s)
    (hphase : s.phase = .listening round) (hopen : s.cancelCompleted = false)
    (hread : round.events = []) : round.sockets = config s.syncProvider := by
  have hinit : InStep (.initial syncState) := trivial
  have hI : InStep s := h.invariant hinit fun _ _ _ hI hg hs => inStep_step hI hg hs
  rw [InStep, hphase] at hI
  obtain ⟨hsockets, hlatest⟩ := hI
  rw [hsockets, ← hlatest hopen, Round.latest, hread]
  rfl

instance (s : State) (e : Event) : Decidable (attentive s e) := by
  unfold attentive
  split <;> infer_instance

/-- Another multicast group is set in the settings. -/
def regrouped : SyncState := { demoState with multicastGroup := "224.0.0.168" }

/-- The group is changed while the listener is listening: the next round has it. -/
theorem listener_follows_regroupedRun :
    ∃ s round, listener.Run attentive (.initial demoState) [.startListener, .opened,
        .updateSyncState regrouped, .handleSync, .stopped, .restartListener, .awake, .opened] s ∧
      s.phase = .listening round ∧ s.cancelCompleted = false ∧ round.events = [] ∧
      round.sockets.multicastGroup = "224.0.0.168" ∧ round.sockets = config s.syncProvider := by
  have hrun : ((listener.guarded attentive).run (.initial demoState) [.startListener, .opened,
      .updateSyncState regrouped, .handleSync, .stopped, .restartListener, .awake, .opened]).map
      (fun s => (s.phase, s.cancelCompleted)) =
      some (.listening ⟨regrouped, [], config regrouped⟩, false) := by decide
  obtain ⟨s, hs, hobs⟩ := Machine.run_observe_guarded hrun
  obtain ⟨hphase, hopen⟩ := Prod.mk.inj hobs
  exact ⟨s, _, hs, hphase, hopen, rfl, rfl, listener_follows hs hphase hopen rfl⟩

/-- **A change is lost**: the group is changed while the first sockets are being opened. -/
theorem change_lost :
    ∃ s round, listener.Run Machine.anyStep (.initial demoState)
        [.startListener, .updateSyncState regrouped, .handleSync, .opened] s ∧
      s.phase = .listening round ∧ s.cancelCompleted = false ∧ round.events = [] ∧
      round.sockets ≠ config s.syncProvider := by
  have hrun : (listener.run (.initial demoState) [.startListener, .updateSyncState regrouped,
      .handleSync, .opened]).map (fun s => (s.phase, s.cancelCompleted, s.syncProvider)) =
      some (.listening ⟨demoState, [], config demoState⟩, false, regrouped) := by decide
  obtain ⟨s, hs, hobs⟩ := Machine.run_observe hrun
  simp only [Prod.mk.injEq] at hobs
  obtain ⟨hphase, hopen, hprovider⟩ := hobs
  refine ⟨s, _, hs, hphase, hopen, rfl, ?_⟩
  rw [hprovider]
  decide

/-- **A change ends the isolate**: in a later round the completer that is completed for it is
    completed already. -/
theorem change_fatal :
    ∃ s, listener.Run Machine.anyStep (.initial demoState) [.startListener, .opened,
        .restartListener, .stopped, .awake, .updateSyncState regrouped, .handleSync] s ∧
      s.phase = .terminated := by
  have hrun : (listener.run (.initial demoState) [.startListener, .opened, .restartListener,
      .stopped, .awake, .updateSyncState regrouped, .handleSync]).map State.phase =
      some .terminated := by decide
  exact Machine.run_observe hrun

end Runs

end LocalSend.Isolates.MulticastListener
