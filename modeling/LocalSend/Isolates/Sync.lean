/-
  File:      LocalSend/Isolates/Sync.lean
  Subject:   THE STATE SHARED WITH THE CHILD ISOLATES: `parent_isolate_provider.dart`,
             `actions_sync.dart` and the receiving side in `main.dart`.

  * `SyncState`, `IsolateSyncAction` -- what is shared and the four actions that change it;
  * `publishSyncState` (`_PublishSyncStateAction`), `connected` (`IsolateSetupAction` between two
    awaits) -- the main isolate; `ChildIsolate.handle` (`_handleMessage`) -- a child;
  * `Synced` -- what every child will hold once it has read its messages; `steady`, the steps that
    keep it; `synced_iff` -- exactly those;
  * `isolates_synced` -- **every child holds the state of the main isolate, if that never changes
    after the first child was started, or only while the upload isolates are starting**;
  * `upload_stale`, `start_missed` -- otherwise it does not.

  Left out, since no sync action touches it: the part of the state that is fixed at the start
  (`init`, `rootIsolateToken`, `httpClientFactory`), what the tasks of the isolates do, and
  `IsolateDisposeAction`, which kills them.
-/
import LocalSend.Common.Device
import LocalSend.Lib.Machine

namespace LocalSend.Isolates

open Lib

/-! ## 1. The shared state -/

structure StoredSecurityContext where
  privateKey : String
  publicKey : String
  certificate : String
  certificateHash : String
  deriving DecidableEq, Repr

structure DeviceInfoResult where
  deviceType : DeviceType
  deviceModel : Option String
  androidSdkInt : Option Int
  deriving DecidableEq, Repr

inductive ProtocolType where
  | http | https
  deriving DecidableEq, Repr

structure SyncState where
  securityContext : StoredSecurityContext
  deviceInfo : DeviceInfoResult
  aliasName : String
  port : Int
  networkWhitelist : Option (List String)
  networkBlacklist : Option (List String)
  protocol : ProtocolType
  multicastGroup : String
  discoveryTimeout : Int
  serverRunning : Bool
  download : Bool
  deriving DecidableEq, Repr

/-- The actions that change the shared state. -/
inductive IsolateSyncAction where
  | securityContext (securityContext : StoredSecurityContext)
  | deviceInfo (deviceInfo : DeviceInfoResult)
  | settings (networkWhitelist networkBlacklist : Option (List String)) (multicastGroup : String)
      (discoveryTimeout : Int)
  | serverState (aliasName : String) (port : Int) (protocol : ProtocolType)
      (serverRunning download : Bool)
  deriving DecidableEq, Repr

/-- The state an action publishes. -/
def IsolateSyncAction.next (action : IsolateSyncAction) (syncState : SyncState) : SyncState :=
  match action with
  | .securityContext context => { syncState with securityContext := context }
  | .deviceInfo info => { syncState with deviceInfo := info }
  | .settings networkWhitelist networkBlacklist multicastGroup discoveryTimeout =>
    { syncState with
      networkWhitelist := networkWhitelist
      networkBlacklist := networkBlacklist
      multicastGroup := multicastGroup
      discoveryTimeout := discoveryTimeout }
  | .serverState aliasName port protocol serverRunning download =>
    { syncState with
      aliasName := aliasName
      port := port
      protocol := protocol
      serverRunning := serverRunning
      download := download }

/-! ## 2. The isolates -/

/-- A message to a child: a new state, or a task, which is left out here. -/
structure SendToIsolateData where
  syncState : Option SyncState
  deriving DecidableEq, Repr

/-- A child isolate: what its `syncProvider` holds, and the messages it has not read yet. -/
structure ChildIsolate where
  syncState : SyncState
  inbox : List SendToIsolateData
  deriving DecidableEq, Repr

/-- `UpdateSyncStateAction`, if the message has a state. -/
def SendToIsolateData.update (message : SendToIsolateData) (syncState : SyncState) : SyncState :=
  message.syncState.getD syncState

/-- `_handleMessage`, for the next message. -/
def ChildIsolate.handle (child : ChildIsolate) : Option ChildIsolate :=
  match child.inbox with
  | [] => none
  | message :: inbox => some ⟨message.update child.syncState, inbox⟩

def ChildIsolate.receive (child : ChildIsolate) (message : SendToIsolateData) : ChildIsolate :=
  { child with inbox := child.inbox ++ [message] }

/-- The connectors are numbers: the children in the order they are started. -/
structure ParentIsolateState where
  syncState : SyncState
  httpScanDiscovery : Option Nat
  httpTargetDiscovery : Option Nat
  multicastDiscovery : Option Nat
  httpUpload : List Nat
  deriving DecidableEq, Repr

def ParentIsolateState.initial (syncState : SyncState) : ParentIsolateState where
  syncState := syncState
  httpScanDiscovery := none
  httpTargetDiscovery := none
  multicastDiscovery := none
  httpUpload := []

def uploadIsolateCount : Nat := 2

/-- Where the `IsolateSetupAction` of the app stands: the children it has so far, the last of them
    being started. -/
inductive Setup where
  | idle
  | startingScan (httpScanDiscovery : Nat)
  | startingTarget (httpScanDiscovery httpTargetDiscovery : Nat)
  | startingMulticast (httpScanDiscovery httpTargetDiscovery multicastDiscovery : Nat)
  /-- with the `state` that `copyWith` was called on -/
  | startingUploads (state : ParentIsolateState)
      (httpScanDiscovery httpTargetDiscovery multicastDiscovery : Nat)
      (httpUpload : List Nat)
  | completed
  deriving DecidableEq, Repr

structure State where
  parent : ParentIsolateState
  setup : Setup
  isolates : List ChildIsolate
  deriving DecidableEq, Repr

def State.initial (syncState : SyncState) : State := ⟨.initial syncState, .idle, []⟩

namespace State

/-- `startIsolate` up to its await: the child gets the state as it is now. -/
def spawn (s : State) (count : Nat) : State :=
  { s with isolates := s.isolates ++ List.replicate count ⟨s.parent.syncState, []⟩ }

def sendToIsolate (s : State) (connector : Nat) (message : SendToIsolateData) :
    State :=
  { s with isolates := s.isolates.modify connector fun child => child.receive message }

end State

/-- The children `_PublishSyncStateAction` writes to. -/
def ParentIsolateState.published (parent : ParentIsolateState) : List Nat :=
  parent.httpScanDiscovery.toList ++ parent.httpTargetDiscovery.toList ++
    parent.multicastDiscovery.toList

/-- `_PublishSyncStateAction`. -/
def publishSyncState (s : State) (syncState : SyncState) : State :=
  let s1 := s.parent.published.foldl (fun s connector => s.sendToIsolate connector ⟨syncState⟩) s
  { s1 with parent := { s1.parent with syncState := syncState } }

/-- `IsolateSetupAction` goes on, once the isolate it waits for is there. -/
def connected (s : State) : Option State :=
  let next := s.isolates.length
  match s.setup with
  | .startingScan scan => some { s.spawn 1 with setup := .startingTarget scan next }
  | .startingTarget scan target =>
    some { s.spawn 1 with setup := .startingMulticast scan target next }
  | .startingMulticast scan target multicast =>
    -- the last state is read before the await
    some { s.spawn uploadIsolateCount with
      setup := .startingUploads s.parent scan target multicast
        ((List.range uploadIsolateCount).map (next + ·)) }
  | .startingUploads state scan target multicast uploads =>
    some { s with
      parent := { state with
        httpScanDiscovery := some scan
        httpTargetDiscovery := some target
        multicastDiscovery := some multicast
        httpUpload := uploads }
      setup := .completed }
  | _ => none

inductive Event where
  /-- the app dispatches `IsolateSetupAction`, once -/
  | setup
  | connected
  | sync (action : IsolateSyncAction)
  /-- a message without a state: a task, or the content resolver of an upload isolate -/
  | task (connector : Nat)
  /-- a child reads its next message -/
  | handle (connector : Nat)
  deriving DecidableEq, Repr

def step (s : State) : Event → Option State
  | .setup =>
    match s.setup with
    | .idle => some { s.spawn 1 with setup := .startingScan s.isolates.length }
    | _ => none
  | .connected => connected s
  | .sync action => some (publishSyncState s (action.next s.parent.syncState))
  | .task connector => some (s.sendToIsolate connector ⟨none⟩)
  | .handle connector =>
    (s.isolates[connector]?.bind ChildIsolate.handle).map fun child =>
      { s with isolates := s.isolates.set connector child }

/-- **The main isolate and its children.** -/
def app : Machine State Event := ⟨step⟩

/-! ## 3. What a child will hold -/

/-- What a child holds once it has read its messages. -/
def ChildIsolate.settled (child : ChildIsolate) : SyncState :=
  child.inbox.foldl (fun syncState message => message.update syncState) child.syncState

section Child

variable {child child' : ChildIsolate}

theorem settled_receive (child : ChildIsolate) (message : SendToIsolateData) :
    (child.receive message).settled = message.update child.settled := by
  simp only [ChildIsolate.settled, ChildIsolate.receive, List.foldl_append, List.foldl_cons,
    List.foldl_nil]

/-- Reading a message changes nothing of it. -/
theorem settled_handle (h : child.handle = some child') : child'.settled = child.settled := by
  unfold ChildIsolate.handle at h
  split at h
  · cases h
  · rename_i message inbox hinbox
    cases h
    simp only [ChildIsolate.settled, hinbox, List.foldl_cons]

/-- Without a state in flight it is what the child holds now. -/
theorem settled_quiet (h : ∀ message ∈ child.inbox, message.syncState = none) :
    child.settled = child.syncState := by
  obtain ⟨syncState, inbox⟩ := child
  unfold ChildIsolate.settled
  induction inbox with
  | nil => rfl
  | cons message inbox ih =>
      have hnone : message.update syncState = syncState := by
        rw [SendToIsolateData.update, h message List.mem_cons_self, Option.getD_none]
      rw [List.foldl_cons, hnone]
      exact ih fun m hm => h m (List.mem_cons_of_mem _ hm)

end Child

/-- The state the main isolate has, or will have again when `IsolateSetupAction` is through. -/
def State.shared (s : State) : SyncState :=
  match s.setup with
  | .startingUploads state _ _ _ _ => state.syncState
  | _ => s.parent.syncState

/-- **Every child will hold the state of the main isolate.** -/
def Synced (s : State) : Prop := ∀ child ∈ s.isolates, child.settled = s.shared

/-- What the child of a connector will hold. -/
def State.settled? (s : State) (connector : Nat) : Option SyncState :=
  s.isolates[connector]?.map ChildIsolate.settled

/-- **A sync action that is safe**: no child is there yet, the upload isolates are starting, or it
    changes nothing. -/
def steady (s : State) : Event → Prop
  | .sync action =>
    s.setup = .idle ∨ (∃ state scan target multicast uploads,
      s.setup = .startingUploads state scan target multicast uploads) ∨
    action.next s.parent.syncState = s.parent.syncState
  | _ => True

/-! ## 4. Who is told -/

/-- The connectors of the children started so far. -/
def Setup.started : Setup → List Nat
  | .idle | .completed => []
  | .startingScan scan => [scan]
  | .startingTarget scan target => [scan, target]
  | .startingMulticast scan target multicast => [scan, target, multicast]
  | .startingUploads _ scan target multicast uploads => [scan, target, multicast] ++ uploads

/-- **Who has a connector**: nobody before the end of `IsolateSetupAction`, and then an upload
    isolate that is not written to. -/
structure Connected (s : State) : Prop where
  idle : s.setup = .idle → s.isolates = []
  started : s.setup ≠ .idle → s.isolates ≠ []
  starting : s.setup ≠ .completed → s.parent.published = []
  known : ∀ id ∈ s.setup.started, id < s.isolates.length
  captured : ∀ state scan target multicast uploads,
    s.setup = .startingUploads state scan target multicast uploads →
    (∀ id ∈ uploads, id ∉ [scan, target, multicast]) ∧ uploads ≠ []
  completed : s.setup = .completed → ∃ id ∈ s.parent.httpUpload, id < s.isolates.length ∧
    id ∉ s.parent.published

section Step

variable {s t : State} {e : Event}

theorem synced_iff_settled : Synced s ↔ ∀ id v, s.settled? id = some v → v = s.shared := by
  constructor
  · intro h id v hv
    obtain ⟨child, hchild, rfl⟩ := Option.map_eq_some_iff.mp hv
    exact h child (List.mem_of_getElem? hchild)
  · intro h child hmem
    obtain ⟨id, hid⟩ := List.mem_iff_getElem?.mp hmem
    exact h id child.settled (by rw [State.settled?, hid, Option.map_some])

theorem settled?_spawn (s : State) (count : Nat) (id : Nat) (v : SyncState)
    (h : (s.spawn count).settled? id = some v) :
    s.settled? id = some v ∨ v = s.parent.syncState := by
  obtain ⟨child, hchild, rfl⟩ := Option.map_eq_some_iff.mp h
  simp only [State.spawn, List.getElem?_append] at hchild
  split at hchild
  · exact Or.inl (by rw [State.settled?, hchild, Option.map_some])
  · obtain rfl := List.eq_of_mem_replicate (List.mem_of_getElem? hchild)
    exact Or.inr rfl

theorem settled?_send (s : State) (connector : Nat) (message : SendToIsolateData)
    (id : Nat) : (s.sendToIsolate connector message).settled? id =
      (s.settled? id).map fun v => if id = connector then message.update v else v := by
  simp only [State.settled?, State.sendToIsolate, List.getElem?_modify, Option.map_map]
  by_cases h : id = connector
  · subst h
    cases s.isolates[id]? <;> simp [settled_receive]
  · have h' : ¬connector = id := fun heq => h heq.symm
    cases s.isolates[id]? <;> simp [h, h']

/-- A child that is written to will hold the new state, the others what they would anyway. -/
theorem settled?_fold (syncState : SyncState) (connectors : List Nat) (s : State)
    (id : Nat) :
    (connectors.foldl (fun s connector => s.sendToIsolate connector ⟨syncState⟩) s).settled? id =
      (s.settled? id).map fun v => if id ∈ connectors then syncState else v := by
  induction connectors generalizing s with
  | nil => simp
  | cons connector connectors ih =>
      rw [List.foldl_cons, ih, settled?_send, Option.map_map]
      congr 1
      funext v
      by_cases h : id = connector
      · simp [h, SendToIsolateData.update]
      · simp [h]

theorem fold_rest (syncState : SyncState) (connectors : List Nat) (s : State) :
    let t := connectors.foldl (fun s connector => s.sendToIsolate connector ⟨syncState⟩) s
    t.parent = s.parent ∧ t.setup = s.setup ∧ t.isolates.length = s.isolates.length := by
  induction connectors generalizing s with
  | nil => exact ⟨rfl, rfl, rfl⟩
  | cons connector connectors ih =>
      obtain ⟨hparent, hsetup, hlength⟩ := ih (s.sendToIsolate connector ⟨syncState⟩)
      exact ⟨hparent, hsetup, hlength.trans (List.length_modify ..)⟩

theorem publish_rest (s : State) (syncState : SyncState) :
    (publishSyncState s syncState).parent = { s.parent with syncState := syncState } ∧
    (publishSyncState s syncState).setup = s.setup ∧
    (publishSyncState s syncState).isolates.length = s.isolates.length := by
  obtain ⟨hparent, hsetup, hlength⟩ := fold_rest syncState s.parent.published s
  exact ⟨congrArg (fun p => { p with syncState := syncState }) hparent, hsetup, hlength⟩

theorem settled?_publish (s : State) (syncState : SyncState) (id : Nat) :
    (publishSyncState s syncState).settled? id =
      (s.settled? id).map fun v => if id ∈ s.parent.published then syncState else v :=
  settled?_fold syncState s.parent.published s id

theorem connected_initial (syncState : SyncState) : Connected (.initial syncState) where
  idle _ := rfl
  started h := absurd rfl h
  starting _ := rfl
  known _ h := by cases h
  captured _ _ _ _ _ h := by cases h
  completed h := by cases h

/-- Steps that leave the setup, the number of children and the connectors alone. -/
theorem Connected.of_same (h : Connected s) (hsetup : t.setup = s.setup)
    (hlength : t.isolates.length = s.isolates.length)
    (hpublished : t.parent.published = s.parent.published)
    (hupload : t.parent.httpUpload = s.parent.httpUpload) : Connected t where
  idle hidle := List.eq_nil_of_length_eq_zero
    (hlength.trans (congrArg List.length (h.idle (hsetup ▸ hidle))))
  started hne hnil := h.started (hsetup ▸ hne) (List.eq_nil_of_length_eq_zero
    (hlength.symm.trans (congrArg List.length hnil)))
  starting hne := hpublished.trans (h.starting (hsetup ▸ hne))
  known id hid := hlength ▸ h.known id (hsetup ▸ hid)
  captured := hsetup ▸ h.captured
  completed hdone := by
    rw [hupload, hlength, hpublished]
    exact h.completed (hsetup ▸ hdone)

/-- The next children are started. -/
theorem Connected.of_spawn (h : Connected s) {count : Nat} (hcount : 1 ≤ count) {setup : Setup}
    (hsetup : s.setup ≠ .completed) (hidle : setup ≠ .idle) (hdone : setup ≠ .completed)
    (hknown : ∀ id ∈ setup.started, id < s.isolates.length + count)
    (hcaptured : ∀ state scan target multicast uploads,
      setup = .startingUploads state scan target multicast uploads →
      (∀ id ∈ uploads, id ∉ [scan, target, multicast]) ∧ uploads ≠ []) :
    Connected { s.spawn count with setup := setup } where
  idle heq := absurd heq hidle
  started _ hnil := by
    have hlength := congrArg List.length hnil
    simp only [State.spawn, List.length_append, List.length_replicate, List.length_nil] at hlength
    omega
  starting _ := h.starting hsetup
  known id hid := by
    simpa [State.spawn] using hknown id hid
  captured := hcaptured
  completed heq := absurd heq hdone

/-- **One more isolate is there.** -/
theorem connected_connected (h : Connected s) (hs : connected s = some t) : Connected t := by
  have hknown := h.known
  unfold connected at hs
  split at hs
  · rename_i scan hsetup
    cases hs
    simp only [hsetup, Setup.started, List.mem_singleton, forall_eq] at hknown
    refine h.of_spawn (Nat.le_refl 1) (by simp [hsetup]) (by simp) (by simp) (fun id hid => ?_)
      fun _ _ _ _ _ h => by cases h
    simp only [Setup.started, List.mem_cons, List.not_mem_nil, or_false] at hid
    omega
  · rename_i scan target hsetup
    cases hs
    simp only [hsetup, Setup.started, List.mem_cons, List.not_mem_nil, or_false, forall_eq_or_imp,
      forall_eq] at hknown
    refine h.of_spawn (Nat.le_refl 1) (by simp [hsetup]) (by simp) (by simp) (fun id hid => ?_)
      fun _ _ _ _ _ h => by cases h
    simp only [Setup.started, List.mem_cons, List.not_mem_nil, or_false] at hid
    omega
  · rename_i scan target multicast hsetup
    cases hs
    simp only [hsetup, Setup.started, List.mem_cons, List.not_mem_nil, or_false, forall_eq_or_imp,
      forall_eq] at hknown
    refine h.of_spawn (by decide) (by simp [hsetup]) (by simp) (by simp) (fun id hid => ?_) ?_
    · simp only [Setup.started, List.mem_append, List.mem_cons, List.not_mem_nil, or_false,
        List.mem_map, List.mem_range] at hid
      rcases hid with hid | ⟨i, hi, rfl⟩ <;> omega
    · intro state scan' target' multicast' uploads heq
      cases heq
      refine ⟨fun id hid hold => ?_, by simp [uploadIsolateCount]⟩
      obtain ⟨i, _, rfl⟩ := List.mem_map.mp hid
      simp only [List.mem_cons, List.not_mem_nil, or_false] at hold
      omega
  · -- the last await: the main isolate gets its connectors
    rename_i state scan target multicast uploads hsetup
    cases hs
    rw [hsetup] at hknown
    obtain ⟨hother, hsome⟩ := h.captured state scan target multicast uploads hsetup
    obtain ⟨id, hid⟩ := List.exists_mem_of_ne_nil uploads hsome
    refine ⟨fun h => (by cases h), fun _ => h.started (by simp [hsetup]),
      fun hne => absurd rfl hne, fun _ h => (by cases h), fun _ _ _ _ _ h => (by cases h),
      fun _ => ⟨id, hid, ?_, ?_⟩⟩
    · exact hknown id (List.mem_append_right _ hid)
    · simpa [ParentIsolateState.published] using hother id hid
  · cases hs

theorem connected_step (h : Connected s) (hs : app.step s e = some t) : Connected t := by
  cases e with
  | setup =>
      simp only [app, step] at hs
      split at hs
      · rename_i hsetup
        cases hs
        refine h.of_spawn (Nat.le_refl 1) (by simp [hsetup]) (by simp) (by simp) (fun id hid => ?_)
          fun _ _ _ _ _ h => by cases h
        obtain rfl := List.mem_singleton.mp hid
        exact Nat.lt_succ_self _
      · cases hs
  | connected => exact connected_connected h hs
  | sync action =>
      obtain rfl := Option.some.inj hs
      obtain ⟨hparent, hsetup, hlength⟩ := publish_rest s (action.next s.parent.syncState)
      exact h.of_same hsetup hlength (by rw [hparent]; rfl) (by rw [hparent])
  | task connector =>
      obtain rfl := Option.some.inj hs
      exact h.of_same rfl (List.length_modify ..) rfl rfl
  | handle connector =>
      obtain ⟨child, _, rfl⟩ := Option.map_eq_some_iff.mp hs
      exact h.of_same rfl (List.length_set ..) rfl rfl

/-- Once a child was started, and outside the start of the upload isolates, one of the children is
    not written to. -/
theorem Connected.untold (h : Connected s) (hidle : s.setup ≠ .idle) :
    ∃ id v, s.settled? id = some v ∧ id ∉ s.parent.published := by
  obtain ⟨id, hlt, hid⟩ : ∃ id, id < s.isolates.length ∧ id ∉ s.parent.published := by
    by_cases hdone : s.setup = .completed
    · obtain ⟨id, _, hlt, hid⟩ := h.completed hdone
      exact ⟨id, hlt, hid⟩
    · rw [h.starting hdone]
      exact ⟨0, List.length_pos_iff.mpr (h.started hidle), List.not_mem_nil⟩
  exact ⟨id, _, by rw [State.settled?, List.getElem?_eq_getElem hlt, Option.map_some], hid⟩

/-- **A sync action keeps the children in step if and only if it is `steady`.** -/
theorem synced_publish (hC : Connected s) (hS : Synced s) (syncState : SyncState) :
    Synced (publishSyncState s syncState) ↔
      s.setup = .idle ∨ (∃ state scan target multicast uploads,
        s.setup = .startingUploads state scan target multicast uploads) ∨
      syncState = s.parent.syncState := by
  obtain ⟨hparent, hsetup, _⟩ := publish_rest s syncState
  rw [synced_iff_settled] at hS ⊢
  simp only [settled?_publish]
  cases hphase : s.setup with
  | idle =>
      refine iff_of_true (fun id v hv => ?_) (Or.inl rfl)
      rw [State.settled?, hC.idle hphase] at hv
      cases hv
  | startingUploads state scan target multicast uploads =>
      -- nobody is told, and the change is lost in the end
      refine iff_of_true (fun id v hv => ?_) (Or.inr (Or.inl ⟨_, _, _, _, _, rfl⟩))
      rw [hC.starting (by simp [hphase])] at hv
      have hv : s.settled? id = some v := by simpa using hv
      have hshared : (publishSyncState s syncState).shared = s.shared := by
        simp only [State.shared, hsetup, hphase]
      rw [hshared]
      exact hS id v hv
  | _ =>
      have hshared : (publishSyncState s syncState).shared = syncState := by
        simp only [State.shared, hsetup, hphase, hparent]
      have hold : s.shared = s.parent.syncState := by simp only [State.shared, hphase]
      simp only [reduceCtorEq, exists_false, false_or, hshared]
      rw [hold] at hS
      constructor
      · intro h
        obtain ⟨id, v, hv, hid⟩ := hC.untold (by simp [hphase])
        rw [← hS id v hv]
        exact (h id v (by simp [hv, hid])).symm
      · rintro rfl id v hv
        obtain ⟨w, hw, rfl⟩ := Option.map_eq_some_iff.mp hv
        split
        · rfl
        · exact hS id w hw

/-- **A step keeps the children in step if and only if it is `steady`.** -/
theorem synced_step (hC : Connected s) (hS : Synced s) (hs : app.step s e = some t) :
    Synced t ↔ steady s e := by
  rw [synced_iff_settled] at hS ⊢
  cases e with
  | setup =>
      refine iff_of_true (fun id v hv => ?_) trivial
      simp only [app, step] at hs
      split at hs
      · rename_i hsetup
        cases hs
        rcases settled?_spawn s 1 id v hv with hold | rfl
        · simpa [State.shared, State.spawn, hsetup] using hS id v hold
        · rfl
      · cases hs
  | connected =>
      refine iff_of_true (fun id v hv => ?_) trivial
      simp only [app, step, connected] at hs
      split at hs
      · rename_i hsetup
        cases hs
        rcases settled?_spawn s 1 id v hv with hold | rfl
        · simpa [State.shared, State.spawn, hsetup] using hS id v hold
        · rfl
      · rename_i hsetup
        cases hs
        rcases settled?_spawn s 1 id v hv with hold | rfl
        · simpa [State.shared, State.spawn, hsetup] using hS id v hold
        · rfl
      · rename_i hsetup
        cases hs
        rcases settled?_spawn s uploadIsolateCount id v hv with hold | rfl
        · simpa [State.shared, State.spawn, hsetup] using hS id v hold
        · rfl
      · rename_i hsetup
        cases hs
        simpa [State.shared, hsetup] using hS id v hv
      · cases hs
  | sync action =>
      obtain rfl := Option.some.inj hs
      rw [← synced_iff_settled]
      exact synced_publish hC (synced_iff_settled.mpr hS) _
  | task connector =>
      obtain rfl := Option.some.inj hs
      refine iff_of_true (fun id v hv => ?_) trivial
      rw [settled?_send] at hv
      obtain ⟨w, hw, rfl⟩ := Option.map_eq_some_iff.mp hv
      have hsame : (if id = connector then SendToIsolateData.update ⟨none⟩ w else w) = w :=
        ite_self w
      rw [hsame]
      exact hS id w hw
  | handle connector =>
      obtain ⟨child, hchild, rfl⟩ := Option.map_eq_some_iff.mp hs
      obtain ⟨old, hold, hhandle⟩ := Option.bind_eq_some_iff.mp hchild
      refine iff_of_true (fun id v hv => ?_) trivial
      simp only [State.settled?, List.getElem?_set] at hv
      split at hv
      · rename_i heq
        subst heq
        split at hv
        · obtain rfl := Option.some.inj hv
          rw [settled_handle hhandle]
          exact hS connector old.settled (by rw [State.settled?, hold, Option.map_some])
        · cases hv
      · exact hS id v hv

end Step

/-! ## 5. Every run -/

section Runs

variable {s : State} {syncState : SyncState} {es : List Event}

theorem connected_run (h : app.Run Machine.anyStep (.initial syncState) es s) : Connected s :=
  h.invariant (connected_initial syncState) fun _ _ _ hC _ hs => connected_step hC hs

/-- **The children are in step all the way through the runs whose steps are `steady`, and through
    no others.** -/
theorem synced_iff (h : app.Run Machine.anyStep (.initial syncState) es s) :
    (∀ fs t, fs <+: es → app.Run Machine.anyStep (.initial syncState) fs t → Synced t) ↔
      app.Run steady (.initial syncState) es s := by
  have hinit : Connected (.initial syncState) ∧ Synced (.initial syncState) :=
    ⟨connected_initial syncState, fun _ hmem => by cases hmem⟩
  rw [← h.invariant_iff (I := fun s => Connected s ∧ Synced s) hinit
    fun t e u hI hs => (and_iff_right (connected_step hI.1 hs)).trans (synced_step hI.1 hI.2 hs)]
  constructor
  · exact fun hall fs t hfs ht => ⟨connected_run ht, hall fs t hfs ht⟩
  · exact fun hall fs t hfs ht => (hall fs t hfs ht).2

/-- **Every child holds the state of the main isolate** once `IsolateSetupAction` is through and no
    state is in flight, in any run in which the state never changes after the first child was
    started, or only while the upload isolates are starting. -/
theorem isolates_synced (h : app.Run steady (.initial syncState) es s)
    (hdone : s.setup = .completed)
    (hquiet : ∀ child ∈ s.isolates, ∀ message ∈ child.inbox, message.syncState = none) :
    ∀ child ∈ s.isolates, child.syncState = s.parent.syncState := by
  intro child hmem
  have hsynced : Synced s := (synced_iff h.any).mpr h es s List.prefix_rfl h.any
  have hshared : s.shared = s.parent.syncState := by simp only [State.shared, hdone]
  rw [← settled_quiet (hquiet child hmem), ← hshared]
  exact hsynced child hmem

instance (s : State) : (e : Event) → Decidable (steady s e)
  | .sync action =>
    have : Decidable (∃ state scan target multicast uploads,
        s.setup = .startingUploads state scan target multicast uploads) :=
      match s.setup with
      | .startingUploads _ _ _ _ _ => .isTrue ⟨_, _, _, _, _, rfl⟩
      | .idle | .startingScan _ | .startingTarget _ _ | .startingMulticast _ _ _ | .completed =>
        .isFalse fun h => by
          obtain ⟨_, _, _, _, _, h⟩ := h
          cases h
    inferInstanceAs (Decidable (_ ∨ _ ∨ _))
  | .setup | .connected | .task _ | .handle _ => inferInstanceAs (Decidable True)

def demoState : SyncState where
  securityContext := ⟨"private 1", "public 1", "certificate 1", "hash 1"⟩
  deviceInfo := ⟨.desktop, some "Linux", none⟩
  aliasName := "a"
  port := 53317
  networkWhitelist := none
  networkBlacklist := none
  protocol := .https
  multicastGroup := "224.0.0.167"
  discoveryTimeout := 500
  serverRunning := true
  download := false

/-- The user renames the device. -/
def renamed (aliasName : String) : Event := .sync (.serverState aliasName 53317 .https true false)

/-- Everything is started. -/
def setupRun : List Event := [.setup, .connected, .connected, .connected, .connected]

/-- The device is renamed before the start, and once more while the upload isolates start. -/
theorem isolates_synced_renamedRun :
    ∃ s, app.Run steady (.initial demoState) [renamed "b", .setup, .connected, .connected,
        .connected, renamed "c", .task 3, .connected, .handle 3] s ∧
      s.setup = .completed ∧ (s.isolates.length = 5 ∧ s.parent.syncState.aliasName = "b") ∧
      ∀ child ∈ s.isolates, child.syncState = s.parent.syncState := by
  have hrun : ((app.guarded steady).run (.initial demoState) [renamed "b", .setup, .connected,
      .connected, .connected, renamed "c", .task 3, .connected, .handle 3]).map (fun s =>
        (s.setup, s.isolates.map ChildIsolate.inbox, s.parent.syncState.aliasName)) =
      some (.completed, [[], [], [], [], []], "b") := by decide
  obtain ⟨s, hs, hobs⟩ := Machine.run_observe_guarded hrun
  simp only [Prod.mk.injEq] at hobs
  obtain ⟨hdone, hinbox, hname⟩ := hobs
  have hempty : ∀ child ∈ s.isolates, child.inbox = [] := by
    intro child hmem
    have hmap := List.mem_map_of_mem (f := ChildIsolate.inbox) hmem
    rw [hinbox] at hmap
    simpa using hmap
  have hlength : s.isolates.length = 5 := by
    simpa using congrArg List.length hinbox
  refine ⟨s, hs, hdone, ⟨hlength, hname⟩, isolates_synced hs hdone fun child hmem m hm => ?_⟩
  rw [hempty child hmem] at hm
  cases hm

/-- **An upload isolate is left behind**: the device is renamed after the start. -/
theorem upload_stale :
    ∃ s, app.Run Machine.anyStep (.initial demoState)
        (setupRun ++ [renamed "b", .handle 0, .handle 1, .handle 2]) s ∧
      s.setup = .completed ∧
      (∀ child ∈ s.isolates, ∀ message ∈ child.inbox, message.syncState = none) ∧
      ∃ id ∈ s.parent.httpUpload, ∃ child, s.isolates[id]? = some child ∧
        child.syncState ≠ s.parent.syncState := by
  have hrun : (app.run (.initial demoState) (setupRun ++ [renamed "b", .handle 0, .handle 1,
      .handle 2])).map (fun s => (s.setup, s.isolates.map ChildIsolate.inbox,
        s.parent.httpUpload, (s.isolates[3]?).map fun child => child.syncState.aliasName,
        s.parent.syncState.aliasName)) =
      some (.completed, [[], [], [], [], []], [3, 4], some "a", "b") := by decide
  obtain ⟨s, hs, hobs⟩ := Machine.run_observe hrun
  simp only [Prod.mk.injEq] at hobs
  obtain ⟨hdone, hinbox, hupload, hheld, hname⟩ := hobs
  obtain ⟨child, hchild, hheld⟩ := Option.map_eq_some_iff.mp hheld
  refine ⟨s, hs, hdone, fun child hmem m hm => ?_, 3, by simp [hupload], child, hchild, ?_⟩
  · have hmap := List.mem_map_of_mem (f := ChildIsolate.inbox) hmem
    rw [hinbox] at hmap
    have hempty : child.inbox = [] := by simpa using hmap
    rw [hempty] at hm
    cases hm
  · intro heq
    have halias := congrArg SyncState.aliasName heq
    rw [hheld, hname] at halias
    exact absurd halias (by decide)

/-- **A change during the start is missed**, although the child gets every later message. -/
theorem start_missed :
    ∃ s, app.Run Machine.anyStep (.initial demoState)
        [.setup, renamed "b", .connected, .connected, .connected, .connected] s ∧
      s.setup = .completed ∧ (s.isolates.map fun child => child.syncState.aliasName) =
        ["a", "b", "b", "b", "b"] ∧ s.parent.syncState.aliasName = "b" := by
  have hrun : (app.run (.initial demoState) [.setup, renamed "b", .connected, .connected,
      .connected, .connected]).map (fun s => (s.setup, (s.isolates.map fun child =>
        child.syncState.aliasName), s.parent.syncState.aliasName)) =
      some (.completed, ["a", "b", "b", "b", "b"], "b") := by decide
  obtain ⟨s, hs, hobs⟩ := Machine.run_observe hrun
  simp only [Prod.mk.injEq] at hobs
  exact ⟨s, hs, hobs⟩

end Runs

end LocalSend.Isolates
