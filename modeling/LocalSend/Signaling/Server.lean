/-
  File:      LocalSend/Signaling/Server.lean
  Subject:   THE SIGNALING SERVER: `ws_controller.rs` as a machine.

  One connection is one `handle_socket` task. Its steps are the pieces of code between two
  awaits; a send into an mpsc channel of capacity 4 is enabled only while the channel has room,
  and does nothing once the receiving half is dropped. Everything the tasks share is global, as
  in the source: one `tx_map`, one `request_count_map`, one channel for each connection.

  * `State` -- the shared maps, the channels, and the handler of every connection so far;
  * `Action` -- what one task can do next: the admission under the lock, one send of a loop,
    one client message, one message taken by the send task, the end of the tasks, the removal;
  * `step` -- the server machine; `server` packs it as a `Machine`.

  Map iteration order: the loops over `values()` may serve their targets in any order (the target
  is part of the action). `abort` cancels a task at the await it is suspended on.
-/
import LocalSend.Common.Device
import LocalSend.Lib.Machine

namespace LocalSend.Signaling

open Lib

/-! ## 1. Messages (`core/src/webrtc/signaling.rs`) -/

/-- A server-generated id; the machine only ever admits a fresh one. -/
abbrev Uuid := Nat

structure ClientInfoWithoutId where
  aliasName : String
  version : String
  deviceModel : Option String
  deviceType : Option DeviceType
  token : String
  deriving DecidableEq, Repr

structure ClientInfo extends ClientInfoWithoutId where
  id : Uuid
  deriving DecidableEq, Repr

/-- `ClientInfo::from(info, id)`. -/
def ClientInfo.from (info : ClientInfoWithoutId) (id : Uuid) : ClientInfo :=
  { toClientInfoWithoutId := info, id := id }

structure WsServerSdpMessage where
  peer : ClientInfo
  sessionId : String
  sdp : String
  deriving DecidableEq, Repr

inductive WsServerMessage where
  | hello (client : ClientInfo) (peers : List ClientInfo)
  | join (peer : ClientInfo)
  | update (peer : ClientInfo)
  | left (peerId : Uuid)
  | offer (sdp : WsServerSdpMessage)
  | answer (sdp : WsServerSdpMessage)
  | error (code : Nat)
  deriving DecidableEq, Repr

structure WsClientSdpMessage where
  sessionId : String
  target : Uuid
  sdp : String
  deriving DecidableEq, Repr

inductive WsClientMessage where
  | update (info : ClientInfoWithoutId)
  | offer (sdp : WsClientSdpMessage)
  | answer (sdp : WsClientSdpMessage)
  deriving DecidableEq, Repr

/-! ## 2. State -/

/-- An entry of `tx_map`: the registered info and the sender half of a connection's channel
    (named by the connection that created it). -/
structure ClientState where
  client : ClientInfoWithoutId
  tx : Uuid
  deriving DecidableEq, Repr

/-- The inner map of `tx_map`: peer id to entry. -/
abbrev TxLocalMap := List (Uuid × ClientState)

/-- Where the receive task of a connection stands. -/
inductive RecvTask where
  /-- waiting for the next client message -/
  | idle
  /-- the request is counted; the message is handled once the lock of `tx_map` is there -/
  | counted (msg : WsClientMessage)
  /-- in the loop of `send_update_to_other_peers_with_lock` -/
  | updating (peersTx : List Uuid) (peer : ClientInfo)
  /-- at the last send of `send_to_peer_with_lock` -/
  | forwarding (tx : Uuid) (msg : WsServerMessage)
  /-- at the send of the error, request limit reached -/
  | erring
  /-- returned -/
  | returned
  deriving DecidableEq, Repr

/-- Where `handle_socket` stands. -/
inductive Phase where
  /-- limit reached: the socket is closed and the task returns -/
  | refused
  /-- in the `Join` loop; `Hello` with `peers` comes after it -/
  | joining (peersTx : List Uuid) (peers : List ClientInfo)
  /-- both tasks are spawned -/
  | running (recv : RecvTask)
  /-- one task exited, the other is aborted; the removal comes next -/
  | ended
  /-- in the `Left` loop -/
  | leaving (remainingTx : List Uuid)
  | finished
  deriving DecidableEq, Repr

structure Handler where
  group : String
  peer : ClientInfo
  phase : Phase
  deriving DecidableEq, Repr

/-- The receiving half of the channel is alive: owned by `handle_socket` until the send task is
    spawned, then by the send task. -/
def Phase.isOpen : Phase → Bool
  | .joining _ _ | .running _ => true
  | _ => false

/-- `MAX_CONNECTIONS` and `MAX_REQUESTS`, read from the environment. -/
structure Limits where
  maxConnections : Nat
  maxRequests : Nat

/-- The capacity of every connection's channel (`mpsc::channel(4)`). -/
def channelCapacity : Nat := 4

structure State where
  txMap : String → Option TxLocalMap
  requestCountMap : String → Option Nat
  /-- the handler of every connection so far, also of those that returned -/
  handler : Uuid → Option Handler
  /-- the messages inside a connection's channel, oldest first -/
  queue : Uuid → List WsServerMessage
  /-- the messages the send task has taken and written to the socket -/
  taken : Uuid → List WsServerMessage

def State.empty : State where
  txMap _ := none
  requestCountMap _ := none
  handler _ := none
  queue _ := []
  taken _ := []

/-- Every message ever put into the channel of `c`, oldest first. -/
def State.placed (s : State) (c : Uuid) : List WsServerMessage := s.taken c ++ s.queue c

def State.setHandler (s : State) (p : Uuid) (h : Handler) : State :=
  { s with handler := Function.update s.handler p (some h) }

def State.setPhase (s : State) (p : Uuid) (h : Handler) (ph : Phase) : State :=
  s.setHandler p { h with phase := ph }

def State.push (s : State) (c : Uuid) (m : WsServerMessage) : State :=
  { s with queue := Function.update s.queue c (s.queue c ++ [m]) }

/-- `tx.send(m).await` of tokio's bounded channel: waits (not enabled) while the channel is full,
    returns the ignored error once the receiving half is gone. -/
def State.send (s : State) (c : Uuid) (m : WsServerMessage) : Option State :=
  match s.handler c with
  | none => some s
  | some h =>
    if h.phase.isOpen then
      if (s.queue c).length < channelCapacity then some (s.push c m) else none
    else some s

/-! ## 3. The pieces of `handle_socket` -/

/-- `protect_ddos_request_count`: the map it leaves, and whether the request may go on. -/
def protectDdosRequestCount (l : Limits) (requestCountMap : String → Option Nat) (g : String) :
    (String → Option Nat) × Bool :=
  let count := (requestCountMap g).getD 0
  if count ≥ l.maxRequests then (Function.update requestCountMap g (some count), false)
  else (Function.update requestCountMap g (some (count + 1)), true)

/-- The inner map as `Hello` lists it. -/
def TxLocalMap.infos (m : TxLocalMap) : List ClientInfo :=
  m.map fun kv => ClientInfo.from kv.2.client kv.1

def TxLocalMap.txs (m : TxLocalMap) : List Uuid := m.map fun kv => kv.2.tx

def TxLocalMap.get (m : TxLocalMap) (p : Uuid) : Option ClientState := m.lookup p

/-- `get_mut(&p)` followed by the assignment of `client`. -/
def TxLocalMap.setClient (m : TxLocalMap) (p : Uuid) (info : ClientInfoWithoutId) : TxLocalMap :=
  m.map fun kv => if kv.1 = p then (kv.1, { kv.2 with client := info }) else kv

def TxLocalMap.erase (m : TxLocalMap) (p : Uuid) : TxLocalMap := m.filter fun kv => kv.1 ≠ p

/-- The block under the lock of `tx_map` with which a connection begins. The entry of the group
    is created before the limits are looked at. -/
def connect (l : Limits) (s : State) (g : String) (p : Uuid) (info : ClientInfoWithoutId) :
    Option State :=
  if s.handler p ≠ none then none else
  let peer := ClientInfo.from info p
  let m := (s.txMap g).getD []
  let s1 := { s with txMap := Function.update s.txMap g (some m) }
  if m.length ≥ l.maxConnections then some (s1.setHandler p ⟨g, peer, .refused⟩) else
  match protectDdosRequestCount l s1.requestCountMap g with
  | (counts, false) =>
    some ({ s1 with requestCountMap := counts }.setHandler p ⟨g, peer, .refused⟩)
  | (counts, true) =>
    let s2 := { s1 with
      requestCountMap := counts
      txMap := Function.update s.txMap g (some (m ++ [(p, ClientState.mk info p)])) }
    some (s2.setHandler p ⟨g, peer, .joining m.txs m.infos⟩)

/-- `send_update_to_other_peers_with_lock`, up to its loop: the map it leaves and the targets. -/
def sendUpdateToOtherPeersWithLock (txMap : String → Option TxLocalMap) (g : String) (p : Uuid)
    (info : ClientInfoWithoutId) : (String → Option TxLocalMap) × List Uuid :=
  match txMap g with
  | some m =>
    match m.get p with
    | some _ => (Function.update txMap g (some (m.setClient p info)), (m.erase p).txs)
    | none => (txMap, [])
  | none => (txMap, [])

/-- `send_to_peer_with_lock`, up to its send: the sender half of the target, if the group has it. -/
def sendToPeerWithLock (txMap : String → Option TxLocalMap) (g : String) (target : Uuid) :
    Option Uuid :=
  match txMap g with
  | some m => (m.get target).map ClientState.tx
  | none => none

/-- The receive task between two loops: back to waiting once the loop has no target left. -/
def RecvTask.afterUpdate (peersTx : List Uuid) (peer : ClientInfo) : RecvTask :=
  if peersTx = [] then .idle else .updating peersTx peer

/-- A forwarded message, as the target's client sees it. -/
def toServerMessage (origin : ClientInfo) : WsClientMessage → Option (Uuid × WsServerMessage)
  | .update _ => none
  | .offer sdp => some (sdp.target, .offer ⟨origin, sdp.sessionId, sdp.sdp⟩)
  | .answer sdp => some (sdp.target, .answer ⟨origin, sdp.sessionId, sdp.sdp⟩)

/-- `send_to_peer_with_lock` for one message: the send comes next, if there is a target. -/
def State.forwardTo (s : State) (p : Uuid) (h : Handler) (target : Uuid) (out : WsServerMessage) :
    State :=
  match sendToPeerWithLock s.txMap h.group target with
  | some tx => s.setPhase p h (.running (.forwarding tx out))
  | none => s.setPhase p h (.running .idle)

/-- The receive task at a parsed client message: the request is counted first. -/
def receive (l : Limits) (s : State) (p : Uuid) (h : Handler) (msg : WsClientMessage) : State :=
  match protectDdosRequestCount l s.requestCountMap h.group with
  | (counts, false) => { s with requestCountMap := counts }.setPhase p h (.running .erring)
  | (counts, true) => { s with requestCountMap := counts }.setPhase p h (.running (.counted msg))

/-- The `match msg` of the receive task, up to the first send. -/
def handleMessage (s : State) (p : Uuid) (h : Handler) (msg : WsClientMessage) : State :=
  match msg with
  | .update info =>
    let r := sendUpdateToOtherPeersWithLock s.txMap h.group p info
    { s with txMap := r.1 }.setPhase p h (.running (.afterUpdate r.2 (ClientInfo.from info p)))
  | msg =>
    match toServerMessage h.peer msg with
    | some (target, out) => s.forwardTo p h target out
    | none => s.setPhase p h (.running .idle)

/-- The block under the lock with which a connection ends: the peer leaves its group, and an
    empty group leaves the map. -/
def remove (s : State) (p : Uuid) (h : Handler) : State :=
  match s.txMap h.group with
  | some m =>
    let m' := m.erase p
    if m'.isEmpty then
      { s with txMap := Function.update s.txMap h.group none }.setPhase p h .finished
    else
      { s with txMap := Function.update s.txMap h.group (some m') }.setPhase p h (.leaving m'.txs)
  | none => s.setPhase p h .finished

/-- The end of the `Left` loop is the end of the task. -/
def Phase.afterLeft (remainingTx : List Uuid) : Phase :=
  if remainingTx = [] then .finished else .leaving remainingTx

/-! ## 4. The machine -/

/-- What the task of one connection does next. -/
inductive Action where
  | connect (info : ClientInfoWithoutId)
  | sendJoin (c : Uuid)
  | sendHello
  | receive (msg : WsClientMessage)
  | handleMessage
  | sendUpdate (c : Uuid)
  | forward
  | sendError
  | take
  | disconnect
  | remove
  | sendLeft (c : Uuid)
  deriving DecidableEq, Repr

/-- A step of the server: an action of connection `p`, which lives in group `g`, or the hourly
    job of `scheduler.rs`. -/
inductive Event where
  | task (g : String) (p : Uuid) (a : Action)
  | clearCounts
  deriving DecidableEq, Repr

/-- What the task of a connection with handler `h` does (`connect` has none yet). -/
def taskStep (l : Limits) (s : State) (p : Uuid) (h : Handler) : Phase → Action → Option State
  | .joining peersTx peers, .sendJoin c =>
    if c ∈ peersTx then
      (s.send c (.join h.peer)).map fun s' => s'.setPhase p h (.joining (peersTx.erase c) peers)
    else none
  | .joining [] peers, .sendHello =>
    (s.send p (.hello h.peer peers)).map fun s' => s'.setPhase p h (.running .idle)
  | .running .idle, .receive msg => some (receive l s p h msg)
  | .running (.counted msg), .handleMessage => some (handleMessage s p h msg)
  | .running (.updating peersTx peer), .sendUpdate c =>
    if c ∈ peersTx then
      (s.send c (.update peer)).map fun s' =>
        s'.setPhase p h (.running (.afterUpdate (peersTx.erase c) peer))
    else none
  | .running (.forwarding tx msg), .forward =>
    (s.send tx msg).map fun s' => s'.setPhase p h (.running .idle)
  | .running .erring, .sendError =>
    (s.send p (.error 429)).map fun s' => s'.setPhase p h (.running .returned)
  | .running _, .take =>
    match s.queue p with
    | m :: rest =>
      some { s with
        queue := Function.update s.queue p rest
        taken := Function.update s.taken p (s.taken p ++ [m]) }
    | [] => none
  | .running _, .disconnect => some (s.setPhase p h .ended)
  | .ended, .remove => some (remove s p h)
  | .leaving remainingTx, .sendLeft c =>
    if c ∈ remainingTx then
      (s.send c (.left p)).map fun s' => s'.setPhase p h (.afterLeft (remainingTx.erase c))
    else none
  | _, _ => none

def step (l : Limits) (s : State) : Event → Option State
  | .clearCounts => some { s with requestCountMap := fun _ => none }
  | .task g p (.connect info) => connect l s g p info
  | .task g p a =>
    match s.handler p with
    | some h => if h.group = g then taskStep l s p h h.phase a else none
    | none => none

/-- **The signaling server.** -/
def server (l : Limits) : Machine State Event := ⟨step l⟩

end LocalSend.Signaling
