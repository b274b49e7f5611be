/-
  File:      LocalSend/Discovery/Multicast.lean
  Subject:   FINDING EACH OTHER: announcements by multicast and the answers to them, between any
             number of hosts (`multicast_discovery.dart`, and `_registerHandler` of the server).

  A host announces itself three times; who hears it answers with a request to `/register`, or, if
  that fails, by multicast, with a message that is not to be answered.

  * `MulticastDto`, `RegisterDto` -- what a host says of itself (`getMulticastDto`,
    `getRegisterDto`) and what it is heard as (`toDevice`);
  * `step`, `network` -- sending, hearing, answering, and the parent that registers what its child
    has heard; every message may be late or lost, and a registration may fail, since it writes the
    favorites; `Step` -- what a step does, as a relation;
  * `charge` -- what may still happen; **`traffic_ends`** -- an announcement causes a bounded number
    of steps in the whole network, so answers never answer each other for ever.

  The socket list of a host is a bound on the copies of a message (`fanout`). Which address is
  bound how, and the rounds of the listener, are left to `Isolates.MulticastListener`.
-/
import LocalSend.Isolates.Sync
import LocalSend.Lib.Potential
import LocalSend.Signaling.AllDevices

namespace LocalSend.Multicast

open Lib
open Isolates (SyncState ProtocolType)
open Signaling (LanDevice NearbyDevicesState)

/-! ## 1. What the hosts say -/

def protocolVersion : String := "2.1"

def fallbackProtocolVersion : String := "1.0"

structure MulticastDto where
  aliasName : String
  version : Option String
  deviceModel : Option String
  deviceType : Option DeviceType
  fingerprint : String
  port : Option Int
  protocol : Option ProtocolType
  download : Option Bool
  announcement : Option Bool
  announce : Option Bool
  deriving DecidableEq, Repr

structure RegisterDto where
  aliasName : String
  version : Option String
  deviceModel : Option String
  deviceType : Option DeviceType
  fingerprint : String
  port : Option Int
  protocol : Option ProtocolType
  download : Option Bool
  deriving DecidableEq, Repr

/-- `RegisterDtoExt.toDevice`. -/
def RegisterDto.toDevice (dto : RegisterDto) (ip : String) (ownPort : Int) (ownHttps : Bool)
    (method : DiscoveryMethod) : LanDevice where
  device := {
    signalingId := none
    ip := some ip
    version := dto.version.getD fallbackProtocolVersion
    port := dto.port.getD ownPort
    https := (dto.protocol.map fun protocol => decide (protocol = .https)).getD ownHttps
    fingerprint := dto.fingerprint
    aliasName := dto.aliasName
    deviceModel := dto.deviceModel
    deviceType := dto.deviceType.getD .desktop
    download := dto.download.getD false
    discoveryMethods := [method] }
  ip := ip
  ip_eq := rfl
  signalingId_eq := rfl

/-- `MulticastDtoToDeviceExt.toDevice`. -/
def MulticastDto.toDevice (dto : MulticastDto) (ip : String) (ownPort : Int) (ownHttps : Bool) :
    LanDevice where
  device := {
    signalingId := none
    ip := some ip
    version := dto.version.getD fallbackProtocolVersion
    port := dto.port.getD ownPort
    https := (dto.protocol.map fun protocol => decide (protocol = .https)).getD ownHttps
    fingerprint := dto.fingerprint
    aliasName := dto.aliasName
    deviceModel := dto.deviceModel
    deviceType := dto.deviceType.getD .desktop
    download := dto.download.getD false
    discoveryMethods := [.multicast] }
  ip := ip
  ip_eq := rfl
  signalingId_eq := rfl

/-- `_getMulticastDto`. -/
def getMulticastDto (syncState : SyncState) (announcement : Bool) : MulticastDto where
  aliasName := syncState.aliasName
  version := some protocolVersion
  deviceModel := syncState.deviceInfo.deviceModel
  deviceType := some syncState.deviceInfo.deviceType
  fingerprint := syncState.securityContext.certificateHash
  port := some syncState.port
  protocol := some syncState.protocol
  download := some syncState.download
  announcement := some announcement
  announce := some announcement

/-- `_getRegisterDto`. -/
def getRegisterDto (syncState : SyncState) : RegisterDto where
  aliasName := syncState.aliasName
  version := some protocolVersion
  deviceModel := syncState.deviceInfo.deviceModel
  deviceType := some syncState.deviceInfo.deviceType
  fingerprint := syncState.securityContext.certificateHash
  port := some syncState.port
  protocol := some syncState.protocol
  download := some syncState.download

/-- Whether a message asks for an answer. -/
def MulticastDto.asks (dto : MulticastDto) : Bool :=
  dto.announcement = some true || dto.announce = some true

/-! ## 2. The hosts and the network -/

/-- What the routes of a running server know of their own host. -/
structure Server where
  port : Int
  https : Bool
  fingerprint : String
  deriving DecidableEq, Repr

structure Peer where
  /-- what the child isolate knows of the app -/
  syncState : SyncState
  /-- the listener's own `syncState`, while it listens -/
  listening : Option SyncState
  server : Option Server
  nearby : NearbyDevicesState
  /-- `StartMulticastListener` of the parent still takes what its child hears -/
  attending : Bool

/-- A message that is being sent, in `rounds` more rounds: `sendAnnouncement`, or the second part of
    `_answerAnnouncement`. -/
structure Sending where
  ip : String
  group : String
  port : Int
  announcement : Bool
  /-- the state the message was made from, once the sockets are open -/
  said : Option SyncState
  rounds : Nat
  deriving DecidableEq, Repr

structure Datagram where
  source : String
  target : String
  group : String
  port : Int
  dto : MulticastDto
  deriving DecidableEq, Repr

/-- Where `_answerAnnouncement` stands. -/
inductive Stage where
  | posting (dto : RegisterDto)
  /-- the response is on its way -/
  | handled (accepted : Bool)
  deriving DecidableEq, Repr

/-- The answer of a host to a peer it has heard. -/
structure Answer where
  ip : String
  peer : LanDevice
  stage : Stage

structure State where
  peers : String → Peer
  /-- what the listeners have heard and the parents have not registered, oldest first -/
  found : List (String × LanDevice)
  sendings : List Sending
  datagrams : List Datagram
  answers : List Answer

/-- Nobody has said anything. -/
def State.initial (syncStates : String → SyncState) : State where
  peers ip := ⟨syncStates ip, none, none, .init, true⟩
  found := []
  sendings := []
  datagrams := []
  answers := []

def State.setPeer (s : State) (ip : String) (peer : Peer) : State :=
  { s with peers := Function.update s.peers ip peer }

/-- `RegisterDeviceAction` at a host. -/
def State.register (s : State) (ip : String) (device : LanDevice) : State :=
  s.setPeer ip { s.peers ip with nearby := (s.peers ip).nearby.registerDevice device }

/-- What is read before the sockets are opened. -/
def State.sending (s : State) (ip : String) (announcement : Bool) (rounds : Nat) : Sending :=
  ⟨ip, (s.peers ip).syncState.multicastGroup, (s.peers ip).syncState.port, announcement, none,
    rounds⟩

inductive Event where
  /-- `sendAnnouncement` is called -/
  | announce (ip : String)
  /-- the sockets of the `k`-th sending are open, the message is made -/
  | prepare (k : Nat)
  /-- its next round; the hosts that get a copy -/
  | send (k : Nat) (targets : List String)
  /-- the `k`-th datagram arrives -/
  | deliver (k : Nat)
  | lose (k : Nat)
  /-- the request of the `k`-th answer arrives -/
  | handle (k : Nat)
  /-- it arrives, but the registration fails, and nothing is answered -/
  | handleFails (k : Nat)
  /-- its response arrives -/
  | respond (k : Nat)
  /-- it is given up: an error, a bad status or a timeout -/
  | giveUp (k : Nat)
  /-- the parent registers the next device its child has heard -/
  | register (ip : String)
  /-- the registration fails, which ends `StartMulticastListener` -/
  | registerFails (ip : String)
  | sync (ip : String) (syncState : SyncState)
  /-- the listener starts, or takes over the latest state -/
  | listen (ip : String)
  | unlisten (ip : String)
  /-- the server starts or stops -/
  | serve (ip : String) (server : Option Server)
  | clearFoundDevices (ip : String)

/-- The listener of a host has got a datagram. -/
def hear (s : State) (syncState : SyncState) (d : Datagram) : State :=
  if d.dto.fingerprint = syncState.securityContext.certificateHash then s
  else
    let peer := d.dto.toDevice d.source syncState.port (decide (syncState.protocol = .https))
    let current := (s.peers d.target).syncState
    { s with
      found := if (s.peers d.target).attending then s.found ++ [(d.target, peer)] else s.found
      answers :=
        if d.dto.asks ∧ current.serverRunning then
          s.answers ++ [⟨d.target, peer, .posting (getRegisterDto current)⟩]
        else s.answers }

/-- Whether the socket of a host is bound to the port and has joined the group. -/
def Datagram.reaches (d : Datagram) (syncState : SyncState) : Bool :=
  syncState.multicastGroup = d.group ∧ syncState.port = d.port

def deliver (s : State) (d : Datagram) : State :=
  match (s.peers d.target).listening with
  | some syncState => if d.reaches syncState then hear s syncState d else s
  | none => s

/-- `_registerHandler`. -/
def registerHandler (s : State) (k : Nat) (a : Answer) (dto : RegisterDto) (server : Server) :
    State :=
  if dto.fingerprint = server.fingerprint then
    { s with answers := s.answers.set k { a with stage := .handled false } }
  else
    { s.register a.peer.ip (dto.toDevice a.ip server.port server.https (.http a.ip)) with
      answers := s.answers.set k { a with stage := .handled true } }

/-- The server under the address of a device, if it is the one the URL names. -/
def State.serverOf (s : State) (peer : LanDevice) : Option Server :=
  (s.peers peer.ip).server.filter fun server =>
    server.port = peer.device.port ∧ server.https = peer.device.https

section Step

variable (fanout : Nat)

def step (s : State) : Event → Option State
  | .announce ip => some { s with sendings := s.sendings ++ [s.sending ip true 3] }
  | .prepare k => do
    let sending ← s.sendings[k]?
    if sending.said = none then
      some { s with
        sendings := s.sendings.set k { sending with said := some (s.peers sending.ip).syncState } }
    else none
  | .send k targets => do
    let sending ← s.sendings[k]?
    let said ← sending.said
    if targets.length ≤ fanout ∧ 0 < sending.rounds then
      let dto := getMulticastDto said sending.announcement
      some { s with
        sendings := s.sendings.set k { sending with rounds := sending.rounds - 1 }
        datagrams := s.datagrams ++
          targets.map fun target => ⟨sending.ip, target, sending.group, sending.port, dto⟩ }
    else none
  | .deliver k => do
    let d ← s.datagrams[k]?
    some (deliver { s with datagrams := s.datagrams.eraseIdx k } d)
  | .lose k => do
    let _ ← s.datagrams[k]?
    some { s with datagrams := s.datagrams.eraseIdx k }
  | .handle k => do
    let a ← s.answers[k]?
    match a.stage with
    | .posting dto => (s.serverOf a.peer).map (registerHandler s k a dto)
    | .handled _ => none
  | .handleFails k => do
    let a ← s.answers[k]?
    match a.stage with
    | .posting dto => do
      let server ← s.serverOf a.peer
      if dto.fingerprint = server.fingerprint then none
      else some { s with answers := s.answers.set k { a with stage := .handled false } }
    | .handled _ => none
  | .respond k => do
    let a ← s.answers[k]?
    if a.stage = .handled true then some { s with answers := s.answers.eraseIdx k } else none
  | .giveUp k => do
    let a ← s.answers[k]?
    some { s with
      answers := s.answers.eraseIdx k
      sendings := s.sendings ++ [s.sending a.ip false 1] }
  | .register ip => do
    let k ← s.found.findIdx? fun entry => entry.1 = ip
    let entry ← s.found[k]?
    some { s.register ip entry.2 with found := s.found.eraseIdx k }
  | .registerFails ip =>
    -- what the stream still holds for the loop is lost with it
    if ∃ entry ∈ s.found, entry.1 = ip then
      some { s.setPeer ip { s.peers ip with attending := false } with
        found := s.found.filter fun entry => entry.1 ≠ ip }
    else none
  | .sync ip syncState => some (s.setPeer ip { s.peers ip with syncState := syncState })
  | .listen ip =>
    some (s.setPeer ip { s.peers ip with listening := some (s.peers ip).syncState })
  | .unlisten ip => some (s.setPeer ip { s.peers ip with listening := none })
  | .serve ip server => some (s.setPeer ip { s.peers ip with server := server })
  | .clearFoundDevices ip =>
    some (s.setPeer ip { s.peers ip with nearby := (s.peers ip).nearby.clearFoundDevices })

/-- **The hosts of a network.** -/
def network : Machine State Event := ⟨step fanout⟩

end Step

/-- **What a step of the network does.** -/
inductive Step (fanout : Nat) (s : State) : Event → State → Prop where
  | announce (ip : String) :
      Step fanout s (.announce ip) { s with sendings := s.sendings ++ [s.sending ip true 3] }
  | prepare (k : Nat) (sending : Sending) (hk : s.sendings[k]? = some sending)
      (hsaid : sending.said = none) :
      Step fanout s (.prepare k) { s with
        sendings := s.sendings.set k { sending with said := some (s.peers sending.ip).syncState } }
  | send (k : Nat) (targets : List String) (sending : Sending) (said : SyncState)
      (hk : s.sendings[k]? = some sending) (hsaid : sending.said = some said)
      (htargets : targets.length ≤ fanout) (hrounds : 0 < sending.rounds) :
      Step fanout s (.send k targets) { s with
        sendings := s.sendings.set k { sending with rounds := sending.rounds - 1 }
        datagrams := s.datagrams ++ targets.map fun target => ⟨sending.ip, target, sending.group,
          sending.port, getMulticastDto said sending.announcement⟩ }
  | deliver (k : Nat) (d : Datagram) (hk : s.datagrams[k]? = some d) :
      Step fanout s (.deliver k) (deliver { s with datagrams := s.datagrams.eraseIdx k } d)
  | lose (k : Nat) (d : Datagram) (hk : s.datagrams[k]? = some d) :
      Step fanout s (.lose k) { s with datagrams := s.datagrams.eraseIdx k }
  | handleOwn (k : Nat) (a : Answer) (dto : RegisterDto) (hk : s.answers[k]? = some a)
      (hstage : a.stage = .posting dto) (server : Server) (hserver : s.serverOf a.peer = some server)
      (hown : dto.fingerprint = server.fingerprint) :
      Step fanout s (.handle k)
        { s with answers := s.answers.set k { a with stage := .handled false } }
  | handle (k : Nat) (a : Answer) (dto : RegisterDto) (server : Server)
      (hk : s.answers[k]? = some a) (hstage : a.stage = .posting dto)
      (hserver : s.serverOf a.peer = some server) (hother : dto.fingerprint ≠ server.fingerprint) :
      Step fanout s (.handle k)
        { s.register a.peer.ip (dto.toDevice a.ip server.port server.https (.http a.ip)) with
          answers := s.answers.set k { a with stage := .handled true } }
  | handleFails (k : Nat) (a : Answer) (dto : RegisterDto) (hk : s.answers[k]? = some a)
      (hstage : a.stage = .posting dto) (server : Server) (hserver : s.serverOf a.peer = some server)
      (hother : dto.fingerprint ≠ server.fingerprint) :
      Step fanout s (.handleFails k)
        { s with answers := s.answers.set k { a with stage := .handled false } }
  | respond (k : Nat) (a : Answer) (hk : s.answers[k]? = some a)
      (hstage : a.stage = .handled true) :
      Step fanout s (.respond k) { s with answers := s.answers.eraseIdx k }
  | giveUp (k : Nat) (a : Answer) (hk : s.answers[k]? = some a) :
      Step fanout s (.giveUp k) { s with
        answers := s.answers.eraseIdx k
        sendings := s.sendings ++ [s.sending a.ip false 1] }
  | register (ip : String) (k : Nat) (entry : String × LanDevice)
      (hfirst : s.found.findIdx? (fun entry => entry.1 = ip) = some k)
      (hk : s.found[k]? = some entry) :
      Step fanout s (.register ip) { s.register ip entry.2 with found := s.found.eraseIdx k }
  | registerFails (ip : String) (entry : String × LanDevice) (hentry : entry ∈ s.found)
      (hip : entry.1 = ip) :
      Step fanout s (.registerFails ip)
        { s.setPeer ip { s.peers ip with attending := false } with
          found := s.found.filter fun entry => entry.1 ≠ ip }
  | sync (ip : String) (syncState : SyncState) :
      Step fanout s (.sync ip syncState) (s.setPeer ip { s.peers ip with syncState := syncState })
  | listen (ip : String) :
      Step fanout s (.listen ip)
        (s.setPeer ip { s.peers ip with listening := some (s.peers ip).syncState })
  | unlisten (ip : String) :
      Step fanout s (.unlisten ip) (s.setPeer ip { s.peers ip with listening := none })
  | serve (ip : String) (server : Option Server) :
      Step fanout s (.serve ip server) (s.setPeer ip { s.peers ip with server := server })
  | clearFoundDevices (ip : String) :
      Step fanout s (.clearFoundDevices ip)
        (s.setPeer ip { s.peers ip with nearby := (s.peers ip).nearby.clearFoundDevices })

theorem step_inv {fanout : Nat} {s t : State} {e : Event} (hs : (network fanout).step s e = some t) :
    Step fanout s e t := by
  change step fanout s e = some t at hs
  cases e with
  | announce ip =>
      obtain rfl := Option.some.inj hs
      exact .announce ip
  | prepare k =>
      simp only [step, Option.bind_eq_bind, Option.bind_eq_some_iff, Option.ite_none_right_eq_some]
        at hs
      obtain ⟨sending, hk, hsaid, hs⟩ := hs
      obtain rfl := Option.some.inj hs
      exact .prepare k sending hk hsaid
  | send k targets =>
      simp only [step, Option.bind_eq_bind, Option.bind_eq_some_iff, Option.ite_none_right_eq_some]
        at hs
      obtain ⟨sending, hk, said, hsaid, ⟨htargets, hrounds⟩, hs⟩ := hs
      obtain rfl := Option.some.inj hs
      exact .send k targets sending said hk hsaid htargets hrounds
  | deliver k =>
      simp only [step, Option.bind_eq_bind, Option.bind_eq_some_iff] at hs
      obtain ⟨d, hk, hs⟩ := hs
      obtain rfl := Option.some.inj hs
      exact .deliver k d hk
  | lose k =>
      simp only [step, Option.bind_eq_bind, Option.bind_eq_some_iff] at hs
      obtain ⟨d, hk, hs⟩ := hs
      obtain rfl := Option.some.inj hs
      exact .lose k d hk
  | handle k =>
      simp only [step, Option.bind_eq_bind, Option.bind_eq_some_iff] at hs
      obtain ⟨a, hk, hs⟩ := hs
      split at hs
      · rename_i dto hstage
        obtain ⟨server, hserver, rfl⟩ := Option.map_eq_some_iff.mp hs
        unfold registerHandler
        split
        · rename_i hown
          exact .handleOwn k a dto hk hstage server hserver hown
        · rename_i hother
          exact .handle k a dto server hk hstage hserver hother
      · cases hs
  | handleFails k =>
      simp only [step, Option.bind_eq_bind, Option.bind_eq_some_iff] at hs
      obtain ⟨a, hk, hs⟩ := hs
      split at hs
      · rename_i dto hstage
        simp only [Option.bind_eq_some_iff, Option.ite_none_left_eq_some] at hs
        obtain ⟨server, hserver, hother, hs⟩ := hs
        obtain rfl := Option.some.inj hs
        exact .handleFails k a dto hk hstage server hserver hother
      · cases hs
  | respond k =>
      simp only [step, Option.bind_eq_bind, Option.bind_eq_some_iff, Option.ite_none_right_eq_some]
        at hs
      obtain ⟨a, hk, hstage, hs⟩ := hs
      obtain rfl := Option.some.inj hs
      exact .respond k a hk hstage
  | giveUp k =>
      simp only [step, Option.bind_eq_bind, Option.bind_eq_some_iff] at hs
      obtain ⟨a, hk, hs⟩ := hs
      obtain rfl := Option.some.inj hs
      exact .giveUp k a hk
  | register ip =>
      simp only [step, Option.bind_eq_bind, Option.bind_eq_some_iff] at hs
      obtain ⟨k, hfirst, entry, hk, hs⟩ := hs
      obtain rfl := Option.some.inj hs
      exact .register ip k entry hfirst hk
  | registerFails ip =>
      simp only [step, Option.ite_none_right_eq_some] at hs
      obtain ⟨⟨entry, hentry, hip⟩, hs⟩ := hs
      obtain rfl := Option.some.inj hs
      exact .registerFails ip entry hentry hip
  | sync ip syncState =>
      obtain rfl := Option.some.inj hs
      exact .sync ip syncState
  | listen ip =>
      obtain rfl := Option.some.inj hs
      exact .listen ip
  | unlisten ip =>
      obtain rfl := Option.some.inj hs
      exact .unlisten ip
  | serve ip server =>
      obtain rfl := Option.some.inj hs
      exact .serve ip server
  | clearFoundDevices ip =>
      obtain rfl := Option.some.inj hs
      exact .clearFoundDevices ip

/-! ## 3. Announcements come to an end -/

/-- A step that something said before has caused. -/
def Event.isTraffic : Event → Bool
  | .prepare _ | .send _ _ | .deliver _ | .lose _ | .handle _ | .handleFails _ | .respond _
  | .giveUp _ | .register _ | .registerFails _ => true
  | _ => false

def Event.isAnnounce : Event → Bool
  | .announce _ => true
  | _ => false

section Traffic

variable {fanout : Nat} {s t : State} {e : Event} {es : List Event}

/-- What a message that is not to be answered can cause for each copy, and with its answer. -/
def datagramCharge (fanout : Nat) (asks : Bool) : Nat := if asks then 6 + 2 * fanout else 2

def sendingCharge (fanout : Nat) (sending : Sending) : Nat :=
  (if sending.said = none then 1 else 0) +
    sending.rounds * (1 + fanout * datagramCharge fanout sending.announcement)

def answerCharge (fanout : Nat) (a : Answer) : Nat :=
  match a.stage with
  | .posting _ => 4 + 2 * fanout
  | .handled _ => 3 + 2 * fanout

/-- **What may still happen**: an upper bound of the steps that are caused by what is under way. -/
def charge (fanout : Nat) (s : State) : Nat :=
  s.found.length + weight (sendingCharge fanout) s.sendings +
    weight (fun d => datagramCharge fanout d.dto.asks) s.datagrams +
      weight (answerCharge fanout) s.answers

theorem asks_getMulticastDto (syncState : SyncState) (announcement : Bool) :
    (getMulticastDto syncState announcement).asks = announcement := by
  simp [MulticastDto.asks, getMulticastDto]

theorem one_le_datagramCharge (fanout : Nat) (asks : Bool) :
    1 ≤ datagramCharge fanout asks := by
  unfold datagramCharge
  split <;> omega

theorem length_found_le {α : Type} (attending : Bool) (found : List α) (entry : α) :
    (if attending then found ++ [entry] else found).length ≤ found.length + 1 := by
  split <;> simp

/-- A datagram that has arrived. -/
theorem charge_deliver (s : State) (d : Datagram) :
    charge fanout (deliver s d) + 1 ≤ charge fanout s + datagramCharge fanout d.dto.asks := by
  have hone := one_le_datagramCharge fanout d.dto.asks
  unfold deliver
  split
  · rename_i syncState _
    split
    · unfold hear
      split
      · omega
      · -- the device that was heard, and the answer to it
        simp only [charge]
        have hfound := length_found_le (s.peers d.target).attending s.found (d.target,
          d.dto.toDevice d.source syncState.port (decide (syncState.protocol = .https)))
        by_cases hasks : d.dto.asks = true ∧ (s.peers d.target).syncState.serverRunning = true
        · rw [if_pos hasks, weight_append, weight_singleton, datagramCharge, if_pos hasks.1]
          simp only [answerCharge]
          omega
        · rw [if_neg hasks]
          have htwo : 2 ≤ datagramCharge fanout d.dto.asks := by
            unfold datagramCharge
            split <;> omega
          omega
    · omega
  · omega

/-- An answer that has been handled is worth less. -/
theorem charge_handled (fanout : Nat) {answers : List Answer} {k : Nat} {a : Answer} {dto : RegisterDto}
    (hk : answers[k]? = some a) (hstage : a.stage = .posting dto) (accepted : Bool) :
    weight (answerCharge fanout) (answers.set k { a with stage := .handled accepted }) + 1 ≤
      weight (answerCharge fanout) answers := by
  have hset := weight_set (w := answerCharge fanout) hk (b := { a with stage := .handled accepted })
  simp only [answerCharge, hstage] at hset
  omega

/-- **Every step is paid for**: one that something has caused by what it leaves, an announcement by
    what it is worth. -/
theorem charge_step (hs : (network fanout).step s e = some t) :
    charge fanout t + (if e.isTraffic then 1 else 0) ≤ charge fanout s +
      (if e.isAnnounce then 4 + 18 * fanout + 6 * (fanout * fanout) else 0) := by
  cases step_inv hs with
  | announce ip =>
      simp only [charge, weight_append, weight_singleton, sendingCharge, State.sending,
        datagramCharge, Event.isTraffic, Event.isAnnounce]
      simp only [if_true, Bool.false_eq_true, if_false, Nat.mul_add, Nat.mul_left_comm fanout 2]
      omega
  | prepare k sending hk hsaid =>
      have hset := weight_set (w := sendingCharge fanout) hk
        (b := { sending with said := some (s.peers sending.ip).syncState })
      simp only [charge, sendingCharge, hsaid, Event.isTraffic, Event.isAnnounce] at hset ⊢
      simp at hset ⊢
      omega
  | send k targets sending said hk hsaid htargets hrounds =>
      have hset := weight_set (w := sendingCharge fanout) hk
        (b := { sending with rounds := sending.rounds - 1 })
      have hround : sending.rounds * (1 + fanout * datagramCharge fanout sending.announcement) =
          (sending.rounds - 1) * (1 + fanout * datagramCharge fanout sending.announcement) +
            (1 + fanout * datagramCharge fanout sending.announcement) := by
        rw [← Nat.succ_mul, Nat.succ_eq_add_one, Nat.sub_add_cancel hrounds]
      have hcopies : weight (fun d : Datagram => datagramCharge fanout d.dto.asks)
          (targets.map fun target => ⟨sending.ip, target, sending.group, sending.port,
            getMulticastDto said sending.announcement⟩) =
          targets.length * datagramCharge fanout sending.announcement := by
        rw [weight_eq_mul (n := datagramCharge fanout sending.announcement), List.length_map]
        intro d hd
        obtain ⟨target, -, rfl⟩ := List.mem_map.mp hd
        rw [asks_getMulticastDto]
      have hbound : targets.length * datagramCharge fanout sending.announcement ≤
          fanout * datagramCharge fanout sending.announcement := Nat.mul_le_mul_right _ htargets
      have hbefore : sendingCharge fanout sending = sending.rounds *
          (1 + fanout * datagramCharge fanout sending.announcement) := by
        simp [sendingCharge, hsaid]
      have hafter : sendingCharge fanout { sending with rounds := sending.rounds - 1 } =
          (sending.rounds - 1) * (1 + fanout * datagramCharge fanout sending.announcement) := by
        simp [sendingCharge, hsaid]
      rw [hbefore, hafter, hround] at hset
      simp only [charge, weight_append, hcopies, Event.isTraffic, Event.isAnnounce, if_true,
        Bool.false_eq_true, if_false]
      omega
  | deliver k d hk =>
      have herase := weight_eraseIdx (w := fun d : Datagram =>
        datagramCharge fanout d.dto.asks) hk
      have hdeliver : charge fanout (deliver { s with datagrams := s.datagrams.eraseIdx k } d) + 1 ≤
          charge fanout { s with datagrams := s.datagrams.eraseIdx k } +
            datagramCharge fanout d.dto.asks := charge_deliver _ d
      simp only [charge, Event.isTraffic, Event.isAnnounce, if_true, Bool.false_eq_true, if_false]
        at hdeliver ⊢
      omega
  | lose k d hk =>
      have herase := weight_eraseIdx (w := fun d : Datagram =>
        datagramCharge fanout d.dto.asks) hk
      have hone := one_le_datagramCharge fanout d.dto.asks
      simp only [charge, Event.isTraffic, Event.isAnnounce, if_true, Bool.false_eq_true, if_false]
      omega
  | handleOwn k a dto hk hstage | handleFails k a dto hk hstage =>
      have hset := charge_handled fanout hk hstage false
      simp only [charge, Event.isTraffic, Event.isAnnounce, if_true, Bool.false_eq_true, if_false]
      omega
  | handle k a dto server hk hstage =>
      have hset := charge_handled fanout hk hstage true
      simp only [charge, State.register, State.setPeer, Event.isTraffic, Event.isAnnounce, if_true,
        Bool.false_eq_true, if_false]
      omega
  | respond k a hk hstage =>
      have herase := weight_eraseIdx (w := answerCharge fanout) hk
      simp only [answerCharge, hstage] at herase
      simp only [charge, Event.isTraffic, Event.isAnnounce, if_true, Bool.false_eq_true, if_false]
      omega
  | giveUp k a hk =>
      have herase := weight_eraseIdx (w := answerCharge fanout) hk
      have hanswer : 3 + 2 * fanout ≤ answerCharge fanout a := by
        unfold answerCharge
        split <;> omega
      simp only [charge, weight_append, weight_singleton, sendingCharge, State.sending,
        datagramCharge, Event.isTraffic, Event.isAnnounce, if_true, Bool.false_eq_true, if_false]
      omega
  | register ip k entry _ hk =>
      have hlength := List.length_eraseIdx_of_lt (List.getElem?_eq_some_iff.mp hk).1
      have hpos : k < s.found.length := (List.getElem?_eq_some_iff.mp hk).1
      simp only [charge, State.register, State.setPeer, Event.isTraffic, Event.isAnnounce, if_true,
        Bool.false_eq_true, if_false]
      omega
  | registerFails ip entry hentry hip =>
      have hless : (s.found.filter fun entry => entry.1 ≠ ip).length < s.found.length :=
        List.length_filter_lt_length_iff_exists.mpr ⟨entry, hentry, by simp [hip]⟩
      simp only [charge, State.setPeer, Event.isTraffic, Event.isAnnounce, if_true,
        Bool.false_eq_true, if_false]
      omega
  | sync | listen | unlisten | serve | clearFoundDevices => exact Nat.le_refl _

/-- **No storm of answers.** Whatever is delayed or lost, in whichever order messages are delivered,
    answered and given up, and however the hosts are configured meanwhile: all announcements
    together cause at most so many steps (messages sent, delivered or lost, requests, responses and
    registrations) for each of them, where a message has at most `fanout` copies. -/
theorem traffic_ends (fanout : Nat) (syncStates : String → SyncState) (es : List Event) (s : State)
    (h : (network fanout).Run Machine.anyStep (.initial syncStates) es s) :
    es.countP Event.isTraffic ≤
      es.countP Event.isAnnounce * (4 + 18 * fanout + 6 * (fanout * fanout)) := by
  have hpotential := Machine.Run.potential (charge fanout) (fun e => if e.isTraffic then 1 else 0)
    (fun e => if e.isAnnounce then 4 + 18 * fanout + 6 * (fanout * fanout) else 0)
    (fun t e u _ hs => charge_step hs) h
  have hstart : charge fanout (.initial syncStates) = 0 := rfl
  rw [weight_ite, weight_ite, hstart] at hpotential
  omega

/-- Two hosts: their addresses are their fingerprints. -/
def twoHosts (ip : String) : SyncState where
  securityContext := ⟨"", "", "", ip⟩
  deviceInfo := ⟨.mobile, none, none⟩
  aliasName := ip
  port := 53317
  networkWhitelist := none
  networkBlacklist := none
  protocol := .https
  multicastGroup := "224.0.0.167"
  discoveryTimeout := 500
  serverRunning := true
  download := false

/-- The second host hears the first announcement of the first one and answers it. -/
def answeredRun : List Event :=
  [.serve "10.0.0.2" (some ⟨53317, true, "10.0.0.2"⟩), .listen "10.0.0.3", .announce "10.0.0.2",
    .prepare 0, .send 0 ["10.0.0.3"], .deliver 0, .handle 0]

theorem traffic_ends_answeredRun :
    answeredRun.countP Event.isTraffic ≤ answeredRun.countP Event.isAnnounce * 28 := by
  obtain ⟨s, hs, -⟩ := Machine.run_observe (M := network 1)
    (f := fun s => s.answers.length)
    (show ((network 1).run (.initial twoHosts) answeredRun).map _ = some 1 from rfl)
  exact traffic_ends 1 twoHosts answeredRun s hs

end Traffic

end LocalSend.Multicast
