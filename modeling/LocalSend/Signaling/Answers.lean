/-
  File:      LocalSend/Signaling/Answers.lean
  Subject:   THE ANSWER TO AN OFFER, on the client's side of the signaling connection
             (`core/src/webrtc/signaling.rs` and `send_offer` of `core/src/webrtc/peer.rs`).

  A call of `send_offer` sends its offer and registers its callback in `on_answer` afterwards; the
  listener task takes the callback of a session out of that map when it handles an answer. Both are
  machines here, one step for each piece of code between two awaits, in any interleaving and with
  any number of calls.

  * `Client`, `Event`, `clientStep` -- the machine (`client`);
  * `answersFor` -- the answers delivered for a session, read off the events;
  * `Answering` -- the invariant: what is delivered for a session is pending or was told;
  * `prompt` -- the guard of a step: an answer is not handled before its call has registered, nor
    after the call was dropped, and the consumer of the messages stays;
  * **`answers_not_lost`** -- callbacks are only invoked for their own session and at most once; on
    prompt runs, once the listener has nothing left, each call that waits has been told the first
    answer. `answer_lost`: an answer that is handled between the offer and the registration is lost.
-/
import LocalSend.Lib.Machine
import LocalSend.Signaling.Server

namespace LocalSend.Signaling.Answers

open Lib

/-! ## 1. The client -/

/-- Where a call of `send_offer` stands. -/
inductive CallPhase where
  /-- the offer is about to be sent -/
  | offering
  /-- the offer is sent, the callback is not registered -/
  | offered
  /-- the callback is registered, the call waits for the answer -/
  | waiting
  /-- the callback was invoked and the answer lies in the oneshot channel -/
  | answered (sdp : WsServerSdpMessage)
  /-- the offer could not be sent -/
  | failed
  /-- the future was dropped; the callback may be registered -/
  | dropped
  deriving DecidableEq, Repr

structure Call where
  sessionId : String
  target : Uuid
  sdp : String
  phase : CallPhase
  deriving DecidableEq, Repr

/-- Where the task of `start_listener` stands. -/
inductive Listener where
  /-- at `rx.recv()` -/
  | idle
  /-- an answer is received, the lock of `on_answer` is next -/
  | handling (sdp : WsServerSdpMessage)
  /-- at the send to the consumer -/
  | forwarding (message : WsServerMessage)
  /-- the connection is closed and everything is received -/
  | returned
  /-- an `unwrap` failed -/
  | panicked
  deriving DecidableEq, Repr

/-- The capacity of the channel to the consumer. -/
def messagesCapacity : Nat := 16

structure Client where
  /-- the connection to the server stands -/
  connected : Bool
  /-- the messages to the server -/
  outbox : List WsClientMessage
  /-- the messages from the server that the listener has not received -/
  inbox : List WsServerMessage
  listener : Listener
  /-- the callback of each session, named by its call -/
  onAnswer : String → Option Nat
  calls : Nat → Option Call
  /-- the channel to the consumer, and whether its receiving half is there -/
  messages : List WsServerMessage
  consumer : Bool
  /-- every invocation of a callback, oldest first -/
  invoked : List (Nat × WsServerSdpMessage)
  /-- the session ids in use: of a call, or of an answer that was delivered -/
  sessionIds : List String

def Client.start : Client where
  connected := true
  outbox := []
  inbox := []
  listener := .idle
  onAnswer _ := none
  calls _ := none
  messages := []
  consumer := true
  invoked := []
  sessionIds := []

def Client.setCall (s : Client) (c : Nat) (call : Call) : Client :=
  { s with calls := Function.update s.calls c (some call) }

inductive Event where
  /-- a call begins, with a session id of its own -/
  | call (c : Nat) (sessionId : String) (target : Uuid) (sdp : String)
  | sendOffer (c : Nat)
  | register (c : Nat)
  | drop (c : Nat)
  | deliver (message : WsServerMessage)
  | close
  | receive
  | handle
  | forward
  | take
  | dropConsumer
  deriving DecidableEq, Repr

/-- The session id of an answer. -/
def answerId : WsServerMessage → Option String
  | .answer sdp => some sdp.sessionId
  | _ => none

/-- The callback: the answer goes into the oneshot channel of its call. Without a receiver the
    `unwrap` fails, and the listener with it. -/
def invoke (s : Client) (c : Nat) (sdp : WsServerSdpMessage) : Client :=
  let s1 := { s with invoked := s.invoked ++ [(c, sdp)] }
  match s.calls c with
  | some call =>
    if call.phase = .waiting then
      { s1.setCall c { call with phase := .answered sdp } with
        listener := .forwarding (.answer sdp) }
    else { s1 with listener := .panicked }
  | none => { s1 with listener := .panicked }

/-- The listener with the lock of `on_answer`. -/
def handleAnswer (s : Client) (sdp : WsServerSdpMessage) : Client :=
  match s.onAnswer sdp.sessionId with
  | some c => invoke { s with onAnswer := Function.update s.onAnswer sdp.sessionId none } c sdp
  | none => { s with listener := .forwarding (.answer sdp) }

def clientStep (s : Client) : Event → Option Client
  | .call c sessionId target sdp =>
    if s.calls c = none ∧ sessionId ∉ s.sessionIds then
      some { s.setCall c ⟨sessionId, target, sdp, .offering⟩ with
        sessionIds := sessionId :: s.sessionIds }
    else none
  | .sendOffer c =>
    match s.calls c with
    | some call =>
      if call.phase = .offering then
        if s.connected then
          some { s.setCall c { call with phase := .offered } with
            outbox := s.outbox ++ [.offer ⟨call.sessionId, call.target, call.sdp⟩] }
        else some (s.setCall c { call with phase := .failed })
      else none
    | none => none
  | .register c =>
    match s.calls c with
    | some call =>
      if call.phase = .offered then
        some { s.setCall c { call with phase := .waiting } with
          onAnswer := Function.update s.onAnswer call.sessionId (some c) }
      else none
    | none => none
  | .drop c => (s.calls c).map fun call => s.setCall c { call with phase := .dropped }
  | .deliver message =>
    if s.connected then
      some { s with
        inbox := s.inbox ++ [message]
        sessionIds := (answerId message).toList ++ s.sessionIds }
    else none
  | .close => some { s with connected := false }
  | .receive =>
    match s.listener, s.inbox with
    | .idle, .answer sdp :: inbox => some { s with listener := .handling sdp, inbox := inbox }
    | .idle, message :: inbox => some { s with listener := .forwarding message, inbox := inbox }
    | .idle, [] => if s.connected then none else some { s with listener := .returned }
    | _, _ => none
  | .handle =>
    match s.listener with
    | .handling sdp => some (handleAnswer s sdp)
    | _ => none
  | .forward =>
    match s.listener with
    | .forwarding message =>
      if s.consumer then
        if s.messages.length < messagesCapacity then
          some { s with listener := .idle, messages := s.messages ++ [message] }
        else none
      else some { s with listener := .panicked }
    | _ => none
  | .take =>
    match s.messages with
    | _ :: messages => if s.consumer then some { s with messages := messages } else none
    | [] => none
  | .dropConsumer => some { s with consumer := false }

/-- **The client's side of the signaling connection.** -/
def client : Machine Client Event := ⟨clientStep⟩

/-! ## 2. The steps -/

variable {s t : Client} {e : Event} {es : List Event} {c : Nat}

/-- **Every transition of the client**, with its guard and its successor. -/
inductive Step (s : Client) : Event → Client → Prop where
  | call (c : Nat) (sessionId : String) (target : Uuid) (sdp : String) (hc : s.calls c = none)
      (hid : sessionId ∉ s.sessionIds) :
      Step s (.call c sessionId target sdp)
        { s.setCall c ⟨sessionId, target, sdp, .offering⟩ with
          sessionIds := sessionId :: s.sessionIds }
  | offer (c : Nat) (call : Call) (hc : s.calls c = some call) (hph : call.phase = .offering) :
      Step s (.sendOffer c)
        { s.setCall c { call with phase := .offered } with
          outbox := s.outbox ++ [.offer ⟨call.sessionId, call.target, call.sdp⟩] }
  | offerFails (c : Nat) (call : Call) (hc : s.calls c = some call)
      (hph : call.phase = .offering) :
      Step s (.sendOffer c) (s.setCall c { call with phase := .failed })
  | register (c : Nat) (call : Call) (hc : s.calls c = some call) (hph : call.phase = .offered) :
      Step s (.register c)
        { s.setCall c { call with phase := .waiting } with
          onAnswer := Function.update s.onAnswer call.sessionId (some c) }
  | drop (c : Nat) (call : Call) (hc : s.calls c = some call) :
      Step s (.drop c) (s.setCall c { call with phase := .dropped })
  | deliver (message : WsServerMessage) (hconnected : s.connected = true) :
      Step s (.deliver message) { s with
        inbox := s.inbox ++ [message]
        sessionIds := (answerId message).toList ++ s.sessionIds }
  | close : Step s .close { s with connected := false }
  | receiveAnswer (sdp : WsServerSdpMessage) (inbox : List WsServerMessage)
      (hl : s.listener = .idle) (hin : s.inbox = .answer sdp :: inbox) :
      Step s .receive { s with listener := .handling sdp, inbox := inbox }
  | receiveOther (message : WsServerMessage) (inbox : List WsServerMessage)
      (hl : s.listener = .idle) (hin : s.inbox = message :: inbox)
      (hm : answerId message = none) :
      Step s .receive { s with listener := .forwarding message, inbox := inbox }
  | returns (hl : s.listener = .idle) (hin : s.inbox = []) (hclosed : s.connected = false) :
      Step s .receive { s with listener := .returned }
  | tell (sdp : WsServerSdpMessage) (c : Nat) (call : Call) (hl : s.listener = .handling sdp)
      (hon : s.onAnswer sdp.sessionId = some c) (hc : s.calls c = some call)
      (hph : call.phase = .waiting) :
      Step s .handle
        { s.setCall c { call with phase := .answered sdp } with
          onAnswer := Function.update s.onAnswer sdp.sessionId none
          invoked := s.invoked ++ [(c, sdp)]
          listener := .forwarding (.answer sdp) }
  | tellFails (sdp : WsServerSdpMessage) (c : Nat) (hl : s.listener = .handling sdp)
      (hon : s.onAnswer sdp.sessionId = some c)
      (hc : ∀ call, s.calls c = some call → call.phase ≠ .waiting) :
      Step s .handle { s with
        onAnswer := Function.update s.onAnswer sdp.sessionId none
        invoked := s.invoked ++ [(c, sdp)]
        listener := .panicked }
  | unheard (sdp : WsServerSdpMessage) (hl : s.listener = .handling sdp)
      (hon : s.onAnswer sdp.sessionId = none) :
      Step s .handle { s with listener := .forwarding (.answer sdp) }
  | forward (message : WsServerMessage) (hl : s.listener = .forwarding message)
      (hconsumer : s.consumer = true) :
      Step s .forward { s with listener := .idle, messages := s.messages ++ [message] }
  | forwardFails (message : WsServerMessage) (hl : s.listener = .forwarding message)
      (hconsumer : s.consumer = false) :
      Step s .forward { s with listener := .panicked }
  | take (messages : List WsServerMessage) : Step s .take { s with messages := messages }
  | dropConsumer : Step s .dropConsumer { s with consumer := false }

/-- **Inversion**: the machine does nothing else. -/
theorem step_inv (h : client.step s e = some t) : Step s e t := by
  change clientStep s e = some t at h
  unfold clientStep at h
  cases e with
  | call c sessionId target sdp =>
      dsimp only at h
      split at h
      · rename_i hnew
        cases h
        exact .call c sessionId target sdp hnew.1 hnew.2
      · cases h
  | sendOffer c =>
      dsimp only at h
      split at h
      · rename_i call hc
        split at h
        · rename_i hph
          split at h
          · cases h
            exact .offer c call hc hph
          · cases h
            exact .offerFails c call hc hph
        · cases h
      · cases h
  | register c =>
      dsimp only at h
      split at h
      · rename_i call hc
        split at h
        · rename_i hph
          cases h
          exact .register c call hc hph
        · cases h
      · cases h
  | drop c =>
      obtain ⟨call, hc, rfl⟩ := Option.map_eq_some_iff.mp h
      exact .drop c call hc
  | deliver message =>
      dsimp only at h
      split at h
      · rename_i hconnected
        cases h
        exact .deliver message hconnected
      · cases h
  | close =>
      cases h
      exact .close
  | receive =>
      dsimp only at h
      split at h
      · rename_i sdp inbox hl hin
        cases h
        exact .receiveAnswer sdp inbox hl hin
      · rename_i message inbox hne hl hin
        cases h
        refine .receiveOther message inbox hl hin ?_
        cases message <;> first | rfl | exact absurd rfl (hne _)
      · rename_i hl hin
        split at h
        · cases h
        · rename_i hclosed
          cases h
          exact .returns hl hin (by simpa using hclosed)
      · cases h
  | handle =>
      dsimp only at h
      split at h
      · rename_i sdp hl
        cases h
        unfold handleAnswer
        cases hon : s.onAnswer sdp.sessionId with
        | none => exact .unheard sdp hl hon
        | some c =>
            dsimp only
            unfold invoke
            dsimp only
            cases hc : s.calls c with
            | none => exact .tellFails sdp c hl hon (by simp [hc])
            | some call =>
                dsimp only
                split
                · rename_i hph
                  exact .tell sdp c call hl hon hc hph
                · rename_i hph
                  refine .tellFails sdp c hl hon fun call' hcall' => ?_
                  rw [hc] at hcall'
                  cases hcall'
                  exact hph
      · cases h
  | forward =>
      dsimp only at h
      split at h
      · rename_i message hl
        split at h
        · rename_i hconsumer
          split at h
          · cases h
            exact .forward message hl hconsumer
          · cases h
        · rename_i hconsumer
          cases h
          exact .forwardFails message hl (by simpa using hconsumer)
      · cases h
  | take =>
      dsimp only at h
      split at h
      · rename_i messages hm
        split at h
        · cases h
          exact .take messages
        · cases h
      · cases h
  | dropConsumer =>
      cases h
      exact .dropConsumer

/-! ## 3. What is delivered, pending and told -/

def answerOf : WsServerMessage → Option WsServerSdpMessage
  | .answer sdp => some sdp
  | _ => none

def Event.delivers : Event → Option WsServerSdpMessage
  | .deliver message => answerOf message
  | _ => none

/-- **The answers the server has delivered for a session**, in their order. -/
def answersFor (sessionId : String) (es : List Event) : List WsServerSdpMessage :=
  (es.filterMap Event.delivers).filter fun sdp => sdp.sessionId = sessionId

def Listener.handled : Listener → List WsServerSdpMessage
  | .handling sdp => [sdp]
  | _ => []

/-- The answers of a session that the listener has not handled. -/
def Client.pendingFor (s : Client) (sessionId : String) : List WsServerSdpMessage :=
  (s.listener.handled ++ s.inbox.filterMap answerOf).filter fun sdp => sdp.sessionId = sessionId

/-- What the callback of a call was invoked with. -/
def Client.invokedBy (s : Client) (c : Nat) : List WsServerSdpMessage :=
  (s.invoked.filter fun told => told.1 = c).map Prod.snd

theorem answersFor_snoc (sessionId : String) (es : List Event) (e : Event) :
    answersFor sessionId (es ++ [e]) =
      answersFor sessionId es ++ e.delivers.toList.filter fun sdp => sdp.sessionId = sessionId := by
  rw [answersFor, answersFor, List.filterMap_append, List.filter_append]
  cases h : e.delivers <;> simp [h]

theorem answersFor_silent (sessionId : String) (es : List Event) {e : Event}
    (h : e.delivers = none) : answersFor sessionId (es ++ [e]) = answersFor sessionId es := by
  rw [answersFor_snoc, h]
  exact List.append_nil _

theorem invokedBy_snoc {c' : Nat} {sdp : WsServerSdpMessage}
    (h : t.invoked = s.invoked ++ [(c', sdp)]) (c : Nat) :
    t.invokedBy c = if c' = c then s.invokedBy c ++ [sdp] else s.invokedBy c := by
  unfold Client.invokedBy
  rw [h, List.filter_append, List.map_append]
  split <;> rename_i hc <;> simp [hc]

theorem pendingFor_handling {sdp : WsServerSdpMessage} (hl : s.listener = .handling sdp)
    (ht : t.listener.handled = []) (hin : t.inbox = s.inbox) (sessionId : String) :
    s.pendingFor sessionId =
      if sdp.sessionId = sessionId then sdp :: t.pendingFor sessionId
      else t.pendingFor sessionId := by
  unfold Client.pendingFor
  rw [hl, ht, hin]
  simp [Listener.handled, List.filter_cons]

theorem pendingFor_receive {message : WsServerMessage} {inbox : List WsServerMessage}
    (hl : s.listener = .idle) (hin : s.inbox = message :: inbox)
    (ht : t.listener.handled = (answerOf message).toList) (hin' : t.inbox = inbox)
    (sessionId : String) : t.pendingFor sessionId = s.pendingFor sessionId := by
  unfold Client.pendingFor
  rw [hl, hin, ht, hin', List.filterMap_cons]
  cases answerOf message <;> simp [Listener.handled]

/-! ## 4. The invariant -/

/-- **What holds on every run.** -/
structure Answering (es : List Event) (s : Client) : Prop where
  ids : ∀ c call, s.calls c = some call → call.sessionId ∈ s.sessionIds
  heard : ∀ sessionId, answersFor sessionId es ≠ [] → sessionId ∈ s.sessionIds
  pending : ∀ sessionId, ∀ sdp ∈ s.pendingFor sessionId, sdp ∈ answersFor sessionId es
  unique : ∀ c c' call call', s.calls c = some call → s.calls c' = some call' →
    call.sessionId = call'.sessionId → c = c'
  registered : ∀ sessionId c, s.onAnswer sessionId = some c → ∃ call, s.calls c = some call ∧
    call.sessionId = sessionId ∧ (call.phase = .waiting ∨ call.phase = .dropped) ∧
    s.invokedBy c = []
  told : ∀ c, s.invokedBy c = [] ∨ ∃ call sdp, s.calls c = some call ∧
    s.invokedBy c = [sdp] ∧ sdp ∈ answersFor call.sessionId es
  asked : ∀ c call, s.calls c = some call → call.phase = .offering ∨ call.phase = .offered →
    s.invokedBy c = []

theorem answering_start : Answering [] Client.start where
  ids _ _ h := by cases h
  heard _ h := absurd rfl h
  pending _ _ h := absurd h List.not_mem_nil
  unique _ _ _ _ h := by cases h
  registered _ _ h := by cases h
  told _ := .inl rfl
  asked _ _ h := by cases h

/-- A step that leaves calls, callbacks and answers alone. -/
theorem answering_frame (hA : Answering es s) (he : e.delivers = none) (hcalls : t.calls = s.calls)
    (hon : t.onAnswer = s.onAnswer) (hinvoked : t.invoked = s.invoked)
    (hids : t.sessionIds = s.sessionIds)
    (hpending : ∀ sessionId, ∀ sdp ∈ t.pendingFor sessionId, sdp ∈ s.pendingFor sessionId) :
    Answering (es ++ [e]) t := by
  have hsame : ∀ c, t.invokedBy c = s.invokedBy c := by
    intro c
    rw [Client.invokedBy, hinvoked]
    rfl
  refine ⟨?_, ?_, ?_, ?_, ?_, ?_, ?_⟩
  · rw [hcalls, hids]
    exact hA.ids
  · intro sessionId
    rw [answersFor_silent sessionId es he, hids]
    exact hA.heard sessionId
  · intro sessionId sdp hsdp
    rw [answersFor_silent sessionId es he]
    exact hA.pending sessionId sdp (hpending sessionId sdp hsdp)
  · rw [hcalls]
    exact hA.unique
  · intro sessionId c
    rw [hcalls, hon, hsame c]
    exact hA.registered sessionId c
  · intro c
    rw [hcalls, hsame c]
    simp only [answersFor_silent _ es he]
    exact hA.told c
  · intro c call
    rw [hcalls, hsame c]
    exact hA.asked c call

/-- A step of one call. -/
theorem answering_call (hA : Answering es s) (he : e.delivers = none) {call : Call}
    {phase : CallPhase} (hc : s.calls c = some call)
    (hcalls : t.calls = Function.update s.calls c (some { call with phase := phase }))
    (hinvoked : t.invoked = s.invoked) (hids : t.sessionIds = s.sessionIds)
    (hpending : ∀ sessionId, t.pendingFor sessionId = s.pendingFor sessionId)
    (hon : ∀ sessionId c', t.onAnswer sessionId = some c' →
      s.onAnswer sessionId = some c' ∧ c' ≠ c ∨
      c' = c ∧ sessionId = call.sessionId ∧ (phase = .waiting ∨ phase = .dropped) ∧
        s.invokedBy c = [])
    (hasked : phase = .offering ∨ phase = .offered → s.invokedBy c = []) :
    Answering (es ++ [e]) t := by
  have hsame : ∀ d, t.invokedBy d = s.invokedBy d := by
    intro d
    rw [Client.invokedBy, hinvoked]
    rfl
  -- every call keeps its session id
  have hback : ∀ d call', t.calls d = some call' → ∃ call'', s.calls d = some call'' ∧
      call''.sessionId = call'.sessionId ∧ (d = c ∧ call'.phase = phase ∨ d ≠ c ∧ call'' = call') := by
    intro d call' hd
    rw [hcalls] at hd
    by_cases hdc : d = c
    · rw [hdc, Function.update_self] at hd
      cases hd
      exact ⟨call, hdc ▸ hc, rfl, .inl ⟨hdc, rfl⟩⟩
    · rw [Function.update_of_ne hdc] at hd
      exact ⟨call', hd, rfl, .inr ⟨hdc, rfl⟩⟩
  have hforth : ∀ d call', s.calls d = some call' → ∃ call'', t.calls d = some call'' ∧
      call''.sessionId = call'.sessionId ∧ (d ≠ c → call'' = call') := by
    intro d call' hd
    by_cases hdc : d = c
    · rw [hdc, hc] at hd
      cases hd
      exact ⟨{ call with phase := phase }, by rw [hcalls, hdc, Function.update_self], rfl,
        fun hne => absurd hdc hne⟩
    · exact ⟨call', by rw [hcalls, Function.update_of_ne hdc, hd], rfl, fun _ => rfl⟩
  refine ⟨fun d call' hd => ?_, fun sessionId => ?_, fun sessionId sdp hsdp => ?_,
    fun d d' call' call'' hd hd' hid => ?_, fun sessionId d hd => ?_, fun d => ?_,
    fun d call' hd hph => ?_⟩
  · obtain ⟨call'', hcall'', hid, _⟩ := hback d call' hd
    rw [hids, ← hid]
    exact hA.ids d call'' hcall''
  · rw [answersFor_silent sessionId es he, hids]
    exact hA.heard sessionId
  · rw [answersFor_silent sessionId es he]
    exact hA.pending sessionId sdp (hpending sessionId ▸ hsdp)
  · obtain ⟨a, ha, haid, _⟩ := hback d call' hd
    obtain ⟨b, hb, hbid, _⟩ := hback d' call'' hd'
    exact hA.unique d d' a b ha hb (haid.trans (hid.trans hbid.symm))
  · rw [hsame d]
    rcases hon sessionId d hd with ⟨hold, hdc⟩ | ⟨rfl, hid, hph, hnone⟩
    · obtain ⟨call', hcall', hid, hph, hnone⟩ := hA.registered sessionId d hold
      exact ⟨call', by rw [hcalls, Function.update_of_ne hdc, hcall'], hid, hph, hnone⟩
    · exact ⟨{ call with phase := phase }, by rw [hcalls, Function.update_self], hid.symm, hph,
        hnone⟩
  · rw [hsame d]
    simp only [answersFor_silent _ es he]
    rcases hA.told d with hnone | ⟨call', sdp, hcall', htold, hmem⟩
    · exact .inl hnone
    · obtain ⟨call'', hcall'', hid, _⟩ := hforth d call' hcall'
      exact .inr ⟨call'', sdp, hcall'', htold, hid ▸ hmem⟩
  · rw [hsame d]
    obtain ⟨call'', hcall'', _, ⟨rfl, hphase⟩ | ⟨_, rfl⟩⟩ := hback d call' hd
    · exact hasked (hphase ▸ hph)
    · exact hA.asked d call'' hcall'' hph

/-- An answer is handled, and the callback of its session invoked. -/
theorem answering_handle (hA : Answering es s) (he : e.delivers = none) {call : Call}
    {phase : CallPhase} {sdp : WsServerSdpMessage} (hl : s.listener = .handling sdp)
    (hl' : t.listener.handled = []) (hin : t.inbox = s.inbox) (hids : t.sessionIds = s.sessionIds)
    (hon : s.onAnswer sdp.sessionId = some c) (hc : s.calls c = some call)
    (hon' : t.onAnswer = Function.update s.onAnswer sdp.sessionId none)
    (hinvoked : t.invoked = s.invoked ++ [(c, sdp)])
    (hcalls : t.calls = Function.update s.calls c (some { call with phase := phase }))
    (hphase : phase ≠ .offering ∧ phase ≠ .offered) : Answering (es ++ [e]) t := by
  obtain ⟨call', hcall', hid, _, hnone⟩ := hA.registered _ _ hon
  rw [hc] at hcall'
  cases hcall'
  have hpending := pendingFor_handling hl hl' hin
  have hself : t.calls c = some { call with phase := phase } := by
    rw [hcalls, Function.update_self]
  have hother : ∀ d, d ≠ c → t.calls d = s.calls d ∧ t.invokedBy d = s.invokedBy d := by
    intro d hd
    exact ⟨by rw [hcalls, Function.update_of_ne hd],
      by rw [invokedBy_snoc hinvoked, if_neg (Ne.symm hd)]⟩
  have htold : t.invokedBy c = [sdp] := by
    rw [invokedBy_snoc hinvoked, if_pos rfl, hnone]
    rfl
  have hback : ∀ d call', t.calls d = some call' → ∃ call'', s.calls d = some call'' ∧
      call''.sessionId = call'.sessionId := by
    intro d call' hd
    by_cases hdc : d = c
    · rw [hdc, hself] at hd
      cases hd
      exact ⟨call, hdc ▸ hc, rfl⟩
    · exact ⟨call', (hother d hdc).1 ▸ hd, rfl⟩
  refine ⟨fun d call' hd => ?_, fun sessionId => ?_, fun sessionId sdp' hsdp => ?_,
    fun d d' a b hd hd' hab => ?_, fun sessionId d hd => ?_, fun d => ?_, fun d call' hd hph => ?_⟩
  · obtain ⟨call'', hcall'', hid'⟩ := hback d call' hd
    rw [hids, ← hid']
    exact hA.ids d call'' hcall''
  · rw [answersFor_silent sessionId es he, hids]
    exact hA.heard sessionId
  · rw [answersFor_silent sessionId es he]
    apply hA.pending sessionId sdp'
    rw [hpending sessionId]
    split
    · exact List.mem_cons_of_mem _ hsdp
    · exact hsdp
  · obtain ⟨a', ha', haid⟩ := hback d a hd
    obtain ⟨b', hb', hbid⟩ := hback d' b hd'
    exact hA.unique d d' a' b' ha' hb' (haid.trans (hab.trans hbid.symm))
  · rw [hon'] at hd
    by_cases hsame : sessionId = sdp.sessionId
    · rw [hsame, Function.update_self] at hd
      cases hd
    · rw [Function.update_of_ne hsame] at hd
      obtain ⟨call', hcall', hid', hph, hnone'⟩ := hA.registered sessionId d hd
      have hdc : d ≠ c := by
        intro hdc
        rw [hdc, hc] at hcall'
        cases hcall'
        exact hsame (hid'.symm.trans hid)
      rw [(hother d hdc).1, (hother d hdc).2]
      exact ⟨call', hcall', hid', hph, hnone'⟩
  · simp only [answersFor_silent _ es he]
    by_cases hdc : d = c
    · refine .inr ⟨_, sdp, hdc ▸ hself, hdc ▸ htold, hA.pending _ _ ?_⟩
      rw [hpending, if_pos hid.symm]
      exact List.mem_cons_self
    · rw [(hother d hdc).1, (hother d hdc).2]
      exact hA.told d
  · by_cases hdc : d = c
    · rw [hdc, hself] at hd
      cases hd
      rcases hph with hph | hph
      · exact absurd hph hphase.1
      · exact absurd hph hphase.2
    · rw [(hother d hdc).2]
      exact hA.asked d call' ((hother d hdc).1 ▸ hd) hph

/-- A call before its registration has no callback. -/
theorem Answering.unregistered (hA : Answering es s) {call : Call} (hc : s.calls c = some call)
    (hph : call.phase = .offering ∨ call.phase = .offered) {sessionId : String} {c' : Nat}
    (hon : s.onAnswer sessionId = some c') : c' ≠ c := by
  intro hcc
  obtain ⟨call', hcall', _, hphase, _⟩ := hA.registered sessionId c' hon
  rw [hcc, hc] at hcall'
  cases hcall'
  rcases hph with hph | hph <;> rw [hph] at hphase <;> rcases hphase with h | h <;> cases h

/-- A new call. -/
theorem answering_new (hA : Answering es s) {sessionId : String} {target : Uuid} {sdp : String}
    (hc : s.calls c = none) (hid : sessionId ∉ s.sessionIds) :
    Answering (es ++ [.call c sessionId target sdp])
      { s.setCall c ⟨sessionId, target, sdp, .offering⟩ with
        sessionIds := sessionId :: s.sessionIds } := by
  have hnone : s.invokedBy c = [] := by
    rcases hA.told c with hnone | ⟨call, sdp', hcall, _⟩
    · exact hnone
    · rw [hc] at hcall
      cases hcall
  have hback : ∀ d call', Function.update s.calls c
      (some ⟨sessionId, target, sdp, .offering⟩) d = some call' →
      d = c ∧ call' = ⟨sessionId, target, sdp, .offering⟩ ∨ d ≠ c ∧ s.calls d = some call' := by
    intro d call' hd
    by_cases hdc : d = c
    · rw [hdc, Function.update_self] at hd
      cases hd
      exact .inl ⟨hdc, rfl⟩
    · rw [Function.update_of_ne hdc] at hd
      exact .inr ⟨hdc, hd⟩
  refine ⟨fun d call' hd => ?_, fun sessionId' => ?_, fun sessionId' sdp' hsdp => ?_,
    fun d d' a b hd hd' hab => ?_, fun sessionId' d hd => ?_, fun d => ?_, fun d call' hd hph => ?_⟩
  · rcases hback d call' hd with ⟨_, rfl⟩ | ⟨_, hd⟩
    · exact List.mem_cons_self
    · exact List.mem_cons_of_mem _ (hA.ids d call' hd)
  · rw [answersFor_silent sessionId' es rfl]
    exact fun hne => List.mem_cons_of_mem _ (hA.heard sessionId' hne)
  · rw [answersFor_silent sessionId' es rfl]
    exact hA.pending sessionId' sdp' hsdp
  · -- the new session id is nobody else's
    rcases hback d a hd with ⟨hdc, rfl⟩ | ⟨_, hd⟩ <;> rcases hback d' b hd' with ⟨hdc', rfl⟩ | ⟨_, hd'⟩
    · exact hdc.trans hdc'.symm
    · have hnew : sessionId = b.sessionId := hab
      exact absurd (hnew ▸ hA.ids d' b hd') hid
    · have hnew : a.sessionId = sessionId := hab
      exact absurd (hnew ▸ hA.ids d a hd) hid
    · exact hA.unique d d' a b hd hd' hab
  · obtain ⟨call', hcall', hid', hph, hnone'⟩ := hA.registered sessionId' d hd
    have hdc : d ≠ c := by
      intro hdc
      rw [hdc, hc] at hcall'
      cases hcall'
    exact ⟨call', (Function.update_of_ne hdc _ _).trans hcall', hid', hph, hnone'⟩
  · rcases hA.told d with hnone' | ⟨call', sdp', hcall', htold, hmem⟩
    · exact .inl hnone'
    · have hdc : d ≠ c := by
        intro hdc
        rw [hdc, hc] at hcall'
        cases hcall'
      rw [← answersFor_silent _ es (e := .call c sessionId target sdp) rfl] at hmem
      exact .inr ⟨call', sdp', (Function.update_of_ne hdc _ _).trans hcall', htold, hmem⟩
  · rcases hback d call' hd with ⟨hdc, _⟩ | ⟨_, hd⟩
    · exact hdc ▸ hnone
    · exact hA.asked d call' hd hph

/-- A delivery. -/
theorem pendingFor_deliver (s : Client) (message : WsServerMessage) (ids : List String)
    (sessionId : String) :
    Client.pendingFor { s with inbox := s.inbox ++ [message], sessionIds := ids } sessionId =
      s.pendingFor sessionId ++
        (answerOf message).toList.filter fun sdp => sdp.sessionId = sessionId := by
  unfold Client.pendingFor
  rw [List.filterMap_append, ← List.append_assoc, List.filter_append]
  cases h : answerOf message <;> simp [h]

theorem answering_deliver (hA : Answering es s) (message : WsServerMessage) :
    Answering (es ++ [.deliver message]) { s with
      inbox := s.inbox ++ [message]
      sessionIds := (answerId message).toList ++ s.sessionIds } := by
  have hmore : ∀ sessionId, ∀ sdp ∈ answersFor sessionId es,
      sdp ∈ answersFor sessionId (es ++ [.deliver message]) := by
    intro sessionId sdp hsdp
    rw [answersFor_snoc]
    exact List.mem_append_left _ hsdp
  refine ⟨fun d call hd => List.mem_append_right _ (hA.ids d call hd), fun sessionId hne => ?_,
    fun sessionId sdp hsdp => ?_, hA.unique, hA.registered, fun d => ?_, hA.asked⟩
  · by_cases hold : answersFor sessionId es = []
    · rw [answersFor_snoc, hold, List.nil_append] at hne
      obtain ⟨sdp, hsdp⟩ := List.exists_mem_of_ne_nil _ hne
      obtain ⟨hmem, hid⟩ := List.mem_filter.mp hsdp
      refine List.mem_append_left _ ?_
      cases message with
      | answer sdp' =>
          obtain rfl : sdp = sdp' := by simpa [Event.delivers, answerOf] using hmem
          simpa [answerId, eq_comm] using hid
      | _ => exact absurd hmem List.not_mem_nil
    · exact List.mem_append_right _ (hA.heard sessionId hold)
  · rw [pendingFor_deliver] at hsdp
    rw [answersFor_snoc]
    rcases List.mem_append.mp hsdp with hsdp | hsdp
    · exact List.mem_append_left _ (hA.pending sessionId sdp hsdp)
    · exact List.mem_append_right _ hsdp
  · rcases hA.told d with hnone | ⟨call, sdp, hcall, htold, hmem⟩
    · exact .inl hnone
    · exact .inr ⟨call, sdp, hcall, htold, hmore _ _ hmem⟩

/-- **Every step keeps it.** -/
theorem answering_step (hA : Answering es s) (hs : Step s e t) : Answering (es ++ [e]) t := by
  cases hs with
  | call c sessionId target sdp hc hid => exact answering_new hA hc hid
  | offer c call hc hph =>
      exact answering_call hA rfl hc rfl rfl rfl (fun _ => rfl)
        (fun sessionId c' hon => .inl ⟨hon, hA.unregistered hc (.inl hph) hon⟩)
        (fun _ => hA.asked c call hc (.inl hph))
  | offerFails c call hc hph =>
      exact answering_call hA rfl hc rfl rfl rfl (fun _ => rfl)
        (fun sessionId c' hon => .inl ⟨hon, hA.unregistered hc (.inl hph) hon⟩)
        (fun _ => hA.asked c call hc (.inl hph))
  | register c call hc hph =>
      have hnone := hA.asked c call hc (.inr hph)
      refine answering_call hA rfl hc rfl rfl rfl (fun _ => rfl) (fun sessionId c' hon => ?_)
        (fun _ => hnone)
      change Function.update s.onAnswer call.sessionId (some c) sessionId = some c' at hon
      by_cases hid : sessionId = call.sessionId
      · rw [hid, Function.update_self] at hon
        cases hon
        exact .inr ⟨rfl, hid, .inl rfl, hnone⟩
      · rw [Function.update_of_ne hid] at hon
        exact .inl ⟨hon, hA.unregistered hc (.inr hph) hon⟩
  | drop c call hc =>
      refine answering_call hA rfl hc rfl rfl rfl (fun _ => rfl) (fun sessionId c' hon => ?_)
        (fun hph => by rcases hph with h | h <;> cases h)
      by_cases hcc : c' = c
      · obtain ⟨call', hcall', hid, _, hnone⟩ := hA.registered sessionId c' hon
        rw [hcc, hc] at hcall'
        cases hcall'
        exact .inr ⟨hcc, hid.symm, .inr rfl, hcc ▸ hnone⟩
      · exact .inl ⟨hon, hcc⟩
  | deliver message hconnected => exact answering_deliver hA message
  | close => exact answering_frame hA rfl rfl rfl rfl rfl fun _ _ h => h
  | receiveAnswer sdp inbox hl hin =>
      refine answering_frame hA rfl rfl rfl rfl rfl fun sessionId sdp' hsdp => ?_
      rwa [pendingFor_receive hl hin rfl rfl] at hsdp
  | receiveOther message inbox hl hin hm =>
      refine answering_frame hA rfl rfl rfl rfl rfl fun sessionId sdp' hsdp => ?_
      have hhandled : (Listener.forwarding message).handled = (answerOf message).toList := by
        cases message <;> first | rfl | cases hm
      have hsame := pendingFor_receive (t := { s with
        listener := .forwarding message, inbox := inbox }) hl hin hhandled rfl sessionId
      rwa [hsame] at hsdp
  | returns hl hin hclosed =>
      refine answering_frame hA rfl rfl rfl rfl rfl fun sessionId sdp' hsdp => ?_
      simp [Client.pendingFor, hin, Listener.handled] at hsdp
  | tell sdp c call hl hon hc hph =>
      exact answering_handle hA rfl hl rfl rfl rfl hon hc rfl rfl rfl
        ⟨by simp, by simp⟩
  | tellFails sdp c hl hon hc =>
      obtain ⟨call, hcall, _, hphase, _⟩ := hA.registered _ _ hon
      have hdropped : call.phase = .dropped := hphase.resolve_left (hc call hcall)
      have hsame : s.calls = Function.update s.calls c (some { call with phase := .dropped }) := by
        rw [← hdropped, ← hcall, Function.update_eq_self]
      exact answering_handle hA rfl hl rfl rfl rfl hon hcall rfl rfl hsame
        ⟨by simp, by simp⟩
  | unheard sdp hl hon =>
      refine answering_frame hA rfl rfl rfl rfl rfl fun sessionId sdp' hsdp => ?_
      rw [pendingFor_handling (t := { s with listener := .forwarding (.answer sdp) }) hl rfl rfl]
      split
      · exact List.mem_cons_of_mem _ hsdp
      · exact hsdp
  | forward message hl hconsumer =>
      refine answering_frame hA rfl rfl rfl rfl rfl fun sessionId sdp' hsdp => ?_
      simpa [Client.pendingFor, hl, Listener.handled] using hsdp
  | forwardFails message hl hconsumer =>
      refine answering_frame hA rfl rfl rfl rfl rfl fun sessionId sdp' hsdp => ?_
      simpa [Client.pendingFor, hl, Listener.handled] using hsdp
  | take messages => exact answering_frame hA rfl rfl rfl rfl rfl fun _ _ h => h
  | dropConsumer => exact answering_frame hA rfl rfl rfl rfl rfl fun _ _ h => h

/-! ## 5. Prompt runs -/

/-- **The guard**: an answer is handled only when the call of its session has registered its
    callback and, as long as that is registered, still waits; a message is passed on only to a
    consumer that is there. -/
def prompt (s : Client) : Event → Prop
  | .handle => ∀ sdp, s.listener = .handling sdp → ∀ c call, s.calls c = some call →
    call.sessionId = sdp.sessionId → call.phase ≠ .offering ∧ call.phase ≠ .offered ∧
      (call.phase = .dropped → s.onAnswer sdp.sessionId ≠ some c)
  | .forward => s.consumer = true
  | _ => True

/-- **What holds on prompt runs**: the answers of a call that has none are all pending, and an
    answered call was told the first one. -/
structure Promptly (es : List Event) (s : Client) : Prop where
  awaited : ∀ c call, s.calls c = some call →
    call.phase = .offering ∨ call.phase = .offered ∨ call.phase = .waiting →
    answersFor call.sessionId es = s.pendingFor call.sessionId
  waiting : ∀ c call, s.calls c = some call → call.phase = .waiting →
    s.onAnswer call.sessionId = some c
  answered : ∀ c call sdp, s.calls c = some call → call.phase = .answered sdp →
    s.invokedBy c = [sdp] ∧ (answersFor call.sessionId es).head? = some sdp
  alive : s.listener ≠ .panicked

theorem promptly_start : Promptly [] Client.start where
  awaited _ _ h := by cases h
  waiting _ _ h := by cases h
  answered _ _ _ h := by cases h
  alive h := by cases h

/-- A step that leaves calls, callbacks and answers alone. -/
theorem promptly_frame (hP : Promptly es s) (he : e.delivers = none) (hcalls : t.calls = s.calls)
    (hon : t.onAnswer = s.onAnswer) (hinvoked : t.invoked = s.invoked)
    (hpending : ∀ sessionId, t.pendingFor sessionId = s.pendingFor sessionId)
    (halive : t.listener ≠ .panicked) : Promptly (es ++ [e]) t := by
  refine ⟨fun c call hc hph => ?_, fun c call hc hph => ?_, fun c call sdp hc hph => ?_, halive⟩
  · rw [answersFor_silent _ es he, hpending]
    exact hP.awaited c call (hcalls ▸ hc) hph
  · rw [hon]
    exact hP.waiting c call (hcalls ▸ hc) hph
  · rw [answersFor_silent _ es he, Client.invokedBy, hinvoked]
    exact hP.answered c call sdp (hcalls ▸ hc) hph

/-- A step of one call that is not answered. -/
theorem promptly_call (hP : Promptly es s) (he : e.delivers = none) {call : Call}
    {phase : CallPhase} (hc : s.calls c = some call)
    (hcalls : t.calls = Function.update s.calls c (some { call with phase := phase }))
    (hinvoked : t.invoked = s.invoked)
    (hpending : ∀ sessionId, t.pendingFor sessionId = s.pendingFor sessionId)
    (hlistener : t.listener = s.listener)
    (hawaited : phase = .offering ∨ phase = .offered ∨ phase = .waiting →
      call.phase = .offering ∨ call.phase = .offered ∨ call.phase = .waiting)
    (hwaiting : phase = .waiting → t.onAnswer call.sessionId = some c)
    (hothers : ∀ d call', d ≠ c → s.calls d = some call' →
      s.onAnswer call'.sessionId = some d → t.onAnswer call'.sessionId = some d)
    (hanswered : ∀ sdp, phase ≠ .answered sdp) : Promptly (es ++ [e]) t := by
  have hback : ∀ d call', t.calls d = some call' →
      d = c ∧ call' = { call with phase := phase } ∨ d ≠ c ∧ s.calls d = some call' := by
    intro d call' hd
    rw [hcalls] at hd
    by_cases hdc : d = c
    · rw [hdc, Function.update_self] at hd
      cases hd
      exact .inl ⟨hdc, rfl⟩
    · rw [Function.update_of_ne hdc] at hd
      exact .inr ⟨hdc, hd⟩
  refine ⟨fun d call' hd hph => ?_, fun d call' hd hph => ?_, fun d call' sdp hd hph => ?_,
    by rw [hlistener]; exact hP.alive⟩
  · rw [answersFor_silent _ es he, hpending]
    rcases hback d call' hd with ⟨_, rfl⟩ | ⟨_, hd⟩
    · exact hP.awaited c call hc (hawaited hph)
    · exact hP.awaited d call' hd hph
  · rcases hback d call' hd with ⟨rfl, rfl⟩ | ⟨hdc, hd⟩
    · exact hwaiting hph
    · exact hothers d call' hdc hd (hP.waiting d call' hd hph)
  · rw [answersFor_silent _ es he, Client.invokedBy, hinvoked]
    rcases hback d call' hd with ⟨_, rfl⟩ | ⟨_, hd⟩
    · exact absurd hph (hanswered sdp)
    · exact hP.answered d call' sdp hd hph

/-- A new call has no answers. -/
theorem promptly_new (hA : Answering es s) (hP : Promptly es s) {sessionId : String} {target : Uuid}
    {sdp : String} (hid : sessionId ∉ s.sessionIds) :
    Promptly (es ++ [.call c sessionId target sdp])
      { s.setCall c ⟨sessionId, target, sdp, .offering⟩ with
        sessionIds := sessionId :: s.sessionIds } := by
  have hnone : answersFor sessionId es = [] := by
    by_contra hne
    exact hid (hA.heard sessionId hne)
  have hpending : s.pendingFor sessionId = [] := by
    rw [List.eq_nil_iff_forall_not_mem]
    intro sdp' hsdp
    have hmem := hA.pending sessionId sdp' hsdp
    rw [hnone] at hmem
    cases hmem
  have hback : ∀ d call', Function.update s.calls c
      (some ⟨sessionId, target, sdp, .offering⟩) d = some call' →
      call' = ⟨sessionId, target, sdp, .offering⟩ ∨ s.calls d = some call' := by
    intro d call' hd
    by_cases hdc : d = c
    · rw [hdc, Function.update_self] at hd
      cases hd
      exact .inl rfl
    · rw [Function.update_of_ne hdc] at hd
      exact .inr hd
  refine ⟨fun d call' hd hph => ?_, fun d call' hd hph => ?_, fun d call' sdp' hd hph => ?_,
    hP.alive⟩
  · rw [answersFor_silent _ es rfl]
    rcases hback d call' hd with rfl | hd
    · exact hnone.trans hpending.symm
    · exact hP.awaited d call' hd hph
  · rcases hback d call' hd with rfl | hd
    · cases hph
    · exact hP.waiting d call' hd hph
  · rw [answersFor_silent _ es rfl]
    rcases hback d call' hd with rfl | hd
    · cases hph
    · exact hP.answered d call' sdp' hd hph

/-- The callback of a call is invoked with its first answer. -/
theorem promptly_tell (hA : Answering es s) (hP : Promptly es s) {call : Call}
    {sdp : WsServerSdpMessage} (hl : s.listener = .handling sdp)
    (hon : s.onAnswer sdp.sessionId = some c) (hc : s.calls c = some call)
    (hph : call.phase = .waiting) :
    Promptly (es ++ [.handle])
      { s.setCall c { call with phase := .answered sdp } with
        onAnswer := Function.update s.onAnswer sdp.sessionId none
        invoked := s.invoked ++ [(c, sdp)]
        listener := .forwarding (.answer sdp) } := by
  obtain ⟨call', hcall', hid, _, hnone⟩ := hA.registered _ _ hon
  rw [hc] at hcall'
  cases hcall'
  generalize ht : ({ s.setCall c { call with phase := .answered sdp } with
    onAnswer := Function.update s.onAnswer sdp.sessionId none
    invoked := s.invoked ++ [(c, sdp)]
    listener := .forwarding (.answer sdp) } : Client) = t
  have hcalls : t.calls = Function.update s.calls c (some { call with phase := .answered sdp }) := by
    rw [← ht]
    rfl
  have hpending : ∀ sessionId, s.pendingFor sessionId =
      if sdp.sessionId = sessionId then sdp :: t.pendingFor sessionId
      else t.pendingFor sessionId :=
    pendingFor_handling hl (by rw [← ht]; rfl) (by rw [← ht]; rfl)
  have hinvoked : t.invoked = s.invoked ++ [(c, sdp)] := by rw [← ht]
  have hback : ∀ d call', t.calls d = some call' →
      d = c ∧ call' = { call with phase := .answered sdp } ∨
      d ≠ c ∧ s.calls d = some call' ∧ sdp.sessionId ≠ call'.sessionId := by
    intro d call' hd
    rw [hcalls] at hd
    by_cases hdc : d = c
    · rw [hdc, Function.update_self] at hd
      cases hd
      exact .inl ⟨hdc, rfl⟩
    · rw [Function.update_of_ne hdc] at hd
      exact .inr ⟨hdc, hd, fun hsame => hdc (hA.unique d c call' call hd hc
        (hsame.symm.trans hid.symm))⟩
  refine ⟨fun d call' hd hph' => ?_, fun d call' hd hph' => ?_, fun d call' sdp' hd hph' => ?_,
    by rw [← ht]; simp⟩
  · rw [answersFor_silent _ es rfl]
    rcases hback d call' hd with ⟨_, rfl⟩ | ⟨_, hd, hother⟩
    · rcases hph' with h | h | h <;> cases h
    · rw [hP.awaited d call' hd hph', hpending, if_neg hother]
  · rcases hback d call' hd with ⟨_, rfl⟩ | ⟨_, hd, hother⟩
    · cases hph'
    · rw [← ht]
      exact (Function.update_of_ne hother.symm _ _).trans (hP.waiting d call' hd hph')
  · rw [answersFor_silent _ es rfl, invokedBy_snoc hinvoked]
    rcases hback d call' hd with ⟨rfl, rfl⟩ | ⟨hdc, hd, _⟩
    · cases hph'
      have hanswers := hP.awaited d call hc (.inr (.inr hph))
      rw [hpending, if_pos hid.symm] at hanswers
      rw [if_pos rfl, hnone]
      exact ⟨rfl, by rw [hanswers]; rfl⟩
    · rw [if_neg (Ne.symm hdc)]
      exact hP.answered d call' sdp' hd hph'

/-- A delivery goes to the answers and to the pending ones. -/
theorem promptly_deliver (hP : Promptly es s) (message : WsServerMessage) :
    Promptly (es ++ [.deliver message]) { s with
      inbox := s.inbox ++ [message]
      sessionIds := (answerId message).toList ++ s.sessionIds } := by
  refine ⟨fun d call hd hph => ?_, hP.waiting, fun d call sdp hd hph => ?_, hP.alive⟩
  · rw [answersFor_snoc, pendingFor_deliver, hP.awaited d call hd hph]
    rfl
  · obtain ⟨htold, hfirst⟩ := hP.answered d call sdp hd hph
    refine ⟨htold, ?_⟩
    rw [answersFor_snoc, List.head?_append, hfirst]
    rfl

/-- **Every prompt step keeps it.** -/
theorem promptly_step (hA : Answering es s) (hP : Promptly es s) (hg : prompt s e)
    (hs : Step s e t) : Promptly (es ++ [e]) t := by
  cases hs with
  | call c sessionId target sdp hc hid => exact promptly_new hA hP hid
  | offer c call hc hph =>
      exact promptly_call hP rfl hc rfl rfl (fun _ => rfl) rfl (fun _ => .inl hph)
        (fun h => by cases h) (fun d call' _ _ hon => hon) (fun sdp h => by cases h)
  | offerFails c call hc hph =>
      exact promptly_call hP rfl hc rfl rfl (fun _ => rfl) rfl (fun _ => .inl hph)
        (fun h => by cases h) (fun d call' _ _ hon => hon) (fun sdp h => by cases h)
  | register c call hc hph =>
      refine promptly_call hP rfl hc rfl rfl (fun _ => rfl) rfl (fun _ => .inr (.inl hph))
        (fun _ => Function.update_self _ _ _) (fun d call' hdc hd hon => ?_)
        (fun sdp h => by cases h)
      refine (Function.update_of_ne (fun hid => hdc ?_) _ _).trans hon
      exact hA.unique d c call' call hd hc hid
  | drop c call hc =>
      exact promptly_call hP rfl hc rfl rfl (fun _ => rfl) rfl
        (fun h => by rcases h with h | h | h <;> cases h) (fun h => by cases h)
        (fun d call' _ _ hon => hon) (fun sdp h => by cases h)
  | deliver message hconnected => exact promptly_deliver hP message
  | close => exact promptly_frame hP rfl rfl rfl rfl (fun _ => rfl) hP.alive
  | receiveAnswer sdp inbox hl hin =>
      exact promptly_frame hP rfl rfl rfl rfl (pendingFor_receive hl hin rfl rfl)
        (fun h => by cases h)
  | receiveOther message inbox hl hin hm =>
      have hhandled : (Listener.forwarding message).handled = (answerOf message).toList := by
        cases message <;> first | rfl | cases hm
      exact promptly_frame hP rfl rfl rfl rfl (pendingFor_receive hl hin hhandled rfl)
        (fun h => by cases h)
  | returns hl hin hclosed =>
      refine promptly_frame hP rfl rfl rfl rfl (fun sessionId => ?_) (fun h => by cases h)
      simp [Client.pendingFor, hl, hin, Listener.handled]
  | tell sdp c call hl hon hc hph => exact promptly_tell hA hP hl hon hc hph
  | tellFails sdp c hl hon hc =>
      obtain ⟨call, hcall, hid, hphase, _⟩ := hA.registered _ _ hon
      have hdropped : call.phase = .dropped := hphase.resolve_left (hc call hcall)
      exact absurd hon ((hg sdp hl c call hcall hid).2.2 hdropped)
  | unheard sdp hl hon =>
      -- no call waits for this answer
      refine ⟨fun d call hd hph => ?_, hP.waiting, fun d call sdp' hd hph => ?_,
        fun h => by cases h⟩
      · rw [answersFor_silent _ es rfl, hP.awaited d call hd hph,
          pendingFor_handling (t := { s with listener := .forwarding (.answer sdp) }) hl rfl rfl]
        refine if_neg fun hid => ?_
        obtain ⟨hoffering, hoffered, _⟩ := hg sdp hl d call hd hid.symm
        rcases hph with hph | hph | hph
        · exact hoffering hph
        · exact hoffered hph
        · have hregistered := hP.waiting d call hd hph
          rw [← hid, hon] at hregistered
          cases hregistered
      · rw [answersFor_silent _ es rfl]
        exact hP.answered d call sdp' hd hph
  | forward message hl hconsumer =>
      refine promptly_frame hP rfl rfl rfl rfl (fun sessionId => ?_) (fun h => by cases h)
      simp [Client.pendingFor, hl, Listener.handled]
  | forwardFails message hl hconsumer =>
      have hthere : s.consumer = true := hg
      rw [hconsumer] at hthere
      cases hthere
  | take messages => exact promptly_frame hP rfl rfl rfl rfl (fun _ => rfl) hP.alive
  | dropConsumer => exact promptly_frame hP rfl rfl rfl rfl (fun _ => rfl) hP.alive

/-! ## 6. Answers -/

/-- The listener returns only from a closed connection with nothing left. -/
def Returned (s : Client) : Prop := s.listener = .returned → s.connected = false ∧ s.inbox = []

theorem returned_step (hR : Returned s) (hs : Step s e t) : Returned t := by
  intro ht
  cases hs with
  | deliver message hconnected =>
      obtain ⟨hclosed, _⟩ := hR ht
      rw [hconnected] at hclosed
      cases hclosed
  | close => exact ⟨rfl, (hR ht).2⟩
  | returns hl hin hclosed => exact ⟨hclosed, hin⟩
  | receiveAnswer sdp inbox hl hin => cases ht
  | receiveOther message inbox hl hin hm => cases ht
  | tell sdp c call hl hon hc hph => cases ht
  | tellFails sdp c hl hon hc => cases ht
  | unheard sdp hl hon => cases ht
  | forward message hl hconsumer => cases ht
  | forwardFails message hl hconsumer => cases ht
  | _ => exact hR ht

/-- **The listener can go on** as long as something is left for it. -/
theorem listener_progress (hR : Returned s) (hP : s.listener ≠ .panicked) :
    s.inbox = [] ∧ s.listener.handled = [] ∨
      ∃ e ∈ [Event.receive, .handle, .forward, .take], (client.step s e).isSome := by
  cases hl : s.listener with
  | idle =>
      cases hin : s.inbox with
      | nil => exact .inl ⟨rfl, rfl⟩
      | cons message inbox =>
          refine .inr ⟨.receive, by simp, ?_⟩
          cases message <;> simp [client, clientStep, hl, hin]
  | handling sdp => exact .inr ⟨.handle, by simp, by simp [client, clientStep, hl]⟩
  | forwarding message =>
      by_cases hroom : s.consumer = true ∧ messagesCapacity ≤ s.messages.length
      · -- the channel is full: the consumer takes a message
        obtain ⟨hconsumer, hfull⟩ := hroom
        refine .inr ⟨.take, by simp, ?_⟩
        cases hm : s.messages with
        | nil =>
            rw [hm] at hfull
            exact absurd hfull (by decide)
        | cons first messages => simp [client, clientStep, hm, hconsumer]
      · refine .inr ⟨.forward, by simp, ?_⟩
        cases hconsumer : s.consumer with
        | false => simp [client, clientStep, hl, hconsumer]
        | true =>
            have hlt : s.messages.length < messagesCapacity :=
              Nat.lt_of_not_le fun hfull => hroom ⟨hconsumer, hfull⟩
            simp [client, clientStep, hl, hconsumer, hlt]
  | returned => exact .inl ⟨(hR hl).2, rfl⟩
  | panicked => exact absurd hl hP

/-- **No answer is lost.** A callback is invoked at most once, and only with an answer of its own
    session. On prompt runs the listener stays alive and can always go on, and once nothing is left
    for it, the callback of each call that waits or was answered has been invoked exactly with the
    first answer of its session. -/
theorem answers_not_lost (hr : client.Run Machine.anyStep Client.start es s) :
    (∀ c, s.invokedBy c = [] ∨
      ∃ call sdp, s.calls c = some call ∧ s.invokedBy c = [sdp] ∧
        sdp ∈ answersFor call.sessionId es) ∧
    (client.Run prompt Client.start es s →
      (s.inbox = [] ∧ s.listener.handled = [] ∨
        ∃ e ∈ [Event.receive, .handle, .forward, .take], (client.step s e).isSome) ∧
      ∀ c call, s.calls c = some call →
        call.phase = .waiting ∨ (∃ sdp, call.phase = .answered sdp) →
        s.inbox = [] → s.listener.handled = [] →
        s.invokedBy c = (answersFor call.sessionId es).take 1) := by
  constructor
  · exact (hr.traceInvariant answering_start fun es t e u ht _ hs =>
      answering_step ht (step_inv hs)).told
  · intro hr
    have hall : Answering es s ∧ Promptly es s ∧ Returned s := by
      refine hr.traceInvariant (I := fun es s => Answering es s ∧ Promptly es s ∧ Returned s)
        ⟨answering_start, promptly_start, fun h => by cases h⟩ fun es t e u ht hg hs => ?_
      obtain ⟨hA, hP, hR⟩ := ht
      exact ⟨answering_step hA (step_inv hs), promptly_step hA hP hg (step_inv hs),
        returned_step hR (step_inv hs)⟩
    obtain ⟨hA, hP, hR⟩ := hall
    refine ⟨listener_progress hR hP.alive, fun c call hc hph hin hhandled => ?_⟩
    · have hpending : s.pendingFor call.sessionId = [] := by
        rw [Client.pendingFor, hin, hhandled]
        rfl
      rcases hph with hph | ⟨sdp, hph⟩
      · have hnone : s.invokedBy c = [] := by
          obtain ⟨call', hcall', _, _, hnone⟩ := hA.registered _ _ (hP.waiting c call hc hph)
          exact hnone
        rw [hnone, hP.awaited c call hc (.inr (.inr hph)), hpending]
        rfl
      · obtain ⟨htold, hfirst⟩ := hP.answered c call sdp hc hph
        obtain ⟨rest, hrest⟩ := List.head?_eq_some_iff.mp hfirst
        rw [htold, hrest]
        rfl

def demoAnswer : WsServerSdpMessage :=
  ⟨ClientInfo.from ⟨"a", "2.3", none, none, "t"⟩ 1, "s", "answer"⟩

/-- A call offers session "s" and registers its callback; then the answer arrives. -/
def promptRun : List Event :=
  [.call 0 "s" 1 "offer", .sendOffer 0, .register 0, .deliver (.answer demoAnswer), .receive,
    .handle, .forward]

/-- The same, with the answer handled before the registration. -/
def hastyRun : List Event :=
  [.call 0 "s" 1 "offer", .sendOffer 0, .deliver (.answer demoAnswer), .receive, .handle, .forward,
    .register 0]

theorem answers_not_lost_promptRun :
    ∃ s call, client.Run prompt Client.start promptRun s ∧ s.calls 0 = some call ∧
      call.phase = .answered demoAnswer ∧ s.invokedBy 0 = [demoAnswer] := by
  have h1 := Machine.Run.step (M := client) (G := prompt) [] (.call 0 "s" 1 "offer") _ _
    (.start (s := Client.start)) trivial rfl
  have h2 := h1.step _ (Event.sendOffer 0) _ _ trivial rfl
  have h3 := h2.step _ (Event.register 0) _ _ trivial rfl
  have h4 := h3.step _ (Event.deliver (.answer demoAnswer)) _ _ trivial rfl
  have h5 := h4.step _ Event.receive _ _ trivial rfl
  have h6 := h5.step _ Event.handle _ _ (fun sdp hl c call hc hid => by
    by_cases h0 : c = 0
    · subst h0
      have : some (⟨"s", 1, "offer", .waiting⟩ : Call) = some call := hc
      cases this
      exact ⟨by simp, by simp, by simp⟩
    · -- the only call is call 0
      simp [Client.setCall, Client.start, h0] at hc) rfl
  have h7 := h6.step _ Event.forward _ _ rfl rfl
  have htold := ((answers_not_lost h7.any).2 h7).2 0 _ rfl (.inr ⟨demoAnswer, rfl⟩) rfl rfl
  exact ⟨_, _, h7, rfl, rfl, htold⟩

/-- **An answer is lost**: it arrives after the offer was sent and before the callback is
    registered. Nothing is left for the listener, and the call waits. -/
theorem answer_lost :
    ∃ s call, client.Run Machine.anyStep Client.start hastyRun s ∧ s.calls 0 = some call ∧
      call.phase = .waiting ∧ s.inbox = [] ∧ s.listener = .idle ∧
      answersFor call.sessionId hastyRun = [demoAnswer] ∧ s.invokedBy 0 = [] := by
  have hrun : (client.run Client.start hastyRun).map
      (fun s => (s.calls 0, s.inbox, s.listener, s.invokedBy 0)) =
      some (some ⟨"s", 1, "offer", .waiting⟩, [], .idle, []) := rfl
  obtain ⟨s, hs, hobs⟩ := Machine.run_observe hrun
  simp only [Prod.mk.injEq] at hobs
  exact ⟨s, _, hs, hobs.1, rfl, hobs.2.1, hobs.2.2.1, by decide, hobs.2.2.2⟩

end LocalSend.Signaling.Answers
