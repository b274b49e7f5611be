/-
  File:      LocalSend/Transfer/Network.lean
  Subject:   ONE TRANSFER OVER HTTP: the send service and the receive controller, with the requests
             and responses between them, as one machine.

  The sender has started one session, the receiver has none; each of them hears only the other.
  Nothing is lost, but everything may be late: a step of the network is the arrival of one
  request, response or cancel request, in any order.

  * `Ends` -- the two ends; `prepareRequest`, `uploadRequest`, `replyOf`, `uploadError` -- what
    the requests carry and what the clients make of the responses;
  * `State` -- the two services, and what is on its way: the request of a call that no handler has
    yet, the response of a handler that has returned, the cancel request of either user;
  * `step`, `network` -- the machine; `Started` -- its initial states;
  * `Quiet` -- no message is in flight and no handler can go on by itself.

  A request is the call of the sender that waits for it: `prepare` and `uploads` say which handler
  has it. An upload whose task was cancelled ends without its response; its request may still be
  on its way then (`strays`).
-/
import LocalSend.Receive.Controller
import LocalSend.Send.Service

namespace LocalSend.Transfer

open Lib

open SendSession (TaskId)
open Receive (RequestId)

/-! ## 1. Requests and responses -/

/-- The two ends of a transfer. -/
structure Ends where
  /-- the session of the sender -/
  sessionId : String
  /-- the receiver, as the sender knows it -/
  target : Device
  /-- what the sender says of itself -/
  info : Receive.InfoRegisterDto
  /-- the address of the sender's requests -/
  senderIp : String
  /-- the address of the receiver's requests -/
  receiverIp : String
  platform : Receive.Platform
  /-- the port of the receiver's server -/
  port : Int
  /-- whether it serves https -/
  https : Bool

/-- The sender uses the routes of v2 (`ApiRoute.target`). -/
def Ends.v2 (c : Ends) : Bool := c.target.version ≠ "1.0"

/-- The receiver uses the routes of v2: `ApiRoute.target` of the sender's device. -/
def Ends.answersV2 (c : Ends) : Bool := (c.info.toDevice c.senderIp c.port c.https).version ≠ "1.0"

def Ends.prepareRequest (c : Ends) (submission : SendSession.Submission) : Receive.PrepareRequest where
  ip := c.senderIp
  port := c.port
  https := c.https
  v2 := c.v2
  pin := submission.pin

/-- The body of the prepare-upload request. -/
def Ends.requestDto (c : Ends) (submission : SendSession.Submission) :
    Receive.PrepareUploadRequestDto :=
  ⟨c.info, .ofList submission.files⟩

def Ends.uploadRequest (c : Ends) (action : SendSession.IsolateHttpUploadAction) :
    Receive.UploadRequest where
  ip := c.senderIp
  v2 := c.v2
  fileId := some action.fileId
  token := some action.remoteFileToken
  sessionId := action.remoteSessionId

/-- What the sender reads from a body of the other version, or from none. -/
def unreadable : String := "FormatException"

/-- The response to a prepare-upload request, as the client of the sender sees it. -/
def replyOf : Receive.Response → SendSession.Reply
  | .prepared (some sessionId) files =>
    .response 200 (.error unreadable) (.ok ⟨sessionId, .ofList files⟩)
  | .prepared none files => .response 200 (.ok (.ofList files)) (.error unreadable)
  | .empty code => .response code (.error unreadable) (.error unreadable)
  | .message code text => .statusCodeException code ("[" ++ toString code ++ "] " ++ text)

/-- The error an upload ends with: `error` is the text of the exception the client throws. -/
def uploadError (response : Receive.Response) (error : String) : Option String :=
  match response with
  | .message _ _ => some error
  | _ => none

/-! ## 2. State -/

/-- The cancel request one user sends to the other. -/
inductive Notice where
  | unsent
  | travelling (sessionId : Option String)
  | arrived
  deriving DecidableEq, Repr

structure State where
  sender : SendSession.State
  receiver : Receive.State
  /-- the handler that has the prepare-upload request the sender waits for -/
  prepare : Option RequestId
  /-- the handlers that have the upload requests the sender waits for -/
  uploads : LinkedMap TaskId RequestId
  /-- the upload requests on their way that the sender does not wait for any more -/
  strays : List SendSession.IsolateHttpUploadAction
  fromSender : Notice
  fromReceiver : Notice

namespace State

def start (sender : SendSession.State) : State where
  sender := sender
  receiver := .initial
  prepare := none
  uploads := .empty
  strays := []
  fromSender := .unsent
  fromReceiver := .unsent

/-- The record of the session at the sender. -/
def session (s : State) (c : Ends) : Option SendSession.SendSessionState :=
  s.sender.sessions.get? c.sessionId

/-- Where the sender's call of `startSession` stands. -/
def flow (s : State) (c : Ends) : Option SendSession.Flow := s.sender.flows.get? c.sessionId

/-- The response of the handler `r`, once it has returned. -/
def response (s : State) (r : RequestId) : Option Receive.Response :=
  match s.receiver.tasks.get? r with
  | some (.returned response) => some response
  | _ => none

/-- One of the users has cancelled. -/
def cancelled (s : State) : Bool := s.fromSender ≠ .unsent || s.fromReceiver ≠ .unsent

end State

/-- **The start of a transfer**: `startSession` got as far as its request. -/
def Started (c : Ends) (s : State) : Prop :=
  ∃ files background ids sender,
    SendSession.startSession .initial c.sessionId c.target files background ids = some sender ∧
    c.sessionId ∈ sender.flows.keys ∧ s = .start sender

/-! ## 3. The machine -/

inductive Event where
  /-- a step of the sender alone -/
  | send (e : SendSession.Event)
  /-- a step of the receiver alone -/
  | receive (e : Receive.Event)
  /-- the prepare-upload request arrives; `pin` is the one configured at the receiver -/
  | prepareArrives (r : RequestId) (pin : Option String)
  | prepareAnswered (now : Int)
  | uploadArrives (taskId : TaskId) (r : RequestId) (env : Receive.UploadEnv)
  | uploadAnswered (taskId : TaskId) (error : String) (now : Int)
  /-- a cancelled upload ends; `stray`: its request is still on its way -/
  | uploadAborted (taskId : TaskId) (error : String) (stray : Bool) (now : Int)
  | strayArrives (action : SendSession.IsolateHttpUploadAction) (r : RequestId)
      (env : Receive.UploadEnv)
  /-- the sending user cancels -/
  | cancelSending
  | cancelArrives (r : RequestId) (now : Int)
  /-- the receiving user cancels -/
  | cancelReceiving
  | cancelHeard (now : Int)

/-- The steps the sender makes without the network. -/
def ofSender (c : Ends) : SendSession.Event → Bool
  | .pinEntered k _ | .work k _ | .loopEnded k _ | .retry k _ | .setBackground k _ =>
    k = c.sessionId
  | _ => false

/-- The steps the receiver makes without the network; the body it reads is the one sent. -/
def ofReceiver (c : Ends) (flow : Option SendSession.Flow) : Receive.Event → Bool
  | .readBody _ dto _ =>
    match flow with
    | some (.submitting submission) => dto = some (c.requestDto submission)
    | _ => false
  | .createSession _ _ _ _ _ _ | .shown _ | .messageRecorded _ | .decided _ _ | .permitted _
  | .saved _ _ _ | .recorded _ _ _ | .delayedClose _ | .acceptFileRequest _ | .declineFileRequest
  | .setSessionDestinationDir _ | .setSessionSaveToGallery _ => true
  | .prepareUpload _ _ _ | .upload _ _ _ | .cancel _ _ _ | .closeSession | .cancelSession => false

/-- `_cancelHandler` at the sender, whose server has no receive session: is the session found and
    may it be cancelled? -/
def hears (c : Ends) (sessionId : Option String) (session : SendSession.SendSessionState) : Bool :=
  (!c.answersV2 || session.remoteSessionId = sessionId) &&
    session.target.ip = some c.receiverIp && session.status = .sending

namespace State

/-- The sender makes a step. -/
def sends (s : State) (e : SendSession.Event) : Option State :=
  (SendSession.service.step s.sender e).map fun sender => { s with sender := sender }

/-- The receiver makes a step. -/
def receives (s : State) (c : Ends) (e : Receive.Event) : Option State :=
  ((Receive.controller c.platform).step s.receiver e).map fun receiver =>
    { s with receiver := receiver }

end State

def step (c : Ends) (s : State) : Event → Option State
  | .send e => if ofSender c e then s.sends e else none
  | .receive e => if ofReceiver c (s.flow c) e then s.receives c e else none
  | .prepareArrives r pin =>
    match s.prepare, s.flow c with
    | none, some (.submitting submission) =>
      { s with prepare := some r }.receives c (.prepareUpload r (c.prepareRequest submission) pin)
    | _, _ => none
  | .prepareAnswered now =>
    match s.prepare.bind s.response with
    | some response =>
      { s with prepare := none }.sends (.submitted c.sessionId (replyOf response) now)
    | none => none
  | .uploadArrives taskId r env =>
    match s.uploads.get? taskId, s.sender.uploads.get? taskId with
    | none, some u =>
      { s with uploads := s.uploads.insert taskId r }.receives c
        (.upload r (c.uploadRequest u.action) env)
    | _, _ => none
  | .uploadAnswered taskId error now =>
    match (s.uploads.get? taskId).bind s.response with
    | some response =>
      { s with uploads := s.uploads.erase taskId }.sends
        (.uploadEnded taskId (uploadError response error) now)
    | none => none
  | .uploadAborted taskId error stray now =>
    match s.sender.uploads.get? taskId with
    | some u =>
      if u.task taskId ∈ s.sender.cancelled ∧ (stray = true → taskId ∉ s.uploads.keys) then
        { s with
          uploads := s.uploads.erase taskId
          strays := if stray then u.action :: s.strays else s.strays }.sends
            (.uploadEnded taskId (some error) now)
      else none
    | none => none
  | .strayArrives action r env =>
    if action ∈ s.strays then
      { s with strays := s.strays.erase action }.receives c (.upload r (c.uploadRequest action) env)
    else none
  | .cancelSending =>
    match s.session c with
    | some session =>
      { s with fromSender := .travelling session.remoteSessionId }.sends (.cancelSession c.sessionId)
    | none => none
  | .cancelArrives r now =>
    match s.fromSender with
    | .travelling sessionId =>
      { s with fromSender := .arrived }.receives c (.cancel r ⟨c.senderIp, c.v2, sessionId⟩ now)
    | _ => none
  | .cancelReceiving =>
    match s.receiver.session with
    | some session =>
      { s with fromReceiver := .travelling (some session.sessionId) }.receives c .cancelSession
    | none => none
  | .cancelHeard now =>
    match s.fromReceiver with
    | .travelling sessionId =>
      if (s.session c).any (hears c sessionId) then
        { s with fromReceiver := .arrived }.sends (.cancelSessionByReceiver c.sessionId now)
      else some { s with fromReceiver := .arrived }
    | _ => none

/-- **A transfer over HTTP.** -/
def network (c : Ends) : Machine State Event := ⟨step c⟩

/-! ## 4. Quiescence -/

/-- The handler cannot go on by itself: it is over, or waits for the user. -/
def idle (receiver : Receive.State) (r : RequestId) : Receive.Task → Bool
  | .returned _ | .crashed => true
  | .deciding _ _ => r ∉ receiver.answers.keys
  | _ => false

/-- Of a call of the sender, neither the request nor the response is on its way. -/
def State.held (s : State) (call : Option RequestId) : Bool :=
  match call with
  | some r => (s.response r).isNone
  | none => false

/-- The sender's call of `startSession` cannot go on by itself. -/
def State.flowIdle (s : State) : Option SendSession.Flow → Bool
  | some (.submitting _) => s.held s.prepare
  | some (.sending _ workers) => workers.all (· ≠ .next) && !workers.all (· = .done)
  | _ => true

/-- **No message is in flight and no handler can go on by itself.** -/
structure Quiet (c : Ends) (s : State) : Prop where
  handlers : ∀ task ∈ s.receiver.tasks.entries, idle s.receiver task.1 task.2 = true
  flow : s.flowIdle (s.flow c) = true
  uploads : ∀ u ∈ s.sender.uploads.entries, s.held (s.uploads.get? u.1) = true
  strays : s.strays = []
  fromSender : ∀ sessionId, s.fromSender ≠ .travelling sessionId
  fromReceiver : ∀ sessionId, s.fromReceiver ≠ .travelling sessionId

/-- The cancel request is not on its way. -/
def Notice.landed : Notice → Bool
  | .travelling _ => false
  | _ => true

theorem Notice.landed_iff {notice : Notice} :
    notice.landed = true ↔ ∀ sessionId, notice ≠ .travelling sessionId := by
  cases notice with
  | travelling sessionId => exact ⟨fun h => (by cases h), fun h => absurd rfl (h sessionId)⟩
  | unsent | arrived => exact ⟨fun _ _ h => (by cases h), fun _ => rfl⟩

instance (c : Ends) (s : State) : Decidable (Quiet c s) :=
  decidable_of_iff ((∀ task ∈ s.receiver.tasks.entries, idle s.receiver task.1 task.2 = true) ∧
      s.flowIdle (s.flow c) = true ∧
      (∀ u ∈ s.sender.uploads.entries, s.held (s.uploads.get? u.1) = true) ∧ s.strays = [] ∧
      s.fromSender.landed = true ∧ s.fromReceiver.landed = true)
    ⟨fun ⟨handlers, flow, uploads, strays, fromSender, fromReceiver⟩ =>
        ⟨handlers, flow, uploads, strays, Notice.landed_iff.mp fromSender,
          Notice.landed_iff.mp fromReceiver⟩,
      fun h => ⟨h.handlers, h.flow, h.uploads, h.strays, Notice.landed_iff.mpr h.fromSender,
        Notice.landed_iff.mpr h.fromReceiver⟩⟩

end LocalSend.Transfer
