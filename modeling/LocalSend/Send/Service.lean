/-
  File:      LocalSend/Send/Service.lean
  Subject:   THE SEND SERVICE: `send_session_service.dart`, driven by `send_flow_controller.dart`,
             as a machine.

  The app runs on one thread, so a step is the code between two awaits. A call of `startSession`
  has a `Flow` that says where it stands; in `_sendLoop` that is the queue and, for each upload
  isolate, where its worker stands. A call of `sendFile` that waits for its upload is an `Upload`,
  named by the id of the isolate task. What a step reads from outside (uuids, the clock, the
  answer of the receiver, the end of an upload) is part of its event.

  * `SendSessionState`, `SendingFile`, `SendingTask` -- the sessions of the service;
  * `createSession`, `submitRequest`, `startUpload` -- the handshake;
  * `sendFile` up to its await, `uploadEnded` from there on, `finish` (`_finish`);
  * `cancelSession`, `cancelSessionByReceiver`, `closeSession`, `clearAllSessions`;
  * `step` -- the machine; a retry comes from the progress page, which offers it for a failed
    file.

  Left out, since nothing here reads it: thumbnails and assets, the metadata of a file, its mime
  type, the progress notifications, the pages pushed on the screen, the selection of files that
  `closeSession` clears, and the ids other isolate tasks take.
-/
import LocalSend.Common.Device
import LocalSend.Lib.LinkedMap
import LocalSend.Lib.Machine
import LocalSend.Lib.Percent

namespace LocalSend.SendSession

open Lib

/-! ## 1. Sessions -/

/-- A file the user selected. -/
structure CrossFile where
  name : String
  fileType : FileType
  size : Int
  path : Option String
  bytes : Option (List UInt8)
  deriving DecidableEq, Repr

structure SendingFile where
  file : FileDto
  status : FileStatus
  token : Option String
  path : Option String
  bytes : Option (List UInt8)
  errorMessage : Option String
  deriving DecidableEq, Repr

/-- The id of a task in an upload isolate. -/
abbrev TaskId := Nat

structure SendingTask where
  isolateIndex : Nat
  taskId : TaskId
  deriving DecidableEq, Repr

structure SendSessionState where
  sessionId : String
  /-- v2 -/
  remoteSessionId : Option String
  background : Bool
  status : SessionStatus
  target : Device
  /-- keyed by the id of the file -/
  files : LinkedMap String SendingFile
  startTime : Option Int
  endTime : Option Int
  /-- used to cancel tasks -/
  sendingTasks : List SendingTask
  errorMessage : Option String
  deriving DecidableEq

namespace SendSessionState

/-- `withFileStatus`; the file is one of the session's. -/
def withFileStatus (session : SendSessionState) (fileId : String) (status : FileStatus)
    (errorMessage : Option String) : SendSessionState :=
  { session with
    files := session.files.mapValues fun key file =>
      if key = fileId then { file with status := status, errorMessage := errorMessage } else file }

def hasError (session : SendSessionState) : Bool :=
  session.files.values.any fun file => file.status = .failed

def isFinishedOrError (session : SendSessionState) : Bool :=
  session.files.values.all fun file => file.status.isFinishedOrError

end SendSessionState

/-- The states in which `sendFile` sends. -/
def allowedStates : SessionStatus → Bool
  | .sending | .finishedWithErrors => true
  | _ => false

/-! ## 2. State -/

/-- The task an upload isolate gets. -/
structure IsolateHttpUploadAction where
  isolateIndex : Nat
  remoteSessionId : Option String
  remoteFileToken : String
  fileId : String
  filePath : Option String
  fileBytes : Option (List UInt8)
  fileSize : Int
  device : Device
  deriving DecidableEq, Repr

/-- A call of `sendFile` that waits for its upload. -/
structure Upload where
  sessionId : String
  isRetry : Bool
  action : IsolateHttpUploadAction
  deriving DecidableEq, Repr

/-- What the service keeps of the upload to cancel it. -/
def Upload.task (u : Upload) (taskId : TaskId) : SendingTask := ⟨u.action.isolateIndex, taskId⟩

/-- A worker of `_sendLoop`: between two files, in `sendFile`, or out of its loop. -/
inductive Worker where
  | next
  | uploading (taskId : TaskId)
  | done
  deriving DecidableEq, Repr

/-- The prepare-upload request in flight. -/
structure Submission where
  target : Device
  files : List (String × FileDto)
  pin : Option String
  deriving DecidableEq, Repr

/-- A call of `startSession`. -/
inductive Flow where
  /-- the prepare-upload request is in flight -/
  | submitting (submission : Submission)
  /-- the user is asked for the pin -/
  | asking
  /-- `_sendLoop` -/
  | sending (queue : List SendingFile) (workers : List Worker)
  /-- over, without `_sendLoop` -/
  | stopped
  /-- over, after `_sendLoop` -/
  | finished
  deriving DecidableEq, Repr

structure State where
  sessions : LinkedMap String SendSessionState
  flows : LinkedMap String Flow
  uploads : LinkedMap TaskId Upload
  /-- the tasks a cancel action was dispatched for -/
  cancelled : List SendingTask
  nextId : TaskId
  /-- the uuids given out so far -/
  uuids : List String

def State.initial : State where
  sessions := .empty
  flows := .empty
  uploads := .empty
  cancelled := []
  nextId := 0
  uuids := []

namespace State

def setSession (s : State) (sessionId : String) (session : SendSessionState) : State :=
  { s with sessions := s.sessions.insert sessionId session }

def setFlow (s : State) (sessionId : String) (flow : Flow) : State :=
  { s with flows := s.flows.insert sessionId flow }

/-- `updateSession`: no change without the session. -/
def updateSession (s : State) (sessionId : String) (f : SendSessionState → SendSessionState) :
    State :=
  match s.sessions.get? sessionId with
  | none => s
  | some session => s.setSession sessionId (f session)

/-- `closeSession`, which is `removeSession`. -/
def closeSession (s : State) (sessionId : String) : State :=
  { s with sessions := s.sessions.erase sessionId }

/-- The uuids are new and distinct. -/
def fresh (s : State) (ids : List String) : Bool :=
  decide ids.Nodup && ids.all fun i => decide (i ∉ s.uuids)

/-- A worker of the loop of a session moves. -/
def setWorker (s : State) (sessionId : String) (index : Nat) (worker : Worker) : State :=
  match s.flows.get? sessionId with
  | some (.sending queue workers) => s.setFlow sessionId (.sending queue (workers.set index worker))
  | _ => s

end State

/-! ## 3. The handshake -/

/-- The text of a simple message goes into the preview (`none`: it is not UTF-8). -/
def previewOf (files : List CrossFile) : Option (Option String) :=
  match files with
  | [file] =>
    match file.fileType, file.bytes with
    | .text, some bytes => (Percent.decodeUtf8 bytes).map fun text => some (String.ofList text)
    | _, _ => some none
  | _ => some none

/-- A file before the handshake, under its new id. -/
def CrossFile.queued (preview : Option String) (id : String) (file : CrossFile) : SendingFile where
  file := ⟨id, file.name, file.size, file.fileType, preview⟩
  status := .queue
  token := none
  path := file.path
  bytes := file.bytes
  errorMessage := none

/-- The session `createSession` makes, with the uuids `ids` for its files. -/
def newSession (sessionId : String) (target : Device) (files : List CrossFile) (background : Bool)
    (preview : Option String) (ids : List String) : SendSessionState where
  sessionId := sessionId
  remoteSessionId := none
  background := background
  status := .waiting
  target := target
  files := .ofList ((ids.zip files).map fun f => (f.1, f.2.queued preview f.1))
  startTime := none
  endTime := none
  sendingTasks := []
  errorMessage := none

/-- The request `submitRequest` sends for a session. -/
def SendSessionState.submission (session : SendSessionState) (pin : Option String) : Submission :=
  ⟨session.target, session.files.entries.map fun f => (f.1, f.2.file), pin⟩

/-- `submitRequest` up to its await. -/
def submitRequest (s : State) (sessionId : String) (pin : Option String) : State :=
  match s.sessions.get? sessionId with
  | none => s.setFlow sessionId .stopped
  | some session => s.setFlow sessionId (.submitting (session.submission pin))

/-- `startSession` up to the first request; text that is not UTF-8 ends it with an exception. -/
def startSession (s : State) (sessionId : String) (target : Device) (files : List CrossFile)
    (background : Bool) (ids : List String) : Option State :=
  if s.fresh (sessionId :: ids) = true ∧ ids.length = files.length then
    let s1 := { s with uuids := sessionId :: ids ++ s.uuids }
    match previewOf files with
    | none => some s1
    | some preview =>
      let session := newSession sessionId target files background preview ids
      some (submitRequest (s1.setSession sessionId session) sessionId none)
  else none

structure PrepareUploadResponseDto where
  sessionId : String
  files : LinkedMap String String
  deriving DecidableEq

/-- What comes back for a prepare-upload request. -/
inductive Reply where
  /-- a response, with its body as the v1 and as the v2 client reads it -/
  | response (statusCode : Nat) (fileMap : Except String (LinkedMap String String))
      (responseDto : Except String PrepareUploadResponseDto)
  /-- a status code that the HTTP client throws -/
  | statusCodeException (statusCode : Nat) (humanErrorMessage : String)
  | exception (humanErrorMessage : String)

inductive PrepareUploadResult where
  | success (files : LinkedMap String String)
  | pinRequired
  | declined
  | recipientBusy
  | tooManyAttempts
  | error (error : String)
  deriving DecidableEq

/-- The `catch` of `submitRequest`. -/
def submitFailed (s : State) (sessionId : String) (error : String) : State × PrepareUploadResult :=
  (s.updateSession sessionId fun session =>
    { session with status := .finishedWithErrors, errorMessage := some error }, .error error)

/-- `submitRequest` from its await on. -/
def submitted (s : State) (sessionId : String) (target : Device) (reply : Reply) :
    State × PrepareUploadResult :=
  match reply with
  | .response statusCode fileMap responseDto =>
    if target.version = "1.0" then
      match fileMap with
      | .ok fileMap => (s, .success fileMap)
      | .error e => submitFailed s sessionId e
    else if statusCode = 204 then (s, .success .empty)
    else
      match responseDto with
      | .ok dto =>
        (s.updateSession sessionId fun session =>
          { session with remoteSessionId := some dto.sessionId }, .success dto.files)
      | .error e => submitFailed s sessionId e
  | .statusCodeException statusCode e =>
    if statusCode = 401 then (s, .pinRequired)
    else if statusCode = 403 then
      (s.updateSession sessionId fun session => { session with status := .declined }, .declined)
    else if statusCode = 409 then
      (s.updateSession sessionId fun session => { session with status := .recipientBusy },
        .recipientBusy)
    else if statusCode = 429 then
      (s.updateSession sessionId fun session => { session with status := .tooManyAttempts },
        .tooManyAttempts)
    else submitFailed s sessionId e
  | .exception e => submitFailed s sessionId e

/-- The number of upload isolates. -/
def uploadIsolateCount : Nat := 2

/-- The file after the handshake: the receiver's token, or skipped. -/
def SendingFile.answered (fileMap : LinkedMap String String) (file : SendingFile) : SendingFile :=
  match fileMap.get? file.file.id with
  | some token => { file with token := some token }
  | none => { file with status := .skipped }

/-- `startUpload`, up to the workers of `_sendLoop`. -/
def startUpload (s : State) (sessionId : String) (fileMap : LinkedMap String String) (now : Int) :
    State :=
  match s.sessions.get? sessionId with
  | none => s.setFlow sessionId .stopped
  | some session =>
    if fileMap.entries = [] then
      -- the receiver has nothing selected
      (s.closeSession sessionId).setFlow sessionId .stopped
    else
      let sendingFiles : LinkedMap String SendingFile :=
        .ofList (session.files.values.map fun file => (file.file.id, file.answered fileMap))
      (s.setSession sessionId { session with
        status := .sending
        files := sendingFiles
        startTime := some now }).setFlow sessionId
          (.sending sendingFiles.values (List.replicate uploadIsolateCount .next))

/-- `startSession` goes on with the result of the request. -/
def handleResult (s : State) (sessionId : String) (result : PrepareUploadResult) (now : Int) :
    State :=
  match result with
  | .success files => startUpload s sessionId files now
  | .pinRequired => s.setFlow sessionId .asking
  | _ => s.setFlow sessionId .stopped

/-- The pin dialog is closed (`none`: without a pin). -/
def pinEntered (s : State) (sessionId : String) (pin : Option String) : State :=
  match pin with
  | none =>
    -- `cancelSessionBySender`
    (s.updateSession sessionId fun session =>
      { session with status := .canceledBySender }).setFlow sessionId .stopped
  | some pin => submitRequest s sessionId (some pin)

/-! ## 4. Uploads -/

/-- `_finish`. -/
def finish (s : State) (sessionId : String) (now : Int) : State :=
  match s.sessions.get? sessionId with
  | none => s
  | some session =>
    if session.status ≠ .sending then s
    else if !session.hasError && session.background then s.closeSession sessionId
    else
      s.setSession sessionId { session with
        status := if session.hasError then .finishedWithErrors else .finished
        endTime := some now }

/-- A failed file that is to be sent again. -/
def SendSessionState.retried (session : SendSessionState) (fileId : String) : SendSessionState :=
  { session.withFileStatus fileId .queue none with status := .sending }

/-- The session once the upload of a file is dispatched. -/
def SendSessionState.dispatched (session : SendSessionState) (isRetry : Bool) (fileId : String)
    (task : SendingTask) : SendSessionState :=
  let session1 := if isRetry then session.retried fileId else session
  let session2 := session1.withFileStatus fileId .sending none
  { session2 with sendingTasks := session2.sendingTasks ++ [task] }

/-- The task for a file, from the session as it is. -/
def SendSessionState.uploadAction (session : SendSessionState) (isolateIndex : Nat)
    (file : SendingFile) (token : String) : IsolateHttpUploadAction where
  isolateIndex := isolateIndex
  remoteSessionId := session.remoteSessionId
  remoteFileToken := token
  fileId := file.file.id
  filePath := file.path
  fileBytes := file.bytes
  fileSize := file.file.size
  device := session.target

/-- `sendFile` up to its await, and the task it waits for, if any. -/
def sendFile (s : State) (sessionId : String) (isolateIndex : Nat) (file : SendingFile)
    (isRetry : Bool) : State × Option TaskId :=
  match file.token, s.sessions.get? sessionId with
  | some token, some session =>
    if allowedStates session.status then
      let taskId := s.nextId
      let action := session.uploadAction isolateIndex file token
      ({ s with
        nextId := taskId + 1
        uploads := s.uploads.insert taskId ⟨sessionId, isRetry, action⟩ }.setSession sessionId
          (session.dispatched isRetry file.file.id ⟨isolateIndex, taskId⟩), some taskId)
    else (s, none)
  | _, _ => (s, none)

/-- The session once the upload of a file is over. -/
def SendSessionState.uploaded (session : SendSessionState) (fileId : String) (task : SendingTask)
    (fileError : Option String) : SendSessionState :=
  { session with sendingTasks := session.sendingTasks.filter fun t => t ≠ task }.withFileStatus
    fileId (if fileError.isSome then .failed else .finished) fileError

/-- `sendFile` from its await on. -/
def uploadEnded (s : State) (taskId : TaskId) (u : Upload) (fileError : Option String)
    (now : Int) : State :=
  let s1 := { s with uploads := s.uploads.erase taskId }.updateSession u.sessionId fun session =>
    session.uploaded u.action.fileId (u.task taskId) fileError
  if u.isRetry then
    match s1.sessions.get? u.sessionId with
    | some session => if session.isFinishedOrError then finish s1 u.sessionId now else s1
    | none => s1
  else s1.setWorker u.sessionId u.action.isolateIndex .next

/-- One turn of the loop of a worker: the next file, or the end of the loop. -/
def work (s : State) (sessionId : String) (index : Nat) (queue : List SendingFile)
    (workers : List Worker) : State :=
  match queue with
  | [] => s.setFlow sessionId (.sending [] (workers.set index .done))
  | file :: queue =>
    match sendFile s sessionId index file false with
    | (s1, none) => s1.setFlow sessionId (.sending queue workers)
    | (s1, some taskId) =>
      s1.setFlow sessionId (.sending queue (workers.set index (.uploading taskId)))

/-! ## 5. Cancelling and closing -/

/-- `_cancelRunningRequests`: each cancel action takes an id of its own. -/
def cancelRunningRequests (s : State) (session : SendSessionState) : State :=
  { s with
    cancelled := session.sendingTasks ++ s.cancelled
    nextId := s.nextId + session.sendingTasks.length }

/-- `cancelSession`. -/
def cancelSession (s : State) (sessionId : String) : State :=
  match s.sessions.get? sessionId with
  | none => s
  | some session => (cancelRunningRequests s session).closeSession sessionId

/-- `cancelSessionByReceiver`. -/
def cancelSessionByReceiver (s : State) (sessionId : String) (now : Int) : State :=
  match s.sessions.get? sessionId with
  | none => s
  | some session =>
    (cancelRunningRequests s session).setSession sessionId
      { session with status := .canceledByReceiver, endTime := some now }

/-- `clearAllSessions`. -/
def clearAllSessions (s : State) : State := { s with sessions := .empty }

/-! ## 6. The machine -/

inductive Event where
  | startSession (sessionId : String) (target : Device) (files : List CrossFile)
      (background : Bool) (ids : List String)
  /-- the answer to a prepare-upload request -/
  | submitted (sessionId : String) (reply : Reply) (now : Int)
  | pinEntered (sessionId : String) (pin : Option String)
  /-- a worker goes on -/
  | work (sessionId : String) (index : Nat)
  /-- the progress stream of an upload ends, with an error or without -/
  | uploadEnded (taskId : TaskId) (fileError : Option String) (now : Int)
  /-- all workers are done -/
  | loopEnded (sessionId : String) (now : Int)
  /-- the user presses retry on the progress page, which offers it for a failed file; the page may
      outlive the session -/
  | retry (sessionId : String) (file : SendingFile)
  /-- the pages look the session up first -/
  | cancelSession (sessionId : String)
  /-- the cancel request of the receiver, which is only heard while the session is sending -/
  | cancelSessionByReceiver (sessionId : String) (now : Int)
  | closeSession (sessionId : String)
  | clearAllSessions
  | setBackground (sessionId : String) (background : Bool)

def step (s : State) : Event → Option State
  | .startSession sessionId target files background ids =>
    startSession s sessionId target files background ids
  | .submitted sessionId reply now =>
    match s.flows.get? sessionId with
    | some (.submitting submission) =>
      let (s1, result) := submitted s sessionId submission.target reply
      some (handleResult s1 sessionId result now)
    | _ => none
  | .pinEntered sessionId pin =>
    match s.flows.get? sessionId with
    | some .asking => some (pinEntered s sessionId pin)
    | _ => none
  | .work sessionId index =>
    match s.flows.get? sessionId with
    | some (.sending queue workers) =>
      if workers[index]? = some .next then some (work s sessionId index queue workers) else none
    | _ => none
  | .uploadEnded taskId fileError now =>
    match s.uploads.get? taskId with
    | some u => some (uploadEnded s taskId u fileError now)
    | none => none
  | .loopEnded sessionId now =>
    match s.flows.get? sessionId with
    | some (.sending _ workers) =>
      if workers.all (· = .done) then some ((finish s sessionId now).setFlow sessionId .finished)
      else none
    | _ => none
  | .retry sessionId file =>
    match s.sessions.get? sessionId with
    | some session =>
      if session.files.get? file.file.id = some file ∧ file.status = .failed then
        some (sendFile s sessionId 0 file true).1
      else none
    | none => some (sendFile s sessionId 0 file true).1
  | .cancelSession sessionId =>
    match s.sessions.get? sessionId with
    | some _ => some (cancelSession s sessionId)
    | none => none
  | .cancelSessionByReceiver sessionId now =>
    match s.sessions.get? sessionId with
    | some session =>
      if session.status = .sending then some (cancelSessionByReceiver s sessionId now) else none
    | none => none
  | .closeSession sessionId => some (s.closeSession sessionId)
  | .clearAllSessions => some (clearAllSessions s)
  | .setBackground sessionId background =>
    some (s.updateSession sessionId fun session => { session with background := background })

/-- **The send side of the app.** -/
def service : Machine State Event := ⟨step⟩

end LocalSend.SendSession
