/-
  File:      LocalSend/Receive/Controller.lean
  Subject:   THE RECEIVE CONTROLLER: `receive_controller.dart` as a machine.

  The HTTP server runs its handlers on one thread. A handler is suspended only at an `await`, so
  a step of the machine is the code between two awaits; the requests in flight are named by
  numbers, and each of them has a `Task` that says at which await it stands. What a step reads
  from outside (settings, favourites, the clock, uuids, the result of a save) is part of its
  event.

  * `ReceiveSessionState`, `ReceivingFile` -- the one receive session of the server;
  * `checkPin`, `createSession`, `resumeSelection` -- the pieces of `_prepareUploadHandler`;
  * `uploadGuards`, `startUpload`, `afterSave`, `finishUpload`, `catchUpload` -- those of
    `_uploadHandler`; a `Map.update` without the key throws, and what is not caught ends the
    handler in `crashed`;
  * `cancelHandler`, the actions of the user, and `step`, the machine.

  The model is that of a running server. The window manager, the pages pushed on the screen, the
  progress notifications and the log are left out: they change nothing that is read here.
-/
import LocalSend.Common.Device
import LocalSend.Lib.LinkedMap
import LocalSend.Lib.Machine

namespace LocalSend.Receive

open Lib

/-! ## 1. The session -/

structure ReceivingFile where
  file : FileDto
  status : FileStatus
  token : Option String
  desiredName : Option String
  path : Option String
  savedToGallery : Bool
  errorMessage : Option String
  deriving DecidableEq, Repr

/-- A file before the user's decision. -/
def ReceivingFile.queued (file : FileDto) : ReceivingFile :=
  ⟨file, .queue, none, none, none, false, none⟩

/-- A request in flight. -/
abbrev RequestId := Nat

structure ReceiveSessionState where
  sessionId : String
  status : SessionStatus
  sender : Device
  senderAlias : String
  /-- keyed by the id of the file -/
  files : LinkedMap String ReceivingFile
  startTime : Option Int
  endTime : Option Int
  destinationDirectory : String
  cacheDirectory : String
  saveToGallery : Bool
  /-- the stream controller, named by the request that created it -/
  responseHandler : Option RequestId
  deriving DecidableEq

/-- The text of a message request: a single text file with its preview. -/
def ReceiveSessionState.message (session : ReceiveSessionState) : Option String :=
  match session.files.values with
  | [f] => if f.file.fileType = .text then f.file.preview else none
  | _ => none

/-- `fileFinished`: throws if the session has no such file. -/
def ReceiveSessionState.fileFinished (session : ReceiveSessionState) (fileId : String)
    (status : FileStatus) (path : Option String) (savedToGallery : Bool)
    (errorMessage : Option String) : Option ReceiveSessionState :=
  (session.files.update fileId fun file =>
    { file with
      status := status
      path := path
      savedToGallery := savedToGallery
      errorMessage := errorMessage }).map fun files => { session with files := files }

/-- The states in which the receiver accepts uploads. -/
def allowedStates : SessionStatus → Bool
  | .sending | .finishedWithErrors => true
  | _ => false

/-! ## 2. Requests, tasks, state -/

structure InfoRegisterDto where
  aliasName : String
  version : Option String
  deviceModel : Option String
  deviceType : Option DeviceType
  fingerprint : Option String
  port : Option Int
  /-- the protocol is https -/
  https : Option Bool
  download : Option Bool
  deriving DecidableEq, Repr

def fallbackProtocolVersion : String := "1.0"

def InfoRegisterDto.toDevice (info : InfoRegisterDto) (ip : String) (ownPort : Int)
    (ownHttps : Bool) : Device where
  signalingId := none
  ip := some ip
  version := info.version.getD fallbackProtocolVersion
  port := info.port.getD ownPort
  https := info.https.getD ownHttps
  fingerprint := info.fingerprint.getD ""
  aliasName := info.aliasName
  deviceModel := info.deviceModel
  deviceType := info.deviceType.getD .desktop
  download := info.download.getD false
  discoveryMethods := []

structure PrepareUploadRequestDto where
  info : InfoRegisterDto
  files : LinkedMap String FileDto
  deriving DecidableEq

structure PrepareRequest where
  ip : String
  port : Int
  https : Bool
  v2 : Bool
  pin : Option String
  deriving DecidableEq, Repr

structure UploadRequest where
  ip : String
  v2 : Bool
  fileId : Option String
  token : Option String
  sessionId : Option String
  deriving DecidableEq, Repr

structure CancelRequest where
  ip : String
  v2 : Bool
  sessionId : Option String
  deriving DecidableEq, Repr

structure Settings where
  destination : Option String
  saveToGallery : Bool
  quickSave : Bool
  quickSaveFromFavorites : Bool
  deriving DecidableEq, Repr

structure Favorite where
  fingerprint : String
  aliasName : String
  deriving DecidableEq, Repr

/-- What the operating system offers. -/
structure Platform where
  withGallery : Bool
  hasTray : Bool
  /-- Android or iOS: permissions are asked for before the response -/
  mobile : Bool
  deriving DecidableEq, Repr

inductive Response where
  | message (code : Nat) (text : String)
  | empty (code : Nat)
  /-- the tokens of the accepted files, with the session id in v2 -/
  | prepared (sessionId : Option String) (files : List (String × String))
  deriving DecidableEq, Repr

/-- What an upload handler keeps of the session it began under. -/
structure Upload where
  sessionId : String
  senderAlias : String
  fileId : String
  receivingFile : ReceivingFile
  deriving DecidableEq, Repr

/-- The await a handler is suspended at. -/
inductive Task where
  /-- prepare-upload: the null check is passed, the body is being read -/
  | reading (req : PrepareRequest)
  /-- prepare-upload: the directories are being looked up -/
  | locating (req : PrepareRequest) (dto : PrepareUploadRequestDto) (settings : Settings)
  /-- prepare-upload: the window is being shown -/
  | showing (req : PrepareRequest) (sessionId : String)
  /-- prepare-upload: the message is being added to the history -/
  | recordingMessage (req : PrepareRequest) (sessionId : String)
  /-- prepare-upload: waiting for the user's decision -/
  | deciding (req : PrepareRequest) (sessionId : String)
  /-- prepare-upload: permissions are being asked for -/
  | permitting (response : Response)
  /-- upload: `saveFile` -/
  | saving (u : Upload)
  /-- upload: the file is being added to the history -/
  | recording (u : Upload)
  | returned (response : Response)
  /-- an exception left the handler -/
  | crashed
  deriving DecidableEq

/-- What the user selected: file id to name. -/
abbrev Selection := LinkedMap String String

structure State where
  session : Option ReceiveSessionState
  pinAttempts : String → Nat
  tasks : LinkedMap RequestId Task
  /-- the stream controllers that got their answer and are closed -/
  answers : LinkedMap RequestId (Option Selection)
  /-- the uploads whose delayed `closeSession` is still to run, with the session they began
      under -/
  closing : List (RequestId × String)
  /-- the uuids given out so far -/
  uuids : List String

def State.initial : State where
  session := none
  pinAttempts _ := 0
  tasks := .empty
  answers := .empty
  closing := []
  uuids := []

def State.setTask (s : State) (r : RequestId) (task : Task) : State :=
  { s with tasks := s.tasks.insert r task }

def State.respond (s : State) (r : RequestId) (code : Nat) (text : String) : State :=
  s.setTask r (.returned (.message code text))

/-- `closeSession`. -/
def State.closeSession (s : State) : State := { s with session := none }

/-- The uuids are new and distinct. -/
def State.fresh (s : State) (ids : List String) : Bool :=
  decide ids.Nodup && ids.all fun i => decide (i ∉ s.uuids)

/-! ## 3. Prepare-upload -/

/-- `checkPin`: the attempts it leaves, and its response if the pin is refused. -/
def checkPin (pinAttempts : String → Nat) (ip : String) (pin requestPin : Option String) :
    (String → Nat) × Option Response :=
  match pin with
  | none => (pinAttempts, none)
  | some pin =>
    let attempts := pinAttempts ip
    if attempts ≥ 3 then (pinAttempts, some (.message 429 "Too many attempts.")) else
    if requestPin = some pin then (pinAttempts, none) else
    if requestPin.any fun p => p ≠ "" then
      let pinAttempts' := Function.update pinAttempts ip (attempts + 1)
      if attempts = 2 then (pinAttempts', some (.message 429 "Too many attempts.")) else
      (pinAttempts', some (.message 401 "Invalid pin."))
    else (pinAttempts, some (.message 401 "Invalid pin."))

/-- `_prepareUploadHandler` up to its first await. -/
def prepareUpload (s : State) (r : RequestId) (req : PrepareRequest) (pin : Option String) :
    State :=
  match s.session with
  | some _ => s.respond r 409 "Blocked by another session"
  | none =>
    match checkPin s.pinAttempts req.ip pin req.pin with
    | (pinAttempts, some response) =>
      { s with pinAttempts := pinAttempts }.setTask r (.returned response)
    | (pinAttempts, none) => { s with pinAttempts := pinAttempts }.setTask r (.reading req)

/-- The body is read (`none`: it does not parse). -/
def readBody (s : State) (r : RequestId) (req : PrepareRequest)
    (dto : Option PrepareUploadRequestDto) (settings : Settings) : State :=
  match dto with
  | none => s.respond r 400 "Request body malformed"
  | some dto =>
    if dto.files.entries = [] then s.respond r 400 "Request must contain at least one file"
    else s.setTask r (.locating req dto settings)

/-- The files after the user's decision: the selected ones get the next tokens, in order. -/
def acceptFiles (files : LinkedMap String ReceivingFile) (selection : Selection)
    (tokens : List String) : LinkedMap String ReceivingFile :=
  let chosen := files.keys.filter fun id => (selection.get? id).isSome
  files.mapValues fun id f =>
    { file := f.file
      status := if (selection.get? id).isSome then .queue else .skipped
      token := (chosen.zip tokens).lookup id
      desiredName := selection.get? id
      path := none
      savedToGallery := false
      errorMessage := none }

/-- The tokens that go into the response. -/
def tokensOf (files : LinkedMap String ReceivingFile) : List (String × String) :=
  files.values.filterMap fun f => f.token.map fun token => (f.file.id, token)

/-- `_prepareUploadHandler` from the selection on: it acts on whatever session is there. -/
def resumeSelection (platform : Platform) (s : State) (r : RequestId) (v2 : Bool)
    (sessionId : String) (selection : Option Selection) (tokens : List String) : Option State :=
  match s.session with
  | none => some (s.respond r 500 "Server is in invalid state")
  | some session =>
    match selection with
    | none => some (s.closeSession.respond r 403 "File request declined by recipient")
    | some selection =>
      if selection.entries = [] then some (s.closeSession.setTask r (.returned (.empty 204))) else
      let chosen := session.files.keys.filter fun id => (selection.get? id).isSome
      if tokens.length = chosen.length ∧ s.fresh tokens = true then
        let files := acceptFiles session.files selection tokens
        let response := .prepared (if v2 then some sessionId else none) (tokensOf files)
        some ({ s with
          session := some { session with
            status := .sending
            files := files
            responseHandler := none }
          uuids := tokens ++ s.uuids }.setTask r
            (if platform.mobile then .permitting response else .returned response))
      else none

/-- The window is there: a message request is recorded before the user is asked. -/
def afterShown (s : State) (r : RequestId) (req : PrepareRequest) (sessionId : String) : State :=
  match s.session.bind ReceiveSessionState.message with
  | some _ => s.setTask r (.recordingMessage req sessionId)
  | none => s.setTask r (.deciding req sessionId)

/-- The quick-save rule of both handlers. -/
def isQuickSave (settings : Settings) (favorites : List Favorite) (session : ReceiveSessionState)
    (fingerprint : Option String) : Bool :=
  session.message.isNone &&
    (settings.quickSave || settings.quickSaveFromFavorites &&
      favorites.any fun f => some f.fingerprint = fingerprint)

/-- The session a request asks for. -/
def newSession (platform : Platform) (r : RequestId) (req : PrepareRequest)
    (dto : PrepareUploadRequestDto) (settings : Settings) (favorites : List Favorite)
    (destinationDir cacheDir sessionId : String) : ReceiveSessionState where
  sessionId := sessionId
  status := .waiting
  sender := dto.info.toDevice req.ip req.port req.https
  senderAlias := ((favorites.find? fun f => some f.fingerprint = dto.info.fingerprint).map
    Favorite.aliasName).getD dto.info.aliasName
  files := .ofList (dto.files.values.map fun file => (file.id, .queued file))
  startTime := none
  endTime := none
  destinationDirectory := destinationDir
  cacheDirectory := cacheDir
  saveToGallery := platform.withGallery && settings.saveToGallery &&
    dto.files.values.all fun f => !f.fileName.contains '/'
  responseHandler := some r

/-- `_prepareUploadHandler` after the directories are known: the session is stored, whatever was
    there; with quick save the code goes on without an await. -/
def createSession (platform : Platform) (s : State) (r : RequestId) (req : PrepareRequest)
    (dto : PrepareUploadRequestDto) (settings : Settings) (favorites : List Favorite)
    (defaultDir cacheDir sessionId : String) (tokens : List String) : Option State :=
  if s.fresh [sessionId] = true then
    let session := newSession platform r req dto settings favorites
      (settings.destination.getD defaultDir) cacheDir sessionId
    let s1 := { s with session := some session, uuids := sessionId :: s.uuids }
    if isQuickSave settings favorites session dto.info.fingerprint then
      resumeSelection platform s1 r req.v2 sessionId
        (some (.ofList (dto.files.values.map fun f => (f.id, f.fileName)))) tokens
    else if platform.hasTray then some (s1.setTask r (.showing req sessionId))
    else some (afterShown s1 r req sessionId)
  else none

/-! ## 4. Upload -/

/-- The checks of `_uploadHandler`, in their order. -/
def uploadGuards (session : Option ReceiveSessionState) (req : UploadRequest) :
    Except Response (ReceiveSessionState × String × ReceivingFile) :=
  match session with
  | none => .error (.message 409 "No session")
  | some receiveState =>
    if some req.ip ≠ receiveState.sender.ip then
      .error (.message 403 ("Invalid IP address: " ++ req.ip))
    else if !allowedStates receiveState.status then
      .error (.message 409 "Recipient is in wrong state")
    else
      match req.fileId, req.token with
      | some fileId, some token =>
        if req.v2 && req.sessionId.isNone then .error (.message 400 "Missing parameters")
        else if req.v2 && req.sessionId ≠ some receiveState.sessionId then
          .error (.message 403 "Invalid session id")
        else
          match receiveState.files.get? fileId with
          | some receivingFile =>
            if receivingFile.token = some token then .ok (receiveState, fileId, receivingFile)
            else .error (.message 403 "Invalid token")
          | none => .error (.message 403 "Invalid token")
      | _, _ => .error (.message 400 "Missing parameters")

/-- What the tail of `_uploadHandler` reads from outside. -/
structure UploadEnv where
  settings : Settings
  favorites : List Favorite
  now : Int
  deriving DecidableEq

/-- All files are done, one way or the other. -/
def ReceiveSessionState.isFinishedOrError (session : ReceiveSessionState) : Bool :=
  session.files.values.all fun f => f.status.isFinishedOrError

def ReceiveSessionState.hasError (session : ReceiveSessionState) : Bool :=
  session.files.values.any fun f => f.status = .failed

/-- The response of an upload: what the session says about the file. -/
def uploadResponse (session : ReceiveSessionState) (fileId : String) : Response :=
  if (session.files.get? fileId).any fun f => f.status = .finished then .empty 200
  else .message 500 "Could not save file. Check receiving device for more information."

/-- `_uploadHandler` after the `try`: the last file ends the session. -/
def finishUpload (s : State) (r : RequestId) (u : Upload) (env : UploadEnv) : State :=
  match s.session with
  | none => s.respond r 500 "Server is in invalid state"
  | some session =>
    if allowedStates session.status && session.isFinishedOrError then
      let session' := { session with
        status := if session.hasError then .finishedWithErrors else .finished
        endTime := some env.now }
      let quickSave := isQuickSave env.settings env.favorites session'
        (some session'.sender.fingerprint)
      { s with
        session := some session'
        closing := if quickSave then (r, u.sessionId) :: s.closing else s.closing }.setTask r
          (.returned (uploadResponse session' u.fileId))
    else s.setTask r (.returned (uploadResponse session u.fileId))

/-- `setState` with `session?.fileFinished`: `none` is the exception of `Map.update`. -/
def State.fileFinished (s : State) (fileId : String) (status : FileStatus) (path : Option String)
    (savedToGallery : Bool) (errorMessage : Option String) : Option State :=
  match s.session with
  | none => some s
  | some session =>
    (session.fileFinished fileId status path savedToGallery errorMessage).map fun session' =>
      { s with session := some session' }

/-- The `catch` of `_uploadHandler`: an exception in here leaves the handler. -/
def catchUpload (s : State) (r : RequestId) (u : Upload) (error : String) (env : UploadEnv) :
    State :=
  match s.fileFinished u.fileId .failed none false (some error) with
  | some s1 => finishUpload s1 r u env
  | none => s.setTask r .crashed

def nullCheckError : String := "Null check operator used on a null value"

/-- The text of the exception of `Map.update`. -/
def missingKeyError : String := "Invalid argument (key): Key not in map."

/-- `_uploadHandler` up to the await on `saveFile`. -/
def startUpload (s : State) (r : RequestId) (req : UploadRequest) (env : UploadEnv) : State :=
  match uploadGuards s.session req with
  | .error response => s.setTask r (.returned response)
  | .ok (receiveState, fileId, receivingFile) =>
    let u : Upload := ⟨receiveState.sessionId, receiveState.senderAlias, fileId, receivingFile⟩
    let s1 := { s with
      session := some { receiveState with
        files := receiveState.files.insert fileId { receivingFile with status := .sending }
        startTime := some (receiveState.startTime.getD env.now)
        status := .sending } }
    match receivingFile.desiredName with
    | some _ => s1.setTask r (.saving u)
    | none => catchUpload s1 r u nullCheckError env

/-- `saveFile` returned or threw. The session is read again; only its status is looked at. -/
def afterSave (s : State) (r : RequestId) (u : Upload)
    (result : Except String (Bool × Option String)) (env : UploadEnv) : State :=
  match result with
  | .error e => catchUpload s r u e env
  | .ok (savedToGallery, filePath) =>
    if s.session.any fun session => allowedStates session.status then
      match s.fileFinished u.fileId .finished filePath savedToGallery none with
      | some s1 => s1.setTask r (.recording u)
      | none => catchUpload s r u missingKeyError env
    else s.respond r 500 "Server is in invalid state"

/-- The history entry is written, or not. -/
def afterRecord (s : State) (r : RequestId) (u : Upload) (result : Except String Unit)
    (env : UploadEnv) : State :=
  match result with
  | .ok _ => finishUpload s r u env
  | .error e => catchUpload s r u e env

/-! ## 5. Cancel, and the user -/

/-- `_cancelBySender`. -/
def ReceiveSessionState.cancelBySender (session : ReceiveSessionState) (now : Int) :
    ReceiveSessionState :=
  { session with status := .canceledBySender, endTime := some now }

/-- `_cancelHandler`, the part about the receive session. -/
def cancelHandler (s : State) (r : RequestId) (req : CancelRequest) (now : Int) : State :=
  match s.session with
  | none => s
  | some session =>
    if !req.v2 && session.sender.version ≠ "1.0" then s.respond r 403 "No permission"
    else if session.sender.ip ≠ some req.ip then s.respond r 403 "No permission"
    else if req.v2 && session.status ≠ .waiting && req.sessionId ≠ some session.sessionId then
      s.respond r 403 "No permission"
    else if session.status ≠ .waiting && session.status ≠ .sending then
      s.respond r 403 "No permission"
    else { s with session := some (session.cancelBySender now) }.setTask r (.returned (.empty 200))

/-- `acceptFileRequest` and `declineFileRequest`: the first answer closes the stream. -/
def State.answer (s : State) (selection : Option Selection) : State :=
  match s.session.bind ReceiveSessionState.responseHandler with
  | none => s
  | some r => if r ∈ s.answers.keys then s else { s with answers := s.answers.insert r selection }

def State.mapSession (s : State) (f : ReceiveSessionState → ReceiveSessionState) : State :=
  { s with session := s.session.map f }

/-! ## 6. The machine -/

inductive Event where
  /-- a prepare-upload request arrives; `pin` is the configured one -/
  | prepareUpload (r : RequestId) (req : PrepareRequest) (pin : Option String)
  | readBody (r : RequestId) (dto : Option PrepareUploadRequestDto) (settings : Settings)
  | createSession (r : RequestId) (favorites : List Favorite)
      (defaultDir cacheDir sessionId : String) (tokens : List String)
  | shown (r : RequestId)
  | messageRecorded (r : RequestId)
  /-- the handler wakes up with the answer of its stream -/
  | decided (r : RequestId) (tokens : List String)
  | permitted (r : RequestId)
  | upload (r : RequestId) (req : UploadRequest) (env : UploadEnv)
  | saved (r : RequestId) (result : Except String (Bool × Option String)) (env : UploadEnv)
  | recorded (r : RequestId) (result : Except String Unit) (env : UploadEnv)
  | delayedClose (r : RequestId)
  | cancel (r : RequestId) (req : CancelRequest) (now : Int)
  | acceptFileRequest (selection : Selection)
  | declineFileRequest
  | closeSession
  | cancelSession
  | setSessionDestinationDir (destinationDirectory : String)
  | setSessionSaveToGallery (saveToGallery : Bool)

def step (platform : Platform) (s : State) : Event → Option State
  | .prepareUpload r req pin => if r ∈ s.tasks.keys then none else some (prepareUpload s r req pin)
  | .readBody r dto settings =>
    match s.tasks.get? r with
    | some (.reading req) => some (readBody s r req dto settings)
    | _ => none
  | .createSession r favorites defaultDir cacheDir sessionId tokens =>
    match s.tasks.get? r with
    | some (.locating req dto settings) =>
      createSession platform s r req dto settings favorites defaultDir cacheDir sessionId tokens
    | _ => none
  | .shown r =>
    match s.tasks.get? r with
    | some (.showing req sessionId) => some (afterShown s r req sessionId)
    | _ => none
  | .messageRecorded r =>
    match s.tasks.get? r with
    | some (.recordingMessage req sessionId) => some (s.setTask r (.deciding req sessionId))
    | _ => none
  | .decided r tokens =>
    match s.tasks.get? r, s.answers.get? r with
    | some (.deciding req sessionId), some selection =>
      resumeSelection platform s r req.v2 sessionId selection tokens
    | _, _ => none
  | .permitted r =>
    match s.tasks.get? r with
    | some (.permitting response) => some (s.setTask r (.returned response))
    | _ => none
  | .upload r req env => if r ∈ s.tasks.keys then none else some (startUpload s r req env)
  | .saved r result env =>
    match s.tasks.get? r with
    | some (.saving u) => some (afterSave s r u result env)
    | _ => none
  | .recorded r result env =>
    match s.tasks.get? r with
    | some (.recording u) => some (afterRecord s r u result env)
    | _ => none
  | .delayedClose r =>
    match s.closing.lookup r with
    | some _ => some { s with closing := s.closing.filter fun c => c.1 ≠ r }.closeSession
    | none => none
  | .cancel r req now => if r ∈ s.tasks.keys then none else some (cancelHandler s r req now)
  | .acceptFileRequest selection => some (s.answer (some selection))
  | .declineFileRequest => some (s.answer none)
  | .closeSession | .cancelSession => some s.closeSession
  | .setSessionDestinationDir dir =>
    some (s.mapSession fun session => { session with destinationDirectory := dir.replace "\\" "/" })
  | .setSessionSaveToGallery saveToGallery =>
    some (s.mapSession fun session => { session with saveToGallery := saveToGallery })

/-- **The receive side of the HTTP server.** -/
def controller (platform : Platform) : Machine State Event := ⟨step platform⟩

end LocalSend.Receive
