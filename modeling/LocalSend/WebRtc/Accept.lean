/-
  File:      LocalSend/WebRtc/Accept.lean
  Subject:   THE RECEIVING PEER: the task of `accept_offer` (`core/src/webrtc/peer.rs`).

  * `Phase` -- the points at which the task waits, for a message or for its app;
  * one function for each stretch of code between two such points, under the name of what
    arrives (`onNonce`, `onToken`, `onPin`, ...);
  * `acceptOffer` -- the task as a process;
  * `sent`, `got` -- what was said and understood, message by message.

  The app keeps its ends of the channels open; where it answers, the answers are data of the run:
  the PINs its user enters (`none`: the dialog is dismissed), the selection, the result it reports
  for each file, and which blocks its file channels take.
-/
import LocalSend.WebRtc.Messages

namespace LocalSend.WebRtc.Accept

open Lib

/-! ## 1. State -/

/-- What the user selects: nothing yet, the dialog dropped, declined, or some files. -/
inductive Selection where
  | pending
  | dropped
  | declined
  | files (ids : List String)
  deriving DecidableEq, Repr

structure Config where
  auth : RTCAuthConfig
  localNonce : Nonce
  /-- The token made for each selected file (`Uuid::new_v4`). -/
  fileToken : String → String
  selection : Selection
  /-- Does the app take the `n`th block that is forwarded to it? -/
  takes : Nat → Bool

/-- `RTCFileState`: the open file, and the place of its channel among those published. -/
structure RTCFileState where
  fileId : String
  binaryTx : Nat
  deriving DecidableEq, Repr

/-- The local variables of the receive loop that do not change. -/
structure Incoming where
  fileList : List FileDto
  fileTokens : LinkedMap String String
  deriving DecidableEq, Repr

inductive Phase where
  | nonce
  | token (remoteNonce : Bytes)
  | pinStart (pin : PinConfig)
  | pinMessage (pin : PinConfig) (pinTry : Nat)
  | pinStatus (buffer : Bytes)
  | pinPrompt
  | pinResult (buffer : Bytes)
  | selection
  | files (incoming : Incoming) (fileState : Option RTCFileState)
  | fileResult
  | header (incoming : Incoming) (msg : Message)
  | ended (result : Except Error Unit)
  deriving DecidableEq

/-- The phases past the PIN stage. -/
def Phase.past : Phase → Bool
  | .selection | .files _ _ | .fileResult | .header _ _ | .ended _ => true
  | _ => false

structure State where
  phase : Phase
  onFail : OnFail := .plain
  statuses : List RTCStatus := []
  /-- What went out on `files_tx`. -/
  published : Option (List FileDto) := none
  /-- What went out on `receiving_tx`, with the blocks forwarded to each file. -/
  receiving : List RTCFile := []
  forwarded : Nat := 0
  errors : List RTCFileError := []
  pins : List (Option String)
  results : List (Option RTCSendFileResponse)
  sent : List Item := []
  got : List Item := []

variable (w : Wire) (c : Config)

/-! ## 2. The code between two waits -/

/-- On to the next point, with nothing to send. -/
def State.goto (s : State) (phase : Phase) : Batch Message State := ⟨{ s with phase := phase }, []⟩

def State.fail (s : State) (e : Error) : Batch Message State := s.goto (.ended (.error e))

/-- Send an item, then on to the next point. -/
def State.say (s : State) (item : Item) (onFail : OnFail) (phase : Phase) :
    Batch Message State :=
  ⟨{ s with phase := phase, onFail := onFail, sent := s.sent ++ [item] }, item.messages w⟩

def State.heard (s : State) (item : Item) : State := { s with got := s.got ++ [item] }

def State.status (s : State) (status : RTCStatus) : State :=
  { s with statuses := s.statuses ++ [status] }

def State.error (s : State) (fileId text : String) : State :=
  { s with errors := s.errors ++ [⟨fileId, text⟩] }

def onNonce (s : State) (m : Option Message) : Batch Message State :=
  match receiveNonce w m with
  | .error e => s.fail e
  | .ok (msg, remoteNonce) =>
    (s.heard (.nonce msg)).say w (.nonce ⟨w.base64Encode c.localNonce.1⟩)
      (.context "Failed to send nonce: ") (.token remoteNonce)

/-- The final nonce is `sender_nonce || receiver_nonce`. -/
def onToken (s : State) (remoteNonce : Bytes) (m : Option Message) : Batch Message State :=
  let nonce := remoteNonce ++ c.localNonce.1
  match expectString "Failed to receive token" m with
  | .error e => s.fail e
  | .ok data =>
    match w.tokenRequest.decode data with
    | none => s.fail (.parse "")
    | some request =>
      let s := s.heard (.tokenRequest request)
      if tokenVerified c.auth.expectingPublicKey request.token nonce = false then
        s.say w (.tokenResponse .invalidSignature) .plain
          (.ended (.error (.text "Invalid token signature or nonce")))
      else
        match c.auth.signingKey nonce with
        | none => s.fail (.text "Failed to generate token")
        | some localToken =>
          match c.auth.pin with
          | some pin =>
            s.say w (.tokenResponse (.pinRequired localToken)) (.context "Failed to send token: ")
              (.pinStart pin)
          | none =>
            s.say w (.tokenResponse (.ok localToken)) (.context "Failed to send token: ")
              (.pinStatus [])

/-- The head of the loop of `verify_pin`, without the initial notice. -/
def checkPin (s : State) (pin : PinConfig) (remotePin : String) (pinTry : Nat) :
    Batch Message State :=
  match verifyPin pin false remotePin pinTry with
  | .passed => s.say w (.pinReceiving .ok) .plain (.pinStatus [])
  | .tooManyAttempts =>
    (s.status .tooManyAttempts).say w (.pinReceiving .tooManyAttempts) .ignore
      (.ended (.error (.text "Too many requests")))
  | .receive true => s.say w (.pinReceiving .pinRequired) .plain (.pinMessage pin pinTry)
  | .receive false => s.goto (.pinMessage pin pinTry)

/-- A PIN message; unlike the others it may be binary. -/
def onPin (s : State) (pin : PinConfig) (pinTry : Nat) : Option Message → Batch Message State
  | none => s.fail (.text "Failed to receive pin")
  | some msg =>
    match w.pinMessage.decode msg.data with
    | none => s.fail (.parse "")
    | some request => checkPin w (s.heard (.pin request)) pin request.pin (pinTry + 1)

/-- The head of the loop of `handle_pin`. -/
def promptPin (s : State) : Batch Message State :=
  let s := s.status .pinRequired
  match s.pins with
  | [] => s.goto .pinPrompt
  | none :: pins => State.fail { s with pins := pins } (.text "PIN required but not provided")
  | some pin :: pins => State.say w { s with pins := pins } (.pin ⟨pin⟩) .plain (.pinResult [])

/-- Past the PIN stage: publish the file list, and answer it with the selection. -/
def connected (s : State) (fileList : List FileDto) : Batch Message State :=
  let s := { s.status .connected with published := some fileList }
  match c.selection with
  | .pending => s.goto .selection
  | .dropped => s.goto (.ended (.ok ()))
  | .declined => s.say w (.fileList .declined) .plain (.ended (.ok ()))
  | .files ids =>
    let fileTokens := LinkedMap.ofList (ids.map fun id => (id, c.fileToken id))
    s.say w (.fileList (.ok fileTokens)) .plain (.files ⟨fileList, fileTokens⟩ none)

/-- The first status of the sender, read as a whole. -/
def onPinStatus (s : State) (bytes : Bytes) : Batch Message State :=
  match w.pinSendingResponse.decode bytes with
  | none => s.fail (.parse "Failed to deserialize file list response")
  | some response =>
    let s := s.heard (.pinSending response)
    match response with
    | .ok files => connected w c s files
    | .pinRequired => promptPin w s
    | .tooManyAttempts =>
      (s.status (.error "Unexpected TooManyAttempts response")).fail
        (.text "Unexpected TooManyAttempts response")

/-- The sender's answer to a PIN, read as a whole. -/
def onPinResult (s : State) (bytes : Bytes) : Batch Message State :=
  match w.pinSendingResponse.decode bytes with
  | none => s.fail (.text "Failed to parse pin response")
  | some response =>
    let s := s.heard (.pinSending response)
    match response with
    | .ok files => connected w c s files
    | .pinRequired => promptPin w s
    | .tooManyAttempts => (s.status .tooManyAttempts).fail (.text "Too many requests")

/-! ## 3. The receive loop -/

/-- The error a reported result stands for. -/
def resultError : Option RTCSendFileResponse → Option String
  | none => some "Failed to receive file result"
  | some result => if result.success then none else some (result.error.getD "Unknown error")

/-- The response for a file that ended, from the result the app reported. -/
def fileResponse (fileId : String) (result : Option RTCSendFileResponse) : RTCSendFileResponse :=
  ⟨fileId, (resultError result).isNone, resultError result⟩

/-- Why a header is refused; `none`: it is not. -/
def Incoming.refuses (incoming : Incoming) (header : RTCSendFileHeaderRequest) : Option String :=
  match incoming.fileTokens.get? header.id with
  | some entry =>
    if header.token ≠ entry then some "Invalid token"
    else if ¬ incoming.fileList.any (fun f => f.id == header.id) then
      some "File not found in file list"
    else none
  | none => some "File not found"

/-- The second half of a text message: it is the header of the next file. -/
def onHeader (s : State) (incoming : Incoming) (msg : Message) : Batch Message State :=
  match w.sendFileHeaderRequest.decode msg.data with
  | none => s.fail (.parse "")
  | some header =>
    let s := s.heard (.header header)
    match incoming.refuses header with
    | some text => (s.error header.id text).goto (.files incoming none)
    | none =>
      State.goto { s with receiving := s.receiving ++ [⟨header.id, []⟩] }
        (.files incoming (some ⟨header.id, s.receiving.length⟩))

/-- A binary message: one more block of the open file. -/
def onBlock (s : State) (incoming : Incoming) (fileState : Option RTCFileState) (data : Bytes) :
    Batch Message State :=
  match fileState with
  | some state =>
    if c.takes s.forwarded then
      State.goto
        { s with
          receiving := s.receiving.modify state.binaryTx fun file =>
            { file with blocks := file.blocks ++ [data] }
          forwarded := s.forwarded + 1 }
        (.files incoming fileState)
    else s.fail (.text "channel closed")
  | none =>
    (s.error "unknown" "Received binary data without a header").goto (.files incoming none)

/-- A message of the receive loop. A text message ends the open file: its result is waited for and
    sent back; only then, and only if a file was open, the delimiter ends the loop. -/
def onFiles (s : State) (incoming : Incoming) (fileState : Option RTCFileState) :
    Option Message → Batch Message State
  | none => s.goto (.ended (.ok ()))
  | some msg =>
    if msg.isString then
      match fileState with
      | some state =>
        match s.results with
        | [] => s.goto .fileResult
        | result :: results =>
          State.say w { s with results := results }
            (.fileResponse (fileResponse state.fileId result)) .plain
            (if isDelimiter msg then .ended (.ok ()) else .header incoming msg)
      | none => onHeader w s incoming msg
    else onBlock c s incoming fileState msg.data

/-! ## 4. The task -/

/-- What the task does at each point. -/
def react (s : State) : Reaction Message State :=
  match s.phase with
  | .nonce => .recv (onNonce w c s)
  | .token remoteNonce => .recv (onToken w c s remoteNonce)
  | .pinStart pin => .tau (checkPin w (s.status .pinRequired) pin "" 0)
  | .pinMessage pin pinTry => .recv (onPin w s pin pinTry)
  | .pinStatus buffer => .recv fun m =>
    match receiveStringFromChunks buffer m with
    | .more buffer => s.goto (.pinStatus buffer)
    | .complete bytes => onPinStatus w c s bytes
  | .pinResult buffer => .recv fun m =>
    match receiveStringFromChunks buffer m with
    | .more buffer => s.goto (.pinResult buffer)
    | .complete bytes => onPinResult w c s bytes
  | .files incoming fileState => .recv (onFiles w c s incoming fileState)
  | .header incoming msg => .tau (onHeader w s incoming msg)
  | .pinPrompt | .selection | .fileResult => .wait
  | .ended _ => .done

/-- A send that failed. -/
def failed (s : State) (e : String) : State :=
  match s.onFail with
  | .context text => { s with phase := .ended (.error (.text (text ++ e))) }
  | .ignore => s
  | _ => { s with phase := .ended (.error (.send e)) }

/-- **The task of `accept_offer`.** -/
def acceptOffer : Process Message (Batch Message State) := Process.batched (react w c) failed

/-- Its state before the first message. -/
def initial (pins : List (Option String)) (results : List (Option RTCSendFileResponse)) : State :=
  { phase := .nonce, pins := pins, results := results }

/-! ## 5. The messages of an honest sender -/

variable {w c} {s : State}

/-- **A nonce** is answered with the own one. -/
theorem feed_nonce (hp : s.phase = .nonce) {n : Bytes} (hn : validateNonce n = true) :
    (acceptOffer w c).Feed ⟨s, []⟩ (Item.messages w (.nonce ⟨w.base64Encode n⟩))
      ⟨((s.heard (.nonce ⟨w.base64Encode n⟩)).say w (.nonce ⟨w.base64Encode c.localNonce.1⟩)
        (.context "Failed to send nonce: ") (.token n)).state, []⟩
      (Item.messages w (.nonce ⟨w.base64Encode c.localNonce.1⟩)) := by
  refine Process.feed_recv (k := onNonce w c s) (by simp only [react, hp]) ?_
  have hok : receiveNonce w (some (textMessage (w.nonceMessage.encode ⟨w.base64Encode n⟩))) =
      .ok (⟨w.base64Encode n⟩, n) :=
    receiveNonce_ok.mpr ⟨_, rfl, w.nonceMessage.decode_encode _, w.base64_decode_encode _, hn⟩
  unfold onNonce
  rw [hok]
  rfl

/-- The answer to a token that verifies. -/
def tokenAnswer (c : Config) (localToken : String) : RTCTokenResponse :=
  match c.auth.pin with
  | some _ => .pinRequired localToken
  | none => .ok localToken

/-- The point after that answer. -/
def afterToken (c : Config) : Phase :=
  match c.auth.pin with
  | some pin => .pinStart pin
  | none => .pinStatus []

/-- **A token that verifies** is answered with the own one. -/
theorem feed_token {remoteNonce : Bytes} (hp : s.phase = .token remoteNonce)
    {token localToken : String}
    (hver : tokenVerified c.auth.expectingPublicKey token (remoteNonce ++ c.localNonce.1) = true)
    (hsign : c.auth.signingKey (remoteNonce ++ c.localNonce.1) = some localToken) :
    (acceptOffer w c).Feed ⟨s, []⟩ (Item.messages w (.tokenRequest ⟨token⟩))
      ⟨((s.heard (.tokenRequest ⟨token⟩)).say w (.tokenResponse (tokenAnswer c localToken))
        (.context "Failed to send token: ") (afterToken c)).state, []⟩
      (Item.messages w (.tokenResponse (tokenAnswer c localToken))) := by
  refine Process.feed_recv (k := onToken w c s remoteNonce) (by simp only [react, hp]) ?_
  simp only [onToken, expectString_text, Codec.decode_encode, hver, hsign, Bool.true_eq_false, if_false,
    tokenAnswer, afterToken]
  cases c.auth.pin <;> rfl

theorem checkPin_passed (pin : PinConfig) (pinTry : Nat) :
    checkPin w s pin pin.pin pinTry = s.say w (.pinReceiving .ok) .plain (.pinStatus []) := by
  simp [checkPin, verifyPin]

/-- A wrong PIN, with tries left. -/
theorem checkPin_again {pin : PinConfig} {remotePin : String} {pinTry : Nat}
    (hne : remotePin ≠ pin.pin) (hlt : pinTry + 1 < pin.maxTries.toNat) :
    checkPin w s pin remotePin (pinTry + 1) =
      s.say w (.pinReceiving .pinRequired) .plain (.pinMessage pin (pinTry + 1)) := by
  simp [checkPin, verifyPin, hne, Nat.not_le.mpr hlt]

/-- Before the first PIN nothing is sent. -/
theorem checkPin_first {pin : PinConfig} (hne : pin.pin ≠ "") (hmax : 0 < pin.maxTries.toNat) :
    checkPin w s pin "" 0 = s.goto (.pinMessage pin 0) := by
  simp [checkPin, verifyPin, Ne.symm hne, Nat.not_le.mpr hmax]

theorem promptPin_some {pin : String} {pins : List (Option String)}
    (h : s.pins = some pin :: pins) :
    promptPin w s = State.say w { s.status .pinRequired with pins := pins } (.pin ⟨pin⟩) .plain
      (.pinResult []) := by
  have h' : (s.status .pinRequired).pins = some pin :: pins := h
  simp only [promptPin, h']

/-- **The PIN stage begins**: the code before the first PIN message. -/
theorem feed_pinStart {pin : PinConfig} (hp : s.phase = .pinStart pin)
    {b : Batch Message State} (hb : checkPin w (s.status .pinRequired) pin "" 0 = b) :
    (acceptOffer w c).Feed ⟨s, []⟩ [] ⟨b.state, []⟩ b.out :=
  Process.feed_tau (by simp only [react, hp, hb])

/-- **A PIN message.** -/
theorem feed_pin {pin : PinConfig} {pinTry : Nat} (hp : s.phase = .pinMessage pin pinTry)
    {remotePin : String} {b : Batch Message State}
    (hb : checkPin w (s.heard (.pin ⟨remotePin⟩)) pin remotePin (pinTry + 1) = b) :
    (acceptOffer w c).Feed ⟨s, []⟩ (Item.messages w (.pin ⟨remotePin⟩)) ⟨b.state, []⟩ b.out := by
  refine Process.feed_recv (k := onPin w s pin pinTry) (by simp only [react, hp]) ?_
  simp only [onPin, data_textMessage, Codec.decode_encode]
  exact hb

theorem connected_phase (phase : Phase) (files : List FileDto) :
    connected w c { s with phase := phase } files = connected w c s files := by
  unfold connected
  cases c.selection <;> rfl

theorem promptPin_phase (phase : Phase) :
    promptPin w { s with phase := phase } = promptPin w s := by
  unfold promptPin
  simp only [State.status]
  split <;> rfl

theorem onPinStatus_ok (phase : Phase) (files : List FileDto) :
    onPinStatus w c { s with phase := phase } (w.pinSendingResponse.encode (.ok files)) =
      connected w c (s.heard (.pinSending (.ok files))) files := by
  simp only [onPinStatus, Codec.decode_encode]
  exact connected_phase (s := s.heard (.pinSending (.ok files))) phase files

theorem onPinStatus_pinRequired (phase : Phase) :
    onPinStatus w c { s with phase := phase } (w.pinSendingResponse.encode .pinRequired) =
      promptPin w (s.heard (.pinSending .pinRequired)) := by
  simp only [onPinStatus, Codec.decode_encode]
  exact promptPin_phase (s := s.heard (.pinSending .pinRequired)) phase

theorem onPinResult_ok (phase : Phase) (files : List FileDto) :
    onPinResult w c { s with phase := phase } (w.pinSendingResponse.encode (.ok files)) =
      connected w c (s.heard (.pinSending (.ok files))) files := by
  simp only [onPinResult, Codec.decode_encode]
  exact connected_phase (s := s.heard (.pinSending (.ok files))) phase files

theorem onPinResult_pinRequired (phase : Phase) :
    onPinResult w c { s with phase := phase } (w.pinSendingResponse.encode .pinRequired) =
      promptPin w (s.heard (.pinSending .pinRequired)) := by
  simp only [onPinResult, Codec.decode_encode]
  exact promptPin_phase (s := s.heard (.pinSending .pinRequired)) phase

/-- **The sender's first status**, in whatever chunks it comes. -/
theorem feed_pinStatus (hp : s.phase = .pinStatus []) {chunks : List Bytes}
    {b : Batch Message State}
    (hb : ∀ phase, onPinStatus w c { s with phase := phase } chunks.flatten = b) :
    (acceptOffer w c).Feed ⟨s, []⟩ (chunks.map binaryMessage ++ [delimiter]) ⟨b.state, []⟩ b.out := by
  have hreact : ∀ buffer, react w c { s with phase := .pinStatus buffer } = .recv fun m =>
      match receiveStringFromChunks buffer m with
      | .more buffer => ⟨{ s with phase := .pinStatus buffer }, []⟩
      | .complete bytes => onPinStatus w c { s with phase := .pinStatus buffer } bytes := fun _ => rfl
  have hs : s = { s with phase := .pinStatus [] } := by rw [← hp]
  rw [hs]
  exact feed_chunks _ _ hreact chunks fun buffer => hb _

/-- **The sender's answer to a PIN.** -/
theorem feed_pinResult (hp : s.phase = .pinResult []) (response : RTCPinSendingResponse)
    {b : Batch Message State}
    (hb : ∀ phase, onPinResult w c { s with phase := phase }
      (w.pinSendingResponse.encode response) = b) :
    (acceptOffer w c).Feed ⟨s, []⟩ (Item.messages w (.pinSending response)) ⟨b.state, []⟩ b.out := by
  have hreact : ∀ buffer, react w c { s with phase := .pinResult buffer } = .recv fun m =>
      match receiveStringFromChunks buffer m with
      | .more buffer => ⟨{ s with phase := .pinResult buffer }, []⟩
      | .complete bytes => onPinResult w c { s with phase := .pinResult buffer } bytes := fun _ => rfl
  have hs : s = { s with phase := .pinResult [] } := by rw [← hp]
  rw [hs]
  exact feed_string _ _ hreact _ fun buffer => hb _

end LocalSend.WebRtc.Accept
