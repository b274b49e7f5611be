/-
  File:      LocalSend/WebRtc/Send.lean
  Subject:   THE SENDING PEER: the task of `send_offer` (`core/src/webrtc/peer.rs`).

  * `Phase` -- the points at which the task waits, for a message or for its app;
  * one function for each stretch of code between two such points;
  * `onSending` -- one round of the sending loop: the next file, its header and its chunks;
  * `sendOffer` -- the task as a process.

  The app keeps its ends of the channels open. Its answers are data of the run: the PINs its user
  enters, the answer to a pair request, and the files it hands over for sending, each as the blocks
  of its channel.
-/
import LocalSend.WebRtc.Messages

namespace LocalSend.WebRtc.Send

open Lib

/-! ## 1. State -/

/-- What becomes of a pair request: the app does not take it, does not answer, drops it, or
    answers. -/
inductive PairAnswer where
  | refused
  | pending
  | dropped
  | answered (accept : Bool)
  deriving DecidableEq, Repr

structure Config where
  auth : RTCAuthConfig
  localNonce : Nonce
  files : List FileDto
  /-- `parse_public_key`, on the key and the signature method. -/
  parsePublicKey : String → String → Option VerifyingTokenKey
  pairAnswer : PairAnswer

inductive Phase where
  | start
  | nonce
  | tokenResponse
  | pinPrompt
  | pinResult
  | pinStart
  | pinMessage (pin : PinConfig) (pinTry : Nat)
  | fileList (buffer : Bytes)
  | pairPrompt
  | pairedFileList (buffer : Bytes)
  | sending (fileMap : LinkedMap String String)
  | lastResponse
  | ended (result : Except Error Unit)
  deriving DecidableEq

/-- The phases past the PIN stage. -/
def Phase.past : Phase → Bool
  | .fileList _ | .pairPrompt | .pairedFileList _ | .sending _ | .lastResponse | .ended _ => true
  | _ => false

structure State where
  phase : Phase
  onFail : OnFail := .plain
  /-- `sender_nonce || receiver_nonce`, once both are known. -/
  nonce : Bytes := []
  remoteToken : String := ""
  statuses : List RTCStatus := []
  /-- What went out on `selected_files_tx`. -/
  selected : Option (List String) := none
  errors : List RTCFileError := []
  pins : List (Option String)
  /-- The files still to come on `sending_rx`. -/
  sending : List RTCFile
  sent : List Item := []
  got : List Item := []

variable (w : Wire) (c : Config)

/-! ## 2. The code between two waits -/

/-- On to the next point, with nothing to send. -/
def State.goto (s : State) (phase : Phase) : Batch Message State := ⟨{ s with phase := phase }, []⟩

def State.fail (s : State) (e : Error) : Batch Message State := s.goto (.ended (.error e))

/-- Send an item, then on to the next point. -/
def State.say (s : State) (item : Item) (onFail : OnFail) (phase : Phase) :
    Batch Message State :=
  ⟨{ s with phase := phase, onFail := onFail, sent := s.sent ++ [item] }, item.messages w⟩

def State.heard (s : State) (item : Item) : State := { s with got := s.got ++ [item] }

def State.status (s : State) (status : RTCStatus) : State :=
  { s with statuses := s.statuses ++ [status] }

def State.error (s : State) (fileId text : String) : State :=
  { s with errors := s.errors ++ [⟨fileId, text⟩] }

/-- The sender speaks first. -/
def onStart (s : State) : Batch Message State :=
  s.say w (.nonce ⟨w.base64Encode c.localNonce.1⟩) (.context "Failed to send nonce: ") .nonce

def onNonce (s : State) (m : Option Message) : Batch Message State :=
  match receiveNonce w m with
  | .error e => s.fail e
  | .ok (msg, remoteNonce) =>
    let nonce := c.localNonce.1 ++ remoteNonce
    let s := { s.heard (.nonce msg) with nonce := nonce }
    match c.auth.signingKey nonce with
    | none => s.fail (.text "Failed to generate token")
    | some localToken =>
      s.say w (.tokenRequest ⟨localToken⟩) (.context "Failed to send token: ") .tokenResponse

/-- The head of the loop of `handle_pin`. -/
def promptPin (s : State) : Batch Message State :=
  let s := s.status .pinRequired
  match s.pins with
  | [] => s.goto .pinPrompt
  | none :: pins => State.fail { s with pins := pins } (.text "PIN required but not provided")
  | some pin :: pins => State.say w { s with pins := pins } (.pin ⟨pin⟩) .plain .pinResult

/-- A token in the response of the receiver. -/
def onRemoteToken (s : State) (token : String) (pinRequired : Bool) : Batch Message State :=
  if tokenVerified c.auth.expectingPublicKey token s.nonce = false then
    s.fail (.text "Invalid token signature or nonce")
  else
    let s := { s with remoteToken := token }
    if pinRequired then promptPin w s else s.goto .pinStart

def onTokenResponse (s : State) (m : Option Message) : Batch Message State :=
  match expectString "Failed to receive token response" m with
  | .error e => s.fail e
  | .ok data =>
    match w.tokenResponse.decode data with
    | none => s.fail (.parse "")
    | some response =>
      let s := s.heard (.tokenResponse response)
      match response with
      | .ok token => onRemoteToken w c s token false
      | .pinRequired token => onRemoteToken w c s token true
      | .invalidSignature => s.fail (.text "Invalid token signature from receiving peer")

/-- The receiver's answer to a PIN. -/
def onPinResult (s : State) (m : Option Message) : Batch Message State :=
  match expectString "Failed to receive initial message" m with
  | .error e => s.fail e
  | .ok data =>
    match w.pinReceivingResponse.decode data with
    | none => s.fail (.text "Failed to parse pin response")
    | some response =>
      let s := s.heard (.pinReceiving response)
      match response with
      | .ok => s.goto .pinStart
      | .pinRequired => promptPin w s
      | .tooManyAttempts => (s.status .tooManyAttempts).fail (.text "Too many requests")

/-- Past the PIN stage: the file list goes out. -/
def connected (s : State) : Batch Message State :=
  (s.status .connected).say w (.pinSending (.ok c.files)) .fileList (.fileList [])

/-- The head of the loop of `verify_pin`, with the initial notice. -/
def checkPin (s : State) (pin : PinConfig) (remotePin : String) (pinTry : Nat) :
    Batch Message State :=
  match verifyPin pin true remotePin pinTry with
  | .passed => connected w c s
  | .tooManyAttempts =>
    (s.status .tooManyAttempts).say w (.pinSending .tooManyAttempts) .ignore
      (.ended (.error (.text "Too many requests")))
  | .receive true => s.say w (.pinSending .pinRequired) .plain (.pinMessage pin pinTry)
  | .receive false => s.goto (.pinMessage pin pinTry)

/-- The sender's own challenge, if it has a PIN. -/
def onPinStart (s : State) : Batch Message State :=
  match c.auth.pin with
  | some pin => checkPin w c (s.status .pinRequired) pin "" 0
  | none => connected w c s

/-- A PIN message; unlike the others it may be binary. -/
def onPin (s : State) (pin : PinConfig) (pinTry : Nat) : Option Message → Batch Message State
  | none => s.fail (.text "Failed to receive pin")
  | some msg =>
    match w.pinMessage.decode msg.data with
    | none => s.fail (.parse "")
    | some request => checkPin w c (s.heard (.pin request)) pin request.pin (pinTry + 1)

/-! ## 3. The file tokens -/

/-- `extract_signature_identifier`: the fourth part of a token. -/
def extractSignatureIdentifier (token : String) : Option String :=
  (token.splitOn ".")[3]?

/-- The selection is published, then the files are sent. -/
def selected (s : State) (fileMap : LinkedMap String String) : Batch Message State :=
  State.goto { s with selected := some fileMap.keys } (.sending fileMap)

/-- A pair request: its key must verify the token the receiver has shown. -/
def onPairRequest (s : State) (publicKey : String) : Batch Message State :=
  match extractSignatureIdentifier s.remoteToken with
  | none => s.fail (.text "Failed to extract signature identifier")
  | some identifier =>
    match c.parsePublicKey publicKey identifier with
    | none => s.fail (.parse "")
    | some key =>
      if key s.remoteToken s.nonce = false then
        s.say w (.pairResponse .invalidSignature) .plain
          (.ended (.error (.text "Invalid token signature or nonce")))
      else
        match c.pairAnswer with
        | .refused => s.fail (.text "Failed to send pair response")
        | .pending => s.goto .pairPrompt
        | .dropped => s.fail (.text "channel closed")
        | .answered true =>
          s.say w (.pairResponse (.ok publicKey)) .plain (.pairedFileList [])
        | .answered false => s.say w (.pairResponse .pairDeclined) .plain (.pairedFileList [])

/-- The answer to the file list, read as a whole; `paired`: the one after a pair request. -/
def onFileList (s : State) (paired : Bool) (bytes : Bytes) : Batch Message State :=
  match w.fileListResponse.decode bytes with
  | none => s.fail (.parse "Failed to deserialize file list response")
  | some response =>
    let s := s.heard (.fileList response)
    match response with
    | .ok fileMap => selected s fileMap
    | .pair publicKey =>
      if paired then
        (s.status (.error "Unexpected pair response")).fail (.text "Unexpected pair response")
      else onPairRequest w c s publicKey
    | .declined => (s.status .declined).goto (.ended (.ok ()))
    | .invalidSignature =>
      (s.status (.error "Invalid signature (not expected)")).fail
        (.text "Invalid signature (not expected)")

/-! ## 4. The sending loop -/

/-- One round of the sending loop. A file without a token is skipped; of the others the header
    goes out and then the content, in chunks. After the last one the delimiter follows. -/
def onSending (s : State) (fileMap : LinkedMap String String) : Batch Message State :=
  match s.sending with
  | [] => s.say w .delimiter .plain .lastResponse
  | file :: sending =>
    let s := { s with sending := sending }
    match fileMap.get? file.fileId with
    | none => (s.error file.fileId "Failed to get file token").goto (.sending fileMap)
    | some token =>
      let header := s.say w (.header ⟨file.fileId, token⟩) (.file file.fileId) (.sending fileMap)
      ⟨header.state, header.out ++ (processInChunks file.blocks).map binaryMessage⟩

/-- The one message taken after the delimiter; the code does not look into it, `got` does. -/
def onLastResponse (s : State) (m : Option Message) : Batch Message State :=
  match m.bind fun msg => w.sendFileResponse.decode msg.data with
  | some response => (s.heard (.fileResponse response)).goto (.ended (.ok ()))
  | none => s.goto (.ended (.ok ()))

/-! ## 5. The task -/

/-- What the task does at each point. -/
def react (s : State) : Reaction Message State :=
  match s.phase with
  | .start => .tau (onStart w c s)
  | .nonce => .recv (onNonce w c s)
  | .tokenResponse => .recv (onTokenResponse w c s)
  | .pinResult => .recv (onPinResult w s)
  | .pinStart => .tau (onPinStart w c s)
  | .pinMessage pin pinTry => .recv (onPin w c s pin pinTry)
  | .fileList buffer => .recv fun m =>
    match receiveStringFromChunks buffer m with
    | .more buffer => s.goto (.fileList buffer)
    | .complete bytes => onFileList w c s false bytes
  | .pairedFileList buffer => .recv fun m =>
    match receiveStringFromChunks buffer m with
    | .more buffer => s.goto (.pairedFileList buffer)
    | .complete bytes => onFileList w c s true bytes
  | .sending fileMap => .tau (onSending w s fileMap)
  | .lastResponse => .recv (onLastResponse w s)
  | .pinPrompt | .pairPrompt => .wait
  | .ended _ => .done

/-- A send that failed: in the sending loop the file is given up, elsewhere the task ends. -/
def failed (s : State) (e : String) : State :=
  match s.onFail with
  | .plain => { s with phase := .ended (.error (.send e)) }
  | .context text => { s with phase := .ended (.error (.text (text ++ e))) }
  | .ignore => s
  | .fileList =>
    { s.status (.error ("Failed to send file list message: " ++ e)) with
      phase := .ended (.error (.send e)) }
  | .file id => s.error id e

/-- **The task of `send_offer`.** -/
def sendOffer : Process Message (Batch Message State) := Process.batched (react w c) failed

/-- Its state when the data channel is open. -/
def initial (pins : List (Option String)) (sending : List RTCFile) : State :=
  { phase := .start, pins := pins, sending := sending }

/-! ## 6. The messages of an honest receiver -/

variable {w c} {s : State}

theorem feed_start (hp : s.phase = .start) :
    (sendOffer w c).Feed ⟨s, []⟩ [] ⟨(onStart w c s).state, []⟩
      (Item.messages w (.nonce ⟨w.base64Encode c.localNonce.1⟩)) :=
  Process.feed_tau (by simp only [react, hp]; rfl)

/-- **A nonce** is answered with the token over both nonces. -/
theorem feed_nonce (hp : s.phase = .nonce) {n : Bytes} (hn : validateNonce n = true)
    {localToken : String} (hsign : c.auth.signingKey (c.localNonce.1 ++ n) = some localToken) :
    (sendOffer w c).Feed ⟨s, []⟩ (Item.messages w (.nonce ⟨w.base64Encode n⟩))
      ⟨(State.say w { s.heard (.nonce ⟨w.base64Encode n⟩) with nonce := c.localNonce.1 ++ n }
        (.tokenRequest ⟨localToken⟩) (.context "Failed to send token: ") .tokenResponse).state, []⟩
      (Item.messages w (.tokenRequest ⟨localToken⟩)) := by
  refine Process.feed_recv (k := onNonce w c s) (by simp only [react, hp]) ?_
  have hok : receiveNonce w (some (textMessage (w.nonceMessage.encode ⟨w.base64Encode n⟩))) =
      .ok (⟨w.base64Encode n⟩, n) :=
    receiveNonce_ok.mpr ⟨_, rfl, w.nonceMessage.decode_encode _, w.base64_decode_encode _, hn⟩
  simp only [onNonce, hok, hsign]
  rfl

/-- **The receiver's token**, with or without a challenge. -/
theorem feed_tokenResponse (hp : s.phase = .tokenResponse) (response : RTCTokenResponse)
    {b : Batch Message State}
    (hb : onTokenResponse w c s (some (textMessage (w.tokenResponse.encode response))) = b) :
    (sendOffer w c).Feed ⟨s, []⟩ (Item.messages w (.tokenResponse response)) ⟨b.state, []⟩ b.out :=
  Process.feed_recv (k := onTokenResponse w c s) (by simp only [react, hp]) hb

theorem onTokenResponse_ok {token : String}
    (hver : tokenVerified c.auth.expectingPublicKey token s.nonce = true) :
    onTokenResponse w c s (some (textMessage (w.tokenResponse.encode (.ok token)))) =
      State.goto { s.heard (.tokenResponse (.ok token)) with remoteToken := token } .pinStart := by
  have hver' : tokenVerified c.auth.expectingPublicKey token
      (s.heard (.tokenResponse (.ok token))).nonce = true := hver
  simp only [onTokenResponse, expectString_text, Codec.decode_encode, onRemoteToken, hver',
    Bool.true_eq_false, Bool.false_eq_true, if_false]

theorem onTokenResponse_pinRequired {token : String}
    (hver : tokenVerified c.auth.expectingPublicKey token s.nonce = true) :
    onTokenResponse w c s (some (textMessage (w.tokenResponse.encode (.pinRequired token)))) =
      promptPin w { s.heard (.tokenResponse (.pinRequired token)) with remoteToken := token } := by
  have hver' : tokenVerified c.auth.expectingPublicKey token
      (s.heard (.tokenResponse (.pinRequired token))).nonce = true := hver
  simp only [onTokenResponse, expectString_text, Codec.decode_encode, onRemoteToken, hver',
    Bool.true_eq_false, if_false, if_true]

/-- **The receiver's answer to a PIN.** -/
theorem feed_pinResult (hp : s.phase = .pinResult) (response : RTCPinReceivingResponse)
    {b : Batch Message State}
    (hb : onPinResult w s (some (textMessage (w.pinReceivingResponse.encode response))) = b) :
    (sendOffer w c).Feed ⟨s, []⟩ (Item.messages w (.pinReceiving response)) ⟨b.state, []⟩ b.out :=
  Process.feed_recv (k := onPinResult w s) (by simp only [react, hp]) hb

theorem onPinResult_ok :
    onPinResult w s (some (textMessage (w.pinReceivingResponse.encode .ok))) =
      (s.heard (.pinReceiving .ok)).goto .pinStart := by
  simp only [onPinResult, expectString_text, Codec.decode_encode]

theorem onPinResult_pinRequired :
    onPinResult w s (some (textMessage (w.pinReceivingResponse.encode .pinRequired))) =
      promptPin w (s.heard (.pinReceiving .pinRequired)) := by
  simp only [onPinResult, expectString_text, Codec.decode_encode]

theorem checkPin_passed (pin : PinConfig) (pinTry : Nat) :
    checkPin w c s pin pin.pin pinTry = connected w c s := by
  simp [checkPin, verifyPin]

/-- No PIN yet, or a wrong one, with tries left. -/
theorem checkPin_again {pin : PinConfig} {remotePin : String} {pinTry : Nat}
    (hne : remotePin ≠ pin.pin) (hlt : pinTry < pin.maxTries.toNat) :
    checkPin w c s pin remotePin pinTry =
      s.say w (.pinSending .pinRequired) .plain (.pinMessage pin pinTry) := by
  simp [checkPin, verifyPin, hne, Nat.not_le.mpr hlt]

theorem promptPin_some {pin : String} {pins : List (Option String)}
    (h : s.pins = some pin :: pins) :
    promptPin w s = State.say w { s.status .pinRequired with pins := pins } (.pin ⟨pin⟩) .plain
      .pinResult := by
  have h' : (s.status .pinRequired).pins = some pin :: pins := h
  simp only [promptPin, h']

theorem onPinStart_some {pin : PinConfig} (hpin : c.auth.pin = some pin) :
    onPinStart w c s = checkPin w c (s.status .pinRequired) pin "" 0 := by
  simp only [onPinStart, hpin]

/-- **The own challenge begins.** -/
theorem feed_pinStart (hp : s.phase = .pinStart) {b : Batch Message State}
    (hb : onPinStart w c s = b) : (sendOffer w c).Feed ⟨s, []⟩ [] ⟨b.state, []⟩ b.out :=
  Process.feed_tau (by simp only [react, hp, hb])

/-- **A PIN message.** -/
theorem feed_pin {pin : PinConfig} {pinTry : Nat} (hp : s.phase = .pinMessage pin pinTry)
    {remotePin : String} {b : Batch Message State}
    (hb : checkPin w c (s.heard (.pin ⟨remotePin⟩)) pin remotePin (pinTry + 1) = b) :
    (sendOffer w c).Feed ⟨s, []⟩ (Item.messages w (.pin ⟨remotePin⟩)) ⟨b.state, []⟩ b.out := by
  refine Process.feed_recv (k := onPin w c s pin pinTry) (by simp only [react, hp]) ?_
  simp only [onPin, data_textMessage, Codec.decode_encode]
  exact hb

end LocalSend.WebRtc.Send
