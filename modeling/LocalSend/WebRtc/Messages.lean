/-
  File:      LocalSend/WebRtc/Messages.lean
  Subject:   WHAT THE TWO PEERS OF A DATA CHANNEL SAY (`core/src/webrtc/peer.rs`): the message
             types, their framing, and the helpers both peers use.

  * `Message` -- a data channel message: text or binary, with its bytes;
  * `Codec`, `Wire` -- JSON and base64 are library code: parameters, with what the peers rely on
    (a value read back is the value written; no object fits into one byte);
  * `Item` -- a typed message of the protocol, `Item.messages` -- its framing on the channel;
  * `processInChunks` -- content cut into chunks; `processInChunks_flatten` -- nothing is lost,
    `processInChunks_chunked` -- the chunks have one size, `processInChunks_ne_nil` -- and none is
    empty;
  * `receiveNonce`, `verifyPin` -- the shared steps of the handshake.
-/
import LocalSend.Lib.Buffering
import LocalSend.Lib.LinkedMap
import LocalSend.Lib.Process

namespace LocalSend.WebRtc

open Lib

/-! ## 1. Messages of the protocol -/

abbrev Bytes := List UInt8

/-- `DataChannelMessage`. -/
structure Message where
  isString : Bool
  data : Bytes
  deriving DecidableEq, Repr

structure FileMetadata where
  modified : Option String
  accessed : Option String
  deriving DecidableEq, Repr

/-- `FileDto` of the core (`core/src/model/transfer.rs`). -/
structure FileDto where
  id : String
  fileName : String
  size : UInt64
  fileType : String
  sha256 : Option String
  preview : Option String
  metadata : Option FileMetadata
  deriving DecidableEq, Repr

/-- The nonce, in base64. -/
structure RTCNonceMessage where
  nonce : String
  deriving DecidableEq, Repr

structure RTCTokenRequest where
  token : String
  deriving DecidableEq, Repr

inductive RTCTokenResponse where
  | ok (token : String)
  | pinRequired (token : String)
  | invalidSignature
  deriving DecidableEq, Repr

structure RTCPinMessage where
  pin : String
  deriving DecidableEq, Repr

/-- Response to the PIN message by the receiving peer. -/
inductive RTCPinReceivingResponse where
  | ok | pinRequired | tooManyAttempts
  deriving DecidableEq, Repr

/-- Response to the PIN message by the sending peer. -/
inductive RTCPinSendingResponse where
  | ok (files : List FileDto)
  | pinRequired
  | tooManyAttempts
  deriving DecidableEq, Repr

/-- Sent by the receiving peer after the file list: the token of each selected file. -/
inductive RTCFileListResponse where
  | ok (files : LinkedMap String String)
  | pair (publicKey : String)
  | declined
  | invalidSignature
  deriving DecidableEq, Repr

/-- Pair response by the sending peer. -/
inductive RTCPairResponse where
  | ok (publicKey : String)
  | pairDeclined
  | invalidSignature
  deriving DecidableEq, Repr

structure RTCSendFileHeaderRequest where
  id : String
  token : String
  deriving DecidableEq, Repr

structure RTCSendFileResponse where
  id : String
  success : Bool
  error : Option String
  deriving DecidableEq, Repr

/-! ## 2. What a peer tells its app -/

inductive RTCStatus where
  | connected
  | pinRequired
  | tooManyAttempts
  | declined
  | error (text : String)
  deriving DecidableEq, Repr

structure RTCFileError where
  fileId : String
  error : String
  deriving DecidableEq, Repr

/-- A file on its way between a peer and its app: its id and the blocks of its channel. -/
structure RTCFile where
  fileId : String
  blocks : List Bytes
  deriving DecidableEq, Repr

/-- Why a task returns `Err`: one of its own texts, a message that does not parse, a send that
    fails. -/
inductive Error where
  | text (s : String)
  | parse (context : String)
  | send (e : String)
  deriving DecidableEq, Repr

/-! ## 3. Configuration -/

structure PinConfig where
  pin : String
  maxTries : UInt8
  deriving DecidableEq, Repr

/-- `verify_token_nonce` for one public key: does the token verify over the nonce? -/
abbrev VerifyingTokenKey := String → Bytes → Bool

/-- `RTCAuthConfig`; the signing key is `generate_token_nonce` under it. -/
structure RTCAuthConfig where
  signingKey : Bytes → Option String
  expectingPublicKey : Option VerifyingTokenKey
  pin : Option PinConfig

/-- A nonce as `generate_nonce` makes it: 32 bytes. -/
abbrev Nonce := { bytes : Bytes // bytes.length = 32 }

def validateNonce (nonce : Bytes) : Bool := 16 ≤ nonce.length && nonce.length ≤ 128

theorem validateNonce_generated (n : Nonce) : validateNonce n.1 = true := by
  simp [validateNonce, n.2]

/-- The failing send of a task: most return its error, some in their own words. -/
inductive OnFail where
  | plain
  | context (text : String)
  | ignore
  | fileList
  | file (id : String)
  deriving DecidableEq, Repr

/-! ## 4. The wire -/

/-- **A type on the wire.** Every message is a JSON object, so it is longer than one byte, and
    nothing of at most one byte reads as one. -/
structure Codec (α : Type) where
  encode : α → Bytes
  decode : Bytes → Option α
  decode_encode : ∀ a, decode (encode a) = some a
  encode_long : ∀ a, 1 < (encode a).length
  decode_short : ∀ b, b.length ≤ 1 → decode b = none

attribute [simp] Codec.decode_encode

/-- `serde_json` at the types of the protocol, and base64. -/
structure Wire where
  nonceMessage : Codec RTCNonceMessage
  tokenRequest : Codec RTCTokenRequest
  tokenResponse : Codec RTCTokenResponse
  pinMessage : Codec RTCPinMessage
  pinReceivingResponse : Codec RTCPinReceivingResponse
  pinSendingResponse : Codec RTCPinSendingResponse
  fileListResponse : Codec RTCFileListResponse
  pairResponse : Codec RTCPairResponse
  sendFileHeaderRequest : Codec RTCSendFileHeaderRequest
  sendFileResponse : Codec RTCSendFileResponse
  base64Encode : Bytes → String
  base64Decode : String → Option Bytes
  base64_decode_encode : ∀ b, base64Decode (base64Encode b) = some b

attribute [simp] Wire.base64_decode_encode

/-- `send_text`. -/
def textMessage (data : Bytes) : Message := ⟨true, data⟩

/-- `send`. -/
def binaryMessage (data : Bytes) : Message := ⟨false, data⟩

@[simp] theorem isString_textMessage (b : Bytes) : (textMessage b).isString = true := rfl
@[simp] theorem data_textMessage (b : Bytes) : (textMessage b).data = b := rfl
@[simp] theorem isString_binaryMessage (b : Bytes) : (binaryMessage b).isString = false := rfl
@[simp] theorem data_binaryMessage (b : Bytes) : (binaryMessage b).data = b := rfl

/-- `send_delimiter`: the text "0". -/
def delimiter : Message := textMessage [48]

def isDelimiter (msg : Message) : Bool := msg.isString && msg.data.length ≤ 1

@[simp] theorem isDelimiter_delimiter : isDelimiter delimiter = true := rfl

theorem isDelimiter_encode {α : Type} (c : Codec α) (a : α) :
    isDelimiter (textMessage (c.encode a)) = false := by
  simp [isDelimiter, Nat.not_le.mpr (c.encode_long a)]

theorem decode_delimiter {α : Type} (c : Codec α) : c.decode delimiter.data = none :=
  c.decode_short _ (by simp [delimiter])

/-! ## 5. Content in chunks -/

/-- `CHUNK_SIZE`: 16 KiB. -/
def chunkSize : Nat := 16 * 1024

/-- The inner loop of `process_in_chunks`: whole chunks off the front of the buffer, and what is
    left of it. -/
def splitChunks (buffer : Bytes) : List Bytes × Bytes :=
  if chunkSize ≤ buffer.length then
    let rest := splitChunks (buffer.drop chunkSize)
    (buffer.take chunkSize :: rest.1, rest.2)
  else ([], buffer)
termination_by buffer.length
decreasing_by
  simp only [List.length_drop]
  have : 0 < chunkSize := by decide
  omega

/-- The outer loop of `process_in_chunks`, from a buffer. -/
def processFrom (buffer : Bytes) : List Bytes → List Bytes
  | [] => if buffer.isEmpty then [] else [buffer]
  | data :: rx =>
    let r := splitChunks (buffer ++ data)
    r.1 ++ processFrom r.2 rx

/-- `process_in_chunks`: the chunks its callback gets, for the blocks that arrive. -/
def processInChunks (rx : List Bytes) : List Bytes := processFrom [] rx

theorem splitChunks_flatten (buffer : Bytes) :
    (splitChunks buffer).1.flatten ++ (splitChunks buffer).2 = buffer := by
  fun_induction splitChunks buffer with
  | case1 buffer _ rest ih =>
      simp only [List.flatten_cons, List.append_assoc]
      rw [ih, List.take_append_drop]
  | case2 buffer _ => rfl

theorem splitChunks_length (buffer : Bytes) :
    (∀ chunk ∈ (splitChunks buffer).1, chunk.length = chunkSize) ∧
      (splitChunks buffer).2.length < chunkSize := by
  fun_induction splitChunks buffer with
  | case1 buffer h rest ih =>
      refine ⟨fun chunk hc => ?_, ih.2⟩
      rcases List.mem_cons.mp hc with rfl | hc
      · rw [List.length_take, Nat.min_eq_left h]
      · exact ih.1 chunk hc
  | case2 buffer h => exact ⟨fun chunk hc => absurd hc List.not_mem_nil, Nat.not_le.mp h⟩

/-- The two loops are a buffer. -/
theorem processFrom_eq_blocks (buffer : Bytes) (rx : List Bytes) :
    processFrom buffer rx =
      Buffering.blocks (fun buffer data => splitChunks (buffer ++ data)) buffer rx := by
  induction rx generalizing buffer with
  | nil => rfl
  | cons data rx ih =>
      rw [processFrom, Buffering.blocks]
      simp only [ih]

/-- **The chunks are the content**, for every way the content was split into blocks. -/
theorem processInChunks_flatten (rx : List Bytes) :
    (processInChunks rx).flatten = rx.flatten := by
  rw [processInChunks, processFrom_eq_blocks,
    Buffering.blocks_flatten fun buffer data => splitChunks_flatten (buffer ++ data),
    List.nil_append]

/-- **The chunks have one size**, but the last one. -/
theorem processInChunks_chunked (rx : List Bytes) :
    Buffering.Chunked chunkSize (processInChunks rx) := by
  have hpush : ∀ buffer, ∀ data ∈ rx, buffer.length < chunkSize →
      (∀ chunk ∈ (splitChunks (buffer ++ data)).1, chunk.length = chunkSize) ∧
        (splitChunks (buffer ++ data)).2.length < chunkSize :=
    fun buffer data _ _ => splitChunks_length (buffer ++ data)
  obtain ⟨front, rest, heq, hfront, hrest⟩ :=
    Buffering.blocks_eq (·.length < chunkSize) (·.length = chunkSize)
      (show ([] : Bytes).length < chunkSize by decide) hpush
  have hfull : ∀ chunk : Bytes, chunk.length = chunkSize →
      chunk ≠ [] ∧ chunk.length ≤ chunkSize :=
    fun chunk hc => ⟨List.ne_nil_of_length_pos (hc ▸ by decide), Nat.le_of_eq hc⟩
  obtain ⟨h1, h2⟩ := Buffering.front_and_last _ _ hfront hfull fun hne =>
    ⟨hne, Nat.le_of_lt hrest⟩
  rw [processInChunks, processFrom_eq_blocks, heq]
  exact ⟨h1, h2⟩

/-- **No chunk is empty**: an empty message does not arrive at the other peer. -/
theorem processInChunks_ne_nil (rx : List Bytes) : ∀ chunk ∈ processInChunks rx, chunk ≠ [] :=
  fun _ hc => (processInChunks_chunked rx).ne_nil (by decide) hc

/-- `send_string_in_chunks`, then the delimiter. -/
def stringInChunks (string : Bytes) : List Message :=
  (processInChunks [string]).map binaryMessage ++ [delimiter]

theorem stringInChunks_ne_nil (string : Bytes) : ∀ m ∈ stringInChunks string, m.data ≠ [] := by
  intro m hm
  rcases List.mem_append.mp hm with hm | hm
  · obtain ⟨chunk, hc, rfl⟩ := List.mem_map.mp hm
    exact processInChunks_ne_nil _ chunk hc
  · obtain rfl := List.mem_singleton.mp hm
    simp [delimiter]

/-! ## 6. Typed messages and their framing -/

/-- A message of the protocol. -/
inductive Item where
  | nonce (m : RTCNonceMessage)
  | tokenRequest (m : RTCTokenRequest)
  | tokenResponse (m : RTCTokenResponse)
  | pin (m : RTCPinMessage)
  | pinReceiving (m : RTCPinReceivingResponse)
  | pinSending (m : RTCPinSendingResponse)
  | fileList (m : RTCFileListResponse)
  | pairResponse (m : RTCPairResponse)
  | header (m : RTCSendFileHeaderRequest)
  | fileResponse (m : RTCSendFileResponse)
  | delimiter
  deriving DecidableEq, Repr

/-- **The framing**: lists of files and of tokens, and the sender's answers to a PIN, go in chunks
    with a delimiter; everything else is one text message. -/
def Item.messages (w : Wire) : Item → List Message
  | .nonce m => [textMessage (w.nonceMessage.encode m)]
  | .tokenRequest m => [textMessage (w.tokenRequest.encode m)]
  | .tokenResponse m => [textMessage (w.tokenResponse.encode m)]
  | .pin m => [textMessage (w.pinMessage.encode m)]
  | .pinReceiving m => [textMessage (w.pinReceivingResponse.encode m)]
  | .pinSending m => stringInChunks (w.pinSendingResponse.encode m)
  | .fileList m => stringInChunks (w.fileListResponse.encode m)
  | .pairResponse m => [textMessage (w.pairResponse.encode m)]
  | .header m => [textMessage (w.sendFileHeaderRequest.encode m)]
  | .fileResponse m => [textMessage (w.sendFileResponse.encode m)]
  | .delimiter => [WebRtc.delimiter]

/-- **Nothing of the framing is an empty message.** -/
theorem Item.messages_ne_nil (w : Wire) (item : Item) : ∀ m ∈ item.messages w, m.data ≠ [] := by
  have hlong : ∀ {α : Type} (c : Codec α) (a : α), c.encode a ≠ [] := fun c a h => by
    have := c.encode_long a
    rw [h] at this
    cases this
  intro m hm
  cases item with
  | pinSending r => exact stringInChunks_ne_nil _ m hm
  | fileList r => exact stringInChunks_ne_nil _ m hm
  | delimiter =>
      obtain rfl := List.mem_singleton.mp hm
      simp [WebRtc.delimiter]
  | _ =>
      obtain rfl := List.mem_singleton.mp hm
      exact hlong _ _

/-! ## 7. Shared steps of the handshake -/

/-- `receive_nonce`, on what `recv` returned: the message and the nonce in it. -/
def receiveNonce (w : Wire) : Option Message → Except Error (RTCNonceMessage × Bytes)
  | none => .error (.text "Failed to receive nonce")
  | some msg =>
    if !msg.isString then .error (.text "Expected string message")
    else
      match w.nonceMessage.decode msg.data with
      | none => .error (.parse "")
      | some nonceMsg =>
        match w.base64Decode nonceMsg.nonce with
        | none => .error (.parse "Failed to decode remote nonce")
        | some remoteNonce =>
          if validateNonce remoteNonce then .ok (nonceMsg, remoteNonce)
          else .error (.text "Invalid remote nonce")

/-- **What `receive_nonce` accepts**: a text message with a nonce of valid length. -/
theorem receiveNonce_ok {w : Wire} {m : Option Message} {msg : RTCNonceMessage} {n : Bytes} :
    receiveNonce w m = .ok (msg, n) ↔
      ∃ data, m = some (textMessage data) ∧ w.nonceMessage.decode data = some msg ∧
        w.base64Decode msg.nonce = some n ∧ validateNonce n = true := by
  constructor
  · intro h
    obtain _ | ⟨isString, data⟩ := m
    · cases h
    · cases isString with
      | false => cases h
      | true =>
          cases hdec : w.nonceMessage.decode data with
          | none => simp [receiveNonce, hdec] at h
          | some nonceMsg =>
              cases hb : w.base64Decode nonceMsg.nonce with
              | none => simp [receiveNonce, hdec, hb] at h
              | some remoteNonce =>
                  by_cases hv : validateNonce remoteNonce = true
                  · simp only [receiveNonce, hdec, hb, hv, Bool.not_true, Bool.false_eq_true,
                      if_false, if_true, Except.ok.injEq, Prod.mk.injEq] at h
                    obtain ⟨rfl, rfl⟩ := h
                    exact ⟨data, rfl, hdec, hb, hv⟩
                  · simp [receiveNonce, hdec, hb, hv] at h
  · intro h
    obtain ⟨data, rfl, hdec, hb, hv⟩ := h
    simp [receiveNonce, textMessage, hdec, hb, hv]

/-- Does a token verify, if a key is expected? -/
def tokenVerified (key : Option VerifyingTokenKey) (token : String) (nonce : Bytes) : Bool :=
  match key with
  | none => true
  | some key => key token nonce

/-- What `recv` returned, where only a text message will do. -/
def expectString (closed : String) : Option Message → Except Error Bytes
  | none => .error (.text closed)
  | some msg =>
    if !msg.isString then .error (.text "Expected string message") else .ok msg.data

@[simp] theorem expectString_text (closed : String) (data : Bytes) :
    expectString closed (some (textMessage data)) = .ok data := rfl

theorem expectString_ok {closed : String} {m : Option Message} {data : Bytes} :
    expectString closed m = .ok data ↔ m = some (textMessage data) := by
  obtain _ | ⟨isString, data'⟩ := m
  · simp [expectString]
  · cases isString <;> simp [expectString, textMessage]

/-- One round of `receive_string_from_chunks`. -/
inductive Chunk where
  | more (buffer : Bytes)
  | complete (buffer : Bytes)

/-- The loop body of `receive_string_from_chunks`: a binary message is one more chunk; any text
    message, and the end of the channel, ends the string. -/
def receiveStringFromChunks (buffer : Bytes) : Option Message → Chunk
  | none => .complete buffer
  | some msg => if msg.isString then .complete buffer else .more (buffer ++ msg.data)

/-- What `verify_pin` does at the head of its loop. -/
inductive VerifyPin where
  | passed
  | tooManyAttempts
  | receive (notice : Bool)
  deriving DecidableEq, Repr

/-- The head of the loop of `verify_pin`. The notice goes out before every PIN but the first, and
    before the first one too where `send_initial_notice` is set. The `u8` counter `pin_try` stops
    at `max_tries`, so a `Nat` counts the same. -/
def verifyPin (pinConfig : PinConfig) (sendInitialNotice : Bool) (remotePin : String)
    (pinTry : Nat) : VerifyPin :=
  if remotePin = pinConfig.pin then .passed
  else if pinConfig.maxTries.toNat ≤ pinTry then .tooManyAttempts
  else .receive (sendInitialNotice || decide (0 < pinTry))

/-! ## 8. Reading a string in chunks -/

section Reading

variable {σ : Type} {react : σ → Reaction Message σ} {failed : σ → String → σ}

/-- **Chunks are read as one string**: a reaction that collects chunks and goes on with `finish`
    does so with all of them together. -/
theorem feed_chunks (collecting : Bytes → σ) (finish : σ → Bytes → Batch Message σ)
    (hreact : ∀ buffer, react (collecting buffer) = .recv fun m =>
      match receiveStringFromChunks buffer m with
      | .more buffer => ⟨collecting buffer, []⟩
      | .complete bytes => finish (collecting buffer) bytes)
    (chunks : List Bytes) {s : σ} {out : List Message}
    (hfinish : ∀ buffer, finish (collecting buffer) chunks.flatten = ⟨s, out⟩) :
    (Process.batched react failed).Feed ⟨collecting [], []⟩
      (chunks.map binaryMessage ++ [delimiter]) ⟨s, []⟩ out := by
  have hchunks : ∀ (chunks : List Bytes) (buffer : Bytes),
      (Process.batched react failed).Feed ⟨collecting buffer, []⟩ (chunks.map binaryMessage)
        ⟨collecting (buffer ++ chunks.flatten), []⟩ [] := by
    intro chunks
    induction chunks with
    | nil =>
        intro buffer
        rw [List.flatten_nil, List.append_nil]
        exact .here _
    | cons chunk chunks ih =>
        intro buffer
        have h1 : (Process.batched react failed).Feed ⟨collecting buffer, []⟩
            [binaryMessage chunk] ⟨collecting (buffer ++ chunk), []⟩ [] :=
          Process.feed_recv (hreact buffer) rfl
        have h2 := h1.trans (ih (buffer ++ chunk))
        rwa [List.append_assoc] at h2
  have hend : (Process.batched react failed).Feed ⟨collecting chunks.flatten, []⟩ [delimiter]
      ⟨s, []⟩ out := Process.feed_recv (hreact _) (hfinish _)
  exact (hchunks chunks []).trans hend

/-- **A string sent in chunks is read as it was sent.** -/
theorem feed_string (collecting : Bytes → σ) (finish : σ → Bytes → Batch Message σ)
    (hreact : ∀ buffer, react (collecting buffer) = .recv fun m =>
      match receiveStringFromChunks buffer m with
      | .more buffer => ⟨collecting buffer, []⟩
      | .complete bytes => finish (collecting buffer) bytes)
    (string : Bytes) {s : σ} {out : List Message}
    (hfinish : ∀ buffer, finish (collecting buffer) string = ⟨s, out⟩) :
    (Process.batched react failed).Feed ⟨collecting [], []⟩ (stringInChunks string)
      ⟨s, []⟩ out := by
  refine feed_chunks collecting finish hreact (processInChunks [string]) ?_
  rw [processInChunks_flatten, List.flatten_singleton]
  exact hfinish

end Reading

end LocalSend.WebRtc
