/-
  File:      LocalSend/WebRtc/JsonWire.lean
  Subject:   THE MESSAGES AS JSON, as `serde` derives it for the types of `core/src/webrtc/peer.rs`
             and `core/src/model/transfer.rs`.

  * `toJson`, `ofJson` -- each type and its JSON value: answers carry a `status` in capitals, the
    fields of a file are in camel case, a field without a value is left out; an array is read like
    an object with its elements in the order of the fields;
  * `ofJson_toJson` -- each value is read back;
  * `jsonWire` -- the wire of the two peers.
-/
import LocalSend.Lib.Base64
import LocalSend.Lib.Json
import LocalSend.WebRtc.Messages

namespace LocalSend.WebRtc

open Lib Json

/-! ## 1. Requests -/

def RTCNonceMessage.toJson (m : RTCNonceMessage) : Json := .obj [("nonce", .str m.nonce)]

def RTCNonceMessage.ofJson (j : Json) : Option RTCNonceMessage := do
  let fs ← j.record ["nonce"] []
  return ⟨← field "nonce" text fs⟩

theorem RTCNonceMessage.ofJson_toJson (m : RTCNonceMessage) : ofJson m.toJson = some m := by
  simp [toJson, ofJson, field]

def RTCTokenRequest.toJson (m : RTCTokenRequest) : Json := .obj [("token", .str m.token)]

def RTCTokenRequest.ofJson (j : Json) : Option RTCTokenRequest := do
  let fs ← j.record ["token"] []
  return ⟨← field "token" text fs⟩

theorem RTCTokenRequest.ofJson_toJson (m : RTCTokenRequest) : ofJson m.toJson = some m := by
  simp [toJson, ofJson, field]

def RTCPinMessage.toJson (m : RTCPinMessage) : Json := .obj [("pin", .str m.pin)]

def RTCPinMessage.ofJson (j : Json) : Option RTCPinMessage := do
  let fs ← j.record ["pin"] []
  return ⟨← field "pin" text fs⟩

theorem RTCPinMessage.ofJson_toJson (m : RTCPinMessage) : ofJson m.toJson = some m := by
  simp [toJson, ofJson, field]

def RTCSendFileHeaderRequest.toJson (m : RTCSendFileHeaderRequest) : Json :=
  .obj [("id", .str m.id), ("token", .str m.token)]

def RTCSendFileHeaderRequest.ofJson (j : Json) : Option RTCSendFileHeaderRequest := do
  let fs ← j.record ["id", "token"] []
  return ⟨← field "id" text fs, ← field "token" text fs⟩

theorem RTCSendFileHeaderRequest.ofJson_toJson (m : RTCSendFileHeaderRequest) :
    ofJson m.toJson = some m := by
  simp [toJson, ofJson, field]

/-! ## 2. Files -/

def FileMetadata.toJson (m : FileMetadata) : Json :=
  .obj (skipNone "modified" (m.modified.map .str) ++ skipNone "accessed" (m.accessed.map .str))

def FileMetadata.ofJson (j : Json) : Option FileMetadata := do
  let fs ← j.record ["modified", "accessed"] []
  return ⟨← optionalField "modified" text fs, ← optionalField "accessed" text fs⟩

theorem FileMetadata.ofJson_toJson (m : FileMetadata) : ofJson m.toJson = some m := by
  obtain ⟨modified, accessed⟩ := m
  cases modified <;> cases accessed <;> rfl

def FileDto.toJson (f : FileDto) : Json :=
  .obj ([("id", .str f.id), ("fileName", .str f.fileName), ("size", .num f.size.toNat),
      ("fileType", .str f.fileType)] ++
    skipNone "sha256" (f.sha256.map .str) ++ skipNone "preview" (f.preview.map .str) ++
    skipNone "metadata" (f.metadata.map FileMetadata.toJson))

def FileDto.ofJson (j : Json) : Option FileDto := do
  let fs ← j.record ["id", "fileName", "size", "fileType", "sha256", "preview", "metadata"] []
  return ⟨← field "id" text fs, ← field "fileName" text fs,
    ← field "size" u64 fs, ← field "fileType" text fs,
    ← optionalField "sha256" text fs, ← optionalField "preview" text fs,
    ← optionalField "metadata" FileMetadata.ofJson fs⟩

theorem FileDto.ofJson_toJson (f : FileDto) : ofJson f.toJson = some f := by
  obtain ⟨id, fileName, size, fileType, sha256, preview, metadata⟩ := f
  have hmeta : ∀ m : FileMetadata, orNull FileMetadata.ofJson m.toJson = some (some m) :=
    fun m => congrArg (Option.map some) m.ofJson_toJson
  cases sha256 <;> cases preview <;> cases metadata <;>
    simp [toJson, ofJson, optionalField, field, skipNone, hmeta]

/-! ## 3. Answers -/

def RTCTokenResponse.toJson : RTCTokenResponse → Json
  | .ok token => .obj [("status", .str "OK"), ("token", .str token)]
  | .pinRequired token => .obj [("status", .str "PIN_REQUIRED"), ("token", .str token)]
  | .invalidSignature => .obj [("status", .str "INVALID_SIGNATURE")]

def RTCTokenResponse.ofVariant (status : String) (j : Json) : Option RTCTokenResponse :=
  match status with
  | "OK" => do return .ok (← field "token" text (← j.record ["token"] []))
  | "PIN_REQUIRED" => do return .pinRequired (← field "token" text (← j.record ["token"] []))
  | "INVALID_SIGNATURE" => j.unit.map fun _ => .invalidSignature
  | _ => none

def RTCTokenResponse.ofJson : Json → Option RTCTokenResponse :=
  tagged "status" RTCTokenResponse.ofVariant

theorem RTCTokenResponse.ofJson_toJson (m : RTCTokenResponse) : ofJson m.toJson = some m := by
  cases m <;> rfl

def RTCPinReceivingResponse.toJson : RTCPinReceivingResponse → Json
  | .ok => .obj [("status", .str "OK")]
  | .pinRequired => .obj [("status", .str "PIN_REQUIRED")]
  | .tooManyAttempts => .obj [("status", .str "TOO_MANY_ATTEMPTS")]

def RTCPinReceivingResponse.ofVariant (status : String) (j : Json) :
    Option RTCPinReceivingResponse :=
  match status with
  | "OK" => j.unit.map fun _ => .ok
  | "PIN_REQUIRED" => j.unit.map fun _ => .pinRequired
  | "TOO_MANY_ATTEMPTS" => j.unit.map fun _ => .tooManyAttempts
  | _ => none

def RTCPinReceivingResponse.ofJson : Json → Option RTCPinReceivingResponse :=
  tagged "status" RTCPinReceivingResponse.ofVariant

theorem RTCPinReceivingResponse.ofJson_toJson (m : RTCPinReceivingResponse) :
    ofJson m.toJson = some m := by
  cases m <;> rfl

def RTCPinSendingResponse.toJson : RTCPinSendingResponse → Json
  | .ok files => .obj [("status", .str "OK"), ("files", .arr (files.map FileDto.toJson))]
  | .pinRequired => .obj [("status", .str "PIN_REQUIRED")]
  | .tooManyAttempts => .obj [("status", .str "TOO_MANY_ATTEMPTS")]

def RTCPinSendingResponse.ofVariant (status : String) (j : Json) : Option RTCPinSendingResponse :=
  match status with
  | "OK" => do
    let files ← field "files" elems (← j.record ["files"] [])
    return .ok (← files.mapM FileDto.ofJson)
  | "PIN_REQUIRED" => j.unit.map fun _ => .pinRequired
  | "TOO_MANY_ATTEMPTS" => j.unit.map fun _ => .tooManyAttempts
  | _ => none

def RTCPinSendingResponse.ofJson : Json → Option RTCPinSendingResponse :=
  tagged "status" RTCPinSendingResponse.ofVariant

theorem RTCPinSendingResponse.ofJson_toJson (m : RTCPinSendingResponse) :
    ofJson m.toJson = some m := by
  cases m with
  | ok files =>
      rw [ofJson, toJson, tagged_obj (by simp)]
      simp [ofVariant, field, mapM_map fun f _ => FileDto.ofJson_toJson f]
  | _ => rfl

/-- The tokens of the selected files: an object with a field for each of them. -/
def tokensToJson (tokens : LinkedMap String String) : Json :=
  .obj (tokens.entries.map fun e => (e.1, .str e.2))

def tokensOfJson (j : Json) : Option (LinkedMap String String) := do
  let entries ← (← j.fields).mapM fun f => f.2.text.map fun token => (f.1, token)
  return LinkedMap.ofList entries

theorem tokensOfJson_toJson (tokens : LinkedMap String String) :
    tokensOfJson (tokensToJson tokens) = some tokens := by
  have hentries : ∀ l : List (String × String), (l.map fun e => (e.1, Json.str e.2)).mapM
      (fun f => f.2.text.map fun token => (f.1, token)) = some l := by
    intro l
    induction l with
    | nil => rfl
    | cons e l ih => simp [List.mapM_cons, ih]
  simp [tokensOfJson, tokensToJson, hentries, LinkedMap.ofList_entries]

def RTCFileListResponse.toJson : RTCFileListResponse → Json
  | .ok files => .obj [("status", .str "OK"), ("files", tokensToJson files)]
  | .pair publicKey => .obj [("status", .str "PAIR"), ("publicKey", .str publicKey)]
  | .declined => .obj [("status", .str "DECLINED")]
  | .invalidSignature => .obj [("status", .str "INVALID_SIGNATURE")]

def RTCFileListResponse.ofVariant (status : String) (j : Json) : Option RTCFileListResponse :=
  match status with
  | "OK" => do return .ok (← field "files" tokensOfJson (← j.record ["files"] []))
  | "PAIR" => do return .pair (← field "publicKey" text (← j.record ["publicKey"] []))
  | "DECLINED" => j.unit.map fun _ => .declined
  | "INVALID_SIGNATURE" => j.unit.map fun _ => .invalidSignature
  | _ => none

def RTCFileListResponse.ofJson : Json → Option RTCFileListResponse :=
  tagged "status" RTCFileListResponse.ofVariant

theorem RTCFileListResponse.ofJson_toJson (m : RTCFileListResponse) :
    ofJson m.toJson = some m := by
  cases m with
  | ok files =>
      rw [ofJson, toJson, tagged_obj (by simp)]
      simp [ofVariant, field, tokensOfJson_toJson]
  | _ => rfl

def RTCPairResponse.toJson : RTCPairResponse → Json
  | .ok publicKey => .obj [("status", .str "OK"), ("publicKey", .str publicKey)]
  | .pairDeclined => .obj [("status", .str "PAIR_DECLINED")]
  | .invalidSignature => .obj [("status", .str "INVALID_SIGNATURE")]

def RTCPairResponse.ofVariant (status : String) (j : Json) : Option RTCPairResponse :=
  match status with
  | "OK" => do return .ok (← field "publicKey" text (← j.record ["publicKey"] []))
  | "PAIR_DECLINED" => j.unit.map fun _ => .pairDeclined
  | "INVALID_SIGNATURE" => j.unit.map fun _ => .invalidSignature
  | _ => none

def RTCPairResponse.ofJson : Json → Option RTCPairResponse :=
  tagged "status" RTCPairResponse.ofVariant

theorem RTCPairResponse.ofJson_toJson (m : RTCPairResponse) : ofJson m.toJson = some m := by
  cases m <;> rfl

def RTCSendFileResponse.toJson (m : RTCSendFileResponse) : Json :=
  .obj ([("id", .str m.id), ("success", .bool m.success)] ++ skipNone "error" (m.error.map .str))

def RTCSendFileResponse.ofJson (j : Json) : Option RTCSendFileResponse := do
  let fs ← j.record ["id", "success", "error"] []
  return ⟨← field "id" text fs, ← field "success" flag fs, ← optionalField "error" text fs⟩

theorem RTCSendFileResponse.ofJson_toJson (m : RTCSendFileResponse) :
    ofJson m.toJson = some m := by
  obtain ⟨id, success, error⟩ := m
  cases error <;> rfl

/-! ## 4. The wire -/

/-- **A type on the wire**, from its JSON values. A number is none of them, so nothing of at most
    one byte is read as a value. -/
def Codec.json {α : Type} (write : α → Json) (read : Json → Option α)
    (h : ∀ a, read (write a) = some a) (hnum : ∀ n, read (.num n) = none) : Codec α :=
  have hshort : ∀ b : Bytes, b.length ≤ 1 → (Json.decode b).bind read = none := by
    intro b hb
    cases hj : Json.decode b with
    | none => rfl
    | some j =>
        obtain ⟨n, rfl⟩ := Json.decode_short hb hj
        exact hnum n
  { encode a := (write a).encode
    decode b := (Json.decode b).bind read
    decode_encode := fun a => by simp [h]
    encode_long := fun a => by
      by_contra hle
      have hnone := hshort _ (Nat.not_lt.mp hle)
      simp [h] at hnone
    decode_short := hshort }

/-- **The wire of the two peers**: JSON, and base64 for the nonces. -/
def jsonWire : Wire where
  nonceMessage := .json _ _ RTCNonceMessage.ofJson_toJson fun _ => rfl
  tokenRequest := .json _ _ RTCTokenRequest.ofJson_toJson fun _ => rfl
  tokenResponse := .json _ _ RTCTokenResponse.ofJson_toJson fun _ => rfl
  pinMessage := .json _ _ RTCPinMessage.ofJson_toJson fun _ => rfl
  pinReceivingResponse := .json _ _ RTCPinReceivingResponse.ofJson_toJson fun _ => rfl
  pinSendingResponse := .json _ _ RTCPinSendingResponse.ofJson_toJson fun _ => rfl
  fileListResponse := .json _ _ RTCFileListResponse.ofJson_toJson fun _ => rfl
  pairResponse := .json _ _ RTCPairResponse.ofJson_toJson fun _ => rfl
  sendFileHeaderRequest := .json _ _ RTCSendFileHeaderRequest.ofJson_toJson fun _ => rfl
  sendFileResponse := .json _ _ RTCSendFileResponse.ofJson_toJson fun _ => rfl
  base64Encode := Base64.encode
  base64Decode := Base64.decode
  base64_decode_encode := Base64.decode_encode

end LocalSend.WebRtc
