/-
  File:      LocalSend/Signaling/JsonWire.lean
  Subject:   THE MESSAGES AS JSON, as `serde` derives it for the types of
             `core/src/webrtc/signaling.rs`.

  * `UuidText` -- the text of an id, a parameter: the crate `uuid` writes and reads it;
  * `toFields`, `toJson`, `ofJson` -- each type and its JSON value: a message carries its `type` in
    capitals and the fields of its variant beside it, a newtype variant those of what it wraps; an
    array is read like an object with its elements in the order of the fields;
  * `Sized` -- the values the widths of the source admit: ids of 128 bits, a code of 16;
  * `sized_of_ofJson` -- no other value is read;
  * `wire_round_trip` -- **every message type is read back and told apart.**
-/
import Mathlib.Algebra.Ring.Nat
import LocalSend.Signaling.Server
import LocalSend.WebRtc.JsonWire

namespace LocalSend.Signaling

open Lib Json

/-! ## 1. Ids -/

/-- An id of 128 bits. -/
def Uuid.Sized (id : Uuid) : Prop := id < 2 ^ 128

/-- **The text of an id.** What is written is read back; what is read is an id. -/
structure UuidText where
  write : Uuid → String
  read : String → Option Uuid
  read_write : ∀ id, id.Sized → read (write id) = some id
  sized_of_read : ∀ s id, read s = some id → id.Sized

def UuidText.toJson (u : UuidText) (id : Uuid) : Json := .str (u.write id)

def UuidText.ofJson (u : UuidText) (j : Json) : Option Uuid := (text j).bind u.read

/-! ## 2. Peers -/

/-- The names of the variants, in camel case. -/
def DeviceType.toJson : DeviceType → Json
  | .mobile => .str "mobile"
  | .desktop => .str "desktop"
  | .web => .str "web"
  | .headless => .str "headless"
  | .server => .str "server"

def DeviceType.ofJson (j : Json) : Option DeviceType := do
  match ← variant j with
  | "mobile" => return .mobile
  | "desktop" => return .desktop
  | "web" => return .web
  | "headless" => return .headless
  | "server" => return .server
  | _ => none

def ClientInfoWithoutId.toFields (info : ClientInfoWithoutId) : List (String × Json) :=
  [("alias", .str info.aliasName), ("version", .str info.version)] ++
    skipNone "deviceModel" (info.deviceModel.map .str) ++
    skipNone "deviceType" (info.deviceType.map DeviceType.toJson) ++
    [("token", .str info.token)]

def ClientInfoWithoutId.toJson (info : ClientInfoWithoutId) : Json := .obj info.toFields

def ClientInfoWithoutId.ofFields (fs : List (String × Json)) : Option ClientInfoWithoutId := do
  return ⟨← field "alias" text fs, ← field "version" text fs,
    ← optionalField "deviceModel" text fs, ← optionalField "deviceType" DeviceType.ofJson fs,
    ← field "token" text fs⟩

def ClientInfoWithoutId.ofJson (j : Json) : Option ClientInfoWithoutId :=
  (j.record ["alias", "version", "deviceModel", "deviceType", "token"] []).bind
    ClientInfoWithoutId.ofFields

section Messages

variable (u : UuidText)

def ClientInfo.toJson (info : ClientInfo) : Json :=
  .obj (("id", u.toJson info.id) :: info.toClientInfoWithoutId.toFields)

def ClientInfo.ofJson (j : Json) : Option ClientInfo := do
  let fs ← j.record ["id", "alias", "version", "deviceModel", "deviceType", "token"] []
  return { toClientInfoWithoutId := ← ClientInfoWithoutId.ofFields fs
           id := ← field "id" u.ofJson fs }

/-! ## 3. Messages of the server -/

def WsServerSdpMessage.toFields (m : WsServerSdpMessage) : List (String × Json) :=
  [("peer", m.peer.toJson u), ("sessionId", .str m.sessionId), ("sdp", .str m.sdp)]

def WsServerSdpMessage.ofJson (j : Json) : Option WsServerSdpMessage := do
  let fs ← j.record ["peer", "sessionId", "sdp"] []
  return ⟨← field "peer" (ClientInfo.ofJson u) fs, ← field "sessionId" text fs,
    ← field "sdp" text fs⟩

/-- A newtype variant writes the fields of its message beside the tag. -/
def WsServerMessage.toJson : WsServerMessage → Json
  | .hello client peers => .obj [("type", .str "HELLO"), ("client", client.toJson u),
      ("peers", .arr (peers.map (ClientInfo.toJson u)))]
  | .join peer => .obj [("type", .str "JOIN"), ("peer", peer.toJson u)]
  | .update peer => .obj [("type", .str "UPDATE"), ("peer", peer.toJson u)]
  | .left peerId => .obj [("type", .str "LEFT"), ("peerId", u.toJson peerId)]
  | .offer m => .obj (("type", .str "OFFER") :: m.toFields u)
  | .answer m => .obj (("type", .str "ANSWER") :: m.toFields u)
  | .error code => .obj [("type", .str "ERROR"), ("code", .num code)]

/-- The variant of a tag, from what is beside it. -/
def WsServerMessage.ofVariant (type : String) (j : Json) : Option WsServerMessage :=
  match type with
  | "HELLO" => do
    let fs ← j.record ["client", "peers"] []
    return .hello (← field "client" (ClientInfo.ofJson u) fs)
      (← (← field "peers" elems fs).mapM (ClientInfo.ofJson u))
  | "JOIN" => do return .join (← field "peer" (ClientInfo.ofJson u) (← j.record ["peer"] []))
  | "UPDATE" => do return .update (← field "peer" (ClientInfo.ofJson u) (← j.record ["peer"] []))
  | "LEFT" => do return .left (← field "peerId" u.ofJson (← j.record ["peerId"] []))
  | "OFFER" => do return .offer (← WsServerSdpMessage.ofJson u j)
  | "ANSWER" => do return .answer (← WsServerSdpMessage.ofJson u j)
  | "ERROR" => do return .error (← field "code" u16 (← j.record ["code"] []))
  | _ => none

def WsServerMessage.ofJson : Json → Option WsServerMessage :=
  tagged "type" (WsServerMessage.ofVariant u)

/-! ## 4. Messages of the client -/

def WsClientSdpMessage.toFields (m : WsClientSdpMessage) : List (String × Json) :=
  [("sessionId", .str m.sessionId), ("target", u.toJson m.target), ("sdp", .str m.sdp)]

def WsClientSdpMessage.ofJson (j : Json) : Option WsClientSdpMessage := do
  let fs ← j.record ["sessionId", "target", "sdp"] []
  return ⟨← field "sessionId" text fs, ← field "target" u.ofJson fs, ← field "sdp" text fs⟩

def WsClientMessage.toJson : WsClientMessage → Json
  | .update info => .obj [("type", .str "UPDATE"), ("info", info.toJson)]
  | .offer m => .obj (("type", .str "OFFER") :: m.toFields u)
  | .answer m => .obj (("type", .str "ANSWER") :: m.toFields u)

def WsClientMessage.ofVariant (type : String) (j : Json) : Option WsClientMessage :=
  match type with
  | "UPDATE" => do
    return .update (← field "info" ClientInfoWithoutId.ofJson (← j.record ["info"] []))
  | "OFFER" => do return .offer (← WsClientSdpMessage.ofJson u j)
  | "ANSWER" => do return .answer (← WsClientSdpMessage.ofJson u j)
  | _ => none

def WsClientMessage.ofJson : Json → Option WsClientMessage :=
  tagged "type" (WsClientMessage.ofVariant u)

end Messages

/-! ## 5. The values of the source -/

def ClientInfo.Sized (info : ClientInfo) : Prop := info.id.Sized

def WsServerMessage.Sized : WsServerMessage → Prop
  | .hello client peers => client.Sized ∧ ∀ peer ∈ peers, peer.Sized
  | .join peer | .update peer => peer.Sized
  | .left peerId => peerId.Sized
  | .offer m | .answer m => m.peer.Sized
  | .error code => code < UInt16.size

def WsClientMessage.Sized : WsClientMessage → Prop
  | .update _ => True
  | .offer m | .answer m => m.target.Sized

/-! ## 6. What is written is read back -/

theorem DeviceType.ofJson_toJson (t : DeviceType) : ofJson (DeviceType.toJson t) = some t := by
  cases t <;> rfl

theorem ClientInfoWithoutId.ofFields_toFields (info : ClientInfoWithoutId) :
    ofFields info.toFields = some info := by
  obtain ⟨aliasName, version, deviceModel, deviceType, token⟩ := info
  have htype : ∀ t, orNull DeviceType.ofJson (DeviceType.toJson t) = some (some t) := by
    intro t
    cases t <;> rfl
  cases deviceModel <;> cases deviceType <;>
    simp [ofFields, toFields, field, optionalField, skipNone, htype]

theorem ClientInfoWithoutId.ofJson_toJson (info : ClientInfoWithoutId) :
    ofJson info.toJson = some info := by
  simp [ofJson, toJson, ofFields_toFields]

/-- The id beside the other fields is none of them. -/
theorem ClientInfoWithoutId.ofFields_id (id : Json) (fs : List (String × Json)) :
    ofFields (("id", id) :: fs) = ofFields fs := by
  simp [ofFields, field, optionalField]

theorem ClientInfoWithoutId.toFields_id (info : ClientInfoWithoutId) :
    ∀ f ∈ info.toFields, f.1 ≠ "id" := by
  obtain ⟨aliasName, version, deviceModel, deviceType, token⟩ := info
  cases deviceModel <;> cases deviceType <;> simp [toFields, skipNone]

section Reading

variable {u : UuidText}

theorem UuidText.ofJson_toJson {id : Uuid} (h : id.Sized) :
    u.ofJson (u.toJson id) = some id := by
  rw [UuidText.ofJson, UuidText.toJson, text_str, Option.bind_some, u.read_write id h]

theorem ClientInfo.ofJson_toJson {info : ClientInfo} (h : info.Sized) :
    ClientInfo.ofJson u (info.toJson u) = some info := by
  have hrest : info.toClientInfoWithoutId.toFields.filter (fun f => decide (f.1 = "id")) = [] := by
    simpa [List.filter_eq_nil_iff] using info.toClientInfoWithoutId.toFields_id
  have hid : u.ofJson (u.toJson info.id) = some info.id := UuidText.ofJson_toJson h
  simp [ClientInfo.ofJson, ClientInfo.toJson, ClientInfoWithoutId.ofFields_id,
    ClientInfoWithoutId.ofFields_toFields, field, hrest, hid]

theorem WsServerSdpMessage.ofJson_toFields {m : WsServerSdpMessage} (h : m.peer.Sized) :
    WsServerSdpMessage.ofJson u (.obj (m.toFields u)) = some m := by
  simp [WsServerSdpMessage.ofJson, WsServerSdpMessage.toFields, field,
    ClientInfo.ofJson_toJson h]

theorem WsClientSdpMessage.ofJson_toFields {m : WsClientSdpMessage} (h : m.target.Sized) :
    WsClientSdpMessage.ofJson u (.obj (m.toFields u)) = some m := by
  simp [WsClientSdpMessage.ofJson, WsClientSdpMessage.toFields, field,
    UuidText.ofJson_toJson h]

/-- No field of a wrapped message has the name of the tag. -/
theorem WsServerSdpMessage.toFields_type (m : WsServerSdpMessage) :
    ∀ f ∈ m.toFields u, f.1 ≠ "type" := by
  simp [WsServerSdpMessage.toFields]

theorem WsClientSdpMessage.toFields_type (m : WsClientSdpMessage) :
    ∀ f ∈ m.toFields u, f.1 ≠ "type" := by
  simp [WsClientSdpMessage.toFields]

/-- **A message of the server is read back.** -/
theorem WsServerMessage.ofJson_toJson {m : WsServerMessage} (h : m.Sized) :
    WsServerMessage.ofJson u (m.toJson u) = some m := by
  rw [WsServerMessage.ofJson]
  cases m with
  | hello client peers =>
      have hpeers : (peers.map (ClientInfo.toJson u)).mapM (ClientInfo.ofJson u) = some peers :=
        mapM_map fun peer hpeer => ClientInfo.ofJson_toJson (h.2 peer hpeer)
      rw [WsServerMessage.toJson, tagged_obj (by simp)]
      simp [WsServerMessage.ofVariant, field, ClientInfo.ofJson_toJson h.1, hpeers]
  | join peer =>
      rw [WsServerMessage.toJson, tagged_obj (by simp)]
      simp [WsServerMessage.ofVariant, field, ClientInfo.ofJson_toJson h]
  | update peer =>
      rw [WsServerMessage.toJson, tagged_obj (by simp)]
      simp [WsServerMessage.ofVariant, field, ClientInfo.ofJson_toJson h]
  | left peerId =>
      rw [WsServerMessage.toJson, tagged_obj (by simp)]
      simp [WsServerMessage.ofVariant, field, UuidText.ofJson_toJson h]
  | offer m =>
      rw [WsServerMessage.toJson, tagged_obj m.toFields_type]
      simp [WsServerMessage.ofVariant, WsServerSdpMessage.ofJson_toFields h]
  | answer m =>
      rw [WsServerMessage.toJson, tagged_obj m.toFields_type]
      simp [WsServerMessage.ofVariant, WsServerSdpMessage.ofJson_toFields h]
  | error code =>
      rw [WsServerMessage.toJson, tagged_obj (by simp)]
      simp [WsServerMessage.ofVariant, field, u16_num h]

/-- **A message of the client is read back.** -/
theorem WsClientMessage.ofJson_toJson {m : WsClientMessage} (h : m.Sized) :
    WsClientMessage.ofJson u (m.toJson u) = some m := by
  rw [WsClientMessage.ofJson]
  cases m with
  | update info =>
      rw [WsClientMessage.toJson, tagged_obj (by simp)]
      simp [WsClientMessage.ofVariant, field, ClientInfoWithoutId.ofJson_toJson]
  | offer m =>
      rw [WsClientMessage.toJson, tagged_obj m.toFields_type]
      simp [WsClientMessage.ofVariant, WsClientSdpMessage.ofJson_toFields h]
  | answer m =>
      rw [WsClientMessage.toJson, tagged_obj m.toFields_type]
      simp [WsClientMessage.ofVariant, WsClientSdpMessage.ofJson_toFields h]

/-! ## 7. Nothing else is read -/

theorem UuidText.sized_of_ofJson {j : Json} {id : Uuid} (h : u.ofJson j = some id) :
    id.Sized := by
  obtain ⟨s, _, hs⟩ := Option.bind_eq_some_iff.mp h
  exact u.sized_of_read s id hs

theorem ClientInfo.sized_of_ofJson {j : Json} {info : ClientInfo}
    (h : ClientInfo.ofJson u j = some info) : info.Sized := by
  simp only [ClientInfo.ofJson, Option.bind_eq_bind, Option.bind_eq_some_iff, Option.pure_def,
    Option.some.injEq] at h
  obtain ⟨fs, _, rest, _, id, hid, rfl⟩ := h
  obtain ⟨j, hj⟩ := of_field hid
  exact UuidText.sized_of_ofJson hj

theorem WsServerSdpMessage.sized_of_ofJson {j : Json} {m : WsServerSdpMessage}
    (h : WsServerSdpMessage.ofJson u j = some m) : m.peer.Sized := by
  simp only [WsServerSdpMessage.ofJson, Option.bind_eq_bind, Option.bind_eq_some_iff,
    Option.pure_def, Option.some.injEq] at h
  obtain ⟨fs, _, peer, hpeer, sessionId, _, sdp, _, rfl⟩ := h
  obtain ⟨j, hj⟩ := of_field hpeer
  exact ClientInfo.sized_of_ofJson hj

theorem WsClientSdpMessage.sized_of_ofJson {j : Json} {m : WsClientSdpMessage}
    (h : WsClientSdpMessage.ofJson u j = some m) : m.target.Sized := by
  simp only [WsClientSdpMessage.ofJson, Option.bind_eq_bind, Option.bind_eq_some_iff,
    Option.pure_def, Option.some.injEq] at h
  obtain ⟨fs, _, sessionId, _, target, htarget, sdp, _, rfl⟩ := h
  obtain ⟨j, hj⟩ := of_field htarget
  exact UuidText.sized_of_ofJson hj

/-- **What is read as a message of the server is a value of the source.** -/
theorem WsServerMessage.sized_of_ofJson {j : Json} {m : WsServerMessage}
    (h : WsServerMessage.ofJson u j = some m) : m.Sized := by
  obtain ⟨type, rest, h⟩ := of_tagged h
  unfold WsServerMessage.ofVariant at h
  split at h <;> simp only [Option.bind_eq_bind, Option.bind_eq_some_iff, Option.pure_def,
    Option.some.injEq, reduceCtorEq] at h
  · obtain ⟨fs, _, client, hclient, js, _, peers, hpeers, rfl⟩ := h
    obtain ⟨j, hj⟩ := of_field hclient
    refine ⟨ClientInfo.sized_of_ofJson hj, fun peer hpeer => ?_⟩
    obtain ⟨j, hj⟩ := of_mapM hpeers peer hpeer
    exact ClientInfo.sized_of_ofJson hj
  · obtain ⟨fs, _, peer, hpeer, rfl⟩ := h
    obtain ⟨j, hj⟩ := of_field hpeer
    exact ClientInfo.sized_of_ofJson hj
  · obtain ⟨fs, _, peer, hpeer, rfl⟩ := h
    obtain ⟨j, hj⟩ := of_field hpeer
    exact ClientInfo.sized_of_ofJson hj
  · obtain ⟨fs, _, peerId, hid, rfl⟩ := h
    obtain ⟨j, hj⟩ := of_field hid
    exact UuidText.sized_of_ofJson hj
  · obtain ⟨m, hm, rfl⟩ := h
    exact WsServerSdpMessage.sized_of_ofJson hm
  · obtain ⟨m, hm, rfl⟩ := h
    exact WsServerSdpMessage.sized_of_ofJson hm
  · obtain ⟨fs, _, code, hcode, rfl⟩ := h
    obtain ⟨j, hj⟩ := of_field hcode
    exact u16_lt hj

/-- **What is read as a message of the client is a value of the source.** -/
theorem WsClientMessage.sized_of_ofJson {j : Json} {m : WsClientMessage}
    (h : WsClientMessage.ofJson u j = some m) : m.Sized := by
  obtain ⟨type, rest, h⟩ := of_tagged h
  unfold WsClientMessage.ofVariant at h
  split at h <;> simp only [Option.bind_eq_bind, Option.bind_eq_some_iff, Option.pure_def,
    Option.some.injEq, reduceCtorEq] at h
  · obtain ⟨fs, _, info, _, rfl⟩ := h
    trivial
  · obtain ⟨m, hm, rfl⟩ := h
    exact WsClientSdpMessage.sized_of_ofJson hm
  · obtain ⟨m, hm, rfl⟩ := h
    exact WsClientSdpMessage.sized_of_ofJson hm

end Reading

/-! ## 8. Hyphenated texts -/

/-- The lowest `n` hexadecimal digits, the highest first. -/
def hexDigits : Nat → Nat → List Char
  | 0, _ => []
  | n + 1, id => hexDigits n (id / 16) ++ [Nat.digitChar (id % 16)]

/-- The value of hexadecimal digits, behind `id`. -/
def ofHexDigits : Nat → List Char → Option Nat
  | id, [] => some id
  | id, c :: cs => (hexValue c).bind fun d => ofHexDigits (id * 16 + d) cs

theorem length_hexDigits (n id : Nat) : (hexDigits n id).length = n := by
  induction n generalizing id with
  | zero => rfl
  | succ n ih => rw [hexDigits, List.length_append, ih, List.length_singleton]

theorem ofHexDigits_append (a b : List Char) (id : Nat) :
    ofHexDigits id (a ++ b) = (ofHexDigits id a).bind fun id => ofHexDigits id b := by
  induction a generalizing id with
  | nil => rfl
  | cons c a ih =>
      simp only [List.cons_append, ofHexDigits, ih, Option.bind_assoc]

/-- **Digits are read back**, as many as were written. -/
theorem ofHexDigits_hexDigits (n start id : Nat) :
    ofHexDigits start (hexDigits n id) = some (start * 16 ^ n + id % 16 ^ n) := by
  induction n generalizing id with
  | zero => simp [hexDigits, ofHexDigits, Nat.mod_one]
  | succ n ih =>
      have hdigit := hexValue_digitChar (id % 16) (Nat.mod_lt _ (by decide))
      have hmod : id % 16 ^ (n + 1) = 16 * (id / 16 % 16 ^ n) + id % 16 := by
        rw [Nat.pow_succ', Nat.mod_mul, Nat.add_comm]
      rw [hexDigits, ofHexDigits_append, ih, Option.bind_some, ofHexDigits, hdigit,
        Option.bind_some, ofHexDigits, hmod, Nat.pow_succ]
      congr 1
      rw [Nat.add_mul, Nat.mul_assoc, Nat.mul_comm (id / 16 % 16 ^ n) 16, Nat.add_assoc]

theorem hexValue_lt {c : Char} {d : Nat} (h : hexValue c = some d) : d < 16 := by
  unfold hexValue at h
  split_ifs at h with h1 h2 h3
  · simp only [Char.isDigit, Bool.and_eq_true, decide_eq_true_eq] at h1
    obtain rfl := Option.some.inj h
    have hle : c.toNat ≤ '9'.toNat := h1.2
    have hnine : '9'.toNat = 57 ∧ '0'.toNat = 48 := ⟨rfl, rfl⟩
    omega
  · obtain rfl := Option.some.inj h
    have hle : c.toNat ≤ 'f'.toNat := h2.2
    have hf : 'f'.toNat = 102 ∧ 'a'.toNat = 97 := ⟨rfl, rfl⟩
    omega
  · obtain rfl := Option.some.inj h
    have hle : c.toNat ≤ 'F'.toNat := h3.2
    have hf : 'F'.toNat = 70 ∧ 'A'.toNat = 65 := ⟨rfl, rfl⟩
    omega

theorem ofHexDigits_lt {cs : List Char} {start id : Nat} (h : ofHexDigits start cs = some id) :
    id < (start + 1) * 16 ^ cs.length := by
  induction cs generalizing start with
  | nil =>
      obtain rfl := Option.some.inj h
      simp
  | cons c cs ih =>
      obtain ⟨d, hd, h⟩ := Option.bind_eq_some_iff.mp h
      have hlt := hexValue_lt hd
      calc id < (start * 16 + d + 1) * 16 ^ cs.length := ih h
        _ ≤ ((start + 1) * 16) * 16 ^ cs.length := Nat.mul_le_mul_right _ (by omega)
        _ = (start + 1) * 16 ^ (c :: cs).length := by
            rw [Nat.mul_assoc, ← Nat.pow_succ', List.length_cons]

/-- The 32 digits in groups of 8, 4, 4, 4 and 12. -/
def hyphenate (cs : List Char) : List Char :=
  cs.take 8 ++ '-' :: ((cs.drop 8).take 4 ++ '-' :: ((cs.drop 12).take 4 ++
    '-' :: ((cs.drop 16).take 4 ++ '-' :: cs.drop 20)))

/-- The digits of a hyphenated text. -/
def dehyphenate (cs : List Char) : Option (List Char) :=
  let digits := cs.take 8 ++ ((cs.drop 9).take 4 ++ ((cs.drop 14).take 4 ++
    ((cs.drop 19).take 4 ++ cs.drop 24)))
  if digits.length = 32 ∧ hyphenate digits = cs then some digits else none

theorem dehyphenate_hyphenate {cs : List Char} (h : cs.length = 32) :
    dehyphenate (hyphenate cs) = some cs := by
  have hrest : ∀ n, (cs.drop n).take 4 ++ cs.drop (n + 4) = cs.drop n := fun n => by
    rw [← List.drop_drop, List.take_append_drop]
  have hdigits : (hyphenate cs).take 8 ++ (((hyphenate cs).drop 9).take 4 ++
      (((hyphenate cs).drop 14).take 4 ++ (((hyphenate cs).drop 19).take 4 ++
        (hyphenate cs).drop 24))) =
      cs.take 8 ++ ((cs.drop 8).take 4 ++ ((cs.drop 12).take 4 ++
        ((cs.drop 16).take 4 ++ cs.drop 20))) := by
    simp [hyphenate, List.drop_append, List.drop_take, h]
  rw [hrest 16, hrest 12, hrest 8, List.take_append_drop] at hdigits
  rw [dehyphenate, hdigits, if_pos ⟨h, rfl⟩]

/-- **Ids as the crate writes them**: hyphenated, digits in lower case. -/
def UuidText.hyphenated : UuidText where
  write id := String.ofList (hyphenate (hexDigits 32 id))
  read s := (dehyphenate s.toList).bind (ofHexDigits 0)
  read_write id h := by
    have hid : id % 16 ^ 32 = id := Nat.mod_eq_of_lt h
    rw [String.toList_ofList, dehyphenate_hyphenate (length_hexDigits 32 id), Option.bind_some,
      ofHexDigits_hexDigits, hid, Nat.zero_mul, Nat.zero_add]
  sized_of_read s id h := by
    obtain ⟨digits, hdigits, h⟩ := Option.bind_eq_some_iff.mp h
    simp only [dehyphenate, Option.ite_none_right_eq_some, Option.some.injEq] at hdigits
    obtain ⟨⟨hlength, _⟩, rfl⟩ := hdigits
    have hlt := ofHexDigits_lt h
    rw [hlength] at hlt
    exact hlt

/-- An offer without a device model, from the nil id. -/
def appleSdp : WsServerSdpMessage :=
  ⟨ClientInfo.from ⟨"Cute Apple", "2.3", none, some .desktop, "123"⟩ 0, "456", "my-sdp"⟩

example : (WsServerMessage.offer appleSdp).toJson .hyphenated =
    .obj [("type", .str "OFFER"),
      ("peer", .obj [("id", .str "00000000-0000-0000-0000-000000000000"),
        ("alias", .str "Cute Apple"), ("version", .str "2.3"), ("deviceType", .str "desktop"),
        ("token", .str "123")]),
      ("sessionId", .str "456"), ("sdp", .str "my-sdp")] := rfl

/-! ## 9. The wire -/

open WebRtc in
/-- **Every message type is read back and told apart**: those of the signaling connection, then
    those of the peers. -/
theorem wire_round_trip (u : UuidText) :
    RoundTrip WsServerMessage.Sized (WsServerMessage.toJson u) (WsServerMessage.ofJson u) ∧
    RoundTrip WsClientMessage.Sized (WsClientMessage.toJson u) (WsClientMessage.ofJson u) ∧
    RoundTrip ClientInfo.Sized (ClientInfo.toJson u) (ClientInfo.ofJson u) ∧
    RoundTrip (fun _ => True) ClientInfoWithoutId.toJson ClientInfoWithoutId.ofJson ∧
    RoundTrip (fun _ => True) RTCNonceMessage.toJson RTCNonceMessage.ofJson ∧
    RoundTrip (fun _ => True) RTCTokenRequest.toJson RTCTokenRequest.ofJson ∧
    RoundTrip (fun _ => True) RTCTokenResponse.toJson RTCTokenResponse.ofJson ∧
    RoundTrip (fun _ => True) RTCPinMessage.toJson RTCPinMessage.ofJson ∧
    RoundTrip (fun _ => True) RTCPinReceivingResponse.toJson RTCPinReceivingResponse.ofJson ∧
    RoundTrip (fun _ => True) RTCPinSendingResponse.toJson RTCPinSendingResponse.ofJson ∧
    RoundTrip (fun _ => True) RTCFileListResponse.toJson RTCFileListResponse.ofJson ∧
    RoundTrip (fun _ => True) RTCPairResponse.toJson RTCPairResponse.ofJson ∧
    RoundTrip (fun _ => True) RTCSendFileHeaderRequest.toJson RTCSendFileHeaderRequest.ofJson ∧
    RoundTrip (fun _ => True) RTCSendFileResponse.toJson RTCSendFileResponse.ofJson :=
  ⟨.of_read fun _ h => WsServerMessage.ofJson_toJson h,
    .of_read fun _ h => WsClientMessage.ofJson_toJson h,
    .of_read fun _ h => ClientInfo.ofJson_toJson h,
    .of_read fun info _ => info.ofJson_toJson,
    .of_read fun m _ => m.ofJson_toJson,
    .of_read fun m _ => m.ofJson_toJson,
    .of_read fun m _ => m.ofJson_toJson,
    .of_read fun m _ => m.ofJson_toJson,
    .of_read fun m _ => m.ofJson_toJson,
    .of_read fun m _ => m.ofJson_toJson,
    .of_read fun m _ => m.ofJson_toJson,
    .of_read fun m _ => m.ofJson_toJson,
    .of_read fun m _ => m.ofJson_toJson,
    .of_read fun m _ => m.ofJson_toJson⟩

theorem wire_round_trip_appleSdp :
    WsServerMessage.ofJson .hyphenated ((WsServerMessage.offer appleSdp).toJson .hyphenated) =
      some (.offer appleSdp) ∧
    (WsServerMessage.offer appleSdp).toJson .hyphenated ≠
      (WsServerMessage.answer appleSdp).toJson .hyphenated := by
  have hserver := (wire_round_trip .hyphenated).1
  have hoffer : (WsServerMessage.offer appleSdp).Sized := Nat.two_pow_pos 128
  have hanswer : (WsServerMessage.answer appleSdp).Sized := Nat.two_pow_pos 128
  refine ⟨hserver.read_write _ hoffer, fun heq => ?_⟩
  cases hserver.write_inj _ _ hoffer hanswer heq

end LocalSend.Signaling
