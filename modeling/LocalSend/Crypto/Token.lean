/-
  File:      LocalSend/Crypto/Token.lean
  Subject:   TOKENS (`core/src/crypto/token.rs`): a peer signs a salt together with its own key.

  A token is five fields between dots: the hash method, the hash of key and salt, the salt, the
  signature method, the signature of the hash. SHA-256, ed25519 and base64 are library code:
  parameters, with what a token relies on (`Ed25519.verify_sign`, `Base64.decode_encode`, no dot in
  what was encoded).

  * `generateTokenNonce`, `extractSignatureIdentifier`, `verifyTokenWithResult`,
    `verifyTokenNonce` -- the functions of the source;
  * `parts_generate` -- **a token splits into the fields it was made of**;
  * `verify_generate` -- **a token is accepted for the salt it was made with, and for no other.**
-/
import LocalSend.Lib.Base64
import LocalSend.Lib.SplitOn

namespace LocalSend.Crypto

abbrev Bytes := List UInt8

/-! ## 1. Library code -/

/-- `ed25519_dalek`: the signature of a message is accepted under the key that goes with it. -/
structure Ed25519 where
  SigningKey : Type
  VerifyingKey : Type
  verifyingKey : SigningKey → VerifyingKey
  sign : SigningKey → Bytes → Bytes
  /-- `Signature::from_slice`, then `verify` -/
  verify : VerifyingKey → Bytes → Bytes → Bool
  toPublicKeyDer : VerifyingKey → Bytes
  verify_sign : ∀ key msg, verify (verifyingKey key) msg (sign key msg) = true

/-- A base64 engine whose alphabet has no dot. -/
structure Base64 where
  encode : Bytes → String
  decode : String → Option Bytes
  decode_encode : ∀ data, decode (encode data) = some data
  no_dot : ∀ data, '.' ∉ (encode data).toList

/-- **A strict decoder**: it reads only what the engine writes. -/
def Base64.Strict (base64 : Base64) : Prop :=
  ∀ text data, base64.decode text = some data → base64.encode data = text

/-- `URL_SAFE_NO_PAD`. -/
def urlSafeNoPad : Base64 where
  encode := Lib.Base64.encode
  decode := Lib.Base64.decode
  decode_encode := Lib.Base64.decode_encode
  no_dot := Lib.Base64.not_mem_encode (by decide)

theorem strict_urlSafeNoPad : urlSafeNoPad.Strict := fun _ _ h => Lib.Base64.encode_decode h

/-- What the functions of this file call. -/
structure Primitives where
  ed25519 : Ed25519
  base64 : Base64
  sha256 : Bytes → Bytes

/-! ## 2. Keys -/

structure SigningTokenKey (P : Primitives) where
  inner : P.ed25519.SigningKey

/-- The trait `VerifyingTokenKey`. -/
structure VerifyingTokenKey where
  /-- is the signature of the message accepted? -/
  verify : Bytes → Bytes → Bool
  /-- `none`: the key cannot be encoded -/
  toDer : Option Bytes
  signatureMethod : String

variable {P : Primitives}

def SigningTokenKey.publicKeyDer (key : SigningTokenKey P) : Bytes :=
  P.ed25519.toPublicKeyDer (P.ed25519.verifyingKey key.inner)

/-- `Ed25519VerifyingKey`. -/
def SigningTokenKey.toVerifyingKey (key : SigningTokenKey P) : VerifyingTokenKey where
  verify := P.ed25519.verify (P.ed25519.verifyingKey key.inner)
  toDer := some key.publicKeyDer
  signatureMethod := "ed25519"

/-! ## 3. Tokens -/

/-- `split('.')`. -/
def parts (token : String) : List String := (token.toList.splitOn '.').map String.ofList

def generateTokenNonce (key : SigningTokenKey P) (salt : Bytes) : String :=
  let digest := P.sha256 (key.publicKeyDer ++ salt)
  let signature := P.ed25519.sign key.inner digest
  let hashBase64 := P.base64.encode digest
  let saltBase64 := P.base64.encode salt
  let signatureBase64 := P.base64.encode signature
  "sha256" ++ "." ++ hashBase64 ++ "." ++ saltBase64 ++ "." ++ "ed25519" ++ "." ++ signatureBase64

def extractSignatureIdentifier (token : String) : Option String := (parts token)[3]?

inductive TokenError where
  | invalidHashMethod | invalidSignMethod | saltDecode | salt | der | hashMismatch
  | signatureDecode | invalidSignature
  deriving DecidableEq, Repr

/-- `verify_token_with_result` once the salt is accepted. -/
def verifySignature (P : Primitives) (publicKey : VerifyingTokenKey)
    (hashBase64 signatureBase64 : String) (salt : Bytes) : Except TokenError Unit := do
  let some publicKeyDer := publicKey.toDer | throw .der
  let digest := P.sha256 (publicKeyDer ++ salt)
  if P.base64.encode digest ≠ hashBase64 then throw .hashMismatch
  let some signature := P.base64.decode signatureBase64 | throw .signatureDecode
  if !publicKey.verify digest signature then throw .invalidSignature

/-- `verify_token_with_result`; `none` is a panic: of the slice, with fewer than five fields, or of
    `verify_salt`. -/
def verifyTokenWithResult (P : Primitives) (publicKey : VerifyingTokenKey) (token : String)
    (verifySalt : Bytes → Option Bool) : Option (Except TokenError Unit) :=
  match parts token with
  | hashMethod :: hashBase64 :: saltBase64 :: signMethod :: signatureBase64 :: _ =>
    if hashMethod ≠ "sha256" then some (.error .invalidHashMethod)
    else if signMethod ≠ publicKey.signatureMethod then some (.error .invalidSignMethod)
    else
      match P.base64.decode saltBase64 with
      | none => some (.error .saltDecode)
      | some salt =>
        (verifySalt salt).map fun ok =>
          if ok then verifySignature P publicKey hashBase64 signatureBase64 salt
          else .error .salt
  | _ => none

def verifyTokenNonce (P : Primitives) (publicKey : VerifyingTokenKey) (token : String)
    (nonce : Bytes) : Option Bool :=
  (verifyTokenWithResult P publicKey token fun salt => some (salt = nonce)).map Except.isOk

/-! ## 4. Splitting a token -/

/-- A field ends at the first dot. -/
theorem parts_field {field : String} (h : '.' ∉ field.toList) (rest : String) :
    parts (field ++ "." ++ rest) = field :: parts rest := by
  have hchars : (field ++ "." ++ rest).toList = field.toList ++ '.' :: rest.toList := by
    simp [String.toList_append]
  rw [parts, hchars, List.splitOn_append_cons_self_of_not_mem h, List.map_cons,
    String.ofList_toList]
  rfl

theorem parts_last {field : String} (h : '.' ∉ field.toList) : parts field = [field] := by
  rw [parts, List.splitOn_eq_singleton h, List.map_singleton, String.ofList_toList]

/-- Texts around a dot. -/
theorem parts_append (first more : String) :
    parts (first ++ "." ++ more) = parts first ++ parts more := by
  have hchars : (first ++ "." ++ more).toList = first.toList ++ '.' :: more.toList := by
    simp [String.toList_append]
  rw [parts, hchars, List.splitOn_append_cons_self, List.map_append]
  rfl

theorem parts_ne_nil (token : String) : parts token ≠ [] := by
  simp [parts]

/-- **Fields after each other**: the text is two texts around a dot. -/
theorem parts_eq_append {token : String} {fields more : List String}
    (h : parts token = fields ++ more) (hfields : fields ≠ []) (hmore : more ≠ []) :
    ∃ first rest, token = first ++ "." ++ rest ∧ parts first = fields ∧ parts rest = more := by
  have hofList : ∀ texts : List String, (texts.map String.toList).map String.ofList = texts := by
    intro texts
    simp [List.map_map, Function.comp_def]
  have htoList : ∀ texts : List (List Char),
      (texts.map String.ofList).map String.toList = texts := by
    intro texts
    simp [List.map_map, Function.comp_def]
  have hsplit : token.toList.splitOn '.' =
      fields.map String.toList ++ more.map String.toList := by
    rw [← List.map_append, ← h, parts, htoList]
  obtain ⟨a, b, hab, ha, hb⟩ := Lib.SplitOn.splitOn_eq_append hsplit (by simpa using hfields)
    (by simpa using hmore)
  refine ⟨.ofList a, .ofList b, ?_, ?_, ?_⟩
  · rw [← String.toList_inj]
    simp [hab]
  · rw [parts, String.toList_ofList, ha, hofList]
  · rw [parts, String.toList_ofList, hb, hofList]

/-- **A token splits into the fields it was made of.** -/
theorem parts_generate (key : SigningTokenKey P) (salt : Bytes) :
    parts (generateTokenNonce key salt) =
      ["sha256", P.base64.encode (P.sha256 (key.publicKeyDer ++ salt)), P.base64.encode salt,
        "ed25519",
        P.base64.encode (P.ed25519.sign key.inner (P.sha256 (key.publicKeyDer ++ salt)))] := by
  have hassoc : ∀ a b c d e : String, a ++ "." ++ b ++ "." ++ c ++ "." ++ d ++ "." ++ e =
      a ++ "." ++ (b ++ "." ++ (c ++ "." ++ (d ++ "." ++ e))) := by
    intro a b c d e
    simp only [String.append_assoc]
  rw [generateTokenNonce, hassoc, parts_field (by decide), parts_field (P.base64.no_dot _),
    parts_field (P.base64.no_dot _), parts_field (by decide), parts_last (P.base64.no_dot _)]

/-! ## 5. The round trip -/

/-- The hash and the signature of a token under its own key. -/
theorem verifySignature_generate (key : SigningTokenKey P) (salt : Bytes) :
    verifySignature P key.toVerifyingKey (P.base64.encode (P.sha256 (key.publicKeyDer ++ salt)))
      (P.base64.encode (P.ed25519.sign key.inner (P.sha256 (key.publicKeyDer ++ salt)))) salt =
      .ok () := by
  have hder : key.toVerifyingKey.toDer = some key.publicKeyDer := rfl
  have hverify : key.toVerifyingKey.verify (P.sha256 (key.publicKeyDer ++ salt))
      (P.ed25519.sign key.inner (P.sha256 (key.publicKeyDer ++ salt))) = true :=
    P.ed25519.verify_sign _ _
  simp [verifySignature, hder, P.base64.decode_encode, hverify, pure, Except.pure]

/-- A token under its own key: only the salt decides. -/
theorem verifyTokenWithResult_generate (key : SigningTokenKey P) (salt : Bytes)
    (verifySalt : Bytes → Option Bool) :
    verifyTokenWithResult P key.toVerifyingKey (generateTokenNonce key salt) verifySalt =
      (verifySalt salt).map fun ok => if ok then .ok () else .error .salt := by
  have hmethod : key.toVerifyingKey.signatureMethod = "ed25519" := rfl
  simp only [verifyTokenWithResult, parts_generate, hmethod, ne_eq, not_true_eq_false, if_false,
    P.base64.decode_encode, verifySignature_generate]

/-- **A token is accepted for the salt it was made with, and for no other**; its fourth field is
    the signature method of the key. -/
theorem verify_generate (P : Primitives) (key : SigningTokenKey P) (salt nonce : Bytes) :
    (verifyTokenNonce P key.toVerifyingKey (generateTokenNonce key salt) nonce = some true ↔
      salt = nonce) ∧
    extractSignatureIdentifier (generateTokenNonce key salt) =
      some key.toVerifyingKey.signatureMethod := by
  constructor
  · rw [verifyTokenNonce, verifyTokenWithResult_generate]
    by_cases hnonce : salt = nonce <;> simp [hnonce, Except.isOk, Except.toBool]
  · rw [extractSignatureIdentifier, parts_generate]
    rfl

/-- A scheme whose signature is the key and the message. -/
def keyedEd25519 : Ed25519 where
  SigningKey := Bytes
  VerifyingKey := Bytes
  verifyingKey key := key
  sign key msg := key ++ msg
  verify key msg signature := signature = key ++ msg
  toPublicKeyDer key := key
  verify_sign _ _ := decide_eq_true rfl

def keyedPrimitives : Primitives := ⟨keyedEd25519, urlSafeNoPad, fun data => data.take 32⟩

/-- A token with a salt of two bytes: another salt is refused, also a part of its own. -/
theorem verify_generate_keyed :
    let key : SigningTokenKey keyedPrimitives := ⟨[7]⟩
    let token := generateTokenNonce key [1, 2]
    verifyTokenNonce keyedPrimitives key.toVerifyingKey token [1, 2] = some true ∧
    verifyTokenNonce keyedPrimitives key.toVerifyingKey token [1] ≠ some true ∧
    extractSignatureIdentifier token = some "ed25519" := by
  have haccepted := verify_generate keyedPrimitives ⟨[7]⟩ [1, 2] [1, 2]
  have hrefused := verify_generate keyedPrimitives ⟨[7]⟩ [1, 2] [1]
  exact ⟨haccepted.1.mpr rfl, fun h => absurd (hrefused.1.mp h) (by decide), haccepted.2⟩

end LocalSend.Crypto
