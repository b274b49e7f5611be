/-
  File:      LocalSend/Crypto/Verification.lean
  Subject:   VERIFYING ANY TEXT as a token: what makes the verification panic, what it accepts, and
             the check of a timestamp.

  `verify_token_with_result` takes the first five fields of a text, so a text with fewer of them
  panics, and further ones are not looked at. The age of a timestamp is a difference of two `u64`.

  * `saltOf`, `panics_iff`, `accepts_iff` -- **the verification in two equivalences**;
  * `returns_iff` -- both verifications return for a text exactly if it has five fields and no
    timestamp that is subtracted below zero;
  * `Grammar` -- the texts of five fields with a salt and its signature; `token_grammar_iff` -- only
    these are accepted, exactly unless they are followed by further fields;
  * `timestamp_exact_iff` -- a timestamp is checked exactly unless it is in the future.
-/
import LocalSend.Crypto.Token
import Mathlib.Data.Nat.Digits.Defs

namespace LocalSend.Crypto

/-! ## 1. Timestamps -/

/-- `u64::to_le_bytes`. -/
def toLeBytes (n : UInt64) : Bytes := (List.range 8).map fun i => .ofNat (n.toNat / 256 ^ i)

/-- `u64::from_le_bytes`. -/
def fromLeBytes (bytes : Bytes) : UInt64 := .ofNat (Nat.ofDigits 256 (bytes.map UInt8.toNat))

/-- The difference of two `u64`: below zero it panics in a build with overflow checks, and wraps
    around in one without. -/
def subU64 (overflowChecks : Bool) (a b : UInt64) : Option UInt64 :=
  if overflowChecks && a < b then none else some (a - b)

variable {P : Primitives}

/-- `now` is `unix_timestamp_u64`. -/
def generateTokenTimestamp (key : SigningTokenKey P) (now : UInt64) : String :=
  generateTokenNonce key (toLeBytes now)

/-- The check of the salt in `verify_token_timestamp`; `now` is `unix_timestamp_u64`, which fails
    before 1970. -/
def verifyTimestamp (overflowChecks : Bool) (now : Option UInt64) (salt : Bytes) : Option Bool :=
  if salt.length ≠ 8 then some false
  else
    match now with
    | none => some false
    | some nowSeconds =>
      (subU64 overflowChecks nowSeconds (fromLeBytes salt)).map fun age => !(age > 60 * 60)

def verifyTokenTimestamp (P : Primitives) (overflowChecks : Bool) (now : Option UInt64)
    (publicKey : VerifyingTokenKey) (token : String) : Option Bool :=
  (verifyTokenWithResult P publicKey token (verifyTimestamp overflowChecks now)).map Except.isOk

theorem fromLeBytes_toLeBytes (n : UInt64) : fromLeBytes (toLeBytes n) = n := by
  have hn := n.toNat_lt
  have hdigits : Nat.ofDigits 256 ((toLeBytes n).map UInt8.toNat) = n.toNat := by
    simp only [toLeBytes, List.range, List.range.loop, List.map_cons, List.map_nil,
      UInt8.toNat_ofNat', Nat.ofDigits_cons, Nat.ofDigits_nil]
    omega
  rw [fromLeBytes, hdigits, UInt64.ofNat_toNat]

/-- A difference that is not below zero. -/
theorem subU64_of_le {overflowChecks : Bool} {a b : UInt64} (h : b ≤ a) :
    subU64 overflowChecks a b = some (a - b) := by
  have hlt : ¬ a < b := by
    rw [UInt64.not_lt]
    exact h
  simp [subU64, hlt]

theorem subU64_eq_none {overflowChecks : Bool} {a b : UInt64} :
    subU64 overflowChecks a b = none ↔ overflowChecks = true ∧ a < b := by
  simp [subU64]

/-! ## 2. The verification -/

/-- The salt that comes to its check: the methods are the right ones. -/
def saltOf (P : Primitives) (publicKey : VerifyingTokenKey) (token : String) : Option Bytes :=
  match parts token with
  | hashMethod :: _ :: saltBase64 :: signMethod :: _ :: _ =>
    if hashMethod = "sha256" ∧ signMethod = publicKey.signatureMethod then
      P.base64.decode saltBase64
    else none
  | _ => none

/-- **The fields of a token** for this key and salt. -/
def TokenFields (P : Primitives) (publicKey : VerifyingTokenKey) (salt : Bytes)
    (fields : List String) : Prop :=
  ∃ saltBase64 signatureBase64 publicKeyDer signature, publicKey.toDer = some publicKeyDer ∧
    fields = ["sha256", P.base64.encode (P.sha256 (publicKeyDer ++ salt)), saltBase64,
      publicKey.signatureMethod, signatureBase64] ∧
    P.base64.decode saltBase64 = some salt ∧ P.base64.decode signatureBase64 = some signature ∧
    publicKey.verify (P.sha256 (publicKeyDer ++ salt)) signature = true

section Verify

variable {publicKey : VerifyingTokenKey} {token : String} {verifySalt : Bytes → Option Bool}
  {salt nonce : Bytes}

/-- The verification of five fields. -/
theorem verifyTokenWithResult_fields {hashMethod hashBase64 saltBase64 signMethod signatureBase64 :
    String} {more : List String} (hparts : parts token =
      hashMethod :: hashBase64 :: saltBase64 :: signMethod :: signatureBase64 :: more) :
    verifyTokenWithResult P publicKey token verifySalt =
      if hashMethod ≠ "sha256" then some (.error .invalidHashMethod)
      else if signMethod ≠ publicKey.signatureMethod then some (.error .invalidSignMethod)
      else
        match P.base64.decode saltBase64 with
        | none => some (.error .saltDecode)
        | some salt =>
          (verifySalt salt).map fun ok =>
            if ok then verifySignature P publicKey hashBase64 signatureBase64 salt
            else .error .salt := by
  unfold verifyTokenWithResult
  generalize parts token = fields at hparts
  subst hparts
  rfl

/-- The salt of five fields. -/
theorem saltOf_fields {hashMethod hashBase64 saltBase64 signMethod signatureBase64 : String}
    {more : List String} (hparts : parts token =
      hashMethod :: hashBase64 :: saltBase64 :: signMethod :: signatureBase64 :: more) :
    saltOf P publicKey token =
      if hashMethod = "sha256" ∧ signMethod = publicKey.signatureMethod then
        P.base64.decode saltBase64
      else none := by
  simp only [saltOf, hparts]

/-- A text has five fields and maybe more, or the slice panics. -/
theorem parts_cases (P : Primitives) (publicKey : VerifyingTokenKey) (token : String) :
    (∃ a b c d e more, parts token = a :: b :: c :: d :: e :: more) ∨
      (parts token).length < 5 ∧ ∀ verifySalt : Bytes → Option Bool,
        verifyTokenWithResult P publicKey token verifySalt = none := by
  unfold verifyTokenWithResult
  match parts token with
  | [] | [_] | [_, _] | [_, _, _] | [_, _, _, _] =>
      exact Or.inr ⟨by simp, fun _ => rfl⟩
  | a :: b :: c :: d :: e :: more => exact Or.inl ⟨a, b, c, d, e, more, rfl⟩

/-- **Panics**: of the slice and of the check of the salt. -/
theorem panics_iff : verifyTokenWithResult P publicKey token verifySalt = none ↔
    (parts token).length < 5 ∨
      ∃ salt, saltOf P publicKey token = some salt ∧ verifySalt salt = none := by
  rcases parts_cases P publicKey token with
    ⟨hashMethod, hashBase64, saltBase64, signMethod, signatureBase64, more, hparts⟩ | ⟨hlt, hnone⟩
  · have hlength : ¬ (parts token).length < 5 := by simp [hparts]
    rw [verifyTokenWithResult_fields hparts, saltOf_fields hparts]
    by_cases hhash : hashMethod = "sha256"
    · by_cases hsign : signMethod = publicKey.signatureMethod
      · cases hsalt : P.base64.decode saltBase64 <;> simp [hhash, hsign, hlength]
      · simp [hhash, hsign, hlength]
    · simp [hhash, hlength]
  · exact iff_of_true (hnone verifySalt) (Or.inl hlt)

theorem verifySignature_iff {hashBase64 signatureBase64 : String} :
    verifySignature P publicKey hashBase64 signatureBase64 salt = .ok () ↔
      ∃ publicKeyDer signature, publicKey.toDer = some publicKeyDer ∧
        P.base64.encode (P.sha256 (publicKeyDer ++ salt)) = hashBase64 ∧
        P.base64.decode signatureBase64 = some signature ∧
        publicKey.verify (P.sha256 (publicKeyDer ++ salt)) signature = true := by
  unfold verifySignature
  cases hder : publicKey.toDer with
  | none => simp [throw, throwThe, MonadExceptOf.throw]
  | some publicKeyDer =>
      by_cases hhash : P.base64.encode (P.sha256 (publicKeyDer ++ salt)) = hashBase64
      · cases hdecode : P.base64.decode signatureBase64 with
        | none => simp [hhash, throw, throwThe, MonadExceptOf.throw]
        | some signature =>
            cases hverify : publicKey.verify (P.sha256 (publicKeyDer ++ salt)) signature <;>
              simp [hhash, hverify, throw, throwThe, MonadExceptOf.throw, pure, Except.pure]
      · simp [hhash, throw, throwThe, MonadExceptOf.throw, bind, Except.bind]

/-- **What is accepted**: the fields of a token, whatever follows them. -/
theorem accepts_iff : verifyTokenWithResult P publicKey token verifySalt = some (.ok ()) ↔
    ∃ salt fields more, parts token = fields ++ more ∧ TokenFields P publicKey salt fields ∧
      verifySalt salt = some true := by
  constructor
  · intro h
    rcases parts_cases P publicKey token with
      ⟨hashMethod, hashBase64, saltBase64, signMethod, signatureBase64, more, hparts⟩ | ⟨_, hnone⟩
    · rw [verifyTokenWithResult_fields hparts] at h
      split at h
      · cases h
      · rename_i hhash
        split at h
        · cases h
        · rename_i hsign
          cases hdecode : P.base64.decode saltBase64 with
          | none =>
              rw [hdecode] at h
              cases h
          | some salt =>
              rw [hdecode] at h
              obtain ⟨ok, hok, h⟩ := Option.map_eq_some_iff.mp h
              cases ok with
              | false => cases h
              | true =>
                  obtain ⟨publicKeyDer, signature, hder, hencode, hsignature, hverify⟩ :=
                    verifySignature_iff.mp h
                  refine ⟨salt, _, more, hparts.trans ?_, ⟨saltBase64, signatureBase64,
                    publicKeyDer, signature, hder, rfl, hdecode, hsignature, hverify⟩, hok⟩
                  rw [hencode, ← not_not.mp hsign, ← not_not.mp hhash]
                  rfl
    · rw [hnone] at h
      cases h
  · rintro ⟨salt, fields, more, hparts, ⟨saltBase64, signatureBase64, publicKeyDer, signature, hder,
      rfl, hdecode, hsignature, hverify⟩, hsalt⟩
    have hrest := verifySignature_iff.mpr
      ⟨publicKeyDer, signature, hder, rfl, hsignature, hverify⟩
    rw [verifyTokenWithResult_fields hparts, if_neg (not_not.mpr rfl), if_neg (not_not.mpr rfl),
      hdecode]
    simp only [hsalt, Option.map_some, if_true, hrest]

theorem isOk_iff {result : Except TokenError Unit} : result.isOk = true ↔ result = .ok () := by
  cases result <;> simp [Except.isOk, Except.toBool]

/-- A verification that comes to the salt says what its check says. -/
theorem isOk_check (check : Option Bool) :
    (check.map fun ok => if ok then .ok () else .error TokenError.salt).map Except.isOk = check := by
  cases check with
  | none => rfl
  | some ok => cases ok <;> rfl

/-- A text that is accepted for a nonce has the fields of a token, whatever follows them. -/
theorem verifyTokenNonce_iff : verifyTokenNonce P publicKey token nonce = some true ↔
    ∃ fields more, parts token = fields ++ more ∧ TokenFields P publicKey nonce fields := by
  rw [verifyTokenNonce, Option.map_eq_some_iff]
  simp only [isOk_iff, exists_eq_right, accepts_iff, Option.some.injEq, decide_eq_true_eq]
  constructor
  · intro h
    obtain ⟨salt, fields, more, hparts, hfields, rfl⟩ := h
    exact ⟨fields, more, hparts, hfields⟩
  · intro h
    obtain ⟨fields, more, hparts, hfields⟩ := h
    exact ⟨nonce, fields, more, hparts, hfields, rfl⟩

/-- The fields of a token: only the salt is left to check. -/
theorem verifyTokenWithResult_of_fields {fields more : List String}
    (hparts : parts token = fields ++ more) (hfields : TokenFields P publicKey salt fields)
    (verifySalt : Bytes → Option Bool) :
    verifyTokenWithResult P publicKey token verifySalt =
      (verifySalt salt).map fun ok => if ok then .ok () else .error .salt := by
  obtain ⟨saltBase64, signatureBase64, publicKeyDer, signature, hder, rfl, hdecode, hsignature,
    hverify⟩ := hfields
  have hrest := verifySignature_iff.mpr
    ⟨publicKeyDer, signature, hder, rfl, hsignature, hverify⟩
  rw [verifyTokenWithResult_fields hparts, if_neg (not_not.mpr rfl), if_neg (not_not.mpr rfl),
    hdecode]
  simp only [hrest]

end Verify

/-! ## 3. Every text -/

section Texts

variable {publicKey : VerifyingTokenKey} {token : String} {nonce : Bytes}
  {overflowChecks : Bool} {now : Option UInt64}

/-- **A timestamp that is subtracted below zero**: it comes to its check, is later than the clock,
    and overflow is checked. -/
def FromFuture (P : Primitives) (overflowChecks : Bool) (now : Option UInt64)
    (publicKey : VerifyingTokenKey) (token : String) : Prop :=
  overflowChecks = true ∧ ∃ salt nowSeconds, saltOf P publicKey token = some salt ∧
    salt.length = 8 ∧ now = some nowSeconds ∧ nowSeconds < fromLeBytes salt

theorem verifyTimestamp_eq_none {salt : Bytes} : verifyTimestamp overflowChecks now salt = none ↔
    overflowChecks = true ∧ ∃ nowSeconds, salt.length = 8 ∧ now = some nowSeconds ∧
      nowSeconds < fromLeBytes salt := by
  unfold verifyTimestamp
  split
  · rename_i hlength
    simp [hlength]
  · rename_i hlength
    cases now with
    | none => simp
    | some nowSeconds =>
        simp only [Option.map_eq_none_iff, subU64_eq_none, Option.some.injEq]
        simp [not_not.mp hlength]

/-- **Both verifications return a boolean**, exactly for a text of five fields and no timestamp from
    the future that overflow checks meet. -/
theorem returns_iff (P : Primitives) (publicKey : VerifyingTokenKey) (token : String)
    (nonce : Bytes) (overflowChecks : Bool) (now : Option UInt64) :
    ((verifyTokenNonce P publicKey token nonce).isSome = true ∧
      (verifyTokenTimestamp P overflowChecks now publicKey token).isSome = true) ↔
    5 ≤ (parts token).length ∧ ¬ FromFuture P overflowChecks now publicKey token := by
  have hnonce : (verifyTokenNonce P publicKey token nonce).isSome = true ↔
      5 ≤ (parts token).length := by
    rw [verifyTokenNonce, Option.isSome_map, Option.isSome_iff_ne_none, ne_eq, panics_iff]
    simp
  have htimestamp : (verifyTokenTimestamp P overflowChecks now publicKey token).isSome = true ↔
      5 ≤ (parts token).length ∧ ¬ FromFuture P overflowChecks now publicKey token := by
    rw [verifyTokenTimestamp, Option.isSome_map, Option.isSome_iff_ne_none, ne_eq, panics_iff,
      not_or, Nat.not_lt, FromFuture]
    simp only [verifyTimestamp_eq_none]
    refine and_congr_right fun _ => not_congr ?_
    constructor
    · intro h
      obtain ⟨salt, hsalt, hchecks, nowSeconds, hrest⟩ := h
      exact ⟨hchecks, salt, nowSeconds, hsalt, hrest⟩
    · intro h
      obtain ⟨hchecks, salt, nowSeconds, hsalt, hrest⟩ := h
      exact ⟨salt, hsalt, hchecks, nowSeconds, hrest⟩
  rw [hnonce, htimestamp, ← and_assoc, and_self]

/-- **The empty text panics**, in both. -/
theorem empty_token_panics :
    verifyTokenNonce keyedPrimitives
      (SigningTokenKey.mk (P := keyedPrimitives) [7]).toVerifyingKey "" [] = none ∧
    verifyTokenTimestamp keyedPrimitives false (some 0)
      (SigningTokenKey.mk (P := keyedPrimitives) [7]).toVerifyingKey "" = none := by
  have hparts : parts "" = [""] := by decide
  constructor
  · rw [verifyTokenNonce, panics_iff.mpr (Or.inl (by rw [hparts]; decide))]
    rfl
  · rw [verifyTokenTimestamp, panics_iff.mpr (Or.inl (by rw [hparts]; decide))]
    rfl

/-- **Five fields and nothing else**: the hash method, the digest of key and nonce, the nonce, the
    method of the key, and a signature of the digest. -/
def Grammar (P : Primitives) (publicKey : VerifyingTokenKey) (nonce : Bytes) (token : String) :
    Prop :=
  ∃ publicKeyDer signature, publicKey.toDer = some publicKeyDer ∧
    publicKey.verify (P.sha256 (publicKeyDer ++ nonce)) signature = true ∧
    parts token = ["sha256", P.base64.encode (P.sha256 (publicKeyDer ++ nonce)),
      P.base64.encode nonce, publicKey.signatureMethod, P.base64.encode signature]

/-- With a strict decoder the fields are written in one way only. -/
theorem tokenFields_iff (hstrict : P.base64.Strict) :
    TokenFields P publicKey nonce (parts token) ↔ Grammar P publicKey nonce token := by
  constructor
  · rintro ⟨saltBase64, signatureBase64, publicKeyDer, signature, hder, hparts, hdecode, hsignature,
      hverify⟩
    refine ⟨publicKeyDer, signature, hder, hverify, ?_⟩
    rw [hparts, hstrict _ _ hdecode, hstrict _ _ hsignature]
  · intro h
    obtain ⟨publicKeyDer, signature, hder, hverify, hparts⟩ := h
    exact ⟨_, _, publicKeyDer, signature, hder, hparts, P.base64.decode_encode nonce,
      P.base64.decode_encode signature, hverify⟩

/-- **What stands behind a token is not looked at.** -/
theorem appended_accepted {first : String} (h : verifyTokenNonce P publicKey first nonce = some true)
    (more : String) : verifyTokenNonce P publicKey (first ++ "." ++ more) nonce = some true := by
  obtain ⟨fields, rest, hparts, hfields⟩ := verifyTokenNonce_iff.mp h
  refine verifyTokenNonce_iff.mpr ⟨fields, rest ++ parts more, ?_, hfields⟩
  rw [parts_append, hparts, List.append_assoc]

/-- **Only texts of the grammar are accepted**, exactly unless the text is one of them with further
    fields behind it. -/
theorem token_grammar_iff (P : Primitives) (hstrict : P.base64.Strict)
    (publicKey : VerifyingTokenKey) (nonce : Bytes) (token : String) :
    (verifyTokenNonce P publicKey token nonce = some true → Grammar P publicKey nonce token) ↔
      ¬ ∃ first more, Grammar P publicKey nonce first ∧ token = first ++ "." ++ more := by
  constructor
  · rintro h ⟨first, more, hfirst, rfl⟩
    have haccepted : verifyTokenNonce P publicKey first nonce = some true :=
      verifyTokenNonce_iff.mpr ⟨parts first, [], (List.append_nil _).symm,
        (tokenFields_iff hstrict).mpr hfirst⟩
    obtain ⟨_, _, _, _, hparts⟩ := h (appended_accepted haccepted more)
    obtain ⟨_, _, _, _, hparts'⟩ := hfirst
    rw [parts_append, hparts'] at hparts
    have hlength := congrArg List.length hparts
    have hmore := List.length_pos_iff.mpr (parts_ne_nil more)
    simp only [List.length_append, List.length_cons, List.length_nil] at hlength
    omega
  · intro hno haccepted
    obtain ⟨fields, more, hparts, hfields⟩ := verifyTokenNonce_iff.mp haccepted
    by_cases hmore : more = []
    · rw [hmore, List.append_nil] at hparts
      exact (tokenFields_iff hstrict).mp (hparts ▸ hfields)
    · have hne : fields ≠ [] := by
        obtain ⟨_, _, _, _, _, rfl, _⟩ := hfields
        exact List.cons_ne_nil _ _
      obtain ⟨first, rest, rfl, hfirst, _⟩ := parts_eq_append hparts hne hmore
      exact absurd ⟨first, rest, (tokenFields_iff hstrict).mp (hfirst ▸ hfields), rfl⟩ hno

/-- A token is accepted for its own salt. -/
theorem accepts_generate (key : SigningTokenKey P) (salt : Bytes) :
    verifyTokenNonce P key.toVerifyingKey (generateTokenNonce key salt) salt = some true := by
  rw [verifyTokenNonce, verifyTokenWithResult_generate]
  simp [isOk_iff]

/-- A key of the scheme with readable signatures. -/
def demoKey : SigningTokenKey keyedPrimitives := ⟨[7]⟩

theorem token_grammar_iff_demoKey :
    Grammar keyedPrimitives demoKey.toVerifyingKey [1, 2] (generateTokenNonce demoKey [1, 2]) := by
  refine (token_grammar_iff keyedPrimitives strict_urlSafeNoPad demoKey.toVerifyingKey [1, 2]
    (generateTokenNonce demoKey [1, 2])).mpr ?_ (accepts_generate demoKey [1, 2])
  intro h
  obtain ⟨first, more, ⟨_, _, _, _, hfirst⟩, htoken⟩ := h
  have hlength := congrArg (fun token => (parts token).length) htoken
  have hmore := List.length_pos_iff.mpr (parts_ne_nil more)
  simp only [parts_generate, parts_append, hfirst, List.length_append, List.length_cons,
    List.length_nil] at hlength
  omega

/-- **A token with another field behind it is accepted.** -/
theorem sixth_field_accepted :
    verifyTokenNonce keyedPrimitives demoKey.toVerifyingKey
      (generateTokenNonce demoKey [1, 2] ++ "." ++ "x") [1, 2] = some true ∧
    ¬ Grammar keyedPrimitives demoKey.toVerifyingKey [1, 2]
      (generateTokenNonce demoKey [1, 2] ++ "." ++ "x") := by
  refine ⟨appended_accepted (accepts_generate demoKey [1, 2]) "x", ?_⟩
  intro h
  obtain ⟨_, _, _, _, hparts⟩ := h
  have hlength := congrArg List.length hparts
  rw [parts_append, parts_generate, parts_last (by decide)] at hlength
  cases hlength

/-! ## 4. Timestamps of valid tokens -/

/-- **The age of a timestamp that is not in the future** is checked, with overflow checks and
    without. -/
theorem verifyTimestamp_past {salt : Bytes} {nowSeconds : UInt64} (hlength : salt.length = 8)
    (hpast : fromLeBytes salt ≤ nowSeconds) :
    verifyTimestamp overflowChecks (some nowSeconds) salt =
      some (decide (nowSeconds.toNat - (fromLeBytes salt).toNat ≤ 3600)) := by
  have hage : (nowSeconds - fromLeBytes salt).toNat =
      nowSeconds.toNat - (fromLeBytes salt).toNat := UInt64.toNat_sub_of_le _ _ hpast
  rw [verifyTimestamp, if_neg (not_not.mpr hlength)]
  simp only [subU64_of_le hpast, Option.map_some, Option.some.injEq]
  rw [Bool.eq_iff_iff]
  simp [UInt64.lt_iff_toNat_lt, hage]

/-- **A token from the future without overflow checks**: the difference wraps around, and counts as
    an age. -/
theorem verifyTimestamp_future {salt : Bytes} {nowSeconds : UInt64} (hlength : salt.length = 8)
    (hfuture : nowSeconds < fromLeBytes salt) :
    verifyTimestamp false (some nowSeconds) salt =
      some (decide (2 ^ 64 - ((fromLeBytes salt).toNat - nowSeconds.toNat) ≤ 3600)) := by
  have hage : (nowSeconds - fromLeBytes salt).toNat =
      2 ^ 64 - ((fromLeBytes salt).toNat - nowSeconds.toNat) := by
    have hsalt := (fromLeBytes salt).toNat_lt
    rw [UInt64.lt_iff_toNat_lt] at hfuture
    rw [UInt64.toNat_sub]
    omega
  rw [verifyTimestamp, if_neg (not_not.mpr hlength)]
  simp only [subU64, Bool.false_and, Bool.false_eq_true, if_false, Option.map_some,
    Option.some.injEq]
  rw [Bool.eq_iff_iff]
  simp [UInt64.lt_iff_toNat_lt, hage]

/-- The own token of a key: its timestamp is left to check. -/
theorem verifyTokenTimestamp_generate (key : SigningTokenKey P) (made : UInt64) :
    verifyTokenTimestamp P overflowChecks now key.toVerifyingKey (generateTokenTimestamp key made) =
      verifyTimestamp overflowChecks now (toLeBytes made) := by
  rw [verifyTokenTimestamp, generateTokenTimestamp, verifyTokenWithResult_generate, isOk_check]

theorem length_toLeBytes (n : UInt64) : (toLeBytes n).length = 8 := by simp [toLeBytes]

/-- **A token of this hour is accepted, an older one is not.** -/
theorem verify_generateTimestamp (key : SigningTokenKey P) {made nowSeconds : UInt64}
    (h : made ≤ nowSeconds) :
    verifyTokenTimestamp P overflowChecks (some nowSeconds) key.toVerifyingKey
      (generateTokenTimestamp key made) =
        some (decide (nowSeconds.toNat - made.toNat ≤ 3600)) := by
  have hpast : fromLeBytes (toLeBytes made) ≤ nowSeconds := by rwa [fromLeBytes_toLeBytes]
  rw [verifyTokenTimestamp_generate, verifyTimestamp_past (length_toLeBytes made) hpast,
    fromLeBytes_toLeBytes]

/-- **A timestamp is checked exactly** in every build, for a token that is valid but for it, exactly
    unless it is in the future. -/
theorem timestamp_exact_iff (P : Primitives) (publicKey : VerifyingTokenKey) (token : String)
    (salt : Bytes) (nowSeconds : UInt64)
    (hvalid : verifyTokenNonce P publicKey token salt = some true) (hlength : salt.length = 8) :
    (∀ overflowChecks, verifyTokenTimestamp P overflowChecks (some nowSeconds) publicKey token =
      some (decide (fromLeBytes salt ≤ nowSeconds ∧
        nowSeconds.toNat - (fromLeBytes salt).toNat ≤ 3600))) ↔
    fromLeBytes salt ≤ nowSeconds := by
  obtain ⟨fields, more, hparts, hfields⟩ := verifyTokenNonce_iff.mp hvalid
  have hcheck : ∀ overflowChecks, verifyTokenTimestamp P overflowChecks (some nowSeconds) publicKey
      token = verifyTimestamp overflowChecks (some nowSeconds) salt := by
    intro overflowChecks
    rw [verifyTokenTimestamp, verifyTokenWithResult_of_fields hparts hfields, isOk_check]
  constructor
  · intro h
    by_contra hfuture
    rw [UInt64.not_le] at hfuture
    have hpanic : verifyTimestamp true (some nowSeconds) salt = none :=
      verifyTimestamp_eq_none.mpr ⟨rfl, nowSeconds, hlength, rfl, hfuture⟩
    have hsome := h true
    rw [hcheck, hpanic] at hsome
    cases hsome
  · intro hpast overflowChecks
    rw [hcheck, verifyTimestamp_past hlength hpast]
    simp [hpast]

theorem timestamp_exact_iff_demoKey :
    verifyTokenTimestamp keyedPrimitives true (some 5000) demoKey.toVerifyingKey
      (generateTokenTimestamp demoKey 1400) = some true := by
  have hexact := (timestamp_exact_iff keyedPrimitives demoKey.toVerifyingKey
    (generateTokenTimestamp demoKey 1400) (toLeBytes 1400) 5000 (accepts_generate demoKey _)
    (length_toLeBytes 1400)).mpr (by rw [fromLeBytes_toLeBytes]; decide) true
  rw [hexact, fromLeBytes_toLeBytes]
  decide

/-- **A token of the next second**: a panic with overflow checks; and without them one of the last
    hour before the end of the range is accepted. -/
theorem future_token :
    verifyTokenTimestamp keyedPrimitives true (some 5000) demoKey.toVerifyingKey
      (generateTokenTimestamp demoKey 5001) = none ∧
    verifyTokenTimestamp keyedPrimitives false (some 100) demoKey.toVerifyingKey
      (generateTokenTimestamp demoKey 18446744073709551615) = some true := by
  constructor
  · rw [verifyTokenTimestamp_generate]
    refine verifyTimestamp_eq_none.mpr ⟨rfl, 5000, length_toLeBytes 5001, rfl, ?_⟩
    rw [fromLeBytes_toLeBytes]
    decide
  · rw [verifyTokenTimestamp_generate, verifyTimestamp_future (length_toLeBytes _) (by
      rw [fromLeBytes_toLeBytes]
      decide), fromLeBytes_toLeBytes]
    decide

end Texts

end LocalSend.Crypto
