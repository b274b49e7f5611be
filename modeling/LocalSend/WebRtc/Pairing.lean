/-
  File:      LocalSend/WebRtc/Pairing.lean
  Subject:   THE KEY A PAIRED RECEIVER IS GIVEN (`send_offer`): the nonces, the tokens and the
             answer to the pair request, in every run of the sender against any remote.

  * `Signatures` -- signing, parsing and verifying as abstract functions; `Lawful` -- a token
    verifies under the key that made it, and under no other;
  * `Later` -- a reaction that neither signs nor pairs; `onPairRequest_cases`;
  * `Paired` -- **what the answer rests on**: the own token, the receiver's token and key;
  * **`pair_key_iff`** -- an answer with a key is sent only if that key verifies the receiver's
    token; it verifies the sender's token exactly if the receiver has the sender's own key.
    `pairing_hands_back`: two peers with different keys.
-/
import LocalSend.WebRtc.JsonWire
import LocalSend.WebRtc.Peers

namespace LocalSend.WebRtc

open Lib

/-! ## 1. Keys -/

/-- Keys of peers: the text of the public one, `generate_token_nonce` and `parse_public_key`. -/
structure Signatures (κ : Type) where
  publicKey : κ → String
  sign : κ → Bytes → Option String
  parsePublicKey : String → String → Option VerifyingTokenKey

/-- Does a token verify under a public key, by the method that the token names? -/
def Signatures.verifies {κ : Type} (S : Signatures κ) (publicKey token : String) (nonce : Bytes) :
    Prop :=
  ∃ identifier key, Send.extractSignatureIdentifier token = some identifier ∧
    S.parsePublicKey publicKey identifier = some key ∧ key token nonce = true

/-- **A token verifies under the key that made it, and under no other.** -/
structure Signatures.Lawful {κ : Type} (S : Signatures κ) : Prop where
  own : ∀ k nonce token, S.sign k nonce = some token → S.verifies (S.publicKey k) token nonce
  others : ∀ k k' nonce token, S.sign k nonce = some token →
    S.verifies (S.publicKey k') token nonce → S.publicKey k' = S.publicKey k

namespace Send

variable {w : Wire} {c : Config} {s t u : State}

/-! ## 2. Reactions without a signature -/

/-- The phases before the own token is sent, or before the receiver's is there. -/
def Phase.early : Phase → Bool
  | .start | .nonce | .tokenResponse => true
  | _ => false

/-- An item that shows a token or a key. -/
def Item.signs : Item → Bool
  | .tokenRequest _ | .pairResponse (.ok _) => true
  | _ => false

/-- **Later**: nonce and token stay, and no further token or key goes out. -/
structure Later (s t : State) : Prop where
  nonce : t.nonce = s.nonce
  remoteToken : t.remoteToken = s.remoteToken
  phase : t.phase.early = false
  got : ∀ i ∈ s.got, i ∈ t.got
  sent : ∀ i, Item.signs i = true → (i ∈ t.sent ↔ i ∈ s.sent)

theorem Later.refl (h : s.phase.early = false) : Later s s :=
  ⟨rfl, rfl, h, fun _ => id, fun _ _ => .rfl⟩

theorem Later.trans (h : Later s t) (h' : Later t u) : Later s u :=
  ⟨h'.nonce.trans h.nonce, h'.remoteToken.trans h.remoteToken, h'.phase,
    fun i hi => h'.got i (h.got i hi), fun i hi => (h'.sent i hi).trans (h.sent i hi)⟩

/-- On to another phase. -/
theorem Later.goto (h : Later s t) {phase : Phase} (hp : phase.early = false) :
    Later s (t.goto phase).state := ⟨h.nonce, h.remoteToken, hp, h.got, h.sent⟩

theorem Later.fail (h : Later s t) (e : Error) : Later s (t.fail e).state := h.goto rfl

/-- An item without a signature goes out. -/
theorem Later.say (h : Later s t) {item : Item} (hitem : Item.signs item = false) (onFail : OnFail)
    {phase : Phase} (hp : phase.early = false) : Later s (t.say w item onFail phase).state := by
  refine ⟨h.nonce, h.remoteToken, hp, h.got, fun i hi => ?_⟩
  rw [← h.sent i hi]
  refine ⟨fun hmem => (List.mem_append.mp hmem).resolve_right fun he => ?_, List.mem_append_left _⟩
  rw [List.mem_singleton.mp he, hitem] at hi
  cases hi

theorem Later.heard (h : Later s t) (item : Item) : Later s (t.heard item) :=
  ⟨h.nonce, h.remoteToken, h.phase, fun i hi => List.mem_append_left _ (h.got i hi), h.sent⟩

theorem Later.status (h : Later s t) (status : RTCStatus) : Later s (t.status status) :=
  ⟨h.nonce, h.remoteToken, h.phase, h.got, h.sent⟩

theorem later_promptPin (h : Later s t) : Later s (promptPin w t).state := by
  unfold promptPin
  simp only
  split
  · exact (h.status _).goto rfl
  · exact ⟨h.nonce, h.remoteToken, rfl, h.got, h.sent⟩
  · rename_i pin pins _
    have h' : Later s { t.status .pinRequired with pins := pins } :=
      ⟨h.nonce, h.remoteToken, h.phase, h.got, h.sent⟩
    exact h'.say rfl _ rfl

theorem later_onPinResult (h : Later s t) (m : Option Message) :
    Later s (onPinResult w t m).state := by
  unfold onPinResult
  split
  · exact h.fail _
  · split
    · exact h.fail _
    · simp only
      split
      · exact (h.heard _).goto rfl
      · exact later_promptPin (h.heard _)
      · exact ((h.heard _).status _).fail _

theorem later_connected (h : Later s t) : Later s (connected w c t).state :=
  (h.status _).say rfl _ rfl

theorem later_checkPin (h : Later s t) (pin : PinConfig) (remotePin : String) (pinTry : Nat) :
    Later s (checkPin w c t pin remotePin pinTry).state := by
  unfold checkPin
  split
  · exact later_connected h
  · exact (h.status _).say rfl _ rfl
  · exact h.say rfl _ rfl
  · exact h.goto rfl

theorem later_onPinStart (h : Later s t) : Later s (onPinStart w c t).state := by
  unfold onPinStart
  split
  · exact later_checkPin (h.status _) ..
  · exact later_connected h

theorem later_onPin (h : Later s t) (pin : PinConfig) (pinTry : Nat) (m : Option Message) :
    Later s (onPin w c t pin pinTry m).state := by
  unfold onPin
  split
  · exact h.fail _
  · split
    · exact h.fail _
    · exact later_checkPin (h.heard _) ..

theorem later_onSending (h : Later s t) (fileMap : LinkedMap String String) :
    Later s (onSending w t fileMap).state := by
  unfold onSending
  split
  · exact h.say rfl _ rfl
  · rename_i file sending _
    have h' : Later s { t with sending := sending } :=
      ⟨h.nonce, h.remoteToken, h.phase, h.got, h.sent⟩
    simp only
    split
    · exact ⟨h.nonce, h.remoteToken, rfl, h.got, h.sent⟩
    · exact h'.say (w := w) rfl _ rfl

theorem later_onLastResponse (h : Later s t) (m : Option Message) :
    Later s (onLastResponse w t m).state := by
  unfold onLastResponse
  split
  · exact (h.heard _).goto rfl
  · exact h.goto rfl

/-! ## 3. The pair request -/

/-- The key of a pair request verifies the receiver's token. -/
def Accepts (c : Config) (s : State) (publicKey : String) : Prop :=
  ∃ identifier key, extractSignatureIdentifier s.remoteToken = some identifier ∧
    c.parsePublicKey publicKey identifier = some key ∧ key s.remoteToken s.nonce = true

/-- **A pair request**: no key goes out, or it is the receiver's, it verifies the receiver's
    token, and the user accepts. -/
theorem onPairRequest_cases (h : Later s t) (publicKey : String) :
    Later s (onPairRequest w c t publicKey).state ∨
      Accepts c t publicKey ∧ c.pairAnswer = .answered true ∧
      onPairRequest w c t publicKey =
        t.say w (.pairResponse (.ok publicKey)) .plain (.pairedFileList []) := by
  unfold onPairRequest
  split
  · exact .inl (h.fail _)
  · rename_i identifier hidentifier
    split
    · exact .inl (h.fail _)
    · rename_i key hkey
      split
      · exact .inl (h.say rfl _ rfl)
      · rename_i hverified
        split
        · exact .inl (h.fail _)
        · exact .inl (h.goto rfl)
        · exact .inl (h.fail _)
        · rename_i hanswer
          exact .inr ⟨⟨identifier, key, hidentifier, hkey, by simpa using hverified⟩, hanswer, rfl⟩
        · exact .inl (h.say rfl _ rfl)

/-- **The receiver's answer to the file list.** -/
theorem feed_fileList (hp : s.phase = .fileList []) (response : RTCFileListResponse)
    {b : Batch Message State}
    (hb : ∀ phase, onFileList w c { s with phase := phase } false
      (w.fileListResponse.encode response) = b) :
    (sendOffer w c).Feed ⟨s, []⟩ (Item.messages w (.fileList response)) ⟨b.state, []⟩ b.out := by
  have hs : s = { s with phase := .fileList [] } := by rw [← hp]
  rw [hs]
  refine feed_string (fun buffer => { s with phase := .fileList buffer })
    (fun s bytes => onFileList w c s false bytes) ?_ _ fun buffer => hb _
  intro buffer
  rfl

/-- **A pair request whose key verifies**, with a user who accepts. -/
theorem onFileList_pair {publicKey : String} (haccepts : Accepts c s publicKey)
    (hanswer : c.pairAnswer = .answered true) :
    onFileList w c s false (w.fileListResponse.encode (.pair publicKey)) =
      (s.heard (.fileList (.pair publicKey))).say w (.pairResponse (.ok publicKey)) .plain
        (.pairedFileList []) := by
  obtain ⟨identifier, key, hid, hkey, hver⟩ := haccepts
  have hid' : extractSignatureIdentifier
      (s.heard (.fileList (.pair publicKey))).remoteToken = some identifier := hid
  have hver' : key (s.heard (.fileList (.pair publicKey))).remoteToken
      (s.heard (.fileList (.pair publicKey))).nonce = true := hver
  simp only [onFileList, Codec.decode_encode, onPairRequest, hid', hkey, hver', hanswer,
    Bool.true_eq_false, Bool.false_eq_true, if_false]

theorem feed_pair (publicKey : String) (hp : s.phase = .fileList [])
    (haccepts : Accepts c s publicKey) (hanswer : c.pairAnswer = .answered true) :
    (sendOffer w c).Feed ⟨s, []⟩ (Item.messages w (.fileList (.pair publicKey)))
      ⟨((s.heard (.fileList (.pair publicKey))).say w (.pairResponse (.ok publicKey)) .plain
        (.pairedFileList [])).state, []⟩ (Item.messages w (.pairResponse (.ok publicKey))) :=
  feed_fileList hp (.pair publicKey) fun phase =>
    onFileList_pair (s := { s with phase := phase }) haccepts hanswer

/-! ## 4. What the answer rests on -/

/-- The phases in which both tokens are known. -/
def Phase.exchanged : Phase → Bool
  | .ended _ => false
  | phase => !phase.early

/-- The token in an answer of the receiver. -/
def tokenOf : RTCTokenResponse → Option String
  | .ok token | .pinRequired token => some token
  | .invalidSignature => none

/-- **What the sender has shown and seen**, by phase. -/
structure Paired (w : Wire) (c : Config) (s : State) : Prop where
  fresh : (s.phase = .start ∨ s.phase = .nonce) → ∀ i ∈ s.sent, Item.signs i = false
  unpaired : s.phase = .tokenResponse →
    (∃ t, Item.tokenRequest ⟨t⟩ ∈ s.sent) ∧ ∀ p, Item.pairResponse (.ok p) ∉ s.sent
  exchanged : s.phase.exchanged = true → (∃ t, Item.tokenRequest ⟨t⟩ ∈ s.sent) ∧
    ∃ response, Item.tokenResponse response ∈ s.got ∧ tokenOf response = some s.remoteToken
  own : ∀ t, Item.tokenRequest ⟨t⟩ ∈ s.sent → c.auth.signingKey s.nonce = some t ∧
    ∃ msg n, Item.nonce msg ∈ s.got ∧ w.base64Decode msg.nonce = some n ∧
      s.nonce = c.localNonce.1 ++ n
  ok : ∀ p, Item.pairResponse (.ok p) ∈ s.sent → (∃ t, Item.tokenRequest ⟨t⟩ ∈ s.sent) ∧
    (∃ response, Item.tokenResponse response ∈ s.got ∧ tokenOf response = some s.remoteToken) ∧
    Item.fileList (.pair p) ∈ s.got ∧ c.pairAnswer = .answered true ∧ Accepts c s p

theorem Phase.exchanged_early {phase : Phase} (h : phase.exchanged = true) :
    phase.early = false := by
  cases phase <;> first | rfl | cases h

theorem Phase.not_start {phase : Phase} (h : phase.early = false) :
    ¬ (phase = .start ∨ phase = .nonce) ∧ phase ≠ .tokenResponse := by
  refine ⟨?_, fun he => ?_⟩
  · rintro (rfl | rfl) <;> cases h
  · subst he
    cases h

/-- **A later state rests on the same.** -/
theorem Paired.later (h : Paired w c s) (hs : s.phase.exchanged = true) (hl : Later s t) :
    Paired w c t := by
  obtain ⟨hstart, htoken⟩ := Phase.not_start hl.phase
  obtain ⟨⟨token, hsent⟩, response, hgot, hof⟩ := h.exchanged hs
  have hsent' : ∃ t', Item.tokenRequest ⟨t'⟩ ∈ t.sent := ⟨token, (hl.sent _ rfl).mpr hsent⟩
  have hgot' : ∃ response, Item.tokenResponse response ∈ t.got ∧
      tokenOf response = some t.remoteToken :=
    ⟨response, hl.got _ hgot, hl.remoteToken.symm ▸ hof⟩
  refine ⟨fun he => absurd he hstart, fun he => absurd he htoken, fun _ => ⟨hsent', hgot'⟩,
    fun token' ht => ?_, fun p hp => ?_⟩
  · obtain ⟨hsign, msg, n, hmsg, hn, hnonce⟩ := h.own token' ((hl.sent _ rfl).mp ht)
    exact ⟨hl.nonce.symm ▸ hsign, msg, n, hl.got _ hmsg, hn, hl.nonce.trans hnonce⟩
  · obtain ⟨-, -, hpair, hanswer, identifier, key, hid, hkey, hver⟩ :=
      h.ok p ((hl.sent _ rfl).mp hp)
    refine ⟨hsent', hgot', hl.got _ hpair, hanswer, identifier, key, ?_, hkey, ?_⟩
    · rw [hl.remoteToken, hid]
    · rw [hl.remoteToken, hl.nonce, hver]

/-- A task that ends shows nothing more. -/
theorem Paired.ended (h : Paired w c s) {result : Except Error Unit}
    (hphase : t.phase = .ended result) (hnonce : t.nonce = s.nonce)
    (htoken : t.remoteToken = s.remoteToken) (hgot : ∀ i ∈ s.got, i ∈ t.got)
    (hsent : t.sent = s.sent) : Paired w c t := by
  refine ⟨fun he => ?_, fun he => ?_, fun he => ?_, fun token' ht => ?_, fun p hp => ?_⟩
  · rw [hphase] at he
    rcases he with he | he <;> cases he
  · rw [hphase] at he
    cases he
  · rw [hphase] at he
    cases he
  · obtain ⟨hsign, msg, n, hmsg, hn, hnonces⟩ := h.own token' (hsent ▸ ht)
    exact ⟨hnonce.symm ▸ hsign, msg, n, hgot _ hmsg, hn, hnonce.trans hnonces⟩
  · obtain ⟨hown, ⟨response, hresponse, hof⟩, hpair, hanswer, identifier, key, hid, hkey, hver⟩ :=
      h.ok p (hsent ▸ hp)
    refine ⟨hsent ▸ hown, ⟨response, hgot _ hresponse, htoken.symm ▸ hof⟩, hgot _ hpair, hanswer,
      identifier, key, ?_, hkey, ?_⟩
    · rw [htoken, hid]
    · rw [htoken, hnonce, hver]

/-- Nothing that signs has gone out. -/
theorem Paired.of_fresh (hphase : t.phase ≠ .tokenResponse) (hex : t.phase.exchanged = false)
    (hsent : ∀ i ∈ t.sent, Item.signs i = false) : Paired w c t := by
  have hno : ∀ i, Item.signs i = true → i ∉ t.sent := fun i hi hmem => by
    rw [hsent i hmem] at hi
    cases hi
  refine ⟨fun _ => hsent, fun he => absurd he hphase, fun he => ?_,
    fun token ht => absurd ht (hno _ rfl), fun p hp => absurd hp (hno _ rfl)⟩
  rw [hex] at he
  cases he

theorem paired_onNonce (h : Paired w c s) (hs : s.phase = .nonce) (m : Option Message) :
    Paired w c (onNonce w c s m).state := by
  have hfresh := h.fresh (.inr hs)
  unfold onNonce
  split
  · exact .of_fresh (by rintro ⟨⟩) rfl hfresh
  · rename_i msg remoteNonce hreceived
    obtain ⟨-, -, -, hn, -⟩ := receiveNonce_ok.mp hreceived
    simp only
    split
    · exact .of_fresh (by rintro ⟨⟩) rfl hfresh
    · rename_i localToken hsign
      have hnew : ∀ i, Item.signs i = true → i ∈ s.sent ++ [Item.tokenRequest ⟨localToken⟩] →
          i = .tokenRequest ⟨localToken⟩ := by
        intro i hi hmem
        rcases List.mem_append.mp hmem with hmem | hmem
        · rw [hfresh i hmem] at hi
          cases hi
        · exact List.mem_singleton.mp hmem
      refine ⟨fun he => ?_, fun _ => ⟨⟨localToken, List.mem_append_right _ ?_⟩, fun p hp => ?_⟩,
        fun he => ?_, fun token ht => ?_, fun p hp => ?_⟩
      · rcases he with he | he <;> cases he
      · exact List.mem_singleton_self _
      · cases hnew _ rfl hp
      · cases he
      · cases hnew _ rfl ht
        exact ⟨hsign, msg, remoteNonce,
          List.mem_append_right _ (List.mem_singleton_self _), hn, rfl⟩
      · cases hnew _ rfl hp

theorem paired_onTokenResponse (h : Paired w c s) (hs : s.phase = .tokenResponse)
    (m : Option Message) : Paired w c (onTokenResponse w c s m).state := by
  have hgot : ∀ (item : Item), ∀ i ∈ s.got, i ∈ s.got ++ [item] :=
    fun _ _ hi => List.mem_append_left _ hi
  obtain ⟨hsent, hno⟩ := h.unpaired hs
  -- with the token of the answer both tokens are known
  have hexchanged : ∀ {response : RTCTokenResponse} {token : String},
      tokenOf response = some token →
      Paired w c { s.heard (.tokenResponse response) with
        remoteToken := token, phase := .pinStart } := by
    intro response token hof
    refine ⟨fun he => ?_, fun he => (by cases he), fun _ => ⟨hsent, response, ?_, hof⟩,
      fun token' ht => ?_, fun p hp => absurd hp (hno p)⟩
    · rcases he with he | he <;> cases he
    · exact List.mem_append_right _ (List.mem_singleton_self _)
    · obtain ⟨hsign, msg, n, hmsg, hn, hnonce⟩ := h.own token' ht
      exact ⟨hsign, msg, n, hgot _ _ hmsg, hn, hnonce⟩
  have hremote : ∀ {response : RTCTokenResponse} {token : String} (pinRequired : Bool),
      tokenOf response = some token →
      Paired w c
        (onRemoteToken w c (s.heard (.tokenResponse response)) token pinRequired).state := by
    intro response token pinRequired hof
    unfold onRemoteToken
    split
    · exact h.ended rfl rfl rfl (hgot _) rfl
    · cases pinRequired with
      | true =>
          -- the phase before the prompt is not looked at
          have hprompt := later_promptPin (w := w) (Later.refl (s := { s.heard
            (.tokenResponse response) with remoteToken := token, phase := .pinStart }) rfl)
          exact (hexchanged hof).later rfl hprompt
      | false => exact hexchanged hof
  unfold onTokenResponse
  split
  · exact h.ended rfl rfl rfl (fun _ hi => hi) rfl
  · split
    · exact h.ended rfl rfl rfl (fun _ hi => hi) rfl
    · rename_i response _
      cases response with
      | ok token => exact hremote false rfl
      | pinRequired token => exact hremote true rfl
      | invalidSignature => exact h.ended rfl rfl rfl (hgot _) rfl

/-- **The answer to the file list**, before or after a pair request. -/
theorem paired_onFileList (h : Paired w c s) (hs : s.phase.exchanged = true) (paired : Bool)
    (bytes : Bytes) : Paired w c (onFileList w c s paired bytes).state := by
  have hl : Later s s := .refl (Phase.exchanged_early hs)
  unfold onFileList
  split
  · exact h.later hs (hl.fail _)
  · rename_i response _
    have hheard := hl.heard (.fileList response)
    cases response with
    | ok fileMap =>
        exact h.later hs ⟨rfl, rfl, rfl, hheard.got, hheard.sent⟩
    | pair publicKey =>
        cases paired with
        | true => exact h.later hs ((hheard.status _).fail _)
        | false =>
            rcases onPairRequest_cases (w := w) (c := c) hheard publicKey with
              hlater | ⟨haccepts, hanswer, hsay⟩
            · exact h.later hs hlater
            · show Paired w c (onPairRequest w c _ publicKey).state
              rw [hsay]
              obtain ⟨⟨token, hsent⟩, response, hgot, hof⟩ := h.exchanged hs
              have hmem : ∀ {i : Item}, i ∈ s.sent →
                  i ∈ s.sent ++ [Item.pairResponse (.ok publicKey)] := List.mem_append_left _
              have hmem' : ∀ {i : Item}, i ∈ s.got →
                  i ∈ s.got ++ [Item.fileList (.pair publicKey)] := List.mem_append_left _
              refine ⟨fun he => ?_, fun he => (by cases he),
                fun _ => ⟨⟨token, hmem hsent⟩, response, hmem' hgot, hof⟩, fun token' ht => ?_,
                fun p hp => ⟨⟨token, hmem hsent⟩, ⟨response, hmem' hgot, hof⟩, ?_⟩⟩
              · rcases he with he | he <;> cases he
              · rcases List.mem_append.mp ht with ht | ht
                · obtain ⟨hsign, msg, n, hmsg, hn, hnonce⟩ := h.own token' ht
                  exact ⟨hsign, msg, n, hmem' hmsg, hn, hnonce⟩
                · cases List.mem_singleton.mp ht
              · rcases List.mem_append.mp hp with hp | hp
                · obtain ⟨-, -, hpair, hrest⟩ := h.ok p hp
                  exact ⟨hmem' hpair, hrest⟩
                · cases List.mem_singleton.mp hp
                  exact ⟨List.mem_append_right _ (List.mem_singleton_self _), hanswer, haccepts⟩
    | declined => exact h.later hs ((hheard.status _).goto rfl)
    | invalidSignature => exact h.later hs ((hheard.status _).fail _)

/-- **Each reaction keeps what the answer rests on.** -/
theorem paired_react (h : Paired w c s) : (react w c s).All fun b => Paired w c b.state := by
  unfold react
  cases hphase : s.phase with
  | start =>
      refine .of_fresh (by rintro ⟨⟩) rfl fun i hi => ?_
      rcases List.mem_append.mp hi with hi | hi
      · exact h.fresh (.inl hphase) i hi
      · rw [List.mem_singleton.mp hi]
        rfl
  | nonce => exact fun m => paired_onNonce h hphase m
  | tokenResponse => exact fun m => paired_onTokenResponse h hphase m
  | pinResult =>
      have hs : s.phase.exchanged = true := by rw [hphase]; rfl
      exact fun m => h.later hs (later_onPinResult (.refl (Phase.exchanged_early hs)) m)
  | pinStart =>
      have hs : s.phase.exchanged = true := by rw [hphase]; rfl
      exact h.later hs (later_onPinStart (.refl (Phase.exchanged_early hs)))
  | pinMessage pin pinTry =>
      have hs : s.phase.exchanged = true := by rw [hphase]; rfl
      exact fun m => h.later hs (later_onPin (.refl (Phase.exchanged_early hs)) pin pinTry m)
  | fileList buffer =>
      have hs : s.phase.exchanged = true := by rw [hphase]; rfl
      intro m
      simp only
      split
      · exact h.later hs ((Later.refl (Phase.exchanged_early hs)).goto rfl)
      · exact paired_onFileList h hs false _
  | pairedFileList buffer =>
      have hs : s.phase.exchanged = true := by rw [hphase]; rfl
      intro m
      simp only
      split
      · exact h.later hs ((Later.refl (Phase.exchanged_early hs)).goto rfl)
      · exact paired_onFileList h hs true _
  | sending fileMap =>
      have hs : s.phase.exchanged = true := by rw [hphase]; rfl
      exact h.later hs (later_onSending (.refl (Phase.exchanged_early hs)) fileMap)
  | lastResponse =>
      have hs : s.phase.exchanged = true := by rw [hphase]; rfl
      exact fun m => h.later hs (later_onLastResponse (.refl (Phase.exchanged_early hs)) m)
  | pinPrompt | pairPrompt | ended _ => trivial

/-- A failed send ends the task or, among the files, changes nothing that counts. -/
theorem paired_failed (h : Paired w c s) (e : String) : Paired w c (failed s e) := by
  unfold failed
  split
  · exact h.ended rfl rfl rfl (fun _ hi => hi) rfl
  · exact h.ended rfl rfl rfl (fun _ hi => hi) rfl
  · exact h
  · exact h.ended rfl rfl rfl (fun _ hi => hi) rfl
  · exact ⟨h.fresh, h.unpaired, h.exchanged, h.own, h.ok⟩

/-- **The sender in any run, against any remote.** -/
theorem paired_run {pins : List (Option String)} {sending : List RTCFile}
    {es : List (Process.Event Message)} {b : Batch Message State}
    (h : (sendOffer w c).alone.Run Machine.anyStep ⟨initial pins sending, []⟩ es b) :
    Paired w c b.state := by
  have hall : ∀ {s : State} {k : Option Message → Batch Message State}, Paired w c s →
      react w c s = .recv k → ∀ m, Paired w c (k m).state := by
    intro s k hs hk
    have := paired_react hs
    rwa [hk] at this
  refine Process.batched_alone (I := fun _ s => Paired w c s) (fun _ _ e hs => paired_failed hs e)
    (fun _ _ _ m hs hk => hall hs hk (some m)) (fun _ _ _ hs hk => hall hs hk none)
    (fun _ s next hs hk => ?_) (.of_fresh (by rintro ⟨⟩) rfl fun _ hi => by cases hi) h
  have := paired_react hs
  rwa [hk] at this

end Send

/-! ## 5. The key that is handed over -/

section Keys

variable {κ : Type} {S : Signatures κ} {k k' : κ} {w : Wire} {c : Send.Config}
  {pins : List (Option String)} {sending : List RTCFile} {es : List (Process.Event Message)}
  {b : Batch Message Send.State}

/-- The key verifies the token that the receiver has sent. -/
def VerifiesRemote (S : Signatures κ) (s : Send.State) (publicKey : String) : Prop :=
  ∃ response token, Item.tokenResponse response ∈ s.got ∧ Send.tokenOf response = some token ∧
    S.verifies publicKey token s.nonce

/-- **The key verifies the token that the sender has sent**: the receiver can store it. -/
def VerifiesOwn (S : Signatures κ) (s : Send.State) (publicKey : String) : Prop :=
  ∃ token, Item.tokenRequest ⟨token⟩ ∈ s.sent ∧ S.verifies publicKey token s.nonce

/-- The nonces of the session, one after the other. -/
def BothNonces (w : Wire) (c : Send.Config) (s : Send.State) : Prop :=
  ∃ msg n, Item.nonce msg ∈ s.got ∧ w.base64Decode msg.nonce = some n ∧
    s.nonce = c.localNonce.1 ++ n

/-- **Which key the sender hands over.** In any run against a receiver that asks with its own key
    `k'`: a key goes out only if it verifies the receiver's token; it verifies the sender's own
    token exactly if the receiver has the sender's key. -/
theorem pair_key_iff (hS : S.Lawful) (hsign : c.auth.signingKey = S.sign k)
    (hparse : c.parsePublicKey = S.parsePublicKey)
    (h : (Send.sendOffer w c).alone.Run Machine.anyStep ⟨Send.initial pins sending, []⟩ es b)
    (hhonest : ∀ p, Item.fileList (.pair p) ∈ b.state.got → p = S.publicKey k') :
    ∀ p, Item.pairResponse (.ok p) ∈ b.state.sent → BothNonces w c b.state ∧
      VerifiesRemote S b.state p ∧
      (VerifiesOwn S b.state p ↔ S.publicKey k' = S.publicKey k) := by
  intro p hp
  have hpaired := Send.paired_run h
  obtain ⟨⟨token, hsent⟩, ⟨response, hgot, hof⟩, hpair, -, hid⟩ := hpaired.ok p hp
  obtain ⟨hown, hnonces⟩ := hpaired.own token hsent
  rw [hsign] at hown
  refine ⟨hnonces, ⟨response, _, hgot, hof, ?_⟩, ?_⟩
  · rw [Send.Accepts, hparse] at hid
    exact hid
  · rw [hhonest p hpair]
    constructor
    · intro h
      obtain ⟨token', hsent', hverifies⟩ := h
      obtain ⟨hown', -⟩ := hpaired.own token' hsent'
      exact hS.others k k' _ token' (hsign ▸ hown') hverifies
    · intro heq
      exact ⟨token, hsent, heq ▸ hS.own k _ token hown⟩

end Keys

/-! ## 6. Two keys -/

/-- Keys named by a letter; a token is the name and the method. -/
def keyName (k : Bool) : String := if k then "a" else "b"

def namedKeys : Signatures Bool where
  publicKey := keyName
  sign k _ := some (keyName k ++ "...x")
  parsePublicKey publicKey _ := some fun token _ => token = publicKey ++ "...x"

theorem splitOn_named (k : Bool) :
    (keyName k ++ "...x").splitOn "." = [keyName k, "", "", "x"] := by
  cases k <;>
  · rw [String.splitOn, if_neg (by decide), String.splitOnAux, if_neg (by decide),
      if_neg (by decide), String.splitOnAux, if_neg (by decide), if_pos (by decide)]
    simp only []
    rw [if_pos (by decide), String.splitOnAux, if_neg (by decide), if_pos (by decide),
      if_pos (by decide), String.splitOnAux, if_neg (by decide), if_pos (by decide),
      if_pos (by decide), String.splitOnAux, if_neg (by decide), if_neg (by decide),
      String.splitOnAux, if_pos (by decide)]
    rfl

theorem extractSignatureIdentifier_named (k : Bool) :
    Send.extractSignatureIdentifier (keyName k ++ "...x") = some "x" := by
  rw [Send.extractSignatureIdentifier, splitOn_named]
  rfl

theorem namedKeys_lawful : namedKeys.Lawful := by
  refine ⟨fun k nonce token hsign => ?_, fun k k' nonce token hsign hverifies => ?_⟩
  · obtain rfl := Option.some.inj hsign
    exact ⟨_, _, extractSignatureIdentifier_named k, rfl, decide_eq_true rfl⟩
  · obtain rfl := Option.some.inj hsign
    obtain ⟨_, _, _, hkey, hver⟩ := hverifies
    obtain rfl := Option.some.inj hkey
    cases k <;> cases k' <;> first | rfl | cases of_decide_eq_true hver

/-- A sender with a named key, whose user accepts. -/
def pairSender (k : Bool) : Send.Config where
  auth := ⟨namedKeys.sign k, none, none⟩
  localNonce := ⟨List.replicate 32 3, List.length_replicate⟩
  files := []
  parsePublicKey := namedKeys.parsePublicKey
  pairAnswer := .answered true

/-- **A receiver with a named key asks to be paired**, and is given a key. -/
theorem pairing_run (w : Wire) (k k' : Bool) :
    ∃ es b, (Send.sendOffer w (pairSender k)).alone.Run Machine.anyStep
        ⟨Send.initial [] [], []⟩ es b ∧
      (∀ p, Item.fileList (.pair p) ∈ b.state.got → p = namedKeys.publicKey k') ∧
      Item.pairResponse (.ok (namedKeys.publicKey k')) ∈ b.state.sent := by
  have hvalid : validateNonce (List.replicate 32 0) = true := by decide
  have h1 := Send.feed_start (w := w) (c := pairSender k) (s := Send.initial [] []) rfl
  have h2 := h1.trans (Send.feed_nonce (w := w) rfl hvalid rfl)
  have h3 := h2.trans (Send.feed_tokenResponse (w := w) (c := pairSender k) rfl
    (.ok (keyName k' ++ "...x")) (Send.onTokenResponse_ok rfl))
  have h4 := h3.trans (Send.feed_pinStart (w := w) (c := pairSender k) rfl rfl)
  have h5 := h4.trans (Send.feed_pair (w := w) (c := pairSender k) (namedKeys.publicKey k') rfl
    ⟨_, _, extractSignatureIdentifier_named k', rfl, decide_eq_true rfl⟩ rfl)
  obtain ⟨es, hrun, _⟩ := h5.alone
  refine ⟨es, _, hrun, fun p hp => ?_, List.mem_append_right _ (List.mem_singleton_self _)⟩
  change _ ∈ [Item.nonce ⟨w.base64Encode (List.replicate 32 0)⟩,
    .tokenResponse (.ok (keyName k' ++ "...x")), .fileList (.pair (namedKeys.publicKey k'))] at hp
  simpa using hp

/-- Two peers with one key. -/
theorem pair_key_iff_oneKey :
    ∃ es b, (Send.sendOffer jsonWire (pairSender true)).alone.Run Machine.anyStep
        ⟨Send.initial [] [], []⟩ es b ∧
      Item.pairResponse (.ok "a") ∈ b.state.sent ∧ VerifiesOwn namedKeys b.state "a" := by
  obtain ⟨es, b, hrun, hhonest, hok⟩ := pairing_run jsonWire true true
  have hkey := pair_key_iff namedKeys_lawful (k := true) rfl rfl hrun hhonest _ hok
  exact ⟨es, b, hrun, hok, hkey.2.2.mpr rfl⟩

/-- **The receiver is given its own key back**: the sender has the key `a`, the receiver asks with
    its key `b`, and the answer carries `b`, which does not verify the sender's token. -/
theorem pairing_hands_back :
    ∃ es b, (Send.sendOffer jsonWire (pairSender true)).alone.Run Machine.anyStep
        ⟨Send.initial [] [], []⟩ es b ∧
      (∀ p, Item.fileList (.pair p) ∈ b.state.got → p = "b") ∧
      Item.pairResponse (.ok "b") ∈ b.state.sent ∧ ¬ VerifiesOwn namedKeys b.state "b" := by
  obtain ⟨es, b, hrun, hhonest, hok⟩ := pairing_run jsonWire true false
  refine ⟨es, b, hrun, hhonest, hok, fun hverifies => ?_⟩
  have hpaired := Send.paired_run hrun
  obtain ⟨token, hsent, hver⟩ := hverifies
  obtain ⟨hsign, -⟩ := hpaired.own token hsent
  exact absurd (namedKeys_lawful.others true false _ token hsign hver) (by decide)

end LocalSend.WebRtc
