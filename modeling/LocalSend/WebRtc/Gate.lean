/-
  File:      LocalSend/WebRtc/Gate.lean
  Subject:   WHAT A REMOTE MUST SHOW BEFORE IT SEES ANYTHING. Against any sequence of messages:
             a nonce, a token, a PIN.

  * `Gate` -- the three conditions on the messages a peer has received;
  * `Accept.Guarded`, `Send.Guarded` -- the invariants: what the phase of a task says about the
    messages it has taken;
  * `Accept.gated_iff`, `Send.gated_iff` -- the file list is published, and sent, only behind the
    gate, exactly if the configured PIN is not the empty text (or no remote gets as far as the
    PIN): `verify_pin` compares an empty `remote_pin` before it has received any;
  * `handshake_gated` -- both together.
-/
import LocalSend.WebRtc.Peers

namespace LocalSend.WebRtc

open Lib

variable {w : Wire} {auth : RTCAuthConfig} {final : Bytes → Bytes}
  {token : Message → Option String} {ms : List Message} {m : Message}

/-! ## 1. The three conditions -/

/-- A message is a nonce of valid length. -/
def SaysNonce (w : Wire) (m : Option Message) (n : Bytes) : Prop :=
  ∃ msg data, m = some (textMessage data) ∧ w.nonceMessage.decode data = some msg ∧
    w.base64Decode msg.nonce = some n ∧ validateNonce n = true

/-- One of the first `max_tries` PIN messages has the configured PIN. -/
def PinShown (w : Wire) (pin : PinConfig) (pins : List Message) : Prop :=
  ∃ m ∈ pins.take pin.maxTries.toNat, w.pinMessage.decode m.data = some ⟨pin.pin⟩

/-- **The gate**: the first message is a nonce; the token in the second one verifies over the
    final nonce, if a key is expected; the PIN is among the first PIN messages, if one is set. -/
def Gate (w : Wire) (auth : RTCAuthConfig) (final : Bytes → Bytes)
    (token : Message → Option String) (pins : Option (List Message)) (ms : List Message) : Prop :=
  ∃ n, SaysNonce w ms[0]? n ∧
    (∀ key, auth.expectingPublicKey = some key →
      ∃ m t, ms[1]? = some m ∧ token m = some t ∧ key t (final n) = true) ∧
    ∀ pin, auth.pin = some pin → ∃ ps, pins = some ps ∧ PinShown w pin ps

/-- The first two conditions, as a task finds them: also without an expected key there is a token,
    and an own one was made. -/
def Opened (w : Wire) (auth : RTCAuthConfig) (final : Bytes → Bytes)
    (token : Message → Option String) (ms : List Message) : Prop :=
  ∃ n, SaysNonce w ms[0]? n ∧
    (∃ m t, ms[1]? = some m ∧ token m = some t ∧
      tokenVerified auth.expectingPublicKey t (final n) = true) ∧
    (auth.signingKey (final n)).isSome = true

/-- **Some remote gets as far as the PIN**: for some valid nonce the own token can be made, and
    some token verifies. -/
def CanOpen (auth : RTCAuthConfig) (final : Bytes → Bytes) : Prop :=
  ∃ n, validateNonce n = true ∧ (∃ t, tokenVerified auth.expectingPublicKey t (final n) = true) ∧
    (auth.signingKey (final n)).isSome = true

theorem Opened.canOpen (h : Opened w auth final token ms) : CanOpen auth final := by
  obtain ⟨n, ⟨_, _, _, _, _, hv⟩, ⟨m, t, _, _, ht⟩, hs⟩ := h
  exact ⟨n, hv, ⟨t, ht⟩, hs⟩

theorem getElem?_append_some {α : Type} {xs : List α} {i : Nat} {a : α} (h : xs[i]? = some a)
    (ys : List α) : (xs ++ ys)[i]? = some a := by
  rw [List.getElem?_append_left (List.getElem?_eq_some_iff.mp h).1]
  exact h

theorem SaysNonce.append {n : Bytes} (h : SaysNonce w ms[0]? n) (more : List Message) :
    SaysNonce w (ms ++ more)[0]? n := by
  obtain ⟨data, msg, h0, hrest⟩ := h
  exact ⟨data, msg, getElem?_append_some h0 more, hrest⟩

theorem Opened.append (h : Opened w auth final token ms) (more : List Message) :
    Opened w auth final token (ms ++ more) := by
  obtain ⟨n, hn, ⟨m, t, hm, ht⟩, hs⟩ := h
  exact ⟨n, hn.append more, ⟨m, t, getElem?_append_some hm more, ht⟩, hs⟩

/-- The PIN that was missing. -/
theorem Opened.gate (h : Opened w auth final token ms) {pins : Option (List Message)}
    (hpin : ∀ pin, auth.pin = some pin → ∃ ps, pins = some ps ∧ PinShown w pin ps) :
    Gate w auth final token pins ms := by
  obtain ⟨n, hn, ⟨m, t, hm, ht, hv⟩, _⟩ := h
  refine ⟨n, hn, fun key hkey => ⟨m, t, hm, ht, ?_⟩, hpin⟩
  rw [hkey] at hv
  exact hv

theorem PinShown.append {pin : PinConfig} {ps : List Message} (h : PinShown w pin ps)
    (more : List Message) : PinShown w pin (ps ++ more) := by
  obtain ⟨m, hm, hd⟩ := h
  refine ⟨m, ?_, hd⟩
  rw [List.take_append]
  exact List.mem_append_left _ hm

/-- A PIN taken while tries were left is among the first. -/
theorem PinShown.last {pin : PinConfig} {ps : List Message}
    (hlt : ps.length < pin.maxTries.toNat) (hd : w.pinMessage.decode m.data = some ⟨pin.pin⟩) :
    PinShown w pin (ps ++ [m]) := by
  refine ⟨m, ?_, hd⟩
  rw [List.take_of_length_le (by rw [List.length_append]; exact hlt)]
  simp

theorem Gate.append {pins pins' : Option (List Message)} (h : Gate w auth final token pins ms)
    (more : List Message) (hpins : ∀ ps, pins = some ps → ∃ more', pins' = some (ps ++ more')) :
    Gate w auth final token pins' (ms ++ more) := by
  obtain ⟨n, hn, hkey, hpin⟩ := h
  refine ⟨n, hn.append more, fun key hk => ?_, fun pin hp => ?_⟩
  · obtain ⟨m, t, hm, ht⟩ := hkey key hk
    exact ⟨m, t, getElem?_append_some hm more, ht⟩
  · obtain ⟨ps, hps, hshown⟩ := hpin pin hp
    obtain ⟨more', hpins'⟩ := hpins ps hps
    exact ⟨_, hpins', hshown.append more'⟩

/-! ## 2. The receiving peer -/

namespace Accept

variable {c : Config} {s : State}

/-- The token in the sender's token message. -/
def requestToken (w : Wire) (m : Message) : Option String :=
  if m.isString then (w.tokenRequest.decode m.data).map RTCTokenRequest.token else none

/-- `sender_nonce || receiver_nonce`. -/
def finalNonce (c : Config) (remoteNonce : Bytes) : Bytes := remoteNonce ++ c.localNonce.1

/-- The gate of the receiver; the PIN messages are all messages after the token. -/
def Gated (w : Wire) (c : Config) (ms : List Message) : Prop :=
  Gate w c.auth (finalNonce c) (requestToken w) (some (ms.drop 2)) ms

/-- What the phase says about the messages taken. -/
def Stage (w : Wire) (c : Config) (ms : List Message) : Phase → Prop
  | .nonce => ms = []
  | .token n => ms.length = 1 ∧ SaysNonce w ms[0]? n
  | .pinStart pin =>
    Opened w c.auth (finalNonce c) (requestToken w) ms ∧ ms.length = 2 ∧ c.auth.pin = some pin
  | .pinMessage pin pinTry =>
    Opened w c.auth (finalNonce c) (requestToken w) ms ∧ ms.length = 2 + pinTry ∧
      c.auth.pin = some pin ∧ pinTry < pin.maxTries.toNat
  | .ended _ => True
  | .pinStatus _ | .pinPrompt | .pinResult _ | .selection | .files _ _ | .fileResult
  | .header _ _ => Gated w c ms

/-- **The invariant of the receiver.** -/
structure Guarded (w : Wire) (c : Config) (ms : List Message) (s : State) : Prop where
  stage : Stage w c ms s.phase
  published : s.published ≠ none → Gated w c ms

theorem Gated.append (h : Gated w c ms) (more : List Message) : Gated w c (ms ++ more) := by
  refine Gate.append h more fun ps hps => ?_
  obtain rfl := Option.some.inj hps
  exact ⟨_, congrArg some List.drop_append⟩

/-- The phases after the PIN stage. -/
def Phase.late : Phase → Bool
  | .nonce | .token _ | .pinStart _ | .pinMessage _ _ => false
  | _ => true

theorem Stage.of_late {phase : Phase} (hl : phase.late = true) (h : Gated w c ms) :
    Stage w c ms phase := by
  cases phase with
  | nonce | token _ | pinStart _ | pinMessage _ _ => cases hl
  | ended _ => trivial
  | _ => exact h

theorem Stage.late {phase : Phase} (hl : phase.late = true) (h : Stage w c ms phase) :
    (∃ r, phase = .ended r) ∨ Gated w c ms := by
  cases phase with
  | ended r => exact Or.inl ⟨r, rfl⟩
  | nonce | token _ | pinStart _ | pinMessage _ _ => cases hl
  | _ => exact Or.inr h

theorem promptPin_late : (promptPin w s).state.phase.late = true := by
  unfold promptPin
  simp only
  split <;> rfl

theorem connected_late {files : List FileDto} : (connected w c s files).state.phase.late = true := by
  unfold connected
  simp only
  split <;> rfl

theorem onHeader_late {incoming : Incoming} {msg : Message} :
    (onHeader w s incoming msg).state.phase.late = true := by
  unfold onHeader
  split
  · rfl
  · simp only
    split <;> rfl

theorem onFiles_late {incoming : Incoming} {fileState : Option RTCFileState}
    {m : Option Message} : (onFiles w c s incoming fileState m).state.phase.late = true := by
  unfold onFiles
  split
  · rfl
  · split
    · split
      · split
        · rfl
        · simp only [State.say]
          split <;> rfl
      · exact onHeader_late
    · unfold onBlock
      split
      · split <;> rfl
      · rfl

theorem onPinStatus_late {bytes : Bytes} : (onPinStatus w c s bytes).state.phase.late = true := by
  unfold onPinStatus
  split
  · rfl
  · simp only
    split
    · exact connected_late
    · exact promptPin_late
    · rfl

theorem onPinResult_late {bytes : Bytes} : (onPinResult w c s bytes).state.phase.late = true := by
  unfold onPinResult
  split
  · rfl
  · simp only
    split
    · exact connected_late
    · exact promptPin_late
    · rfl

/-- **Past the PIN stage a reaction stays past it.** -/
theorem react_late (hl : s.phase.late = true) :
    (react w c s).All fun b => b.state.phase.late = true := by
  unfold react
  split
  · rename_i h; rw [h] at hl; cases hl
  · rename_i h; rw [h] at hl; cases hl
  · rename_i h; rw [h] at hl; cases hl
  · rename_i h; rw [h] at hl; cases hl
  · intro m
    simp only
    split
    · rfl
    · exact onPinStatus_late
  · intro m
    simp only
    split
    · rfl
    · exact onPinResult_late
  · intro m
    exact onFiles_late
  · exact onHeader_late
  all_goals trivial

/-- **The condition**: a PIN that is set is not the empty text, or no remote gets as far. -/
def Safe (c : Config) : Prop :=
  (∀ pin, c.auth.pin = some pin → pin.pin ≠ "") ∨ ¬ CanOpen c.auth (finalNonce c)

theorem Guarded.of_late (hl : s.phase.late = true) (h : Gated w c ms) : Guarded w c ms s :=
  ⟨.of_late hl h, fun _ => h⟩

/-- The head of the PIN loop: it passes only with the PIN shown. -/
theorem checkPin_guarded {pin : PinConfig} {remotePin : String} {pinTry : Nat}
    (hopen : Opened w c.auth (finalNonce c) (requestToken w) ms) (hlen : ms.length = 2 + pinTry)
    (hpin : c.auth.pin = some pin) (hshown : remotePin = pin.pin → PinShown w pin (ms.drop 2))
    (hpub : s.published ≠ none → Gated w c ms) :
    Guarded w c ms (checkPin w s pin remotePin pinTry).state := by
  unfold checkPin verifyPin
  by_cases hp : remotePin = pin.pin
  · rw [if_pos hp]
    refine .of_late rfl (hopen.gate fun pin' hpin' => ⟨_, rfl, ?_⟩)
    obtain rfl : pin = pin' := Option.some.inj (hpin.symm.trans hpin')
    exact hshown hp
  · rw [if_neg hp]
    by_cases hm : pin.maxTries.toNat ≤ pinTry
    · rw [if_pos hm]
      exact ⟨trivial, hpub⟩
    · rw [if_neg hm]
      have hstage : Stage w c ms (.pinMessage pin pinTry) :=
        ⟨hopen, hlen, hpin, Nat.lt_of_not_le hm⟩
      cases hn : (false || decide (0 < pinTry)) with
      | true => exact ⟨hstage, hpub⟩
      | false => exact ⟨hstage, hpub⟩

theorem onNonce_guarded (hms : ms = []) (hpub : s.published ≠ none → Gated w c [m]) :
    Guarded w c (ms ++ [m]) (onNonce w c s (some m)).state := by
  subst hms
  unfold onNonce
  split
  · exact ⟨trivial, hpub⟩
  · rename_i msg n hok
    exact ⟨⟨rfl, msg, receiveNonce_ok.mp hok⟩, hpub⟩

theorem requestToken_text {data : Bytes} {request : RTCTokenRequest}
    (h : w.tokenRequest.decode data = some request) :
    requestToken w (textMessage data) = some request.token := by
  simp [requestToken, h]

theorem onToken_guarded {n : Bytes} (hlen : ms.length = 1) (hn : SaysNonce w ms[0]? n)
    (hpub : s.published ≠ none → Gated w c (ms ++ [m])) :
    Guarded w c (ms ++ [m]) (onToken w c s n (some m)).state := by
  unfold onToken
  simp only
  split
  · exact ⟨trivial, hpub⟩
  · rename_i data hdata
    obtain rfl := Option.some.inj (expectString_ok.mp hdata)
    split
    · exact ⟨trivial, hpub⟩
    · rename_i request hreq
      split
      · exact ⟨trivial, hpub⟩
      · rename_i hver
        split
        · exact ⟨trivial, hpub⟩
        · rename_i localToken hsign
          have hopen : Opened w c.auth (finalNonce c) (requestToken w)
              (ms ++ [textMessage data]) := by
            refine ⟨n, hn.append _, ⟨_, request.token, ?_, requestToken_text hreq, ?_⟩, ?_⟩
            · rw [List.getElem?_append_right (by omega), hlen]
              rfl
            · simpa [finalNonce] using hver
            · exact Option.isSome_iff_exists.mpr ⟨localToken, hsign⟩
          split
          · rename_i pin hpin
            exact ⟨⟨hopen, by simp [hlen], hpin⟩, hpub⟩
          · rename_i hpin
            refine .of_late rfl (hopen.gate fun pin hpin' => ?_)
            rw [hpin] at hpin'
            cases hpin'

theorem onPin_guarded {pin : PinConfig} {pinTry : Nat}
    (hopen : Opened w c.auth (finalNonce c) (requestToken w) ms) (hlen : ms.length = 2 + pinTry)
    (hpin : c.auth.pin = some pin) (hlt : pinTry < pin.maxTries.toNat)
    (hpub : s.published ≠ none → Gated w c (ms ++ [m])) :
    Guarded w c (ms ++ [m]) (onPin w s pin pinTry (some m)).state := by
  unfold onPin
  simp only
  split
  · exact ⟨trivial, hpub⟩
  · rename_i request hreq
    refine checkPin_guarded (hopen.append _) (by simp [hlen]; omega) hpin ?_ hpub
    intro heq
    rw [List.drop_append_of_le_length (by omega)]
    refine PinShown.last (by simp [hlen]; omega) ?_
    rw [hreq, ← heq]

/-- **A message keeps the invariant.** -/
theorem guarded_recv {k : Option Message → Batch Message State}
    (h : Guarded w c ms s) (hk : react w c s = .recv k) (m : Message) :
    Guarded w c (ms ++ [m]) (k (some m)).state := by
  obtain ⟨hstage, hpub⟩ := h
  have hpub' : s.published ≠ none → Gated w c (ms ++ [m]) := fun hp => (hpub hp).append [m]
  by_cases hl : s.phase.late = true
  · have hall := react_late (w := w) (c := c) hl
    rw [hk] at hall
    rcases hstage.late hl with ⟨r, hr⟩ | hgate
    · simp [react, hr] at hk
    · exact .of_late (hall (some m)) (hgate.append [m])
  · cases hphase : s.phase with
    | nonce =>
        rw [hphase] at hstage
        simp only [react, hphase, Reaction.recv.injEq] at hk
        subst hk hstage
        exact onNonce_guarded rfl hpub'
    | token n =>
        rw [hphase] at hstage
        simp only [react, hphase, Reaction.recv.injEq] at hk
        subst hk
        exact onToken_guarded hstage.1 hstage.2 hpub'
    | pinStart pin => simp [react, hphase] at hk
    | pinMessage pin pinTry =>
        rw [hphase] at hstage
        simp only [react, hphase, Reaction.recv.injEq] at hk
        subst hk
        obtain ⟨hopen, hlen, hpin, hlt⟩ := hstage
        exact onPin_guarded hopen hlen hpin hlt hpub'
    | _ => rw [hphase] at hl; exact absurd rfl hl

/-- **The end of the channel keeps the invariant**: before the PIN stage is passed it ends the
    task. -/
theorem guarded_closed {k : Option Message → Batch Message State}
    (h : Guarded w c ms s) (hk : react w c s = .recv k) : Guarded w c ms (k none).state := by
  obtain ⟨hstage, hpub⟩ := h
  by_cases hl : s.phase.late = true
  · have hall := react_late (w := w) (c := c) hl
    rw [hk] at hall
    rcases hstage.late hl with ⟨r, hr⟩ | hgate
    · simp [react, hr] at hk
    · exact .of_late (hall none) hgate
  · cases hphase : s.phase with
    | pinStart pin => simp [react, hphase] at hk
    | nonce | token _ | pinMessage _ _ =>
        simp only [react, hphase, Reaction.recv.injEq] at hk
        subst hk
        exact ⟨trivial, hpub⟩
    | _ => rw [hphase] at hl; exact absurd rfl hl

theorem guarded_tau {next : Batch Message State} (hsafe : Safe c)
    (h : Guarded w c ms s) (hk : react w c s = .tau next) : Guarded w c ms next.state := by
  obtain ⟨hstage, hpub⟩ := h
  by_cases hl : s.phase.late = true
  · have hall := react_late (w := w) (c := c) hl
    rw [hk] at hall
    rcases hstage.late hl with ⟨r, hr⟩ | hgate
    · simp [react, hr] at hk
    · exact .of_late hall hgate
  · cases hphase : s.phase with
    | pinStart pin =>
        rw [hphase] at hstage
        simp only [react, hphase, Reaction.tau.injEq] at hk
        subst hk
        obtain ⟨hopen, hlen, hpin⟩ := hstage
        refine checkPin_guarded hopen hlen hpin (fun heq => ?_) hpub
        -- the empty text is compared before any PIN has arrived
        rcases hsafe with hne | hno
        · exact absurd heq.symm (hne pin hpin)
        · exact absurd hopen.canOpen hno
    | nonce | token _ | pinMessage _ _ => simp [react, hphase] at hk
    | _ => rw [hphase] at hl; exact absurd rfl hl

theorem guarded_failed (h : Guarded w c ms s) (e : String) : Guarded w c ms (failed s e) := by
  unfold failed
  split
  · exact ⟨trivial, h.published⟩
  · exact h
  · exact ⟨trivial, h.published⟩

/-- **The receiver publishes only behind the gate**, in every run against any remote. -/
def PublishesGated (w : Wire) (c : Config) : Prop :=
  ∀ pins results es t,
    (acceptOffer w c).alone.Run Machine.anyStep ⟨initial pins results, []⟩ es t →
    t.state.published ≠ none → Gated w c (Process.received es)

theorem publishesGated_of_safe (hsafe : Safe c) : PublishesGated w c := by
  intro pins results es t hrun
  have h0 : Guarded w c [] (initial pins results) := ⟨rfl, fun h => absurd rfl h⟩
  have hinv : Guarded w c (Process.received es) t.state :=
    Process.batched_alone (I := Guarded w c) (fun _ _ e h => guarded_failed h e)
      (fun _ _ _ m h hk => guarded_recv h hk m) (fun _ _ _ h hk => guarded_closed h hk)
      (fun _ _ _ h hk => guarded_tau hsafe h hk) h0 hrun
  exact hinv.published

theorem connected_published {files : List FileDto} :
    (connected w c s files).state.published = some files := by
  unfold connected
  simp only
  split <;> rfl

/-- **With the empty PIN a remote needs none**: it opens, and sends a file list byte by byte. -/
theorem not_publishesGated {pin : PinConfig} (hpin : c.auth.pin = some pin)
    (hempty : pin.pin = "") (hopen : CanOpen c.auth (finalNonce c)) : ¬ PublishesGated w c := by
  intro hall
  obtain ⟨n, hv, ⟨token, htoken⟩, hsign⟩ := hopen
  obtain ⟨localToken, hsign⟩ := Option.isSome_iff_exists.mp hsign
  let list := w.pinSendingResponse.encode (.ok [])
  have hlist : (list.map fun b => [b]).flatten = list := by
    rw [← List.flatMap_def, List.flatMap_singleton']
  have hcheck : ∀ s, checkPin w s pin "" 0 = s.say w (.pinReceiving .ok) .plain (.pinStatus []) :=
    fun s => by simp [checkPin, verifyPin, hempty]
  have h1 := feed_nonce (w := w) (c := c) (s := initial [] []) rfl hv
  have h2 := h1.trans (feed_token (w := w) rfl htoken hsign)
  have h3 := h2.trans (feed_pinStart (w := w) (c := c) (by simp only [State.say, afterToken, hpin])
    (hcheck _))
  have h4 := h3.trans (feed_pinStatus (w := w) (c := c) rfl fun phase => by
    rw [hlist]
    exact onPinStatus_ok phase [])
  obtain ⟨es, hrun, hes⟩ := h4.alone
  have hgate := hall [] [] es _ hrun (by simp [connected_published])
  obtain ⟨_, _, _, hshown⟩ := hgate
  obtain ⟨ps, hps, m, hm, hdecode⟩ := hshown pin hpin
  obtain rfl := Option.some.inj hps
  rw [hes] at hm
  -- nothing after the token is longer than one byte
  have hshort : m.data.length ≤ 1 := by
    have hm' := List.mem_of_mem_take hm
    simp only [Item.messages, List.cons_append, List.nil_append, List.append_nil, List.drop_succ_cons,
      List.drop_zero, List.mem_append, List.mem_map, List.mem_singleton] at hm'
    rcases hm' with ⟨_, ⟨b, _, rfl⟩, rfl⟩ | rfl
    · exact Nat.le_refl 1
    · exact Nat.le_refl 1
  rw [w.pinMessage.decode_short _ hshort] at hdecode
  cases hdecode

/-- **Exactly when the receiver publishes only behind the gate.** -/
theorem publishesGated_iff : PublishesGated w c ↔ Safe c := by
  refine ⟨fun hall => ?_, publishesGated_of_safe⟩
  by_contra hsafe
  simp only [Safe, not_or, not_forall, not_not] at hsafe
  obtain ⟨⟨pin, hpin, hempty⟩, hopen⟩ := hsafe
  exact not_publishesGated hpin hempty hopen hall

end Accept

/-! ## 3. The sending peer -/

namespace Send

variable {c : Config} {s : State}

/-- The token in the receiver's token message. -/
def responseToken (w : Wire) (m : Message) : Option String :=
  if m.isString then
    match w.tokenResponse.decode m.data with
    | some (.ok token) | some (.pinRequired token) => some token
    | _ => none
  else none

/-- `sender_nonce || receiver_nonce`. -/
def finalNonce (c : Config) (remoteNonce : Bytes) : Bytes := c.localNonce.1 ++ remoteNonce

/-- The messages after the one by which the receiver accepts the own PIN. -/
def afterPinOk (w : Wire) : List Message → Option (List Message)
  | [] => none
  | m :: ms =>
    if w.pinReceivingResponse.decode m.data = some .ok then some ms else afterPinOk w ms

/-- The PIN messages among those received: all messages after the token or, where the receiver
    challenges first, after it has accepted. -/
def pinMessages (w : Wire) (ms : List Message) : Option (List Message) :=
  match ms[1]?.bind fun m => w.tokenResponse.decode m.data with
  | some (.ok _) => some (ms.drop 2)
  | some (.pinRequired _) => afterPinOk w (ms.drop 2)
  | _ => none

/-- The gate of the sender. -/
def Gated (w : Wire) (c : Config) (ms : List Message) : Prop :=
  Gate w c.auth (finalNonce c) (responseToken w) (pinMessages w ms) ms

/-- The file list is on its way. -/
def Transmitted (s : State) : Prop := ∃ files, Item.pinSending (.ok files) ∈ s.sent

/-- The receiver challenges and has not accepted yet. -/
def Challenged (w : Wire) (ms : List Message) : Prop :=
  ∃ m token, ms[1]? = some m ∧ w.tokenResponse.decode m.data = some (.pinRequired token) ∧
    afterPinOk w (ms.drop 2) = none

/-- What the phase says about the messages taken. -/
def Stage (w : Wire) (c : Config) (ms : List Message) (nonce : Bytes) : Phase → Prop
  | .start | .nonce => ms = []
  | .tokenResponse => ms.length = 1 ∧ ∃ n, SaysNonce w ms[0]? n ∧ nonce = finalNonce c n ∧
      (c.auth.signingKey (finalNonce c n)).isSome = true
  | .pinResult => Opened w c.auth (finalNonce c) (responseToken w) ms ∧ Challenged w ms
  | .pinStart =>
    Opened w c.auth (finalNonce c) (responseToken w) ms ∧ pinMessages w ms = some []
  | .pinMessage pin pinTry =>
    Opened w c.auth (finalNonce c) (responseToken w) ms ∧
      (∃ ps, pinMessages w ms = some ps ∧ ps.length = pinTry) ∧
      c.auth.pin = some pin ∧ pinTry < pin.maxTries.toNat
  | .pinPrompt | .ended _ => True
  | .fileList _ | .pairPrompt | .pairedFileList _ | .sending _ | .lastResponse => Gated w c ms

/-- **The invariant of the sender.** -/
structure Guarded (w : Wire) (c : Config) (ms : List Message) (s : State) : Prop where
  stage : Stage w c ms s.nonce s.phase
  transmitted : Transmitted s → Gated w c ms

theorem afterPinOk_append {ps : List Message} (h : afterPinOk w ms = some ps)
    (more : List Message) : afterPinOk w (ms ++ more) = some (ps ++ more) := by
  induction ms with
  | nil => cases h
  | cons m ms ih =>
      simp only [afterPinOk, List.cons_append] at h ⊢
      split
      · rename_i hok
        rw [if_pos hok] at h
        rw [Option.some.inj h]
      · rename_i hok
        rw [if_neg hok] at h
        exact ih h

/-- One more answer, when none has accepted so far. -/
theorem afterPinOk_last (h : afterPinOk w ms = none) (m : Message) :
    afterPinOk w (ms ++ [m]) =
      if w.pinReceivingResponse.decode m.data = some .ok then some [] else none := by
  induction ms with
  | nil => rfl
  | cons m' ms ih =>
      simp only [afterPinOk, List.cons_append] at h ⊢
      split at h
      · cases h
      · rename_i hok
        rw [if_neg hok]
        exact ih h

theorem pinMessages_append {ps : List Message} (h : pinMessages w ms = some ps)
    (more : List Message) : pinMessages w (ms ++ more) = some (ps ++ more) := by
  unfold pinMessages at h ⊢
  cases hm : ms[1]? with
  | none => simp [hm] at h
  | some m =>
      have hlen : 2 ≤ ms.length := (List.getElem?_eq_some_iff.mp hm).1
      rw [getElem?_append_some hm more, List.drop_append_of_le_length hlen]
      rw [hm] at h
      simp only [Option.bind_some] at h ⊢
      split at h
      · rw [Option.some.inj h]
      · exact afterPinOk_append h more
      · cases h

theorem Gated.append (h : Gated w c ms) (more : List Message) : Gated w c (ms ++ more) :=
  Gate.append h more fun _ hps => ⟨more, pinMessages_append hps more⟩

theorem Stage.of_past {nonce : Bytes} {phase : Phase} (hl : phase.past = true)
    (h : Gated w c ms) : Stage w c ms nonce phase := by
  cases phase with
  | fileList _ | pairPrompt | pairedFileList _ | sending _ | lastResponse => exact h
  | ended _ => trivial
  | _ => cases hl

theorem Stage.past {nonce : Bytes} {phase : Phase} (hl : phase.past = true)
    (h : Stage w c ms nonce phase) : (∃ r, phase = .ended r) ∨ Gated w c ms := by
  cases phase with
  | ended r => exact Or.inl ⟨r, rfl⟩
  | fileList _ | pairPrompt | pairedFileList _ | sending _ | lastResponse => exact Or.inr h
  | _ => cases hl

theorem onPairRequest_past {key : String} : (onPairRequest w c s key).state.phase.past = true := by
  unfold onPairRequest
  split
  · rfl
  · split
    · rfl
    · split
      · rfl
      · split <;> rfl

theorem onFileList_past {paired : Bool} {bytes : Bytes} :
    (onFileList w c s paired bytes).state.phase.past = true := by
  unfold onFileList
  split
  · rfl
  · simp only
    split
    · rfl
    · split
      · rfl
      · exact onPairRequest_past
    · rfl
    · rfl

/-- **Past the PIN stage a reaction stays past it.** -/
theorem react_past (hl : s.phase.past = true) :
    (react w c s).All fun b => b.state.phase.past = true := by
  unfold react
  cases hphase : s.phase with
  | fileList buffer =>
      intro m
      simp only
      split
      · rfl
      · exact onFileList_past
  | pairedFileList buffer =>
      intro m
      simp only
      split
      · rfl
      · exact onFileList_past
  | sending fileMap =>
      show (onSending w s fileMap).state.phase.past = true
      unfold onSending
      split
      · rfl
      · simp only
        split <;> rfl
  | lastResponse =>
      intro m
      show (onLastResponse w s m).state.phase.past = true
      unfold onLastResponse
      split <;> rfl
  | pairPrompt => trivial
  | ended _ => trivial
  | _ => rw [hphase] at hl; cases hl

/-- **The condition**: a PIN that is set is not the empty text, or no remote gets as far. -/
def Safe (c : Config) : Prop :=
  (∀ pin, c.auth.pin = some pin → pin.pin ≠ "") ∨ ¬ CanOpen c.auth (finalNonce c)

theorem Guarded.of_past (hl : s.phase.past = true) (h : Gated w c ms) : Guarded w c ms s :=
  ⟨.of_past hl h, fun _ => h⟩

/-- Saying anything but the file list transmits nothing. -/
theorem transmitted_append {s' : State} {item : Item} (h : Transmitted s')
    (hsent : s'.sent = s.sent ++ [item]) (hitem : ∀ files, item ≠ .pinSending (.ok files)) :
    Transmitted s := by
  obtain ⟨files, hmem⟩ := h
  rw [hsent] at hmem
  rcases List.mem_append.mp hmem with hmem | hmem
  · exact ⟨files, hmem⟩
  · exact absurd (List.mem_singleton.mp hmem).symm (hitem files)

/-- The head of the PIN loop: it passes only with the PIN shown. -/
theorem checkPin_guarded {pin : PinConfig} {remotePin : String} {pinTry : Nat}
    {ps : List Message} (hopen : Opened w c.auth (finalNonce c) (responseToken w) ms)
    (hps : pinMessages w ms = some ps) (hlen : ps.length = pinTry)
    (hpin : c.auth.pin = some pin) (hshown : remotePin = pin.pin → PinShown w pin ps)
    (htr : Transmitted s → Gated w c ms) :
    Guarded w c ms (checkPin w c s pin remotePin pinTry).state := by
  unfold checkPin verifyPin
  by_cases hp : remotePin = pin.pin
  · rw [if_pos hp]
    refine .of_past rfl (hopen.gate fun pin' hpin' => ⟨ps, hps, ?_⟩)
    obtain rfl : pin = pin' := Option.some.inj (hpin.symm.trans hpin')
    exact hshown hp
  · rw [if_neg hp]
    by_cases hm : pin.maxTries.toNat ≤ pinTry
    · rw [if_pos hm]
      exact ⟨trivial, fun h => htr (transmitted_append h rfl (by simp))⟩
    · rw [if_neg hm]
      exact ⟨⟨hopen, ⟨ps, hps, hlen⟩, hpin, Nat.lt_of_not_le hm⟩,
        fun h => htr (transmitted_append h rfl (by simp))⟩

/-- The own challenge: without a PIN there is none. -/
theorem onPinStart_guarded (hsafe : Safe c)
    (hopen : Opened w c.auth (finalNonce c) (responseToken w) ms)
    (hps : pinMessages w ms = some []) (htr : Transmitted s → Gated w c ms) :
    Guarded w c ms (onPinStart w c s).state := by
  unfold onPinStart
  split
  · rename_i pin hpin
    refine checkPin_guarded hopen hps rfl hpin (fun heq => ?_) htr
    -- the empty text is compared before any PIN has arrived
    rcases hsafe with hne | hno
    · exact absurd heq.symm (hne pin hpin)
    · exact absurd hopen.canOpen hno
  · rename_i hpin
    refine .of_past rfl (hopen.gate fun pin hpin' => ?_)
    rw [hpin] at hpin'
    cases hpin'

theorem promptPin_guarded (hopen : Opened w c.auth (finalNonce c) (responseToken w) ms)
    (hch : Challenged w ms) (htr : Transmitted s → Gated w c ms) :
    Guarded w c ms (promptPin w s).state := by
  unfold promptPin
  simp only
  split
  · exact ⟨trivial, htr⟩
  · exact ⟨trivial, htr⟩
  · exact ⟨⟨hopen, hch⟩, fun h => htr (transmitted_append h rfl (by simp))⟩

theorem onNonce_guarded (hms : ms = []) (htr : Transmitted s → Gated w c (ms ++ [m])) :
    Guarded w c (ms ++ [m]) (onNonce w c s (some m)).state := by
  subst hms
  unfold onNonce
  split
  · exact ⟨trivial, htr⟩
  · rename_i msg n hok
    simp only
    split
    · exact ⟨trivial, htr⟩
    · rename_i localToken hsign
      have hsign' : (c.auth.signingKey (finalNonce c n)).isSome = true :=
        Option.isSome_iff_exists.mpr ⟨localToken, hsign⟩
      exact ⟨⟨rfl, n, ⟨msg, receiveNonce_ok.mp hok⟩, rfl, hsign'⟩,
        fun h => htr (transmitted_append h rfl (by simp))⟩

/-- The second message, once it has been read. -/
theorem second_message (hlen : ms.length = 1) : (ms ++ [m])[1]? = some m := by
  rw [List.getElem?_append_right (by omega), hlen]
  rfl

theorem onTokenResponse_guarded {n : Bytes} (hlen : ms.length = 1) (hn : SaysNonce w ms[0]? n)
    (hnonce : s.nonce = finalNonce c n) (hsign : (c.auth.signingKey (finalNonce c n)).isSome = true)
    (htr : Transmitted s → Gated w c (ms ++ [m])) :
    Guarded w c (ms ++ [m]) (onTokenResponse w c s (some m)).state := by
  have hdrop : (ms ++ [m]).drop 2 = [] := List.drop_eq_nil_of_le (by simp [hlen])
  unfold onTokenResponse
  split
  · exact ⟨trivial, htr⟩
  · rename_i data hdata
    obtain rfl := Option.some.inj (expectString_ok.mp hdata)
    have hopen : ∀ token, responseToken w (textMessage data) = some token →
        tokenVerified c.auth.expectingPublicKey token s.nonce = true →
        Opened w c.auth (finalNonce c) (responseToken w) (ms ++ [textMessage data]) :=
      fun token ht hv => ⟨n, hn.append _, ⟨_, token, second_message hlen, ht, hnonce ▸ hv⟩, hsign⟩
    split
    · exact ⟨trivial, htr⟩
    · rename_i response hres
      simp only
      split
      · rename_i token
        unfold onRemoteToken
        split
        · exact ⟨trivial, htr⟩
        · rename_i hver
          refine ⟨⟨hopen token (by simp [responseToken, hres])
            (by simpa [State.heard] using hver), ?_⟩, htr⟩
          simp [pinMessages, second_message hlen, hres, hdrop]
      · rename_i token
        unfold onRemoteToken
        split
        · exact ⟨trivial, htr⟩
        · rename_i hver
          refine promptPin_guarded (hopen token (by simp [responseToken, hres])
            (by simpa [State.heard] using hver)) ⟨_, token, second_message hlen, hres, ?_⟩ htr
          rw [hdrop]
          rfl
      · exact ⟨trivial, htr⟩

theorem onPinResult_guarded (hopen : Opened w c.auth (finalNonce c) (responseToken w) ms)
    (hch : Challenged w ms) (htr : Transmitted s → Gated w c (ms ++ [m])) :
    Guarded w c (ms ++ [m]) (onPinResult w s (some m)).state := by
  obtain ⟨m1, token, hm1, htoken, hno⟩ := hch
  have hlen : 2 ≤ ms.length := (List.getElem?_eq_some_iff.mp hm1).1
  have hlast : afterPinOk w ((ms ++ [m]).drop 2) =
      if w.pinReceivingResponse.decode m.data = some .ok then some [] else none := by
    rw [List.drop_append_of_le_length hlen]
    exact afterPinOk_last hno m
  unfold onPinResult
  split
  · exact ⟨trivial, htr⟩
  · rename_i data hdata
    obtain rfl := Option.some.inj (expectString_ok.mp hdata)
    split
    · exact ⟨trivial, htr⟩
    · rename_i response hres
      simp only [data_textMessage, hres] at hlast
      simp only
      split
      · refine ⟨⟨hopen.append _, ?_⟩, htr⟩
        simp only [pinMessages, getElem?_append_some hm1, Option.bind_some, htoken]
        simpa using hlast
      · exact promptPin_guarded (hopen.append _)
          ⟨m1, token, getElem?_append_some hm1 _, htoken, by simpa using hlast⟩ htr
      · exact ⟨trivial, htr⟩

theorem onPin_guarded {pin : PinConfig} {pinTry : Nat} {ps : List Message}
    (hopen : Opened w c.auth (finalNonce c) (responseToken w) ms)
    (hps : pinMessages w ms = some ps) (hlen : ps.length = pinTry)
    (hpin : c.auth.pin = some pin) (hlt : pinTry < pin.maxTries.toNat)
    (htr : Transmitted s → Gated w c (ms ++ [m])) :
    Guarded w c (ms ++ [m]) (onPin w c s pin pinTry (some m)).state := by
  unfold onPin
  simp only
  split
  · exact ⟨trivial, htr⟩
  · rename_i request hreq
    refine checkPin_guarded (hopen.append _) (pinMessages_append hps [m]) (by simp [hlen]) hpin
      (fun heq => PinShown.last (by omega) ?_) htr
    rw [hreq, ← heq]

/-- **A message keeps the invariant.** -/
theorem guarded_recv {k : Option Message → Batch Message State}
    (h : Guarded w c ms s) (hk : react w c s = .recv k) (m : Message) :
    Guarded w c (ms ++ [m]) (k (some m)).state := by
  obtain ⟨hstage, htr⟩ := h
  have htr' : Transmitted s → Gated w c (ms ++ [m]) := fun ht => (htr ht).append [m]
  by_cases hl : s.phase.past = true
  · have hall := react_past (w := w) (c := c) hl
    rw [hk] at hall
    rcases hstage.past hl with ⟨r, hr⟩ | hgate
    · simp [react, hr] at hk
    · exact .of_past (hall (some m)) (hgate.append [m])
  · cases hphase : s.phase with
    | nonce =>
        rw [hphase] at hstage
        simp only [react, hphase, Reaction.recv.injEq] at hk
        subst hk
        exact onNonce_guarded hstage htr'
    | tokenResponse =>
        rw [hphase] at hstage
        simp only [react, hphase, Reaction.recv.injEq] at hk
        subst hk
        obtain ⟨hlen, n, hn, hnonce, hsign⟩ := hstage
        exact onTokenResponse_guarded hlen hn hnonce hsign htr'
    | pinResult =>
        rw [hphase] at hstage
        simp only [react, hphase, Reaction.recv.injEq] at hk
        subst hk
        exact onPinResult_guarded hstage.1 hstage.2 htr'
    | pinMessage pin pinTry =>
        rw [hphase] at hstage
        simp only [react, hphase, Reaction.recv.injEq] at hk
        subst hk
        obtain ⟨hopen, ⟨ps, hps, hlen⟩, hpin, hlt⟩ := hstage
        exact onPin_guarded hopen hps hlen hpin hlt htr'
    | start | pinStart | pinPrompt => simp [react, hphase] at hk
    | _ => rw [hphase] at hl; exact absurd rfl hl

/-- **The end of the channel keeps the invariant**: before the PIN stage is passed it ends the
    task. -/
theorem guarded_closed {k : Option Message → Batch Message State}
    (h : Guarded w c ms s) (hk : react w c s = .recv k) : Guarded w c ms (k none).state := by
  obtain ⟨hstage, htr⟩ := h
  by_cases hl : s.phase.past = true
  · have hall := react_past (w := w) (c := c) hl
    rw [hk] at hall
    rcases hstage.past hl with ⟨r, hr⟩ | hgate
    · simp [react, hr] at hk
    · exact .of_past (hall none) hgate
  · cases hphase : s.phase with
    | start | pinStart | pinPrompt => simp [react, hphase] at hk
    | nonce | tokenResponse | pinResult | pinMessage _ _ =>
        simp only [react, hphase, Reaction.recv.injEq] at hk
        subst hk
        exact ⟨trivial, htr⟩
    | _ => rw [hphase] at hl; exact absurd rfl hl

theorem guarded_tau {next : Batch Message State} (hsafe : Safe c)
    (h : Guarded w c ms s) (hk : react w c s = .tau next) : Guarded w c ms next.state := by
  obtain ⟨hstage, htr⟩ := h
  by_cases hl : s.phase.past = true
  · have hall := react_past (w := w) (c := c) hl
    rw [hk] at hall
    rcases hstage.past hl with ⟨r, hr⟩ | hgate
    · simp [react, hr] at hk
    · exact .of_past hall hgate
  · cases hphase : s.phase with
    | start =>
        rw [hphase] at hstage
        simp only [react, hphase, Reaction.tau.injEq] at hk
        subst hk
        exact ⟨hstage, fun h => htr (transmitted_append h rfl (by simp))⟩
    | pinStart =>
        rw [hphase] at hstage
        simp only [react, hphase, Reaction.tau.injEq] at hk
        subst hk
        exact onPinStart_guarded hsafe hstage.1 hstage.2 htr
    | nonce | tokenResponse | pinResult | pinPrompt | pinMessage _ _ => simp [react, hphase] at hk
    | _ => rw [hphase] at hl; exact absurd rfl hl

theorem guarded_failed (h : Guarded w c ms s) (e : String) : Guarded w c ms (failed s e) := by
  unfold failed
  split
  · exact ⟨trivial, h.transmitted⟩
  · exact ⟨trivial, h.transmitted⟩
  · exact h
  · exact ⟨trivial, h.transmitted⟩
  · exact ⟨h.stage, h.transmitted⟩

/-- **The sender transmits only behind the gate**, in every run against any remote. -/
def TransmitsGated (w : Wire) (c : Config) : Prop :=
  ∀ pins sending es t,
    (sendOffer w c).alone.Run Machine.anyStep ⟨initial pins sending, []⟩ es t →
    Transmitted t.state → Gated w c (Process.received es)

theorem transmitsGated_of_safe (hsafe : Safe c) : TransmitsGated w c := by
  intro pins sending es t hrun
  have h0 : Guarded w c [] (initial pins sending) := by
    refine ⟨rfl, fun h => ?_⟩
    obtain ⟨files, hmem⟩ := h
    cases hmem
  have hinv : Guarded w c (Process.received es) t.state :=
    Process.batched_alone (I := Guarded w c) (fun _ _ e h => guarded_failed h e)
      (fun _ _ _ m h hk => guarded_recv h hk m) (fun _ _ _ h hk => guarded_closed h hk)
      (fun _ _ _ h hk => guarded_tau hsafe h hk) h0 hrun
  exact hinv.transmitted

theorem connected_transmitted : Transmitted (connected w c s).state :=
  ⟨c.files, by simp [connected, State.say]⟩

/-- **With the empty PIN a remote needs none**: it answers nonce and token, and gets the list. -/
theorem not_transmitsGated {pin : PinConfig} (hpin : c.auth.pin = some pin)
    (hempty : pin.pin = "") (hopen : CanOpen c.auth (finalNonce c)) : ¬ TransmitsGated w c := by
  intro hall
  obtain ⟨n, hv, ⟨token, htoken⟩, hsign⟩ := hopen
  obtain ⟨localToken, hsign⟩ := Option.isSome_iff_exists.mp hsign
  have hstart : ∀ s, onPinStart w c s = connected w c (s.status .pinRequired) := fun s => by
    simp [onPinStart, hpin, checkPin, verifyPin, hempty]
  have h1 := feed_start (w := w) (c := c) (s := initial [] []) rfl
  have h2 := h1.trans (feed_nonce (w := w) rfl hv hsign)
  have h3 := h2.trans (feed_tokenResponse (w := w) (c := c) rfl (.ok token)
    (onTokenResponse_ok htoken))
  have h4 := h3.trans (feed_pinStart (w := w) (c := c) rfl (hstart _))
  obtain ⟨es, hrun, hes⟩ := h4.alone
  obtain ⟨_, _, _, hshown⟩ := hall [] [] es _ hrun (connected_transmitted (w := w))
  obtain ⟨ps, hps, m, hm, _⟩ := hshown pin hpin
  -- no message has arrived after the token
  rw [hes] at hps
  simp only [pinMessages, Item.messages, List.nil_append, List.cons_append, List.append_nil,
    List.getElem?_cons_succ, List.getElem?_cons_zero, Option.bind_some, data_textMessage,
    Codec.decode_encode, List.drop_succ_cons, List.drop_zero, Option.some.injEq] at hps
  subst hps
  simp at hm

/-- **Exactly when the sender transmits only behind the gate.** -/
theorem transmitsGated_iff : TransmitsGated w c ↔ Safe c := by
  refine ⟨fun hall => ?_, transmitsGated_of_safe⟩
  by_contra hsafe
  simp only [Safe, not_or, not_forall, not_not] at hsafe
  obtain ⟨⟨pin, hpin, hempty⟩, hopen⟩ := hsafe
  exact not_transmitsGated hpin hempty hopen hall

end Send

/-! ## 4. Both peers -/

/-- **The handshake gates both peers** exactly if neither of them has the empty text as its PIN
    (or no remote gets as far as the PIN). -/
theorem handshake_gated (w : Wire) (a : Accept.Config) (c : Send.Config) :
    (Accept.PublishesGated w a ↔ Accept.Safe a) ∧ (Send.TransmitsGated w c ↔ Send.Safe c) :=
  ⟨Accept.publishesGated_iff, Send.transmitsGated_iff⟩

/-- **A PIN nobody has to show**: with the empty text as its PIN either peer shows its files to a
    remote that has sent no PIN. -/
theorem handshake_not_gated :
    ¬ Accept.PublishesGated jsonWire (openReceiver (some ⟨"", 3⟩) .pending) ∧
    ¬ Send.TransmitsGated jsonWire (openSender (some ⟨"", 3⟩) []) := by
  have hvalid : validateNonce (List.replicate 32 0) = true := by decide
  exact ⟨Accept.not_publishesGated rfl rfl ⟨_, hvalid, ⟨"", rfl⟩, rfl⟩,
    Send.not_transmitsGated rfl rfl ⟨_, hvalid, ⟨"", rfl⟩, rfl⟩⟩

end LocalSend.WebRtc
