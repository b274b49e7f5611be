/-
  File:      LocalSend/WebRtc/PinAgreement.lean
  Subject:   TWO HONEST PEERS GET PAST THEIR PINS. Whatever PINs are set on the two sides, if each
             user who is asked enters the right one in time.

  * `Agreed` -- both peers are past the PIN stage, every message of the handshake was understood
    as it was meant, and the receiver has published the sender's files;
  * `receiver_challenge`, `sender_challenge` -- the two PIN loops, over all rounds;
  * `honest_run` -- one run of the two peers past the PIN stage;
  * `pin_agreement_iff` -- every run can be continued so, exactly if the receiver's PIN is not the
    empty text: with it the receiver asks for a PIN, does not wait for it, and takes it for a
    file list.
-/
import LocalSend.WebRtc.Peers
import Mathlib.Data.List.TakeWhile

namespace LocalSend.WebRtc

open Lib

variable {w : Wire} {cs : Send.Config} {cr : Accept.Config} {s : Send.State} {r : Accept.State}

/-! ## 1. Agreement -/

/-- The messages of the handshake, up to the file list. -/
def Item.handshake : Item → Bool
  | .nonce _ | .tokenRequest _ | .tokenResponse _ | .pin _ | .pinReceiving _ | .pinSending _ => true
  | .fileList _ | .pairResponse _ | .header _ | .fileResponse _ | .delimiter => false

/-- The handshake at the start of a log. -/
def handshake (log : List Item) : List Item := log.takeWhile Item.handshake

theorem handshake_append {log : List Item} (h : ∀ i ∈ log, i.handshake = true) (item : Item)
    (hitem : item.handshake = false) : handshake (log ++ [item]) = log := by
  rw [handshake, List.takeWhile_append_of_pos h]
  simp [hitem]

theorem handshake_all {log : List Item} (h : ∀ i ∈ log, i.handshake = true) : handshake log = log :=
  List.takeWhile_eq_self_iff.mpr h

/-- **Agreement**: past the PIN stage on both sides, nothing of the handshake misread, and the
    published files are the sender's. -/
structure Agreed (files : List FileDto) (n : Peers) : Prop where
  sender : RTCStatus.connected ∈ n.left.state.statuses
  receiver : RTCStatus.connected ∈ n.right.state.statuses
  published : n.right.state.published = some files
  heardByReceiver : handshake n.right.state.got = handshake n.left.state.sent
  heardBySender : handshake n.left.state.got = handshake n.right.state.sent

/-- A user who is asked for the PIN of the other side enters it within the tries. -/
def Enters (pin : Option PinConfig) (answers : List String) : Prop :=
  ∀ cfg, pin = some cfg → cfg.pin ∈ answers.take cfg.maxTries.toNat

/-- The keys of honest peers: each side can sign, and the token verifies at the other side. -/
def HonestKeys (cs : Send.Config) (cr : Accept.Config) : Prop :=
  ∃ tokenS tokenR,
    cs.auth.signingKey (cs.localNonce.1 ++ cr.localNonce.1) = some tokenS ∧
    cr.auth.signingKey (cs.localNonce.1 ++ cr.localNonce.1) = some tokenR ∧
    tokenVerified cr.auth.expectingPublicKey tokenS (cs.localNonce.1 ++ cr.localNonce.1) = true ∧
    tokenVerified cs.auth.expectingPublicKey tokenR (cs.localNonce.1 ++ cr.localNonce.1) = true

/-- The two tasks when the data channel is open, with what the users are going to enter. -/
def opening (pinsS : List String) (sending : List RTCFile) (pinsR : List String)
    (results : List (Option RTCSendFileResponse)) : Peers :=
  ⟨⟨Send.initial (pinsS.map some) sending, []⟩, ⟨Accept.initial (pinsR.map some) results, []⟩,
    [], []⟩

/-- **The peers agree**: every run can be continued to agreement. -/
def Agree (w : Wire) (cs : Send.Config) (cr : Accept.Config) (n0 : Peers) : Prop :=
  ∀ n, Leads w cs cr n0 n → ∃ t, Leads w cs cr n t ∧ Agreed cs.files t

/-! ## 2. In step -/

/-- The logs of the two peers, with the items on their way. -/
structure Synced (s : Send.State) (r : Accept.State) (toRight toLeft : List Item) : Prop where
  sent : s.sent = r.got ++ toRight
  got : r.sent = s.got ++ toLeft
  sender : ∀ i ∈ s.sent, i.handshake = true
  receiver : ∀ i ∈ r.sent, i.handshake = true

/-- The sender takes what is on its way, and sends more. -/
theorem Synced.left {s' : Send.State} {toLeft toRight : List Item} (h : Synced s r [] toLeft)
    (hgot : s'.got = s.got ++ toLeft) (hsent : s'.sent = s.sent ++ toRight)
    (hmore : ∀ i ∈ toRight, i.handshake = true) : Synced s' r toRight [] := by
  refine ⟨?_, ?_, ?_, h.receiver⟩
  · rw [hsent, h.sent, List.append_nil]
  · rw [h.got, hgot, List.append_nil]
  · rw [hsent]
    exact fun i hi => (List.mem_append.mp hi).elim (h.sender i) (hmore i)

/-- The receiver takes what is on its way, and sends more. -/
theorem Synced.right {r' : Accept.State} {toLeft toRight : List Item} (h : Synced s r toRight [])
    (hgot : r'.got = r.got ++ toRight) (hsent : r'.sent = r.sent ++ toLeft)
    (hmore : ∀ i ∈ toLeft, i.handshake = true) : Synced s r' [] toLeft := by
  refine ⟨?_, ?_, h.sender, ?_⟩
  · rw [h.sent, hgot, List.append_nil]
  · rw [hsent, h.got, List.append_nil]
  · rw [hsent]
    exact fun i hi => (List.mem_append.mp hi).elim (h.receiver i) (hmore i)

/-- Nothing is on its way. -/
def quiet (s : Send.State) (r : Accept.State) : Peers := ⟨⟨s, []⟩, ⟨r, []⟩, [], []⟩

/-- One item is on its way to the receiver. -/
def toReceiver (w : Wire) (s : Send.State) (r : Accept.State) (item : Item) : Peers :=
  ⟨⟨s, []⟩, ⟨r, []⟩, item.messages w, []⟩

/-- One item is on its way to the sender. -/
def toSender (w : Wire) (s : Send.State) (r : Accept.State) (item : Item) : Peers :=
  ⟨⟨s, []⟩, ⟨r, []⟩, [], item.messages w⟩

/-- The receiver takes an item and answers. -/
theorem receiver_answers (cs : Send.Config) (s : Send.State) {r' : Accept.State} {item : Item}
    {out : List Message}
    (h : (Accept.acceptOffer w cr).Feed ⟨r, []⟩ (item.messages w) ⟨r', []⟩ out) :
    Leads w cs cr (toReceiver w s r item) ⟨⟨s, []⟩, ⟨r', []⟩, [], out⟩ := by
  have hfeed := Net.feedRight (P := Send.sendOffer w cs) h ⟨s, []⟩ [] []
  rw [List.append_nil] at hfeed
  exact hfeed

/-- The sender takes an item and answers. -/
theorem sender_answers (cr : Accept.Config) (r : Accept.State) {s' : Send.State} {item : Item}
    {out : List Message}
    (h : (Send.sendOffer w cs).Feed ⟨s, []⟩ (item.messages w) ⟨s', []⟩ out) :
    Leads w cs cr (toSender w s r item) ⟨⟨s', []⟩, ⟨r, []⟩, out, []⟩ := by
  have hfeed := Net.feedLeft (Q := Accept.acceptOffer w cr) h ⟨r, []⟩ [] []
  rw [List.append_nil] at hfeed
  exact hfeed

/-- The sender goes on by itself. -/
theorem sender_moves (cr : Accept.Config) (r : Accept.State) {s' : Send.State}
    {out : List Message}
    (h : (Send.sendOffer w cs).Feed ⟨s, []⟩ [] ⟨s', []⟩ out) :
    Leads w cs cr (quiet s r) ⟨⟨s', []⟩, ⟨r, []⟩, out, []⟩ := by
  have hfeed := Net.feedLeft (Q := Accept.acceptOffer w cr) h ⟨r, []⟩ [] []
  exact hfeed

/-! ## 3. The two PIN loops -/

/-- The PIN is still to come, after a wrong one: another one is entered, with tries left. -/
theorem next_answer {pin a : String} {rest : List String} {tries : Nat}
    (h : pin ∈ (a :: rest).take tries) (hne : a ≠ pin) :
    ∃ b more, rest = b :: more ∧ pin ∈ (b :: more).take (tries - 1) ∧ 1 < tries := by
  cases tries with
  | zero => simp at h
  | succ tries =>
      rw [List.take_succ_cons, List.mem_cons] at h
      have h' := h.resolve_left (Ne.symm hne)
      cases rest with
      | nil => simp at h'
      | cons b more =>
          cases tries with
          | zero => simp at h'
          | succ tries => exact ⟨b, more, rfl, by simpa using h', by omega⟩

/-- The right PIN: the receiver accepts it, and the sender goes on. -/
theorem receiver_passes {cfg : PinConfig} {k : Nat} (hs : s.phase = .pinResult)
    (hr : r.phase = .pinMessage cfg k) (hsync : Synced s r [.pin ⟨cfg.pin⟩] []) :
    ∃ s' r', Leads w cs cr (toReceiver w s r (.pin ⟨cfg.pin⟩)) (quiet s' r') ∧
      s'.phase = .pinStart ∧ r'.phase = .pinStatus [] ∧ r'.pins = r.pins ∧ Synced s' r' [] [] := by
  have h1 := receiver_answers cs s (Accept.feed_pin (w := w) (c := cr) hr
    (Accept.checkPin_passed cfg (k + 1)))
  have h2 := h1.trans (sender_answers cr _ (Send.feed_pinResult (w := w) (c := cs) hs .ok
    Send.onPinResult_ok))
  have hsync' : Synced s ((r.heard (.pin ⟨cfg.pin⟩)).say w (.pinReceiving .ok) .plain
      (.pinStatus [])).state [] [.pinReceiving .ok] :=
    hsync.right rfl rfl (by simp [Item.handshake])
  exact ⟨_, _, h2, rfl, rfl, rfl, hsync'.left rfl (List.append_nil _).symm nofun⟩

/-- A wrong PIN: the receiver asks again, and the sender's user enters the next. -/
theorem receiver_asks_again (w : Wire) (cs : Send.Config) (cr : Accept.Config) {cfg : PinConfig}
    {k : Nat} {a b : String} {pins : List (Option String)} (hs : s.phase = .pinResult)
    (hpins : s.pins = some b :: pins) (hr : r.phase = .pinMessage cfg k) (hne : a ≠ cfg.pin)
    (hlt : k + 1 < cfg.maxTries.toNat) (hsync : Synced s r [.pin ⟨a⟩] []) :
    ∃ s' r', Leads w cs cr (toReceiver w s r (.pin ⟨a⟩)) (toReceiver w s' r' (.pin ⟨b⟩)) ∧
      s'.phase = .pinResult ∧ s'.pins = pins ∧ r'.phase = .pinMessage cfg (k + 1) ∧
      r'.pins = r.pins ∧ Synced s' r' [.pin ⟨b⟩] [] := by
  have h1 := receiver_answers cs s (Accept.feed_pin (w := w) (c := cr) hr
    (Accept.checkPin_again hne hlt))
  have hprompt : Send.promptPin w (s.heard (.pinReceiving .pinRequired)) = _ :=
    Send.promptPin_some (s := s.heard (.pinReceiving .pinRequired)) hpins
  have h2 := h1.trans (sender_answers cr _ (Send.feed_pinResult (w := w) (c := cs) hs .pinRequired
    (Send.onPinResult_pinRequired.trans hprompt)))
  have hsync' : Synced s ((r.heard (.pin ⟨a⟩)).say w (.pinReceiving .pinRequired) .plain
      (.pinMessage cfg (k + 1))).state [] [.pinReceiving .pinRequired] :=
    hsync.right rfl rfl (by simp [Item.handshake])
  exact ⟨_, _, h2, rfl, rfl, rfl, rfl, hsync'.left rfl rfl (by simp [Item.handshake])⟩

/-- **The receiver's challenge**: the sender's user enters PINs until the right one. -/
theorem receiver_challenge (w : Wire) (cs : Send.Config) (cr : Accept.Config) {cfg : PinConfig}
    (rest : List String) :
    ∀ {a : String} {k : Nat} {s : Send.State} {r : Accept.State}, s.phase = .pinResult →
    s.pins = rest.map some → r.phase = .pinMessage cfg k →
    cfg.pin ∈ (a :: rest).take (cfg.maxTries.toNat - k) → Synced s r [.pin ⟨a⟩] [] →
    ∃ s' r', Leads w cs cr (toReceiver w s r (.pin ⟨a⟩)) (quiet s' r') ∧ s'.phase = .pinStart ∧
      r'.phase = .pinStatus [] ∧ r'.pins = r.pins ∧ Synced s' r' [] [] := by
  induction rest with
  | nil =>
      intro a k s r hs hpins hr hmem hsync
      by_cases hne : a = cfg.pin
      · subst hne
        exact receiver_passes hs hr hsync
      · obtain ⟨b, more, hrest, _⟩ := next_answer hmem hne
        cases hrest
  | cons b rest ih =>
      intro a k s r hs hpins hr hmem hsync
      by_cases hne : a = cfg.pin
      · subst hne
        exact receiver_passes hs hr hsync
      · obtain ⟨b', more, hrest, hmem', hlt⟩ := next_answer hmem hne
        obtain ⟨rfl, rfl⟩ := List.cons.inj hrest
        obtain ⟨s', r', hlead, hs', hpins', hr', hrpins', hsync'⟩ := receiver_asks_again w cs
          cr hs hpins hr hne (by omega) hsync
        have hmem'' : cfg.pin ∈ (b :: rest).take (cfg.maxTries.toNat - (k + 1)) := by
          rwa [Nat.sub_add_eq]
        obtain ⟨s'', r'', hlead', h1, h2, h3, h4⟩ := ih hs' hpins' hr' hmem'' hsync'
        exact ⟨s'', r'', hlead.trans hlead', h1, h2, h3.trans hrpins', h4⟩

/-! ## 4. Past the PIN stage -/

/-- The sender is past the PIN stage, with the handshake in its logs. -/
structure SenderPast (sent got : List Item) (s : Send.State) : Prop where
  phase : s.phase.past = true
  connected : RTCStatus.connected ∈ s.statuses
  sent : handshake s.sent = sent
  got : handshake s.got = got

/-- The receiver is past the PIN stage, with the handshake in its logs. -/
structure ReceiverPast (files : List FileDto) (sent got : List Item) (r : Accept.State) : Prop where
  phase : r.phase.past = true
  connected : RTCStatus.connected ∈ r.statuses
  published : r.published = some files
  sent : handshake r.sent = sent
  got : handshake r.got = got

/-- Later messages are no part of the handshake. -/
theorem handshake_more {log : List Item} {item : Item} (h : item.handshake = false) :
    handshake (log ++ [item]) = handshake log := by
  induction log with
  | nil => simp [handshake, h]
  | cons i log ih =>
      simp only [handshake, List.cons_append, List.takeWhile_cons] at ih ⊢
      split
      · rw [ih]
      · rfl

namespace Send

variable {sent got : List Item}

theorem past_goto (h : SenderPast sent got s) {phase : Phase} (hp : phase.past = true) :
    SenderPast sent got (s.goto phase).state := ⟨hp, h.connected, h.sent, h.got⟩

theorem past_say (h : SenderPast sent got s) {item : Item} {onFail : OnFail} {phase : Phase}
    (hp : phase.past = true) (hitem : item.handshake = false) :
    SenderPast sent got (s.say w item onFail phase).state :=
  ⟨hp, h.connected, (handshake_more hitem).trans h.sent, h.got⟩

theorem past_heard (h : SenderPast sent got s) {item : Item} (hitem : item.handshake = false) :
    SenderPast sent got (s.heard item) :=
  ⟨h.phase, h.connected, h.sent, (handshake_more hitem).trans h.got⟩

theorem past_status (h : SenderPast sent got s) (status : RTCStatus) :
    SenderPast sent got (s.status status) :=
  ⟨h.phase, List.mem_append_left _ h.connected, h.sent, h.got⟩

theorem past_onPairRequest (h : SenderPast sent got s) {key : String} :
    SenderPast sent got (onPairRequest w cs s key).state := by
  unfold onPairRequest
  split
  · exact past_goto h rfl
  · split
    · exact past_goto h rfl
    · split
      · exact past_say h rfl rfl
      · split
        · exact past_goto h rfl
        · exact past_goto h rfl
        · exact past_goto h rfl
        · exact past_say h rfl rfl
        · exact past_say h rfl rfl

theorem past_onFileList (h : SenderPast sent got s) {paired : Bool} {bytes : Bytes} :
    SenderPast sent got (onFileList w cs s paired bytes).state := by
  unfold onFileList
  split
  · exact past_goto h rfl
  · rename_i response _
    have h' : SenderPast sent got (s.heard (.fileList response)) := past_heard h rfl
    simp only
    split
    · exact ⟨rfl, h'.connected, h'.sent, h'.got⟩
    · split
      · exact past_goto (past_status h' _) rfl
      · exact past_onPairRequest h'
    · exact past_goto (past_status h' _) rfl
    · exact past_goto (past_status h' _) rfl

theorem past_onSending (h : SenderPast sent got s) {fileMap : LinkedMap String String} :
    SenderPast sent got (onSending w s fileMap).state := by
  unfold onSending
  split
  · exact past_say h rfl rfl
  · simp only
    split
    · exact ⟨rfl, h.connected, h.sent, h.got⟩
    · exact ⟨rfl, h.connected, (handshake_more rfl).trans h.sent, h.got⟩

theorem past_onLastResponse (h : SenderPast sent got s) {m : Option Message} :
    SenderPast sent got (onLastResponse w s m).state := by
  unfold onLastResponse
  split
  · exact past_goto (past_heard h rfl) rfl
  · exact past_goto h rfl

/-- **Past the PIN stage the sender stays so.** -/
theorem past_react (w : Wire) (cs : Config) (h : SenderPast sent got s) :
    (react w cs s).All fun b => SenderPast sent got b.state := by
  have hphase := h.phase
  cases hp : s.phase with
  | fileList buffer =>
      simp only [react, hp]
      intro m
      simp only
      split
      · exact past_goto h rfl
      · exact past_onFileList h
  | pairedFileList buffer =>
      simp only [react, hp]
      intro m
      simp only
      split
      · exact past_goto h rfl
      · exact past_onFileList h
  | sending fileMap =>
      simp only [react, hp]
      exact past_onSending h
  | lastResponse =>
      simp only [react, hp]
      exact fun m => past_onLastResponse h
  | pairPrompt | ended _ =>
      simp only [react, hp]
      trivial
  | _ => rw [hp] at hphase; cases hphase

end Send

namespace Accept

variable {files : List FileDto} {sent got : List Item}

theorem past_goto (h : ReceiverPast files sent got r) {phase : Phase} (hp : phase.past = true) :
    ReceiverPast files sent got (r.goto phase).state :=
  ⟨hp, h.connected, h.published, h.sent, h.got⟩

theorem past_onHeader (h : ReceiverPast files sent got r) {incoming : Incoming} {msg : Message} :
    ReceiverPast files sent got (onHeader w r incoming msg).state := by
  unfold onHeader
  split
  · exact past_goto h rfl
  · have hgot : ∀ header, handshake (r.got ++ [Item.header header]) = got := fun header =>
      (handshake_more rfl).trans h.got
    simp only
    split
    · exact ⟨rfl, h.connected, h.published, h.sent, hgot _⟩
    · exact ⟨rfl, h.connected, h.published, h.sent, hgot _⟩

theorem past_onBlock (h : ReceiverPast files sent got r) {incoming : Incoming}
    {fileState : Option RTCFileState} {data : Bytes} :
    ReceiverPast files sent got (onBlock cr r incoming fileState data).state := by
  unfold onBlock
  split
  · split
    · exact ⟨rfl, h.connected, h.published, h.sent, h.got⟩
    · exact past_goto h rfl
  · exact ⟨rfl, h.connected, h.published, h.sent, h.got⟩

theorem past_onFiles (h : ReceiverPast files sent got r) {incoming : Incoming}
    {fileState : Option RTCFileState} {m : Option Message} :
    ReceiverPast files sent got (onFiles w cr r incoming fileState m).state := by
  unfold onFiles
  split
  · exact past_goto h rfl
  · split
    · split
      · split
        · exact past_goto h rfl
        · refine ⟨?_, h.connected, h.published, (handshake_more rfl).trans h.sent, h.got⟩
          simp only [State.say]
          split <;> rfl
      · exact past_onHeader h
    · exact past_onBlock h

/-- **Past the PIN stage the receiver stays so.** -/
theorem past_react (w : Wire) (cr : Config) (h : ReceiverPast files sent got r) :
    (react w cr r).All fun b => ReceiverPast files sent got b.state := by
  have hphase := h.phase
  cases hp : r.phase with
  | files incoming fileState =>
      simp only [react, hp]
      exact fun m => past_onFiles h
  | header incoming msg =>
      simp only [react, hp]
      exact past_onHeader h
  | selection | fileResult | ended _ =>
      simp only [react, hp]
      trivial
  | _ => rw [hp] at hphase; cases hphase

end Accept

/-- Both peers are past the PIN stage, with the same handshake in their logs. -/
def Past (files : List FileDto) (n : Peers) : Prop :=
  ∃ fromSender fromReceiver, SenderPast fromSender fromReceiver n.left.state ∧
    ReceiverPast files fromReceiver fromSender n.right.state

theorem Accept.past_connected (w : Wire) (cr : Accept.Config)
    (hsent : ∀ i ∈ r.sent, i.handshake = true)
    (hgot : ∀ i ∈ r.got, i.handshake = true) (files : List FileDto) :
    ReceiverPast files r.sent r.got (Accept.connected w cr r files).state := by
  have hstatus : RTCStatus.connected ∈ r.statuses ++ [.connected] :=
    List.mem_append_right _ List.mem_cons_self
  unfold Accept.connected
  simp only
  split
  · exact ⟨rfl, hstatus, rfl, handshake_all hsent, handshake_all hgot⟩
  · exact ⟨rfl, hstatus, rfl, handshake_all hsent, handshake_all hgot⟩
  · exact ⟨rfl, hstatus, rfl, handshake_append hsent _ rfl, handshake_all hgot⟩
  · exact ⟨rfl, hstatus, rfl, handshake_append hsent _ rfl, handshake_all hgot⟩

/-- **The file list arrives**: once the sender is through, both are past the PIN stage. -/
theorem list_arrives (hr : r.phase = .pinStatus [] ∨ r.phase = .pinResult [])
    (hsync : Synced s r [] []) :
    ∃ t, Leads w cs cr
      (toReceiver w (Send.connected w cs s).state r (.pinSending (.ok cs.files))) t ∧
      Past cs.files t := by
  obtain ⟨r', hr'⟩ : ∃ r', r' = r.heard (.pinSending (.ok cs.files)) := ⟨_, rfl⟩
  have hfeed : (Accept.acceptOffer w cr).Feed ⟨r, []⟩
      (Item.messages w (.pinSending (.ok cs.files)))
      ⟨(Accept.connected w cr r' cs.files).state, []⟩ (Accept.connected w cr r' cs.files).out := by
    subst hr'
    rcases hr with hr | hr
    · refine Accept.feed_pinStatus hr fun phase => ?_
      rw [processInChunks_flatten, List.flatten_singleton]
      exact Accept.onPinStatus_ok phase cs.files
    · exact Accept.feed_pinResult hr _ fun phase => Accept.onPinResult_ok phase cs.files
  have hsync' : Synced (Send.connected w cs s).state r' [] [] := by
    have h : Synced (Send.connected w cs s).state r [.pinSending (.ok cs.files)] [] :=
      hsync.left (List.append_nil _).symm rfl (by simp [Item.handshake])
    exact h.right (by rw [hr']; rfl) (by rw [hr']; exact (List.append_nil _).symm) nofun
  refine ⟨_, receiver_answers cs _ hfeed, _, _, ⟨rfl, ?_, rfl, rfl⟩, ?_⟩
  · exact List.mem_append_right _ List.mem_cons_self
  · have hsent := hsync'.sent
    have hgot := hsync'.got
    rw [List.append_nil] at hsent hgot
    have hpast := Accept.past_connected w cr hsync'.receiver (hsent ▸ hsync'.sender) cs.files
    rw [← hsent, hgot] at hpast
    rw [handshake_all hsync'.sender, handshake_all (hgot ▸ hsync'.receiver)]
    exact hpast

/-- **Past the PIN stage the two peers stay so**, and agree. -/
theorem agreed_of_past {files : List FileDto} {fromSender fromReceiver : List Item} {n t : Peers}
    (hl : SenderPast fromSender fromReceiver n.left.state)
    (hr : ReceiverPast files fromReceiver fromSender n.right.state) (ht : Leads w cs cr n t) :
    Agreed files t := by
  have hl' : SenderPast fromSender fromReceiver t.left.state := by
    refine Net.Reaches.keepsLeft (I := fun b => SenderPast fromSender fromReceiver b.state)
      (fun b b' hb hnext => ?_) ht hl
    rcases Process.batched_next hnext with hsame | ⟨k, m, hreact, rfl⟩ | hreact
    · rw [hsame]
      exact hb
    · have hall := Send.past_react w cs hb
      rw [hreact] at hall
      exact hall m
    · have hall := Send.past_react w cs hb
      rw [hreact] at hall
      exact hall
  have hr' : ReceiverPast files fromReceiver fromSender t.right.state := by
    refine Net.Reaches.keepsRight (I := fun b => ReceiverPast files fromReceiver fromSender b.state)
      (fun b b' hb hnext => ?_) ht hr
    rcases Process.batched_next hnext with hsame | ⟨k, m, hreact, rfl⟩ | hreact
    · rw [hsame]
      exact hb
    · have hall := Accept.past_react w cr hb
      rw [hreact] at hall
      exact hall m
    · have hall := Accept.past_react w cr hb
      rw [hreact] at hall
      exact hall
  exact ⟨hl'.connected, hr'.connected, hr'.published, hr'.got.trans hl'.sent.symm,
    hl'.got.trans hr'.sent.symm⟩

/-! ## 5. The sender's challenge -/

/-- The receiver's user is asked for the sender's PIN, and enters one. -/
theorem receiver_prompted (w : Wire) (cs : Send.Config) (cr : Accept.Config)
    (hr : r.phase = .pinStatus [] ∨ r.phase = .pinResult []) {a : String}
    {pins : List (Option String)} (hpins : r.pins = some a :: pins)
    (hsync : Synced s r [.pinSending .pinRequired] []) :
    ∃ r', Leads w cs cr (toReceiver w s r (.pinSending .pinRequired))
        (toSender w s r' (.pin ⟨a⟩)) ∧
      r'.phase = .pinResult [] ∧ r'.pins = pins ∧ Synced s r' [] [.pin ⟨a⟩] := by
  have hprompt : Accept.promptPin w (r.heard (.pinSending .pinRequired)) = _ :=
    Accept.promptPin_some (s := r.heard (.pinSending .pinRequired)) hpins
  have hfeed : (Accept.acceptOffer w cr).Feed ⟨r, []⟩
      (Item.messages w (.pinSending .pinRequired))
      ⟨(Accept.promptPin w (r.heard (.pinSending .pinRequired))).state, []⟩
      (Accept.promptPin w (r.heard (.pinSending .pinRequired))).out := by
    rcases hr with hr | hr
    · refine Accept.feed_pinStatus hr fun phase => ?_
      rw [processInChunks_flatten, List.flatten_singleton]
      exact Accept.onPinStatus_pinRequired phase
    · exact Accept.feed_pinResult hr _ fun phase => Accept.onPinResult_pinRequired phase
  rw [hprompt] at hfeed
  exact ⟨_, receiver_answers cs s hfeed, rfl, rfl, hsync.right rfl rfl (by simp [Item.handshake])⟩

/-- The right PIN: the sender's file list follows, and arrives. -/
theorem sender_passes {cfg : PinConfig} {k : Nat} (hs : s.phase = .pinMessage cfg k)
    (hr : r.phase = .pinResult []) (hsync : Synced s r [] [.pin ⟨cfg.pin⟩]) :
    ∃ t, Leads w cs cr (toSender w s r (.pin ⟨cfg.pin⟩)) t ∧ Past cs.files t := by
  have h1 := sender_answers cr r (Send.feed_pin (w := w) (c := cs) hs
    (Send.checkPin_passed cfg (k + 1)))
  have hsync' : Synced (s.heard (.pin ⟨cfg.pin⟩)) r [] [] :=
    hsync.left rfl (List.append_nil _).symm nofun
  obtain ⟨t, ht, hpast⟩ := list_arrives (w := w) (Or.inr hr) hsync'
  exact ⟨t, h1.trans ht, hpast⟩

/-- **The sender's challenge**: the receiver's user enters PINs until the right one. -/
theorem sender_challenge (w : Wire) (cs : Send.Config) (cr : Accept.Config) {cfg : PinConfig}
    (rest : List String) :
    ∀ {a : String} {k : Nat} {s : Send.State} {r : Accept.State}, s.phase = .pinMessage cfg k →
    r.phase = .pinResult [] → r.pins = rest.map some →
    cfg.pin ∈ (a :: rest).take (cfg.maxTries.toNat - k) → Synced s r [] [.pin ⟨a⟩] →
    ∃ t, Leads w cs cr (toSender w s r (.pin ⟨a⟩)) t ∧ Past cs.files t := by
  induction rest with
  | nil =>
      intro a k s r hs hr hpins hmem hsync
      by_cases hne : a = cfg.pin
      · subst hne
        exact sender_passes hs hr hsync
      · obtain ⟨b, more, hrest, _⟩ := next_answer hmem hne
        cases hrest
  | cons b rest ih =>
      intro a k s r hs hr hpins hmem hsync
      by_cases hne : a = cfg.pin
      · subst hne
        exact sender_passes hs hr hsync
      · obtain ⟨b', more, hrest, hmem', hlt⟩ := next_answer hmem hne
        obtain ⟨rfl, rfl⟩ := List.cons.inj hrest
        have h1 := sender_answers cr r (Send.feed_pin (w := w) (c := cs) hs
          (Send.checkPin_again hne (show k + 1 < cfg.maxTries.toNat by omega)))
        have hsync1 : Synced ((s.heard (.pin ⟨a⟩)).say w (.pinSending .pinRequired) .plain
            (.pinMessage cfg (k + 1))).state r [.pinSending .pinRequired] [] :=
          hsync.left rfl rfl (by simp [Item.handshake])
        obtain ⟨r', h2, hr', hpins', hsync2⟩ :=
          receiver_prompted w cs cr (Or.inr hr) hpins hsync1
        have hmem'' : cfg.pin ∈ (b :: rest).take (cfg.maxTries.toNat - (k + 1)) := by
          rwa [Nat.sub_add_eq]
        obtain ⟨t, h3, hpast⟩ := ih rfl hr' hpins' hmem'' hsync2
        exact ⟨t, h1.trans (h2.trans h3), hpast⟩

/-- A user who enters the PIN enters something. -/
theorem Enters.cons {cfg : PinConfig} {answers : List String} (h : Enters (some cfg) answers) :
    ∃ a rest, answers = a :: rest := by
  cases answers with
  | nil => simpa using h cfg rfl
  | cons a rest => exact ⟨a, rest, rfl⟩

/-- **The sender's part of the PIN stage**, from the point where the receiver's is over. -/
theorem sender_part {pinsR : List String} (hentersR : Enters cs.auth.pin pinsR)
    (htries : ∀ cfg, cs.auth.pin = some cfg → 1 ≤ cfg.maxTries) (hs : s.phase = .pinStart)
    (hr : r.phase = .pinStatus []) (hpins : r.pins = pinsR.map some) (hsync : Synced s r [] []) :
    ∃ t, Leads w cs cr (quiet s r) t ∧ Past cs.files t := by
  -- without a challenge the file list goes out at once
  have hpass : ∀ s' : Send.State, s'.sent = s.sent → s'.got = s.got →
      Send.onPinStart w cs s = Send.connected w cs s' →
      ∃ t, Leads w cs cr (quiet s r) t ∧ Past cs.files t := by
    intro s' hsent hgot heq
    have h1 := sender_moves cr r (Send.feed_pinStart (w := w) (c := cs) hs heq)
    have hsync' : Synced s' r [] [] :=
      hsync.left (hgot.trans (List.append_nil _).symm) (hsent.trans (List.append_nil _).symm) nofun
    obtain ⟨t, ht, hpast⟩ := list_arrives (w := w) (Or.inl hr) hsync'
    exact ⟨t, h1.trans ht, hpast⟩
  cases hpin : cs.auth.pin with
  | none => exact hpass s rfl rfl (by simp only [Send.onPinStart, hpin])
  | some cfg =>
      by_cases hempty : cfg.pin = ""
      · refine hpass (s.status .pinRequired) rfl rfl ?_
        rw [Send.onPinStart_some hpin, ← hempty]
        exact Send.checkPin_passed cfg 0
      · rw [hpin] at hentersR
        obtain ⟨a, rest, rfl⟩ := hentersR.cons
        have hmax : 0 < cfg.maxTries.toNat := htries cfg hpin
        have h1 := sender_moves cr r (Send.feed_pinStart (w := w) (c := cs) hs
          ((Send.onPinStart_some hpin).trans (Send.checkPin_again (Ne.symm hempty) hmax)))
        have hsync1 : Synced ((s.status .pinRequired).say w (.pinSending .pinRequired) .plain
            (.pinMessage cfg 0)).state r [.pinSending .pinRequired] [] :=
          hsync.left (List.append_nil _).symm rfl (by simp [Item.handshake])
        obtain ⟨r', h2, hr', hpins', hsync2⟩ :=
          receiver_prompted w cs cr (Or.inl hr) hpins hsync1
        obtain ⟨t, h3, hpast⟩ := sender_challenge w cs cr rest rfl hr'
          hpins' (hentersR cfg rfl) hsync2
        exact ⟨t, h1.trans (h2.trans h3), hpast⟩

/-! ## 6. The whole handshake -/

/-- **The keys are exchanged**: both nonces, the sender's token, and the receiver's on its way. -/
theorem keys_exchanged (w : Wire) (pinsS : List String) (sending : List RTCFile)
    (pinsR : List String) (results : List (Option RTCSendFileResponse)) {tokenS tokenR : String}
    (hsignS : cs.auth.signingKey (cs.localNonce.1 ++ cr.localNonce.1) = some tokenS)
    (hsignR : cr.auth.signingKey (cs.localNonce.1 ++ cr.localNonce.1) = some tokenR)
    (hverS : tokenVerified cr.auth.expectingPublicKey tokenS
      (cs.localNonce.1 ++ cr.localNonce.1) = true) :
    ∃ s r, Leads w cs cr (opening pinsS sending pinsR results)
        (toSender w s r (.tokenResponse (Accept.tokenAnswer cr tokenR))) ∧
      s.phase = .tokenResponse ∧ s.nonce = cs.localNonce.1 ++ cr.localNonce.1 ∧
      s.pins = pinsS.map some ∧ r.phase = Accept.afterToken cr ∧ r.pins = pinsR.map some ∧
      r.published = none ∧ Synced s r [] [.tokenResponse (Accept.tokenAnswer cr tokenR)] := by
  have hsync0 : Synced (Send.initial (pinsS.map some) sending)
      (Accept.initial (pinsR.map some) results) [] [] := ⟨rfl, rfl, nofun, nofun⟩
  have h1 := sender_moves cr (Accept.initial (pinsR.map some) results)
    (Send.feed_start (w := w) (c := cs) (s := Send.initial (pinsS.map some) sending) rfl)
  have hsync1 : Synced (Send.onStart w cs (Send.initial (pinsS.map some) sending)).state _
      [.nonce ⟨w.base64Encode cs.localNonce.1⟩] [] := hsync0.left rfl rfl (by simp [Item.handshake])
  have h2 := receiver_answers cs (Send.onStart w cs (Send.initial (pinsS.map some) sending)).state
    (Accept.feed_nonce (w := w) (c := cr) (s := Accept.initial (pinsR.map some) results) rfl
      (validateNonce_generated cs.localNonce))
  obtain ⟨r1, hr1⟩ : ∃ r1, r1 = (((Accept.initial (pinsR.map some) results).heard
    (.nonce ⟨w.base64Encode cs.localNonce.1⟩)).say w (.nonce ⟨w.base64Encode cr.localNonce.1⟩)
      (.context "Failed to send nonce: ") (.token cs.localNonce.1)).state := ⟨_, rfl⟩
  rw [← hr1] at h2
  have hsync2 : Synced _ r1 [] [.nonce ⟨w.base64Encode cr.localNonce.1⟩] :=
    hsync1.right (by rw [hr1]; rfl) (by rw [hr1]; rfl) (by simp [Item.handshake])
  have h3 := sender_answers cr r1 (Send.feed_nonce (w := w) (c := cs)
    (s := (Send.onStart w cs (Send.initial (pinsS.map some) sending)).state) rfl
    (validateNonce_generated cr.localNonce) hsignS)
  obtain ⟨s1, hs1⟩ : ∃ s1, s1 = (Send.State.say w
      { (Send.onStart w cs (Send.initial (pinsS.map some) sending)).state.heard
          (.nonce ⟨w.base64Encode cr.localNonce.1⟩) with
        nonce := cs.localNonce.1 ++ cr.localNonce.1 }
      (.tokenRequest ⟨tokenS⟩) (.context "Failed to send token: ") .tokenResponse).state := ⟨_, rfl⟩
  rw [← hs1] at h3
  have hsync3 : Synced s1 r1 [.tokenRequest ⟨tokenS⟩] [] :=
    hsync2.left (by rw [hs1]; rfl) (by rw [hs1]; rfl) (by simp [Item.handshake])
  have h4 := receiver_answers cs s1 (Accept.feed_token (w := w) (c := cr)
    (s := r1) (by rw [hr1]; rfl) hverS hsignR)
  refine ⟨s1, _, h1.trans (h2.trans (h3.trans h4)), ?_, ?_, ?_, rfl, ?_, ?_,
    hsync3.right rfl rfl (by simp [Item.handshake])⟩
  · rw [hs1]; rfl
  · rw [hs1]; rfl
  · rw [hs1]; rfl
  · rw [hr1]; rfl
  · rw [hr1]; rfl

/-- The sender's user is asked for the receiver's PIN, and enters one. -/
theorem sender_prompted (w : Wire) (cr : Accept.Config) (hs : s.phase = .tokenResponse)
    {token a : String} {pins : List (Option String)}
    (hver : tokenVerified cs.auth.expectingPublicKey token s.nonce = true)
    (hpins : s.pins = some a :: pins)
    (hsync : Synced s r [] [.tokenResponse (.pinRequired token)]) :
    ∃ s', Leads w cs cr (toSender w s r (.tokenResponse (.pinRequired token)))
        (toReceiver w s' r (.pin ⟨a⟩)) ∧
      s'.phase = .pinResult ∧ s'.pins = pins ∧ Synced s' r [.pin ⟨a⟩] [] := by
  have h := sender_answers cr r (Send.feed_tokenResponse (w := w) (c := cs) hs _
    ((Send.onTokenResponse_pinRequired hver).trans (Send.promptPin_some hpins)))
  exact ⟨_, h, rfl, rfl, hsync.left rfl rfl (by simp [Item.handshake])⟩

/-- **The receiver's part of the PIN stage**, from the point where its token is on its way. -/
theorem receiver_part (w : Wire) {pinsS : List String} (hentersS : Enters cr.auth.pin pinsS)
    (htries : ∀ cfg, cr.auth.pin = some cfg → 1 ≤ cfg.maxTries)
    (hpin : ∀ cfg, cr.auth.pin = some cfg → cfg.pin ≠ "") {tokenR : String}
    (hverR : tokenVerified cs.auth.expectingPublicKey tokenR s.nonce = true)
    (hs : s.phase = .tokenResponse) (hpins : s.pins = pinsS.map some)
    (hr : r.phase = Accept.afterToken cr)
    (hsync : Synced s r [] [.tokenResponse (Accept.tokenAnswer cr tokenR)]) :
    ∃ s' r', Leads w cs cr (toSender w s r (.tokenResponse (Accept.tokenAnswer cr tokenR)))
        (quiet s' r') ∧
      s'.phase = .pinStart ∧ r'.phase = .pinStatus [] ∧ r'.pins = r.pins ∧ Synced s' r' [] [] := by
  cases hcfg : cr.auth.pin with
  | none =>
      simp only [Accept.tokenAnswer, Accept.afterToken, hcfg] at hr hsync ⊢
      have h := sender_answers cr r (Send.feed_tokenResponse (w := w) (c := cs) hs _
        (Send.onTokenResponse_ok hverR))
      exact ⟨_, r, h, rfl, hr, rfl, hsync.left rfl (List.append_nil _).symm (fun _ h => by cases h)⟩
  | some cfg =>
      rw [hcfg] at hentersS
      obtain ⟨a, rest, rfl⟩ := hentersS.cons
      simp only [Accept.tokenAnswer, Accept.afterToken, hcfg] at hr hsync ⊢
      -- the receiver is ready for the PIN before it comes
      obtain ⟨r1, hr1⟩ : ∃ r1,
          r1 = ((r.status .pinRequired).goto (.pinMessage cfg 0)).state := ⟨_, rfl⟩
      have h1 : Leads w cs cr (toSender w s r (.tokenResponse (.pinRequired tokenR)))
          (toSender w s r1 (.tokenResponse (.pinRequired tokenR))) := by
        have h := Net.feedRight (P := Send.sendOffer w cs) (Accept.feed_pinStart (w := w) (c := cr)
          hr (Accept.checkPin_first (hpin cfg hcfg) (htries cfg hcfg)))
          ⟨s, []⟩ [] (Item.messages w (.tokenResponse (.pinRequired tokenR)))
        rw [← hr1] at h
        exact h
      have hsync1 : Synced s r1 [] [.tokenResponse (.pinRequired tokenR)] := by
        rw [hr1]
        exact ⟨hsync.sent, hsync.got, hsync.sender, hsync.receiver⟩
      -- the sender's user is asked
      obtain ⟨s2, h2, hs2, hpins2, hsync2⟩ := sender_prompted w cr hs hverR hpins hsync1
      obtain ⟨s', r', h3, hs', hr', hpins', hsync'⟩ := receiver_challenge w cs cr rest hs2 hpins2
        (by rw [hr1]; rfl) (hentersS cfg rfl) hsync2
      exact ⟨s', r', h1.trans (h2.trans h3), hs', hr', hpins'.trans (by rw [hr1]; rfl), hsync'⟩

/-- **One run past the PIN stage**, if the receiver's PIN is not the empty text. -/
theorem honest_run (w : Wire) (hkeys : HonestKeys cs cr)
    (htriesS : ∀ cfg, cs.auth.pin = some cfg → 1 ≤ cfg.maxTries)
    (htriesR : ∀ cfg, cr.auth.pin = some cfg → 1 ≤ cfg.maxTries)
    (hpin : ∀ cfg, cr.auth.pin = some cfg → cfg.pin ≠ "") {pinsS pinsR : List String}
    (hentersS : Enters cr.auth.pin pinsS) (hentersR : Enters cs.auth.pin pinsR)
    (sending : List RTCFile) (results : List (Option RTCSendFileResponse)) :
    ∃ t, Leads w cs cr (opening pinsS sending pinsR results) t ∧ Past cs.files t := by
  obtain ⟨tokenS, tokenR, hsignS, hsignR, hverS, hverR⟩ := hkeys
  obtain ⟨s, r, h1, hs, hnonce, hpinsS, hr, hpinsR, _, hsync⟩ :=
    keys_exchanged w pinsS sending pinsR results hsignS hsignR hverS
  rw [← hnonce] at hverR
  obtain ⟨s', r', h2, hs', hr', hpinsR', hsync'⟩ :=
    receiver_part w hentersS htriesR hpin hverR hs hpinsS hr hsync
  obtain ⟨t, h3, hpast⟩ := sender_part (w := w) hentersR htriesS hs' hr' (hpinsR'.trans hpinsR) hsync'
  exact ⟨t, h1.trans (h2.trans h3), hpast⟩

/-! ## 7. The empty PIN -/

/-- **The PIN is misread**: a receiver whose PIN is the empty text does not wait for it, and takes
    the PIN message for the end of a file list. -/
theorem pin_misread (w : Wire) (cs : Send.Config) (cr : Accept.Config) (s : Send.State)
    {cfg : PinConfig} (hempty : cfg.pin = "") (hr : r.phase = .pinStart cfg)
    (hpub : r.published = none) (a : String) :
    ∃ n, Leads w cs cr (toReceiver w s r (.pin ⟨a⟩)) n ∧
      n.right.state.phase = .ended (.error (.parse "Failed to deserialize file list response")) ∧
      n.right.state.published = none := by
  have hcheck := Accept.checkPin_passed (w := w) (s := r.status .pinRequired) cfg 0
  rw [hempty] at hcheck
  have h1 := Accept.feed_pinStart (w := w) (c := cr) hr hcheck
  have hshort : w.pinSendingResponse.decode [] = none :=
    w.pinSendingResponse.decode_short [] (Nat.zero_le _)
  obtain ⟨r1, hr1⟩ : ∃ r1, r1 = ((r.status .pinRequired).say w (.pinReceiving .ok) .plain
    (.pinStatus [])).state := ⟨_, rfl⟩
  have h2 : (Accept.acceptOffer w cr).Feed ⟨r1, []⟩ (Item.messages w (.pin ⟨a⟩))
      ⟨(r1.fail (.parse "Failed to deserialize file list response")).state, []⟩ [] := by
    refine Process.feed_recv (by rw [hr1]; rfl) ?_
    simp [receiveStringFromChunks, Accept.onPinStatus, hshort, Accept.State.fail,
      Accept.State.goto, hr1]
  rw [hr1] at h2
  exact ⟨_, receiver_answers cs s (h1.trans h2), rfl, hpub⟩

/-- **With the empty PIN on the receiver no run agrees**, whatever the users enter. -/
theorem not_agree (w : Wire) (hkeys : HonestKeys cs cr) {cfg : PinConfig}
    (hpin : cr.auth.pin = some cfg) (hempty : cfg.pin = "") {pinsS : List String}
    (hentersS : Enters cr.auth.pin pinsS) (sending : List RTCFile) (pinsR : List String)
    (results : List (Option RTCSendFileResponse)) :
    ¬ Agree w cs cr (opening pinsS sending pinsR results) := by
  intro hagree
  obtain ⟨tokenS, tokenR, hsignS, hsignR, hverS, hverR⟩ := hkeys
  rw [hpin] at hentersS
  obtain ⟨a, rest, rfl⟩ := hentersS.cons
  obtain ⟨s, r, h1, hs, hnonce, hpinsS, hr, _, hpub, hsync⟩ :=
    keys_exchanged w (a :: rest) sending pinsR results hsignS hsignR hverS
  rw [← hnonce] at hverR
  simp only [Accept.tokenAnswer, Accept.afterToken, hpin] at h1 hr hsync
  obtain ⟨s', h2, -⟩ := sender_prompted w cr hs hverR hpinsS hsync
  obtain ⟨n, h3, hended, hnone⟩ := pin_misread w cs cr s' hempty hr hpub a
  obtain ⟨t, ht, hagreed⟩ := hagree n (h1.trans (h2.trans h3))
  have hpublished := hagreed.published
  rw [Accept.ended_stays ht hended, hnone] at hpublished
  cases hpublished

/-- **PIN agreement**: two honest peers agree, in every interleaving and after any number of
    rounds, exactly if the receiver's PIN is not the empty text. -/
theorem pin_agreement_iff (w : Wire) (cs : Send.Config) (cr : Accept.Config)
    (hkeys : HonestKeys cs cr) (htriesS : ∀ cfg, cs.auth.pin = some cfg → 1 ≤ cfg.maxTries)
    (htriesR : ∀ cfg, cr.auth.pin = some cfg → 1 ≤ cfg.maxTries) (pinsS pinsR : List String)
    (hentersS : Enters cr.auth.pin pinsS) (hentersR : Enters cs.auth.pin pinsR)
    (sending : List RTCFile) (results : List (Option RTCSendFileResponse)) :
    Agree w cs cr (opening pinsS sending pinsR results) ↔
      ∀ cfg, cr.auth.pin = some cfg → cfg.pin ≠ "" := by
  constructor
  · intro hagree cfg hpin hempty
    exact not_agree w hkeys hpin hempty hentersS sending pinsR results hagree
  · intro hpin n hn
    obtain ⟨t, ht, fromSender, fromReceiver, hsender, hreceiver⟩ :=
      honest_run w hkeys htriesS htriesR hpin hentersS hentersR sending results
    obtain ⟨u, hnu, htu⟩ := Net.network_confluent hn ht
    exact ⟨u, hnu, agreed_of_past hsender hreceiver htu⟩

theorem openKeys (pinS pinR : Option PinConfig) (files : List FileDto)
    (selection : Accept.Selection) :
    HonestKeys (openSender pinS files) (openReceiver pinR selection) :=
  ⟨_, _, rfl, rfl, rfl, rfl⟩

/-- Both sides ask for a PIN; the sender's user needs two tries. -/
theorem pin_agreement_twoPins :
    Enters (some ⟨"5678", 3⟩) ["0000", "5678"] ∧ Enters (some ⟨"1234", 3⟩) ["1234"] ∧
    Agree jsonWire (openSender (some ⟨"1234", 3⟩) [sampleFile "a"])
      (openReceiver (some ⟨"5678", 3⟩) .pending) (opening ["0000", "5678"] [] ["1234"] []) := by
  have hS : Enters (some ⟨"5678", 3⟩) ["0000", "5678"] := by
    rintro cfg ⟨⟩
    decide
  have hR : Enters (some ⟨"1234", 3⟩) ["1234"] := by
    rintro cfg ⟨⟩
    decide
  refine ⟨hS, hR, (pin_agreement_iff jsonWire _ _ (openKeys ..) ?_ ?_ _ _ hS hR [] []).mpr ?_⟩
  · rintro cfg ⟨⟩
    decide
  · rintro cfg ⟨⟩
    decide
  · rintro cfg ⟨⟩
    decide

/-- **The empty PIN on the receiver**: its user's peer is asked for a PIN, enters it, and the two
    never agree. -/
theorem pin_disagreement :
    Enters (some ⟨"", 3⟩) [""] ∧
    ¬ Agree jsonWire (openSender none [sampleFile "a"]) (openReceiver (some ⟨"", 3⟩) .pending)
      (opening [""] [] [] []) := by
  have hS : Enters (some ⟨"", 3⟩) [""] := by
    rintro cfg ⟨⟩
    decide
  exact ⟨hS, not_agree jsonWire (openKeys ..) rfl rfl hS [] [] []⟩

end LocalSend.WebRtc
