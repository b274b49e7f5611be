/-
  File:      LocalSend/WebRtc/Authorised.lean
  Subject:   ONLY AUTHORISED BYTES REACH A FILE. The receive loop of `accept_offer` against any
             sequence of messages.

  * `lastText` -- the most recent text message;
  * `Authorised` -- that message is a header for a file that was selected and listed, with the
    token made for it;
  * `Loop` -- the invariant: what the open file of the loop says about the messages taken;
  * `blocks_authorised` -- a block reaches a file only behind such a header, and then it is the
    file the header opened.
-/
import LocalSend.WebRtc.Transfer

namespace LocalSend.WebRtc.Accept

open Lib

variable {w : Wire} {c : Config} {s s' : State} {ms : List Message} {m : Message}

/-! ## 1. What a block needs -/

/-- The most recent text message. -/
def lastText (ms : List Message) : Option Message := ms.reverse.find? Message.isString

@[simp] theorem lastText_append (ms : List Message) (m : Message) :
    lastText (ms ++ [m]) = if m.isString then some m else lastText ms := by
  simp only [lastText, List.reverse_append, List.reverse_cons, List.reverse_nil, List.nil_append,
    List.cons_append, List.find?_cons]
  cases m.isString <;> rfl

/-- **The most recent text message is a header** for `id`; the user selected `id`, the sender
    listed it, and the token is the one made for it. -/
def Authorised (w : Wire) (c : Config) (published : Option (List FileDto)) (ms : List Message)
    (id : String) : Prop :=
  ∃ msg header ids fileList, lastText ms = some msg ∧
    w.sendFileHeaderRequest.decode msg.data = some header ∧ header.id = id ∧
    c.selection = .files ids ∧ id ∈ ids ∧ published = some fileList ∧
    (∃ f ∈ fileList, f.id = id) ∧ header.token = c.fileToken id

/-- The blocks in the `i`th channel that was published. -/
def blocksOf (s : State) (i : Nat) : List Bytes := ((s.receiving[i]?).map RTCFile.blocks).getD []

/-! ## 2. The invariant -/

/-- The tokens the loop compares with are those of the selection, and its list is the published
    one. -/
def Issued (c : Config) (s : State) (incoming : Incoming) : Prop :=
  ∃ ids, c.selection = .files ids ∧
    incoming.fileTokens = LinkedMap.ofList (ids.map fun id => (id, c.fileToken id)) ∧
    s.published = some incoming.fileList

/-- What the loop knows of its open file. -/
def Opens (w : Wire) (c : Config) (ms : List Message) (s : State) (state : RTCFileState) : Prop :=
  Authorised w c s.published ms state.fileId ∧ state.binaryTx + 1 = s.receiving.length ∧
    (s.receiving[state.binaryTx]?).map RTCFile.fileId = some state.fileId

/-- **The invariant**: at the head of the loop an open file was authorised by the most recent text
    message; between the two halves of a text message that message is at hand. -/
def Loop (w : Wire) (c : Config) (ms : List Message) (s : State) : Prop :=
  match s.phase with
  | .files incoming fileState =>
    Issued c s incoming ∧ ∀ state, fileState = some state → Opens w c ms s state
  | .header incoming msg => Issued c s incoming ∧ lastText ms = some msg
  | _ => True

/-- The phases of the loop. -/
def Phase.loops : Phase → Bool
  | .files _ _ | .header _ _ => true
  | _ => false

theorem Loop.outside (h : s.phase.loops = false) : Loop w c ms s := by
  unfold Loop
  split
  · rename_i hp
    rw [hp] at h
    cases h
  · rename_i hp
    rw [hp] at h
    cases h
  · trivial

/-- A header that is not refused is authorised. -/
theorem Issued.authorised {incoming : Incoming} (h : Issued c s incoming)
    {msg : Message} (hlast : lastText ms = some msg) {header : RTCSendFileHeaderRequest}
    (hdec : w.sendFileHeaderRequest.decode msg.data = some header)
    (hok : incoming.refuses header = none) : Authorised w c s.published ms header.id := by
  obtain ⟨ids, hsel, htokens, hpub⟩ := h
  obtain ⟨hget, hlist⟩ := refuses_eq_none.mp hok
  rw [htokens] at hget
  obtain ⟨id, hid, hpair⟩ := List.mem_map.mp (LinkedMap.mem_of_get?_ofList hget)
  obtain ⟨rfl, htoken⟩ := Prod.mk.inj hpair
  exact ⟨msg, header, ids, incoming.fileList, hlast, hdec, rfl, hsel, hid, hpub, hlist, htoken.symm⟩

/-- **A header keeps the invariant.** -/
theorem onHeader_loop {incoming : Incoming} {msg : Message} (h : Issued c s incoming)
    (hlast : lastText ms = some msg) : Loop w c ms (onHeader w s incoming msg).state := by
  unfold onHeader
  split
  · exact .outside rfl
  · rename_i header hdec
    simp only
    split
    · exact ⟨h, (fun _ h => by cases h)⟩
    · rename_i hok
      refine ⟨h, fun state hstate => ?_⟩
      obtain rfl := Option.some.inj hstate
      refine ⟨h.authorised hlast hdec hok, ?_, ?_⟩
      · simp [State.heard, State.goto]
      · simp [State.heard, State.goto]

/-- **A block keeps the invariant.** -/
theorem onBlock_loop {incoming : Incoming} {fileState : Option RTCFileState}
    (h : Issued c s incoming) (hopen : ∀ state, fileState = some state → Opens w c ms s state)
    (hbin : m.isString = false) :
    Loop w c (ms ++ [m]) (onBlock c s incoming fileState m.data).state := by
  have hlast : lastText (ms ++ [m]) = lastText ms := by simp [hbin]
  unfold onBlock
  split
  · rename_i state
    split
    · refine ⟨h, fun state' hstate => ?_⟩
      obtain rfl := Option.some.inj hstate
      obtain ⟨hauth, hlen, hid⟩ := hopen state rfl
      refine ⟨?_, ?_, ?_⟩
      · unfold Authorised
        rw [hlast]
        exact hauth
      · simpa [State.goto] using hlen
      · rw [← hid]
        cases hget : s.receiving[state.binaryTx]? <;> simp [State.goto, hget]
    · exact .outside rfl
  · exact ⟨h, (fun _ h => by cases h)⟩

/-- **A message of the loop keeps the invariant.** -/
theorem onFiles_loop {incoming : Incoming} {fileState : Option RTCFileState}
    (h : Issued c s incoming) (hopen : ∀ state, fileState = some state → Opens w c ms s state) :
    Loop w c (ms ++ [m]) (onFiles w c s incoming fileState (some m)).state := by
  unfold onFiles
  simp only
  split
  · rename_i htext
    have hlast : lastText (ms ++ [m]) = some m := by simp [htext]
    split
    · split
      · exact .outside rfl
      · simp only [State.say]
        split
        · exact .outside rfl
        · exact ⟨h, hlast⟩
    · exact onHeader_loop h hlast
  · rename_i hbin
    exact onBlock_loop h hopen (by simpa using hbin)

theorem connected_loop {fileList : List FileDto} :
    Loop w c ms (connected w c s fileList).state := by
  unfold connected
  simp only
  split
  · exact .outside rfl
  · exact .outside rfl
  · exact .outside rfl
  · rename_i ids hsel
    exact ⟨⟨ids, hsel, rfl, rfl⟩, (fun _ h => by cases h)⟩

theorem promptPin_loop : Loop w c ms (promptPin w s).state := by
  refine .outside ?_
  unfold promptPin
  simp only
  split <;> rfl

theorem onPinStatus_loop {bytes : Bytes} : Loop w c ms (onPinStatus w c s bytes).state := by
  unfold onPinStatus
  split
  · exact .outside rfl
  · simp only
    split
    · exact connected_loop
    · exact promptPin_loop
    · exact .outside rfl

theorem onPinResult_loop {bytes : Bytes} : Loop w c ms (onPinResult w c s bytes).state := by
  unfold onPinResult
  split
  · exact .outside rfl
  · simp only
    split
    · exact connected_loop
    · exact promptPin_loop
    · exact .outside rfl

theorem checkPin_loops {pin : PinConfig} {remotePin : String} {pinTry : Nat} :
    (checkPin w s pin remotePin pinTry).state.phase.loops = false := by
  unfold checkPin
  split <;> rfl

theorem onNonce_loops {m : Option Message} : (onNonce w c s m).state.phase.loops = false := by
  unfold onNonce
  split <;> rfl

theorem onToken_loops {remoteNonce : Bytes} {m : Option Message} :
    (onToken w c s remoteNonce m).state.phase.loops = false := by
  unfold onToken
  simp only
  split
  · rfl
  · split
    · rfl
    · split
      · rfl
      · split
        · rfl
        · split <;> rfl

theorem onPin_loops {pin : PinConfig} {pinTry : Nat} {m : Option Message} :
    (onPin w s pin pinTry m).state.phase.loops = false := by
  unfold onPin
  split
  · rfl
  · split
    · rfl
    · exact checkPin_loops

/-- Before the loop, a reaction leads to its head at most. -/
theorem react_loop (ms : List Message) (h : s.phase.loops = false) :
    (react w c s).All fun b => Loop w c ms b.state := by
  unfold react
  split
  · exact fun m => .outside onNonce_loops
  · exact fun m => .outside onToken_loops
  · exact .outside checkPin_loops
  · exact fun m => .outside onPin_loops
  · intro m
    simp only
    split
    · exact .outside rfl
    · exact onPinStatus_loop
  · intro m
    simp only
    split
    · exact .outside rfl
    · exact onPinResult_loop
  · rename_i hp
    rw [hp] at h
    cases h
  · rename_i hp
    rw [hp] at h
    cases h
  all_goals trivial

/-- **A message keeps the invariant.** -/
theorem loop_recv {k : Option Message → Batch Message State} (h : Loop w c ms s)
    (hk : react w c s = .recv k) (m : Message) : Loop w c (ms ++ [m]) (k (some m)).state := by
  by_cases hl : s.phase.loops = false
  · have hall := react_loop (w := w) (c := c) (ms ++ [m]) hl
    rw [hk] at hall
    exact hall (some m)
  · cases hp : s.phase with
    | files incoming fileState =>
        simp only [react, hp, Reaction.recv.injEq] at hk
        subst hk
        simp only [Loop, hp] at h
        exact onFiles_loop h.1 h.2
    | header incoming msg => simp [react, hp] at hk
    | _ => rw [hp] at hl; exact absurd rfl hl

/-- **The end of the channel keeps the invariant**: it ends the loop. -/
theorem loop_closed {k : Option Message → Batch Message State}
    (hk : react w c s = .recv k) : Loop w c ms (k none).state := by
  by_cases hl : s.phase.loops = false
  · have hall := react_loop (w := w) (c := c) ms hl
    rw [hk] at hall
    exact hall none
  · cases hp : s.phase with
    | files incoming fileState =>
        simp only [react, hp, Reaction.recv.injEq] at hk
        subst hk
        exact .outside rfl
    | header incoming msg => simp [react, hp] at hk
    | _ => rw [hp] at hl; exact absurd rfl hl

/-- **The second half of a text message keeps the invariant.** -/
theorem loop_tau {next : Batch Message State} (h : Loop w c ms s)
    (hk : react w c s = .tau next) : Loop w c ms next.state := by
  by_cases hl : s.phase.loops = false
  · have hall := react_loop (w := w) (c := c) ms hl
    rw [hk] at hall
    exact hall
  · cases hp : s.phase with
    | files incoming fileState => simp [react, hp] at hk
    | header incoming msg =>
        simp only [react, hp, Reaction.tau.injEq] at hk
        subst hk
        simp only [Loop, hp] at h
        exact onHeader_loop h.1 h.2
    | _ => rw [hp] at hl; exact absurd rfl hl

theorem loop_failed (h : Loop w c ms s) (e : String) : Loop w c ms (failed s e) := by
  unfold failed
  split
  · exact .outside rfl
  · exact h
  · exact .outside rfl

/-- **The invariant of every run.** -/
theorem run_loop {pins : List (Option String)} {results : List (Option RTCSendFileResponse)}
    {es : List (Process.Event Message)} {t : Batch Message State}
    (h : (acceptOffer w c).alone.Run Machine.anyStep ⟨initial pins results, []⟩ es t) :
    Loop w c (Process.received es) t.state :=
  Process.batched_alone (I := Loop w c) (fun _ _ e h => loop_failed h e)
    (fun _ _ _ m h hk => loop_recv h hk m) (fun _ _ _ _ hk => loop_closed hk)
    (fun _ _ _ h hk => loop_tau h hk) (.outside rfl) h

/-! ## 3. Where blocks go -/

theorem blocksOf_of_receiving (h : s'.receiving = s.receiving) (i : Nat) :
    blocksOf s' i = blocksOf s i := by
  unfold blocksOf
  rw [h]

/-- A file that has just been opened has no blocks. -/
theorem blocksOf_opened {id : String} (h : s'.receiving = s.receiving ++ [⟨id, []⟩]) (i : Nat) :
    blocksOf s' i = blocksOf s i := by
  unfold blocksOf
  rw [h]
  by_cases hi : i < s.receiving.length
  · rw [List.getElem?_append_left hi]
  · rw [List.getElem?_append_right (Nat.le_of_not_lt hi), List.getElem?_eq_none (Nat.le_of_not_lt hi)]
    cases i - s.receiving.length <;> rfl

theorem onHeader_blocks {incoming : Incoming} {msg : Message} (i : Nat) :
    blocksOf (onHeader w s incoming msg).state i = blocksOf s i := by
  unfold onHeader
  split
  · rfl
  · simp only
    split
    · rfl
    · exact blocksOf_opened rfl i

/-- Outside the loop nothing is opened and nothing forwarded. -/
theorem react_receiving (h : s.phase.loops = false) :
    (react w c s).All fun b => b.state.receiving = s.receiving := by
  have hcheck : ∀ (s : State) pin remotePin pinTry,
      (checkPin w s pin remotePin pinTry).state.receiving = s.receiving := by
    intro s pin remotePin pinTry
    unfold checkPin
    split <;> rfl
  have hprompt : ∀ s : State, (promptPin w s).state.receiving = s.receiving := by
    intro s
    unfold promptPin
    simp only
    split <;> rfl
  have hconnected : ∀ (s : State) files, (connected w c s files).state.receiving = s.receiving := by
    intro s files
    unfold connected
    simp only
    split <;> rfl
  unfold react
  split
  · intro m
    unfold onNonce
    split <;> rfl
  · intro m
    unfold onToken
    simp only
    split
    · rfl
    · split
      · rfl
      · split
        · rfl
        · split
          · rfl
          · split <;> rfl
  · exact hcheck _ _ _ _
  · intro m
    unfold onPin
    split
    · rfl
    · split
      · rfl
      · exact hcheck _ _ _ _
  · intro m
    simp only
    split
    · rfl
    · unfold onPinStatus
      split
      · rfl
      · simp only
        split
        · exact hconnected _ _
        · exact hprompt _
        · rfl
  · intro m
    simp only
    split
    · rfl
    · unfold onPinResult
      split
      · rfl
      · simp only
        split
        · exact hconnected _ _
        · exact hprompt _
        · rfl
  · rename_i hp
    rw [hp] at h
    cases h
  · rename_i hp
    rw [hp] at h
    cases h
  all_goals trivial

/-- **Where a message of the loop goes**: a binary one to the open file, a text to none. -/
theorem onFiles_blocks (w : Wire) (c : Config) (s : State) (m : Message) (incoming : Incoming)
    (fileState : Option RTCFileState) (i : Nat) :
    blocksOf (onFiles w c s incoming fileState (some m)).state i = blocksOf s i ∨
    ∃ state, fileState = some state ∧ state.binaryTx = i ∧ i < s.receiving.length ∧
      m.isString = false ∧
      blocksOf (onFiles w c s incoming fileState (some m)).state i = blocksOf s i ++ [m.data] := by
  unfold onFiles
  simp only
  split
  · left
    split
    · split
      · rfl
      · rfl
    · exact onHeader_blocks i
  · rename_i hbin
    unfold onBlock
    split
    · rename_i state
      split
      · by_cases hi : state.binaryTx = i ∧ i < s.receiving.length
        · obtain ⟨rfl, hlt⟩ := hi
          refine Or.inr ⟨state, rfl, rfl, hlt, by simpa using hbin, ?_⟩
          simp [blocksOf, State.goto, List.getElem?_eq_getElem hlt]
        · left
          unfold blocksOf
          simp only [State.goto, List.getElem?_modify]
          split
          · rename_i heq
            have hge : s.receiving.length ≤ i := Nat.le_of_not_lt fun hlt => hi ⟨heq, hlt⟩
            simp [List.getElem?_eq_none hge]
          · simp
      · exact Or.inl rfl
    · exact Or.inl rfl

theorem failed_receiving (e : String) : (failed s e).receiving = s.receiving := by
  unfold failed
  split <;> rfl

/-- **One event of the task**: only a binary message at the head of the loop, with a file open,
    adds to the blocks of a file. -/
theorem step_blocks {t u : Batch Message State} {e : Process.Event Message}
    (h : (acceptOffer w c).alone.step t e = some u) (i : Nat) :
    blocksOf u.state i = blocksOf t.state i ∨
    ∃ m incoming state, e = .received m ∧ m.isString = false ∧
      t.state.phase = .files incoming (some state) ∧ state.binaryTx = i ∧
      i < t.state.receiving.length ∧
      blocksOf u.state i = blocksOf t.state i ++ [m.data] := by
  obtain ⟨s, out⟩ := t
  rcases Process.alone_cases h with ⟨m, k, error, hact, _, rfl⟩ | ⟨k, m, hact, rfl, rfl⟩ |
    ⟨k, hact, _, rfl⟩ | ⟨hact, _⟩
  · cases out with
    | cons m' out =>
        simp only [acceptOffer, Process.batched, Act.send.injEq] at hact
        obtain ⟨_, rfl⟩ := hact
        cases error with
        | none => exact Or.inl rfl
        | some e => exact Or.inl (blocksOf_of_receiving (failed_receiving e) i)
    | nil =>
        simp only [acceptOffer, Process.batched] at hact
        split at hact <;> cases hact
  · obtain ⟨_, hreact⟩ := Process.batched_recv hact
    by_cases hl : s.phase.loops = false
    · have hall := react_receiving (w := w) (c := c) hl
      rw [hreact] at hall
      exact Or.inl (blocksOf_of_receiving (hall (some m)) i)
    · cases hp : s.phase with
      | files incoming fileState =>
          simp only [react, hp, Reaction.recv.injEq] at hreact
          subst hreact
          rcases onFiles_blocks w c s m incoming fileState i with hsame |
            ⟨state, rfl, hidx, hlt, hbin, hblocks⟩
          · exact Or.inl hsame
          · exact Or.inr ⟨m, incoming, state, rfl, hbin, rfl, hidx, hlt, hblocks⟩
      | header incoming msg => simp [react, hp] at hreact
      | _ => rw [hp] at hl; exact absurd rfl hl
  · obtain ⟨_, hreact⟩ := Process.batched_recv hact
    left
    by_cases hl : s.phase.loops = false
    · have hall := react_receiving (w := w) (c := c) hl
      rw [hreact] at hall
      exact blocksOf_of_receiving (hall none) i
    · cases hp : s.phase with
      | files incoming fileState =>
          simp only [react, hp, Reaction.recv.injEq] at hreact
          subst hreact
          rfl
      | header incoming msg => simp [react, hp] at hreact
      | _ => rw [hp] at hl; exact absurd rfl hl
  · obtain ⟨_, hreact⟩ := Process.batched_tau hact
    left
    by_cases hl : s.phase.loops = false
    · have hall := react_receiving (w := w) (c := c) hl
      rw [hreact] at hall
      exact blocksOf_of_receiving hall i
    · cases hp : s.phase with
      | files incoming fileState => simp [react, hp] at hreact
      | header incoming msg =>
          simp only [react, hp, Reaction.tau.injEq] at hreact
          subst hreact
          exact onHeader_blocks i
      | _ => rw [hp] at hl; exact absurd rfl hl

/-- **Only authorised bytes reach a file.** In every run of the receiving task, against any
    messages: an event that changes the blocks of a file is a binary message; the most recent text
    message is a header for that file, selected and listed, with the token made for it; the file
    is the one that header opened, and the message goes behind its blocks. Where the most recent
    text message is no such header, no file gets anything. -/
theorem blocks_authorised {pins : List (Option String)}
    {results : List (Option RTCSendFileResponse)} {es : List (Process.Event Message)}
    {t u : Batch Message State} {e : Process.Event Message}
    (hrun : (acceptOffer w c).alone.Run Machine.anyStep ⟨initial pins results, []⟩ es t)
    (hstep : (acceptOffer w c).alone.step t e = some u) :
    (∀ i, blocksOf u.state i ≠ blocksOf t.state i → ∃ m id,
      e = .received m ∧ m.isString = false ∧
      Authorised w c t.state.published (Process.received es) id ∧
      i + 1 = t.state.receiving.length ∧
      (t.state.receiving[i]?).map RTCFile.fileId = some id ∧
      blocksOf u.state i = blocksOf t.state i ++ [m.data]) ∧
    ((∀ id, ¬ Authorised w c t.state.published (Process.received es) id) →
      ∀ i, blocksOf u.state i = blocksOf t.state i) := by
  have hforwards : ∀ i, blocksOf u.state i ≠ blocksOf t.state i → ∃ m id,
      e = .received m ∧ m.isString = false ∧
      Authorised w c t.state.published (Process.received es) id ∧
      i + 1 = t.state.receiving.length ∧
      (t.state.receiving[i]?).map RTCFile.fileId = some id ∧
      blocksOf u.state i = blocksOf t.state i ++ [m.data] := by
    intro i hne
    rcases step_blocks hstep i with hsame | ⟨m, incoming, state, rfl, hbin, hp, rfl, _, hblocks⟩
    · exact absurd hsame hne
    · have hloop := run_loop hrun
      simp only [Loop, hp] at hloop
      obtain ⟨hauth, hlen, hid⟩ := hloop.2 state rfl
      exact ⟨m, state.fileId, rfl, hbin, hauth, hlen, hid, hblocks⟩
  refine ⟨hforwards, fun hno i => ?_⟩
  by_contra hne
  obtain ⟨_, id, _, _, hauth, _⟩ := hforwards i hne
  exact hno id hauth

/-- A sender that shows a nonce and a token, lists two files, and sends the header of the first. -/
def headerMessages (w : Wire) : List Message :=
  Item.messages w (.nonce ⟨w.base64Encode (List.replicate 32 1)⟩) ++
  Item.messages w (.tokenRequest ⟨"any"⟩) ++
  ([binaryMessage (w.pinSendingResponse.encode (.ok [sampleFile "a", sampleFile "b"]))] ++
    [delimiter]) ++
  [textMessage (w.sendFileHeaderRequest.encode ⟨"a", "token of a"⟩)]

/-- The receiver after these messages: the selected file is open, and empty. -/
theorem header_run (w : Wire) : ∃ es t incoming,
    (acceptOffer w (openReceiver none (.files ["a"]))).alone.Run Machine.anyStep
      ⟨initial [] [], []⟩ es ⟨t, []⟩ ∧ Process.received es = headerMessages w ∧
    t.receiving = [⟨"a", []⟩] ∧ t.phase = .files incoming (some ⟨"a", 0⟩) := by
  have h1 := feed_nonce (w := w) (c := openReceiver none (.files ["a"])) (s := initial [] []) rfl
    (n := List.replicate 32 1) (by decide)
  have h2 := h1.trans (feed_token (w := w) rfl (show tokenVerified none "any" _ = true from rfl) rfl)
  have h3 := h2.trans (@feed_pinStatus w _ _ rfl
    [w.pinSendingResponse.encode (.ok [sampleFile "a", sampleFile "b"])] _ fun phase => by
      rw [List.flatten_singleton]
      exact onPinStatus_ok phase [sampleFile "a", sampleFile "b"])
  have h4 := h3.trans (Process.feed_recv
    (m := textMessage (w.sendFileHeaderRequest.encode ⟨"a", "token of a"⟩)) rfl
    (onHeader_accepted (by decide)))
  obtain ⟨es, hrun, hes⟩ := h4.alone
  exact ⟨es, _, _, hrun, hes, rfl, rfl⟩

/-- A block behind that header: it reaches the file `a`. -/
theorem blocks_authorised_oneBlock : ∃ es t u,
    (acceptOffer jsonWire (openReceiver none (.files ["a"]))).alone.Run Machine.anyStep
      ⟨initial [] [], []⟩ es t ∧
    (acceptOffer jsonWire (openReceiver none (.files ["a"]))).alone.step t
      (.received (binaryMessage [1, 2])) = some u ∧
    blocksOf u.state 0 = [[1, 2]] ∧
    Authorised jsonWire (openReceiver none (.files ["a"])) t.state.published
      (Process.received es) "a" := by
  obtain ⟨es, t, incoming, hrun, _, hreceiving, hphase⟩ := header_run jsonWire
  have hstep : (acceptOffer jsonWire (openReceiver none (.files ["a"]))).alone.step ⟨t, []⟩
      (.received (binaryMessage [1, 2])) =
      some (onFiles jsonWire (openReceiver none (.files ["a"])) t incoming (some ⟨"a", 0⟩)
        (some (binaryMessage [1, 2]))) := by
    simp only [Process.alone, acceptOffer, Process.batched, react, hphase]
  have hblocks : blocksOf (onFiles jsonWire (openReceiver none (.files ["a"])) t incoming
      (some ⟨"a", 0⟩) (some (binaryMessage [1, 2]))).state 0 = [[1, 2]] := by
    simp [onFiles, onBlock, openReceiver, binaryMessage, blocksOf, State.goto, hreceiving]
  have hbefore : blocksOf t 0 = [] := by simp [blocksOf, hreceiving]
  obtain ⟨hforwards, _⟩ := blocks_authorised hrun hstep
  obtain ⟨m, id, _, _, hauth, _, hid, _⟩ := hforwards 0 (by rw [hblocks, hbefore]; exact List.cons_ne_nil _ _)
  rw [hreceiving] at hid
  obtain rfl := Option.some.inj hid
  exact ⟨es, _, _, hrun, hstep, hblocks, hauth⟩

end LocalSend.WebRtc.Accept
