/-
  File:      LocalSend/WebRtc/Transfer.lean
  Subject:   THE FILES GO OVER. The sending loop of `send_offer` against the receive loop of
             `accept_offer`, in every interleaving.

  * `offered` -- the files the sender has tokens for; `stream` -- the messages it sends for them;
  * `transfer` -- the receive loop file by file (the abstract receiver): what it publishes,
    reports and answers, and how it ends;
  * `feed_transfer` -- the receive loop, message by message, refines it;
  * `transfer_run`, `transfer_ends` -- every run of the two peers can be continued to that end;
  * `file_stream_integrity` -- files that are accepted arrive whole, in order, and alone;
  * `receive_ends_ok_iff` -- exactly when the receive loop ends with `Ok`: the delimiter is only
    recognised while a file is open.
-/
import LocalSend.WebRtc.Peers
import Mathlib.Algebra.GroupWithZero.Nat

namespace LocalSend.WebRtc

open Lib

variable {w : Wire}

/-! ## 1. What the sender sends -/

/-- A file as it goes over: its header, and its content in chunks. -/
structure Offer where
  header : RTCSendFileHeaderRequest
  chunks : List Bytes
  deriving DecidableEq, Repr

/-- **The files the sender has a token for.** -/
def offered (fileMap : LinkedMap String String) (files : List RTCFile) : List Offer :=
  files.filterMap fun file => (fileMap.get? file.fileId).map fun token =>
    ⟨⟨file.fileId, token⟩, processInChunks file.blocks⟩

def Offer.messages (w : Wire) (offer : Offer) : List Message :=
  textMessage (w.sendFileHeaderRequest.encode offer.header) :: offer.chunks.map binaryMessage

/-- **The messages of the sending loop**: header and chunks of each file, then the delimiter. -/
def stream (w : Wire) : List Offer → List Message
  | [] => [delimiter]
  | offer :: offers => offer.messages w ++ stream w offers

namespace Send

variable {c : Config} {s : State}

/-- One round of the loop on a file without a token. -/
theorem feed_skipped {fileMap : LinkedMap String String} (hp : s.phase = .sending fileMap)
    {file : RTCFile} {files : List RTCFile} (hs : s.sending = file :: files)
    (htoken : fileMap.get? file.fileId = none) :
    (sendOffer w c).Feed ⟨s, []⟩ []
      ⟨(State.goto (State.error { s with sending := files } file.fileId
        "Failed to get file token") (.sending fileMap)).state, []⟩ [] :=
  Process.feed_tau (by simp only [react, hp, onSending, hs, htoken]; rfl)

/-- One round of the loop on a file with a token. -/
theorem feed_offer {fileMap : LinkedMap String String} (hp : s.phase = .sending fileMap)
    {file : RTCFile} {files : List RTCFile} (hs : s.sending = file :: files) {token : String}
    (htoken : fileMap.get? file.fileId = some token) :
    (sendOffer w c).Feed ⟨s, []⟩ []
      ⟨(State.say w { s with sending := files } (.header ⟨file.fileId, token⟩)
        (.file file.fileId) (.sending fileMap)).state, []⟩
      (Offer.messages w ⟨⟨file.fileId, token⟩, processInChunks file.blocks⟩) :=
  Process.feed_tau (by simp only [react, hp, onSending, hs, htoken]; rfl)

/-- **The sending loop** sends the stream of its files and comes to the last receive. -/
theorem feed_stream {fileMap : LinkedMap String String} (hp : s.phase = .sending fileMap) :
    ∃ s', (sendOffer w c).Feed ⟨s, []⟩ [] ⟨s', []⟩ (stream w (offered fileMap s.sending)) ∧
      s'.phase = .lastResponse ∧ s'.got = s.got ∧
      s'.sent = s.sent ++ (offered fileMap s.sending).map (fun o => .header o.header) ++
        [.delimiter] ∧
      s'.errors = s.errors ++ (s.sending.filter fun f => (fileMap.get? f.fileId).isNone).map
        fun f => ⟨f.fileId, "Failed to get file token"⟩ := by
  generalize hfiles : s.sending = files
  induction files generalizing s with
  | nil =>
      refine ⟨(s.say w .delimiter .plain .lastResponse).state, ?_, rfl, rfl, ?_, ?_⟩
      · exact Process.feed_tau (by simp only [react, hp, onSending, hfiles]; rfl)
      · simp [State.say, offered]
      · simp [State.say]
  | cons file files ih =>
      cases htoken : fileMap.get? file.fileId with
      | none =>
          obtain ⟨s', hfeed, hphase, hgot, hsent, herrors⟩ := ih (s := State.goto
            (State.error { s with sending := files } file.fileId "Failed to get file token")
            (.sending fileMap) |>.state) rfl rfl
          refine ⟨s', ?_, hphase, hgot, ?_, ?_⟩
          · simpa [offered, htoken] using (feed_skipped hp hfiles htoken).trans hfeed
          · simpa [offered, htoken, State.goto, State.error] using hsent
          · simpa [htoken, State.goto, State.error] using herrors
      | some token =>
          obtain ⟨s', hfeed, hphase, hgot, hsent, herrors⟩ := ih (s := State.say w
            { s with sending := files } (.header ⟨file.fileId, token⟩) (.file file.fileId)
            (.sending fileMap) |>.state) rfl rfl
          refine ⟨s', ?_, hphase, hgot, ?_, ?_⟩
          · simpa [offered, htoken, stream] using (feed_offer hp hfiles htoken).trans hfeed
          · simpa [offered, htoken, State.say] using hsent
          · simpa [htoken, State.say] using herrors

end Send

/-! ## 2. The receiver, file by file -/

namespace Accept

/-- How the receive loop ends: on the delimiter, on a text that is no header, in the wait for a
    result of the app, or on a file channel the app has closed. -/
inductive Ending where
  | finished
  | parseError
  | waiting
  | channelClosed
  deriving DecidableEq, Repr

/-- What the receive loop has done when it ends. -/
structure Outcome where
  received : List RTCFile
  errors : List RTCFileError
  responses : List RTCSendFileResponse
  ending : Ending
  deriving DecidableEq, Repr

/-- The outcome, with what was done before. -/
def Outcome.after (o : Outcome) (received : List RTCFile) (errors : List RTCFileError)
    (responses : List RTCSendFileResponse) : Outcome :=
  ⟨received ++ o.received, errors ++ o.errors, responses ++ o.responses, o.ending⟩

def Outcome.stop (ending : Ending) : Outcome := ⟨[], [], [], ending⟩

/-- The blocks an app takes, the first of them being the `n`th of all; and whether it took them
    all. -/
def forward (takes : Nat → Bool) (n : Nat) : List Bytes → List Bytes × Bool
  | [] => ([], true)
  | block :: blocks =>
    if takes n then
      let rest := forward takes (n + 1) blocks
      (block :: rest.1, rest.2)
    else ([], false)

/-- The end of the open file, if there is one: the response for it, and the results left; `none`
    if the app has not reported a result. -/
def endFile : Option String → List (Option RTCSendFileResponse) →
    Option (List RTCSendFileResponse × List (Option RTCSendFileResponse))
  | none, results => some ([], results)
  | some _, [] => none
  | some fileId, result :: results => some ([fileResponse fileId result], results)

/-- The errors for a file whose header is refused: one for it, and one for each chunk. -/
def refusal (offer : Offer) (text : String) : List RTCFileError :=
  ⟨offer.header.id, text⟩ ::
    offer.chunks.map fun _ => ⟨"unknown", "Received binary data without a header"⟩

/-- **The receive loop file by file**, from the file that is open, the results the app is going to
    report, and the number of blocks forwarded so far. -/
def transfer (incoming : Incoming) (takes : Nat → Bool) :
    List Offer → Option String → List (Option RTCSendFileResponse) → Nat → Outcome
  | [], openFile, results, _ =>
    match openFile, endFile openFile results with
    | none, _ => .stop .parseError
    | some _, none => .stop .waiting
    | some _, some (responses, _) => (Outcome.stop .finished).after [] [] responses
  | offer :: offers, openFile, results, n =>
    match endFile openFile results with
    | none => .stop .waiting
    | some (responses, results) =>
      match incoming.refuses offer.header with
      | some text =>
        (transfer incoming takes offers none results n).after [] (refusal offer text) responses
      | none =>
        match forward takes n offer.chunks with
        | (blocks, true) =>
          (transfer incoming takes offers (some offer.header.id) results
            (n + offer.chunks.length)).after [⟨offer.header.id, blocks⟩] [] responses
        | (blocks, false) =>
          (Outcome.stop .channelClosed).after [⟨offer.header.id, blocks⟩] [] responses

/-- The phase in which the loop has ended. -/
def Ending.phase : Ending → Phase
  | .finished => .ended (.ok ())
  | .parseError => .ended (.error (.parse ""))
  | .waiting => .fileResult
  | .channelClosed => .ended (.error (.text "channel closed"))

/-! ## 3. Message by message -/

variable {c : Config} {s : State} {incoming : Incoming}

/-- The file that is open, if any, is the last one published. -/
def OpenFile (s : State) (fileState : Option RTCFileState) (openFile : Option String) : Prop :=
  fileState.map RTCFileState.fileId = openFile ∧
  ∀ state, fileState = some state → state.binaryTx + 1 = s.receiving.length

/-- The state at the next file: `received` and `errors` were added, `responses` sent. -/
structure Moved (s s' : State) (received : List RTCFile) (errors : List RTCFileError)
    (responses : List RTCSendFileResponse) : Prop where
  receiving : s'.receiving = s.receiving ++ received
  errors : s'.errors = s.errors ++ errors
  sent : s'.sent = s.sent ++ responses.map .fileResponse

theorem Moved.trans {s s' s'' : State} {r r' : List RTCFile} {e e' : List RTCFileError}
    {a a' : List RTCSendFileResponse} (h : Moved s s' r e a) (h' : Moved s' s'' r' e' a') :
    Moved s s'' (r ++ r') (e ++ e') (a ++ a') := by
  refine ⟨?_, ?_, ?_⟩
  · rw [h'.receiving, h.receiving, List.append_assoc]
  · rw [h'.errors, h.errors, List.append_assoc]
  · rw [h'.sent, h.sent, List.map_append, List.append_assoc]

theorem Moved.of_eq {s s' : State} (hr : s'.receiving = s.receiving) (he : s'.errors = s.errors)
    (hs : s'.sent = s.sent) : Moved s s' [] [] [] := ⟨by simp [hr], by simp [he], by simp [hs]⟩

/-- The response message of a file. -/
def responseMessage (w : Wire) (r : RTCSendFileResponse) : Message :=
  textMessage (w.sendFileResponse.encode r)

/-- **A text message ends the open file**: the response goes out, and the loop comes to what the
    message itself means. -/
theorem feed_endFile {fileState : Option RTCFileState} {openFile : Option String}
    (hp : s.phase = .files incoming fileState) (hopen : OpenFile s fileState openFile)
    {responses : List RTCSendFileResponse} {results : List (Option RTCSendFileResponse)}
    (hend : endFile openFile s.results = some (responses, results)) {msg : Message}
    (htext : msg.isString = true) (hdelim : isDelimiter msg = false) :
    ∃ s', Moved s s' [] [] responses ∧ s'.results = results ∧ s'.forwarded = s.forwarded ∧
      ∀ {s'' out}, onHeader w s' incoming msg = ⟨s'', out⟩ →
      (acceptOffer w c).Feed ⟨s, []⟩ [msg] ⟨s'', []⟩
        (responses.map (responseMessage w) ++ out) := by
  cases fileState with
  | none =>
      obtain ⟨rfl, _⟩ := hopen
      obtain ⟨rfl, rfl⟩ := Prod.mk.inj (Option.some.inj hend)
      refine ⟨s, .of_eq rfl rfl rfl, rfl, rfl, fun {s'' out} hheader => ?_⟩
      refine Process.feed_recv (k := onFiles w c s incoming none) (by simp only [react, hp]) ?_
      simpa only [onFiles, htext, if_true, List.map_nil, List.nil_append] using hheader
  | some state =>
      obtain ⟨rfl, _⟩ := hopen
      cases hres : s.results with
      | nil => rw [hres] at hend; cases hend
      | cons result rest =>
          rw [hres] at hend
          obtain ⟨rfl, rfl⟩ := Prod.mk.inj (Option.some.inj hend)
          let s1 := (State.say w { s with results := rest }
            (.fileResponse (fileResponse state.fileId result)) .plain
            (.header incoming msg)).state
          refine ⟨s1, ⟨by simp [s1, State.say], by simp [s1, State.say], rfl⟩, rfl, rfl,
            fun {s'' out} hheader => ?_⟩
          have h1 : (acceptOffer w c).Feed ⟨s, []⟩ [msg] ⟨s1, []⟩
              [textMessage (w.sendFileResponse.encode (fileResponse state.fileId result))] := by
            refine Process.feed_recv (k := onFiles w c s incoming (some state))
              (by simp only [react, hp]) ?_
            simp only [onFiles, htext, if_true, hres, hdelim, Bool.false_eq_true, if_false]
            rfl
          have h2 : (acceptOffer w c).Feed ⟨s1, []⟩ [] ⟨s'', []⟩ out :=
            Process.feed_tau (by simp only [react, s1, State.say]; exact congrArg _ hheader)
          exact h1.trans h2

/-- A header that is refused. -/
theorem onHeader_refused {header : RTCSendFileHeaderRequest} {text : String}
    (h : incoming.refuses header = some text) :
    onHeader w s incoming (textMessage (w.sendFileHeaderRequest.encode header)) =
      ((s.heard (.header header)).error header.id text).goto (.files incoming none) := by
  simp only [onHeader, data_textMessage, Codec.decode_encode, h]

/-- A header that is accepted. -/
theorem onHeader_accepted {header : RTCSendFileHeaderRequest}
    (h : incoming.refuses header = none) :
    onHeader w s incoming (textMessage (w.sendFileHeaderRequest.encode header)) =
      State.goto { s.heard (.header header) with receiving := s.receiving ++ [⟨header.id, []⟩] }
        (.files incoming (some ⟨header.id, s.receiving.length⟩)) := by
  simp only [onHeader, data_textMessage, Codec.decode_encode, h]
  rfl

/-- **Blocks without an open file** leave an error each, and nothing else. -/
theorem feed_lostBlocks (hp : s.phase = .files incoming none) (blocks : List Bytes) :
    ∃ s', (acceptOffer w c).Feed ⟨s, []⟩ (blocks.map binaryMessage) ⟨s', []⟩ [] ∧
      Moved s s' [] (blocks.map fun _ => ⟨"unknown", "Received binary data without a header"⟩) [] ∧
      s'.phase = .files incoming none ∧ s'.results = s.results ∧ s'.forwarded = s.forwarded := by
  induction blocks generalizing s with
  | nil => exact ⟨s, .here _, .of_eq rfl rfl rfl, hp, rfl, rfl⟩
  | cons block blocks ih =>
      let s1 := (State.goto (s.error "unknown" "Received binary data without a header")
        (.files incoming none)).state
      have h1 : (acceptOffer w c).Feed ⟨s, []⟩ [binaryMessage block] ⟨s1, []⟩ [] := by
        refine Process.feed_recv (k := onFiles w c s incoming none) (by simp only [react, hp]) ?_
        rfl
      have hm : Moved s s1 [] [⟨"unknown", "Received binary data without a header"⟩] [] :=
        ⟨by simp [s1, State.goto, State.error], rfl, by simp [s1, State.goto, State.error]⟩
      obtain ⟨s', hfeed, hmoved, hphase, hresults, hforwarded⟩ := ih (s := s1) rfl
      exact ⟨s', h1.trans hfeed, hm.trans hmoved, hphase, hresults, hforwarded⟩

theorem modify_last {α : Type} (xs : List α) (x : α) (f : α → α) :
    (xs ++ [x]).modify xs.length f = xs ++ [f x] := by
  induction xs with
  | nil => rfl
  | cons y xs ih => simp [ih]

/-- **Blocks of the open file** go to its channel, as far as the app takes them. -/
theorem feed_blocks (incoming : Incoming) (fileId : String) (files : List RTCFile)
    (blocks : List Bytes) :
    ∀ {s : State} {before : List Bytes}, s.phase = .files incoming (some ⟨fileId, files.length⟩) →
    s.receiving = files ++ [⟨fileId, before⟩] →
    ∃ ins rest s', blocks.map binaryMessage = ins ++ rest ∧
      (acceptOffer w c).Feed ⟨s, []⟩ ins ⟨s', []⟩ [] ∧
      s'.receiving = files ++ [⟨fileId, before ++ (forward c.takes s.forwarded blocks).1⟩] ∧
      s'.errors = s.errors ∧ s'.sent = s.sent ∧ s'.results = s.results ∧
      ((forward c.takes s.forwarded blocks).2 = true → rest = [] ∧
        s'.phase = .files incoming (some ⟨fileId, files.length⟩) ∧
        s'.forwarded = s.forwarded + blocks.length) ∧
      ((forward c.takes s.forwarded blocks).2 = false → s'.phase = Ending.channelClosed.phase) := by
  induction blocks with
  | nil =>
      intro s before hp hr
      exact ⟨[], [], s, rfl, .here _, by simp [forward, hr], rfl, rfl, rfl,
        fun _ => ⟨rfl, hp, rfl⟩, fun h => by cases h⟩
  | cons block blocks ih =>
      intro s before hp hr
      have hreact : react w c s = .recv (onFiles w c s incoming (some ⟨fileId, files.length⟩)) := by
        simp only [react, hp]
      cases htakes : c.takes s.forwarded with
      | true =>
          let s1 := (State.goto
            { s with
              receiving := s.receiving.modify files.length fun file =>
                { file with blocks := file.blocks ++ [block] }
              forwarded := s.forwarded + 1 }
            (.files incoming (some ⟨fileId, files.length⟩))).state
          have h1 : (acceptOffer w c).Feed ⟨s, []⟩ [binaryMessage block] ⟨s1, []⟩ [] := by
            refine Process.feed_recv hreact ?_
            simp only [onFiles, isString_binaryMessage, Bool.false_eq_true, if_false, onBlock,
              htakes, if_true, data_binaryMessage]
            rfl
          have hr1 : s1.receiving = files ++ [⟨fileId, before ++ [block]⟩] := by
            simp only [s1, State.goto, hr, modify_last]
          obtain ⟨ins, rest, s', hsplit, hfeed, hreceiving, herrors, hsent, hresults, hall, hcut⟩ :=
            ih (s := s1) rfl hr1
          have hforward : forward c.takes s.forwarded (block :: blocks) =
              (block :: (forward c.takes s1.forwarded blocks).1,
                (forward c.takes s1.forwarded blocks).2) := by
            simp only [forward, htakes, if_true, s1, State.goto]
          refine ⟨binaryMessage block :: ins, rest, s', by simp [hsplit], h1.trans hfeed, ?_,
            herrors, hsent, hresults, ?_, ?_⟩
          · rw [hreceiving, hforward]
            simp
          · rw [hforward]
            intro h
            obtain ⟨h1, h2, h3⟩ := hall h
            refine ⟨h1, h2, ?_⟩
            rw [h3, List.length_cons]
            simp only [s1, State.goto]
            omega
          · rw [hforward]
            exact hcut
      | false =>
          have hforward : forward c.takes s.forwarded (block :: blocks) = ([], false) := by
            simp [forward, htakes]
          let s1 := (s.fail (.text "channel closed")).state
          have h1 : (acceptOffer w c).Feed ⟨s, []⟩ [binaryMessage block] ⟨s1, []⟩ [] := by
            refine Process.feed_recv hreact ?_
            simp only [onFiles, isString_binaryMessage, Bool.false_eq_true, if_false, onBlock,
              htakes, data_binaryMessage]
            rfl
          rw [hforward]
          exact ⟨[binaryMessage block], blocks.map binaryMessage, s1, rfl, h1,
            by simp [s1, State.fail, State.goto, hr], rfl, rfl, rfl, (fun h => by cases h),
            fun _ => rfl⟩

/-- What the loop has done on a stream, up to its end: the outcome `o`, on the messages `ins` of
    the stream `ms`. -/
def Ends (w : Wire) (c : Config) (s : State) (ms : List Message) (o : Outcome) : Prop :=
  ∃ ins rest s', ms = ins ++ rest ∧
    (acceptOffer w c).Feed ⟨s, []⟩ ins ⟨s', []⟩ (o.responses.map (responseMessage w)) ∧
    Moved s s' o.received o.errors o.responses ∧ s'.phase = o.ending.phase

/-- The wait for the result of the open file. -/
theorem ends_waiting {fileState : Option RTCFileState} {openFile : Option String}
    (hp : s.phase = .files incoming fileState) (hopen : OpenFile s fileState openFile)
    (hend : endFile openFile s.results = none) {msg : Message} (htext : msg.isString = true)
    (rest : List Message) : Ends w c s (msg :: rest) (.stop .waiting) := by
  obtain ⟨rfl, _⟩ := hopen
  cases fileState with
  | none => cases hend
  | some state =>
      cases hres : s.results with
      | cons result results => rw [hres] at hend; cases hend
      | nil =>
          refine ⟨[msg], rest, (s.goto .fileResult).state, rfl, ?_, .of_eq rfl rfl rfl, rfl⟩
          refine Process.feed_recv (k := onFiles w c s incoming (some state))
            (by simp only [react, hp]) ?_
          simp only [onFiles, htext, if_true, hres]
          rfl

/-- The delimiter. -/
theorem ends_delimiter {fileState : Option RTCFileState} {openFile : Option String}
    (hp : s.phase = .files incoming fileState) (hopen : OpenFile s fileState openFile) :
    Ends w c s [delimiter] (transfer incoming c.takes [] openFile s.results s.forwarded) := by
  cases fileState with
  | none =>
      obtain ⟨rfl, _⟩ := hopen
      refine ⟨[delimiter], [], (s.fail (.parse "")).state, rfl, ?_, .of_eq rfl rfl rfl, rfl⟩
      refine Process.feed_recv (k := onFiles w c s incoming none) (by simp only [react, hp]) ?_
      simp only [onFiles, onHeader, decode_delimiter]
      rfl
  | some state =>
      cases hres : s.results with
      | nil =>
          obtain ⟨rfl, _⟩ := hopen
          exact ends_waiting hp ⟨rfl, fun st hst => by simp_all⟩ (by simp [endFile, hres]) rfl []
      | cons result results =>
          obtain ⟨rfl, _⟩ := hopen
          refine ⟨[delimiter], [], (State.say w { s with results := results }
            (.fileResponse (fileResponse state.fileId result)) .plain (.ended (.ok ()))).state,
            rfl, ?_, ⟨by simp [transfer, endFile, Outcome.after, Outcome.stop, State.say],
              by simp [transfer, endFile, Outcome.after, Outcome.stop, State.say], rfl⟩, rfl⟩
          refine Process.feed_recv (k := onFiles w c s incoming (some state))
            (by simp only [react, hp]) ?_
          simp only [onFiles, hres, isDelimiter_delimiter, if_true]
          rfl

/-- What was done before an end is part of it. -/
theorem Ends.before {s s' : State} {ms ms' : List Message} {o : Outcome} {received : List RTCFile}
    {errors : List RTCFileError} {responses : List RTCSendFileResponse}
    (hfeed : (acceptOffer w c).Feed ⟨s, []⟩ ms ⟨s', []⟩ (responses.map (responseMessage w)))
    (hmoved : Moved s s' received errors responses) (h : Ends w c s' ms' o) :
    Ends w c s (ms ++ ms') (o.after received errors responses) := by
  obtain ⟨ins, rest, s'', rfl, hfeed', hmoved', hphase⟩ := h
  refine ⟨ms ++ ins, rest, s'', by simp, ?_, hmoved.trans hmoved', hphase⟩
  simpa [Outcome.after] using hfeed.trans hfeed'

/-- **A file whose header is refused**, after the end of the file before it. -/
theorem feed_refused {fileState : Option RTCFileState} {openFile : Option String}
    (hp : s.phase = .files incoming fileState) (hopen : OpenFile s fileState openFile)
    {responses : List RTCSendFileResponse} {results : List (Option RTCSendFileResponse)}
    (hend : endFile openFile s.results = some (responses, results)) {offer : Offer} {text : String}
    (hrefuses : incoming.refuses offer.header = some text) :
    ∃ s', (acceptOffer w c).Feed ⟨s, []⟩ (offer.messages w) ⟨s', []⟩
        (responses.map (responseMessage w)) ∧
      Moved s s' [] (refusal offer text) responses ∧ s'.phase = .files incoming none ∧
      s'.results = results ∧ s'.forwarded = s.forwarded := by
  obtain ⟨s1, hmoved1, hresults1, hforwarded1, hfeed1⟩ := feed_endFile (w := w) (c := c) hp hopen
    hend (isString_textMessage (w.sendFileHeaderRequest.encode offer.header))
    (isDelimiter_encode _ _)
  have h1 := hfeed1 (onHeader_refused hrefuses)
  obtain ⟨s2, hfeed2, hmoved2, hphase2, hresults2, hforwarded2⟩ := feed_lostBlocks (w := w) (c := c)
    (s := (((s1.heard (.header offer.header)).error offer.header.id text).goto
      (.files incoming none)).state) rfl offer.chunks
  have hheader : Moved s1 (((s1.heard (.header offer.header)).error offer.header.id text).goto
      (.files incoming none)).state [] [⟨offer.header.id, text⟩] [] :=
    ⟨by simp [State.goto, State.error, State.heard], rfl,
      by simp [State.goto, State.error, State.heard]⟩
  refine ⟨s2, ?_, ?_, hphase2, hresults2.trans hresults1, hforwarded2.trans hforwarded1⟩
  · simpa [Offer.messages] using h1.trans hfeed2
  · simpa [refusal] using (hmoved1.trans hheader).trans hmoved2

/-- **A file whose header is accepted**, after the end of the file before it: its blocks go to its
    own channel, as far as the app takes them. -/
theorem feed_accepted {fileState : Option RTCFileState} {openFile : Option String}
    (hp : s.phase = .files incoming fileState) (hopen : OpenFile s fileState openFile)
    {responses : List RTCSendFileResponse} {results : List (Option RTCSendFileResponse)}
    (hend : endFile openFile s.results = some (responses, results)) {offer : Offer}
    (hrefuses : incoming.refuses offer.header = none) :
    ∃ ins rest s', offer.messages w = ins ++ rest ∧
      (acceptOffer w c).Feed ⟨s, []⟩ ins ⟨s', []⟩ (responses.map (responseMessage w)) ∧
      Moved s s' [⟨offer.header.id, (forward c.takes s.forwarded offer.chunks).1⟩] [] responses ∧
      ((forward c.takes s.forwarded offer.chunks).2 = true → rest = [] ∧ s'.results = results ∧
        s'.phase = .files incoming (some ⟨offer.header.id, s.receiving.length⟩) ∧
        s'.forwarded = s.forwarded + offer.chunks.length) ∧
      ((forward c.takes s.forwarded offer.chunks).2 = false →
        s'.phase = Ending.channelClosed.phase) := by
  obtain ⟨s1, hmoved1, hresults1, hforwarded1, hfeed1⟩ := feed_endFile (w := w) (c := c) hp hopen
    hend (isString_textMessage (w.sendFileHeaderRequest.encode offer.header))
    (isDelimiter_encode _ _)
  have h1 := hfeed1 (onHeader_accepted hrefuses)
  have hreceiving1 : s1.receiving = s.receiving := by simpa using hmoved1.receiving
  obtain ⟨ins, rest, s2, hsplit, hfeed2, hreceiving, herrors, hsent, hresults2, hall, hcut⟩ :=
    feed_blocks (w := w) (c := c) incoming offer.header.id s1.receiving offer.chunks
      (s := (State.goto { s1.heard (.header offer.header) with
        receiving := s1.receiving ++ [⟨offer.header.id, []⟩] }
        (.files incoming (some ⟨offer.header.id, s1.receiving.length⟩))).state) rfl rfl
  simp only [State.goto, State.heard, hforwarded1] at hreceiving hall hcut
  refine ⟨textMessage (w.sendFileHeaderRequest.encode offer.header) :: ins, rest, s2,
    by simp [Offer.messages, hsplit], by simpa using h1.trans hfeed2, ⟨?_, ?_, ?_⟩, fun h => ?_,
    hcut⟩
  · rw [hreceiving, hreceiving1]
    simp
  · rw [herrors]
    exact hmoved1.errors
  · rw [hsent]
    exact hmoved1.sent
  · obtain ⟨hrest, hphase, hfor⟩ := hall h
    refine ⟨hrest, hresults2.trans hresults1, ?_, hfor⟩
    rw [hphase, hreceiving1]

/-- **The receive loop refines the file-wise one**: on the stream of any files it does, and ends
    as, `transfer` says. -/
theorem feed_transfer (offers : List Offer) : ∀ {s : State} {fileState : Option RTCFileState}
    {openFile : Option String}, s.phase = .files incoming fileState →
    OpenFile s fileState openFile →
    Ends w c s (stream w offers) (transfer incoming c.takes offers openFile s.results s.forwarded) := by
  induction offers with
  | nil =>
      intro s fileState openFile hp hopen
      exact ends_delimiter hp hopen
  | cons offer offers ih =>
      intro s fileState openFile hp hopen
      unfold transfer
      cases hend : endFile openFile s.results with
      | none => exact ends_waiting hp hopen hend rfl _
      | some ended =>
          obtain ⟨responses, results⟩ := ended
          simp only
          cases hrefuses : incoming.refuses offer.header with
          | some text =>
              obtain ⟨s', hfeed, hmoved, hphase, hresults, hforwarded⟩ := feed_refused hp hopen hend
                hrefuses
              have hnone : OpenFile s' none none := ⟨rfl, nofun⟩
              have hrest := ih hphase hnone
              rw [hresults, hforwarded] at hrest
              exact hrest.before hfeed hmoved
          | none =>
              obtain ⟨ins, rest, s', hsplit, hfeed, hmoved, hall, hcut⟩ := feed_accepted (w := w)
                (c := c) hp hopen hend hrefuses
              cases hforward : forward c.takes s.forwarded offer.chunks with
              | mk blocks taken =>
                  rw [hforward] at hmoved hall hcut
                  cases taken with
                  | true =>
                      obtain ⟨rfl, hresults, hphase, hforwarded⟩ := hall rfl
                      have hopen' : OpenFile s' (some ⟨offer.header.id, s.receiving.length⟩)
                          (some offer.header.id) := by
                        refine ⟨rfl, fun state hst => ?_⟩
                        obtain rfl := Option.some.inj hst
                        simp [hmoved.receiving]
                      have hrest := ih hphase hopen'
                      rw [hresults, hforwarded] at hrest
                      rw [List.append_nil] at hsplit
                      have h := hrest.before hfeed hmoved
                      rw [← hsplit] at h
                      exact h
                  | false =>
                      refine ⟨ins, rest ++ stream w offers, s', ?_, ?_, ?_, hcut rfl⟩
                      · rw [stream, hsplit, List.append_assoc]
                      · simpa [Outcome.after, Outcome.stop] using hfeed
                      · simpa [Outcome.after, Outcome.stop] using hmoved

theorem halted_ending {s : State} {ending : Ending} (h : s.phase = ending.phase) :
    (acceptOffer w c).Halted ⟨s, []⟩ := by
  cases ending with
  | waiting => exact Or.inl (by simp [acceptOffer, Process.batched, react, h, Ending.phase])
  | _ => exact Or.inr (by simp [acceptOffer, Process.batched, react, h, Ending.phase])

theorem Ending.phase_inj {a b : Ending} (h : a.phase = b.phase) : a = b := by
  cases a <;> cases b <;> first | rfl | cases h

end Accept

/-! ## 4. The two peers -/

section Peers

variable {cs : Send.Config} {cr : Accept.Config} {s : Send.State} {r : Accept.State}
  {fileMap : LinkedMap String String} {incoming : Accept.Incoming}

/-- Both peers at the start of their loops, and nothing on its way. -/
def atTransfer (s : Send.State) (r : Accept.State) : Peers := ⟨⟨s, []⟩, ⟨r, []⟩, [], []⟩

/-- The outcome of the files the sender has to send. -/
def outcome (cr : Accept.Config) (s : Send.State) (r : Accept.State)
    (fileMap : LinkedMap String String) (incoming : Accept.Incoming) : Accept.Outcome :=
  Accept.transfer incoming cr.takes (offered fileMap s.sending) none r.results r.forwarded

/-- **One run**: the sender sends everything, then the receiver reads as far as it does. -/
theorem transfer_run (w : Wire) (cs : Send.Config) (cr : Accept.Config)
    (hs : s.phase = .sending fileMap) (hr : r.phase = .files incoming none) :
    ∃ s' r' rest, Leads w cs cr (atTransfer s r) ⟨⟨s', []⟩, ⟨r', []⟩, rest,
        (outcome cr s r fileMap incoming).responses.map (Accept.responseMessage w)⟩ ∧
      (s'.phase = .lastResponse ∧ s'.got = s.got ∧
        s'.sent = s.sent ++ (offered fileMap s.sending).map (fun o => .header o.header) ++
          [.delimiter] ∧
        s'.errors = s.errors ++ (s.sending.filter fun f => (fileMap.get? f.fileId).isNone).map
          fun f => ⟨f.fileId, "Failed to get file token"⟩) ∧
      Accept.Moved r r' (outcome cr s r fileMap incoming).received
        (outcome cr s r fileMap incoming).errors (outcome cr s r fileMap incoming).responses ∧
      r'.phase = (outcome cr s r fileMap incoming).ending.phase := by
  obtain ⟨s', hfeed, hsender⟩ := Send.feed_stream (w := w) (c := cs) hs
  have hnone : Accept.OpenFile r none none := ⟨rfl, nofun⟩
  obtain ⟨ins, rest, r', hsplit, hfeed', hmoved, hphase⟩ := Accept.feed_transfer (w := w) (c := cr)
    (offered fileMap s.sending) hr hnone
  refine ⟨s', r', rest, ?_, hsender, hmoved, hphase⟩
  have h1 := Net.feedLeft (Q := Accept.acceptOffer w cr) hfeed ⟨r, []⟩ [] []
  have h2 := Net.feedRight (P := Send.sendOffer w cs) hfeed' ⟨s', []⟩ rest []
  rw [List.nil_append, hsplit] at h1
  exact h1.trans h2

/-- **Every run can be continued to the end of the receive loop**, and the loop ends in no other
    way. -/
theorem transfer_ends (hs : s.phase = .sending fileMap) (hr : r.phase = .files incoming none)
    {n : Peers} (hn : Leads w cs cr (atTransfer s r) n) :
    ∃ t, Leads w cs cr n t ∧ Accept.Moved r t.right.state
        (outcome cr s r fileMap incoming).received (outcome cr s r fileMap incoming).errors
        (outcome cr s r fileMap incoming).responses ∧
      t.right.state.phase = (outcome cr s r fileMap incoming).ending.phase := by
  obtain ⟨s', r', rest, hrun, _, hmoved, hphase⟩ := transfer_run w cs cr hs hr
  obtain ⟨t, hnt, ht⟩ := Net.join_right hrun (Accept.halted_ending hphase) hn
  refine ⟨t, hnt, ?_, ?_⟩
  · rw [ht]
    exact hmoved
  · rw [ht]
    exact hphase

/-- **The receive loop comes to its end with `Ok`, in every interleaving, or in none**, as the
    file-wise loop does. -/
theorem ends_ok_iff_finished (hs : s.phase = .sending fileMap)
    (hr : r.phase = .files incoming none) :
    (∀ n, Leads w cs cr (atTransfer s r) n →
      ∃ t, Leads w cs cr n t ∧ t.right.state.phase = .ended (.ok ())) ↔
    (outcome cr s r fileMap incoming).ending = .finished := by
  constructor
  · intro h
    obtain ⟨t, ht, hphase⟩ := h _ .refl
    obtain ⟨u, hu, _, hphase'⟩ := transfer_ends hs hr ht
    rw [Accept.ended_stays hu hphase, hphase] at hphase'
    exact (Accept.Ending.phase_inj (a := .finished) hphase').symm
  · intro h n hn
    obtain ⟨t, hnt, _, hphase⟩ := transfer_ends hs hr hn
    rw [h] at hphase
    exact ⟨t, hnt, hphase⟩

/-- A sender at its loop, with the tokens of two files. -/
def sampleTokens : LinkedMap String String := .ofList [("a", "token of a"), ("b", "token of b")]

def sendingState (files : List RTCFile) : Send.State :=
  { Send.initial [] files with phase := .sending sampleTokens }

/-- A receiver at its loop, that has made these tokens; its app reports a success for each file. -/
def sampleIncoming : Accept.Incoming := ⟨[sampleFile "a", sampleFile "b"], sampleTokens⟩

def receivingState : Accept.State :=
  { Accept.initial [] [some ⟨"a", true, none⟩, some ⟨"b", true, none⟩] with
    phase := .files sampleIncoming none }

/-! ## 5. Accepted files arrive whole -/

theorem refuses_eq_none {header : RTCSendFileHeaderRequest} :
    incoming.refuses header = none ↔ incoming.fileTokens.get? header.id = some header.token ∧
      ∃ f ∈ incoming.fileList, f.id = header.id := by
  unfold Accept.Incoming.refuses
  cases hget : incoming.fileTokens.get? header.id with
  | none => simp
  | some entry =>
      simp only [Option.some.injEq]
      by_cases he : header.token = entry
      · by_cases hf : ∃ f ∈ incoming.fileList, f.id = header.id
        · simp [he, hf]
        · simp [he, hf]
      · simp [he, Ne.symm he]

theorem forward_all {takes : Nat → Bool} {n : Nat} {blocks : List Bytes}
    (h : ∀ i < blocks.length, takes (n + i) = true) : Accept.forward takes n blocks = (blocks, true) := by
  induction blocks generalizing n with
  | nil => rfl
  | cons block blocks ih =>
      have h0 : takes n = true := h 0 (by simp)
      have hrest : ∀ i < blocks.length, takes (n + 1 + i) = true := fun i hi => by
        have hi' := h (i + 1) (by simpa using hi)
        rwa [show n + (i + 1) = n + 1 + i by omega] at hi'
      simp [Accept.forward, h0, ih hrest]

/-- The receive loop on files that are all accepted, with an app that takes and reports. -/
theorem transfer_accepted {takes : Nat → Bool} (htakes : ∀ n, takes n = true) (offers : List Offer) :
    ∀ (openFile : Option String) (results : List (Option RTCSendFileResponse)) (n : Nat),
    (∀ o ∈ offers, incoming.refuses o.header = none) →
    openFile.toList.length + offers.length ≤ results.length → (openFile = none → offers ≠ []) →
    ∃ responses, Accept.transfer incoming takes offers openFile results n =
      ⟨offers.map fun o => ⟨o.header.id, o.chunks⟩, [], responses, .finished⟩ := by
  induction offers with
  | nil =>
      intro openFile results n _ hlen hne
      cases openFile with
      | none => exact absurd rfl (hne rfl)
      | some id =>
          cases results with
          | nil => simp at hlen
          | cons result results => exact ⟨[Accept.fileResponse id result], rfl⟩
  | cons offer offers ih =>
      intro openFile results n haccepted hlen _
      obtain ⟨responses, results', hend, hlen'⟩ : ∃ responses results',
          Accept.endFile openFile results = some (responses, results') ∧
          offers.length + 1 ≤ results'.length := by
        cases openFile with
        | none => exact ⟨[], results, rfl, by simpa using hlen⟩
        | some id =>
            cases results with
            | nil => simp at hlen
            | cons result results =>
                exact ⟨_, results, rfl, by simp at hlen; omega⟩
      obtain ⟨more, hmore⟩ := ih (some offer.header.id) results' (n + offer.chunks.length)
        (fun o ho => haccepted o (List.mem_cons_of_mem _ ho)) (by simp; omega) nofun
      refine ⟨responses ++ more, ?_⟩
      have hhead : incoming.refuses offer.header = none := haccepted offer (List.mem_cons_self ..)
      simp [Accept.transfer, hend, hhead, forward_all (fun i _ => htakes (n + i)), hmore,
        Accept.Outcome.after]

/-- The sender has a token for each of its files. -/
theorem offered_all {files : List RTCFile}
    (h : ∀ file ∈ files, ∃ token, fileMap.get? file.fileId = some token) :
    (offered fileMap files).map (fun o => (⟨o.header.id, o.chunks⟩ : RTCFile)) =
      files.map fun file => ⟨file.fileId, processInChunks file.blocks⟩ := by
  induction files with
  | nil => rfl
  | cons file files ih =>
      obtain ⟨token, htoken⟩ := h file (List.mem_cons_self ..)
      have hrest := ih fun f hf => h f (List.mem_cons_of_mem _ hf)
      simp only [offered] at hrest
      simp [offered, htoken, hrest]

/-- **File stream integrity.** The receiver has the tokens of the files, lists them, takes every
    block and reports a result for each: in every interleaving the receive loop comes to its end,
    and then it has published exactly those files, in order, each with its own content, however
    the content was split into blocks, and has reported no error. -/
theorem file_stream_integrity (w : Wire) (cs : Send.Config) (cr : Accept.Config)
    (hs : s.phase = .sending fileMap) (hr : r.phase = .files incoming none) (hne : s.sending ≠ [])
    (hfiles : ∀ file ∈ s.sending, ∃ token, fileMap.get? file.fileId = some token ∧
      incoming.fileTokens.get? file.fileId = some token ∧
      ∃ f ∈ incoming.fileList, f.id = file.fileId)
    (htakes : ∀ n, cr.takes n = true) (hresults : s.sending.length ≤ r.results.length) :
    ∀ n, Leads w cs cr (atTransfer s r) n → ∃ t, Leads w cs cr n t ∧
      t.right.state.phase = .ended (.ok ()) ∧ t.right.state.errors = r.errors ∧
      ∃ received, t.right.state.receiving = r.receiving ++ received ∧
        received.map RTCFile.fileId = s.sending.map RTCFile.fileId ∧
        received.map (fun f => f.blocks.flatten) = s.sending.map fun f => f.blocks.flatten := by
  intro n hn
  have hoffered := offered_all fun file hf => (hfiles file hf).imp fun _ h => h.1
  have hlen : (offered fileMap s.sending).length = s.sending.length := by
    simpa using congrArg List.length hoffered
  have haccepted : ∀ o ∈ offered fileMap s.sending, incoming.refuses o.header = none := by
    intro o ho
    obtain ⟨file, hfile, hmap⟩ := List.mem_filterMap.mp ho
    obtain ⟨token, htoken, hsame, hlist⟩ := hfiles file hfile
    rw [htoken] at hmap
    obtain rfl := Option.some.inj hmap
    exact refuses_eq_none.mpr ⟨hsame, hlist⟩
  obtain ⟨responses, houtcome⟩ := transfer_accepted htakes (offered fileMap s.sending) none r.results
    r.forwarded haccepted (by simpa [hlen] using hresults) fun _ hnil => by
      rw [hnil] at hlen
      exact hne (List.length_eq_zero_iff.mp hlen.symm)
  obtain ⟨t, hnt, hmoved, hphase⟩ := transfer_ends hs hr hn
  rw [outcome, houtcome] at hmoved hphase
  refine ⟨t, hnt, hphase, by simpa using hmoved.errors, _, hmoved.receiving, ?_, ?_⟩
  · rw [hoffered, List.map_map]
    rfl
  · rw [hoffered, List.map_map]
    exact List.map_congr_left fun f _ => processInChunks_flatten f.blocks

/-- Two files: one in two blocks, one empty. -/
theorem file_stream_integrity_twoFiles :
    (sendingState [⟨"a", [[1, 2], [3]]⟩, ⟨"b", []⟩]).sending ≠ [] ∧
    ∀ n, Leads jsonWire (openSender none []) (openReceiver none .pending)
        (atTransfer (sendingState [⟨"a", [[1, 2], [3]]⟩, ⟨"b", []⟩]) receivingState) n →
      ∃ t, Leads jsonWire (openSender none []) (openReceiver none .pending) n t ∧
        t.right.state.phase = .ended (.ok ()) ∧ t.right.state.errors = receivingState.errors ∧
        ∃ received, t.right.state.receiving = receivingState.receiving ++ received ∧
          received.map RTCFile.fileId = ["a", "b"] ∧
          received.map (fun f => f.blocks.flatten) = [[1, 2, 3], []] := by
  refine ⟨by decide, file_stream_integrity (s := sendingState [⟨"a", [[1, 2], [3]]⟩, ⟨"b", []⟩])
    jsonWire _ _ rfl rfl (by decide) (fun file hfile => ?_) (fun _ => rfl) (by decide)⟩
  rcases List.mem_cons.mp hfile with rfl | hfile
  · exact ⟨"token of a", by decide, by decide, by decide⟩
  · obtain rfl := List.mem_singleton.mp hfile
    exact ⟨"token of b", by decide, by decide, by decide⟩

/-! ## 6. When the receive loop ends with `Ok` -/

/-- The files whose header is accepted. -/
def accepted (incoming : Accept.Incoming) (offers : List Offer) : List Offer :=
  offers.filter fun o => (incoming.refuses o.header).isNone

/-- The number of their chunks. -/
def acceptedChunks (incoming : Accept.Incoming) (offers : List Offer) : Nat :=
  ((accepted incoming offers).map fun o => o.chunks.length).sum

/-- Is a file open when the delimiter comes? -/
def endsOpen (incoming : Accept.Incoming) : Bool → List Offer → Bool
  | isOpen, [] => isOpen
  | _, o :: offers => endsOpen incoming (incoming.refuses o.header).isNone offers

theorem endsOpen_iff (incoming : Accept.Incoming) (offers : List Offer) (isOpen : Bool) :
    endsOpen incoming isOpen offers = true ↔
      (offers = [] ∧ isOpen = true) ∨
      ∃ o, offers.getLast? = some o ∧ incoming.refuses o.header = none := by
  induction offers generalizing isOpen with
  | nil => simp [endsOpen]
  | cons o offers ih =>
      rw [endsOpen, ih]
      cases offers with
      | nil => simp
      | cons o' offers => simp [List.getLast?_cons_cons]

theorem forward_snd {takes : Nat → Bool} {n : Nat} {blocks : List Bytes} :
    (Accept.forward takes n blocks).2 = true ↔ ∀ i < blocks.length, takes (n + i) = true := by
  refine ⟨fun h => ?_, fun h => by rw [forward_all h]⟩
  induction blocks generalizing n with
  | nil => simp
  | cons block blocks ih =>
      unfold Accept.forward at h
      split at h
      · rename_i h0
        intro i hi
        cases i with
        | zero => exact h0
        | succ i =>
            rw [show n + (i + 1) = n + 1 + i by omega]
            exact ih h i (by simpa using hi)
      · cases h

theorem endFile_length {openFile : Option String} {results results' : List (Option RTCSendFileResponse)}
    {responses : List RTCSendFileResponse}
    (h : Accept.endFile openFile results = some (responses, results')) :
    results.length = openFile.toList.length + results'.length := by
  cases openFile with
  | none =>
      obtain ⟨_, rfl⟩ := Prod.mk.inj (Option.some.inj h)
      simp
  | some id =>
      cases results with
      | nil => cases h
      | cons result results =>
          obtain ⟨_, rfl⟩ := Prod.mk.inj (Option.some.inj h)
          simp [Nat.add_comm]

/-- Taking the blocks of one file and then those of the rest. -/
theorem takes_add {takes : Nat → Bool} {n a b : Nat} :
    (∀ i < a + b, takes (n + i) = true) ↔
      (∀ i < a, takes (n + i) = true) ∧ ∀ i < b, takes (n + a + i) = true := by
  constructor
  · intro h
    refine ⟨fun i hi => h i (by omega), fun i hi => ?_⟩
    have := h (a + i) (by omega)
    rwa [← Nat.add_assoc] at this
  · rintro ⟨h1, h2⟩ i hi
    by_cases hia : i < a
    · exact h1 i hia
    · have := h2 (i - a) (by omega)
      rwa [show n + a + (i - a) = n + i by omega] at this

/-- **The file-wise loop finishes** exactly if a file is open at the end, every accepted file has
    its result, and every block of theirs was taken. -/
theorem transfer_finished_iff (incoming : Accept.Incoming) (takes : Nat → Bool)
    (offers : List Offer) :
    ∀ (openFile : Option String) (results : List (Option RTCSendFileResponse)) (n : Nat),
    (Accept.transfer incoming takes offers openFile results n).ending = .finished ↔
      endsOpen incoming openFile.isSome offers = true ∧
      openFile.toList.length + (accepted incoming offers).length ≤ results.length ∧
      ∀ i < acceptedChunks incoming offers, takes (n + i) = true := by
  induction offers with
  | nil =>
      intro openFile results n
      cases openFile with
      | none => simp [Accept.transfer, Accept.Outcome.stop, endsOpen]
      | some id =>
          cases results with
          | nil => simp [Accept.transfer, Accept.endFile, Accept.Outcome.stop]
          | cons result results =>
              simp [Accept.transfer, Accept.endFile, Accept.Outcome.stop, Accept.Outcome.after,
                endsOpen, accepted, acceptedChunks]
  | cons offer offers ih =>
      intro openFile results n
      cases hend : Accept.endFile openFile results with
      | none =>
          -- the app has not reported a result for the open file
          cases openFile with
          | none => cases hend
          | some id =>
              cases results with
              | cons result results => cases hend
              | nil => simp [Accept.transfer, hend, Accept.Outcome.stop]
      | some ended =>
          obtain ⟨responses, results'⟩ := ended
          rw [endFile_length hend, Nat.add_le_add_iff_left, endsOpen]
          cases hrefuses : incoming.refuses offer.header with
          | some text =>
              have hrest := ih none results' n
              simp only [Option.toList_none, List.length_nil, Nat.zero_add, Option.isSome_none]
                at hrest
              simpa [Accept.transfer, hend, hrefuses, Accept.Outcome.after, accepted, acceptedChunks]
                using hrest
          | none =>
              have hrest := ih (some offer.header.id) results' (n + offer.chunks.length)
              have hsum : acceptedChunks incoming (offer :: offers) =
                  offer.chunks.length + acceptedChunks incoming offers := by
                simp [acceptedChunks, accepted, hrefuses]
              have hcount : (accepted incoming (offer :: offers)).length =
                  1 + (accepted incoming offers).length := by
                simp [accepted, hrefuses, Nat.add_comm]
              rw [hsum, hcount, takes_add, ← forward_snd]
              cases hforward : Accept.forward takes n offer.chunks with
              | mk blocks taken =>
                  cases taken with
                  | true =>
                      simpa [Accept.transfer, hend, hrefuses, hforward, Accept.Outcome.after]
                        using hrest
                  | false =>
                      simp [Accept.transfer, hend, hrefuses, hforward, Accept.Outcome.after,
                        Accept.Outcome.stop]

/-- **Exactly when the receiver finishes cleanly**: a file was sent and the header of the last one
    is accepted, the app reports a result for each accepted file and takes its blocks. In every
    interleaving the receive loop then comes to its end with `Ok`; else in none. -/
theorem receive_ends_ok_iff (w : Wire) (cs : Send.Config) (cr : Accept.Config)
    (hs : s.phase = .sending fileMap) (hr : r.phase = .files incoming none) :
    (∀ n, Leads w cs cr (atTransfer s r) n →
      ∃ t, Leads w cs cr n t ∧ t.right.state.phase = .ended (.ok ())) ↔
    (∃ o, (offered fileMap s.sending).getLast? = some o ∧ incoming.refuses o.header = none) ∧
      (accepted incoming (offered fileMap s.sending)).length ≤ r.results.length ∧
      ∀ i < acceptedChunks incoming (offered fileMap s.sending), cr.takes (r.forwarded + i) = true := by
  have hfinished := transfer_finished_iff incoming cr.takes (offered fileMap s.sending) none
    r.results r.forwarded
  rw [endsOpen_iff] at hfinished
  simp only [Option.isSome_none, Bool.false_eq_true, and_false, false_or, Option.toList_none,
    List.length_nil, Nat.zero_add] at hfinished
  rw [← hfinished]
  exact ends_ok_iff_finished hs hr

/-- Two accepted files, both reported. -/
theorem receive_ends_ok_twoFiles :
    receivingState.phase = .files sampleIncoming none ∧
    ∀ n, Leads jsonWire (openSender none []) (openReceiver none .pending)
        (atTransfer (sendingState [⟨"a", []⟩, ⟨"b", []⟩]) receivingState) n →
      ∃ t, Leads jsonWire (openSender none []) (openReceiver none .pending) n t ∧
        t.right.state.phase = .ended (.ok ()) :=
  ⟨rfl, (receive_ends_ok_iff (s := sendingState [⟨"a", []⟩, ⟨"b", []⟩]) (r := receivingState)
    jsonWire _ _ rfl rfl).mpr (by decide)⟩

/-- **No file, and the receive loop fails**: it takes the delimiter for a header. -/
theorem receive_fails_without_files :
    ¬ ∀ n, Leads jsonWire (openSender none []) (openReceiver none .pending)
        (atTransfer (sendingState []) receivingState) n →
      ∃ t, Leads jsonWire (openSender none []) (openReceiver none .pending) n t ∧
        t.right.state.phase = .ended (.ok ()) := by
  have hs : (sendingState []).phase = .sending sampleTokens := rfl
  have hr : receivingState.phase = .files sampleIncoming none := rfl
  rw [ends_ok_iff_finished hs hr]
  decide

end Peers

end LocalSend.WebRtc
