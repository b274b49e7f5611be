/-
  File:      LocalSend/WebRtc/Framing.lean
  Subject:   CHUNKS ON THEIR WAY: how content is cut for the data channel, how a string is found
             again on the other side, and how a received file is collected for the app
             (`core/src/webrtc/peer.rs`, `rust/src/util/bytes.rs`).

  * `processInChunks` -- the two loops with the callback they call, which may fail and end them;
    `processInChunks_eq_feed` -- they put the chunks of `WebRtc.processInChunks` into it;
    **`processInChunks_chunks`** -- what the callback gets, for every way the content was split;
  * `sendStrings`, `receiveStrings` -- strings one after another, each with its delimiter;
    **`receiveStrings_sendStrings`** -- they are read as they were sent, and nothing else is;
  * `bufferReceiver` -- the blocks of a file, collected; **`bufferReceiver_blocks`**;
    `received_file` -- a file through both.
-/
import LocalSend.WebRtc.Messages

namespace LocalSend.WebRtc.Framing

open Lib.Buffering

variable {σ τ ε : Type}

/-! ## 1. The loops and their callback -/

/-- The inner loop of `process_in_chunks`: the channel as the calls hand it on, and what stays in
    the buffer. -/
def drain (callback : Sink σ τ ε Bytes) (s : σ) (dataChannel : τ) (buffer : Bytes) :
    Outcome σ ε Bytes (τ × Bytes) :=
  if chunkSize ≤ buffer.length then
    (call callback s dataChannel (buffer.take chunkSize)).bind fun s dataChannel =>
      drain callback s dataChannel (buffer.drop chunkSize)
  else .pure s (dataChannel, buffer)
termination_by buffer.length
decreasing_by
  simp only [List.length_drop]
  have : 0 < chunkSize := by decide
  omega

/-- The outer loop of `process_in_chunks`, from a buffer: blocks come in until the channel is
    closed, then the rest of the buffer goes out. -/
def processFrom (callback : Sink σ τ ε Bytes) (s : σ) (dataChannel : τ) (buffer : Bytes) :
    List Bytes → Outcome σ ε Bytes Unit
  | [] =>
    if buffer.isEmpty then .pure s ()
    else (call callback s dataChannel buffer).bind fun s _ => .pure s ()
  | data :: rx =>
    (drain callback s dataChannel (buffer ++ data)).bind fun s r =>
      processFrom callback s r.1 r.2 rx

/-- `process_in_chunks`. -/
def processInChunks (callback : Sink σ τ ε Bytes) (s : σ) (dataChannel : τ) (rx : List Bytes) :
    Outcome σ ε Bytes Unit :=
  processFrom callback s dataChannel [] rx

theorem drain_eq_feed (callback : Sink σ τ ε Bytes) (s : σ) (dataChannel : τ) (buffer : Bytes) :
    drain callback s dataChannel buffer =
      (feed callback s dataChannel (splitChunks buffer).1).bind fun s dataChannel =>
        .pure s (dataChannel, (splitChunks buffer).2) := by
  induction buffer using splitChunks.induct generalizing s dataChannel with
  | case1 buffer h ih =>
      rw [drain, if_pos h, splitChunks, if_pos h, feed, Outcome.bind_assoc]
      simp only [ih]
  | case2 buffer h =>
      rw [drain, if_neg h, splitChunks, if_neg h, feed, Outcome.pure_bind]

theorem processFrom_eq_feed (callback : Sink σ τ ε Bytes) (s : σ) (dataChannel : τ)
    (buffer : Bytes) (rx : List Bytes) :
    processFrom callback s dataChannel buffer rx =
      (feed callback s dataChannel (WebRtc.processFrom buffer rx)).bind fun s _ =>
        .pure s () := by
  induction rx generalizing s dataChannel buffer with
  | nil =>
      rw [processFrom, WebRtc.processFrom]
      split
      · rw [feed, Outcome.pure_bind]
      · rw [feed_singleton]
  | cons data rx ih =>
      rw [processFrom, WebRtc.processFrom, drain_eq_feed, feed_append, Outcome.bind_assoc,
        Outcome.bind_assoc]
      simp only [Outcome.pure_bind, ih]

/-- **The loops put the chunks into the callback**, one after another. -/
theorem processInChunks_eq_feed (callback : Sink σ τ ε Bytes) (s : σ) (dataChannel : τ)
    (rx : List Bytes) :
    processInChunks callback s dataChannel rx =
      (feed callback s dataChannel (WebRtc.processInChunks rx)).bind fun s _ => .pure s () :=
  processFrom_eq_feed callback s dataChannel [] rx

/-! ## 2. What the callback gets -/

section Callback

variable {callback : Sink σ τ ε Bytes} {s : σ} {dataChannel : τ} {rx rx' : List Bytes}

@[simp] theorem calls_processInChunks :
    (processInChunks callback s dataChannel rx).calls =
      (feed callback s dataChannel (WebRtc.processInChunks rx)).calls := by
  rw [processInChunks_eq_feed, Outcome.bind]
  split
  · rfl
  · exact List.append_nil _

/-- The error of the callback is the error of `process_in_chunks`. -/
theorem result_processInChunks {e : ε}
    (h : (feed callback s dataChannel (WebRtc.processInChunks rx)).result = .error e) :
    (processInChunks callback s dataChannel rx).result = .error e := by
  rw [processInChunks_eq_feed, Outcome.bind, h]

theorem result_processInChunks_ok {t : τ}
    (h : (feed callback s dataChannel (WebRtc.processInChunks rx)).result = .ok t) :
    (processInChunks callback s dataChannel rx).result = .ok () := by
  rw [processInChunks_eq_feed, Outcome.bind, h]
  rfl

/-- **The chunks are a matter of the content**, not of how it was split into blocks. -/
theorem chunks_congr (h : rx'.flatten = rx.flatten) :
    WebRtc.processInChunks rx' = WebRtc.processInChunks rx := by
  refine (processInChunks_chunked rx').eq_of_flatten_eq (processInChunks_chunked rx) ?_
  rw [processInChunks_flatten, processInChunks_flatten, h]

/-- **A callback that does not fail** is called with all chunks. -/
theorem called_processInChunks
    (hok : ∀ s dataChannel chunk, ∃ next, (callback s dataChannel chunk).2 = .ok next) :
    (processInChunks callback s dataChannel rx).called = WebRtc.processInChunks rx ∧
      (processInChunks callback s dataChannel rx).result = .ok () := by
  obtain ⟨t, hresult, hcalls⟩ := feed_ok hok s dataChannel (WebRtc.processInChunks rx)
  refine ⟨?_, result_processInChunks_ok hresult⟩
  rw [Outcome.called, calls_processInChunks, hcalls, List.map_map]
  exact List.map_id _

/-- **A callback that fails** at a chunk took those before it, and is not called again. -/
theorem failed_processInChunks {chunk : Bytes} {e : ε}
    (hfail : (chunk, some e) ∈ (processInChunks callback s dataChannel rx).calls) :
    ∃ post,
      WebRtc.processInChunks rx =
        (processInChunks callback s dataChannel rx).delivered ++ chunk :: post ∧
      (processInChunks callback s dataChannel rx).called =
        (processInChunks callback s dataChannel rx).delivered ++ [chunk] ∧
      (processInChunks callback s dataChannel rx).result = .error e := by
  rw [calls_processInChunks] at hfail
  rcases feed_cases callback s dataChannel (WebRtc.processInChunks rx) with
    ⟨t, -, hcalls⟩ | ⟨pre, chunk', post, e', heq, -, hresult, hcalls⟩
  · rw [hcalls] at hfail
    obtain ⟨_, _, h⟩ := List.mem_map.mp hfail
    cases h
  · have hlast : (chunk, some e) = (chunk', some e') := by
      rw [hcalls] at hfail
      rcases List.mem_append.mp hfail with h | h
      · obtain ⟨_, _, h⟩ := List.mem_map.mp h
        cases h
      · exact List.mem_singleton.mp h
    obtain ⟨rfl, he⟩ := Prod.mk.inj hlast
    obtain rfl := Option.some.inj he
    rw [← calls_processInChunks] at hcalls
    refine ⟨post, ?_, ?_, result_processInChunks hresult⟩
    · rw [delivered_of_calls hcalls, heq]
    · rw [delivered_of_calls hcalls, Outcome.called, hcalls, List.map_append, List.map_map]
      exact congrArg (· ++ [chunk]) (List.map_id pre)

end Callback

/-- **Chunking.** A callback that never fails gets chunks that are the content, all but the last of
    16 KiB and the last not empty and not longer; the chunks depend on the content alone. One that
    fails at a chunk took exactly the chunks before it, and its error is returned. -/
theorem processInChunks_chunks (callback : Sink σ τ ε Bytes) (s : σ) (dataChannel : τ)
    (rx : List Bytes) :
    let o := processInChunks callback s dataChannel rx
    let chunks := WebRtc.processInChunks rx
    chunks.flatten = rx.flatten ∧
    (∀ chunk ∈ chunks.dropLast, chunk.length = 16 * 1024) ∧
    (∀ chunk ∈ chunks.getLast?, chunk ≠ [] ∧ chunk.length ≤ 16 * 1024) ∧
    (∀ rx', rx'.flatten = rx.flatten → processInChunks callback s dataChannel rx' = o) ∧
    ((∀ s dataChannel chunk, ∃ next, (callback s dataChannel chunk).2 = .ok next) →
      o.called = chunks ∧ o.result = .ok ()) ∧
    (∀ chunk e, (chunk, some e) ∈ o.calls →
      (∃ post, chunks = o.delivered ++ chunk :: post) ∧ o.called = o.delivered ++ [chunk] ∧
        o.result = .error e) := by
  refine ⟨processInChunks_flatten rx, (processInChunks_chunked rx).front,
    (processInChunks_chunked rx).last, ?_, called_processInChunks, ?_⟩
  · intro rx' hflat
    rw [processInChunks_eq_feed, processInChunks_eq_feed, chunks_congr hflat]
  · intro chunk e hfail
    obtain ⟨post, heq, hcalled, hresult⟩ := failed_processInChunks hfail
    exact ⟨⟨post, heq⟩, hcalled, hresult⟩

/-- Two blocks and an empty one, for a callback that takes them and one that refuses them. -/
theorem processInChunks_chunks_short :
    ((processInChunks (fun (_ _ : Unit) _ => ((), (.ok () : Except String Unit))) () ()
      [[1], [], [2]]).called = [[1, 2]]) ∧
    (processInChunks (fun (_ _ : Unit) _ => ((), (.error "closed" : Except String Unit))) () ()
      [[1], [], [2]]).result = .error "closed" := by
  have hchunks : WebRtc.processInChunks [[1], [], [2]] = [[1, 2]] := by
    simp [WebRtc.processInChunks, WebRtc.processFrom, splitChunks, chunkSize]
  constructor
  · have h := processInChunks_chunks (fun (_ _ : Unit) _ => ((), (.ok () : Except String Unit)))
      () () [[1], [], [2]]
    rw [(h.2.2.2.2.1 fun _ _ _ => ⟨(), rfl⟩).1, hchunks]
  · have h := processInChunks_chunks
      (fun (_ _ : Unit) _ => ((), (.error "closed" : Except String Unit))) () () [[1], [], [2]]
    refine (h.2.2.2.2.2 [1, 2] "closed" ?_).2.2
    rw [calls_processInChunks, hchunks]
    exact List.mem_singleton_self _

/-! ## 3. Strings -/

/-- The UTF-8 bytes of a string: `Bytes::from(string)`. -/
def utf8 (string : String) : Bytes := string.toUTF8.data.toList

/-- `send_string_in_chunks`: the string is the one block. -/
def sendStringInChunks (callback : Sink σ τ ε Bytes) (s : σ) (dataChannel : τ) (string : String) :
    Outcome σ ε Bytes Unit :=
  processInChunks callback s dataChannel [utf8 string]

/-- The callback of all callers, on a channel that works: `data_channel.send(&chunk)`. Its state
    is what has been sent. -/
def sendChunk : Sink (List Message) Unit Error Bytes :=
  fun sent _ chunk => (sent ++ [binaryMessage chunk], .ok ())

/-- `send_delimiter`. -/
def sendDelimiter (sent : List Message) : List Message := sent ++ [delimiter]

/-- Strings sent one after another, each with its delimiter. -/
def sendStrings (sent : List Message) : List String → List Message
  | [] => sent
  | string :: strings =>
    sendStrings (sendDelimiter (sendStringInChunks sendChunk sent () string).state) strings

/-- `receive_string_from_chunks`: what it returns, and what it leaves unread. Where no message is
    left the channel is closed. -/
def receiveStringFromChunks (buffer : Bytes) : List Message → Bytes × List Message
  | [] => (buffer, [])
  | msg :: rx =>
    if msg.isString then (buffer, rx) else receiveStringFromChunks (buffer ++ msg.data) rx

/-- A number of strings read one after another. -/
def receiveStrings : Nat → List Message → List Bytes × List Message
  | 0, rx => ([], rx)
  | n + 1, rx =>
    let first := receiveStringFromChunks [] rx
    let others := receiveStrings n first.2
    (first.1 :: others.1, others.2)

theorem feed_sendChunk (sent : List Message) (chunks : List Bytes) :
    (feed sendChunk sent () chunks).state = sent ++ chunks.map binaryMessage := by
  induction chunks generalizing sent with
  | nil => exact (List.append_nil _).symm
  | cons chunk chunks ih =>
      have hcall : call sendChunk sent () chunk =
          ⟨[(chunk, none)], sent ++ [binaryMessage chunk], .ok ()⟩ := rfl
      simp only [feed, hcall, Outcome.bind, ih, List.map_cons, List.append_assoc,
        List.singleton_append]

/-- A string goes out as its framing. -/
theorem sendDelimiter_sendStringInChunks (sent : List Message) (string : String) :
    sendDelimiter (sendStringInChunks sendChunk sent () string).state =
      sent ++ stringInChunks (utf8 string) := by
  have htakes : ∀ sent dataChannel chunk, ∃ next, (sendChunk sent dataChannel chunk).2 = .ok next :=
    fun _ _ _ => ⟨(), rfl⟩
  obtain ⟨t, hresult, -⟩ := feed_ok htakes sent () (WebRtc.processInChunks [utf8 string])
  have hstate : (sendStringInChunks sendChunk sent () string).state =
      sent ++ (WebRtc.processInChunks [utf8 string]).map binaryMessage := by
    rw [sendStringInChunks, processInChunks_eq_feed, Outcome.bind, hresult]
    exact feed_sendChunk sent _
  rw [sendDelimiter, hstate, stringInChunks, List.append_assoc]

theorem sendStrings_eq (sent : List Message) (strings : List String) :
    sendStrings sent strings = sent ++ strings.flatMap fun s => stringInChunks (utf8 s) := by
  induction strings generalizing sent with
  | nil => exact (List.append_nil _).symm
  | cons string strings ih =>
      rw [sendStrings, ih, sendDelimiter_sendStringInChunks, List.flatMap_cons, List.append_assoc]

/-- No chunk is taken for the end of a string: a chunk is a binary message, whatever is in it. -/
theorem receiveStringFromChunks_chunks (buffer : Bytes) (chunks : List Bytes) (rx : List Message) :
    receiveStringFromChunks buffer (chunks.map binaryMessage ++ delimiter :: rx) =
      (buffer ++ chunks.flatten, rx) := by
  induction chunks generalizing buffer with
  | nil => simp [receiveStringFromChunks, delimiter]
  | cons chunk chunks ih =>
      have hmore : receiveStringFromChunks buffer
          ((chunk :: chunks).map binaryMessage ++ delimiter :: rx) =
          receiveStringFromChunks (buffer ++ chunk)
            (chunks.map binaryMessage ++ delimiter :: rx) := rfl
      rw [hmore, ih, List.flatten_cons, List.append_assoc]

theorem receiveStringFromChunks_string (string : Bytes) (rx : List Message) :
    receiveStringFromChunks [] (stringInChunks string ++ rx) = (string, rx) := by
  rw [stringInChunks, List.append_assoc, List.singleton_append, receiveStringFromChunks_chunks,
    processInChunks_flatten, List.flatten_singleton, List.nil_append]

/-- **String framing**: strings sent one after another, of any length, are read as their bytes, and
    what follows them is left unread. -/
theorem receiveStrings_sendStrings (strings : List String) (following : List Message) :
    receiveStrings strings.length (sendStrings [] strings ++ following) =
      (strings.map utf8, following) := by
  rw [sendStrings_eq, List.nil_append]
  induction strings with
  | nil => rfl
  | cons string strings ih =>
      have hfirst := receiveStringFromChunks_string (utf8 string)
        ((strings.flatMap fun s => stringInChunks (utf8 s)) ++ following)
      rw [List.flatMap_cons, List.append_assoc, List.length_cons, receiveStrings, hfirst]
      simp only [ih, List.map_cons]

/-- The reading loop is the loop body of the handshake, up to the message that ends the string. -/
theorem receiveStringFromChunks_eq (buffer : Bytes) (rx : List Message) :
    receiveStringFromChunks buffer rx =
      match WebRtc.receiveStringFromChunks buffer rx.head? with
      | .complete buffer => (buffer, rx.tail)
      | .more buffer => receiveStringFromChunks buffer rx.tail := by
  cases rx with
  | nil => rfl
  | cons msg rx =>
      rw [receiveStringFromChunks, List.head?_cons, WebRtc.receiveStringFromChunks]
      cases msg.isString with
      | true => rfl
      | false => rfl

/-- No message of the framing is empty, so none is lost on the way ("empty messages are not
    received by the other peer"). -/
theorem sendStrings_ne_nil (strings : List String) :
    ∀ msg ∈ sendStrings [] strings, msg.data ≠ [] := by
  intro msg hmsg
  rw [sendStrings_eq, List.nil_append] at hmsg
  obtain ⟨string, _, hmsg⟩ := List.mem_flatMap.mp hmsg
  exact stringInChunks_ne_nil _ msg hmsg

/-! ## 4. Files collected for the app -/

/-- `BUFFER_SIZE` of `buffer_receiver`: 1 MiB. -/
def bufferSize : Nat := 1024 * 1024

/-- The task of `buffer_receiver`, from a buffer: it goes out when it is full, and once more when
    the input is closed. A receiver that is gone ends the task. -/
def collect (send : Sink σ Unit ε Bytes) (s : σ) (buffer : Bytes) :
    List Bytes → Outcome σ ε Bytes Unit
  | [] => if buffer.isEmpty then .pure s () else call send s () buffer
  | data :: rxInput =>
    if bufferSize ≤ (buffer ++ data).length then
      (call send s () (buffer ++ data)).bind fun s _ => collect send s [] rxInput
    else collect send s (buffer ++ data) rxInput

/-- `buffer_receiver`: `send` is the channel to the receiver. -/
def bufferReceiver (send : Sink σ Unit ε Bytes) (s : σ) (rxInput : List Bytes) :
    Outcome σ ε Bytes Unit :=
  collect send s [] rxInput

/-- What one block makes leave the buffer. -/
def fill : Push UInt8 := fun buffer data =>
  if bufferSize ≤ (buffer ++ data).length then ([buffer ++ data], []) else ([], buffer ++ data)

theorem fill_flatten (buffer data : Bytes) :
    (fill buffer data).1.flatten ++ (fill buffer data).2 = buffer ++ data := by
  rw [fill]
  split
  · simp
  · rfl

theorem collect_eq_feed (send : Sink σ Unit ε Bytes) (s : σ) (buffer : Bytes)
    (rxInput : List Bytes) :
    collect send s buffer rxInput = feed send s () (blocks fill buffer rxInput) := by
  induction rxInput generalizing s buffer with
  | nil =>
      rw [collect, blocks, leftover]
      split
      · rfl
      · rw [feed_singleton]
  | cons data rxInput ih =>
      rw [collect, blocks, fill]
      split
      · simp only [List.singleton_append, feed, ih]
      · simp only [List.nil_append, ih]

/-- **What goes out**: the content, in blocks that reach 1 MiB with their last input block. -/
theorem blocks_fill (rxInput : List Bytes) :
    (blocks fill [] rxInput).flatten = rxInput.flatten ∧
    (∀ b ∈ blocks fill [] rxInput, b ≠ []) ∧
    (∀ b ∈ (blocks fill [] rxInput).dropLast, bufferSize ≤ b.length) ∧
    ∀ b ∈ blocks fill [] rxInput, ∃ data ∈ rxInput, b.length < bufferSize + data.length := by
  have hflat : (blocks fill [] rxInput).flatten = rxInput.flatten := by
    rw [blocks_flatten fill_flatten, List.nil_append]
  have hpush : ∀ buffer, ∀ data ∈ rxInput, buffer.length < bufferSize →
      (∀ b ∈ (fill buffer data).1, bufferSize ≤ b.length ∧
        ∃ data ∈ rxInput, b.length < bufferSize + data.length) ∧
        (fill buffer data).2.length < bufferSize := by
    intro buffer data hdata hbuffer
    rw [fill]
    split
    · rename_i hfull
      refine ⟨fun b hb => ?_, show ([] : Bytes).length < bufferSize by decide⟩
      obtain rfl := List.mem_singleton.mp hb
      refine ⟨hfull, data, hdata, ?_⟩
      rw [List.length_append]
      exact Nat.add_lt_add_right hbuffer _
    · rename_i hmore
      exact ⟨fun b hb => absurd hb List.not_mem_nil, Nat.not_le.mp hmore⟩
  obtain ⟨front, rest, heq, hfront, hrest⟩ :=
    blocks_eq (·.length < bufferSize) _ (show ([] : Bytes).length < bufferSize by decide) hpush
  have hlast : rest ≠ [] → ∃ data ∈ rxInput, rest.length < bufferSize + data.length := by
    intro hne
    -- something came in, or nothing would be left
    have hrx : rxInput ≠ [] := by
      intro hnil
      rw [heq, hnil, List.flatten_append, leftover_flatten] at hflat
      exact hne (List.append_eq_nil_iff.mp hflat).2
    obtain ⟨data, hdata⟩ := List.exists_mem_of_ne_nil _ hrx
    exact ⟨data, hdata, Nat.lt_add_right _ hrest⟩
  refine ⟨hflat, ?_, ?_, ?_⟩
  · intro b hb
    rw [heq] at hb
    rcases List.mem_append.mp hb with hb | hb
    · exact List.ne_nil_of_length_pos (Nat.lt_of_lt_of_le (by decide) (hfront b hb).1)
    · obtain ⟨rfl, hne⟩ := mem_leftover.mp hb
      exact hne
  · rw [heq]
    exact (front_and_last _ (fun _ => True) (fun b hb => (hfront b hb).1) (fun _ _ => trivial)
      fun _ => trivial).1
  · intro b hb
    rw [heq] at hb
    rcases List.mem_append.mp hb with hb | hb
    · exact (hfront b hb).2
    · obtain ⟨rfl, hne⟩ := mem_leftover.mp hb
      exact hlast hne

theorem delivered_bufferReceiver {send : Sink σ Unit ε Bytes}
    (hopen : ∀ s b, (send s () b).2 = .ok ()) (s : σ) (rxInput : List Bytes) :
    (bufferReceiver send s rxInput).delivered = blocks fill [] rxInput := by
  obtain ⟨t, -, hcalls⟩ := feed_ok (fun s _ b => ⟨(), hopen s b⟩) s () (blocks fill [] rxInput)
  rw [bufferReceiver, collect_eq_feed]
  exact delivered_of_ok hcalls

/-- **Receive buffering.** A receiver that stays open gets the content of the input, no block is
    empty, all but the last have 1 MiB or more, and none is longer than that by as much as an
    input block. -/
theorem bufferReceiver_blocks (send : Sink σ Unit ε Bytes)
    (hopen : ∀ s b, (send s () b).2 = .ok ()) (s : σ) (rxInput : List Bytes) :
    (bufferReceiver send s rxInput).delivered.flatten = rxInput.flatten ∧
    (∀ b ∈ (bufferReceiver send s rxInput).delivered, b ≠ []) ∧
    (∀ b ∈ (bufferReceiver send s rxInput).delivered.dropLast, 1024 * 1024 ≤ b.length) ∧
    ∀ b ∈ (bufferReceiver send s rxInput).delivered, ∃ data ∈ rxInput,
      b.length < 1024 * 1024 + data.length := by
  rw [delivered_bufferReceiver hopen]
  exact blocks_fill rxInput

theorem bufferReceiver_blocks_collected :
    (bufferReceiver (fun (taken : List Bytes) (_ : Unit) b => (taken ++ [b], Except.ok (ε := Unit) ()))
      [] [[1], [], [2, 3]]).delivered.flatten = [1, 2, 3] :=
  (bufferReceiver_blocks _ (fun _ _ => rfl) [] [[1], [], [2, 3]]).1

/-- A receiver that goes away has got the beginning of the content. -/
theorem bufferReceiver_prefix (send : Sink σ Unit ε Bytes) (s : σ) (rxInput : List Bytes) :
    (bufferReceiver send s rxInput).delivered.flatten <+: rxInput.flatten := by
  rw [bufferReceiver, collect_eq_feed, ← (blocks_fill rxInput).1]
  obtain ⟨others, hothers⟩ := delivered_feed_prefix send s () (blocks fill [] rxInput)
  refine ⟨others.flatten, ?_⟩
  rw [← List.flatten_append, hothers]

/-- **A file through both**: cut into chunks by one peer and collected by the other, it is the file
    that was given to the first, in blocks of less than 1 MiB and 16 KiB. -/
theorem received_file (send : Sink σ Unit ε Bytes) (hopen : ∀ s b, (send s () b).2 = .ok ())
    (s : σ) (file : RTCFile) :
    (bufferReceiver send s (WebRtc.processInChunks file.blocks)).delivered.flatten =
      file.blocks.flatten ∧
    ∀ b ∈ (bufferReceiver send s (WebRtc.processInChunks file.blocks)).delivered,
      b.length < bufferSize + chunkSize := by
  obtain ⟨hflat, -, -, hsize⟩ := blocks_fill (WebRtc.processInChunks file.blocks)
  rw [delivered_bufferReceiver hopen]
  refine ⟨by rw [hflat, processInChunks_flatten], fun b hb => ?_⟩
  obtain ⟨chunk, hchunk, hlt⟩ := hsize b hb
  have hle : chunk.length ≤ chunkSize := (processInChunks_chunked file.blocks).length_le hchunk
  exact Nat.lt_of_lt_of_le hlt (Nat.add_le_add_left hle _)

end LocalSend.WebRtc.Framing
