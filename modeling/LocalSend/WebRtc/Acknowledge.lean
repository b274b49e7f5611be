/-
  File:      LocalSend/WebRtc/Acknowledge.lean
  Subject:   WHAT THE SENDER KNOWS WHEN IT RETURNS. After its last file `send_offer` takes one
             message and returns `Ok`, whatever that message says.

  * `Acknowledged` -- a response for each header sent, and each failure reported;
  * `sender_run` -- how the sender ends: with the first response, or not at all;
  * `sender_acknowledged_iff` -- exactly when `Ok` means that everything was acknowledged: one file
    was sent, and it was accepted, taken and reported as a success; or no file is answered, and the
    sender waits for ever.
-/
import LocalSend.WebRtc.Transfer
import Mathlib.Data.List.Perm.Subperm

namespace LocalSend.WebRtc

open Lib

variable {w : Wire} {cs : Send.Config} {cr : Accept.Config} {s : Send.State} {r : Accept.State}
  {fileMap : LinkedMap String String} {incoming : Accept.Incoming}

/-! ## 1. Acknowledgement -/

/-- The files whose header was sent. -/
def headersSent (sent : List Item) : List String :=
  sent.filterMap fun
    | .header h => some h.id
    | _ => none

/-- The responses received. -/
def responsesGot (got : List Item) : List RTCSendFileResponse :=
  got.filterMap fun
    | .fileResponse r => some r
    | _ => none

/-- **Acknowledged**: a response was received for every file whose header was sent, and every
    failure among them was reported to the app. -/
def Acknowledged (s : Send.State) : Prop :=
  (headersSent s.sent).Subperm ((responsesGot s.got).map RTCSendFileResponse.id) ∧
  ∀ r ∈ responsesGot s.got, r.success = false → ∃ e ∈ s.errors, e.fileId = r.id

/-- The sender at the start of its loop. -/
structure AtLoop (s : Send.State) (fileMap : LinkedMap String String) : Prop where
  phase : s.phase = .sending fileMap
  sent : headersSent s.sent = []
  got : responsesGot s.got = []
  errors : s.errors = []

/-- **`Ok` means acknowledged**, in every interleaving. -/
def OkAcknowledged (w : Wire) (cs : Send.Config) (cr : Accept.Config) (s : Send.State)
    (r : Accept.State) : Prop :=
  ∀ n, Leads w cs cr (atTransfer s r) n → n.left.state.phase = .ended (.ok ()) →
    Acknowledged n.left.state

/-! ## 2. How the sender ends -/

/-- The sender's state when it has ended, with the response it has taken. -/
structure SenderEnds (s : Send.State) (fileMap : LinkedMap String String)
    (response : RTCSendFileResponse) (s' : Send.State) : Prop where
  phase : s'.phase = .ended (.ok ())
  headers : headersSent s'.sent = (offered fileMap s.sending).map fun o => o.header.id
  got : responsesGot s'.got = [response]
  errors : ∀ e ∈ s'.errors, fileMap.get? e.fileId = none

theorem headersSent_stream (h : headersSent s.sent = []) (offers : List Offer) :
    headersSent (s.sent ++ offers.map (fun o => Item.header o.header) ++ [.delimiter]) =
      offers.map fun o => o.header.id := by
  unfold headersSent at h ⊢
  rw [List.filterMap_append, List.filterMap_append, h]
  simp

theorem skipped_errors (fileMap : LinkedMap String String) (files : List RTCFile) :
    ∀ e ∈ (files.filter fun f => (fileMap.get? f.fileId).isNone).map
      (fun f => (⟨f.fileId, "Failed to get file token"⟩ : RTCFileError)),
    fileMap.get? e.fileId = none := by
  intro e he
  obtain ⟨f, hf, rfl⟩ := List.mem_map.mp he
  simpa using (List.mem_filter.mp hf).2

/-- **How the sender ends**: with the first response, or, where the receiver sends none, not at
    all. -/
theorem sender_run (w : Wire) (cs : Send.Config) (cr : Accept.Config) (hs : AtLoop s fileMap)
    (hr : r.phase = .files incoming none) :
    (∃ response n, (outcome cr s r fileMap incoming).responses.head? = some response ∧
      Leads w cs cr (atTransfer s r) n ∧ SenderEnds s fileMap response n.left.state) ∨
    ((outcome cr s r fileMap incoming).responses = [] ∧
      ∀ n, Leads w cs cr (atTransfer s r) n → n.left.state.phase ≠ .ended (.ok ())) := by
  obtain ⟨s', r', rest, hrun, ⟨hphase, hgot, hsent, herrors⟩, _, hending⟩ :=
    transfer_run w cs cr hs.phase hr
  have hheaders : headersSent s'.sent = (offered fileMap s.sending).map fun o => o.header.id := by
    rw [hsent, headersSent_stream hs.sent]
  have hskipped : ∀ e ∈ s'.errors, fileMap.get? e.fileId = none := by
    rw [herrors, hs.errors, List.nil_append]
    exact skipped_errors fileMap s.sending
  have hreact : Send.react w cs s' = .recv (Send.onLastResponse w s') := by
    simp only [Send.react, hphase]
  cases hresponses : (outcome cr s r fileMap incoming).responses with
  | cons response more =>
      -- the first response is there to be taken
      have hfeed : (Send.sendOffer w cs).Feed ⟨s', []⟩ [Accept.responseMessage w response]
          ⟨((s'.heard (.fileResponse response)).goto (.ended (.ok ()))).state, []⟩ [] := by
        refine Process.feed_recv hreact ?_
        simp [Send.onLastResponse, Accept.responseMessage]
        rfl
      have hnext := Net.feedLeft (Q := Accept.acceptOffer w cr) hfeed ⟨r', []⟩
        (more.map (Accept.responseMessage w)) rest
      rw [hresponses] at hrun
      refine Or.inl ⟨response, _, rfl, hrun.trans hnext, ⟨rfl, hheaders, ?_, hskipped⟩⟩
      have hgot' := hs.got
      unfold responsesGot at hgot' ⊢
      simp [Send.State.goto, Send.State.heard, hgot, hgot', List.filterMap_append]
  | nil =>
      -- the sender reads, the receiver has stopped reading, and nothing is on its way
      rw [hresponses, List.map_nil] at hrun
      refine Or.inr ⟨rfl, fun n hn hended => ?_⟩
      have hhalted : (Accept.acceptOffer w cr).Halted ⟨r', []⟩ := Accept.halted_ending hending
      have hstuck : ∀ side, (network (Send.sendOffer w cs) (Accept.acceptOffer w cr)).step
          ⟨⟨s', []⟩, ⟨r', []⟩, rest, []⟩ side = none := by
        intro side
        cases side with
        | left => simp [network, Process.move, Send.sendOffer, Process.batched, hreact]
        | right => rcases hhalted with h | h <;> simp [network, Process.move, h]
      have hsame := Send.ended_stays (Net.reaches_stuck hrun hstuck hn) hended
      rw [← hsame] at hended
      cases hphase.symm.trans hended

/-! ## 3. The first response -/

/-- **The first accepted file is answered**: its blocks are taken, and the app reports on it. -/
def Answered (incoming : Accept.Incoming) (takes : Nat → Bool) (offers : List Offer)
    (results : List (Option RTCSendFileResponse)) (n : Nat) : Prop :=
  results ≠ [] ∧ ∃ o, (accepted incoming offers).head? = some o ∧
    ∀ i < o.chunks.length, takes (n + i) = true

/-- An open file is answered as soon as the app reports anything. -/
theorem transfer_open {takes : Nat → Bool} (offers : List Offer) (id : String)
    (results : List (Option RTCSendFileResponse)) (n : Nat) :
    (Accept.transfer incoming takes offers (some id) results n).responses = [] ↔ results = [] := by
  cases results with
  | nil => cases offers <;> simp [Accept.transfer, Accept.endFile, Accept.Outcome.stop]
  | cons result results =>
      refine iff_of_false ?_ (List.cons_ne_nil _ _)
      cases offers with
      | nil => simp [Accept.transfer, Accept.endFile, Accept.Outcome.after]
      | cons offer offers =>
          simp only [Accept.transfer, Accept.endFile]
          split
          · simp [Accept.Outcome.after]
          · split <;> simp [Accept.Outcome.after]

/-- **There is a response** exactly if the first accepted file is answered. -/
theorem transfer_responses_iff {takes : Nat → Bool} (offers : List Offer)
    (results : List (Option RTCSendFileResponse)) (n : Nat) :
    (Accept.transfer incoming takes offers none results n).responses = [] ↔
      ¬ Answered incoming takes offers results n := by
  unfold Answered
  induction offers with
  | nil => simp [Accept.transfer, Accept.Outcome.stop, accepted]
  | cons offer offers ih =>
      cases hrefuses : incoming.refuses offer.header with
      | some text =>
          simpa [Accept.transfer, Accept.endFile, hrefuses, Accept.Outcome.after, accepted] using ih
      | none =>
          have hhead : (accepted incoming (offer :: offers)).head? = some offer := by
            simp [accepted, hrefuses]
          rw [hhead]
          simp only [Option.some.injEq, exists_eq_left', ← forward_snd]
          cases hforward : Accept.forward takes n offer.chunks with
          | mk blocks taken =>
              cases taken with
              | true =>
                  simp [Accept.transfer, Accept.endFile, hrefuses, hforward, Accept.Outcome.after,
                    transfer_open]
              | false =>
                  simp [Accept.transfer, Accept.endFile, hrefuses, hforward, Accept.Outcome.after,
                    Accept.Outcome.stop]

/-- **One file, a success**: its header is accepted, its blocks are taken, and the app reports
    success. -/
def OneSuccess (incoming : Accept.Incoming) (takes : Nat → Bool) (offers : List Offer)
    (results : List (Option RTCSendFileResponse)) (n : Nat) : Prop :=
  ∃ o, offers = [o] ∧ incoming.refuses o.header = none ∧
    (∀ i < o.chunks.length, takes (n + i) = true) ∧
    ∃ result more, results = some result :: more ∧ result.success = true

theorem fileResponse_success {id : String} {result : Option RTCSendFileResponse} :
    (Accept.fileResponse id result).success = true ↔ ∃ r, result = some r ∧ r.success = true := by
  cases result with
  | none => simp [Accept.fileResponse, Accept.resultError]
  | some r => cases hr : r.success <;> simp [Accept.fileResponse, Accept.resultError, hr]

/-- The first response on a single file. -/
theorem transfer_one {takes : Nat → Bool} (o : Offer) (results : List (Option RTCSendFileResponse))
    (n : Nat) (response : RTCSendFileResponse) :
    (Accept.transfer incoming takes [o] none results n).responses.head? = some response ↔
      incoming.refuses o.header = none ∧ (∀ i < o.chunks.length, takes (n + i) = true) ∧
      ∃ result more, results = result :: more ∧
        response = Accept.fileResponse o.header.id result := by
  rw [← forward_snd]
  cases hrefuses : incoming.refuses o.header with
  | some text => simp [Accept.transfer, Accept.endFile, hrefuses, Accept.Outcome.after,
      Accept.Outcome.stop]
  | none =>
      cases hforward : Accept.forward takes n o.chunks with
      | mk blocks taken =>
          cases taken with
          | false => simp [Accept.transfer, Accept.endFile, hrefuses, hforward,
              Accept.Outcome.after, Accept.Outcome.stop]
          | true =>
              cases results with
              | nil => simp [Accept.transfer, Accept.endFile, hrefuses, hforward,
                  Accept.Outcome.after, Accept.Outcome.stop]
              | cons result more =>
                  simp [Accept.transfer, Accept.endFile, hrefuses, hforward,
                    Accept.Outcome.after, Accept.Outcome.stop, eq_comm]

/-! ## 4. When `Ok` means acknowledged -/

/-- The sender has a token for what it has offered. -/
theorem offered_token {files : List RTCFile} {o : Offer} (h : o ∈ offered fileMap files) :
    fileMap.get? o.header.id ≠ none := by
  obtain ⟨file, _, hmap⟩ := List.mem_filterMap.mp h
  obtain ⟨token, htoken, rfl⟩ := Option.map_eq_some_iff.mp hmap
  simp [htoken]

/-- **The sender that has ended is acknowledged** exactly if it has sent one file, with a
    success. -/
theorem acknowledged_iff {response : RTCSendFileResponse} {s' : Send.State}
    (hresponse : (outcome cr s r fileMap incoming).responses.head? = some response)
    (h : SenderEnds s fileMap response s') :
    Acknowledged s' ↔
      OneSuccess incoming cr.takes (offered fileMap s.sending) r.results r.forwarded := by
  unfold Acknowledged
  rw [h.headers, h.got]
  cases hoffers : offered fileMap s.sending with
  | nil =>
      rw [outcome, hoffers] at hresponse
      cases hresponse
  | cons o offers =>
      cases offers with
      | cons o' offers =>
          -- two files, one response
          constructor
          · intro h
            obtain ⟨hsub, _⟩ := h
            have hlen := hsub.length_le
            simp at hlen
          · intro h
            obtain ⟨o'', hone, _⟩ := h
            cases hone
      | nil =>
          rw [outcome, hoffers, transfer_one] at hresponse
          obtain ⟨hrefuses, htaken, result, more, hresults, rfl⟩ := hresponse
          have htoken : fileMap.get? o.header.id ≠ none := offered_token (by rw [hoffers]; simp)
          simp only [List.map_cons, List.map_nil, List.mem_singleton, forall_eq]
          constructor
          · intro h
            obtain ⟨_, hfailure⟩ := h
            cases hsuccess : (Accept.fileResponse o.header.id result).success with
            | true =>
                obtain ⟨res, rfl, hres⟩ := fileResponse_success.mp hsuccess
                exact ⟨o, rfl, hrefuses, htaken, res, more, hresults, hres⟩
            | false =>
                obtain ⟨e, he, hid⟩ := hfailure hsuccess
                have hid' : e.fileId = o.header.id := hid
                rw [← hid'] at htoken
                exact absurd (h.errors e he) htoken
          · intro h
            obtain ⟨o', hone, _, _, res, more', hresults', hres⟩ := h
            obtain ⟨rfl, _⟩ := List.cons.inj (hresults.symm.trans hresults')
            refine ⟨List.Subperm.refl _, fun hfailure => ?_⟩
            rw [fileResponse_success.mpr ⟨res, rfl, hres⟩] at hfailure
            cases hfailure

/-- One success answers the first accepted file. -/
theorem OneSuccess.answered {takes : Nat → Bool} {offers : List Offer}
    {results : List (Option RTCSendFileResponse)} {n : Nat}
    (h : OneSuccess incoming takes offers results n) : Answered incoming takes offers results n := by
  obtain ⟨o, rfl, hrefuses, htaken, result, more, rfl, _⟩ := h
  exact ⟨List.cons_ne_nil _ _, o, by simp [accepted, hrefuses], htaken⟩

/-- **Exactly when `Ok` means acknowledged**: the sender has sent exactly one header, whose file
    was accepted and taken and reported as a success; or no file is answered, and the sender waits
    for ever instead of returning. -/
theorem sender_acknowledged_iff (w : Wire) (cs : Send.Config) (cr : Accept.Config)
    (hs : AtLoop s fileMap) (hr : r.phase = .files incoming none) :
    OkAcknowledged w cs cr s r ↔
      OneSuccess incoming cr.takes (offered fileMap s.sending) r.results r.forwarded ∨
      ¬ Answered incoming cr.takes (offered fileMap s.sending) r.results r.forwarded := by
  rw [← transfer_responses_iff]
  rcases sender_run w cs cr hs hr with ⟨response, n, hresponse, hn, hends⟩ | ⟨hresponses, hnever⟩
  · have hsome : (outcome cr s r fileMap incoming).responses ≠ [] := fun hnil => by
      rw [hnil] at hresponse
      cases hresponse
    rw [outcome] at hsome
    simp only [hsome, or_false]
    rw [← acknowledged_iff hresponse hends]
    constructor
    · exact fun h => h n hn hends.phase
    · intro h n' hn' hended
      rw [Send.ended_unique hn' hended hn hends.phase]
      exact h
  · exact ⟨fun _ => Or.inr hresponses, fun _ n hn hended => absurd hended (hnever n hn)⟩

theorem atLoop_sendingState (files : List RTCFile) : AtLoop (sendingState files) sampleTokens :=
  ⟨rfl, rfl, rfl, rfl⟩

/-- One file, and its app reports a success; or a file that was not selected, and the sender
    waits. -/
theorem sender_acknowledged_oneFile :
    AtLoop (sendingState [⟨"a", []⟩]) sampleTokens ∧
    OkAcknowledged jsonWire (openSender none []) (openReceiver none .pending)
      (sendingState [⟨"a", []⟩]) receivingState ∧
    OkAcknowledged jsonWire (openSender none []) (openReceiver none .pending)
      (sendingState [⟨"z", []⟩]) receivingState := by
  have hr : receivingState.phase = .files sampleIncoming none := rfl
  refine ⟨atLoop_sendingState _, (sender_acknowledged_iff jsonWire _ _ (atLoop_sendingState _)
    hr).mpr (Or.inl ?_), (sender_acknowledged_iff jsonWire _ _ (atLoop_sendingState _)
    hr).mpr (Or.inr ?_)⟩
  · exact ⟨_, rfl, by decide, nofun, _, _, rfl, rfl⟩
  · intro h
    obtain ⟨_, o, ho, _⟩ := h
    cases ho

/-- **Two files, one response**: the sender returns `Ok` when it has the first. -/
theorem sender_unacknowledged :
    ¬ OkAcknowledged jsonWire (openSender none []) (openReceiver none .pending)
      (sendingState [⟨"a", []⟩, ⟨"b", []⟩]) receivingState := by
  intro h
  have hr : receivingState.phase = .files sampleIncoming none := rfl
  rcases sender_run jsonWire (openSender none []) (openReceiver none .pending)
    (atLoop_sendingState [⟨"a", []⟩, ⟨"b", []⟩]) hr with ⟨response, n, hresponse, hn, hends⟩ |
    ⟨hresponses, _⟩
  · obtain ⟨o, hone, _⟩ := (acknowledged_iff hresponse hends).mp (h n hn hends.phase)
    cases hone
  · cases hresponses

end LocalSend.WebRtc
