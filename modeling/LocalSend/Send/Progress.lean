/-
  File:      LocalSend/Send/Progress.lean
  Subject:   A SESSION DOES NOT GET STUCK ON ITS OWN. While a session waits or sends, its
             `startSession` call waits for the receiver, has a worker that can go on, or has an
             upload in flight.

  * `Outcome`, `submitted_outcome` -- where the answer to prepare-upload leads;
  * `pinEntered_view`, `handshake_step` -- the other steps before `startUpload`;
  * `View.Driven`, `driven_turn` -- **what keeps a session going after it**; `later_turn` -- what
    stays as it is then.
-/
import LocalSend.Send.Invariant

namespace LocalSend.SendSession

open Lib

variable {s t : State} {k : String} {v w : View} {e : Event} {n : TaskId}

/-! ## 1. The handshake -/

/-- The reply grants the files of `fileMap`, as the client of `target` reads it. -/
inductive Grants (target : Device) (x : SendSessionState) :
    Reply → Option String → LinkedMap String String → Prop where
  | v1 (statusCode : Nat) (fileMap : LinkedMap String String)
      (responseDto : Except String PrepareUploadResponseDto) (h : target.version = "1.0") :
      Grants target x (.response statusCode (.ok fileMap) responseDto) x.remoteSessionId fileMap
  | v2 (statusCode : Nat) (fileMap : Except String (LinkedMap String String))
      (dto : PrepareUploadResponseDto) (h : target.version ≠ "1.0") (hcode : statusCode ≠ 204) :
      Grants target x (.response statusCode fileMap (.ok dto)) (some dto.sessionId) dto.files

/-- **Where the answer to a prepare-upload request leads.** -/
inductive Outcome (v : View) (target : Device) (reply : Reply) (now : Int) : View → Prop where
  /-- the pin is asked for -/
  | asked (e : String) (h : reply = .statusCodeException 401 e) :
      Outcome v target reply now { v with flow := some .asking }
  /-- the flow ends: without a session, or with one that says why -/
  | ended (x : Option SendSessionState) (h : ∀ y, x = some y → ∃ old message status,
      v.session = some old ∧ y = { old with status := status, errorMessage := message } ∧
      isRefusal status = true) :
      Outcome v target reply now { v with session := x, flow := some .stopped }
  /-- `startUpload` -/
  | opened (x y : SendSessionState) (remote : Option String) (fileMap : LinkedMap String String)
      (hx : v.session = some x) (hgrants : Grants target x reply remote fileMap)
      (hne : fileMap.entries ≠ []) (hy : y = x.opened remote fileMap now) :
      Outcome v target reply now { v with
        session := some y
        flow := some (.sending y.files.values (List.replicate uploadIsolateCount .next)) }

section Submitted

variable {target : Device} {reply : Reply} {now : Int}

/-- A flow that ends with a refusal. -/
theorem outcome_refused (status : SessionStatus) (f : Option String → Option String)
    (hstatus : isRefusal status = true) :
    Outcome (s.view k) target reply now
      (((s.updateSession k fun x =>
        { x with status := status, errorMessage := f x.errorMessage }).setFlow k .stopped).view
          k) := by
  rw [view_setFlow_self, view_updateSession_self]
  refine .ended _ fun y hy => ?_
  obtain ⟨x, hx, rfl⟩ := Option.map_eq_some_iff.mp hy
  exact ⟨x, _, status, hx, rfl, hstatus⟩

theorem outcome_failed (error : String) :
    Outcome (s.view k) target reply now
      ((handleResult (submitFailed s k error).1 k (submitFailed s k error).2 now).view k) :=
  outcome_refused .finishedWithErrors (fun _ => some error) rfl

/-- `startUpload`, on a session whose `remoteSessionId` was set before. -/
theorem outcome_success {u : State} (f : Option String → Option String)
    (hview : u.view k = { s.view k with session := (s.view k).session.map fun x =>
      { x with remoteSessionId := f x.remoteSessionId } })
    (fileMap : LinkedMap String String) (hgrants : ∀ x, fileMap.entries ≠ [] →
      Grants target x reply (f x.remoteSessionId) fileMap) :
    Outcome (s.view k) target reply now ((startUpload u k fileMap now).view k) := by
  have hget : u.sessions.get? k = (s.view k).session.map fun x =>
      { x with remoteSessionId := f x.remoteSessionId } := congrArg View.session hview
  unfold startUpload
  cases hx : (s.view k).session with
  | none =>
      rw [hx] at hget hview
      simp only [hget, Option.map_none, view_setFlow_self, hview]
      exact .ended none fun y hy => by cases hy
  | some x =>
      rw [hx] at hget hview
      simp only [hget, Option.map_some]
      split
      · rw [view_setFlow_self, view_closeSession_self, hview]
        exact .ended none fun y hy => by cases hy
      · rename_i hne
        rw [view_setFlow_self, view_setSession_self, hview]
        exact .opened x _ (f x.remoteSessionId) fileMap hx (hgrants x hne) hne rfl

end Submitted

/-- **The answer to the request**, on the view of its session. -/
theorem submitted_outcome (s : State) (k : String) (target : Device) (reply : Reply) (now : Int) :
    Outcome (s.view k) target reply now
      ((handleResult (submitted s k target reply).1 k (submitted s k target reply).2 now).view
        k) := by
  have hrefused : ∀ status, isRefusal status = true → Outcome (s.view k) target reply now
      (((s.updateSession k fun x => { x with status := status }).setFlow k .stopped).view k) :=
    fun status hstatus => outcome_refused status id hstatus
  have hempty : Outcome (s.view k) target reply now ((startUpload s k .empty now).view k) :=
    outcome_success (f := id) (by simp) .empty fun x hne => absurd rfl hne
  unfold submitted
  cases reply with
  | response statusCode fileMap responseDto =>
      dsimp only
      split
      · rename_i hv1
        cases fileMap with
        | error e => exact outcome_failed e
        | ok fileMap =>
            exact outcome_success (f := id) (by simp) fileMap fun x _ => .v1 _ _ _ hv1
      · rename_i hv2
        split
        · exact hempty
        · rename_i hcode
          cases responseDto with
          | error e => exact outcome_failed e
          | ok dto =>
              exact outcome_success (f := fun _ => some dto.sessionId)
                (view_updateSession_self _) dto.files fun x _ => .v2 _ _ _ hv2 hcode
  | statusCodeException statusCode e =>
      dsimp only
      split
      · rename_i hcode
        subst hcode
        simp only [handleResult, view_setFlow_self]
        exact .asked e rfl
      · split
        · exact hrefused .declined rfl
        · split
          · exact hrefused .recipientBusy rfl
          · split
            · exact hrefused .tooManyAttempts rfl
            · exact outcome_failed e
  | exception e => exact outcome_failed e

/-- **The pin dialog is closed**, on the view of its session. -/
theorem pinEntered_view (s : State) (k : String) (pin : Option String) :
    (∃ x submission, (s.view k).session = some x ∧ submission.target = x.target ∧
      submission.files = x.files.entries.map (fun f => (f.1, f.2.file)) ∧
      (pinEntered s k pin).view k = { s.view k with flow := some (.submitting submission) }) ∨
    ∃ x, (pinEntered s k pin).view k = { s.view k with session := x, flow := some .stopped } ∧
      ∀ y, x = some y → ∃ old, (s.view k).session = some old ∧
        y = { old with status := .canceledBySender } := by
  unfold pinEntered
  cases pin with
  | none =>
      right
      rw [view_setFlow_self, view_updateSession_self]
      refine ⟨_, rfl, fun y hy => ?_⟩
      obtain ⟨x, hx, rfl⟩ := Option.map_eq_some_iff.mp hy
      exact ⟨x, hx, rfl⟩
  | some pin =>
      dsimp only [submitRequest]
      cases hx : s.sessions.get? k with
      | none =>
          right
          rw [view_setFlow_self]
          refine ⟨none, ?_, fun y hy => by cases hy⟩
          simp [State.view, hx]
      | some x =>
          left
          rw [view_setFlow_self]
          exact ⟨x, _, hx, rfl, rfl, rfl⟩

/-- The steps that start or move a handshake. -/
def Event.steers : Event → Bool
  | .startSession _ _ _ _ _ | .submitted _ _ _ | .pinEntered _ _ => true
  | _ => false

theorem flows_updateSession (s : State) (k : String) (f : SendSessionState → SendSessionState) :
    (s.updateSession k f).flows = s.flows := by
  unfold State.updateSession
  split <;> rfl

theorem flows_finish (s : State) (k : String) (now : Int) : (finish s k now).flows = s.flows := by
  unfold finish
  repeat' split
  all_goals rfl

/-- **The other steps leave a handshake where it is.** -/
theorem flow_handshake (hs : service.step s e = some t) (he : e.steers = false) {flow : Flow}
    (hflow : s.flows.get? k = some flow) (hhand : flow.isHandshake = true) :
    t.flows.get? k = some flow := by
  have hne : ∀ {j queue workers}, s.flows.get? j = some (.sending queue workers) → k ≠ j := by
    intro j queue workers hj hk
    rw [hk, hj] at hflow
    cases hflow
    cases hhand
  have hsent : ∀ j index file isRetry, (sendFile s j index file isRetry).1.flows = s.flows := by
    intro j index file isRetry
    unfold sendFile
    repeat' split
    all_goals rfl
  cases e with
  | work j index =>
      simp only [service, step] at hs
      split at hs
      · rename_i queue workers hj
        split at hs
        · cases hs
          unfold work
          split
          · rw [State.setFlow, LinkedMap.get?_insert_ne (hne hj), hflow]
          · rename_i file queue
            have hflows := hsent j index file false
            split
            · rename_i s1 hs1
              rw [hs1] at hflows
              rw [State.setFlow, LinkedMap.get?_insert_ne (hne hj), hflows, hflow]
            · rename_i s1 taskId hs1
              rw [hs1] at hflows
              rw [State.setFlow, LinkedMap.get?_insert_ne (hne hj), hflows, hflow]
        · cases hs
      · cases hs
  | uploadEnded id error now =>
      simp only [service, step] at hs
      split at hs
      · rename_i u _
        cases hs
        unfold uploadEnded
        dsimp only
        split
        · split
          · split
            · rw [flows_finish, flows_updateSession]
              exact hflow
            · rw [flows_updateSession]
              exact hflow
          · rw [flows_updateSession]
            exact hflow
        · unfold State.setWorker
          split
          · rename_i queue workers hj
            rw [flows_updateSession] at hj
            rw [State.setFlow, LinkedMap.get?_insert_ne (hne hj), flows_updateSession]
            exact hflow
          · rw [flows_updateSession]
            exact hflow
      · cases hs
  | loopEnded j now =>
      simp only [service, step] at hs
      split at hs
      · rename_i queue workers hj
        split at hs
        · cases hs
          rw [State.setFlow, LinkedMap.get?_insert_ne (hne hj), flows_finish, hflow]
        · cases hs
      · cases hs
  | retry j file =>
      have hflows : t.flows = s.flows := by
        simp only [service, step] at hs
        repeat' split at hs
        all_goals first
          | exact (congrArg State.flows (Option.some.inj hs)).symm.trans (hsent j 0 file true)
          | cases hs
      rw [hflows, hflow]
  | cancelSession j =>
      simp only [service, step, cancelSession] at hs
      split at hs
      · rename_i x hx
        simp only [hx] at hs
        cases hs
        exact hflow
      · cases hs
  | cancelSessionByReceiver j now =>
      simp only [service, step, cancelSessionByReceiver] at hs
      split at hs
      · rename_i x hx
        split at hs
        · simp only [hx] at hs
          cases hs
          exact hflow
        · cases hs
      · cases hs
  | closeSession _ | clearAllSessions =>
      cases hs
      exact hflow
  | setBackground j background =>
      cases hs
      rw [flows_updateSession, hflow]
  | startSession _ _ _ _ _ | submitted _ _ _ | pinEntered _ _ => cases he

/-- **During a handshake** the other steps can only close the session or put it in the
    background. -/
theorem handshake_turn (hS : v.Sound) (ht : Turn n k v e w) {flow : Flow}
    (hflow : v.flow = some flow) (hhand : flow.isHandshake = true) (hw : w.flow = some flow) :
    w.uploads = v.uploads ∧ ∀ y, w.session = some y →
      ∃ x b, v.session = some x ∧ y = { x with background := b } := by
  have hbegun := handshake_not_begun hhand
  have hfresh : ∀ x, v.session = some x → Fresh x flow := by
    intro x hx
    obtain ⟨fl, hfl, hfits⟩ := hS.fits x hx
    obtain rfl := Option.some.inj (hflow.symm.trans hfl)
    exact hfits.fresh hbegun
  have hsame : ∀ y, v.session = some y → ∃ x b, v.session = some x ∧ y = { x with background := b } :=
    fun y hy => ⟨y, y.background, hy, rfl⟩
  cases ht with
  | other => exact ⟨rfl, hsame⟩
  | created => cases hflow
  | passed => exact ⟨rfl, hsame⟩
  | refused | empty =>
      cases hw
      cases hhand
  | opened | left | skipped | sent | ended =>
      cases hw
      cases hhand
  | retried x flow ups file token hallowed htoken hfile hfailed =>
      have hqueue := ((hfresh x rfl).queued _ file hfile).1
      rw [hfailed] at hqueue
      cases hqueue
  | uploaded id error now x flow ups u hu =>
      obtain ⟨fl, hfl, hb⟩ := hS.loop.begun id u hu
      obtain rfl := Option.some.inj (hflow.symm.trans hfl)
      rw [hbegun] at hb
      cases hb
  | closed => exact ⟨rfl, fun y hy => by cases hy⟩
  | canceled now x flow ups hstatus => exact absurd hstatus (hfresh x rfl).status.2
  | background b x flow ups =>
      refine ⟨rfl, fun y hy => ?_⟩
      obtain rfl := Option.some.inj hy
      exact ⟨x, b, rfl, rfl⟩

/-! ## 2. After the handshake -/

/-- **A session that waits or sends is driven**: by a worker, or by an upload in flight. -/
structure View.Driven (v : View) : Prop where
  stopped : ∀ x, v.session = some x → v.flow = some .stopped → isRefusal x.status = true
  waiting : ∀ x flow, v.session = some x → v.flow = some flow → flow.isBegun = true →
    x.status ≠ .waiting
  worker : ∀ queue workers i tid, v.flow = some (.sending queue workers) →
    workers[i]? = some (.uploading tid) →
    ∃ u, v.uploads tid = some u ∧ u.isRetry = false ∧ u.action.isolateIndex = i
  finished : ∀ x, v.session = some x → v.flow = some .finished → x.status = .sending →
    ∃ tid u, v.uploads tid = some u

theorem driven_handshake {flow : Flow} (hflow : v.flow = some flow)
    (hhand : flow.isHandshake = true) : v.Driven where
  stopped x _ h := by
    obtain rfl := Option.some.inj (hflow.symm.trans h)
    cases hhand
  waiting x fl _ h hbegun := by
    obtain rfl := Option.some.inj (hflow.symm.trans h)
    rw [handshake_not_begun hhand] at hbegun
    cases hbegun
  worker queue workers i tid h := by
    obtain rfl := Option.some.inj (hflow.symm.trans h)
    cases hhand
  finished x _ h := by
    obtain rfl := Option.some.inj (hflow.symm.trans h)
    cases hhand

/-- A flow that ended with the handshake. -/
theorem driven_stopped (hflow : v.flow = some .stopped)
    (h : ∀ x, v.session = some x → isRefusal x.status = true) : v.Driven where
  stopped x hx _ := h x hx
  waiting x fl _ hfl hbegun := by
    obtain rfl := Option.some.inj (hflow.symm.trans hfl)
    cases hbegun
  worker queue workers i tid hfl := by
    cases hflow.symm.trans hfl
  finished x _ hfl := by
    cases hflow.symm.trans hfl

theorem driven_outcome {target : Device} {reply : Reply} {now : Int}
    (h : Outcome v target reply now w) : w.Driven := by
  cases h with
  | asked e h => exact driven_handshake rfl rfl
  | ended x h =>
      refine driven_stopped rfl fun y hy => ?_
      obtain ⟨_, _, status, _, rfl, hstatus⟩ := h y hy
      exact hstatus
  | opened x y remote fileMap hx hgrants hne hy =>
      refine ⟨fun _ _ h => (by cases h), fun z flow hz _ _ => ?_, fun queue workers i tid h hi => ?_,
        fun _ _ h => (by cases h)⟩
      · obtain rfl := Option.some.inj hz
        rw [hy]
        exact fun h => by cases h
      · cases h
        cases List.eq_of_mem_replicate (List.mem_of_getElem? hi)

/-- `_finish` leaves no session that is sending. -/
theorem finish_not_sending {x y : SendSessionState} {now : Int} (hy : x.finish now = some y) :
    y.status ≠ .sending ∧ (x.status ≠ .waiting → y.status ≠ .waiting) := by
  unfold SendSessionState.finish at hy
  split at hy
  · rename_i hstatus
    cases hy
    exact ⟨hstatus, id⟩
  · split at hy
    · cases hy
    · cases hy
      dsimp only
      split <;> exact ⟨fun h => (by cases h), fun _ h => by cases h⟩

/-- The status after an upload is the one before, or what `_finish` sets. -/
theorem afterUpload_status {x y : SendSessionState} {u : Upload} {id : TaskId}
    {error : Option String} {now : Int} (hy : x.afterUpload u id error now = some y)
    (hx : x.status ≠ .waiting) : y.status ≠ .waiting ∧ (y.status = .sending → u.isRetry = true →
      y.isFinishedOrError = false) := by
  unfold SendSessionState.afterUpload at hy
  dsimp only at hy
  split at hy
  · obtain ⟨hsending, hwaiting⟩ := finish_not_sending hy
    exact ⟨hwaiting hx, fun h => absurd h hsending⟩
  · rename_i hall
    cases hy
    refine ⟨hx, fun _ hretry => ?_⟩
    simpa [hretry] using hall

/-- The uploads in flight stay when one is added. -/
theorem update_new {ups : TaskId → Option Upload} (hn : ups n = none) (new : Upload)
    {tid : TaskId} {u : Upload} (hu : ups tid = some u) :
    Function.update ups n (some new) tid = some u := by
  rw [Function.update_of_ne]
  · exact hu
  · intro htid
    rw [htid, hn] at hu
    cases hu

/-- A worker that waits for another upload still does. -/
theorem worker_uploaded {flow : Flow} {ups : TaskId → Option Upload} {id : TaskId} {u : Upload}
    (h : ∀ queue workers i tid, some flow = some (.sending queue workers) →
      workers[i]? = some (.uploading tid) →
      ∃ u, ups tid = some u ∧ u.isRetry = false ∧ u.action.isolateIndex = i)
    (hu : ups id = some u) {queue : List SendingFile} {workers : List Worker}
    (hflow : Flow.afterUpload u flow = .sending queue workers) {i : Nat} {tid : TaskId}
    (hi : workers[i]? = some (.uploading tid)) :
    ∃ u', Function.update ups id none tid = some u' ∧ u'.isRetry = false ∧
      u'.action.isolateIndex = i := by
  have hkept : ∀ {q ws}, flow = .sending q ws → ws[i]? = some (.uploading tid) →
      (tid = id → u.isRetry = true ∨ u.action.isolateIndex ≠ i) →
      ∃ u', Function.update ups id none tid = some u' ∧ u'.isRetry = false ∧
        u'.action.isolateIndex = i := by
    intro q ws hq hws hother
    obtain ⟨u', hu', hretry, hindex⟩ := h q ws i tid (congrArg some hq) hws
    refine ⟨u', ?_, hretry, hindex⟩
    rw [Function.update_of_ne]
    · exact hu'
    · intro htid
      rw [htid, hu] at hu'
      obtain rfl := Option.some.inj hu'
      rcases hother htid with hretry' | hindex'
      · rw [hretry] at hretry'
        cases hretry'
      · exact hindex' hindex
  cases flow with
  | sending q ws =>
      unfold Flow.afterUpload at hflow
      dsimp only at hflow
      split at hflow
      · rename_i hretry
        cases hflow
        exact hkept rfl hi fun _ => Or.inl hretry
      · cases hflow
        rw [List.getElem?_set] at hi
        split at hi
        · split at hi <;> cases hi
        · rename_i hindex
          exact hkept rfl hi fun _ => Or.inr hindex
  | _ => cases hflow

theorem afterUpload_finished {flow : Flow} {u : Upload} (h : Flow.afterUpload u flow = .finished) :
    flow = .finished := by
  cases flow with
  | sending queue workers =>
      unfold Flow.afterUpload at h
      dsimp only at h
      split at h <;> cases h
  | finished => rfl
  | _ => cases h

/-- A sending session whose files are not all done has an upload in flight, once its queue is
    empty. -/
theorem Running.upload_of_open {x : SendSessionState} {queue : List SendingFile}
    {ups : TaskId → Option Upload} (h : Running x queue ups) (hqueue : queue = [])
    (hstatus : x.status = .sending) (hopen : x.isFinishedOrError = false) :
    ∃ tid u, ups tid = some u := by
  by_contra hnone
  have hall : x.isFinishedOrError = true := by
    refine isFinishedOrError_iff.mpr fun id f hf => ?_
    cases hfs : f.status with
    | queue =>
        obtain ⟨g, hg, _⟩ := h.queued hstatus id f hf hfs
        rw [hqueue] at hg
        cases hg
    | sending =>
        obtain ⟨tid, u, hu, _⟩ := h.sending id f hf hfs
        exact absurd ⟨tid, u, hu⟩ hnone
    | _ => rfl
  rw [hopen] at hall
  cases hall

theorem finish_remote {x y : SendSessionState} {now : Int} (hy : x.finish now = some y) :
    y.remoteSessionId = x.remoteSessionId := by
  unfold SendSessionState.finish at hy
  repeat' split at hy
  all_goals first | (cases hy; rfl) | cases hy

theorem afterUpload_remote {x y : SendSessionState} {u : Upload} {id : TaskId}
    {error : Option String} {now : Int} (hy : x.afterUpload u id error now = some y) :
    y.remoteSessionId = x.remoteSessionId := by
  unfold SendSessionState.afterUpload at hy
  dsimp only at hy
  split at hy
  · exact (finish_remote hy).trans rfl
  · cases hy
    rfl

/-- **What a turn after the handshake leaves**: where the flow stands, and whom the session
    belongs to. -/
theorem later_turn (ht : Turn n k v e w) {flow : Flow} (hflow : v.flow = some flow)
    (hhand : flow.isHandshake = false) :
    (∃ flow', w.flow = some flow' ∧ flow'.isHandshake = false ∧ flow'.isBegun = flow.isBegun) ∧
    ∀ y, w.session = some y → ∃ x, v.session = some x ∧ y.remoteSessionId = x.remoteSessionId := by
  have hsame : ∀ y, v.session = some y → ∃ x, v.session = some x ∧
      y.remoteSessionId = x.remoteSessionId := fun y hy => ⟨y, hy, rfl⟩
  cases ht with
  | other => exact ⟨⟨flow, hflow, hhand, rfl⟩, hsame⟩
  | created => cases hflow
  | passed _ _ _ _ _ h' | refused _ _ _ _ _ _ h' | empty _ _ _ _ h' =>
      cases hflow
      rw [hhand] at h'
      cases h'
  | opened =>
      cases hflow
      cases hhand
  | left | skipped =>
      cases hflow
      exact ⟨⟨_, rfl, rfl, rfl⟩, hsame⟩
  | sent index x ups file queue workers token hnext hallowed htoken =>
      cases hflow
      refine ⟨⟨_, rfl, rfl, rfl⟩, fun y hy => ?_⟩
      obtain rfl := Option.some.inj hy
      exact ⟨x, rfl, (dispatched_remote _ _ _ _).1⟩
  | retried x fl ups file token hallowed htoken hfile hfailed =>
      refine ⟨⟨flow, hflow, hhand, rfl⟩, fun y hy => ?_⟩
      obtain rfl := Option.some.inj hy
      exact ⟨x, rfl, (dispatched_remote _ _ _ _).1⟩
  | uploaded id error now x fl ups u hu =>
      obtain rfl : fl = some flow := hflow
      refine ⟨⟨_, rfl, ?_, (afterUpload_flow u flow).1⟩, fun y hy => ?_⟩
      · cases flow with
        | sending queue workers =>
            unfold Flow.afterUpload
            dsimp only
            split <;> rfl
        | _ => exact hhand
      · obtain ⟨z, rfl, hz⟩ := Option.bind_eq_some_iff.mp hy
        exact ⟨z, rfl, afterUpload_remote hz⟩
  | ended now x ups queue workers hall =>
      cases hflow
      refine ⟨⟨.finished, rfl, rfl, rfl⟩, fun y hy => ?_⟩
      obtain ⟨z, rfl, hz⟩ := Option.bind_eq_some_iff.mp hy
      exact ⟨z, rfl, finish_remote hz⟩
  | closed => exact ⟨⟨flow, hflow, hhand, rfl⟩, fun y hy => by cases hy⟩
  | canceled now x fl ups hstatus | background b x fl ups =>
      refine ⟨⟨flow, hflow, hhand, rfl⟩, fun y hy => ?_⟩
      obtain rfl := Option.some.inj hy
      exact ⟨x, rfl, rfl⟩

/-- **A turn after the handshake keeps a session driven**, and where it stands. -/
theorem driven_turn (hS : v.Sound) (h : v.Driven) (hn : v.uploads n = none)
    (ht : Turn n k v e w) {flow : Flow} (hflow : v.flow = some flow)
    (hhand : flow.isHandshake = false) : w.Driven := by
  have hwS : w.Sound := sound_turn hS hn ht
  cases ht with
  | other => exact h
  | created => cases hflow
  | passed _ _ _ _ _ h' | refused _ _ _ _ _ _ h' | empty _ _ _ _ h' =>
      cases hflow
      rw [hhand] at h'
      cases h'
  | opened =>
      cases hflow
      cases hhand
  | left index x ups workers hnext =>
      refine ⟨fun _ _ h => (by cases h), fun y fl hy hfl hb => ?_, fun queue ws i tid hfl hi => ?_,
        fun _ _ h => (by cases h)⟩
      · exact h.waiting y _ hy rfl rfl
      · cases hfl
        rw [List.getElem?_set] at hi
        split at hi
        · split at hi <;> cases hi
        · exact h.worker _ _ i tid rfl hi
  | skipped index x ups file queue workers hnext hsends =>
      refine ⟨fun _ _ h => (by cases h), fun y fl hy hfl hb => ?_, fun queue ws i tid hfl hi => ?_,
        fun _ _ h => (by cases h)⟩
      · exact h.waiting y _ hy rfl rfl
      · cases hfl
        exact h.worker _ _ i tid rfl hi
  | sent index x ups file queue workers token hnext hallowed htoken =>
      refine ⟨fun _ _ h => (by cases h), fun y fl hy hfl hb => ?_, fun queue ws i tid hfl hi => ?_,
        fun _ _ h => (by cases h)⟩
      · obtain rfl := Option.some.inj hy
        exact h.waiting x _ rfl rfl rfl
      · cases hfl
        rw [List.getElem?_set] at hi
        split at hi
        · rename_i hindex
          split at hi
          · cases hi
            exact ⟨_, Function.update_self .., rfl, hindex⟩
          · cases hi
        · obtain ⟨u, hu, hworker⟩ := h.worker _ _ i tid rfl hi
          exact ⟨u, update_new hn _ hu, hworker⟩
  | retried x fl ups file token hallowed htoken hfile hfailed =>
      refine ⟨fun y hy hfl => ?_, fun y flow' hy _ _ => ?_, fun queue ws i tid hfl hi => ?_,
        fun _ _ _ _ => ⟨n, _, Function.update_self ..⟩⟩
      · obtain ⟨fl', hfl', hfits⟩ := hS.fits x rfl
        obtain rfl := Option.some.inj (hfl.symm.trans hfl')
        have hqueue := ((hfits.fresh rfl).queued _ file hfile).1
        rw [hfailed] at hqueue
        cases hqueue
      · obtain rfl := Option.some.inj hy
        exact fun h => by cases h
      · obtain ⟨u, hu, hworker⟩ := h.worker queue ws i tid hfl hi
        exact ⟨u, update_new hn _ hu, hworker⟩
  | uploaded id error now x fl ups u hu =>
      obtain ⟨fl', hfl', hbegun⟩ := hS.loop.begun id u hu
      obtain rfl : flow = fl' := Option.some.inj (hflow.symm.trans hfl')
      obtain rfl : fl = some flow := hflow
      have hafter := (afterUpload_flow u flow).1.trans hbegun
      refine ⟨fun y _ hfl => ?_, fun y fl' hy _ _ => ?_, fun queue ws i tid hfl hi => ?_,
        fun y hy hfl hsending => ?_⟩
      · rw [Option.some.inj hfl] at hafter
        cases hafter
      · obtain ⟨z, rfl, hz⟩ := Option.bind_eq_some_iff.mp hy
        exact (afterUpload_status hz (h.waiting z flow rfl rfl hbegun)).1
      · exact worker_uploaded h.worker hu (Option.some.inj hfl) hi
      · obtain ⟨z, rfl, hz⟩ := Option.bind_eq_some_iff.mp hy
        obtain rfl : flow = .finished := afterUpload_finished (Option.some.inj hfl)
        have hretry : u.isRetry = true := by
          cases hretry : u.isRetry with
          | true => rfl
          | false =>
              obtain ⟨_, _, hloop, _⟩ := hS.loop.worker id u hu hretry
              cases hloop
        have hopen := (afterUpload_status hz (h.waiting z _ rfl rfl rfl)).2 hsending hretry
        obtain ⟨_, hfl', hfits⟩ := hwS.fits y hy
        cases hfl'
        exact (hfits.running rfl).upload_of_open rfl hsending hopen
  | ended now x ups queue workers hall =>
      refine ⟨fun _ _ h => (by cases h), fun y fl hy hfl hb => ?_, fun _ _ _ _ h => (by cases h),
        fun y hy _ hsending => ?_⟩
      · obtain ⟨z, rfl, hz⟩ := Option.bind_eq_some_iff.mp hy
        exact (finish_not_sending hz).2 (h.waiting z _ rfl rfl rfl)
      · obtain ⟨z, rfl, hz⟩ := Option.bind_eq_some_iff.mp hy
        exact absurd hsending (finish_not_sending hz).1
  | closed => exact ⟨fun _ h => (by cases h), fun _ _ h => (by cases h), h.worker, fun _ h => (by cases h)⟩
  | canceled now x fl ups hstatus =>
      refine ⟨fun y hy hfl => ?_, fun y _ hy _ _ => ?_, h.worker, fun y hy _ hsending => ?_⟩
      · have hrefusal := h.stopped x rfl hfl
        rw [hstatus] at hrefusal
        cases hrefusal
      · obtain rfl := Option.some.inj hy
        exact fun h => by cases h
      · obtain rfl := Option.some.inj hy
        cases hsending
  | background b x fl ups =>
      refine ⟨fun y hy hfl => ?_, fun y fl' hy hfl hb => ?_, h.worker, fun y hy hfl hsending => ?_⟩
      · obtain rfl := Option.some.inj hy
        exact h.stopped x rfl hfl
      · obtain rfl := Option.some.inj hy
        exact h.waiting x fl' rfl hfl hb
      · obtain rfl := Option.some.inj hy
        exact h.finished x rfl hfl hsending

/-! ## 3. The machine -/

/-- **A step that does not steer the handshake**: the session stays driven, the flow stays in the
    handshake or after it, and the session keeps its partner. -/
theorem unsteered_step (hS : Sound s) (hD : (s.view k).Driven)
    (hs : service.step s e = some t) (he : e.steers = false) {flow : Flow}
    (hflow : s.flows.get? k = some flow) :
    (t.view k).Driven ∧
    (∃ flow', t.flows.get? k = some flow' ∧
      (flow' = flow ∨ flow.isHandshake = false ∧ flow'.isHandshake = false)) ∧
    ∀ y, t.sessions.get? k = some y →
      ∃ x, s.sessions.get? k = some x ∧ y.remoteSessionId = x.remoteSessionId := by
  have hturn := step_turn hS.known hs k
  have hn := Sound.uploads_nextId hS.known k
  cases hhand : flow.isHandshake with
  | true =>
      have hflow' := flow_handshake hs he hflow hhand
      obtain ⟨_, hsession⟩ := handshake_turn (hS.sound k) hturn hflow hhand hflow'
      refine ⟨driven_handshake hflow' hhand, ⟨flow, hflow', Or.inl rfl⟩, fun y hy => ?_⟩
      obtain ⟨x, b, hx, rfl⟩ := hsession y hy
      exact ⟨x, hx, rfl⟩
  | false =>
      obtain ⟨⟨flow', hflow', hhand', _⟩, hsession⟩ := later_turn hturn hflow hhand
      exact ⟨driven_turn (hS.sound k) hD hn hturn hflow hhand,
        ⟨flow', hflow', Or.inr ⟨rfl, hhand'⟩⟩, hsession⟩

/-- `startSession`. -/
def Event.starts : Event → Bool
  | .startSession _ _ _ _ _ => true
  | _ => false

theorem starts_of_steers (he : e.steers = false) : e.starts = false := by
  cases e <;> first | rfl | cases he

/-- No step but the first brings a session. -/
theorem Turn.no_session (ht : Turn n k v e w) (he : e.starts = false)
    (h : v.session = none) : w.session = none := by
  cases ht with
  | created => cases he
  | other | passed | left | skipped => exact h
  | empty | closed => rfl
  | uploaded | ended =>
      cases h
      rfl
  | _ => cases h

/-- Another session that was never started is not started by such a step. -/
theorem blank_step (hS : Sound s) (hs : service.step s e = some t)
    (he : e.starts = false) (hblank : s.view k = .blank) : t.view k = .blank := by
  have hturn := step_turn hS.known hs k
  rw [hblank] at hturn
  rcases hturn.of_blank with h | ⟨⟨_, _, _, _, rfl⟩, _⟩
  · exact h
  · cases he

end LocalSend.SendSession
