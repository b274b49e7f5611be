/-
  File:      LocalSend/Send/Distribution.lean
  Subject:   WHO SENDS WHAT. `_sendLoop` shares one queue among its workers, one for each upload
             isolate, however many there are.

  * `startUploadOn`, `serviceOn` -- the service on any number of isolates, read when the loop
    starts; `serviceOn_step` -- with two of them it is `service`;
  * `StepOn`, `stepOn_cases` -- what a step does beyond those of `service`;
  * `Distributed` -- what was dispatched, what is in the queue and what is in flight belong
    together; `distributed_turn`;
  * `Flow.remaining` -- the turns the workers have left; `loopStep_remaining`;
  * `send_loop` -- **every file with a token is sent once, the others never, one at a time on each
    isolate, and the loop ends with every file finished, failed or skipped**.
-/
import LocalSend.Send.Ownership

namespace LocalSend.SendSession

open Lib

/-! ## 1. Any number of isolates -/

/-- `startUpload` with as many upload isolates as there are now. -/
def startUploadOn (count : Nat) (s : State) (sessionId : String)
    (fileMap : LinkedMap String String) (now : Int) : State :=
  match s.sessions.get? sessionId with
  | none => s.setFlow sessionId .stopped
  | some session =>
    if fileMap.entries = [] then
      -- the receiver has nothing selected
      (s.closeSession sessionId).setFlow sessionId .stopped
    else
      let sendingFiles : LinkedMap String SendingFile :=
        .ofList (session.files.values.map fun file => (file.file.id, file.answered fileMap))
      (s.setSession sessionId { session with
        status := .sending
        files := sendingFiles
        startTime := some now }).setFlow sessionId
          (.sending sendingFiles.values (List.replicate count .next))

def handleResultOn (count : Nat) (s : State) (sessionId : String) (result : PrepareUploadResult)
    (now : Int) : State :=
  match result with
  | .success files => startUploadOn count s sessionId files now
  | _ => handleResult s sessionId result now

/-- A step, with the number of upload isolates at the time. -/
def stepOn (s : State) : Nat × Event → Option State
  | (count, .submitted sessionId reply now) =>
    match s.flows.get? sessionId with
    | some (.submitting submission) =>
      let (s1, result) := submitted s sessionId submission.target reply
      some (handleResultOn count s1 sessionId result now)
    | _ => none
  | (_, e) => step s e

/-- **The send side of the app on any number of upload isolates.** -/
def serviceOn : Machine State (Nat × Event) := ⟨stepOn⟩

variable {s t : State} {k j : String} {e : Event} {count : Nat}

/-- Without a session or a selection no worker is needed. -/
theorem startUploadOn_idle {fileMap : LinkedMap String String}
    (h : s.sessions.get? k = none ∨ fileMap.entries = []) (now : Int) :
    startUploadOn count s k fileMap now = startUpload s k fileMap now := by
  unfold startUploadOn startUpload
  rcases h with h | h
  · simp only [h]
  · cases s.sessions.get? k with
    | none => rfl
    | some x => simp only [h, if_true]

/-- **With its two isolates it is `service`.** -/
theorem serviceOn_step (s : State) (e : Event) :
    serviceOn.step s (uploadIsolateCount, e) = service.step s e := by
  cases e with
  | submitted k reply now =>
      have hresult : ∀ s1 result, handleResultOn uploadIsolateCount s1 k result now =
          handleResult s1 k result now := by
        intro s1 result
        cases result <;> rfl
      cases hflow : s.flows.get? k with
      | none => simp only [serviceOn, stepOn, service, step, hflow]
      | some flow =>
          cases flow with
          | submitting submission => simp only [serviceOn, stepOn, service, step, hflow, hresult]
          | _ => simp only [serviceOn, stepOn, service, step, hflow]
  | _ => rfl

/-- **What a step is**: one of `service`, or `startUpload` with its own number of workers. -/
inductive StepOn (count : Nat) (s : State) : Event → State → Prop where
  | usual (e : Event) (t : State) (h : service.step s e = some t) : StepOn count s e t
  | opened (k : String) (reply : Reply) (now : Int) (x : SendSessionState)
      (submission : Submission) (ups : TaskId → Option Upload) (remote : Option String)
      (fileMap : LinkedMap String String) (t : State)
      (hs : s.view k = ⟨some x, some (.submitting submission), ups⟩)
      (ht : t.view k = ⟨some (x.opened remote fileMap now),
        some (.sending (x.opened remote fileMap now).files.values (List.replicate count .next)),
        ups⟩)
      (hother : ∀ j, j ≠ k → t.view j = s.view j) (htasks : SameTasks s t) :
      StepOn count s (.submitted k reply now) t

/-- `submitRequest` gives tokens: the session only learns the receiver's id for it. -/
theorem submitted_success {target : Device} {reply : Reply} {fileMap : LinkedMap String String}
    (h : submitted s k target reply = (t, .success fileMap)) :
    ∃ f : Option String → Option String, t.view k = { s.view k with
      session := (s.view k).session.map fun x =>
        { x with remoteSessionId := f x.remoteSessionId } } := by
  have hview := submitted_self s k target reply
  rw [h] at hview
  generalize hw : t.view k = w at hview
  cases hview with
  | failure _ _ _ _ hfailure => cases hfailure
  | success f _ => exact ⟨f, rfl⟩

/-- **`startUpload` puts its workers to work.** -/
theorem startUploadOn_view {x : SendSessionState} {fileMap : LinkedMap String String}
    (hx : s.sessions.get? k = some x) (hne : fileMap.entries ≠ []) (now : Int) :
    (startUploadOn count s k fileMap now).view k =
      ⟨some (x.opened x.remoteSessionId fileMap now),
        some (.sending (x.opened x.remoteSessionId fileMap now).files.values
          (List.replicate count .next)), uploadsOf s.uploads k⟩ := by
  simp only [startUploadOn, hx, if_neg hne, view_setFlow_self, view_setSession_self]
  rfl

/-- The receiver has nothing selected. -/
theorem startUploadOn_empty {x : SendSessionState} {fileMap : LinkedMap String String}
    (hx : s.sessions.get? k = some x) (hempty : fileMap.entries = []) (now : Int) :
    (startUploadOn count s k fileMap now).view k =
      ⟨none, some .stopped, uploadsOf s.uploads k⟩ := by
  simp only [startUploadOn, hx, hempty, if_true, view_setFlow_self, view_closeSession_self]
  rfl

theorem startUploadOn_ne (h : j ≠ k) (fileMap : LinkedMap String String) (now : Int) :
    (startUploadOn count s k fileMap now).view j = s.view j := by
  unfold startUploadOn
  split
  · exact view_setFlow_ne _ h
  · split
    · rw [view_setFlow_ne _ h, view_closeSession_ne h]
    · rw [view_setFlow_ne _ h, view_setSession_ne _ h]

theorem startUploadOn_tasks (s : State) (k : String) (fileMap : LinkedMap String String)
    (now : Int) : SameTasks s (startUploadOn count s k fileMap now) := by
  unfold startUploadOn
  repeat' split
  all_goals exact ⟨rfl, rfl, rfl, rfl⟩

theorem stepOn_cases (hs : serviceOn.step s (count, e) = some t) : StepOn count s e t := by
  cases e with
  | submitted k reply now =>
      simp only [serviceOn, stepOn] at hs
      split at hs
      · rename_i submission hflow
        cases hs
        have hstep : service.step s (.submitted k reply now) =
            some (handleResult (submitted s k submission.target reply).1 k
              (submitted s k submission.target reply).2 now) := by
          simp only [service, step, hflow]
        have htasks := submitted_tasks s k submission.target reply
        have hother := fun j (h : j ≠ k) => submitted_ne s h submission.target reply
        cases hsub : submitted s k submission.target reply with
        | mk s1 result =>
            rw [hsub] at hstep htasks hother
            cases result with
            | success fileMap =>
                simp only [handleResult] at hstep
                simp only [handleResultOn]
                obtain ⟨f, hview⟩ := submitted_success hsub
                have hx1 : s1.sessions.get? k = (s.sessions.get? k).map fun x =>
                    { x with remoteSessionId := f x.remoteSessionId } := congrArg View.session hview
                cases hx : s.sessions.get? k with
                | none =>
                    rw [hx] at hx1
                    rw [startUploadOn_idle (Or.inl hx1)]
                    exact .usual _ _ hstep
                | some x =>
                    rw [hx] at hx1
                    by_cases hempty : fileMap.entries = []
                    · rw [startUploadOn_idle (Or.inr hempty)]
                      exact .usual _ _ hstep
                    · refine .opened k reply now x submission (uploadsOf s.uploads k)
                        (f x.remoteSessionId) fileMap _ ?_ ?_ (fun j hj => ?_) ?_
                      · rw [State.view, hx, hflow]
                      · rw [startUploadOn_view hx1 hempty]
                        exact congrArg (View.mk _ _) (congrArg View.uploads hview)
                      · rw [startUploadOn_ne hj]
                        exact hother j hj
                      · exact htasks.trans (startUploadOn_tasks s1 k fileMap now)
            | _ => exact .usual _ _ hstep
      · cases hs
  | _ => exact .usual _ _ hs

/-- Ids that were never given out have no view, on any number of isolates. -/
theorem known_stepOn (hK : Known s) (hs : StepOn count s e t) : Known t := by
  cases hs with
  | usual _ _ h => exact known_step hK h
  | opened k reply now x submission ups remote fileMap _ hs ht hother htasks =>
      have hflow : s.flows.get? k ≠ none := by
        intro hnone
        cases hnone.symm.trans (congrArg View.flow hs)
      have hopen : t.flows.get? k ≠ none := by
        intro hnone
        cases hnone.symm.trans (congrArg View.flow ht)
      refine ⟨fun j hj => ?_, fun j hj => ?_, fun id hid => ?_⟩
      · have hne : j ≠ k := fun heq => hopen (heq ▸ hj)
        rw [hother j hne]
        exact hK.blank j ((congrArg View.flow (hother j hne)).symm.trans hj)
      · have hnone := hK.uuid j (htasks.uuids ▸ hj)
        have hne : j ≠ k := fun heq => hflow (heq ▸ hnone)
        exact (congrArg View.flow (hother j hne)).trans hnone
      · rw [htasks.uploads]
        exact hK.taskId id (htasks.nextId ▸ hid)

/-! ## 2. What was dispatched and what is left -/

/-- The id of a file with its token. -/
def SendingFile.grant (file : SendingFile) : Option (String × String) :=
  file.token.map fun token => (file.file.id, token)

/-- The files of a session the receiver wants, each with its token. -/
def SendSessionState.granted (x : SendSessionState) (fileMap : LinkedMap String String) :
    List (String × String) :=
  x.files.values.filterMap fun file => (fileMap.get? file.file.id).map fun token =>
    (file.file.id, token)

def IsolateHttpUploadAction.grant (action : IsolateHttpUploadAction) : String × String :=
  (action.fileId, action.remoteFileToken)

/-- The uploads of a session that a step dispatches. -/
def uploadActions (k : String) (s : State) (e : Nat × Event) : List IsolateHttpUploadAction :=
  ((stepOn s e).bind fun t => uploadsOf t.uploads k s.nextId).toList.map (·.action)

/-- The session the user retries a file of. -/
def Event.retries : Event → Option String
  | .retry sessionId _ => some sessionId
  | _ => none

/-- The session is sending, and the user does not retry its files. -/
def undisturbed (k : String) (s : State) (e : Nat × Event) : Prop :=
  (s.sessions.get? k).map (·.status) = some .sending ∧ e.2.retries ≠ some k

instance (k : String) (s : State) (e : Nat × Event) : Decidable (undisturbed k s e) :=
  inferInstanceAs (Decidable (_ ∧ _))

/-- **What belongs together while a session is sending**: the uploads dispatched so far, the queue
    and the uploads in flight, for the session `x` and the tokens of `fileMap`. -/
structure Distributed (x : SendSessionState) (fileMap : LinkedMap String String) (count : Nat)
    (actions : List IsolateHttpUploadAction) (v : View) : Prop where
  split : ∃ flow, v.flow = some flow ∧ flow.isHandshake = false ∧
    actions.map (·.grant) ++ flow.queue.filterMap SendingFile.grant = x.granted fileMap
  count : ∀ queue workers, v.flow = some (.sending queue workers) → workers.length = count
  noRetry : ∀ id u, v.uploads id = some u → u.isRetry = false
  busy : ∀ queue workers, v.flow = some (.sending queue workers) → ∀ (index : Nat) (id : TaskId),
    workers[index]? = some (.uploading id) →
    ∃ u, v.uploads id = some u ∧ u.action.isolateIndex = index
  tokens : ∀ y, v.session = some y → ∀ id, (y.files.get? id).map (·.token) =
    (x.files.get? id).map fun file => fileMap.get? file.file.id

section Turns

variable {n : TaskId} {x : SendSessionState} {fileMap : LinkedMap String String}
  {actions : List IsolateHttpUploadAction} {v w : View}

theorem tokens_dispatched (y : SendSessionState) (isRetry : Bool) (fileId : String)
    (task : SendingTask) (id : String) :
    ((y.dispatched isRetry fileId task).files.get? id).map (·.token) =
      (y.files.get? id).map (·.token) := by
  rw [get?_dispatched, Option.map_map]
  congr 1
  funext f
  by_cases h : id = fileId <;> simp [h]

theorem tokens_finish {y z : SendSessionState} {now : Int} (h : y.finish now = some z) :
    z.files = y.files := by
  unfold SendSessionState.finish at h
  split at h
  · cases h
    rfl
  · split at h
    · cases h
    · cases h
      rfl

theorem tokens_afterUpload {y z : SendSessionState} {u : Upload} {id : TaskId}
    {error : Option String} {now : Int} (h : y.afterUpload u id error now = some z)
    (fileId : String) :
    (z.files.get? fileId).map (·.token) = (y.files.get? fileId).map (·.token) := by
  have huploaded : ((y.uploaded u.action.fileId (u.task id) error).files.get? fileId).map
      (·.token) = (y.files.get? fileId).map (·.token) := by
    rw [get?_uploaded, Option.map_map]
    congr 1
    funext f
    by_cases h : fileId = u.action.fileId <;> simp [h]
  unfold SendSessionState.afterUpload at h
  simp only at h
  split at h
  · rw [tokens_finish h]
    exact huploaded
  · cases h
    exact huploaded

/-- **What the receiver granted is what waits in the queue.** -/
theorem Fresh.granted {flow : Flow} (h : Fresh x flow) (remote : Option String) (now : Int) :
    (x.opened remote fileMap now).files.values.filterMap SendingFile.grant = x.granted fileMap := by
  rw [h.opened_files remote fileMap now, SendSessionState.granted]
  simp only [LinkedMap.values, LinkedMap.mapValues, List.map_map, List.filterMap_map]
  refine List.filterMap_congr fun f hf => ?_
  obtain ⟨id, file⟩ := f
  have htoken := (h.queued id file (LinkedMap.get?_of_mem hf)).2
  simp only [Function.comp_apply, SendingFile.grant, SendingFile.answered]
  cases hget : fileMap.get? file.file.id with
  | none => simp [htoken]
  | some token => rfl

/-- The receiver grants a file once. -/
theorem Fresh.granted_nodup {flow : Flow} (h : Fresh x flow) :
    ((x.granted fileMap).map Prod.fst).Nodup := by
  have hsub : ((x.granted fileMap).map Prod.fst).Sublist
      (x.files.values.map fun file => file.file.id) := by
    have heq : (x.granted fileMap).map Prod.fst = (x.files.values.filter fun file =>
        (fileMap.get? file.file.id).isSome).map fun file => file.file.id := by
      rw [SendSessionState.granted, List.map_filterMap, ← List.filterMap_eq_map,
        List.filterMap_filter]
      refine List.filterMap_congr fun file _ => ?_
      cases fileMap.get? file.file.id <;> rfl
    rw [heq]
    exact List.filter_sublist.map _
  refine List.Nodup.sublist hsub ?_
  rw [LinkedMap.map_values_eq_keys h.keyed]
  exact x.files.nodup

/-- **`startUpload` puts every file in the queue.** -/
theorem Fresh.distributed {flow : Flow} (h : Fresh x flow) (remote : Option String) (now : Int) :
    Distributed x fileMap count [] ⟨some (x.opened remote fileMap now),
      some (.sending (x.opened remote fileMap now).files.values (List.replicate count .next)),
      fun _ => none⟩ where
  split := ⟨_, rfl, rfl, h.granted remote now⟩
  count queue workers hflow := by
    cases hflow
    exact List.length_replicate
  noRetry _ _ hu := noUpload hu
  busy queue workers hflow index id hw := by
    cases hflow
    cases List.eq_of_mem_replicate (List.mem_of_getElem? hw)
  tokens y hy id := by
    obtain rfl := Option.some.inj hy
    rw [h.opened_files remote fileMap now, LinkedMap.get?_mapValues, Option.map_map]
    cases hf : x.files.get? id with
    | none => rfl
    | some file =>
        have htoken := (h.queued id file hf).2
        simp only [Option.map_some, Function.comp_apply, SendingFile.answered]
        cases hget : fileMap.get? file.file.id with
        | none => simp [htoken]
        | some token => rfl

/-- Another session starts to send. -/
theorem Distributed.ne_opening (h : Distributed x fileMap count actions (s.view k))
    {y : Option SendSessionState} {submission : Submission} {ups : TaskId → Option Upload}
    (hview : s.view j = ⟨y, some (.submitting submission), ups⟩) : k ≠ j := by
  intro heq
  obtain ⟨flow, hflow, hshake, _⟩ := h.split
  rw [heq, hview] at hflow
  obtain rfl := Option.some.inj hflow
  cases hshake

/-- The uploads in the view after a turn that dispatches nothing. -/
theorem Distributed.of_idle (h : Distributed x fileMap count actions w) (hn : w.uploads n = none) :
    Distributed x fileMap count (actions ++ (w.uploads n).toList.map (·.action)) w := by
  rw [hn]
  simpa using h

/-- A worker that moves on does not wait for an upload, and no other worker moved. -/
theorem Distributed.moved {y : Option SendSessionState} {queue queue' : List SendingFile}
    {workers : List Worker} {ups ups' : TaskId → Option Upload} {index : Nat} {worker : Worker}
    (h : Distributed x fileMap count actions ⟨y, some (.sending queue workers), ups⟩)
    (hindex : index < workers.length) (hworker : ∀ id, worker ≠ .uploading id)
    (hqueue : queue'.filterMap SendingFile.grant = queue.filterMap SendingFile.grant)
    (hups : ∀ id u, ups' id = some u → ups id = some u)
    (hkept : ∀ id u, ups id = some u → u.action.isolateIndex ≠ index → ups' id = some u) :
    Distributed x fileMap count actions
      ⟨y, some (.sending queue' (workers.set index worker)), ups'⟩ where
  split := by
    obtain ⟨flow, hflow, _, hsplit⟩ := h.split
    cases hflow
    exact ⟨_, rfl, rfl, by rw [Flow.queue, hqueue]; exact hsplit⟩
  count _ _ hflow := by
    cases hflow
    rw [List.length_set]
    exact h.count _ _ rfl
  noRetry id u hu := h.noRetry id u (hups id u hu)
  busy _ _ hflow index' id hid := by
    cases hflow
    have hne : index ≠ index' := by
      intro heq
      subst heq
      rw [List.getElem?_set_self hindex] at hid
      exact hworker id (Option.some.inj hid)
    rw [List.getElem?_set_ne hne] at hid
    obtain ⟨u, hu, heq⟩ := h.busy _ _ rfl index' id hid
    exact ⟨u, hkept id u hu (heq ▸ hne.symm), heq⟩
  tokens := h.tokens

/-- **A worker dispatches the next file.** -/
theorem Distributed.sent {y : SendSessionState} {file : SendingFile} {queue : List SendingFile}
    {workers : List Worker} {ups : TaskId → Option Upload} {index : Nat} {token : String}
    (h : Distributed x fileMap count actions ⟨some y, some (.sending (file :: queue) workers), ups⟩)
    (hindex : index < workers.length) (hn : ups n = none) (htoken : file.token = some token) :
    Distributed x fileMap count (actions ++ [y.uploadAction index file token])
      ⟨some (y.dispatched false file.file.id ⟨index, n⟩),
        some (.sending queue (workers.set index (.uploading n))),
        Function.update ups n (some ⟨k, false, y.uploadAction index file token⟩)⟩ where
  split := by
    obtain ⟨flow, hflow, _, hsplit⟩ := h.split
    cases hflow
    have hgrant : file.grant = some (file.file.id, token) := by
      rw [SendingFile.grant, htoken, Option.map_some]
    have haction : (y.uploadAction index file token).grant = (file.file.id, token) := rfl
    rw [Flow.queue, List.filterMap_cons_some hgrant] at hsplit
    refine ⟨_, rfl, rfl, ?_⟩
    simpa only [Flow.queue, List.map_cons, List.map_nil, List.map_append, List.append_assoc,
      List.cons_append, List.nil_append, haction] using hsplit
  count _ _ hflow := by
    cases hflow
    rw [List.length_set]
    exact h.count _ _ rfl
  noRetry id u hu := by
    dsimp only at hu
    by_cases hid : id = n
    · subst hid
      rw [Function.update_self] at hu
      obtain rfl := Option.some.inj hu
      rfl
    · rw [Function.update_of_ne hid] at hu
      exact h.noRetry id u hu
  busy _ _ hflow index' id hid := by
    cases hflow
    by_cases heq : index = index'
    · subst heq
      rw [List.getElem?_set_self hindex] at hid
      cases hid
      exact ⟨_, Function.update_self .., rfl⟩
    · rw [List.getElem?_set_ne heq] at hid
      obtain ⟨u, hu, hu'⟩ := h.busy _ _ rfl index' id hid
      have hold : id ≠ n := by
        intro heq
        cases (heq ▸ hu).symm.trans hn
      exact ⟨u, (Function.update_of_ne hold ..).trans hu, hu'⟩
  tokens z hz id := by
    obtain rfl := Option.some.inj hz
    rw [tokens_dispatched]
    exact h.tokens y rfl id

/-- **An upload is over**: its worker goes on. -/
theorem Distributed.uploaded {y : Option SendSessionState} {flow : Option Flow}
    {ups : TaskId → Option Upload} {id : TaskId} {u : Upload}
    (h : Distributed x fileMap count actions ⟨y, flow, ups⟩) (hcrew : Crew flow ups)
    (hu : ups id = some u) :
    Distributed x fileMap count actions
      ⟨y, flow.map (Flow.afterUpload u), Function.update ups id none⟩ := by
  have hretry : u.isRetry = false := h.noRetry id u hu
  obtain ⟨queue, workers, rfl, hw⟩ := hcrew.worker id u hu hretry
  simp only [Option.map_some, Flow.afterUpload, hretry, Bool.false_eq_true, if_false]
  refine h.moved (List.getElem?_eq_some_iff.mp hw).1 (fun _ h => by cases h) rfl
    (fun id' u' hu' => ?_) fun id' u' hu' hne => ?_
  · by_cases hid : id' = id
    · rw [hid, Function.update_self] at hu'
      cases hu'
    · rwa [Function.update_of_ne hid] at hu'
  · have hother : id' ≠ id := by
      intro heq
      obtain rfl := Option.some.inj ((heq ▸ hu').symm.trans hu)
      exact hne rfl
    exact (Function.update_of_ne hother ..).trans hu'

/-- The record of the session changes, its files keep their tokens. -/
theorem Distributed.of_tokens {y z : Option SendSessionState} {flow : Option Flow}
    {ups : TaskId → Option Upload} (h : Distributed x fileMap count actions ⟨y, flow, ups⟩)
    (htokens : ∀ z', z = some z' → ∃ y', y = some y' ∧ ∀ id,
      (z'.files.get? id).map (·.token) = (y'.files.get? id).map (·.token)) :
    Distributed x fileMap count actions ⟨z, flow, ups⟩ where
  split := h.split
  count := h.count
  noRetry := h.noRetry
  busy := h.busy
  tokens z' hz id := by
    obtain ⟨y', hy, heq⟩ := htokens z' hz
    rw [heq id]
    exact h.tokens y' hy id

/-- **Every turn of a sending session keeps them together.** -/
theorem distributed_turn (h : Distributed x fileMap count actions v) (hS : v.Steady)
    (hn : v.uploads n = none) (hsending : v.session.map (·.status) = some .sending)
    (hretry : e.retries ≠ some k) (ht : Turn n k v e w) :
    Distributed x fileMap count (actions ++ (w.uploads n).toList.map (·.action)) w := by
  obtain ⟨y, hy, hstatus⟩ := Option.map_eq_some_iff.mp hsending
  obtain ⟨flow, hflow, hshake, hsplit⟩ := h.split
  cases ht with
  | other => exact h.of_idle hn
  | created => cases hy
  | passed _ _ _ flow' _ hbefore | empty _ _ _ flow' hbefore | refused _ _ _ flow' _ _ hbefore =>
      obtain rfl := Option.some.inj hflow
      cases hshake.symm.trans hbefore
  | opened =>
      obtain rfl := Option.some.inj hflow
      cases hshake
  | left index x' ups workers hnext =>
      exact (h.moved (List.getElem?_eq_some_iff.mp hnext).1 (fun _ h => by cases h) rfl
        (fun _ _ hu => hu) fun _ _ hu _ => hu).of_idle hn
  | skipped index x' ups file queue workers hnext hsends =>
      cases hflow
      obtain rfl : x' = some y := hy
      -- a sending session sends every file that has a token
      have hnone : file.token = none := by
        cases htoken : file.token with
        | none => rfl
        | some token => simp [sends, htoken, hstatus, allowedStates] at hsends
      have hgrant : file.grant = none := by rw [SendingFile.grant, hnone, Option.map_none]
      refine Distributed.of_idle ⟨⟨_, rfl, rfl, ?_⟩, ?_, h.noRetry, ?_, h.tokens⟩ hn
      · simpa only [Flow.queue, List.filterMap_cons_none hgrant] using hsplit
      · intro queue' workers' hw
        cases hw
        exact h.count _ _ rfl
      · intro queue' workers' hw
        cases hw
        exact h.busy _ _ rfl
  | sent index x' ups file queue workers token hnext hallowed htoken =>
      have hsent := h.sent (k := k) (List.getElem?_eq_some_iff.mp hnext).1 hn htoken
      simpa only [Function.update_self, Option.toList_some, List.map_cons, List.map_nil] using hsent
  | retried => exact absurd rfl hretry
  | uploaded id error now x' flow' ups u hu =>
      have hidle : Function.update ups id none n = none := by
        by_cases hid : n = id
        · rw [hid, Function.update_self]
        · rw [Function.update_of_ne hid]
          exact hn
      refine ((h.uploaded hS.crew hu).of_tokens fun z hz => ?_).of_idle hidle
      obtain ⟨y', rfl, hy'⟩ := Option.bind_eq_some_iff.mp hz
      exact ⟨y', rfl, tokens_afterUpload hy'⟩
  | ended now x' ups queue workers hall =>
      obtain rfl : queue = [] := hS.crew.queue_empty hall
      cases hflow
      refine Distributed.of_idle ⟨⟨_, rfl, rfl, hsplit⟩, ?_, h.noRetry, ?_, ?_⟩ hn
      · intro queue' workers' hw
        cases hw
      · intro queue' workers' hw
        cases hw
      · intro z hz id
        obtain ⟨y', rfl, hy'⟩ := Option.bind_eq_some_iff.mp hz
        rw [tokens_finish hy']
        exact h.tokens y' rfl id
  | closed => exact (h.of_tokens fun z hz => by cases hz).of_idle hn
  | canceled now x' | background b x' =>
      refine (h.of_tokens fun z hz => ⟨x', rfl, fun id => ?_⟩).of_idle hn
      obtain rfl := Option.some.inj hz
      rfl

end Turns

/-! ## 3. The turns that are left -/

/-- How often a worker goes on before the next file. -/
def Worker.load : Worker → Nat
  | .next => 1
  | .uploading _ => 2
  | .done => 0

/-- The turns the workers have left, at most. -/
def Flow.remaining : Flow → Nat
  | .sending queue workers => 2 * queue.length + (workers.map Worker.load).foldr (· + ·) 0
  | _ => 0

def View.remaining (v : View) : Nat := v.flow.elim 0 Flow.remaining

/-- A worker of the session goes on, or an upload of it ends. -/
def loopStep (k : String) (s : State) (e : Nat × Event) : Bool :=
  match e.2 with
  | .work sessionId _ => sessionId = k
  | .uploadEnded taskId _ _ => (uploadsOf s.uploads k taskId).isSome
  | _ => false

section Remaining

variable {n : TaskId} {x : SendSessionState} {fileMap : LinkedMap String String}
  {actions : List IsolateHttpUploadAction} {v w : View}

theorem load_set {workers : List Worker} {index : Nat} {a : Worker}
    (h : workers[index]? = some a) (b : Worker) :
    ((workers.set index b).map Worker.load).foldr (· + ·) 0 + a.load =
      (workers.map Worker.load).foldr (· + ·) 0 + b.load := by
  induction workers generalizing index with
  | nil => cases h
  | cons c workers ih =>
      cases index with
      | zero =>
          obtain rfl : c = a := Option.some.inj h
          simp only [List.set_cons_zero, List.map_cons, List.foldr_cons]
          omega
      | succ index =>
          have hrest := @ih index h
          simp only [List.set_cons_succ, List.map_cons, List.foldr_cons]
          omega

theorem load_replicate (count : Nat) :
    ((List.replicate count Worker.next).map Worker.load).foldr (· + ·) 0 = count := by
  induction count with
  | zero => rfl
  | succ count ih =>
      simp only [List.replicate_succ, List.map_cons, List.foldr_cons, ih, Worker.load]
      omega

/-- An upload that ends is one turn less. -/
theorem uploaded_remaining (h : Distributed x fileMap count actions v) (hS : v.Steady)
    {id : TaskId} {u : Upload} (hu : v.uploads id = some u) :
    (v.flow.map (Flow.afterUpload u)).elim 0 Flow.remaining < v.remaining := by
  have hretry := h.noRetry id u hu
  obtain ⟨queue, workers, hflow, hw⟩ := hS.crew.worker id u hu hretry
  have hload := load_set hw .next
  simp only [Worker.load] at hload
  simp only [View.remaining, hflow, Option.map_some, Option.elim_some, Flow.afterUpload, hretry,
    Bool.false_eq_true, if_false, Flow.remaining]
  omega

/-- No turn of a loop leaves more to do. -/
theorem turn_remaining (h : Distributed x fileMap count actions v) (hS : v.Steady)
    (ht : Turn n k v e w) : w.remaining ≤ v.remaining := by
  obtain ⟨flow, hflow, hshake, _⟩ := h.split
  cases ht with
  | other | closed | canceled | background | retried => exact Nat.le_refl _
  | created => cases hflow
  | passed _ _ _ _ _ hbefore | empty _ _ _ _ hbefore | refused _ _ _ _ _ _ hbefore =>
      obtain rfl := Option.some.inj hflow
      cases hshake.symm.trans hbefore
  | opened =>
      obtain rfl := Option.some.inj hflow
      cases hshake
  | left index x ups workers hnext =>
      have hload := load_set hnext .done
      simp only [Worker.load] at hload
      simp only [View.remaining, Option.elim_some, Flow.remaining]
      omega
  | skipped index x ups file queue workers =>
      simp only [View.remaining, Option.elim_some, Flow.remaining, List.length_cons]
      omega
  | sent index x ups file queue workers token hnext =>
      have hload := load_set hnext (.uploading n)
      simp only [Worker.load] at hload
      simp only [View.remaining, Option.elim_some, Flow.remaining, List.length_cons]
      omega
  | uploaded id error now x flow' ups u hu => exact Nat.le_of_lt (uploaded_remaining h hS hu)
  | ended => exact Nat.zero_le _

/-- **A turn of a worker is one turn less.** -/
theorem work_remaining {index : Nat} (hs : service.step s (.work k index) = some t) :
    (t.view k).remaining < (s.view k).remaining := by
  simp only [service, step] at hs
  split at hs
  · rename_i queue workers hflow
    split at hs
    · rename_i hnext
      cases hs
      have hbefore : (s.view k).flow = some (.sending queue workers) := hflow
      rw [View.remaining, View.remaining, hbefore]
      cases queue with
      | nil =>
          have hload := load_set hnext .done
          simp only [Worker.load] at hload
          simp only [work, view_setFlow_self, Option.elim_some, Flow.remaining]
          omega
      | cons file queue =>
          rcases sendFile_cases s k index file false with ⟨_, heq⟩ | ⟨token, x, _, _, _, heq⟩
          · simp only [work, heq, view_setFlow_self, Option.elim_some, Flow.remaining,
              List.length_cons]
            omega
          · have hload := load_set hnext (.uploading s.nextId)
            simp only [Worker.load] at hload
            simp only [work, heq, view_setFlow_self, Option.elim_some, Flow.remaining,
              List.length_cons]
            omega
    · cases hs
  · cases hs

/-- **A step of the loop is one turn less**, and no other step is one more. -/
theorem step_remaining (hK : Known s) (h : Distributed x fileMap count actions (s.view k))
    (hS : (s.view k).Steady) {label : Nat × Event} (hs : serviceOn.step s label = some t) :
    (t.view k).remaining + (if loopStep k s label then 1 else 0) ≤ (s.view k).remaining := by
  obtain ⟨c, e⟩ := label
  cases stepOn_cases hs with
  | opened j reply now y submission ups remote fileMap _ hview ht hother htasks =>
      rw [hother k (h.ne_opening hview)]
      exact Nat.le_refl _
  | usual _ _ hstep =>
      have hle := turn_remaining h hS (step_turn hK hstep k)
      cases hloop : loopStep k s (c, e) with
      | false => simpa using hle
      | true =>
          simp only [if_true]
          cases e with
          | work j index =>
              obtain rfl : j = k := by simpa [loopStep] using hloop
              exact work_remaining hstep
          | uploadEnded id error now =>
              obtain ⟨u, hu⟩ := Option.isSome_iff_exists.mp hloop
              obtain ⟨hmem, rfl⟩ := uploadsOf_eq_some.mp hu
              have hview : (s.view u.sessionId).uploads id = some u := hu
              have hlt := uploaded_remaining h hS hview
              simp only [service, step, hmem, Option.some.injEq] at hstep
              subst hstep
              rw [View.remaining, view_uploadEnded_self]
              exact hlt
          | _ => cases hloop

end Remaining

/-! ## 4. Every run of the loop -/

section Runs

variable {x : SendSessionState} {fileMap : LinkedMap String String}
  {actions : List IsolateHttpUploadAction}

/-- The invariant of the loop of one session, in the whole service. -/
structure InLoop (k : String) (x : SendSessionState) (fileMap : LinkedMap String String)
    (count : Nat) (actions : List IsolateHttpUploadAction) (s : State) : Prop where
  known : Known s
  steady : (s.view k).Steady
  distributed : Distributed x fileMap count actions (s.view k)

theorem uploadActions_eq {label : Nat × Event} (hs : serviceOn.step s label = some t) :
    uploadActions k s label = ((t.view k).uploads s.nextId).toList.map (·.action) := by
  have hstep : stepOn s label = some t := hs
  rw [uploadActions, hstep, Option.bind_some]
  rfl

theorem inLoop_step (h : InLoop k x fileMap count actions s) {label : Nat × Event}
    (hg : undisturbed k s label) (hs : serviceOn.step s label = some t) :
    InLoop k x fileMap count (actions ++ uploadActions k s label) t := by
  obtain ⟨c, e⟩ := label
  have hcases := stepOn_cases hs
  have hidle := Sound.uploads_nextId h.known k
  refine ⟨known_stepOn h.known hcases, ?_, ?_⟩
  · cases hcases with
    | usual _ _ hstep => exact steady_turn h.steady hidle (step_turn h.known hstep k)
    | opened j reply now y submission ups remote fm _ hview ht hother htasks =>
        rw [hother k (h.distributed.ne_opening hview)]
        exact h.steady
  · rw [uploadActions_eq hs]
    cases hcases with
    | usual _ _ hstep =>
        exact distributed_turn h.distributed h.steady hidle hg.1 hg.2 (step_turn h.known hstep k)
    | opened j reply now y submission ups remote fm _ hview ht hother htasks =>
        rw [hother k (h.distributed.ne_opening hview)]
        exact h.distributed.of_idle hidle

theorem inLoop_run {fs : List (Nat × Event)} (h : InLoop k x fileMap count [] s)
    (hr : serviceOn.Run (undisturbed k) s fs t) :
    InLoop k x fileMap count (serviceOn.trace (uploadActions k) s fs) t :=
  hr.shownInvariant (I := fun actions t => InLoop k x fileMap count actions t) h
    fun _ _ _ _ hI hg hs => inLoop_step hI hg hs

/-- **The loop takes a bounded number of turns.** -/
theorem loop_count {fs : List (Nat × Event)} (h : InLoop k x fileMap count [] s)
    (hr : serviceOn.Run (undisturbed k) s fs t) :
    serviceOn.count (loopStep k) s fs + (t.view k).remaining ≤ (s.view k).remaining := by
  induction hr with
  | start => exact Nat.le_of_eq (Nat.zero_add _)
  | step es label t u hr _ hs ih =>
      have hI := inLoop_run h hr
      have hstep := step_remaining hI.known hI.distributed hI.steady hs
      rw [hr.count_snoc]
      omega

/-- A session that was not opened yet; its invariant asks nothing of the workers of others. -/
def Unopened (v : View) : Prop :=
  (∀ flow, v.flow = some flow → flow.isBegun = false) → v.Steady

/-- A session that is opened stays opened. -/
theorem Turn.not_begun {n : TaskId} {v w : View} (ht : Turn n k v e w)
    (hw : ∀ flow, w.flow = some flow → flow.isBegun = false) (flow : Flow)
    (hflow : v.flow = some flow) : flow.isBegun = false := by
  cases ht with
  | other | closed | canceled | background | retried => exact hw flow hflow
  | created => cases hflow
  | passed _ _ _ _ _ hbefore | empty _ _ _ _ hbefore | refused _ _ _ _ _ _ hbefore =>
      cases hflow
      exact handshake_not_begun hbefore
  | opened | left | skipped | sent => cases hw _ rfl
  | uploaded id error now x' flow' ups u hu =>
      obtain rfl : flow' = some flow := hflow
      exact (afterUpload_flow u flow).1.symm.trans (hw _ rfl)
  | ended => cases hw _ rfl

theorem unopened_step (hK : Known s) (h : ∀ k, Unopened (s.view k))
    (hs : StepOn count s e t) (k : String) : Unopened (t.view k) := by
  cases hs with
  | usual _ _ hstep =>
      intro hw
      have ht := step_turn hK hstep k
      exact steady_turn (h k (ht.not_begun hw)) (Sound.uploads_nextId hK k) ht
  | opened j reply now y submission ups remote fm _ hview ht hother htasks =>
      by_cases hk : k = j
      · subst hk
        intro hw
        rw [ht] at hw
        cases hw _ rfl
      · rw [hother k hk]
        exact h k

theorem unopened_run {es : List (Nat × Event)}
    (h : serviceOn.Run Machine.anyStep State.initial es s) :
    Known s ∧ ∀ k, Unopened (s.view k) := by
  refine h.invariant (I := fun s => Known s ∧ ∀ k, Unopened (s.view k))
    ⟨known_initial, fun k _ => ⟨sound_blank.loop.crew, sound_blank.fits⟩⟩ fun s e t hI _ hs => ?_
  exact ⟨known_stepOn hI.1 (stepOn_cases hs), unopened_step hI.1 hI.2 (stepOn_cases hs)⟩

/-- **The loop starts**: nothing was dispatched, and every wanted file is in the queue. -/
theorem inLoop_start {es : List (Nat × Event)} {t0 : State}
    (hr : serviceOn.Run Machine.anyStep State.initial es s) {submission : Submission}
    (hflow : s.flows.get? k = some (.submitting submission)) (hx : s.sessions.get? k = some x)
    {reply : Reply} (hreply : (submitted s k submission.target reply).2 = .success fileMap)
    (hcount : 1 ≤ count) {now : Int}
    (hs : serviceOn.step s (count, .submitted k reply now) = some t0) :
    InLoop k x fileMap count [] t0 ∧ ((x.granted fileMap).map Prod.fst).Nodup ∧
      (t0.view k).remaining ≤ 2 * x.files.values.length + count := by
  obtain ⟨hK, hI⟩ := unopened_run hr
  have hview : s.view k = ⟨some x, some (.submitting submission), uploadsOf s.uploads k⟩ := by
    rw [State.view, hx, hflow]
  have hsteady : (s.view k).Steady := by
    refine hI k fun flow h => ?_
    cases hflow.symm.trans h
    rfl
  rw [hview] at hsteady
  obtain ⟨fl, hfl, hfits⟩ := hsteady.fits x rfl
  obtain rfl := Option.some.inj hfl
  have hfresh : Fresh x (.submitting submission) := hfits.fresh rfl
  have hidle : uploadsOf s.uploads k = fun _ => none := hsteady.crew.not_begun rfl
  obtain ⟨s1, hsub⟩ : ∃ s1, submitted s k submission.target reply = (s1, .success fileMap) :=
    ⟨_, Prod.ext rfl hreply⟩
  obtain ⟨f, hview1⟩ := submitted_success hsub
  rw [hview] at hview1
  have hx1 : s1.sessions.get? k = some { x with remoteSessionId := f x.remoteSessionId } :=
    congrArg View.session hview1
  have hups1 : uploadsOf s1.uploads k = fun _ => none :=
    (congrArg View.uploads hview1).trans hidle
  have hknown := known_stepOn hK (stepOn_cases hs)
  have ht0 : t0 = startUploadOn count s1 k fileMap now := by
    simp only [serviceOn, stepOn, hflow, hsub, handleResultOn, Option.some.injEq] at hs
    exact hs.symm
  by_cases hempty : fileMap.entries = []
  · have hstopped : t0.view k = ⟨none, some .stopped, fun _ => none⟩ := by
      rw [ht0, startUploadOn_empty hx1 hempty, hups1]
    have hnone : ∀ id, fileMap.get? id = none := by
      intro id
      rw [LinkedMap.get?_eq_none, LinkedMap.keys, hempty]
      exact List.not_mem_nil
    refine ⟨⟨hknown, ?_, ?_⟩, hfresh.granted_nodup, ?_⟩
    · rw [hstopped]
      exact ⟨crew_idle fun _ _ h => (by cases h), fun _ h => by cases h⟩
    · rw [hstopped]
      refine ⟨⟨_, rfl, rfl, ?_⟩, fun _ _ h => (by cases h), fun _ _ h => noUpload h,
        fun _ _ h => (by cases h), fun _ h => by cases h⟩
      simp [SendSessionState.granted, hnone, Flow.queue]
    · rw [hstopped]
      exact Nat.zero_le _
  · have hopened := ht0 ▸ startUploadOn_view hx1 hempty now
    rw [hups1] at hopened
    refine ⟨⟨hknown, ?_, ?_⟩, hfresh.granted_nodup, ?_⟩
    · rw [hopened]
      exact hfresh.steady (f x.remoteSessionId) fileMap now hcount
    · rw [hopened]
      exact hfresh.distributed (f x.remoteSessionId) now
    · rw [hopened]
      have hlength : (x.opened (f x.remoteSessionId) fileMap now).files.values.length =
          x.files.values.length := by
        rw [hfresh.opened_files]
        simp [LinkedMap.values, LinkedMap.mapValues]
      exact Nat.le_of_eq (congrArg₂ (fun a b => 2 * a + b) hlength (load_replicate count))

/-- All workers are done: every file was sent, and its status says how that ended. -/
theorem InLoop.ended (h : InLoop k x fileMap count actions s) {c : Nat} {now : Int}
    (hend : (serviceOn.step s (c, .loopEnded k now)).isSome) {y : SendSessionState}
    (hy : s.sessions.get? k = some y) (hstatus : y.status = .sending) :
    actions.map (·.grant) = x.granted fileMap ∧
    ∀ id g, y.files.get? id = some g →
      if g.token.isSome then g.status = .finished ∨ g.status = .failed
      else g.status = .skipped := by
  simp only [serviceOn, stepOn, step] at hend
  split at hend
  · rename_i queue workers hflow
    split at hend
    · rename_i hall
      have hview : s.view k = ⟨some y, some (.sending queue workers), uploadsOf s.uploads k⟩ := by
        rw [State.view, hy, hflow]
      have hS := h.steady
      have hD := h.distributed
      rw [hview] at hS hD
      obtain rfl : queue = [] := hS.crew.queue_empty hall
      obtain ⟨fl, hfl, _, hsplit⟩ := hD.split
      obtain rfl := Option.some.inj hfl
      obtain ⟨fl, hfl, hfits⟩ := hS.fits y rfl
      obtain rfl := Option.some.inj hfl
      have hrunning : Running y [] (uploadsOf s.uploads k) := hfits.running rfl
      refine ⟨by simpa [Flow.queue] using hsplit, fun id g hg => ?_⟩
      have hqueue : g.status ≠ .queue := by
        intro hgs
        obtain ⟨_, hmem, _⟩ := hrunning.queued hstatus id g hg hgs
        cases hmem
      have hsending : g.status ≠ .sending := by
        intro hgs
        obtain ⟨tid, u, hu, _⟩ := hrunning.sending id g hg hgs
        exact hS.crew.no_worker_upload hall tid u (hD.noRetry tid u hu) hu
      cases htoken : g.token with
      | none => exact (hrunning.skipped id g hg).mp htoken
      | some token =>
          have hskipped : g.status ≠ .skipped := by
            intro hgs
            cases htoken.symm.trans ((hrunning.skipped id g hg).mpr hgs)
          simp only [Option.isSome_some, if_true]
          cases hgs : g.status with
          | finished => exact Or.inl rfl
          | failed => exact Or.inr rfl
          | queue => exact absurd hgs hqueue
          | sending => exact absurd hgs hsending
          | skipped => exact absurd hgs hskipped
    · cases hend
  · cases hend

/-- **The loop is never stuck**: a worker can go on, an upload is in flight, or all are done. -/
theorem InLoop.progress (h : InLoop k x fileMap count actions s)
    {queue : List SendingFile} {workers : List Worker}
    (hflow : s.flows.get? k = some (.sending queue workers)) :
    ∃ label, (loopStep k s label = true ∨ ∃ now, label.2 = .loopEnded k now) ∧
      (serviceOn.step s label).isSome := by
  by_cases hall : workers.all (· = .done) = true
  · refine ⟨(0, .loopEnded k 0), Or.inr ⟨0, rfl⟩, ?_⟩
    simp only [serviceOn, stepOn, step, hflow, hall, if_true, Option.isSome_some]
  · obtain ⟨w, hmem, hw⟩ : ∃ w ∈ workers, w ≠ .done := by simpa using hall
    obtain ⟨index, hindex⟩ := List.mem_iff_getElem?.mp hmem
    cases w with
    | next =>
        refine ⟨(0, .work k index), Or.inl (by simp [loopStep]), ?_⟩
        simp only [serviceOn, stepOn, step, hflow, hindex, if_true, Option.isSome_some]
    | uploading id =>
        obtain ⟨u, hu, _⟩ := h.distributed.busy queue workers hflow index id hindex
        obtain ⟨hget, _⟩ := uploadsOf_eq_some.mp hu
        refine ⟨(0, .uploadEnded id none 0), Or.inl ?_, ?_⟩
        · exact Option.isSome_iff_exists.mpr ⟨u, hu⟩
        · simp only [serviceOn, stepOn, step, hget, Option.isSome_some]
    | done => exact absurd rfl hw

/-- **One upload at a time on each isolate.** -/
theorem InLoop.one_each (h : InLoop k x fileMap count actions s) {id : TaskId} {u : Upload}
    (hu : uploadsOf s.uploads k id = some u) :
    u.action.isolateIndex < count ∧ ∀ id' u', uploadsOf s.uploads k id' = some u' →
      u'.action.isolateIndex = u.action.isolateIndex → id' = id := by
  obtain ⟨queue, workers, hflow, hw⟩ :=
    h.steady.crew.worker id u hu (h.distributed.noRetry id u hu)
  refine ⟨?_, fun id' u' hu' hindex => ?_⟩
  · rw [← h.distributed.count queue workers hflow]
    exact (List.getElem?_eq_some_iff.mp hw).1
  · obtain ⟨queue', workers', hflow', hw'⟩ :=
      h.steady.crew.worker id' u' hu' (h.distributed.noRetry id' u' hu')
    cases hflow.symm.trans hflow'
    rw [hindex, hw] at hw'
    cases hw'
    rfl

/-- **The send loop**, from the answer of the receiver on, for any files, any tokens and any number
    of isolates: while the session is sending and the user retries nothing,
    - no file is dispatched twice, and only files with a token are, each with its own;
    - an isolate has at most one upload at a time;
    - the loop takes a bounded number of turns and is never stuck;
    - when it calls `_finish` every file with a token was dispatched and is finished or failed, and
      every other file is skipped. -/
theorem send_loop {es fs : List (Nat × Event)} {s t0 t : State}
    (hr : serviceOn.Run Machine.anyStep State.initial es s) {k : String} {submission : Submission}
    (hflow : s.flows.get? k = some (.submitting submission)) {x : SendSessionState}
    (hx : s.sessions.get? k = some x) {reply : Reply} {fileMap : LinkedMap String String}
    (hreply : (submitted s k submission.target reply).2 = .success fileMap) {count : Nat}
    (hcount : 1 ≤ count) {now : Int}
    (hs : serviceOn.step s (count, .submitted k reply now) = some t0)
    (hr' : serviceOn.Run (undisturbed k) t0 fs t) {actions : List IsolateHttpUploadAction}
    (hactions : serviceOn.trace (uploadActions k) t0 fs = actions) :
    (actions.map (·.grant) <+: x.granted fileMap ∧ (actions.map (·.fileId)).Nodup) ∧
    (∀ id u, uploadsOf t.uploads k id = some u → u.action.isolateIndex < count ∧
      ∀ id' u', uploadsOf t.uploads k id' = some u' →
        u'.action.isolateIndex = u.action.isolateIndex → id' = id) ∧
    (serviceOn.count (loopStep k) t0 fs ≤ 2 * x.files.values.length + count ∧
      ∀ queue workers, t.flows.get? k = some (.sending queue workers) →
        ∃ label, (loopStep k t label = true ∨ ∃ now, label.2 = .loopEnded k now) ∧
          (serviceOn.step t label).isSome) ∧
    ∀ c now y, (serviceOn.step t (c, .loopEnded k now)).isSome → t.sessions.get? k = some y →
      y.status = .sending →
      actions.map (·.grant) = x.granted fileMap ∧
      (∀ id, (y.files.get? id).map (·.token) =
        (x.files.get? id).map fun file => fileMap.get? file.file.id) ∧
      ∀ id g, y.files.get? id = some g →
        if g.token.isSome then g.status = .finished ∨ g.status = .failed
        else g.status = .skipped := by
  subst hactions
  obtain ⟨hstart, hnodup, hbound⟩ := inLoop_start hr hflow hx hreply hcount hs
  have hI := inLoop_run hstart hr'
  obtain ⟨flow, _, _, hsplit⟩ := hI.distributed.split
  have hfront : (serviceOn.trace (uploadActions k) t0 fs).map (·.grant) <+: x.granted fileMap :=
    ⟨_, hsplit⟩
  refine ⟨⟨hfront, ?_⟩, fun id u hu => hI.one_each hu, ⟨?_, fun queue workers h => hI.progress h⟩,
    fun c now y hend hy hstatus => ?_⟩
  · have hids := (hfront.map Prod.fst).sublist.nodup hnodup
    rwa [List.map_map] at hids
  · have hcount := loop_count hstart hr'
    omega
  · obtain ⟨hall, hfiles⟩ := hI.ended hend hy hstatus
    exact ⟨hall, hI.distributed.tokens y hy, hfiles⟩

/-- Three files on three isolates. -/
def sharedFiles : List CrossFile :=
  [⟨"a.bin", .other, 1, some "/a.bin", none⟩, ⟨"b.bin", .other, 1, some "/b.bin", none⟩,
    ⟨"c.bin", .other, 1, some "/c.bin", none⟩]

/-- The receiver wants two of them. -/
def sharedTokens : LinkedMap String String := .ofList [("a", "ta"), ("c", "tc")]

def sharedReply : Reply := .response 200 (.error "") (.ok ⟨"R", sharedTokens⟩)

/-- One of the uploads fails. -/
def sharedRun : List (Nat × Event) :=
  [(0, .work "S" 0), (0, .work "S" 1), (0, .work "S" 1), (0, .work "S" 2),
    (0, .uploadEnded 1 (some "reset") 2), (0, .work "S" 1), (0, .uploadEnded 0 none 3),
    (0, .work "S" 0)]

theorem send_loop_sharedRun :
    ∃ s t0 t x y, serviceOn.Run Machine.anyStep State.initial
        [(0, .startSession "S" demoDevice sharedFiles false ["a", "b", "c"])] s ∧
      s.sessions.get? "S" = some x ∧
      serviceOn.step s (3, .submitted "S" sharedReply 1) = some t0 ∧
      serviceOn.Run (undisturbed "S") t0 sharedRun t ∧
      t.sessions.get? "S" = some y ∧ y.status = .sending ∧
      (serviceOn.step t (0, .loopEnded "S" 4)).isSome ∧
      (serviceOn.trace (uploadActions "S") t0 sharedRun).map (·.grant) =
        x.granted sharedTokens ∧
      ∀ id g, y.files.get? id = some g →
        if g.token.isSome then g.status = .finished ∨ g.status = .failed
        else g.status = .skipped := by
  have hrun : ((serviceOn.run State.initial
      [(0, .startSession "S" demoDevice sharedFiles false ["a", "b", "c"])]).bind fun s =>
      (serviceOn.step s (3, .submitted "S" sharedReply 1)).bind fun t0 =>
      ((serviceOn.guarded (undisturbed "S")).run t0 sharedRun).map fun t =>
        ((s.flows.get? "S", s.sessions.get? "S"), (t.sessions.get? "S").map (·.status),
          (serviceOn.step t (0, .loopEnded "S" 4)).isSome)) =
      let x := newSession "S" demoDevice sharedFiles false none ["a", "b", "c"]
      some ((some (.submitting (x.submission none)), some x), some .sending, true) := by decide
  obtain ⟨s, hs, hrun⟩ := Option.bind_eq_some_iff.mp hrun
  obtain ⟨t0, ht0, hrun⟩ := Option.bind_eq_some_iff.mp hrun
  obtain ⟨t, ht, hobs⟩ := Machine.run_observe_guarded hrun
  simp only [Prod.mk.injEq] at hobs
  obtain ⟨⟨hflow, hx⟩, hstatus, hend⟩ := hobs
  obtain ⟨y, hy, hstatus⟩ := Option.map_eq_some_iff.mp hstatus
  have hr := Machine.run_sound hs
  have hreply : (submitted s "S" demoDevice sharedReply).2 = .success sharedTokens := by
    simp [submitted, sharedReply, demoDevice]
  obtain ⟨_, _, _, hfinish⟩ := send_loop hr hflow hx hreply (by decide) ht0 ht rfl
  obtain ⟨hall, _, hfiles⟩ := hfinish 0 4 y hend hy hstatus
  exact ⟨s, t0, t, _, y, hr, hx, ht0, ht, hy, hstatus, hend, hall, hfiles⟩

end Runs

end LocalSend.SendSession
