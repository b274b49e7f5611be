/-
  File:      LocalSend/Send/Invariant.lean
  Subject:   THE INVARIANT OF A SEND SESSION, over every run of the service.

  * `Fresh` -- a session before `startUpload`; `Running` -- one after it: its files, the queue of
    its workers and its uploads in flight belong together;
  * `Loop` -- the workers and the uploads, also when the session is gone; `Crew` -- the same for
    any number of workers;
  * `Running.dispatched`, `Running.uploaded`, `Running.finish` -- one lemma for each change;
  * `steady_turn`, `sound_turn`, `sound_step` -- **every turn keeps the invariant**.
-/
import LocalSend.Send.Tasks

namespace LocalSend.SendSession

open Lib

/-! ## 1. The invariant -/

/-- A session before `startUpload`. -/
structure Fresh (x : SendSessionState) (flow : Flow) : Prop where
  waiting : flow.isHandshake = true → x.status = .waiting
  status : x.status ≠ .finished ∧ x.status ≠ .sending
  keyed : ∀ id f, x.files.get? id = some f → f.file.id = id
  queued : ∀ id f, x.files.get? id = some f → f.status = .queue ∧ f.token = none

/-- **A session after `startUpload`**, with the files its workers have not taken yet and its
    uploads in flight. -/
structure Running (x : SendSessionState) (queue : List SendingFile)
    (ups : TaskId → Option Upload) : Prop where
  keyed : ∀ id f, x.files.get? id = some f → f.file.id = id
  skipped : ∀ id f, x.files.get? id = some f → (f.token = none ↔ f.status = .skipped)
  listed : ∀ tid u, ups tid = some u → u.task tid ∈ x.sendingTasks
  named : ∀ tid u, ups tid = some u →
    u.action.remoteSessionId = x.remoteSessionId ∧ u.action.device = x.target
  busy : ∀ tid u, ups tid = some u → ∃ f, x.files.get? u.action.fileId = some f ∧
    f.status = .sending ∧ f.token = some u.action.remoteFileToken
  once : ∀ tid tid' u u', ups tid = some u → ups tid' = some u' →
    u.action.fileId = u'.action.fileId → tid = tid'
  sending : ∀ id f, x.files.get? id = some f → f.status = .sending →
    ∃ tid u, ups tid = some u ∧ u.action.fileId = id
  waiting : ∀ file ∈ queue, ∃ f, x.files.get? file.file.id = some f ∧ f.token = file.token ∧
    (file.token ≠ none → f.status = .queue)
  queued : x.status = .sending → ∀ id f, x.files.get? id = some f → f.status = .queue →
    ∃ file ∈ queue, file.file.id = id
  settled : x.status = .finished ∨ x.status = .finishedWithErrors →
    ∀ id f, x.files.get? id = some f → f.status ≠ .queue

/-- The workers of a session and its uploads in flight. -/
structure Loop (flow : Option Flow) (ups : TaskId → Option Upload) : Prop where
  begun : ∀ tid u, ups tid = some u → ∃ fl, flow = some fl ∧ fl.isBegun = true
  worker : ∀ tid u, ups tid = some u → u.isRetry = false → ∃ queue workers,
    flow = some (.sending queue workers) ∧
    workers[u.action.isolateIndex]? = some (.uploading tid)
  nodup : ∀ queue workers, flow = some (.sending queue workers) →
    (queue.map fun file => file.file.id).Nodup
  done : ∀ queue workers, flow = some (.sending queue workers) → .done ∈ workers → queue = []
  count : ∀ queue workers, flow = some (.sending queue workers) →
    workers.length = uploadIsolateCount

/-- The same for any number of workers, but one. -/
structure Crew (flow : Option Flow) (ups : TaskId → Option Upload) : Prop where
  begun : ∀ tid u, ups tid = some u → ∃ fl, flow = some fl ∧ fl.isBegun = true
  worker : ∀ tid u, ups tid = some u → u.isRetry = false → ∃ queue workers,
    flow = some (.sending queue workers) ∧
    workers[u.action.isolateIndex]? = some (.uploading tid)
  nodup : ∀ queue workers, flow = some (.sending queue workers) →
    (queue.map fun file => file.file.id).Nodup
  done : ∀ queue workers, flow = some (.sending queue workers) → .done ∈ workers → queue = []
  staffed : ∀ queue workers, flow = some (.sending queue workers) → workers ≠ []

/-- The record of a session fits its flow and its uploads. -/
def Fits (x : SendSessionState) (flow : Flow) (ups : TaskId → Option Upload) : Prop :=
  if flow.isBegun then Running x flow.queue ups else Fresh x flow

/-- **The invariant of one session.** -/
structure View.Sound (v : View) : Prop where
  loop : Loop v.flow v.uploads
  fits : ∀ x, v.session = some x → ∃ flow, v.flow = some flow ∧ Fits x flow v.uploads

/-- **The invariant of one session**, for any number of workers. -/
structure View.Steady (v : View) : Prop where
  crew : Crew v.flow v.uploads
  fits : ∀ x, v.session = some x → ∃ flow, v.flow = some flow ∧ Fits x flow v.uploads

theorem Loop.crew {flow : Option Flow} {ups : TaskId → Option Upload} (h : Loop flow ups) :
    Crew flow ups where
  begun := h.begun
  worker := h.worker
  nodup := h.nodup
  done := h.done
  staffed queue workers hflow hnil := by
    have hcount := h.count queue workers hflow
    rw [hnil] at hcount
    cases hcount

theorem Crew.loop {flow : Option Flow} {ups : TaskId → Option Upload} (h : Crew flow ups)
    (hcount : ∀ queue workers, flow = some (.sending queue workers) →
      workers.length = uploadIsolateCount) : Loop flow ups :=
  ⟨h.begun, h.worker, h.nodup, h.done, hcount⟩

/-- The idle map has no entry. -/
theorem noUpload {p : Prop} {u : Upload} (h : none = some u) : p := by
  cases h

theorem sound_blank : View.blank.Sound := by
  refine ⟨⟨fun _ _ h => noUpload h, fun _ _ h => noUpload h, ?_, ?_, ?_⟩, ?_⟩
  · intro queue workers hflow
    cases hflow
  · intro queue workers hflow
    cases hflow
  · intro queue workers hflow
    cases hflow
  · intro x hx
    cases hx

/-! ## 2. The record changes -/

section Record

variable {x y : SendSessionState} {queue : List SendingFile} {ups : TaskId → Option Upload}

theorem get?_withFileStatus (x : SendSessionState) (fileId : String) (status : FileStatus)
    (error : Option String) (id : String) :
    (x.withFileStatus fileId status error).files.get? id = (x.files.get? id).map fun f =>
      if id = fileId then { f with status := status, errorMessage := error } else f :=
  LinkedMap.get?_mapValues _

/-- What does not touch the files, the tasks or the receiver. -/
theorem Running.of_same (h : Running x queue ups) (hfiles : y.files = x.files)
    (htasks : y.sendingTasks = x.sendingTasks) (hremote : y.remoteSessionId = x.remoteSessionId)
    (htarget : y.target = x.target)
    (hqueued : y.status = .sending → x.status = .sending)
    (hsettled : y.status = .finished ∨ y.status = .finishedWithErrors →
      ∀ id f, x.files.get? id = some f → f.status ≠ .queue) : Running y queue ups where
  keyed := hfiles ▸ h.keyed
  skipped := hfiles ▸ h.skipped
  listed := htasks ▸ h.listed
  named tid u hu := by
    rw [hremote, htarget]
    exact h.named tid u hu
  busy := hfiles ▸ h.busy
  once := h.once
  sending := hfiles ▸ h.sending
  waiting := hfiles ▸ h.waiting
  queued hstatus := hfiles ▸ h.queued (hqueued hstatus)
  settled hstatus := hfiles ▸ hsettled hstatus

/-- `_finish`, once no file of a sending session is in the queue. -/
theorem Running.finish (h : Running x queue ups) {now : Int} (hy : x.finish now = some y)
    (hqueue : x.status = .sending → ∀ id f, x.files.get? id = some f → f.status ≠ .queue) :
    Running y queue ups := by
  unfold SendSessionState.finish at hy
  split at hy
  · cases hy
    exact h
  · rename_i hstatus
    have hstatus : x.status = .sending := by simpa using hstatus
    split at hy
    · cases hy
    · cases hy
      exact h.of_same rfl rfl rfl rfl (fun _ => hstatus) fun _ => hqueue hstatus

/-- The files after `dispatched`. -/
theorem get?_dispatched (x : SendSessionState) (isRetry : Bool) (fileId : String)
    (task : SendingTask) (id : String) :
    (x.dispatched isRetry fileId task).files.get? id = (x.files.get? id).map fun f =>
      if id = fileId then { f with status := .sending, errorMessage := none } else f := by
  unfold SendSessionState.dispatched SendSessionState.retried
  cases isRetry with
  | false => exact get?_withFileStatus _ _ _ _ _
  | true =>
      simp only [if_true, get?_withFileStatus, Option.map_map]
      congr 1
      funext f
      by_cases h : id = fileId <;> simp [h]

/-- The file itself. -/
theorem get?_dispatched_self (isRetry : Bool) {fileId : String} (task : SendingTask)
    {f : SendingFile} (hf : x.files.get? fileId = some f) :
    (x.dispatched isRetry fileId task).files.get? fileId =
      some { f with status := .sending, errorMessage := none } := by
  simp [get?_dispatched, hf]

/-- Another file. -/
theorem get?_dispatched_ne (isRetry : Bool) {fileId id : String} (task : SendingTask)
    (h : id ≠ fileId) : (x.dispatched isRetry fileId task).files.get? id = x.files.get? id := by
  simp [get?_dispatched, h]

theorem dispatched_tasks (x : SendSessionState) (isRetry : Bool) (fileId : String)
    (task : SendingTask) :
    (x.dispatched isRetry fileId task).sendingTasks = x.sendingTasks ++ [task] := by
  cases isRetry <;> rfl

theorem dispatched_remote (x : SendSessionState) (isRetry : Bool) (fileId : String)
    (task : SendingTask) :
    (x.dispatched isRetry fileId task).remoteSessionId = x.remoteSessionId ∧
    (x.dispatched isRetry fileId task).target = x.target := by
  cases isRetry <;> exact ⟨rfl, rfl⟩

theorem dispatched_status {isRetry : Bool} (hstatus : isRetry = false → x.status = .sending)
    (fileId : String) (task : SendingTask) :
    (x.dispatched isRetry fileId task).status = .sending := by
  cases isRetry with
  | false => exact hstatus rfl
  | true => rfl

/-- **An upload is dispatched**: for a file with a token that is neither sent nor skipped. -/
theorem Running.dispatched {queue₀ : List SendingFile} (h : Running x queue₀ ups)
    (hsub : queue ⊆ queue₀) {n : TaskId} (hn : ups n = none)
    {k : String} {isRetry : Bool} {index : Nat} {file f : SendingFile} {token : String}
    (hf : x.files.get? file.file.id = some f) (htoken : f.token = some token)
    (hfree : f.status ≠ .sending) (hqueue : ∀ g ∈ queue, g.file.id ≠ file.file.id)
    (hstatus : isRetry = false → x.status = .sending)
    (hqueued : ∀ id f, x.files.get? id = some f → f.status = .queue →
      id ≠ file.file.id → ∃ g ∈ queue, g.file.id = id) :
    Running (x.dispatched isRetry file.file.id ⟨index, n⟩) queue
      (Function.update ups n (some ⟨k, isRetry, x.uploadAction index file token⟩)) := by
  have hself := get?_dispatched_self isRetry ⟨index, n⟩ hf
  have hother : ∀ id, id ≠ file.file.id →
      (x.dispatched isRetry file.file.id ⟨index, n⟩).files.get? id = x.files.get? id :=
    fun id hid => get?_dispatched_ne isRetry ⟨index, n⟩ hid
  have hups : ∀ tid u, Function.update ups n (some (⟨k, isRetry, x.uploadAction index file token⟩ :
      Upload)) tid = some u → (tid = n ∧ u = ⟨k, isRetry, x.uploadAction index file token⟩) ∨
      (tid ≠ n ∧ ups tid = some u ∧ u.action.fileId ≠ file.file.id) := by
    intro tid u hu
    by_cases htid : tid = n
    · subst htid
      rw [Function.update_self] at hu
      exact Or.inl ⟨rfl, (Option.some.inj hu).symm⟩
    · rw [Function.update_of_ne htid] at hu
      refine Or.inr ⟨htid, hu, fun hid => hfree ?_⟩
      obtain ⟨g, hg, hgs, _⟩ := h.busy tid u hu
      rw [hid, hf] at hg
      obtain rfl := Option.some.inj hg
      exact hgs
  -- the file `id` after the dispatch is the one sent, or the old one
  have hfiles : ∀ id g, (x.dispatched isRetry file.file.id ⟨index, n⟩).files.get? id = some g →
      (id = file.file.id ∧ g = { f with status := .sending, errorMessage := none }) ∨
      (id ≠ file.file.id ∧ x.files.get? id = some g) := by
    intro id g hg
    by_cases hid : id = file.file.id
    · subst hid
      rw [hself] at hg
      exact Or.inl ⟨rfl, (Option.some.inj hg).symm⟩
    · rw [hother id hid] at hg
      exact Or.inr ⟨hid, hg⟩
  refine ⟨?_, ?_, ?_, ?_, ?_, ?_, ?_, ?_, ?_, ?_⟩
  · intro id g hg
    rcases hfiles id g hg with ⟨rfl, rfl⟩ | ⟨_, hg⟩
    · exact h.keyed _ f hf
    · exact h.keyed id g hg
  · intro id g hg
    rcases hfiles id g hg with ⟨rfl, rfl⟩ | ⟨_, hg⟩
    · simp [htoken]
    · exact h.skipped id g hg
  · intro tid u hu
    rw [dispatched_tasks]
    rcases hups tid u hu with ⟨rfl, rfl⟩ | ⟨_, hu, _⟩
    · exact List.mem_append_right _ List.mem_cons_self
    · exact List.mem_append_left _ (h.listed tid u hu)
  · intro tid u hu
    rw [(dispatched_remote x isRetry _ _).1, (dispatched_remote x isRetry _ _).2]
    rcases hups tid u hu with ⟨rfl, rfl⟩ | ⟨_, hu, _⟩
    · exact ⟨rfl, rfl⟩
    · exact h.named tid u hu
  · intro tid u hu
    rcases hups tid u hu with ⟨rfl, rfl⟩ | ⟨_, hu, hne⟩
    · exact ⟨_, hself, rfl, htoken⟩
    · obtain ⟨g, hg, hgs⟩ := h.busy tid u hu
      exact ⟨g, by rw [hother _ hne]; exact hg, hgs⟩
  · intro tid tid' u u' hu hu' hid
    rcases hups tid u hu with ⟨rfl, rfl⟩ | ⟨_, hu, hne⟩
    · rcases hups tid' u' hu' with ⟨rfl, rfl⟩ | ⟨_, _, hne'⟩
      · rfl
      · exact absurd hid.symm hne'
    · rcases hups tid' u' hu' with ⟨rfl, rfl⟩ | ⟨_, hu', _⟩
      · exact absurd hid hne
      · exact h.once tid tid' u u' hu hu' hid
  · intro id g hg hgs
    rcases hfiles id g hg with ⟨rfl, rfl⟩ | ⟨_, hg⟩
    · exact ⟨n, _, Function.update_self .., rfl⟩
    · obtain ⟨tid, u, hu, hid⟩ := h.sending id g hg hgs
      refine ⟨tid, u, ?_, hid⟩
      rw [Function.update_of_ne]
      · exact hu
      · intro htid
        rw [htid, hn] at hu
        cases hu
  · intro g hg
    rw [hother _ (hqueue g hg)]
    exact h.waiting g (hsub hg)
  · intro _ id g hg hgs
    rcases hfiles id g hg with ⟨rfl, rfl⟩ | ⟨hid, hg⟩
    · cases hgs
    · exact hqueued id g hg hgs hid
  · intro hended
    rw [dispatched_status hstatus] at hended
    rcases hended with hended | hended <;> cases hended

/-- The files after `uploaded`. -/
theorem get?_uploaded (x : SendSessionState) (fileId : String) (task : SendingTask)
    (error : Option String) (id : String) :
    (x.uploaded fileId task error).files.get? id = (x.files.get? id).map fun f =>
      if id = fileId then
        { f with status := if error.isSome then .failed else .finished, errorMessage := error }
      else f :=
  get?_withFileStatus _ _ _ _ _

/-- The status an upload ends with. -/
theorem uploaded_status (error : Option String) :
    (if error.isSome then FileStatus.failed else .finished) ≠ .queue ∧
    (if error.isSome then FileStatus.failed else .finished) ≠ .sending ∧
    (if error.isSome then FileStatus.failed else .finished) ≠ .skipped := by
  cases error <;> simp

/-- **An upload is over.** -/
theorem Running.uploaded (h : Running x queue ups) {tid : TaskId} {u : Upload}
    (hu : ups tid = some u) (error : Option String) :
    Running (x.uploaded u.action.fileId (u.task tid) error) queue
      (Function.update ups tid none) := by
  obtain ⟨f, hf, hfs, htoken⟩ := h.busy tid u hu
  have hself : (x.uploaded u.action.fileId (u.task tid) error).files.get? u.action.fileId =
      some { f with
        status := if error.isSome then .failed else .finished
        errorMessage := error } := by
    simp [get?_uploaded, hf]
  have hother : ∀ id, id ≠ u.action.fileId →
      (x.uploaded u.action.fileId (u.task tid) error).files.get? id = x.files.get? id := by
    intro id hid
    simp [get?_uploaded, hid]
  have hfiles : ∀ id g, (x.uploaded u.action.fileId (u.task tid) error).files.get? id = some g →
      (id = u.action.fileId ∧ g = { f with
        status := if error.isSome then .failed else .finished
        errorMessage := error }) ∨ (id ≠ u.action.fileId ∧ x.files.get? id = some g) := by
    intro id g hg
    by_cases hid : id = u.action.fileId
    · subst hid
      rw [hself] at hg
      exact Or.inl ⟨rfl, (Option.some.inj hg).symm⟩
    · rw [hother id hid] at hg
      exact Or.inr ⟨hid, hg⟩
  have hups : ∀ tid' u', Function.update ups tid none tid' = some u' →
      tid' ≠ tid ∧ ups tid' = some u' ∧ u'.action.fileId ≠ u.action.fileId := by
    intro tid' u' hu'
    by_cases htid : tid' = tid
    · rw [htid, Function.update_self] at hu'
      cases hu'
    · rw [Function.update_of_ne htid] at hu'
      exact ⟨htid, hu', fun hid => htid (h.once tid' tid u' u hu' hu hid)⟩
  obtain ⟨hqueue, hsending, hskipped⟩ := uploaded_status error
  refine ⟨?_, ?_, ?_, ?_, ?_, ?_, ?_, ?_, ?_, ?_⟩
  · intro id g hg
    rcases hfiles id g hg with ⟨rfl, rfl⟩ | ⟨_, hg⟩
    · exact h.keyed _ f hf
    · exact h.keyed id g hg
  · intro id g hg
    rcases hfiles id g hg with ⟨rfl, rfl⟩ | ⟨_, hg⟩
    · simp only [htoken, reduceCtorEq, false_iff]
      exact hskipped
    · exact h.skipped id g hg
  · intro tid' u' hu'
    obtain ⟨hne, hu', _⟩ := hups tid' u' hu'
    refine List.mem_filter.mpr ⟨h.listed tid' u' hu', ?_⟩
    simp [Upload.task, hne]
  · intro tid' u' hu'
    exact h.named tid' u' (hups tid' u' hu').2.1
  · intro tid' u' hu'
    obtain ⟨_, hu', hid⟩ := hups tid' u' hu'
    rw [hother _ hid]
    exact h.busy tid' u' hu'
  · intro a b v w hv hw
    exact h.once a b v w (hups a v hv).2.1 (hups b w hw).2.1
  · intro id g hg hgs
    rcases hfiles id g hg with ⟨rfl, rfl⟩ | ⟨hid, hg⟩
    · exact absurd hgs hsending
    · obtain ⟨tid', u', hu', hid'⟩ := h.sending id g hg hgs
      refine ⟨tid', u', ?_, hid'⟩
      rw [Function.update_of_ne]
      · exact hu'
      · intro htid
        rw [htid, hu] at hu'
        obtain rfl := Option.some.inj hu'
        exact hid hid'.symm
  · intro g hg
    have hne : g.file.id ≠ u.action.fileId := by
      intro hid
      obtain ⟨g', hg', hgt, hgs⟩ := h.waiting g hg
      rw [hid, hf] at hg'
      obtain rfl := Option.some.inj hg'
      rw [hfs] at hgs
      have hnone : g.token = none := Decidable.byContradiction fun hne => by cases hgs hne
      rw [hnone, htoken] at hgt
      cases hgt
    rw [hother _ hne]
    exact h.waiting g hg
  · intro hstatus id g hg hgs
    rcases hfiles id g hg with ⟨rfl, rfl⟩ | ⟨_, hg⟩
    · exact absurd hgs hqueue
    · exact h.queued hstatus id g hg hgs
  · intro hstatus id g hg
    rcases hfiles id g hg with ⟨rfl, rfl⟩ | ⟨_, hg⟩
    · exact hqueue
    · exact h.settled hstatus id g hg

/-- `createSession` makes a fresh session. -/
theorem newSession_fresh (k : String) (target : Device) (files : List CrossFile)
    (background : Bool) (preview : Option String) (ids : List String) (flow : Flow) :
    Fresh (newSession k target files background preview ids) flow := by
  have hfile : ∀ id f, (newSession k target files background preview ids).files.get? id = some f →
      ∃ file : CrossFile, f = file.queued preview id := by
    intro id f hf
    obtain ⟨⟨i, file⟩, _, hpair⟩ := List.mem_map.mp (LinkedMap.mem_of_get?_ofList hf)
    simp only [Prod.mk.injEq] at hpair
    obtain ⟨rfl, rfl⟩ := hpair
    exact ⟨file, rfl⟩
  refine ⟨fun _ => rfl, ⟨nofun, nofun⟩, fun id f hf => ?_, fun id f hf => ?_⟩
  · obtain ⟨file, rfl⟩ := hfile id f hf
    rfl
  · obtain ⟨file, rfl⟩ := hfile id f hf
    exact ⟨rfl, rfl⟩

theorem answered_id (fileMap : LinkedMap String String) (f : SendingFile) :
    (f.answered fileMap).file = f.file := by
  unfold SendingFile.answered
  split <;> rfl

theorem Fresh.opened_files {flow : Flow} (h : Fresh x flow) (remote : Option String)
    (fileMap : LinkedMap String String) (now : Int) :
    (x.opened remote fileMap now).files = x.files.mapValues fun _ f => f.answered fileMap :=
  LinkedMap.ofList_values h.keyed _

/-- **`startUpload`**: every file has a token and waits in the queue, or is skipped. -/
theorem Fresh.opened {flow : Flow} (h : Fresh x flow) (remote : Option String)
    (fileMap : LinkedMap String String) (now : Int) :
    Running (x.opened remote fileMap now) (x.opened remote fileMap now).files.values
      fun _ => none := by
  have hfile : ∀ id f, (x.opened remote fileMap now).files.get? id = some f →
      f.file.id = id ∧ (f.token = none ∧ f.status = .skipped ∨
        f.token ≠ none ∧ f.status = .queue) := by
    intro id f hf
    rw [h.opened_files, LinkedMap.get?_mapValues] at hf
    obtain ⟨g, hg, rfl⟩ := Option.map_eq_some_iff.mp hf
    obtain ⟨hqueue, htoken⟩ := h.queued id g hg
    refine ⟨by rw [answered_id]; exact h.keyed id g hg, ?_⟩
    unfold SendingFile.answered
    split
    · exact Or.inr ⟨nofun, hqueue⟩
    · exact Or.inl ⟨htoken, rfl⟩
  refine ⟨fun id f hf => (hfile id f hf).1, ?_, fun _ _ h => noUpload h, fun _ _ h => noUpload h,
    fun _ _ h => noUpload h, fun _ _ _ _ h => noUpload h, ?_, ?_, ?_, ?_⟩
  · intro id f hf
    rcases (hfile id f hf).2 with ⟨htoken, hstatus⟩ | ⟨htoken, hstatus⟩
    · simp [htoken, hstatus]
    · simp [htoken, hstatus]
  · intro id f hf hstatus
    rcases (hfile id f hf).2 with ⟨_, hs⟩ | ⟨_, hs⟩ <;> cases hs.symm.trans hstatus
  · intro file hfile'
    obtain ⟨id, hid⟩ := LinkedMap.mem_values.mp hfile'
    obtain ⟨rfl, hcases⟩ := hfile id file hid
    refine ⟨file, hid, rfl, fun htoken => ?_⟩
    rcases hcases with ⟨hnone, _⟩ | ⟨_, hs⟩
    · exact absurd hnone htoken
    · exact hs
  · intro _ id f hf _
    exact ⟨f, LinkedMap.mem_values.mpr ⟨id, hf⟩, (hfile id f hf).1⟩
  · intro hended
    rcases hended with hended | hended <;> cases hended

end Record

/-! ## 3. The workers -/

section Workers

variable {flow : Flow} {ups : TaskId → Option Upload}

/-- Without an upload in flight and outside `_sendLoop` there is nothing to show. -/
theorem crew_idle (hflow : ∀ queue workers, flow ≠ .sending queue workers) :
    Crew (some flow) fun _ => none where
  begun _ _ h := noUpload h
  worker _ _ h := noUpload h
  nodup queue workers h := absurd (Option.some.inj h) (hflow queue workers)
  done queue workers h := absurd (Option.some.inj h) (hflow queue workers)
  staffed queue workers h := absurd (Option.some.inj h) (hflow queue workers)

theorem Crew.not_begun (h : Crew (some flow) ups) (hflow : flow.isBegun = false) :
    ups = fun _ => none := by
  funext tid
  cases hu : ups tid with
  | none => rfl
  | some u =>
      obtain ⟨fl, hfl, hbegun⟩ := h.begun tid u hu
      obtain rfl := Option.some.inj hfl
      rw [hflow] at hbegun
      cases hbegun

/-- The queue of a loop shrinks, and a worker that moves is the only one that does. -/
theorem Crew.moved {queue queue' : List SendingFile} {workers workers' : List Worker}
    (h : Crew (some (.sending queue workers)) ups) (hqueue : queue'.Sublist queue)
    (hworker : ∀ tid u, ups tid = some u → u.isRetry = false →
      workers[u.action.isolateIndex]? = some (.uploading tid) →
      workers'[u.action.isolateIndex]? = some (.uploading tid))
    (hdone : .done ∈ workers' → queue' = []) (hlength : workers'.length = workers.length) :
    Crew (some (.sending queue' workers')) ups where
  begun tid u hu := ⟨_, rfl, rfl⟩
  worker tid u hu hretry := by
    obtain ⟨q, ws, hflow, hw⟩ := h.worker tid u hu hretry
    cases hflow
    exact ⟨_, _, rfl, hworker tid u hu hretry hw⟩
  nodup q ws hflow := by
    cases hflow
    exact (h.nodup _ _ rfl).sublist (hqueue.map _)
  done q ws hflow := by
    cases hflow
    exact hdone
  staffed q ws hflow hnil := by
    cases hflow
    rw [hnil] at hlength
    exact h.staffed _ _ rfl (List.eq_nil_of_length_eq_zero hlength.symm)

/-- The worker that moves is between two files. -/
theorem getElem?_set_of_next {workers : List Worker} {index i : Nat} {w : Worker} {tid : TaskId}
    (hnext : workers[index]? = some .next) (hi : workers[i]? = some (.uploading tid)) :
    (workers.set index w)[i]? = some (.uploading tid) := by
  have hne : index ≠ i := by
    intro heq
    rw [heq, hi] at hnext
    cases hnext
  rw [List.getElem?_set_ne hne]
  exact hi

/-- A worker that is not the one that moves is done after the move if it was before. -/
theorem mem_set_done {workers : List Worker} {index : Nat} {w : Worker} (hw : w ≠ .done)
    (h : .done ∈ workers.set index w) : .done ∈ workers := by
  rcases List.mem_or_eq_of_mem_set h with h | h
  · exact h
  · exact absurd h.symm hw

/-- **A worker dispatches the next file.** -/
theorem Crew.sent {file : SendingFile} {queue : List SendingFile} {workers : List Worker}
    (h : Crew (some (.sending (file :: queue) workers)) ups) {n : TaskId} {index : Nat}
    (hnext : workers[index]? = some .next) {u : Upload} (hindex : u.action.isolateIndex = index) :
    Crew (some (.sending queue (workers.set index (.uploading n))))
      (Function.update ups n (some u)) := by
  have hmoved : Crew (some (.sending queue (workers.set index (.uploading n)))) ups :=
    h.moved (List.sublist_cons_self _ _) (fun tid v _ _ hv => getElem?_set_of_next hnext hv)
      (fun hdone => by cases h.done _ _ rfl (mem_set_done (w := .uploading n) (fun h => by cases h) hdone))
      (List.length_set ..)
  refine ⟨fun _ _ _ => ⟨_, rfl, rfl⟩, fun tid v hv hretry => ?_, hmoved.nodup, hmoved.done,
    hmoved.staffed⟩
  by_cases htid : tid = n
  · subst htid
    rw [Function.update_self] at hv
    obtain rfl := Option.some.inj hv
    refine ⟨_, _, rfl, ?_⟩
    have hlt : index < workers.length := (List.getElem?_eq_some_iff.mp hnext).1
    rw [hindex, List.getElem?_set_self hlt]
  · rw [Function.update_of_ne htid] at hv
    exact hmoved.worker tid v hv hretry

/-- **A retry is dispatched.** -/
theorem Crew.retried (h : Crew (some flow) ups) (hflow : flow.isBegun = true) {n : TaskId}
    {u : Upload} (hretry : u.isRetry = true) :
    Crew (some flow) (Function.update ups n (some u)) := by
  refine ⟨fun _ _ _ => ⟨_, rfl, hflow⟩, fun tid v hv hr => ?_, h.nodup, h.done, h.staffed⟩
  by_cases htid : tid = n
  · subst htid
    rw [Function.update_self] at hv
    obtain rfl := Option.some.inj hv
    rw [hretry] at hr
    cases hr
  · rw [Function.update_of_ne htid] at hv
    exact h.worker tid v hv hr

/-- Fewer uploads. -/
theorem Crew.erased {fl : Option Flow} (h : Crew fl ups) (tid : TaskId) :
    Crew fl (Function.update ups tid none) := by
  have hold : ∀ id u, Function.update ups tid none id = some u → ups id = some u := by
    intro id u hu
    by_cases hid : id = tid
    · rw [hid, Function.update_self] at hu
      cases hu
    · rwa [Function.update_of_ne hid] at hu
  exact ⟨fun id u hu => h.begun id u (hold id u hu), fun id u hu => h.worker id u (hold id u hu),
    h.nodup, h.done, h.staffed⟩

/-- **An upload is over**: its worker goes on, and no other worker waited for it. -/
theorem Crew.uploaded {fl : Option Flow} (h : Crew fl ups) {tid : TaskId} {u : Upload}
    (hu : ups tid = some u) : Crew (fl.map (Flow.afterUpload u)) (Function.update ups tid none) := by
  cases fl with
  | none => exact h.erased tid
  | some flow =>
      cases hretry : u.isRetry with
      | true =>
          have hsame : Flow.afterUpload u flow = flow := by
            cases flow <;> simp [Flow.afterUpload, hretry]
          rw [Option.map_some, hsame]
          exact h.erased tid
      | false =>
          obtain ⟨queue, workers, hflow, hw⟩ := h.worker tid u hu hretry
          cases hflow
          simp only [Option.map_some, Flow.afterUpload, hretry, Bool.false_eq_true, if_false]
          refine (h.erased tid).moved (.refl _) (fun id v hv _ hw' => ?_)
            (fun hdone => h.done _ _ rfl (mem_set_done (w := .next) (fun h => by cases h) hdone))
            (List.length_set ..)
          have hne : u.action.isolateIndex ≠ v.action.isolateIndex := by
            intro heq
            rw [heq, hw'] at hw
            cases hw
            rw [Function.update_self] at hv
            cases hv
          rw [List.getElem?_set_ne hne]
          exact hw'

/-- All workers are done: the queue is empty. -/
theorem Crew.queue_empty {queue : List SendingFile} {workers : List Worker}
    (h : Crew (some (.sending queue workers)) ups) (hall : workers.all (· = .done) = true) :
    queue = [] := by
  cases workers with
  | nil => exact absurd rfl (h.staffed _ _ rfl)
  | cons w ws =>
      have hw : w = .done := by simpa using List.all_eq_true.mp hall w List.mem_cons_self
      exact h.done _ _ rfl (hw ▸ List.mem_cons_self)

/-- All workers are done: only retries are in flight. -/
theorem Crew.no_worker_upload {queue : List SendingFile} {workers : List Worker}
    (h : Crew (some (.sending queue workers)) ups) (hall : workers.all (· = .done) = true)
    (tid : TaskId) (u : Upload) (hretry : u.isRetry = false) : ups tid ≠ some u := by
  intro hu
  obtain ⟨q, ws, hflow, hw⟩ := h.worker tid u hu hretry
  cases hflow
  have hdone := List.all_eq_true.mp hall _ (List.mem_of_getElem? hw)
  simp at hdone

end Workers

/-! ## 4. Every turn keeps the invariant -/

section Turns

variable {n : TaskId} {k : String} {v w : View} {e : Event}

theorem Fits.running {x : SendSessionState} {flow : Flow} {ups : TaskId → Option Upload}
    (h : Fits x flow ups) (hflow : flow.isBegun = true) : Running x flow.queue ups := by
  rwa [Fits, if_pos hflow] at h

theorem Fits.fresh {x : SendSessionState} {flow : Flow} {ups : TaskId → Option Upload}
    (h : Fits x flow ups) (hflow : flow.isBegun = false) : Fresh x flow := by
  rwa [Fits, hflow, if_neg Bool.false_ne_true] at h

theorem handshake_not_begun {flow : Flow} (h : flow.isHandshake = true) : flow.isBegun = false := by
  cases flow <;> first | rfl | cases h

theorem isRefusal_status {status : SessionStatus} (h : isRefusal status = true) :
    status ≠ .finished ∧ status ≠ .sending := by
  cases status <;> simp_all [isRefusal]

theorem isFinishedOrError_iff {x : SendSessionState} : x.isFinishedOrError = true ↔
    ∀ id f, x.files.get? id = some f → f.status.isFinishedOrError = true := by
  simp only [SendSessionState.isFinishedOrError, List.all_eq_true, LinkedMap.mem_values]
  constructor
  · intro h id f hf
    exact h f ⟨id, hf⟩
  · intro h f hf
    obtain ⟨id, hf⟩ := hf
    exact h id f hf

/-- While a file waits for its worker, a session that may send is sending. -/
theorem Running.sending_of_queue {x : SendSessionState} {queue : List SendingFile}
    {ups : TaskId → Option Upload} (h : Running x queue ups)
    (hallowed : allowedStates x.status = true) {id : String} {f : SendingFile}
    (hf : x.files.get? id = some f) (hfs : f.status = .queue) : x.status = .sending := by
  cases hstatus : x.status with
  | sending => rfl
  | finishedWithErrors => exact absurd hfs (h.settled (Or.inr hstatus) id f hf)
  | _ => simp [hstatus, allowedStates] at hallowed

/-- The end of an upload, with the `_finish` of a retry. -/
theorem Running.afterUpload {x y : SendSessionState} {queue : List SendingFile}
    {ups : TaskId → Option Upload} (h : Running x queue ups) {tid : TaskId} {u : Upload}
    (hu : ups tid = some u) {error : Option String} {now : Int}
    (hy : x.afterUpload u tid error now = some y) :
    Running y queue (Function.update ups tid none) := by
  have huploaded := h.uploaded hu error
  unfold SendSessionState.afterUpload at hy
  simp only at hy
  split at hy
  · rename_i hall
    simp only [Bool.and_eq_true] at hall
    refine huploaded.finish hy fun _ id f hf hfs => ?_
    have hdone := isFinishedOrError_iff.mp hall.2 id f hf
    rw [hfs] at hdone
    cases hdone
  · cases hy
    exact huploaded

theorem afterUpload_flow (u : Upload) (flow : Flow) :
    (Flow.afterUpload u flow).isBegun = flow.isBegun ∧
    (Flow.afterUpload u flow).queue = flow.queue := by
  cases flow with
  | sending queue workers =>
      unfold Flow.afterUpload
      simp only
      split <;> exact ⟨rfl, rfl⟩
  | _ => exact ⟨rfl, rfl⟩

/-- Outside `startUpload` the flow only says where the handshake stands. -/
theorem crew_not_begun {flow flow' : Flow} {ups : TaskId → Option Upload}
    (h : Crew (some flow) ups) (hflow : flow.isBegun = false) (hflow' : flow'.isBegun = false) :
    Crew (some flow') ups := by
  rw [h.not_begun hflow]
  refine crew_idle fun queue workers heq => ?_
  rw [heq] at hflow'
  cases hflow'

/-- **`startUpload` puts its workers to work**, any number of them. -/
theorem Fresh.steady {x : SendSessionState} {flow : Flow} (h : Fresh x flow)
    (remote : Option String) (fileMap : LinkedMap String String) (now : Int)
    {count : Nat} (hcount : 1 ≤ count) :
    View.Steady ⟨some (x.opened remote fileMap now),
      some (.sending (x.opened remote fileMap now).files.values (List.replicate count .next)),
      fun _ => none⟩ := by
  have hrunning := h.opened remote fileMap now
  refine ⟨⟨fun _ _ h => noUpload h, fun _ _ h => noUpload h, ?_, ?_, ?_⟩, ?_⟩
  · intro queue workers hflow
    cases hflow
    rw [LinkedMap.map_values_eq_keys hrunning.keyed]
    exact (x.opened remote fileMap now).files.nodup
  · intro queue workers hflow hdone
    cases hflow
    cases List.eq_of_mem_replicate hdone
  · intro queue workers hflow hnil
    cases hflow
    have hlength := congrArg List.length hnil
    rw [List.length_replicate, List.length_nil] at hlength
    omega
  · intro z hz
    obtain rfl := Option.some.inj hz
    exact ⟨_, rfl, hrunning⟩

/-- **Every turn keeps the invariant.** -/
theorem steady_turn (h : v.Steady) (hn : v.uploads n = none) (ht : Turn n k v e w) : w.Steady := by
  cases ht with
  | other => exact h
  | created target files background preview ids x hx hids =>
      refine ⟨crew_idle nofun, fun y hy => ?_⟩
      obtain rfl := Option.some.inj hy
      refine ⟨_, rfl, ?_⟩
      rw [hx]
      exact newSession_fresh k target files background preview ids _
  | passed _ x ups flow flow' hflow hflow' =>
      have hbegun := handshake_not_begun hflow
      refine ⟨crew_not_begun h.crew hbegun hflow', fun y hy => ⟨flow', rfl, ?_⟩⟩
      obtain ⟨fl, hfl, hfits⟩ := h.fits y hy
      obtain rfl := Option.some.inj hfl
      have hfresh := hfits.fresh hbegun
      rw [Fits, hflow', if_neg Bool.false_ne_true]
      exact ⟨fun _ => hfresh.waiting hflow, hfresh.status, hfresh.keyed, hfresh.queued⟩
  | refused _ x ups flow status message hflow hstatus =>
      have hbegun := handshake_not_begun hflow
      refine ⟨crew_not_begun h.crew hbegun rfl, fun y hy => ⟨.stopped, rfl, ?_⟩⟩
      obtain ⟨fl, hfl, hfits⟩ := h.fits x rfl
      obtain rfl := Option.some.inj hfl
      have hfresh := hfits.fresh hbegun
      obtain rfl := Option.some.inj hy
      exact ⟨nofun, isRefusal_status hstatus, hfresh.keyed, hfresh.queued⟩
  | empty _ x ups flow hflow =>
      exact ⟨crew_not_begun h.crew (handshake_not_begun hflow) rfl, fun _ hy => by cases hy⟩
  | opened reply now x y ups submission remote fileMap hy =>
      obtain ⟨fl, hfl, hfits⟩ := h.fits x rfl
      obtain rfl := Option.some.inj hfl
      have hfresh := hfits.fresh rfl
      obtain rfl : ups = fun _ => none := h.crew.not_begun rfl
      rw [hy]
      exact hfresh.steady remote fileMap now (Nat.le_add_left 1 1)
  | left index x ups workers hnext =>
      refine ⟨h.crew.moved (.refl _) (fun tid u _ _ hu => getElem?_set_of_next hnext hu)
        (fun _ => rfl) (List.length_set ..), fun y hy => ?_⟩
      obtain ⟨fl, hfl, hfits⟩ := h.fits y hy
      obtain rfl := Option.some.inj hfl
      exact ⟨_, rfl, hfits⟩
  | skipped index x ups file queue workers hnext hsends =>
      refine ⟨h.crew.moved (List.sublist_cons_self _ _) (fun _ _ _ _ hu => hu)
        (fun hdone => by cases h.crew.done _ _ rfl hdone) rfl, fun y hy => ⟨_, rfl, ?_⟩⟩
      obtain ⟨fl, hfl, hfits⟩ := h.fits y hy
      obtain rfl := Option.some.inj hfl
      have hrunning := hfits.running rfl
      refine { hrunning with
        waiting := fun g hg => hrunning.waiting g (List.mem_cons_of_mem _ hg)
        queued := fun hstatus id f hf hfs => ?_ }
      obtain ⟨g, hg, hid⟩ := hrunning.queued hstatus id f hf hfs
      rcases List.mem_cons.mp hg with rfl | hg
      · -- a sending session sends every file that has a token
        obtain ⟨f', hf', htoken, _⟩ := hrunning.waiting g List.mem_cons_self
        rw [hid, hf] at hf'
        obtain rfl := Option.some.inj hf'
        obtain rfl : x = some y := hy
        have hnone : g.token = none := by
          cases htok : g.token with
          | none => rfl
          | some token => simp [sends, htok, hstatus, allowedStates] at hsends
        rw [← htoken] at hnone
        rw [(hrunning.skipped id f hf).mp hnone] at hfs
        cases hfs
      · exact ⟨g, hg, hid⟩
  | sent index x ups file queue workers token hnext hallowed htoken =>
      refine ⟨h.crew.sent hnext rfl, fun y hy => ⟨_, rfl, ?_⟩⟩
      obtain rfl := Option.some.inj hy
      obtain ⟨fl, hfl, hfits⟩ := h.fits x rfl
      obtain rfl := Option.some.inj hfl
      have hrunning : Running x (file :: queue) ups := hfits.running rfl
      obtain ⟨f, hf, hftoken, hfqueue⟩ := hrunning.waiting file List.mem_cons_self
      have hfs : f.status = .queue := hfqueue (htoken ▸ nofun)
      have hnodup : ∀ g ∈ queue, g.file.id ≠ file.file.id := by
        intro g hg hid
        have hnd := h.crew.nodup _ _ rfl
        rw [List.map_cons, List.nodup_cons] at hnd
        exact hnd.1 (hid ▸ List.mem_map_of_mem hg)
      have hstatus := hrunning.sending_of_queue hallowed hf hfs
      refine hrunning.dispatched (List.subset_cons_self _ _) hn hf (hftoken.trans htoken)
        (hfs ▸ nofun) hnodup (fun _ => hstatus) fun id g hg hgs hid => ?_
      obtain ⟨g', hg', hid'⟩ := hrunning.queued hstatus id g hg hgs
      rcases List.mem_cons.mp hg' with rfl | hg'
      · exact absurd hid'.symm hid
      · exact ⟨g', hg', hid'⟩
  | retried x flow ups file token hallowed htoken hfile hfailed =>
      obtain ⟨fl, hfl, hfits⟩ := h.fits x rfl
      obtain rfl : flow = some fl := hfl
      have hbegun : fl.isBegun = true := by
        cases hb : fl.isBegun with
        | true => rfl
        | false =>
            have hqueue := ((hfits.fresh hb).queued _ file hfile).1
            rw [hfailed] at hqueue
            cases hqueue
      refine ⟨h.crew.retried hbegun rfl, fun y hy => ⟨fl, rfl, ?_⟩⟩
      obtain rfl := Option.some.inj hy
      have hrunning : Running x fl.queue ups := hfits.running hbegun
      rw [Fits, if_pos hbegun]
      refine hrunning.dispatched (List.Subset.refl _) hn hfile htoken (hfailed ▸ nofun)
        (fun g hg hid => ?_) nofun fun id g hg hgs _ => ?_
      · obtain ⟨f, hf, hftoken, hfqueue⟩ := hrunning.waiting g hg
        rw [hid, hfile] at hf
        obtain rfl := Option.some.inj hf
        have hfs := hfqueue (hftoken ▸ htoken ▸ nofun)
        rw [hfailed] at hfs
        cases hfs
      · exact hrunning.queued (hrunning.sending_of_queue hallowed hg hgs) id g hg hgs
  | uploaded id error now x flow ups u hu =>
      refine ⟨h.crew.uploaded hu, fun y hy => ?_⟩
      obtain ⟨z, rfl, hz⟩ := Option.bind_eq_some_iff.mp hy
      obtain ⟨fl, hfl, hfits⟩ := h.fits z rfl
      obtain rfl : flow = some fl := hfl
      obtain ⟨fl', hfl', hbegun⟩ := h.crew.begun id u hu
      obtain rfl := Option.some.inj hfl'
      refine ⟨_, rfl, ?_⟩
      rw [Fits, if_pos ((afterUpload_flow u fl).1.trans hbegun), (afterUpload_flow u fl).2]
      have hrunning : Running z fl.queue ups := hfits.running hbegun
      exact hrunning.afterUpload hu hz
  | ended now x ups queue workers hall =>
      obtain rfl : queue = [] := h.crew.queue_empty hall
      refine ⟨⟨fun _ _ _ => ⟨_, rfl, rfl⟩, fun tid u hu hretry => ?_, ?_, ?_, ?_⟩, fun y hy => ?_⟩
      · exact absurd hu (h.crew.no_worker_upload hall tid u hretry)
      · intro q ws hflow
        cases hflow
      · intro q ws hflow
        cases hflow
      · intro q ws hflow
        cases hflow
      · obtain ⟨z, rfl, hz⟩ := Option.bind_eq_some_iff.mp hy
        obtain ⟨fl, hfl, hfits⟩ := h.fits z rfl
        obtain rfl := Option.some.inj hfl
        have hrunning : Running z [] ups := hfits.running rfl
        refine ⟨_, rfl, hrunning.finish hz fun hstatus id f hf hfs => ?_⟩
        obtain ⟨g, hg, _⟩ := hrunning.queued hstatus id f hf hfs
        cases hg
  | closed _ x flow ups he => exact ⟨h.crew, fun _ hy => by cases hy⟩
  | canceled now x flow ups hstatus =>
      refine ⟨h.crew, fun y hy => ?_⟩
      obtain rfl := Option.some.inj hy
      obtain ⟨fl, hfl, hfits⟩ := h.fits x rfl
      refine ⟨fl, hfl, ?_⟩
      cases hbegun : fl.isBegun with
      | true =>
          have hrunning : Running x fl.queue ups := hfits.running hbegun
          rw [Fits, if_pos hbegun]
          exact hrunning.of_same rfl rfl rfl rfl nofun (by simp)
      | false => exact absurd hstatus (hfits.fresh hbegun).status.2
  | background b x flow ups =>
      refine ⟨h.crew, fun y hy => ?_⟩
      obtain rfl := Option.some.inj hy
      obtain ⟨fl, hfl, hfits⟩ := h.fits x rfl
      refine ⟨fl, hfl, ?_⟩
      cases hbegun : fl.isBegun with
      | true =>
          have hrunning : Running x fl.queue ups := hfits.running hbegun
          rw [Fits, if_pos hbegun]
          exact hrunning.of_same rfl rfl rfl rfl id hrunning.settled
      | false =>
          have hfresh := hfits.fresh hbegun
          rw [Fits, hbegun, if_neg Bool.false_ne_true]
          exact ⟨hfresh.waiting, hfresh.status, hfresh.keyed, hfresh.queued⟩

/-- The number of workers stays. -/
theorem count_turn (h : ∀ queue workers, v.flow = some (.sending queue workers) →
    workers.length = uploadIsolateCount) (ht : Turn n k v e w) (queue : List SendingFile)
    (workers : List Worker) (hw : w.flow = some (.sending queue workers)) :
    workers.length = uploadIsolateCount := by
  cases ht with
  | created | refused | empty | ended => cases hw
  | passed _ _ _ _ _ _ h' =>
      cases hw
      cases h'
  | opened =>
      cases hw
      exact List.length_replicate
  | left | sent =>
      cases hw
      rw [List.length_set]
      exact h _ _ rfl
  | skipped =>
      cases hw
      exact h _ _ rfl
  | uploaded id error now x flow ups u hu =>
      obtain ⟨fl, rfl, hfl⟩ := Option.map_eq_some_iff.mp hw
      cases fl with
      | sending q ws =>
          have hold := h q ws rfl
          unfold Flow.afterUpload at hfl
          dsimp only at hfl
          split at hfl
          · cases hfl
            exact hold
          · cases hfl
            rw [List.length_set]
            exact hold
      | _ => cases hfl
  | _ => exact h queue workers hw

/-- **Every turn keeps the invariant.** -/
theorem sound_turn (h : v.Sound) (hn : v.uploads n = none) (ht : Turn n k v e w) : w.Sound := by
  have hsteady := steady_turn ⟨h.loop.crew, h.fits⟩ hn ht
  exact ⟨hsteady.crew.loop (count_turn h.loop.count ht), hsteady.fits⟩

/-- The invariant of every session. -/
structure Sound (s : State) : Prop where
  known : Known s
  sound : ∀ k, (s.view k).Sound

theorem sound_initial : Sound State.initial := ⟨known_initial, fun _ => sound_blank⟩

theorem Sound.uploads_nextId {s : State} (h : Known s) (k : String) :
    (s.view k).uploads s.nextId = none := by
  simp [State.view, uploadsOf, h.taskId _ (Nat.le_refl _)]

/-- **Every step keeps the invariant.** -/
theorem sound_step {s t : State} (h : Sound s) (hs : service.step s e = some t) : Sound t where
  known := known_step h.known hs
  sound k := sound_turn (h.sound k) (Sound.uploads_nextId h.known k) (step_turn h.known hs k)

end Turns

end LocalSend.SendSession
