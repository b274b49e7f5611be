/-
  File:      LocalSend/Send/Tasks.lean
  Subject:   TASKS AND IDS. What a step does to the isolate tasks, the cancel actions and the uuids.

  * `SameTasks` -- nothing; `TasksAfter`, `step_tasks` -- the five things a step can do;
  * `known_step` -- ids that were never given out have no view, in every reachable state.
-/
import LocalSend.Send.Sessions

namespace LocalSend.SendSession

open Lib

section Step

variable {s t : State} {k j : String} {e : Event}

/-! ## 1. Tasks and uuids -/

/-- What steps that neither dispatch, cancel nor end a task leave alone. -/
structure SameTasks (s t : State) : Prop where
  uploads : t.uploads = s.uploads
  cancelled : t.cancelled = s.cancelled
  nextId : t.nextId = s.nextId
  uuids : t.uuids = s.uuids

theorem SameTasks.refl (s : State) : SameTasks s s := ⟨rfl, rfl, rfl, rfl⟩

theorem SameTasks.trans {s t u : State} (h : SameTasks s t) (h' : SameTasks t u) : SameTasks s u :=
  ⟨h'.uploads.trans h.uploads, h'.cancelled.trans h.cancelled, h'.nextId.trans h.nextId,
    h'.uuids.trans h.uuids⟩

theorem updateSession_tasks (s : State) (k : String) (f : SendSessionState → SendSessionState) :
    SameTasks s (s.updateSession k f) := by
  unfold State.updateSession
  split <;> exact ⟨rfl, rfl, rfl, rfl⟩

theorem finish_tasks (s : State) (k : String) (now : Int) : SameTasks s (finish s k now) := by
  unfold finish
  repeat' split
  all_goals exact ⟨rfl, rfl, rfl, rfl⟩

theorem setWorker_tasks (s : State) (k : String) (index : Nat) (worker : Worker) :
    SameTasks s (s.setWorker k index worker) := by
  unfold State.setWorker
  split <;> exact ⟨rfl, rfl, rfl, rfl⟩

theorem submitted_tasks (s : State) (k : String) (target : Device) (reply : Reply) :
    SameTasks s (submitted s k target reply).1 := by
  unfold submitted submitFailed
  repeat' split
  all_goals first | exact .refl s | exact updateSession_tasks _ _ _

theorem handleResult_tasks (s : State) (k : String) (result : PrepareUploadResult) (now : Int) :
    SameTasks s (handleResult s k result now) := by
  unfold handleResult startUpload
  repeat' split
  all_goals exact ⟨rfl, rfl, rfl, rfl⟩

theorem pinEntered_tasks (s : State) (k : String) (pin : Option String) :
    SameTasks s (pinEntered s k pin) := by
  unfold pinEntered submitRequest
  repeat' split
  · exact (updateSession_tasks s k _).trans ⟨rfl, rfl, rfl, rfl⟩
  all_goals exact ⟨rfl, rfl, rfl, rfl⟩

/-- The tasks after an upload: its own is gone. -/
theorem uploadEnded_tasks (s : State) (id : TaskId) (u : Upload) (error : Option String)
    (now : Int) :
    SameTasks { s with uploads := s.uploads.erase id } (uploadEnded s id u error now) := by
  have hupdate := updateSession_tasks { s with uploads := s.uploads.erase id } u.sessionId
    fun x => x.uploaded u.action.fileId (u.task id) error
  unfold uploadEnded
  simp only
  split
  · split
    · split
      · exact hupdate.trans (finish_tasks _ _ _)
      · exact hupdate
    · exact hupdate
  · exact hupdate.trans (setWorker_tasks _ _ _ _)

/-- **What a step does to the tasks.** -/
inductive TasksAfter (s t : State) : Event → Prop where
  | same (e : Event) (h : SameTasks s t) : TasksAfter s t e
  | created (k : String) (target : Device) (files : List CrossFile) (background : Bool)
      (ids : List String) (h : SameTasks { s with uuids := k :: ids ++ s.uuids } t) :
      TasksAfter s t (.startSession k target files background ids)
  | dispatched (e : Event) (u : Upload) (h : SameTasks { s with
      nextId := s.nextId + 1
      uploads := s.uploads.insert s.nextId u } t) : TasksAfter s t e
  | ended (id : TaskId) (error : Option String) (now : Int)
      (h : SameTasks { s with uploads := s.uploads.erase id } t) :
      TasksAfter s t (.uploadEnded id error now)
  | cancelled (e : Event) (k : String) (x : SendSessionState) (hx : s.sessions.get? k = some x)
      (he : e = .cancelSession k ∨ ∃ now, e = .cancelSessionByReceiver k now)
      (h : SameTasks (cancelRunningRequests s x) t) : TasksAfter s t e

theorem step_tasks (hs : service.step s e = some t) : TasksAfter s t e := by
  cases e with
  | startSession k target files background ids =>
      simp only [service, step, startSession] at hs
      split at hs
      · split at hs
        · cases hs
          exact .created k target files background ids (.refl _)
        · simp only [submitRequest, State.setSession, LinkedMap.get?_insert_self,
            Option.some.injEq] at hs
          subst hs
          exact .created k target files background ids ⟨rfl, rfl, rfl, rfl⟩
      · cases hs
  | submitted k reply now =>
      simp only [service, step] at hs
      split at hs
      · cases hs
        exact .same _ ((submitted_tasks _ _ _ _).trans (handleResult_tasks _ _ _ _))
      · cases hs
  | pinEntered k pin =>
      simp only [service, step] at hs
      split at hs
      · cases hs
        exact .same _ (pinEntered_tasks s k pin)
      · cases hs
  | work k index =>
      simp only [service, step] at hs
      split at hs
      · rename_i queue workers _
        split at hs
        · cases hs
          cases queue with
          | nil => exact .same _ ⟨rfl, rfl, rfl, rfl⟩
          | cons file queue =>
              rcases sendFile_cases s k index file false with ⟨_, heq⟩ | ⟨token, x, _, _, _, heq⟩
              · simp only [work, heq]
                exact .same _ ⟨rfl, rfl, rfl, rfl⟩
              · simp only [work, heq]
                exact .dispatched _ _ ⟨rfl, rfl, rfl, rfl⟩
        · cases hs
      · cases hs
  | uploadEnded id error now =>
      simp only [service, step] at hs
      split at hs
      · cases hs
        exact .ended id error now (uploadEnded_tasks _ _ _ _ _)
      · cases hs
  | loopEnded k now =>
      simp only [service, step] at hs
      split at hs
      · split at hs
        · cases hs
          exact .same _ ((finish_tasks s k now).trans ⟨rfl, rfl, rfl, rfl⟩)
        · cases hs
      · cases hs
  | retry k file =>
      have hsent : (sendFile s k 0 file true).1 = t := by
        simp only [service, step] at hs
        repeat' split at hs
        all_goals first | exact Option.some.inj hs | cases hs
      subst hsent
      rcases sendFile_cases s k 0 file true with ⟨_, heq⟩ | ⟨token, x, _, _, _, heq⟩
      · rw [heq]
        exact .same _ (.refl s)
      · rw [heq]
        exact .dispatched _ _ ⟨rfl, rfl, rfl, rfl⟩
  | cancelSession k =>
      simp only [service, step, cancelSession] at hs
      split at hs
      · rename_i x hx
        simp only [hx] at hs
        cases hs
        exact .cancelled _ k x hx (Or.inl rfl) ⟨rfl, rfl, rfl, rfl⟩
      · cases hs
  | cancelSessionByReceiver k now =>
      simp only [service, step, cancelSessionByReceiver] at hs
      split at hs
      · rename_i x hx
        split at hs
        · simp only [hx] at hs
          cases hs
          exact .cancelled _ k x hx (Or.inr ⟨now, rfl⟩) ⟨rfl, rfl, rfl, rfl⟩
        · cases hs
      · cases hs
  | closeSession k =>
      simp only [service, step, Option.some.injEq] at hs
      subst hs
      exact .same _ ⟨rfl, rfl, rfl, rfl⟩
  | clearAllSessions =>
      simp only [service, step, Option.some.injEq] at hs
      subst hs
      exact .same _ ⟨rfl, rfl, rfl, rfl⟩
  | setBackground k background =>
      simp only [service, step, Option.some.injEq] at hs
      subst hs
      exact .same _ (updateSession_tasks _ _ _)

/-! ## 2. Ids that were never given out -/

/-- A session that was never there has no view, or was created. -/
theorem Turn.of_blank {n : TaskId} {v : View} (h : Turn n k .blank e v) :
    v = .blank ∨ (∃ target files background ids, e = .startSession k target files background ids) ∧
      v.flow ≠ none := by
  generalize hb : View.blank = b at h
  cases h with
  | other => exact Or.inl rfl
  | created target files background preview ids x hx =>
      exact Or.inr ⟨⟨target, files, background, ids, rfl⟩, nofun⟩
  | uploaded id error now x flow ups u hu =>
      cases hb
      cases hu
  | closed => cases hb; exact Or.inl rfl
  | _ => cases hb

/-- A turn never takes the flow away. -/
theorem Turn.flow_some {n : TaskId} {v w : View} (h : Turn n k v e w) (hw : w.flow = none) :
    v.flow = none := by
  cases h with
  | uploaded id error now x flow ups u hu => exact Option.map_eq_none_iff.mp hw
  | _ => first | exact hw | rfl | cases hw

theorem startSession_uuid {target : Device} {files : List CrossFile} {background : Bool}
    {ids : List String} (hs : service.step s (.startSession k target files background ids) = some t) :
    k ∈ t.uuids := by
  simp only [service, step, startSession] at hs
  split at hs
  · split at hs
    · cases hs
      exact List.mem_cons_self
    · simp only [submitRequest, State.setSession, LinkedMap.get?_insert_self,
        Option.some.injEq] at hs
      subst hs
      exact List.mem_cons_self
  · cases hs

/-- Uuids are never given back. -/
theorem TasksAfter.uuids (h : TasksAfter s t e) (hk : k ∈ s.uuids) : k ∈ t.uuids := by
  cases h with
  | created j target files background ids h =>
      rw [h.uuids]
      exact List.mem_append_right _ hk
  | same _ h | dispatched _ _ h | ended _ _ _ h | cancelled _ _ _ _ _ h =>
      rw [h.uuids]
      exact hk

/-- Only a dispatch adds a task, under the next id. -/
theorem TasksAfter.uploads (h : TasksAfter s t e) {id : TaskId} (hid : s.nextId ≤ id → s.uploads.get? id = none) (hle : t.nextId ≤ id) : t.uploads.get? id = none := by
  cases h with
  | same _ h | created _ _ _ _ _ h =>
      rw [h.nextId] at hle
      rw [h.uploads]
      exact hid hle
  | dispatched _ u h =>
      rw [h.nextId] at hle
      rw [h.uploads, LinkedMap.get?_insert_ne (Nat.ne_of_gt hle)]
      exact hid (Nat.le_of_succ_le hle)
  | ended j error now h =>
      rw [h.nextId] at hle
      rw [h.uploads, LinkedMap.get?_erase, hid hle, ite_self]
  | cancelled _ j x _ _ h =>
      rw [h.nextId] at hle
      rw [h.uploads]
      exact hid (Nat.le_trans (Nat.le_add_right _ _) hle)

/-- Cancel actions are not taken back. -/
theorem TasksAfter.cancelled_mem (h : TasksAfter s t e) {task : SendingTask}
    (hmem : task ∈ s.cancelled) : task ∈ t.cancelled := by
  cases h with
  | same _ h | created _ _ _ _ _ h | dispatched _ _ h | ended _ _ _ h =>
      rw [h.cancelled]
      exact hmem
  | cancelled _ j x _ _ h =>
      rw [h.cancelled]
      exact List.mem_append_right _ hmem

theorem known_step (hK : Known s) (hs : service.step s e = some t) : Known t := by
  have hturn := step_turn hK hs
  have htasks := step_tasks hs
  refine ⟨fun k hk => ?_, fun k hk => ?_, fun id => htasks.uploads (hK.taskId id)⟩
  · have hstep := hturn k
    rw [hK.blank k (hstep.flow_some hk)] at hstep
    rcases hstep.of_blank with h | ⟨_, hne⟩
    · exact h
    · exact absurd hk hne
  · have hstep := hturn k
    rw [hK.view_blank fun hold => hk (htasks.uuids hold)] at hstep
    rcases hstep.of_blank with h | ⟨⟨target, files, background, ids, rfl⟩, _⟩
    · exact congrArg View.flow h
    · exact absurd (startSession_uuid hs) hk

end Step

end LocalSend.SendSession
