/-
  File:      LocalSend/Send/Status.lean
  Subject:   STATUS AND FILES OF A SEND SESSION. `_finish` decides on the failed files only; it is
             called at the end of `_sendLoop` and at the end of a retry.

  * `Consistent` -- what the status of a session says about its files;
  * `quiet` -- the loop ends while no retry is in flight: the condition on the steps;
  * `consistent_turn`, `statuses_consistent` -- **in such runs the status tells the truth**;
  * `finished_while_sending` -- the other runs.
-/
import LocalSend.Send.Ownership

namespace LocalSend.SendSession

open Lib

/-! ## 1. What the status says -/

/-- **The status of a session and its files**; `begun`: `startUpload` was called. -/
structure Consistent (x : SendSessionState) (begun : Bool) : Prop where
  finished : x.status = .finished → ∀ id f, x.files.get? id = some f →
    f.status = .finished ∨ f.status = .skipped
  finishedWithErrors : begun = true → x.status = .finishedWithErrors →
    ∀ id f, x.files.get? id = some f → f.status ≠ .queue ∧ f.status ≠ .sending

section Record

variable {x y : SendSessionState} {begun : Bool}

/-- Other statuses say nothing. -/
theorem Consistent.of_status (h : x.status ≠ .finished)
    (h' : begun = true → x.status ≠ .finishedWithErrors) : Consistent x begun where
  finished hstatus := absurd hstatus h
  finishedWithErrors hbegun hstatus := absurd hstatus (h' hbegun)

/-- The same status and files. -/
theorem Consistent.of_same (h : Consistent x begun) (hstatus : y.status = x.status)
    (hfiles : y.files = x.files) : Consistent y begun where
  finished := hstatus ▸ hfiles ▸ h.finished
  finishedWithErrors := hstatus ▸ hfiles ▸ h.finishedWithErrors

theorem hasError_iff : x.hasError = true ↔
    ∃ id f, x.files.get? id = some f ∧ f.status = .failed := by
  simp only [SendSessionState.hasError, List.any_eq_true, decide_eq_true_eq, LinkedMap.mem_values]
  constructor
  · intro h
    obtain ⟨f, ⟨id, hf⟩, hs⟩ := h
    exact ⟨id, f, hf, hs⟩
  · intro h
    obtain ⟨id, f, hf, hs⟩ := h
    exact ⟨f, ⟨id, hf⟩, hs⟩

/-- **`_finish` tells the truth once every file is done.** -/
theorem finish_consistent (h : Consistent x begun)
    (hdone : x.status = .sending → x.closes = false → x.isFinishedOrError = true) {now : Int}
    (hy : x.finish now = some y) : Consistent y begun := by
  unfold SendSessionState.finish at hy
  split at hy
  · cases hy
    exact h
  · rename_i hstatus
    have hstatus : x.status = .sending := by simpa using hstatus
    split at hy
    · cases hy
    · rename_i hclose
      have hall := isFinishedOrError_iff.mp (hdone hstatus (by
        simpa [SendSessionState.closes, hstatus] using hclose))
      cases hy
      refine ⟨fun hfinished id f hf => ?_, fun _ _ id f hf => ?_⟩
      · have hne : f.status ≠ .failed := by
          intro hfailed
          have herror : x.hasError = true := hasError_iff.mpr ⟨id, f, hf, hfailed⟩
          simp [herror] at hfinished
        have hf' := hall id f hf
        cases hfs : f.status <;> simp_all [FileStatus.isFinishedOrError]
      · have hf' := hall id f hf
        cases hfs : f.status <;> simp_all [FileStatus.isFinishedOrError]

end Record

/-! ## 2. Turns and runs -/

section Runs

variable {n : TaskId} {k : String} {v w : View} {s t : State} {e : Event}

/-- The session of a view, if any, is consistent. -/
def View.Consistent (v : View) : Prop :=
  ∀ x flow, v.session = some x → v.flow = some flow → SendSession.Consistent x flow.isBegun

/-- **No retry is in flight when `_sendLoop` ends** and `_finish` sets the status: the condition
    on the steps. -/
def quiet (s : State) : Event → Prop
  | .loopEnded k _ => ∀ x ∈ s.sessions.get? k, x.status = .sending → x.closes = false →
      ∀ task ∈ s.uploads.entries, task.2.sessionId = k → task.2.isRetry = false
  | _ => True

/-- While an upload is in flight the session has not ended. -/
theorem Consistent.not_ended {x : SendSessionState} {queue : List SendingFile}
    {ups : TaskId → Option Upload} (h : Consistent x true) (hR : Running x queue ups)
    {id : TaskId} {u : Upload} (hu : ups id = some u) :
    x.status ≠ .finished ∧ x.status ≠ .finishedWithErrors := by
  obtain ⟨f, hf, hfs, _⟩ := hR.busy id u hu
  refine ⟨fun hstatus => ?_, fun hstatus => ?_⟩
  · rcases h.finished hstatus _ f hf with hs | hs <;> cases hfs.symm.trans hs
  · exact (h.finishedWithErrors rfl hstatus _ f hf).2 hfs

/-- The loop is over and nothing is in flight: every file of a sending session is done. -/
theorem Running.all_done {x : SendSessionState} {ups : TaskId → Option Upload}
    (h : Running x [] ups) (hups : ∀ id, ups id = none) (hstatus : x.status = .sending) :
    x.isFinishedOrError = true := by
  refine isFinishedOrError_iff.mpr fun id f hf => ?_
  cases hfs : f.status with
  | queue =>
      obtain ⟨g, hg, _⟩ := h.queued hstatus id f hf hfs
      cases hg
  | sending =>
      obtain ⟨tid, u, hu, _⟩ := h.sending id f hf hfs
      rw [hups tid] at hu
      cases hu
  | _ => rfl

theorem consistent_turn (hS : v.Sound) (h : v.Consistent)
    (hquiet : ∀ now x, e = .loopEnded k now → v.session = some x → x.status = .sending →
      x.closes = false → ∀ id u, v.uploads id = some u → u.isRetry = false)
    (ht : Turn n k v e w) : w.Consistent := by
  intro y flow hy hflow
  cases ht with
  | other => exact h y flow hy hflow
  | created target files background preview ids x hx hids =>
      obtain rfl := Option.some.inj hy
      exact .of_status (by rw [hx]; exact nofun) (by rw [hx]; exact nofun)
  | passed _ x ups fl fl' hfl hfl' =>
      obtain rfl := Option.some.inj hflow
      have hold := h y fl hy rfl
      rw [handshake_not_begun hfl] at hold
      rwa [hfl']
  | refused _ x ups fl status message hfl hstatus =>
      obtain rfl := Option.some.inj hy
      obtain rfl := Option.some.inj hflow
      exact .of_status (isRefusal_status hstatus).1 nofun
  | empty => cases hy
  | opened reply now x z ups submission remote fileMap hz =>
      obtain rfl := Option.some.inj hy
      exact .of_status (by rw [hz]; exact nofun) (by rw [hz]; exact nofun)
  | left index x ups workers hnext =>
      obtain rfl := Option.some.inj hflow
      exact h y (.sending [] workers) hy rfl
  | skipped index x ups file queue workers hnext hsends =>
      obtain rfl := Option.some.inj hflow
      exact h y (.sending (file :: queue) workers) hy rfl
  | sent index x ups file queue workers token hnext hallowed htoken =>
      obtain rfl := Option.some.inj hy
      obtain ⟨fl, hfl, hfits⟩ := hS.fits x rfl
      obtain rfl := Option.some.inj hfl
      have hrunning : Running x (file :: queue) ups := hfits.running rfl
      obtain ⟨f, hf, _, hfqueue⟩ := hrunning.waiting file List.mem_cons_self
      have hstatus := hrunning.sending_of_queue hallowed hf (hfqueue (htoken ▸ nofun))
      have hsending : (x.dispatched false file.file.id ⟨index, n⟩).status = .sending :=
        dispatched_status (fun _ => hstatus) _ _
      exact .of_status (hsending ▸ nofun) (hsending ▸ nofun)
  | retried x fl ups file token hallowed htoken hfile hfailed =>
      obtain rfl := Option.some.inj hy
      exact .of_status nofun nofun
  | uploaded id error now x fl ups u hu =>
      obtain ⟨z, rfl, hz⟩ := Option.bind_eq_some_iff.mp hy
      obtain ⟨fl', rfl, rfl⟩ := Option.map_eq_some_iff.mp hflow
      obtain ⟨fl'', hfl, hbegun⟩ := hS.loop.begun id u hu
      obtain rfl := Option.some.inj hfl
      obtain ⟨fl'', hfl, hfits⟩ := hS.fits z rfl
      obtain rfl := Option.some.inj hfl
      have hold := h z fl' rfl rfl
      rw [hbegun] at hold
      rw [(afterUpload_flow u fl').1, hbegun]
      obtain ⟨hnf, hne⟩ := hold.not_ended (hfits.running hbegun) hu
      have huploaded : SendSession.Consistent (z.uploaded u.action.fileId (u.task id) error) true :=
        .of_status hnf fun _ => hne
      unfold SendSessionState.afterUpload at hz
      simp only at hz
      split at hz
      · rename_i hall
        simp only [Bool.and_eq_true] at hall
        exact finish_consistent huploaded (fun _ _ => hall.2) hz
      · cases hz
        exact huploaded
  | ended now x ups queue workers hall =>
      obtain ⟨z, rfl, hz⟩ := Option.bind_eq_some_iff.mp hy
      obtain rfl := Option.some.inj hflow
      obtain ⟨fl, hfl, hfits⟩ := hS.fits z rfl
      obtain rfl := Option.some.inj hfl
      have hrunning : Running z queue ups := hfits.running rfl
      obtain rfl : queue = [] := hS.loop.crew.queue_empty hall
      refine finish_consistent (h z (.sending [] workers) rfl rfl) (fun hstatus hclose => ?_) hz
      refine hrunning.all_done (fun id => ?_) hstatus
      -- the workers are done, and a retry is kept out by the condition
      cases hu : ups id with
      | none => rfl
      | some u =>
          have hretry := hquiet now z rfl rfl hstatus hclose id u hu
          exact absurd hu (hS.loop.crew.no_worker_upload hall id u hretry)
  | closed => cases hy
  | canceled now x fl ups hstatus =>
      obtain rfl := Option.some.inj hy
      exact .of_status nofun nofun
  | background b x fl ups =>
      obtain rfl := Option.some.inj hy
      exact (h x flow rfl hflow).of_same rfl rfl

theorem quiet_view (hg : quiet s e) (now : Int) (x : SendSessionState)
    (he : e = .loopEnded k now) (hx : (s.view k).session = some x) (hstatus : x.status = .sending)
    (hclose : x.closes = false) (id : TaskId) (u : Upload)
    (hu : (s.view k).uploads id = some u) : u.isRetry = false := by
  subst he
  obtain ⟨hmem, hk⟩ := uploadsOf_eq_some.mp hu
  exact hg x hx hstatus hclose (id, u) (LinkedMap.get?_mem hmem) hk

/-- **The status of every session tells the truth**, in any run in which `_sendLoop` never ends
    under a retry. -/
theorem statuses_consistent (es : List Event) (s : State)
    (h : service.Run quiet State.initial es s) (k : String) (x : SendSessionState)
    (hx : s.sessions.get? k = some x) :
    ∃ flow, s.flows.get? k = some flow ∧ Consistent x flow.isBegun := by
  have hI : Sound s ∧ ∀ k, (s.view k).Consistent := by
    refine h.invariant (I := fun s => Sound s ∧ ∀ k, (s.view k).Consistent)
      ⟨sound_initial, fun k x flow hx => by cases hx⟩ fun a e b ha hg hs => ⟨sound_step ha.1 hs, ?_⟩
    intro k
    exact consistent_turn (ha.1.sound k) (ha.2 k) (quiet_view hg) (step_turn ha.1.known hs k)
  obtain ⟨flow, hflow, _⟩ := (hI.1.sound k).fits x hx
  exact ⟨flow, hflow, hI.2 k x flow hx hflow⟩

instance (s : State) : (e : Event) → Decidable (quiet s e)
  | .loopEnded k _ =>
    inferInstanceAs (Decidable (∀ x ∈ s.sessions.get? k, x.status = .sending → x.closes = false →
      ∀ task ∈ s.uploads.entries, task.2.sessionId = k → task.2.isRetry = false))
  | .startSession _ _ _ _ _ | .submitted _ _ _ | .pinEntered _ _ | .work _ _ | .uploadEnded _ _ _
  | .retry _ _ | .cancelSession _ | .cancelSessionByReceiver _ _ | .closeSession _
  | .clearAllSessions | .setBackground _ _ => inferInstanceAs (Decidable True)

/-- Both files are sent, the first one fails and is sent again while the second one arrives. -/
def retriedRun : List Event :=
  acceptedRun false ++ [.work "S" 0, .work "S" 1, .uploadEnded 0 (some "reset") 2,
    .retry "S" ⟨⟨"a", "a.bin", 1, .other, none⟩, .failed, some "ta", some "/a.bin", none, some "reset"⟩,
    .uploadEnded 1 none 3]

/-- The retry ends before the loop does. -/
theorem statuses_consistent_retriedRun :
    ∃ s x, service.Run quiet State.initial (retriedRun ++ [.uploadEnded 2 none 4, .work "S" 0,
        .work "S" 1, .loopEnded "S" 5]) s ∧
      s.sessions.get? "S" = some x ∧ x.status = .finished ∧
      ∃ flow, s.flows.get? "S" = some flow ∧ Consistent x flow.isBegun := by
  have hrun : ((service.guarded quiet).run State.initial (retriedRun ++ [.uploadEnded 2 none 4,
      .work "S" 0, .work "S" 1, .loopEnded "S" 5])).map
      (fun s => (s.sessions.get? "S").map SendSessionState.status) = some (some .finished) := by
    decide
  obtain ⟨s, hs, hobs⟩ := Machine.run_observe_guarded hrun
  obtain ⟨x, hx, hstatus⟩ := Option.map_eq_some_iff.mp hobs
  exact ⟨s, x, hs, hx, hstatus, statuses_consistent _ s hs "S" x hx⟩

/-- **A finished session that is still sending a file**: the loop ends under the retry. -/
theorem finished_while_sending :
    ∃ s x, service.Run Machine.anyStep State.initial (retriedRun ++ [.work "S" 0, .work "S" 1,
        .loopEnded "S" 4]) s ∧
      s.sessions.get? "S" = some x ∧ ∀ begun, ¬ Consistent x begun := by
  have hrun : (service.run State.initial (retriedRun ++ [.work "S" 0, .work "S" 1,
      .loopEnded "S" 4])).map (fun s => (s.sessions.get? "S").map fun x =>
        (x.status, (x.files.get? "a").map SendingFile.status)) =
      some (some (.finished, some .sending)) := by decide
  obtain ⟨s, hs, hobs⟩ := Machine.run_observe hrun
  obtain ⟨x, hx, heq⟩ := Option.map_eq_some_iff.mp hobs
  obtain ⟨hstatus, hfile⟩ := Prod.mk.inj heq
  obtain ⟨f, hf, hfs⟩ := Option.map_eq_some_iff.mp hfile
  refine ⟨s, x, hs, hx, fun begun hC => ?_⟩
  rcases hC.finished hstatus "a" f hf with h | h <;> cases hfs.symm.trans h

end Runs

end LocalSend.SendSession
