/-
  File:      LocalSend/Receive/Responses.lean
  Subject:   UPLOAD RESPONSES TELL THE TRUTH.

  The response of an upload is computed from the session that is there after the await on the
  history: whether it has the file as finished. Between the mark and the response the session may
  be closed by another upload that completed it, or the file marked anew.

  * `accepts`, `marks` -- the steps by which an upload passes its checks, and by which its file is
    marked as finished;
  * `saved_answered_error` -- a run in which a saved file is answered with 500;
  * `undisturbed` -- the guard of a step: while an upload waits for the history its session stays
    and its file is left alone;
  * `uploads_answered` -- in runs of such steps an upload is answered with 200 exactly if its file
    was marked, and otherwise with an error.
-/
import LocalSend.Receive.Grants
import LocalSend.Receive.UploadFrame

namespace LocalSend.Receive

open Lib

variable {platform : Platform} {s t : State} {e : Event} {r : RequestId}

/-! ## 1. What happens to an upload -/

/-- **The upload `r` passes its checks.** -/
def accepts (r : RequestId) (s : State) (e : Event) (_ : State) : Bool :=
  match e with
  | .upload q req _ => decide (q = r) && (uploadGuards s.session req).isOk
  | _ => false

/-- The upload that waits for the history. -/
def Task.recording? : Task → Option Upload
  | .recording u => some u
  | _ => none

/-- **`saveFile` returned for `r` and its file is marked as finished.** -/
def marks (r : RequestId) (_ : State) (e : Event) (t : State) : Bool :=
  match e with
  | .saved q (.ok _) _ => decide (q = r) && ((t.tasks.get? r).bind Task.recording?).isSome
  | _ => false

/-- The uploads that wait for the history. -/
def State.recordings (s : State) : List Upload := s.tasks.values.filterMap Task.recording?

/-- **The guard of a step.** While an upload waits for the history, its entry is written in the
    end, the session is neither closed nor replaced nor given new files, and no other upload
    begins or fails for its file. -/
def undisturbed (s : State) : Event → Prop
  | .recorded _ result _ => result.isOk = true
  | .createSession _ _ _ _ _ _ | .decided _ _ | .delayedClose _ | .closeSession | .cancelSession =>
    s.recordings = []
  | .upload _ req _ => ∀ u ∈ s.recordings, ∀ session fileId file,
      uploadGuards s.session req = .ok (session, fileId, file) → fileId ≠ u.fileId
  | .saved r result _ => result.isOk = false → ∀ u ∈ s.recordings,
      ∀ v ∈ (s.tasks.get? r).bind Task.upload?, v.fileId ≠ u.fileId
  | _ => True

theorem accepts_request (h : accepts r s e t = true) : e.request = some r := by
  cases e with
  | upload q req env =>
      simp only [accepts, Bool.and_eq_true, decide_eq_true_eq] at h
      exact congrArg some h.1
  | _ => cases h

theorem marks_request (h : marks r s e t = true) : e.request = some r := by
  cases e with
  | saved q result env =>
      cases result with
      | error error => cases h
      | ok x =>
          simp only [marks, Bool.and_eq_true, decide_eq_true_eq] at h
          exact congrArg some h.1
  | _ => cases h

theorem mem_recordings {u : Upload} (h : s.tasks.get? r = some (.recording u)) :
    u ∈ s.recordings :=
  List.mem_filterMap.mpr ⟨_, List.mem_map.mpr ⟨_, LinkedMap.get?_mem h, rfl⟩, rfl⟩

/-! ## 2. The file of an upload that waits -/

/-- The session that is there has the file as finished. -/
def State.finishedFile (s : State) (fileId : String) : Prop :=
  ∃ session file, s.session = some session ∧ session.files.get? fileId = some file ∧
    file.status = .finished

/-- A mark leaves finished files finished. -/
theorem done_finished (session : ReceiveSessionState) {fileId other : String} (path : Option String) (gallery : Bool)
    {file : ReceivingFile} (hget : session.files.get? other = some file)
    (hfin : file.status = .finished) :
    ∃ file', (session.done fileId path gallery).files.get? other = some file' ∧
      file'.status = .finished := by
  unfold ReceiveSessionState.done
  split
  · cases h : session.fileFinished fileId .finished path gallery none with
    | none => exact ⟨file, hget, hfin⟩
    | some session' =>
        by_cases hne : other = fileId
        · obtain ⟨old, _, rfl⟩ := ReceiveSessionState.fileFinished_some h
          rw [hne]
          exact ⟨_, LinkedMap.get?_insert_self, rfl⟩
        · exact ⟨file, by rw [Option.getD_some, ReceiveSessionState.fileFinished_other h hne, hget], hfin⟩
  · exact ⟨file, hget, hfin⟩

/-- **A guarded step leaves the file of an upload that waits finished.** -/
theorem waiting_step (hs : (controller platform).step s e = some t) (hg : undisturbed s e)
    {u : Upload} (hu : u ∈ s.recordings) (hfin : s.finishedFile u.fileId) :
    t.finishedFile u.fileId := by
  obtain ⟨session, file, hses, hget, hstatus⟩ := hfin
  have hsame : t.session = s.session → t.finishedFile u.fileId := fun h =>
    ⟨session, file, h.trans hses, hget, hstatus⟩
  have hmap : ∀ f : ReceiveSessionState → ReceiveSessionState, t.session = s.session.map f →
      (∃ file', (f session).files.get? u.fileId = some file' ∧ file'.status = .finished) →
      t.finishedFile u.fileId := by
    intro f hf hfile
    obtain ⟨file', hget', hstatus'⟩ := hfile
    rw [hses] at hf
    exact ⟨f session, file', hf, hget', hstatus'⟩
  have hafter := step_session hs
  cases e with
  | createSession _ _ _ _ _ _ | decided _ _ | delayedClose _ | closeSession | cancelSession =>
      exact absurd hg (List.ne_nil_of_mem hu)
  | upload r req env =>
      have hstart := hafter.trans (startUpload_session s r req env)
      cases hguards : uploadGuards s.session req with
      | error response =>
          rw [hguards] at hstart
          exact hsame hstart
      | ok x =>
          obtain ⟨session', fileId, file'⟩ := x
          obtain ⟨hs', _⟩ := uploadGuards_passed hguards
          obtain rfl := Option.some.inj (hses.symm.trans hs')
          have hne : u.fileId ≠ fileId := (hg u hu _ _ _ hguards).symm
          rw [hguards] at hstart
          cases hname : file'.desiredName with
          | some name =>
              simp only [hname] at hstart
              exact ⟨_, file, hstart, by rw [ReceiveSessionState.begun_other _ _ _ hne, hget], hstatus⟩
          | none =>
              simp only [hname] at hstart
              exact ⟨_, file, hstart, by rw [ReceiveSessionState.caught_other _ _ _ hne, ReceiveSessionState.begun_other _ _ _ hne, hget],
                hstatus⟩
  | saved r result env =>
      obtain ⟨v, hr, hafter⟩ := hafter
      refine hmap _ hafter ?_
      cases result with
      | error error =>
          have hne : u.fileId ≠ v.fileId := (hg rfl u hu v (by rw [hr]; rfl)).symm
          exact ⟨file, by rw [ReceiveSessionState.caught_other _ _ _ hne, hget], hstatus⟩
      | ok x => exact done_finished session _ _ hget hstatus
  | recorded r result env =>
      obtain ⟨v, hr, hafter⟩ := hafter
      refine hmap _ hafter ?_
      cases result with
      | error error => cases hg
      | ok x => exact ⟨file, by rw [ReceiveSessionState.settled_files, hget], hstatus⟩
  | cancel r req now =>
      rcases hafter with h | h
      · exact hsame h
      · exact hmap _ h ⟨file, hget, hstatus⟩
  | setSessionDestinationDir _ | setSessionSaveToGallery _ =>
      exact hmap _ hafter ⟨file, hget, hstatus⟩
  | _ => exact hsame hafter

/-! ## 3. The invariant -/

/-- **How an accepted upload stands**: on its way, or answered, with 200 exactly if its file was
    marked as finished. -/
def Answered (H : (State → Event → State → Prop) → Prop) (s : State) (r : RequestId) : Prop :=
  (∃ u, s.tasks.get? r = some (.saving u) ∧ ¬ H fun a e b => marks r a e b = true) ∨
  (∃ u, s.tasks.get? r = some (.recording u) ∧ H fun a e b => marks r a e b = true) ∨
  (s.tasks.get? r = some (.returned (.empty 200)) ∧ H fun a e b => marks r a e b = true) ∨
  ∃ code text, s.tasks.get? r = some (.returned (.message code text)) ∧ 400 ≤ code ∧
    ¬ H fun a e b => marks r a e b = true

structure Truthful (H : (State → Event → State → Prop) → Prop) (s : State) : Prop where
  inside : Inside s
  waiting : ∀ r u, s.tasks.get? r = some (.recording u) → s.finishedFile u.fileId
  served : ∀ r, (H fun a e b => accepts r a e b = true) → Answered H s r
  known : ∀ r, (H fun a e b => marks r a e b = true) → r ∈ s.tasks.keys

variable {H : (State → Event → State → Prop) → Prop}

theorem truthful_initial : Truthful (fun _ => False) State.initial where
  inside := inside_initial
  waiting _ _ h := by cases h
  served _ h := h.elim
  known _ h := h.elim

/-- The mark: an upload that comes to the history has its file finished. -/
theorem afterSave_finished {u : Upload} {result : Except String (Bool × Option String)}
    {env : UploadEnv}
    (h : (afterSave s r u result env).tasks.get? r = some (.recording u)) :
    (afterSave s r u result env).finishedFile u.fileId := by
  have hcatch : ∀ error, (catchUpload s r u error env).tasks.get? r ≠ some (.recording u) := by
    intro error hrec
    rcases catchUpload_tasks s r u error env with ⟨text, htasks⟩ | ⟨htasks, _⟩
    · rw [htasks, LinkedMap.get?_insert_self] at hrec
      cases hrec
    · rw [htasks, LinkedMap.get?_insert_self] at hrec
      cases hrec
  unfold afterSave at h ⊢
  cases result with
  | error error => exact absurd h (hcatch error)
  | ok x =>
      obtain ⟨gallery, path⟩ := x
      dsimp only at h ⊢
      split
      · rename_i hallowed
        rw [if_pos hallowed] at h
        unfold State.fileFinished at h ⊢
        cases hs : s.session with
        | none =>
            rw [hs] at hallowed
            cases hallowed
        | some session =>
            simp only [hs] at h ⊢
            cases hf : session.fileFinished u.fileId .finished path gallery none with
            | none =>
                rw [hf] at h
                exact absurd h (hcatch missingKeyError)
            | some session' =>
                obtain ⟨file, _, rfl⟩ := ReceiveSessionState.fileFinished_some hf
                exact ⟨_, _, rfl, LinkedMap.get?_insert_self, rfl⟩
      · rename_i hallowed
        rw [if_neg hallowed, State.respond, State.setTask, LinkedMap.get?_insert_self] at h
        cases h

/-- A session with the file as finished answers with 200. -/
theorem endResponse_finished {fileId : String} (h : s.finishedFile fileId) :
    endResponse s.session fileId = .empty 200 := by
  obtain ⟨session, file, hs, hget, hstatus⟩ := h
  simp [endResponse, uploadResponse, hs, hget, hstatus]

/-- **The request of the step**: how an accepted upload moves on. -/
theorem answered_own (hT : Truthful H s) (hin : Inside t)
    (hs : (controller platform).step s e = some t) (hg : undisturbed s e)
    (he : e.request = some r)
    (hacc : (H fun a e b => accepts r a e b = true) ∨ accepts r s e t = true) :
    Answered (fun p => H p ∨ p s e t) t r := by
  by_cases hold : H fun a e b => accepts r a e b = true
  · rcases hT.served r hold with ⟨u, hr, hno⟩ | ⟨u, hr, hmarked⟩ | ⟨hr, _⟩ | ⟨code, text, hr, _⟩
    · -- `saveFile` has returned or thrown
      obtain ⟨result, env, rfl, rfl⟩ := step_saving hs hr he
      obtain ⟨task, htasks, ⟨text, rfl⟩ | rfl | ⟨hok, rfl⟩⟩ := afterSave_tasks s r u result env
      · refine Or.inr (Or.inr (Or.inr ⟨500, text, ?_, by omega, ?_⟩))
        · rw [htasks, LinkedMap.get?_insert_self]
        · rintro (h | h)
          · exact hno h
          · cases result with
            | error error => cases h
            | ok x => simp [marks, htasks, LinkedMap.get?_insert_self, Task.recording?] at h
      · exact absurd (htasks ▸ LinkedMap.get?_insert_self) (hin.alive r)
      · refine Or.inr (Or.inl ⟨u, ?_, Or.inr ?_⟩)
        · rw [htasks, LinkedMap.get?_insert_self]
        · cases result with
          | error error => cases hok
          | ok x => simp [marks, htasks, LinkedMap.get?_insert_self, Task.recording?]
    · -- the history entry is written
      obtain ⟨result, env, rfl, rfl⟩ := step_recording hs hr he
      cases result with
      | error error => cases hg
      | ok x =>
          refine Or.inr (Or.inr (Or.inl ⟨?_, Or.inl hmarked⟩))
          have htasks : (afterRecord s r u (.ok x) env).tasks = _ := finishUpload_tasks s r u env
          rw [htasks, LinkedMap.get?_insert_self, endResponse_finished (hT.waiting r u hr)]
    · exact absurd he (step_returned hs hr)
    · exact absurd he (step_returned hs hr)
  · -- the upload begins
    have hnow := hacc.resolve_left hold
    cases e with
    | upload q req env =>
        simp only [accepts, Bool.and_eq_true, decide_eq_true_eq] at hnow
        obtain ⟨rfl, hok⟩ := hnow
        change step platform s (.upload q req env) = some t at hs
        simp only [step] at hs
        split at hs
        · cases hs
        · rename_i hnew
          cases hs
          have hno : ¬ ((H fun a e b => marks q a e b = true) ∨
              marks q s (.upload q req env) (startUpload s q req env) = true) := by
            intro h
            rcases h with h | h
            · exact hnew (hT.known q h)
            · cases h
          obtain ⟨task, htasks, hnext⟩ := startUpload_next hnew req env
          cases hnext with
          | refused _ hg =>
              rw [hg] at hok
              cases hok
          | begun _ hg h =>
              rcases h with ⟨_, rfl⟩ | ⟨_, ⟨text, rfl⟩ | rfl⟩
              · exact Or.inl ⟨_, by rw [htasks, LinkedMap.get?_insert_self], hno⟩
              · exact Or.inr (Or.inr (Or.inr ⟨500, text, by rw [htasks, LinkedMap.get?_insert_self],
                  by omega, hno⟩))
              · exact absurd (htasks ▸ LinkedMap.get?_insert_self) (hin.alive q)
    | _ => cases hnow

/-- **A guarded step keeps the invariant.** -/
theorem truthful_step (hT : Truthful H s) (hg : staysInside s e ∧ undisturbed s e)
    (hs : (controller platform).step s e = some t) :
    Truthful (fun p => H p ∨ p s e t) t where
  inside := inside_step hT.inside hg.1 (step_effect hs)
  waiting r u hr := by
    by_cases he : e.request = some r
    · rcases step_upload hs hr rfl with ⟨old, hold, hu, _⟩ | ⟨_, _, _, _, _, htask, _⟩
      · cases old with
        | saving v =>
            obtain rfl := Option.some.inj hu
            obtain ⟨_, _, _, rfl⟩ := step_saving hs hold he
            exact afterSave_finished hr
        | recording v =>
            -- it waited before: its own step has ended the wait
            obtain ⟨result, env, _, rfl⟩ := step_recording hs hold he
            obtain ⟨⟨task, htouch, htask⟩, _⟩ := afterRecord_spec s r v result env
            rw [htouch.tasks, LinkedMap.get?_insert_self] at hr
            rcases htask with ⟨response, rfl⟩ | ⟨rfl, _⟩
            · cases hr
            · cases hr
        | _ => cases hu
      · cases htask
    · rw [step_other hs he] at hr
      exact waiting_step hs hg.2 (mem_recordings hr) (hT.waiting r u hr)
  served r hacc := by
    by_cases he : e.request = some r
    · exact answered_own hT (inside_step hT.inside hg.1 (step_effect hs)) hs hg.2 he hacc
    · have hold : H fun a e b => accepts r a e b = true :=
        hacc.resolve_right fun h => he (accepts_request h)
      have hmarks : (fun p => H p ∨ p s e t) (fun a e b => marks r a e b = true) ↔
          H fun a e b => marks r a e b = true :=
        ⟨fun h => h.resolve_right fun h' => he (marks_request h'), Or.inl⟩
      unfold Answered
      rw [step_other hs he, hmarks]
      exact hT.served r hold
  known r hm := by
    rcases hm with h | h
    · exact step_known hs (hT.known r h)
    · cases e with
      | saved q result env =>
          cases result with
          | error error => cases h
          | ok x =>
              simp only [marks, Bool.and_eq_true, decide_eq_true_eq] at h
              obtain ⟨u, hu⟩ := Option.isSome_iff_exists.mp h.2
              obtain ⟨task, htask, _⟩ := Option.bind_eq_some_iff.mp hu
              exact LinkedMap.mem_keys.mpr ⟨task, htask⟩
      | _ => cases h

/-- **Upload responses tell the truth**: in every run in which uploads stay inside their session
    and nothing disturbs an upload that waits for the history, every upload that passed its checks
    is on its way, or answered with 200 if its file was marked as finished, and with an error
    status if it was not. -/
theorem uploads_answered (platform : Platform) (es : List Event) (s : State)
    (h : (controller platform).Run (fun s e => staysInside s e ∧ undisturbed s e) State.initial es s)
    (r : RequestId)
    (hacc : (controller platform).Past (fun a e b => accepts r a e b = true) State.initial es) :
    Answered (fun p => (controller platform).Past p State.initial es) s r := by
  have hT : Truthful (fun p => (controller platform).Past p State.initial es) s :=
    h.pastInvariant (I := Truthful) truthful_initial fun H t e u hT hg hs => truthful_step hT hg hs
  exact hT.served r hacc

/-! ## 4. Two uploads -/

section Runs

def twoFilesDto : PrepareUploadRequestDto :=
  ⟨⟨"a", none, none, none, none, none, none, none⟩,
    .ofList [("f", ⟨"f", "f.bin", 1, .other, none⟩), ("g", ⟨"g", "g.bin", 1, .other, none⟩)]⟩

def uploadOf (r : RequestId) (fileId token : String) : Event :=
  .upload r ⟨"10.0.0.1", true, some fileId, some token, some "S"⟩ ⟨quickSettings, [], 7⟩

def savedOf (r : RequestId) (path : String) : Event :=
  .saved r (.ok (false, some path)) ⟨quickSettings, [], 8⟩

def recordedOf (r : RequestId) : Event := .recorded r (.ok ()) ⟨quickSettings, [], 9⟩

/-- Two uploads with quick save; both files are saved before either history entry is written. -/
def bothSavedRun : List Event :=
  [.prepareUpload 0 demoRequest none, .readBody 0 (some twoFilesDto) quickSettings,
    .createSession 0 [] "/dl" "/tmp" "S" ["t", "t'"], uploadOf 1 "f" "t", uploadOf 2 "g" "t'",
    savedOf 1 "/dl/f.bin", savedOf 2 "/dl/g.bin", recordedOf 1]

instance (s : State) : (e : Event) → Decidable (undisturbed s e)
  | .recorded _ result _ => inferInstanceAs (Decidable (result.isOk = true))
  | .createSession _ _ _ _ _ _ | .decided _ _ | .delayedClose _ | .closeSession | .cancelSession =>
    inferInstanceAs (Decidable (s.recordings = []))
  | .upload _ req _ =>
    inferInstanceAs (Decidable (∀ u ∈ s.recordings, ∀ session fileId file,
      uploadGuards s.session req = .ok (session, fileId, file) → fileId ≠ u.fileId))
  | .saved r result _ =>
    inferInstanceAs (Decidable (result.isOk = false → ∀ u ∈ s.recordings,
      ∀ v ∈ (s.tasks.get? r).bind Task.upload?, v.fileId ≠ u.fileId))
  | .prepareUpload _ _ _ | .readBody _ _ _ | .shown _ | .messageRecorded _ | .permitted _
  | .cancel _ _ _ | .acceptFileRequest _ | .declineFileRequest | .setSessionDestinationDir _
  | .setSessionSaveToGallery _ => inferInstanceAs (Decidable True)

/-- The second entry is written before the session is closed. -/
theorem uploads_answered_bothRecorded :
    ∃ s, (controller demoPlatform).Run (fun s e => staysInside s e ∧ undisturbed s e) State.initial
        (bothSavedRun ++ [recordedOf 2]) s ∧
      (controller demoPlatform).Past (fun a e b => accepts 2 a e b = true) State.initial
        (bothSavedRun ++ [recordedOf 2]) ∧
      s.tasks.get? 2 = some (.returned (.empty 200)) ∧
      Answered (fun p => (controller demoPlatform).Past p State.initial
        (bothSavedRun ++ [recordedOf 2])) s 2 := by
  have hrun : (((controller demoPlatform).guarded (fun s e => staysInside s e ∧ undisturbed s e)).run
      State.initial (bothSavedRun ++ [recordedOf 2])).map (fun s => s.tasks.get? 2) =
      some (some (.returned (.empty 200))) := by decide
  obtain ⟨s, hs, hobs⟩ := Machine.run_observe_guarded hrun
  have hacc : (controller demoPlatform).Past (fun a e b => accepts 2 a e b = true) State.initial
      (bothSavedRun ++ [recordedOf 2]) := by decide
  exact ⟨s, hs, hacc, hobs, uploads_answered demoPlatform _ s hs 2 hacc⟩

/-- **A saved file is answered with 500**: the first upload completes the session, its delayed
    close runs, and only then the second upload comes back from the history. -/
theorem saved_answered_error :
    ∃ s, (controller demoPlatform).Run Machine.anyStep State.initial
        (bothSavedRun ++ [.delayedClose 1, recordedOf 2]) s ∧
      (controller demoPlatform).Past (fun a e b => marks 2 a e b = true) State.initial
        (bothSavedRun ++ [.delayedClose 1, recordedOf 2]) ∧
      s.tasks.get? 2 = some (.returned (.message 500 "Server is in invalid state")) := by
  have hrun : ((controller demoPlatform).run State.initial
      (bothSavedRun ++ [.delayedClose 1, recordedOf 2])).map (fun s => s.tasks.get? 2) =
      some (some (.returned (.message 500 "Server is in invalid state"))) := by decide
  obtain ⟨s, hs, hobs⟩ := Machine.run_observe hrun
  exact ⟨s, hs, by decide, hobs⟩

end Runs

end LocalSend.Receive
