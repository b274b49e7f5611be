/-
  File:      LocalSend/Receive/Consistency.lean
  Subject:   THE STATUS OF A RECEIVE SESSION AND OF ITS FILES.

  The session's status is set when the last file is done; nothing sets it back when a file changes
  after that. A second upload of a file, and an upload whose history entry fails late, change a
  file of a session that is finished already.

  * `Consistent` -- what a status promises about the files;
  * `finished_with_failed` -- two uploads of one file: a finished session with a failed file;
  * `orderly` -- the guard of a step: one upload of a file at a time, no new tokens while uploads
    are on their way, no failing history entry in a finished session;
  * `sessions_consistent` -- in runs of such steps every session is consistent.
-/
import LocalSend.Receive.Acceptance
import LocalSend.Receive.UploadFrame

namespace LocalSend.Receive

open Lib

variable {platform : Platform} {s t : State} {e : Event} {r : RequestId}

/-! ## 1. Consistent sessions -/

/-- **Consistency**: a finished session has every file finished or skipped; one that finished with
    errors has a failed file and none that is queued or being sent. -/
structure Consistent (session : ReceiveSessionState) : Prop where
  finished : session.status = .finished → ∀ id file, session.files.get? id = some file →
    file.status = .finished ∨ file.status = .skipped
  failed : session.status = .finishedWithErrors →
    ∃ id file, session.files.get? id = some file ∧ file.status = .failed
  pending : session.status = .finishedWithErrors → ∀ id file, session.files.get? id = some file →
    file.status ≠ .queue ∧ file.status ≠ .sending

variable {session session' : ReceiveSessionState} {fileId : String}

/-- The other statuses promise nothing. -/
theorem Consistent.of_status (h : session.status ≠ .finished)
    (h' : session.status ≠ .finishedWithErrors) : Consistent session :=
  ⟨fun hf => absurd hf h, fun hf => absurd hf h', fun hf => absurd hf h'⟩

theorem isFinishedOrError_iff : session.isFinishedOrError = true ↔
    ∀ id file, session.files.get? id = some file → file.status.isFinishedOrError = true := by
  simp only [ReceiveSessionState.isFinishedOrError, List.all_eq_true, LinkedMap.mem_values,
    forall_exists_index]
  exact forall_comm

theorem hasError_iff : session.hasError = true ↔
    ∃ id file, session.files.get? id = some file ∧ file.status = .failed := by
  simp only [ReceiveSessionState.hasError, List.any_eq_true, LinkedMap.mem_values,
    decide_eq_true_eq]
  constructor
  · intro h
    obtain ⟨file, ⟨id, hget⟩, hstatus⟩ := h
    exact ⟨id, file, hget, hstatus⟩
  · intro h
    obtain ⟨id, file, hget, hstatus⟩ := h
    exact ⟨file, ⟨id, hget⟩, hstatus⟩

/-- **The last file**: the new status says what the files are. -/
theorem settled_consistent (h : Consistent session) (now : Int) :
    Consistent (session.settled now) := by
  unfold ReceiveSessionState.settled
  split
  · rename_i hcond
    have hdone := isFinishedOrError_iff.mp (Bool.and_eq_true_iff.mp hcond).2
    cases herr : session.hasError with
    | true =>
        refine ⟨nofun, fun _ => hasError_iff.mp herr, fun _ id file hget => ?_⟩
        have hfile := hdone id file hget
        constructor
        · intro hq
          rw [hq] at hfile
          cases hfile
        · intro hq
          rw [hq] at hfile
          cases hfile
    | false =>
        refine ⟨fun _ id file hget => ?_, nofun, nofun⟩
        have hfile := hdone id file hget
        cases hst : file.status with
        | finished => exact Or.inl rfl
        | skipped => exact Or.inr rfl
        | failed =>
            have herr' : session.hasError = true := hasError_iff.mpr ⟨id, file, hget, hst⟩
            rw [herr] at herr'
            cases herr'
        | queue =>
            rw [hst] at hfile
            cases hfile
        | sending =>
            rw [hst] at hfile
            cases hfile
  · exact h

/-- A file that fails leaves a session consistent that is not finished. -/
theorem failed_consistent (h : Consistent session) (hne : session.status ≠ .finished)
    {error : String}
    (hf : session.fileFinished fileId .failed none false (some error) = some session') :
    Consistent session' := by
  obtain ⟨file, _, rfl⟩ := ReceiveSessionState.fileFinished_some hf
  refine ⟨fun hst => absurd hst hne, fun _ => ⟨fileId, _, LinkedMap.get?_insert_self, rfl⟩, ?_⟩
  intro hst id file' hget
  rw [LinkedMap.get?_insert] at hget
  split at hget
  · obtain rfl := Option.some.inj hget
    exact ⟨(fun h => by cases h), (fun h => by cases h)⟩
  · exact h.pending hst id file' hget

theorem caught_consistent (h : Consistent session) (hne : session.status ≠ .finished)
    (error : String) (now : Int) : Consistent (session.caught fileId error now) := by
  unfold ReceiveSessionState.caught
  split
  · rename_i hf
    exact settled_consistent (failed_consistent h hne hf) now
  · exact h

/-- A mark leaves a session consistent that did not finish with errors. -/
theorem done_consistent (h : Consistent session) (hne : session.status ≠ .finishedWithErrors)
    (path : Option String) (gallery : Bool) : Consistent (session.done fileId path gallery) := by
  unfold ReceiveSessionState.done
  split
  · rename_i hallowed
    cases hf : session.fileFinished fileId .finished path gallery none with
    | none => exact h
    | some session' =>
        obtain ⟨file, _, rfl⟩ := ReceiveSessionState.fileFinished_some hf
        refine .of_status (fun hst => ?_) hne
        have hst' : session.status = .finished := hst
        rw [hst'] at hallowed
        cases hallowed
  · exact h

theorem begun_consistent (file : ReceivingFile) (now : Int) :
    Consistent (session.begun fileId file now) := .of_status nofun nofun

theorem accepted_consistent (selection : Selection) (tokens : List String) :
    Consistent (session.accepted selection tokens) := .of_status nofun nofun

/-! ## 2. The guard -/

/-- The uploads on their way. -/
def State.uploads (s : State) : List Upload := s.tasks.values.filterMap Task.upload?

theorem mem_uploads {task : Task} {u : Upload} (h : s.tasks.get? r = some task)
    (hu : task.upload? = some u) : u ∈ s.uploads :=
  List.mem_filterMap.mpr ⟨task, LinkedMap.mem_values.mpr ⟨r, h⟩, hu⟩

/-- **The guard of a step.** -/
def orderly (s : State) : Event → Prop
  | .upload _ req _ => ∀ session fileId file,
      uploadGuards s.session req = .ok (session, fileId, file) →
      ∀ u ∈ s.uploads, u.sessionId = session.sessionId → u.fileId ≠ fileId
  | .decided r _ => (s.answers.get? r).any (fun answer => !refused answer) = true →
      ∀ session ∈ s.session, ∀ u ∈ s.uploads, u.sessionId ≠ session.sessionId
  | .recorded _ result _ => result.isOk = false →
      ∀ session ∈ s.session, session.status ≠ .finished
  | _ => True

/-! ## 3. The invariant -/

/-- **The invariant**: besides consistency, the file of an upload at `saveFile` is being sent, and
    no file has two uploads. -/
structure Orderly (s : State) : Prop where
  inside : Inside s
  consistent : ∀ session, s.session = some session → Consistent session
  sending : ∀ r u session, s.tasks.get? r = some (.saving u) → s.session = some session →
    session.sessionId = u.sessionId →
    ∃ file, session.files.get? u.fileId = some file ∧ file.status = .sending
  unique : ∀ r r' task task' u u', s.tasks.get? r = some task → s.tasks.get? r' = some task' →
    task.upload? = some u → task'.upload? = some u' → u.sessionId = u'.sessionId →
    u.fileId = u'.fileId → r = r'

theorem orderly_initial : Orderly State.initial where
  inside := inside_initial
  consistent _ h := by cases h
  sending _ _ _ h := by cases h
  unique _ _ _ _ _ _ h := by cases h

/-- While an upload of it is at `saveFile`, a session has not ended. -/
theorem Orderly.not_ended (hO : Orderly s) {u : Upload} {session : ReceiveSessionState}
    (hr : s.tasks.get? r = some (.saving u)) (hs : s.session = some session)
    (hid : session.sessionId = u.sessionId) :
    session.status ≠ .finished ∧ session.status ≠ .finishedWithErrors := by
  obtain ⟨file, hget, hsending⟩ := hO.sending r u session hr hs hid
  have hC := hO.consistent session hs
  constructor
  · intro hst
    rcases hC.finished hst _ _ hget with h | h
    · rw [hsending] at h
      cases h
    · rw [hsending] at h
      cases h
  · intro hst
    exact (hC.pending hst _ _ hget).2 hsending

/-- The code of an upload that writes runs in its own session. -/
theorem own_session (hg : staysInside s e) {session : ReceiveSessionState}
    (hs : s.session = some session) (hw : e.writes session) {id : String}
    (hid : uploadSession s e = some id) : session.sessionId = id :=
  (hg id hid session hs).resolve_right fun h => h hw

theorem uploadSession_saved {u : Upload} {result : Except String (Bool × Option String)}
    {env : UploadEnv} (hr : s.tasks.get? r = some (.saving u)) :
    uploadSession s (.saved r result env) = some u.sessionId := by
  simp [uploadSession, hr, Task.upload?]

theorem uploadSession_recorded {u : Upload} {result : Except String Unit} {env : UploadEnv}
    (hr : s.tasks.get? r = some (.recording u)) :
    uploadSession s (.recorded r result env) = some u.sessionId := by
  simp [uploadSession, hr, Task.upload?]

/-- **A step keeps sessions consistent.** -/
theorem consistent_step (hO : Orderly s) (hin : staysInside s e) (hg : orderly s e)
    (hs : (controller platform).step s e = some t) :
    ∀ session', t.session = some session' → Consistent session' := by
  have hafter := step_session hs
  have hresume : ∀ {s0 : State} {r v2 sessionId selection tokens},
      resumeSelection platform s0 r v2 sessionId selection tokens = some t →
      ∀ session', t.session = some session' → Consistent session' := by
    intro s0 r v2 sessionId selection tokens h session' hs'
    rcases (resumeSelection_cases h).2.2 with ⟨_, hnone⟩ | ⟨_, hnone⟩ |
      ⟨session, chosen, _, _, _, _, hsome⟩
    · rw [hnone] at hs'
      cases hs'
    · rw [hnone] at hs'
      cases hs'
    · obtain rfl := Option.some.inj (hs'.symm.trans hsome)
      exact accepted_consistent chosen tokens
  intro session' hs'
  cases e with
  | createSession r favorites defaultDir cacheDir sessionId tokens =>
      change step platform s (.createSession r favorites defaultDir cacheDir sessionId tokens) =
        some t at hs
      simp only [step] at hs
      split at hs
      · obtain ⟨_, session, hsession, ⟨_, h⟩ | ⟨_, hses, _⟩⟩ := createSession_cases hs
        · exact hresume h session' hs'
        · obtain rfl := Option.some.inj (hs'.symm.trans hses)
          rw [hsession]
          exact .of_status (fun h => by cases h) (fun h => by cases h)
      · cases hs
  | decided r tokens =>
      change step platform s (.decided r tokens) = some t at hs
      simp only [step] at hs
      split at hs
      · exact hresume hs session' hs'
      · cases hs
  | delayedClose _ | closeSession | cancelSession =>
      rw [show t.session = none from hafter] at hs'
      cases hs'
  | upload r req env =>
      have hstart := hafter.trans (startUpload_session s r req env)
      cases hguards : uploadGuards s.session req with
      | error response =>
          rw [hguards] at hstart
          exact hO.consistent session' (hstart.symm.trans hs')
      | ok x =>
          obtain ⟨session, fileId, file⟩ := x
          rw [hguards] at hstart
          cases hname : file.desiredName with
          | some name =>
              simp only [hname] at hstart
              obtain rfl := Option.some.inj (hs'.symm.trans hstart)
              exact begun_consistent file env.now
          | none =>
              simp only [hname] at hstart
              obtain rfl := Option.some.inj (hs'.symm.trans hstart)
              exact caught_consistent (begun_consistent file env.now) (fun h => by cases h) _ _
  | saved r result env =>
      obtain ⟨u, hr, hafter⟩ := hafter
      rw [hafter] at hs'
      obtain ⟨session, hses, rfl⟩ := Option.map_eq_some_iff.mp hs'
      have hC := hO.consistent session hses
      cases result with
      | error error =>
          have hid := own_session hin hses (fun h => by cases h) (uploadSession_saved hr)
          exact caught_consistent hC (hO.not_ended hr hses hid).1 _ _
      | ok x =>
          by_cases hallowed : allowedStates session.status = true
          · have hid := own_session hin hses (fun _ => hallowed) (uploadSession_saved hr)
            exact done_consistent hC (hO.not_ended hr hses hid).2 _ _
          · simp only [ReceiveSessionState.done, if_neg hallowed]
            exact hC
  | recorded r result env =>
      obtain ⟨u, hr, hafter⟩ := hafter
      rw [hafter] at hs'
      obtain ⟨session, hses, rfl⟩ := Option.map_eq_some_iff.mp hs'
      have hC := hO.consistent session hses
      cases result with
      | error error => exact caught_consistent hC (hg rfl session hses) _ _
      | ok x => exact settled_consistent hC env.now
  | cancel r req now =>
      rcases hafter with h | h
      · exact hO.consistent session' (h ▸ hs')
      · rw [h] at hs'
        obtain ⟨session, _, rfl⟩ := Option.map_eq_some_iff.mp hs'
        exact .of_status (fun h => by cases h) (fun h => by cases h)
  | setSessionDestinationDir _ | setSessionSaveToGallery _ =>
      rw [show t.session = _ from hafter] at hs'
      obtain ⟨session, hses, rfl⟩ := Option.map_eq_some_iff.mp hs'
      obtain ⟨hfin, hfail, hpend⟩ := hO.consistent session hses
      exact ⟨hfin, hfail, hpend⟩
  | _ => exact hO.consistent session' (hafter ▸ hs')

/-- **A step leaves the file of an upload at `saveFile` as it is**, unless it is that upload's. -/
theorem sending_kept (hO : Orderly s) (hin : staysInside s e) (hg : orderly s e)
    (hs : (controller platform).step s e = some t) (he : e.opens = false) {u : Upload}
    (hold : s.tasks.get? r = some (.saving u)) (hr : t.tasks.get? r = some (.saving u))
    {session session' : ReceiveSessionState} (hses : s.session = some session)
    (hs' : t.session = some session') (hid : session.sessionId = u.sessionId) :
    session'.files.get? u.fileId = session.files.get? u.fileId := by
  have hmem : u ∈ s.uploads := mem_uploads hold rfl
  -- another upload of the session has another file
  have hother : ∀ {q task v}, s.tasks.get? q = some task → task.upload? = some v → q ≠ r →
      v.sessionId = session.sessionId → u.fileId ≠ v.fileId := by
    intro q task v hq hv hne hv' heq
    exact hne (hO.unique q r task _ v u hq hold hv rfl (hv'.trans hid) heq.symm)
  have hafter := step_session hs
  cases e with
  | createSession _ _ _ _ _ _ | decided _ _ => cases he
  | delayedClose _ | closeSession | cancelSession =>
      rw [show t.session = none from hafter] at hs'
      cases hs'
  | upload q req env =>
      have hstart := hafter.trans (startUpload_session s q req env)
      cases hguards : uploadGuards s.session req with
      | error response =>
          rw [hguards] at hstart
          have hsame := hs'.symm.trans (hstart.trans hses)
          rw [Option.some.inj hsame]
      | ok x =>
          obtain ⟨session1, fileId, file⟩ := x
          obtain ⟨hs1, _⟩ := uploadGuards_passed hguards
          obtain rfl := Option.some.inj (hses.symm.trans hs1)
          have hne : u.fileId ≠ fileId := hg _ _ _ hguards u hmem hid.symm
          rw [hguards] at hstart
          cases hname : file.desiredName with
          | some name =>
              simp only [hname] at hstart
              obtain rfl := Option.some.inj (hs'.symm.trans hstart)
              exact ReceiveSessionState.begun_other session file env.now hne
          | none =>
              simp only [hname] at hstart
              obtain rfl := Option.some.inj (hs'.symm.trans hstart)
              rw [ReceiveSessionState.caught_other _ _ _ hne]
              exact ReceiveSessionState.begun_other session file env.now hne
  | saved q result env =>
      obtain ⟨v, hq, hafter⟩ := hafter
      rw [hafter, hses, Option.map_some] at hs'
      obtain rfl := Option.some.inj hs'
      have hne : q ≠ r := by
        intro heq
        subst heq
        obtain ⟨_, _, _, rfl⟩ := step_saving hs hold rfl
        obtain ⟨task, htasks, htask⟩ := afterSave_tasks s q u _ _
        rw [htasks, LinkedMap.get?_insert_self] at hr
        rcases htask with ⟨text, rfl⟩ | rfl | ⟨_, rfl⟩
        · cases hr
        · cases hr
        · cases hr
      cases result with
      | error error =>
          have hown := own_session hin hses (fun h => by cases h) (uploadSession_saved hq)
          exact ReceiveSessionState.caught_other _ _ _ (hother hq rfl hne hown.symm)
      | ok x =>
          by_cases hallowed : allowedStates session.status = true
          · have hown := own_session hin hses (fun _ => hallowed) (uploadSession_saved hq)
            exact ReceiveSessionState.done_other _ _ _ (hother hq rfl hne hown.symm)
          · simp only [ReceiveSessionState.done, if_neg hallowed]
  | recorded q result env =>
      obtain ⟨v, hq, hafter⟩ := hafter
      rw [hafter, hses, Option.map_some] at hs'
      obtain rfl := Option.some.inj hs'
      cases result with
      | error error =>
          have hne : q ≠ r := by
            intro heq
            subst heq
            rw [hold] at hq
            cases hq
          have hown := own_session hin hses (fun h => by cases h) (uploadSession_recorded hq)
          exact ReceiveSessionState.caught_other _ _ _ (hother hq rfl hne hown.symm)
      | ok x => simp only [ReceiveSessionState.settled_files]
  | cancel q req now =>
      rcases hafter with h | h
      · rw [Option.some.inj (hs'.symm.trans (h.trans hses))]
      · rw [h, hses, Option.map_some] at hs'
        obtain rfl := Option.some.inj hs'
        rfl
  | setSessionDestinationDir _ | setSessionSaveToGallery _ =>
      rw [show t.session = _ from hafter, hses, Option.map_some] at hs'
      obtain rfl := Option.some.inj hs'
      rfl
  | _ => rw [Option.some.inj (hs'.symm.trans (Eq.trans hafter hses))]

/-- **A step that gives a session its files finds no upload of that session.** -/
theorem opens_no_upload (hO : Orderly s) (hg : orderly s e)
    (hs : (controller platform).step s e = some t) (he : e.opens = true) {u : Upload}
    (hu : u ∈ s.uploads) {session' : ReceiveSessionState} (hs' : t.session = some session') :
    session'.sessionId ≠ u.sessionId := by
  obtain ⟨task, hmem, hu'⟩ := List.mem_filterMap.mp hu
  obtain ⟨r, hr⟩ := LinkedMap.mem_values.mp hmem
  have hold := (hO.inside.uploads r task u hr hu').1
  cases e with
  | createSession q favorites defaultDir cacheDir sessionId tokens =>
      change step platform s (.createSession q favorites defaultDir cacheDir sessionId tokens) =
        some t at hs
      simp only [step] at hs
      split at hs
      · obtain ⟨_, _, _, _, hnew, _, hid⟩ := createSession_spec hs
        intro heq
        rcases hid with hnone | ⟨keys, hid⟩
        · rw [hnone] at hs'
          cases hs'
        · -- the new session has a new id
          rw [State.identity, hs', Option.map_some, Option.some.injEq, Prod.mk.injEq] at hid
          exact hnew (hid.1 ▸ heq ▸ hold)
      · cases hs
  | decided q tokens =>
      change step platform s (.decided q tokens) = some t at hs
      simp only [step] at hs
      split at hs
      · rename_i req sessionId selection hq hanswer
        rcases (resumeSelection_cases hs).2.2 with ⟨_, hnone⟩ | ⟨_, hnone⟩ |
          ⟨session, chosen, hses, _, hno, _, hsome⟩
        · rw [hnone] at hs'
          cases hs'
        · rw [hnone] at hs'
          cases hs'
        · obtain rfl := Option.some.inj (hs'.symm.trans hsome)
          exact (hg (by rw [hanswer]; simp [hno]) session hses u hu).symm
      · cases hs
  | _ => cases he

/-- **A guarded step keeps the invariant.** -/
theorem orderly_step (hO : Orderly s) (hg : staysInside s e ∧ orderly s e)
    (hs : (controller platform).step s e = some t) : Orderly t where
  inside := inside_step hO.inside hg.1 (step_effect hs)
  consistent := consistent_step hO hg.1 hg.2 hs
  sending r u session' hr hs' hid := by
    rcases step_upload hs hr rfl with ⟨old, hold, hu, hsame⟩ |
      ⟨req, env, session, rfl, _, _, hguards, _, hname⟩
    · obtain rfl := hsame rfl
      cases he : e.opens with
      | true => exact absurd hid (opens_no_upload hO hg.2 hs he (mem_uploads hold rfl) hs')
      | false =>
          obtain ⟨session, hses, hgrants⟩ := step_grants hs he session' hs'
          have hid' : session.sessionId = u.sessionId := hgrants.sessionId.symm.trans hid
          rw [sending_kept hO hg.1 hg.2 hs he hold hr hses hs' hid']
          exact hO.sending r u session hold hses hid'
    · have hstart := (step_session hs).trans (startUpload_session s r req env)
      obtain ⟨name, hname⟩ := Option.isSome_iff_exists.mp hname
      simp only [hguards, hname] at hstart
      obtain rfl := Option.some.inj (hs'.symm.trans hstart)
      exact ⟨_, LinkedMap.get?_insert_self, rfl⟩
  unique r r' task task' u u' hr hr' hu hu' hid hfile := by
    rcases step_upload hs hr hu with ⟨old, hold, hu1, _⟩ | ⟨req, env, session, rfl, _, _, hguards, hses, _⟩
    · rcases step_upload hs hr' hu' with ⟨old', hold', hu2, _⟩ |
        ⟨req, env, session, rfl, _, _, hguards, hses, _⟩
      · exact hO.unique r r' old old' u u' hold hold' hu1 hu2 hid hfile
      · exact absurd hfile (hg.2 _ _ _ hguards u (mem_uploads hold hu1) (hid.trans hses))
    · rcases step_upload hs hr' hu' with ⟨old', hold', hu2, _⟩ | ⟨_, _, _, he, _⟩
      · exact absurd hfile.symm
          (hg.2 _ _ _ hguards u' (mem_uploads hold' hu2) (hid.symm.trans hses))
      · cases he
        rfl

/-- **Receive-session status consistency**: in every run in which uploads stay inside their
    session, a file is uploaded once at a time, tokens are not made anew under uploads on their
    way, and no history entry fails in a finished session, every session is consistent. -/
theorem sessions_consistent (platform : Platform) (es : List Event) (s : State)
    (h : (controller platform).Run (fun s e => staysInside s e ∧ orderly s e) State.initial es s)
    (session : ReceiveSessionState) (hs : s.session = some session) : Consistent session :=
  (h.invariant (I := Orderly) orderly_initial
    fun _ _ _ hO hg hs => orderly_step hO hg hs).consistent session hs

/-! ## 4. Two uploads of one file -/

section Runs

instance (s : State) : (e : Event) → Decidable (orderly s e)
  | .upload _ req _ =>
    inferInstanceAs (Decidable (∀ session fileId file,
      uploadGuards s.session req = .ok (session, fileId, file) →
      ∀ u ∈ s.uploads, u.sessionId = session.sessionId → u.fileId ≠ fileId))
  | .decided r _ =>
    inferInstanceAs (Decidable ((s.answers.get? r).any (fun answer => !refused answer) = true →
      ∀ session ∈ s.session, ∀ u ∈ s.uploads, u.sessionId ≠ session.sessionId))
  | .recorded _ result _ =>
    inferInstanceAs (Decidable (result.isOk = false →
      ∀ session ∈ s.session, session.status ≠ .finished))
  | .prepareUpload _ _ _ | .readBody _ _ _ | .createSession _ _ _ _ _ _ | .shown _
  | .messageRecorded _ | .permitted _ | .saved _ _ _ | .delayedClose _ | .cancel _ _ _
  | .acceptFileRequest _ | .declineFileRequest | .closeSession | .cancelSession
  | .setSessionDestinationDir _ | .setSessionSaveToGallery _ => inferInstanceAs (Decidable True)

def uploadAgain (r : RequestId) : Event :=
  .upload r ⟨"10.0.0.1", true, some "f", some "t", some "S"⟩ ⟨demoSettings, [], 7⟩

/-- The file is uploaded, and recorded. -/
def uploadedRun : List Event :=
  decidedRun ++ [uploadAgain 2, .saved 2 (.ok (false, some "/dl/f.bin")) ⟨demoSettings, [], 8⟩,
    .recorded 2 (.ok ()) ⟨demoSettings, [], 9⟩]

theorem sessions_consistent_uploadedRun :
    ∃ s session, (controller demoPlatform).Run (fun s e => staysInside s e ∧ orderly s e)
        State.initial uploadedRun s ∧ s.session = some session ∧ session.status = .finished ∧
      Consistent session := by
  have hrun : (((controller demoPlatform).guarded (fun s e => staysInside s e ∧ orderly s e)).run
      State.initial uploadedRun).map (fun s => s.session.map ReceiveSessionState.status) =
      some (some .finished) := by decide
  obtain ⟨s, hs, hobs⟩ := Machine.run_observe_guarded hrun
  obtain ⟨session, hses, hstatus⟩ := Option.map_eq_some_iff.mp hobs
  exact ⟨s, session, hs, hses, hstatus, sessions_consistent demoPlatform _ s hs session hses⟩

/-- The file is uploaded twice at the same time; one upload is done when the other fails. -/
def overlappingRun : List Event :=
  decidedRun ++ [uploadAgain 2, uploadAgain 3,
    .saved 2 (.ok (false, some "/dl/f.bin")) ⟨demoSettings, [], 8⟩,
    .recorded 2 (.ok ()) ⟨demoSettings, [], 9⟩, .saved 3 (.error "disk full") ⟨demoSettings, [], 9⟩]

/-- **A finished session with a failed file.** -/
theorem finished_with_failed :
    ∃ s session, (controller demoPlatform).Run Machine.anyStep State.initial overlappingRun s ∧
      s.session = some session ∧ ¬ Consistent session := by
  have hrun : ((controller demoPlatform).run State.initial overlappingRun).map (fun s =>
      s.session.map fun session => (session.status, (session.files.get? "f").map
        ReceivingFile.status)) = some (some (.finished, some .failed)) := by decide
  obtain ⟨s, hs, hobs⟩ := Machine.run_observe hrun
  obtain ⟨session, hses, heq⟩ := Option.map_eq_some_iff.mp hobs
  obtain ⟨hstatus, hfile⟩ := Prod.mk.inj heq
  obtain ⟨file, hget, hfailed⟩ := Option.map_eq_some_iff.mp hfile
  refine ⟨s, session, hs, hses, fun hC => ?_⟩
  rcases hC.finished hstatus "f" file hget with h | h
  · rw [hfailed] at h
    cases h
  · rw [hfailed] at h
    cases h

end Runs

end LocalSend.Receive
