/-
  File:      LocalSend/Receive/Effects.lean
  Subject:   What the pieces of the receive controller do to the session and to the tasks: one
             lemma for each function, cited by every invariant after it.

  * `State.identity` -- the id of the session and the ids of its files, which no step but the
    creation and the removal of a session changes;
  * `Touch` -- a step moves the task of one request and forgets no uuid;
  * `prepareUpload_spec` .. `afterRecord_spec` -- the functions; `step_effect` -- the machine.
-/
import LocalSend.Receive.Controller

namespace LocalSend.Receive

open Lib

variable {platform : Platform} {s t : State} {e : Event} {r : RequestId}

/-! ## 1. Identity and touch -/

/-- The session's id and the ids of its files. -/
def State.identity (s : State) : Option (String × List String) :=
  s.session.map fun session => (session.sessionId, session.files.keys)

/-- The step moved the task of `r` to `task`; other tasks and all uuids stay. -/
structure Touch (s t : State) (r : RequestId) (task : Task) : Prop where
  tasks : t.tasks = s.tasks.insert r task
  uuids : ∀ i ∈ s.uuids, i ∈ t.uuids

theorem touch_setTask (s : State) (r : RequestId) (task : Task) : Touch s (s.setTask r task) r task :=
  ⟨rfl, fun _ hi => hi⟩

/-- A handler that has nothing left to do with the session. -/
def Task.isReturn : Task → Bool
  | .permitting _ | .returned _ => true
  | _ => false

/-- The handler is between its null check and its store. -/
def Task.beforeStore : Task → Bool
  | .reading _ | .locating _ _ _ => true
  | _ => false

/-- The upload the task is about. -/
def Task.upload? : Task → Option Upload
  | .saving u | .recording u => some u
  | _ => none

/-- A prepare-upload handler after its store. -/
def Task.afterStore : Task → Bool
  | .showing _ _ | .recordingMessage _ _ | .deciding _ _ | .permitting _ | .returned _ => true
  | _ => false

theorem isReturn_afterStore {task : Task} (h : task.isReturn = true) : task.afterStore = true := by
  cases task <;> first | rfl | cases h

/-! ## 2. Prepare-upload -/

theorem prepareUpload_spec (s : State) (r : RequestId) (req : PrepareRequest)
    (pin : Option String) :
    ∃ task, Touch s (prepareUpload s r req pin) r task ∧
      (prepareUpload s r req pin).session = s.session ∧
      (prepareUpload s r req pin).closing = s.closing ∧
      (task.isReturn = true ∨ (task = .reading req ∧ s.session = none ∧
        (checkPin s.pinAttempts req.ip pin req.pin).2 = none)) := by
  unfold prepareUpload
  cases hs : s.session with
  | some session => exact ⟨_, touch_setTask _ _ _, hs, rfl, Or.inl rfl⟩
  | none =>
      dsimp only
      rcases hc : checkPin s.pinAttempts req.ip pin req.pin with ⟨pinAttempts, _ | response⟩
      · exact ⟨_, ⟨rfl, fun _ hi => hi⟩, rfl, rfl, Or.inr ⟨rfl, rfl, rfl⟩⟩
      · exact ⟨_, ⟨rfl, fun _ hi => hi⟩, rfl, rfl, Or.inl rfl⟩

theorem readBody_spec (s : State) (r : RequestId) (req : PrepareRequest)
    (dto : Option PrepareUploadRequestDto) (settings : Settings) :
    ∃ task, Touch s (readBody s r req dto settings) r task ∧
      (readBody s r req dto settings).session = s.session ∧
      (readBody s r req dto settings).closing = s.closing ∧
      (task.isReturn = true ∨ ∃ d, task = .locating req d settings) := by
  unfold readBody
  cases dto with
  | none => exact ⟨_, touch_setTask _ _ _, rfl, rfl, Or.inl rfl⟩
  | some d =>
      dsimp only
      split
      · exact ⟨_, touch_setTask _ _ _, rfl, rfl, Or.inl rfl⟩
      · exact ⟨_, touch_setTask _ _ _, rfl, rfl, Or.inr ⟨d, rfl⟩⟩

/-- The user refused: nothing is selected. -/
def refused : Option Selection → Bool
  | none => true
  | some selection => selection.entries.isEmpty

theorem resumeSelection_spec {v2 : Bool} {sessionId : String} {selection : Option Selection}
    {tokens : List String}
    (h : resumeSelection platform s r v2 sessionId selection tokens = some t) :
    ∃ task, Touch s t r task ∧ task.isReturn = true ∧ t.closing = s.closing ∧
      (t.identity = s.identity ∨ (t.session = none ∧ refused selection = true)) := by
  unfold resumeSelection at h
  cases hs : s.session with
  | none =>
      simp only [hs, Option.some.injEq] at h
      subst h
      exact ⟨_, touch_setTask _ _ _, rfl, rfl, Or.inl rfl⟩
  | some session =>
      simp only [hs] at h
      cases selection with
      | none =>
          simp only [Option.some.injEq] at h
          subst h
          exact ⟨_, ⟨rfl, fun _ hi => hi⟩, rfl, rfl, Or.inr ⟨rfl, rfl⟩⟩
      | some selection =>
          dsimp only at h
          split at h
          · rename_i hnil
            simp only [Option.some.injEq] at h
            subst h
            exact ⟨_, ⟨rfl, fun _ hi => hi⟩, rfl, rfl, Or.inr ⟨rfl, by simp [refused, hnil]⟩⟩
          · split at h
            · simp only [Option.some.injEq] at h
              subst h
              refine ⟨_, ⟨rfl, fun _ hi => List.mem_append_right _ hi⟩, ?_, rfl, Or.inl ?_⟩
              · cases platform.mobile <;> rfl
              · simp [State.identity, State.setTask, hs, acceptFiles]
            · cases h

theorem afterShown_spec (s : State) (r : RequestId) (req : PrepareRequest) (sessionId : String) :
    ∃ task, Touch s (afterShown s r req sessionId) r task ∧ task.afterStore = true ∧
      (afterShown s r req sessionId).session = s.session ∧
      (afterShown s r req sessionId).closing = s.closing := by
  unfold afterShown
  split
  · exact ⟨_, touch_setTask _ _ _, rfl, rfl, rfl⟩
  · exact ⟨_, touch_setTask _ _ _, rfl, rfl, rfl⟩

/-- **The store**: the new session has a new id. -/
theorem createSession_spec {req : PrepareRequest} {dto : PrepareUploadRequestDto}
    {settings : Settings} {favorites : List Favorite} {defaultDir cacheDir sessionId : String}
    {tokens : List String}
    (h : createSession platform s r req dto settings favorites defaultDir cacheDir sessionId tokens =
      some t) :
    ∃ task, Touch s t r task ∧ task.afterStore = true ∧ t.closing = s.closing ∧
      sessionId ∉ s.uuids ∧ sessionId ∈ t.uuids ∧
      (t.session = none ∨ ∃ keys, t.identity = some (sessionId, keys)) := by
  unfold createSession at h
  split at h
  · rename_i hfresh
    have hnew : sessionId ∉ s.uuids := by
      simpa [State.fresh] using hfresh
    dsimp only at h
    split at h
    · obtain ⟨task, htouch, htask, hcl, hid⟩ := resumeSelection_spec h
      refine ⟨task, ⟨htouch.tasks, fun i hi => htouch.uuids i (List.mem_cons_of_mem _ hi)⟩,
        isReturn_afterStore htask, hcl, hnew, htouch.uuids _ List.mem_cons_self, ?_⟩
      rcases hid with hid | ⟨hnone, _⟩
      · exact Or.inr ⟨_, hid⟩
      · exact Or.inl hnone
    · split at h
      · simp only [Option.some.injEq] at h
        subst h
        exact ⟨_, ⟨rfl, fun i hi => List.mem_cons_of_mem _ hi⟩, rfl, rfl, hnew,
          List.mem_cons_self, Or.inr ⟨_, rfl⟩⟩
      · simp only [Option.some.injEq] at h
        subst h
        obtain ⟨task, htouch, htask, hses, hcl⟩ := afterShown_spec _ r req sessionId
        refine ⟨task, ⟨htouch.tasks, fun i hi => htouch.uuids i (List.mem_cons_of_mem _ hi)⟩, htask,
          hcl, hnew, htouch.uuids _ List.mem_cons_self, Or.inr ?_⟩
        rw [State.identity, hses]
        exact ⟨_, rfl⟩
  · cases h

/-! ## 3. Upload -/

/-- Finishing a file keeps the session's identity; it fails exactly without the file. -/
theorem fileFinished_spec (s : State) (fileId : String) (status : FileStatus)
    (path : Option String) (savedToGallery : Bool) (errorMessage : Option String) :
    match s.fileFinished fileId status path savedToGallery errorMessage with
    | some s1 => s1.identity = s.identity ∧ s1.tasks = s.tasks ∧ s1.uuids = s.uuids ∧
        s1.closing = s.closing
    | none => ∃ session, s.session = some session ∧ fileId ∉ session.files.keys := by
  unfold State.fileFinished
  cases hs : s.session with
  | none => exact ⟨rfl, rfl, rfl, rfl⟩
  | some session =>
      dsimp only [ReceiveSessionState.fileFinished]
      cases hu : session.files.update fileId _ with
      | none => exact ⟨session, rfl, LinkedMap.update_eq_none.mp hu⟩
      | some files =>
          refine ⟨?_, rfl, rfl, rfl⟩
          simp [State.identity, hs, (LinkedMap.update_spec hu).1]

/-- **The tail of an upload** responds; it may end the session's transfer and schedule its
    close. -/
theorem finishUpload_spec (s : State) (r : RequestId) (u : Upload) (env : UploadEnv) :
    (∃ response, Touch s (finishUpload s r u env) r (.returned response)) ∧
    (finishUpload s r u env).identity = s.identity ∧
    ∀ c ∈ (finishUpload s r u env).closing, c ∈ s.closing ∨ c = (r, u.sessionId) := by
  unfold finishUpload
  cases hs : s.session with
  | none => exact ⟨⟨_, touch_setTask _ _ _⟩, rfl, fun c hc => Or.inl hc⟩
  | some session =>
      dsimp only
      split
      · refine ⟨⟨_, ⟨rfl, fun _ hi => hi⟩⟩, by simp [State.identity, State.setTask, hs], ?_⟩
        intro c hc
        have hmem : ∀ b : Bool, c ∈ (if b = true then (r, u.sessionId) :: s.closing else s.closing) →
            c ∈ s.closing ∨ c = (r, u.sessionId) := by
          rintro (_ | _) hb
          · exact Or.inl hb
          · exact (List.mem_cons.mp hb).symm
        exact hmem _ hc
      · exact ⟨⟨_, touch_setTask _ _ _⟩, rfl, fun c hc => Or.inl hc⟩

/-- **The catch**: it responds, or it crashes because the session lacks the file. -/
theorem catchUpload_spec (s : State) (r : RequestId) (u : Upload) (error : String)
    (env : UploadEnv) :
    (∃ task, Touch s (catchUpload s r u error env) r task ∧
      ((∃ response, task = .returned response) ∨
        (task = .crashed ∧ ∃ session, s.session = some session ∧ u.fileId ∉ session.files.keys))) ∧
    (catchUpload s r u error env).identity = s.identity ∧
    ∀ c ∈ (catchUpload s r u error env).closing, c ∈ s.closing ∨ c = (r, u.sessionId) := by
  have hspec := fileFinished_spec s u.fileId .failed none false (some error)
  unfold catchUpload
  cases hf : s.fileFinished u.fileId .failed none false (some error) with
  | none =>
      rw [hf] at hspec
      exact ⟨⟨_, touch_setTask _ _ _, Or.inr ⟨rfl, hspec⟩⟩, rfl, fun c hc => Or.inl hc⟩
  | some s1 =>
      rw [hf] at hspec
      obtain ⟨hid, htasks, huuids, hcl⟩ := hspec
      obtain ⟨⟨response, htouch⟩, hid', hcl'⟩ := finishUpload_spec s1 r u env
      refine ⟨⟨_, ⟨?_, ?_⟩, Or.inl ⟨response, rfl⟩⟩, hid'.trans hid, ?_⟩
      · rw [← htasks]
        exact htouch.tasks
      · rw [← huuids]
        exact htouch.uuids
      · rw [← hcl]
        exact hcl'

/-- What an upload that passed its guards knows of the session. -/
theorem uploadGuards_ok {session : Option ReceiveSessionState} {req : UploadRequest}
    {receiveState : ReceiveSessionState} {fileId : String} {receivingFile : ReceivingFile}
    (h : uploadGuards session req = .ok (receiveState, fileId, receivingFile)) :
    session = some receiveState ∧ receiveState.files.get? fileId = some receivingFile := by
  unfold uploadGuards at h
  split at h
  · cases h
  · split at h
    · cases h
    · split at h
      · cases h
      · split at h
        · split at h
          · cases h
          · split at h
            · cases h
            · split at h
              · rename_i hget
                split at h
                · cases h
                  exact ⟨rfl, hget⟩
                · cases h
              · cases h
        · cases h

/-- **The start of an upload**: it is refused, or it knows the session's id and one of its
    files. -/
theorem startUpload_spec (s : State) (r : RequestId) (req : UploadRequest) (env : UploadEnv) :
    (∃ task, Touch s (startUpload s r req env) r task ∧
      ((∃ response, task = .returned response) ∨ ∃ u keys, task = .saving u ∧
        s.identity = some (u.sessionId, keys) ∧ u.fileId ∈ keys)) ∧
    (startUpload s r req env).identity = s.identity ∧
    ∀ c ∈ (startUpload s r req env).closing, c ∈ s.closing ∨
      ∃ keys, s.identity = some (c.2, keys) := by
  unfold startUpload
  cases hg : uploadGuards s.session req with
  | error response =>
      exact ⟨⟨_, touch_setTask _ _ _, Or.inl ⟨_, rfl⟩⟩, rfl, fun c hc => Or.inl hc⟩
  | ok x =>
      obtain ⟨receiveState, fileId, receivingFile⟩ := x
      obtain ⟨hs, hget⟩ := uploadGuards_ok hg
      have hkey : fileId ∈ receiveState.files.keys := LinkedMap.mem_keys.mpr ⟨_, hget⟩
      have hid : s.identity = some (receiveState.sessionId, receiveState.files.keys) := by
        simp [State.identity, hs]
      dsimp only
      split
      · refine ⟨⟨_, ⟨rfl, fun _ hi => hi⟩, Or.inr ⟨_, _, rfl, hid, hkey⟩⟩, ?_,
          fun c hc => Or.inl hc⟩
        rw [hid]
        simp [State.identity, State.setTask, LinkedMap.keys_insert_of_mem hkey]
      · -- the null check throws inside the `try`
        obtain ⟨⟨task, htouch, htask⟩, hid', hcl⟩ := catchUpload_spec
          { s with
            session := some { receiveState with
              files := receiveState.files.insert fileId { receivingFile with status := .sending }
              startTime := some (receiveState.startTime.getD env.now)
              status := .sending } } r
          ⟨receiveState.sessionId, receiveState.senderAlias, fileId, receivingFile⟩ nullCheckError env
        refine ⟨⟨task, ⟨htouch.tasks, htouch.uuids⟩, ?_⟩, ?_, fun c hc => ?_⟩
        · rcases htask with htask | ⟨_, session, hses, hno⟩
          · exact Or.inl htask
          · obtain rfl := Option.some.inj hses
            rw [LinkedMap.keys_insert_of_mem hkey] at hno
            exact absurd hkey hno
        · rw [hid', hid]
          simp [State.identity, LinkedMap.keys_insert_of_mem hkey]
        · rcases hcl c hc with hc | rfl
          · exact Or.inl hc
          · exact Or.inr ⟨_, hid⟩

/-- **After the save**: respond, go on to the history, or crash because the current session lacks
    the file. -/
theorem afterSave_spec (s : State) (r : RequestId) (u : Upload)
    (result : Except String (Bool × Option String)) (env : UploadEnv) :
    (∃ task, Touch s (afterSave s r u result env) r task ∧
      ((∃ response, task = .returned response) ∨ task = .recording u ∨
        (task = .crashed ∧ ∃ session, s.session = some session ∧ u.fileId ∉ session.files.keys ∧
          (result.isOk = true → allowedStates session.status = true)))) ∧
    (afterSave s r u result env).identity = s.identity ∧
    ∀ c ∈ (afterSave s r u result env).closing, c ∈ s.closing ∨ c = (r, u.sessionId) := by
  have hcatch : ∀ error, (result.isOk = true → ∀ session, s.session = some session →
      allowedStates session.status = true) →
      (∃ task, Touch s (catchUpload s r u error env) r task ∧
        ((∃ response, task = .returned response) ∨ task = .recording u ∨
          (task = .crashed ∧ ∃ session, s.session = some session ∧
            u.fileId ∉ session.files.keys ∧
            (result.isOk = true → allowedStates session.status = true)))) ∧
      (catchUpload s r u error env).identity = s.identity ∧
      ∀ c ∈ (catchUpload s r u error env).closing, c ∈ s.closing ∨ c = (r, u.sessionId) := by
    intro error hok
    obtain ⟨⟨task, htouch, htask⟩, hid, hcl⟩ := catchUpload_spec s r u error env
    refine ⟨⟨task, htouch, ?_⟩, hid, hcl⟩
    rcases htask with htask | ⟨rfl, session, hs, hno⟩
    · exact Or.inl htask
    · exact Or.inr (Or.inr ⟨rfl, session, hs, hno, fun h => hok h session hs⟩)
  unfold afterSave
  cases result with
  | error e => exact hcatch e nofun
  | ok x =>
      obtain ⟨savedToGallery, filePath⟩ := x
      dsimp only
      split
      · rename_i hallowed
        have hspec := fileFinished_spec s u.fileId .finished filePath savedToGallery none
        cases hf : s.fileFinished u.fileId .finished filePath savedToGallery none with
        | none =>
            refine hcatch missingKeyError fun _ session hs => ?_
            rw [hs] at hallowed
            exact hallowed
        | some s1 =>
            rw [hf] at hspec
            obtain ⟨hid, htasks, huuids, hcl⟩ := hspec
            refine ⟨⟨_, ⟨?_, ?_⟩, Or.inr (Or.inl rfl)⟩, hid, fun c hc => Or.inl ?_⟩
            · rw [← htasks]
              rfl
            · rw [← huuids]
              exact fun _ hi => hi
            · rw [← hcl]
              exact hc
      · exact ⟨⟨_, touch_setTask _ _ _, Or.inl ⟨_, rfl⟩⟩, rfl, fun c hc => Or.inl hc⟩

theorem afterRecord_spec (s : State) (r : RequestId) (u : Upload) (result : Except String Unit)
    (env : UploadEnv) :
    (∃ task, Touch s (afterRecord s r u result env) r task ∧
      ((∃ response, task = .returned response) ∨
        (task = .crashed ∧ result.isOk = false ∧
          ∃ session, s.session = some session ∧ u.fileId ∉ session.files.keys))) ∧
    (afterRecord s r u result env).identity = s.identity ∧
    ∀ c ∈ (afterRecord s r u result env).closing, c ∈ s.closing ∨ c = (r, u.sessionId) := by
  unfold afterRecord
  cases result with
  | error e =>
      obtain ⟨⟨task, htouch, htask⟩, hid, hcl⟩ := catchUpload_spec s r u e env
      refine ⟨⟨task, htouch, ?_⟩, hid, hcl⟩
      rcases htask with htask | ⟨rfl, hno⟩
      · exact Or.inl htask
      · exact Or.inr ⟨rfl, rfl, hno⟩
  | ok x =>
      obtain ⟨⟨response, htouch⟩, hid, hcl⟩ := finishUpload_spec s r u env
      exact ⟨⟨_, htouch, Or.inl ⟨response, rfl⟩⟩, hid, hcl⟩

/-! ## 4. The machine -/

/-- The step of an upload handler writes to the session it finds: the failing path always does,
    the other one if the status is right (and, in the end, all files are done). -/
def Event.writes (session : ReceiveSessionState) : Event → Prop
  | .saved _ result _ => result.isOk = true → allowedStates session.status = true
  | .recorded _ result _ =>
    result.isOk = true → allowedStates session.status = true ∧ session.isFinishedOrError = true
  | _ => True

/-- **How a step moves the task of `r`**, with what it found before. -/
inductive Moves (s : State) (e : Event) (r : RequestId) : Task → Prop where
  | returned (task : Task) (h : task.isReturn = true) : Moves s e r task
  | reading (req : PrepareRequest) (pin : Option String) (he : e = .prepareUpload r req pin)
      (hnone : s.session = none) (hpin : (checkPin s.pinAttempts req.ip pin req.pin).2 = none) :
      Moves s e r (.reading req)
  | locating (req : PrepareRequest) (dto : PrepareUploadRequestDto) (settings : Settings)
      (hr : s.tasks.get? r = some (.reading req)) : Moves s e r (.locating req dto settings)
  | stored (task : Task) (h : task.afterStore = true) : Moves s e r task
  | saving (u : Upload) (keys : List String) (hid : s.identity = some (u.sessionId, keys))
      (hkey : u.fileId ∈ keys) : Moves s e r (.saving u)
  | recording (u : Upload) (hr : s.tasks.get? r = some (.saving u)) : Moves s e r (.recording u)
  | crashed (task : Task) (u : Upload) (session : ReceiveSessionState)
      (hr : s.tasks.get? r = some task) (hu : task.upload? = some u)
      (hs : s.session = some session) (hno : u.fileId ∉ session.files.keys)
      (he : (∃ result env, e = .saved r result env) ∨ ∃ result env, e = .recorded r result env)
      (hw : e.writes session) : Moves s e r .crashed

/-- The session a prepare-upload handler stored. -/
def Task.sessionId? : Task → Option String
  | .showing _ sessionId | .recordingMessage _ sessionId | .deciding _ sessionId => some sessionId
  | _ => none

/-- **The step ends the session `id`**: the user closes it, its own prepare-upload handler was
    refused, or the delayed close of one of its own uploads runs. -/
def closes (s : State) : Event → String → Prop
  | .closeSession, id | .cancelSession, id =>
    s.session.map ReceiveSessionState.sessionId = some id
  | .decided r _, id =>
    (s.tasks.get? r).bind Task.sessionId? = some id ∧ (s.answers.get? r).any refused = true
  | .delayedClose r, id => s.closing.lookup r = some id
  | _, _ => False

instance (s : State) : (e : Event) → (id : String) → Decidable (closes s e id)
  | .closeSession, id => inferInstanceAs (Decidable (s.session.map _ = some id))
  | .cancelSession, id => inferInstanceAs (Decidable (s.session.map _ = some id))
  | .decided r _, id =>
    inferInstanceAs (Decidable ((s.tasks.get? r).bind Task.sessionId? = some id ∧ _ = true))
  | .delayedClose r, id => inferInstanceAs (Decidable (s.closing.lookup r = some id))
  | .prepareUpload _ _ _, _ | .readBody _ _ _, _ | .createSession _ _ _ _ _ _, _ | .shown _, _
  | .messageRecorded _, _ | .permitted _, _ | .upload _ _ _, _ | .saved _ _ _, _
  | .recorded _ _ _, _ | .cancel _ _ _, _ | .acceptFileRequest _, _ | .declineFileRequest, _
  | .setSessionDestinationDir _, _ | .setSessionSaveToGallery _, _ =>
    inferInstanceAs (Decidable False)

/-- The step stores a new session, under a uuid nobody had. -/
def stores (s t : State) (e : Event) : Prop :=
  ∃ r req dto settings favorites defaultDir cacheDir sessionId tokens,
    e = .createSession r favorites defaultDir cacheDir sessionId tokens ∧
    s.tasks.get? r = some (.locating req dto settings) ∧
    (∃ task, t.tasks = s.tasks.insert r task ∧ task.afterStore = true) ∧
    sessionId ∉ s.uuids ∧ sessionId ∈ t.uuids ∧
    (t.session = none ∨ ∃ keys, t.identity = some (sessionId, keys))

/-- **The effect of a step.** -/
structure Effect (s t : State) (e : Event) : Prop where
  uuids : ∀ i ∈ s.uuids, i ∈ t.uuids
  tasks : t.tasks = s.tasks ∨ ∃ r task, t.tasks = s.tasks.insert r task ∧ Moves s e r task
  closing : ∀ c ∈ t.closing, c ∈ s.closing ∨ (∃ keys, s.identity = some (c.2, keys)) ∨
    ∃ task u, s.tasks.get? c.1 = some task ∧ task.upload? = some u ∧ c.2 = u.sessionId
  identity : t.identity = s.identity ∨ (t.session = none ∧ ∃ id, closes s e id) ∨ stores s t e

theorem identity_of_session (h : t.session = s.session) : t.identity = s.identity := by
  rw [State.identity, State.identity, h]

theorem identity_eq_none (h : s.session = none) : s.identity = none := by
  rw [State.identity, h]
  rfl

/-- Nothing is there to be closed. -/
theorem effect_closeSession
    (hid : ∀ id, s.session.map ReceiveSessionState.sessionId = some id → closes s e id)
    (ht : t.session = none) :
    t.identity = s.identity ∨ (t.session = none ∧ ∃ id, closes s e id) ∨ stores s t e := by
  cases hs : s.session with
  | none => exact Or.inl (by rw [identity_eq_none ht, identity_eq_none hs])
  | some session =>
      exact Or.inr (Or.inl ⟨ht, session.sessionId, hid _ (by rw [hs]; rfl)⟩)

/-- **Inversion**: what a step can do. -/
theorem step_effect (hs : (controller platform).step s e = some t) : Effect s t e := by
  change step platform s e = some t at hs
  cases e with
  | prepareUpload r req pin =>
      simp only [step] at hs
      split at hs
      · cases hs
      · cases hs
        obtain ⟨task, htouch, hses, hcl, htask⟩ := prepareUpload_spec s r req pin
        refine ⟨htouch.uuids, Or.inr ⟨r, task, htouch.tasks, ?_⟩, fun c hc => Or.inl (hcl ▸ hc),
          Or.inl (identity_of_session hses)⟩
        rcases htask with htask | ⟨rfl, hnone, hpin⟩
        · exact .returned task htask
        · exact .reading req pin rfl hnone hpin
  | readBody r dto settings =>
      simp only [step] at hs
      split at hs
      · rename_i req hr
        cases hs
        obtain ⟨task, htouch, hses, hcl, htask⟩ := readBody_spec s r req dto settings
        refine ⟨htouch.uuids, Or.inr ⟨r, task, htouch.tasks, ?_⟩, fun c hc => Or.inl (hcl ▸ hc),
          Or.inl (identity_of_session hses)⟩
        rcases htask with htask | ⟨d, rfl⟩
        · exact .returned task htask
        · exact .locating req d settings hr
      · cases hs
  | createSession r favorites defaultDir cacheDir sessionId tokens =>
      simp only [step] at hs
      split at hs
      · rename_i req dto settings hr
        obtain ⟨task, htouch, htask, hcl, hnew, hin, hid⟩ := createSession_spec hs
        exact ⟨htouch.uuids, Or.inr ⟨r, task, htouch.tasks, .stored task htask⟩,
          fun c hc => Or.inl (hcl ▸ hc),
          Or.inr (Or.inr ⟨r, req, dto, settings, favorites, defaultDir, cacheDir, sessionId, tokens,
            rfl, hr, ⟨task, htouch.tasks, htask⟩, hnew, hin, hid⟩)⟩
      · cases hs
  | shown r =>
      simp only [step] at hs
      split at hs
      · rename_i req sessionId hr
        cases hs
        obtain ⟨task, htouch, htask, hses, hcl⟩ := afterShown_spec s r req sessionId
        exact ⟨htouch.uuids, Or.inr ⟨r, task, htouch.tasks, .stored task htask⟩,
          fun c hc => Or.inl (hcl ▸ hc), Or.inl (identity_of_session hses)⟩
      · cases hs
  | messageRecorded r =>
      simp only [step] at hs
      split at hs
      · cases hs
        exact ⟨fun _ hi => hi, Or.inr ⟨r, _, rfl, .stored _ rfl⟩, fun c hc => Or.inl hc, Or.inl rfl⟩
      · cases hs
  | decided r tokens =>
      simp only [step] at hs
      split at hs
      · rename_i req sessionId selection hr hanswer
        obtain ⟨task, htouch, htask, hcl, hid⟩ := resumeSelection_spec hs
        refine ⟨htouch.uuids, Or.inr ⟨r, task, htouch.tasks, .returned task htask⟩,
          fun c hc => Or.inl (hcl ▸ hc), ?_⟩
        rcases hid with hid | ⟨hnone, href⟩
        · exact Or.inl hid
        · refine Or.inr (Or.inl ⟨hnone, sessionId, ?_, ?_⟩)
          · rw [hr]
            rfl
          · rw [hanswer]
            exact href
      · cases hs
  | permitted r =>
      simp only [step] at hs
      split at hs
      · cases hs
        exact ⟨fun _ hi => hi, Or.inr ⟨r, _, rfl, .returned _ rfl⟩, fun c hc => Or.inl hc,
          Or.inl rfl⟩
      · cases hs
  | upload r req env =>
      simp only [step] at hs
      split at hs
      · cases hs
      · cases hs
        obtain ⟨⟨task, htouch, htask⟩, hid, hcl⟩ := startUpload_spec s r req env
        refine ⟨htouch.uuids, Or.inr ⟨r, task, htouch.tasks, ?_⟩,
          fun c hc => (hcl c hc).imp id Or.inl, Or.inl hid⟩
        rcases htask with ⟨response, rfl⟩ | ⟨u, keys, rfl, hid', hkey⟩
        · exact .returned _ rfl
        · exact .saving u keys hid' hkey
  | saved r result env =>
      simp only [step] at hs
      split at hs
      · rename_i u hr
        cases hs
        obtain ⟨⟨task, htouch, htask⟩, hid, hcl⟩ := afterSave_spec s r u result env
        refine ⟨htouch.uuids, Or.inr ⟨r, task, htouch.tasks, ?_⟩, fun c hc => ?_, Or.inl hid⟩
        · rcases htask with ⟨response, rfl⟩ | rfl | ⟨rfl, session, hses, hno, hw⟩
          · exact .returned _ rfl
          · exact .recording u hr
          · exact .crashed _ u session hr rfl hses hno (Or.inl ⟨result, env, rfl⟩) hw
        · rcases hcl c hc with hc | rfl
          · exact Or.inl hc
          · exact Or.inr (Or.inr ⟨_, u, hr, rfl, rfl⟩)
      · cases hs
  | recorded r result env =>
      simp only [step] at hs
      split at hs
      · rename_i u hr
        cases hs
        obtain ⟨⟨task, htouch, htask⟩, hid, hcl⟩ := afterRecord_spec s r u result env
        refine ⟨htouch.uuids, Or.inr ⟨r, task, htouch.tasks, ?_⟩, fun c hc => ?_, Or.inl hid⟩
        · rcases htask with ⟨response, rfl⟩ | ⟨rfl, herr, session, hses, hno⟩
          · exact .returned _ rfl
          · refine .crashed _ u session hr rfl hses hno (Or.inr ⟨result, env, rfl⟩) fun hok => ?_
            rw [herr] at hok
            cases hok
        · rcases hcl c hc with hc | rfl
          · exact Or.inl hc
          · exact Or.inr (Or.inr ⟨_, u, hr, rfl, rfl⟩)
      · cases hs
  | delayedClose r =>
      simp only [step] at hs
      split at hs
      · rename_i id hid
        cases hs
        exact ⟨fun _ hi => hi, Or.inl rfl, fun c hc => Or.inl (List.mem_filter.mp hc).1,
          Or.inr (Or.inl ⟨rfl, id, hid⟩)⟩
      · cases hs
  | cancel r req now =>
      simp only [step] at hs
      split at hs
      · cases hs
      · cases hs
        unfold cancelHandler
        cases hses : s.session with
        | none => exact ⟨fun _ hi => hi, Or.inl rfl, fun c hc => Or.inl hc, Or.inl rfl⟩
        | some session =>
            dsimp only
            repeat' split
            all_goals
              refine ⟨fun _ hi => hi, Or.inr ⟨r, _, rfl, .returned _ rfl⟩, fun c hc => Or.inl hc,
                Or.inl ?_⟩
            all_goals simp [State.identity, State.respond, State.setTask, hses,
              ReceiveSessionState.cancelBySender]
  | acceptFileRequest selection =>
      cases hs
      unfold State.answer
      repeat' split
      all_goals exact ⟨fun _ hi => hi, Or.inl rfl, fun c hc => Or.inl hc, Or.inl rfl⟩
  | declineFileRequest =>
      cases hs
      unfold State.answer
      repeat' split
      all_goals exact ⟨fun _ hi => hi, Or.inl rfl, fun c hc => Or.inl hc, Or.inl rfl⟩
  | closeSession =>
      cases hs
      exact ⟨fun _ hi => hi, Or.inl rfl, fun c hc => Or.inl hc,
        effect_closeSession (fun _ hid => hid) rfl⟩
  | cancelSession =>
      cases hs
      exact ⟨fun _ hi => hi, Or.inl rfl, fun c hc => Or.inl hc,
        effect_closeSession (fun _ hid => hid) rfl⟩
  | setSessionDestinationDir dir =>
      cases hs
      refine ⟨fun _ hi => hi, Or.inl rfl, fun c hc => Or.inl hc, Or.inl ?_⟩
      cases hses : s.session <;> simp [State.identity, State.mapSession, hses]
  | setSessionSaveToGallery saveToGallery =>
      cases hs
      refine ⟨fun _ hi => hi, Or.inl rfl, fun c hc => Or.inl hc, Or.inl ?_⟩
      cases hses : s.session <;> simp [State.identity, State.mapSession, hses]

end LocalSend.Receive
