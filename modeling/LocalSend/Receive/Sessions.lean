/-
  File:      LocalSend/Receive/Sessions.lean
  Subject:   THE SESSION AFTER A STEP, as a function of the session before it. The upload
             handlers never store a session of their own: each of their steps maps the one that
             is there.

  * `begun`, `done`, `settled`, `caught` -- the four things they do to it;
  * `startUpload_session` .. `afterRecord_session` -- which step does which;
  * `finishUpload_tasks`, `catchUpload_tasks` -- what they answer;
  * `resumeSelection_cases`, `createSession_cases` -- the two steps that give a session its files;
  * `step_session` -- all other steps; `step_next` -- the task each step gives to its request.
-/
import LocalSend.Receive.Effects

namespace LocalSend.Receive

open Lib

variable {platform : Platform} {s t : State} {e : Event} {r : RequestId}

namespace ReceiveSessionState

/-! ## 1. What an upload does to its session -/

/-- The upload of `fileId` begins. -/
def begun (session : ReceiveSessionState) (fileId : String) (file : ReceivingFile) (now : Int) :
    ReceiveSessionState :=
  { session with
    files := session.files.insert fileId { file with status := .sending }
    startTime := some (session.startTime.getD now)
    status := .sending }

/-- The file is saved: marked, if the session is in the right state and has it. -/
def done (session : ReceiveSessionState) (fileId : String) (path : Option String)
    (savedToGallery : Bool) : ReceiveSessionState :=
  if allowedStates session.status then
    (session.fileFinished fileId .finished path savedToGallery none).getD session
  else session

/-- The last file ends the transfer. -/
def settled (session : ReceiveSessionState) (now : Int) : ReceiveSessionState :=
  if allowedStates session.status && session.isFinishedOrError then
    { session with
      status := if session.hasError then .finishedWithErrors else .finished
      endTime := some now }
  else session

/-- The file failed, and may have been the last. -/
def caught (session : ReceiveSessionState) (fileId error : String) (now : Int) :
    ReceiveSessionState :=
  match session.fileFinished fileId .failed none false (some error) with
  | some session' => session'.settled now
  | none => session

variable {session session' : ReceiveSessionState} {fileId : String}

/-- What `fileFinished` leaves: the file has the new status, everything else is as it was. -/
theorem fileFinished_some {status : FileStatus} {path error : Option String} {gallery : Bool}
    (h : session.fileFinished fileId status path gallery error = some session') :
    ∃ file, session.files.get? fileId = some file ∧
      session' = { session with
        files := session.files.insert fileId { file with
          status := status
          path := path
          savedToGallery := gallery
          errorMessage := error } } := by
  obtain ⟨files, hfiles, rfl⟩ := Option.map_eq_some_iff.mp h
  obtain ⟨file, hget, rfl⟩ := Option.map_eq_some_iff.mp hfiles
  exact ⟨file, hget, rfl⟩

theorem fileFinished_none {status : FileStatus} {path error : Option String} {gallery : Bool} :
    session.fileFinished fileId status path gallery error = none ↔ fileId ∉ session.files.keys := by
  rw [fileFinished, Option.map_eq_none_iff, LinkedMap.update_eq_none]

@[simp] theorem settled_files (session : ReceiveSessionState) (now : Int) :
    (session.settled now).files = session.files := by
  unfold settled
  split <;> rfl

variable {other : String}

/-! The other files are left alone. -/

theorem fileFinished_other {session' : ReceiveSessionState} {status : FileStatus}
    {path error : Option String} {gallery : Bool}
    (h : session.fileFinished fileId status path gallery error = some session')
    (hne : other ≠ fileId) : session'.files.get? other = session.files.get? other := by
  obtain ⟨file, _, rfl⟩ := fileFinished_some h
  exact LinkedMap.get?_insert_ne hne

theorem caught_other (session : ReceiveSessionState) (error : String) (now : Int)
    (hne : other ≠ fileId) :
    (session.caught fileId error now).files.get? other = session.files.get? other := by
  unfold caught
  split
  · rename_i h
    rw [settled_files]
    exact fileFinished_other h hne
  · rfl

theorem begun_other (session : ReceiveSessionState) (file : ReceivingFile) (now : Int)
    (hne : other ≠ fileId) :
    (session.begun fileId file now).files.get? other = session.files.get? other :=
  LinkedMap.get?_insert_ne hne

theorem done_other (session : ReceiveSessionState) (path : Option String) (gallery : Bool)
    (hne : other ≠ fileId) :
    (session.done fileId path gallery).files.get? other = session.files.get? other := by
  unfold done
  split
  · cases h : session.fileFinished fileId .finished path gallery none with
    | none => rfl
    | some session' => exact fileFinished_other h hne
  · rfl

end ReceiveSessionState

/-! ## 2. Which step does which -/

theorem finishUpload_session (s : State) (r : RequestId) (u : Upload) (env : UploadEnv) :
    (finishUpload s r u env).session = s.session.map fun session => session.settled env.now := by
  unfold finishUpload
  cases hs : s.session with
  | none => exact hs
  | some session =>
      simp only [ReceiveSessionState.settled, Option.map_some]
      split
      · rfl
      · exact hs

/-- What an upload answers, from the session it finds at its end. -/
def endResponse (session : Option ReceiveSessionState) (fileId : String) : Response :=
  match session with
  | none => .message 500 "Server is in invalid state"
  | some session => uploadResponse session fileId

theorem finishUpload_tasks (s : State) (r : RequestId) (u : Upload) (env : UploadEnv) :
    (finishUpload s r u env).tasks =
      s.tasks.insert r (.returned (endResponse s.session u.fileId)) := by
  unfold finishUpload
  cases hs : s.session with
  | none => rfl
  | some session =>
      dsimp only
      split <;> rfl

theorem catchUpload_session (s : State) (r : RequestId) (u : Upload) (error : String)
    (env : UploadEnv) :
    (catchUpload s r u error env).session =
      s.session.map fun session => session.caught u.fileId error env.now := by
  unfold catchUpload State.fileFinished
  cases hs : s.session with
  | none =>
      rw [finishUpload_session, hs]
      rfl
  | some session =>
      simp only [ReceiveSessionState.caught, Option.map_some]
      cases hf : session.fileFinished u.fileId .failed none false (some error) with
      | none => exact hs
      | some session' => simp [finishUpload_session]

/-- **A failed upload answers with an error**, or crashes on a session without its file. -/
theorem catchUpload_tasks (s : State) (r : RequestId) (u : Upload) (error : String)
    (env : UploadEnv) :
    (∃ text, (catchUpload s r u error env).tasks =
      s.tasks.insert r (.returned (.message 500 text))) ∨
    ((catchUpload s r u error env).tasks = s.tasks.insert r .crashed ∧
      ∃ session, s.session = some session ∧ u.fileId ∉ session.files.keys) := by
  unfold catchUpload State.fileFinished
  cases hs : s.session with
  | none =>
      refine Or.inl ⟨"Server is in invalid state", (finishUpload_tasks _ _ _ _).trans ?_⟩
      rw [hs]
      rfl
  | some session =>
      dsimp only
      cases hf : session.fileFinished u.fileId .failed none false (some error) with
      | none =>
          exact Or.inr ⟨rfl, session, rfl, ReceiveSessionState.fileFinished_none.mp hf⟩
      | some session' =>
          obtain ⟨file, _, rfl⟩ := ReceiveSessionState.fileFinished_some hf
          refine Or.inl ⟨"Could not save file. Check receiving device for more information.",
            (finishUpload_tasks _ _ _ _).trans ?_⟩
          simp only [endResponse, uploadResponse, LinkedMap.get?_insert_self]
          rfl

/-- **After the save**, in the order of the code: the catch, the mark, the wrong state. -/
theorem afterSave_session (s : State) (r : RequestId) (u : Upload)
    (result : Except String (Bool × Option String)) (env : UploadEnv) :
    (afterSave s r u result env).session = s.session.map fun session =>
      match result with
      | .error error => session.caught u.fileId error env.now
      | .ok (gallery, path) => session.done u.fileId path gallery := by
  unfold afterSave
  cases result with
  | error error => exact catchUpload_session s r u error env
  | ok x =>
      obtain ⟨gallery, path⟩ := x
      simp only
      cases hs : s.session with
      | none => simp [State.respond, State.setTask, hs]
      | some session =>
          simp only [Option.any_some, Option.map_some, ReceiveSessionState.done]
          by_cases ha : allowedStates session.status = true
          · rw [if_pos ha, if_pos ha]
            unfold State.fileFinished
            simp only [hs]
            cases hf : session.fileFinished u.fileId .finished path gallery none with
            | none =>
                -- the catch looks for the same missing file
                have hno := ReceiveSessionState.fileFinished_none.mp hf
                simp [catchUpload_session, hs, ReceiveSessionState.caught,
                  ReceiveSessionState.fileFinished_none.mpr hno]
            | some session' => simp [State.setTask]
          · rw [if_neg ha, if_neg ha]
            exact hs

theorem afterRecord_session (s : State) (r : RequestId) (u : Upload) (result : Except String Unit)
    (env : UploadEnv) :
    (afterRecord s r u result env).session = s.session.map fun session =>
      match result with
      | .error error => session.caught u.fileId error env.now
      | .ok _ => session.settled env.now := by
  unfold afterRecord
  cases result with
  | error error => exact catchUpload_session s r u error env
  | ok x => exact finishUpload_session s r u env

/-- What the checks of an upload establish. -/
structure Passed (session : ReceiveSessionState) (req : UploadRequest) (fileId : String)
    (file : ReceivingFile) : Prop where
  ip : some req.ip = session.sender.ip
  status : allowedStates session.status = true
  found : session.files.get? fileId = some file
  named : req.fileId = some fileId
  token : req.token.isSome = true ∧ file.token = req.token
  sessionId : req.v2 = true → req.sessionId = some session.sessionId

theorem uploadGuards_passed {session : Option ReceiveSessionState} {req : UploadRequest}
    {receiveState : ReceiveSessionState} {fileId : String} {file : ReceivingFile}
    (h : uploadGuards session req = .ok (receiveState, fileId, file)) :
    session = some receiveState ∧ Passed receiveState req fileId file := by
  unfold uploadGuards at h
  split at h
  · cases h
  · split at h
    · cases h
    · rename_i hip
      split at h
      · cases h
      · rename_i hstatus
        split at h
        · rename_i fileId' token hfileId htoken
          split at h
          · cases h
          · split at h
            · cases h
            · rename_i hid
              split at h
              · rename_i hget
                split at h
                · rename_i htok
                  cases h
                  refine ⟨rfl, by simpa using hip, by simpa using hstatus, hget, hfileId, ?_, ?_⟩
                  · rw [htoken, htok]
                    exact ⟨rfl, rfl⟩
                  · intro hv2
                    simpa [hv2] using hid
                · cases h
              · cases h
        · cases h

/-- **The start of an upload.** -/
theorem startUpload_session (s : State) (r : RequestId) (req : UploadRequest) (env : UploadEnv) :
    (startUpload s r req env).session =
      match uploadGuards s.session req with
      | .error _ => s.session
      | .ok (session, fileId, file) =>
        match file.desiredName with
        | some _ => some (session.begun fileId file env.now)
        | none => some ((session.begun fileId file env.now).caught fileId nullCheckError env.now) := by
  unfold startUpload
  cases hg : uploadGuards s.session req with
  | error response => rfl
  | ok x =>
      obtain ⟨session, fileId, ⟨file, status, token, desiredName, path, gallery, error⟩⟩ := x
      cases desiredName with
      | some name => rfl
      | none => exact catchUpload_session _ r _ nullCheckError env

/-! ## 3. The steps that give a session its files -/

/-- The session once its files are accepted. -/
def ReceiveSessionState.accepted (session : ReceiveSessionState) (selection : Selection)
    (tokens : List String) : ReceiveSessionState :=
  { session with
    status := .sending
    files := acceptFiles session.files selection tokens
    responseHandler := none }

/-- **The three ways on from a decision**: there is no session any more; it is closed; or its files
    are accepted, under new tokens. -/
theorem resumeSelection_cases {v2 : Bool} {sessionId : String} {selection : Option Selection}
    {tokens : List String}
    (h : resumeSelection platform s r v2 sessionId selection tokens = some t) :
    (∃ task, task.isReturn = true ∧ t.tasks = s.tasks.insert r task) ∧ t.answers = s.answers ∧
    ((s.session = none ∧ t.session = none) ∨ (refused selection = true ∧ t.session = none) ∨
      ∃ session chosen, s.session = some session ∧ selection = some chosen ∧
        refused selection = false ∧ (∀ token ∈ tokens, token ∉ s.uuids) ∧
        t.session = some (session.accepted chosen tokens)) := by
  unfold resumeSelection at h
  cases hs : s.session with
  | none =>
      simp only [hs, Option.some.injEq] at h
      subst h
      exact ⟨⟨_, rfl, rfl⟩, rfl, Or.inl ⟨rfl, hs⟩⟩
  | some session =>
      simp only [hs] at h
      cases selection with
      | none =>
          simp only [Option.some.injEq] at h
          subst h
          exact ⟨⟨_, rfl, rfl⟩, rfl, Or.inr (Or.inl ⟨rfl, rfl⟩)⟩
      | some chosen =>
          dsimp only at h
          split at h
          · rename_i hnil
            simp only [Option.some.injEq] at h
            subst h
            exact ⟨⟨_, rfl, rfl⟩, rfl, Or.inr (Or.inl ⟨by simp [refused, hnil], rfl⟩)⟩
          · rename_i hne
            split at h
            · rename_i hfresh
              simp only [Option.some.injEq] at h
              subst h
              refine ⟨⟨_, ?_, rfl⟩, rfl, Or.inr (Or.inr ⟨session, chosen, rfl, rfl, ?_, ?_, rfl⟩)⟩
              · cases platform.mobile <;> rfl
              · simpa [refused] using hne
              · have hnew := hfresh.2
                simp only [State.fresh, Bool.and_eq_true, List.all_eq_true, decide_eq_true_eq] at hnew
                exact hnew.2
            · cases h

/-- **What a decision answers**: a refusal, if there is no session afterwards, or the tokens. -/
theorem resumeSelection_response {v2 : Bool} {sessionId : String} {selection : Option Selection}
    {tokens : List String}
    (h : resumeSelection platform s r v2 sessionId selection tokens = some t) :
    (t.session = none ∧ ∃ response, t.tasks = s.tasks.insert r (.returned response) ∧
      (response = .empty 204 ∨ ∃ code text, code ≠ 401 ∧ response = .message code text)) ∨
    ∃ session chosen task response, s.session = some session ∧ selection = some chosen ∧
      chosen.entries ≠ [] ∧ t.session = some (session.accepted chosen tokens) ∧
      response = .prepared (if v2 then some sessionId else none)
        (tokensOf (session.accepted chosen tokens).files) ∧
      t.tasks = s.tasks.insert r task ∧ (task = .permitting response ∨ task = .returned response) := by
  unfold resumeSelection at h
  cases hs : s.session with
  | none =>
      simp only [hs, Option.some.injEq] at h
      subst h
      exact Or.inl ⟨hs, _, rfl, Or.inr ⟨500, _, by decide, rfl⟩⟩
  | some session =>
      simp only [hs] at h
      cases selection with
      | none =>
          simp only [Option.some.injEq] at h
          subst h
          exact Or.inl ⟨rfl, _, rfl, Or.inr ⟨403, _, by decide, rfl⟩⟩
      | some chosen =>
          dsimp only at h
          split at h
          · simp only [Option.some.injEq] at h
            subst h
            exact Or.inl ⟨rfl, _, rfl, Or.inl rfl⟩
          · rename_i hne
            split at h
            · simp only [Option.some.injEq] at h
              subst h
              refine Or.inr ⟨session, chosen, _, _, rfl, rfl, hne, rfl, rfl, rfl, ?_⟩
              cases platform.mobile with
              | true => exact Or.inl rfl
              | false => exact Or.inr rfl
            · cases h

/-- **The store**: the handler waits for the user, or goes on with every file. -/
theorem createSession_cases {req : PrepareRequest} {dto : PrepareUploadRequestDto}
    {settings : Settings} {favorites : List Favorite} {defaultDir cacheDir sessionId : String}
    {tokens : List String}
    (h : createSession platform s r req dto settings favorites defaultDir cacheDir sessionId tokens =
      some t) :
    sessionId ∉ s.uuids ∧ ∃ session, session = newSession platform r req dto settings favorites
        (settings.destination.getD defaultDir) cacheDir sessionId ∧
      ((isQuickSave settings favorites session dto.info.fingerprint = true ∧
        resumeSelection platform { s with session := some session, uuids := sessionId :: s.uuids } r
          req.v2 sessionId (some (.ofList (dto.files.values.map fun f => (f.id, f.fileName))))
          tokens = some t) ∨
      (isQuickSave settings favorites session dto.info.fingerprint = false ∧
        t.session = some session ∧ t.answers = s.answers ∧
        ∃ task, t.tasks = s.tasks.insert r task ∧ task.sessionId? = some sessionId)) := by
  unfold createSession at h
  split at h
  · rename_i hfresh
    refine ⟨by simpa [State.fresh] using hfresh, _, rfl, ?_⟩
    dsimp only at h
    split at h
    · rename_i hquick
      exact Or.inl ⟨hquick, h⟩
    · rename_i hquick
      refine Or.inr ⟨by simpa using hquick, ?_⟩
      split at h
      · simp only [Option.some.injEq] at h
        subst h
        exact ⟨rfl, rfl, _, rfl, rfl⟩
      · simp only [Option.some.injEq] at h
        subst h
        unfold afterShown
        split
        · exact ⟨rfl, rfl, _, rfl, rfl⟩
        · exact ⟨rfl, rfl, _, rfl, rfl⟩
  · cases h

/-! ## 4. The machine -/

/-- **The session after a step** that does not give a session its files. -/
def sessionAfter (s t : State) : Event → Prop
  | .createSession _ _ _ _ _ _ | .decided _ _ => True
  | .delayedClose _ | .closeSession | .cancelSession => t.session = none
  | .upload r req env => t.session = (startUpload s r req env).session
  | .saved r result env => ∃ u, s.tasks.get? r = some (.saving u) ∧
    t.session = s.session.map fun session =>
      match result with
      | .error error => session.caught u.fileId error env.now
      | .ok (gallery, path) => session.done u.fileId path gallery
  | .recorded r result env => ∃ u, s.tasks.get? r = some (.recording u) ∧
    t.session = s.session.map fun session =>
      match result with
      | .error error => session.caught u.fileId error env.now
      | .ok _ => session.settled env.now
  | .cancel _ _ now =>
    t.session = s.session ∨ t.session = s.session.map fun session => session.cancelBySender now
  | .setSessionDestinationDir dir =>
    t.session = s.session.map fun session =>
      { session with destinationDirectory := dir.replace "\\" "/" }
  | .setSessionSaveToGallery saveToGallery =>
    t.session = s.session.map fun session => { session with saveToGallery := saveToGallery }
  | _ => t.session = s.session

theorem step_session (hs : (controller platform).step s e = some t) : sessionAfter s t e := by
  change step platform s e = some t at hs
  cases e with
  | prepareUpload r req pin =>
      simp only [step] at hs
      split at hs
      · cases hs
      · cases hs
        obtain ⟨_, _, h, _⟩ := prepareUpload_spec s r req pin
        exact h
  | readBody r dto settings =>
      simp only [step] at hs
      split at hs
      · rename_i req _
        cases hs
        obtain ⟨_, _, h, _⟩ := readBody_spec s r req dto settings
        exact h
      · cases hs
  | createSession _ _ _ _ _ _ | decided _ _ => trivial
  | shown r =>
      simp only [step] at hs
      split at hs
      · rename_i req sessionId _
        cases hs
        obtain ⟨_, _, _, h, _⟩ := afterShown_spec s r req sessionId
        exact h
      · cases hs
  | messageRecorded r | permitted r =>
      simp only [step] at hs
      split at hs
      · cases hs
        rfl
      · cases hs
  | upload r req env =>
      simp only [step] at hs
      split at hs
      · cases hs
      · cases hs
        rfl
  | saved r result env =>
      simp only [step] at hs
      split at hs
      · rename_i u hr
        cases hs
        exact ⟨u, hr, afterSave_session s r u result env⟩
      · cases hs
  | recorded r result env =>
      simp only [step] at hs
      split at hs
      · rename_i u hr
        cases hs
        exact ⟨u, hr, afterRecord_session s r u result env⟩
      · cases hs
  | delayedClose r =>
      simp only [step] at hs
      split at hs
      · cases hs
        rfl
      · cases hs
  | cancel r req now =>
      simp only [step] at hs
      split at hs
      · cases hs
      · cases hs
        unfold cancelHandler
        cases hses : s.session with
        | none => exact Or.inl rfl
        | some session =>
            dsimp only
            repeat' split
            all_goals first
              | exact Or.inl rfl
              | exact Or.inr (by rw [hses]; rfl)
  | acceptFileRequest selection | declineFileRequest =>
      cases hs
      change State.session _ = _
      unfold State.answer
      repeat' split
      all_goals rfl
  | closeSession | cancelSession | setSessionDestinationDir _ | setSessionSaveToGallery _ =>
      cases hs
      rfl

/-- **The task a step gives to its request**, from the one it had. -/
inductive NextTask (s : State) : Event → RequestId → Task → Prop where
  | prepareUpload {r req pin task} (hnew : r ∉ s.tasks.keys)
      (h : task.isReturn = true ∨ task = .reading req) :
      NextTask s (.prepareUpload r req pin) r task
  | readBody {r dto settings req task} (hr : s.tasks.get? r = some (.reading req))
      (h : task.isReturn = true ∨ ∃ d, task = .locating req d settings) :
      NextTask s (.readBody r dto settings) r task
  | createSession {r favorites defaultDir cacheDir sessionId tokens req d settings task}
      (hr : s.tasks.get? r = some (.locating req d settings))
      (h : task.isReturn = true ∨ task.sessionId? = some sessionId) :
      NextTask s (.createSession r favorites defaultDir cacheDir sessionId tokens) r task
  | shown {r req sessionId task} (hr : s.tasks.get? r = some (.showing req sessionId))
      (h : task = .recordingMessage req sessionId ∨ task = .deciding req sessionId) :
      NextTask s (.shown r) r task
  | messageRecorded {r req sessionId}
      (hr : s.tasks.get? r = some (.recordingMessage req sessionId)) :
      NextTask s (.messageRecorded r) r (.deciding req sessionId)
  | decided {r tokens req sessionId task} (hr : s.tasks.get? r = some (.deciding req sessionId))
      (h : task.isReturn = true) : NextTask s (.decided r tokens) r task
  | permitted {r response} (hr : s.tasks.get? r = some (.permitting response)) :
      NextTask s (.permitted r) r (.returned response)
  | refused {r req env response} (hnew : r ∉ s.tasks.keys)
      (hg : uploadGuards s.session req = .error response) :
      NextTask s (.upload r req env) r (.returned response)
  | begun {r req env session fileId file task} (hnew : r ∉ s.tasks.keys)
      (hg : uploadGuards s.session req = .ok (session, fileId, file))
      (h : (file.desiredName.isSome = true ∧
          task = .saving ⟨session.sessionId, session.senderAlias, fileId, file⟩) ∨
        (file.desiredName = none ∧
          ((∃ text, task = .returned (.message 500 text)) ∨ task = .crashed))) :
      NextTask s (.upload r req env) r task
  | saved {r result env u task} (hr : s.tasks.get? r = some (.saving u))
      (h : (∃ text, task = .returned (.message 500 text)) ∨ task = .crashed ∨
        (result.isOk = true ∧ task = .recording u)) :
      NextTask s (.saved r result env) r task
  | recorded {r result env u task} (hr : s.tasks.get? r = some (.recording u))
      (h : (∃ response, task = .returned response) ∨ task = .crashed) :
      NextTask s (.recorded r result env) r task
  | cancel {r req now response} (hnew : r ∉ s.tasks.keys) :
      NextTask s (.cancel r req now) r (.returned response)

/-- **After `saveFile`**: an error, a crash, or the mark. -/
theorem afterSave_tasks (s : State) (r : RequestId) (u : Upload)
    (result : Except String (Bool × Option String)) (env : UploadEnv) :
    ∃ task, (afterSave s r u result env).tasks = s.tasks.insert r task ∧
      ((∃ text, task = .returned (.message 500 text)) ∨ task = .crashed ∨
        (result.isOk = true ∧ task = .recording u)) := by
  have hcatch : ∀ error, ∃ task, (catchUpload s r u error env).tasks = s.tasks.insert r task ∧
      ((∃ text, task = .returned (.message 500 text)) ∨ task = .crashed ∨
        (result.isOk = true ∧ task = .recording u)) := by
    intro error
    rcases catchUpload_tasks s r u error env with ⟨text, h⟩ | ⟨h, _⟩
    · exact ⟨_, h, Or.inl ⟨text, rfl⟩⟩
    · exact ⟨_, h, Or.inr (Or.inl rfl)⟩
  unfold afterSave
  cases result with
  | error error => exact hcatch error
  | ok x =>
      obtain ⟨gallery, path⟩ := x
      dsimp only
      split
      · have hspec := fileFinished_spec s u.fileId .finished path gallery none
        cases hf : s.fileFinished u.fileId .finished path gallery none with
        | none => exact hcatch missingKeyError
        | some s1 =>
            rw [hf] at hspec
            refine ⟨.recording u, ?_, Or.inr (Or.inr ⟨rfl, rfl⟩)⟩
            rw [← hspec.2.1]
            rfl
      · exact ⟨_, rfl, Or.inl ⟨_, rfl⟩⟩

theorem startUpload_next (hnew : r ∉ s.tasks.keys) (req : UploadRequest) (env : UploadEnv) :
    ∃ task, (startUpload s r req env).tasks = s.tasks.insert r task ∧
      NextTask s (.upload r req env) r task := by
  unfold startUpload
  cases hg : uploadGuards s.session req with
  | error response => exact ⟨_, rfl, .refused hnew hg⟩
  | ok x =>
      obtain ⟨session, fileId, file⟩ := x
      dsimp only
      split
      · rename_i hname
        exact ⟨_, rfl, .begun hnew hg (Or.inl ⟨by rw [hname]; rfl, rfl⟩)⟩
      · rename_i hname
        rcases catchUpload_tasks _ r ⟨session.sessionId, session.senderAlias, fileId, file⟩
          nullCheckError env with ⟨text, h⟩ | ⟨h, _⟩
        · exact ⟨_, h, .begun hnew hg (Or.inr ⟨hname, Or.inl ⟨text, rfl⟩⟩)⟩
        · exact ⟨_, h, .begun hnew hg (Or.inr ⟨hname, Or.inr rfl⟩)⟩

/-- **Inversion**: a step moves one task at most, that of its request. -/
theorem step_next (hs : (controller platform).step s e = some t) :
    t.tasks = s.tasks ∨ ∃ r task, t.tasks = s.tasks.insert r task ∧ NextTask s e r task := by
  change step platform s e = some t at hs
  cases e with
  | prepareUpload r req pin =>
      simp only [step] at hs
      split at hs
      · cases hs
      · rename_i hnew
        cases hs
        obtain ⟨task, htouch, _, _, htask⟩ := prepareUpload_spec s r req pin
        exact Or.inr ⟨r, task, htouch.tasks, .prepareUpload hnew (htask.imp id And.left)⟩
  | readBody r dto settings =>
      simp only [step] at hs
      split at hs
      · rename_i req hr
        cases hs
        obtain ⟨task, htouch, _, _, htask⟩ := readBody_spec s r req dto settings
        exact Or.inr ⟨r, task, htouch.tasks, .readBody hr htask⟩
      · cases hs
  | createSession r favorites defaultDir cacheDir sessionId tokens =>
      simp only [step] at hs
      split at hs
      · rename_i req d settings hr
        right
        obtain ⟨_, session, _, ⟨_, hresume⟩ | ⟨_, _, _, task, htasks, hid⟩⟩ := createSession_cases hs
        · obtain ⟨⟨task, htask, htasks⟩, _⟩ := resumeSelection_cases hresume
          exact ⟨r, task, htasks, .createSession hr (Or.inl htask)⟩
        · exact ⟨r, task, htasks, .createSession hr (Or.inr hid)⟩
      · cases hs
  | shown r =>
      simp only [step] at hs
      split at hs
      · rename_i req sessionId hr
        cases hs
        right
        unfold afterShown
        split
        · exact ⟨r, _, rfl, .shown hr (Or.inl rfl)⟩
        · exact ⟨r, _, rfl, .shown hr (Or.inr rfl)⟩
      · cases hs
  | messageRecorded r =>
      simp only [step] at hs
      split at hs
      · rename_i req sessionId hr
        cases hs
        exact Or.inr ⟨r, _, rfl, .messageRecorded hr⟩
      · cases hs
  | decided r tokens =>
      simp only [step] at hs
      split at hs
      · rename_i req sessionId selection hr hanswer
        obtain ⟨⟨task, htask, htasks⟩, _⟩ := resumeSelection_cases hs
        exact Or.inr ⟨r, task, htasks, .decided hr htask⟩
      · cases hs
  | permitted r =>
      simp only [step] at hs
      split at hs
      · rename_i response hr
        cases hs
        exact Or.inr ⟨r, _, rfl, .permitted hr⟩
      · cases hs
  | upload r req env =>
      simp only [step] at hs
      split at hs
      · cases hs
      · rename_i hnew
        cases hs
        obtain ⟨task, htasks, htask⟩ := startUpload_next hnew req env
        exact Or.inr ⟨r, task, htasks, htask⟩
  | saved r result env =>
      simp only [step] at hs
      split at hs
      · rename_i u hr
        cases hs
        obtain ⟨task, htasks, htask⟩ := afterSave_tasks s r u result env
        exact Or.inr ⟨r, task, htasks, .saved hr htask⟩
      · cases hs
  | recorded r result env =>
      simp only [step] at hs
      split at hs
      · rename_i u hr
        cases hs
        obtain ⟨⟨task, htouch, htask⟩, _⟩ := afterRecord_spec s r u result env
        exact Or.inr ⟨r, task, htouch.tasks, .recorded hr (htask.imp id And.left)⟩
      · cases hs
  | delayedClose r =>
      simp only [step] at hs
      split at hs
      · cases hs
        exact Or.inl rfl
      · cases hs
  | cancel r req now =>
      simp only [step] at hs
      split at hs
      · cases hs
      · rename_i hnew
        cases hs
        unfold cancelHandler
        repeat' split
        all_goals first | exact Or.inl rfl | exact Or.inr ⟨r, _, rfl, .cancel hnew⟩
  | acceptFileRequest selection | declineFileRequest =>
      cases hs
      left
      unfold State.answer
      repeat' split
      all_goals rfl
  | closeSession | cancelSession | setSessionDestinationDir _ | setSessionSaveToGallery _ =>
      cases hs
      exact Or.inl rfl

/-- The request whose handler the step runs. -/
def Event.request : Event → Option RequestId
  | .prepareUpload r _ _ | .readBody r _ _ | .createSession r _ _ _ _ _ | .shown r
  | .messageRecorded r | .decided r _ | .permitted r | .upload r _ _ | .saved r _ _
  | .recorded r _ _ | .cancel r _ _ => some r
  | .delayedClose _ | .acceptFileRequest _ | .declineFileRequest | .closeSession | .cancelSession
  | .setSessionDestinationDir _ | .setSessionSaveToGallery _ => none

theorem NextTask.request {task : Task} (h : NextTask s e r task) : e.request = some r := by
  cases h <;> rfl

/-- The task of another request stays. -/
theorem step_other (hs : (controller platform).step s e = some t) {q : RequestId}
    (hq : e.request ≠ some q) : t.tasks.get? q = s.tasks.get? q := by
  rcases step_next hs with htasks | ⟨r, task, htasks, hnext⟩
  · rw [htasks]
  · rw [htasks]
    refine LinkedMap.get?_insert_ne fun h => hq ?_
    rw [hnext.request, h]

/-- **The task after the step**: as before, or the one the step gave. -/
theorem step_task (hs : (controller platform).step s e = some t) {task : Task}
    (hr : t.tasks.get? r = some task) : s.tasks.get? r = some task ∨ NextTask s e r task := by
  rcases step_next hs with htasks | ⟨q, task', htasks, hnext⟩
  · exact Or.inl (htasks ▸ hr)
  · rw [htasks, LinkedMap.get?_insert] at hr
    split at hr
    · rename_i hq
      subst hq
      obtain rfl := Option.some.inj hr
      exact Or.inr hnext
    · exact Or.inl hr

/-- Requests stay known. -/
theorem step_known (hs : (controller platform).step s e = some t) (hr : r ∈ s.tasks.keys) :
    r ∈ t.tasks.keys := by
  obtain ⟨old, hold⟩ := LinkedMap.mem_keys.mp hr
  rcases step_next hs with htasks | ⟨q, task, htasks, _⟩
  · rw [htasks]
    exact hr
  · rw [htasks]
    refine LinkedMap.mem_keys.mpr ?_
    by_cases hq : r = q
    · exact ⟨task, hq ▸ LinkedMap.get?_insert_self⟩
    · exact ⟨old, by rw [LinkedMap.get?_insert_ne hq, hold]⟩

/-- A handler at `saveFile` moves by its result only. -/
theorem step_saving (hs : (controller platform).step s e = some t) {u : Upload}
    (hr : s.tasks.get? r = some (.saving u)) (he : e.request = some r) :
    ∃ result env, e = .saved r result env ∧ t = afterSave s r u result env := by
  change step platform s e = some t at hs
  have hkey : r ∈ s.tasks.keys := LinkedMap.mem_keys.mpr ⟨_, hr⟩
  cases e with
  | saved q result env =>
      obtain rfl := Option.some.inj he
      simp only [step, hr, Option.some.injEq] at hs
      exact ⟨result, env, rfl, hs.symm⟩
  | delayedClose _ | acceptFileRequest _ | declineFileRequest | closeSession | cancelSession
  | setSessionDestinationDir _ | setSessionSaveToGallery _ => cases he
  | _ =>
      obtain rfl := Option.some.inj he
      simp [step, hr, hkey] at hs

/-- A handler at the history moves by its result only. -/
theorem step_recording (hs : (controller platform).step s e = some t) {u : Upload}
    (hr : s.tasks.get? r = some (.recording u)) (he : e.request = some r) :
    ∃ result env, e = .recorded r result env ∧ t = afterRecord s r u result env := by
  change step platform s e = some t at hs
  have hkey : r ∈ s.tasks.keys := LinkedMap.mem_keys.mpr ⟨_, hr⟩
  cases e with
  | recorded q result env =>
      obtain rfl := Option.some.inj he
      simp only [step, hr, Option.some.injEq] at hs
      exact ⟨result, env, rfl, hs.symm⟩
  | delayedClose _ | acceptFileRequest _ | declineFileRequest | closeSession | cancelSession
  | setSessionDestinationDir _ | setSessionSaveToGallery _ => cases he
  | _ =>
      obtain rfl := Option.some.inj he
      simp [step, hr, hkey] at hs

/-- A handler that has returned does not move. -/
theorem step_returned (hs : (controller platform).step s e = some t) {response : Response}
    (hr : s.tasks.get? r = some (.returned response)) : e.request ≠ some r := by
  intro he
  change step platform s e = some t at hs
  have hkey : r ∈ s.tasks.keys := LinkedMap.mem_keys.mpr ⟨_, hr⟩
  cases e with
  | delayedClose _ | acceptFileRequest _ | declineFileRequest | closeSession | cancelSession
  | setSessionDestinationDir _ | setSessionSaveToGallery _ => cases he
  | _ =>
      obtain rfl := Option.some.inj he
      simp [step, hr, hkey] at hs

end LocalSend.Receive
