/-
  File:      LocalSend/Receive/Grants.lean
  Subject:   TOKENS AND ANSWERS. Which steps give the files of a session their tokens, and which
             leave the tokens, the waiting handlers and the answers of the user as they are.

  * `SameGrants`, `Quiet` -- a step that neither stores a session nor takes up an answer;
  * `step_quiet`, `step_answers` -- inversion;
  * `acceptFiles_get`, `newSession_token` -- where tokens come from.
-/
import LocalSend.Receive.Sessions

namespace LocalSend.Receive

open Lib

variable {platform : Platform} {s t : State} {e : Event} {r : RequestId}

/-! ## 1. What the other steps keep -/

/-- What was granted for a file. -/
def ReceivingFile.grant (file : ReceivingFile) : Option String × Option String :=
  (file.token, file.desiredName)

/-- Two sessions with the same id, the same stream, and the same grants. -/
structure SameGrants (a b : ReceiveSessionState) : Prop where
  sessionId : b.sessionId = a.sessionId
  handler : b.responseHandler = a.responseHandler
  grants : ∀ id, (b.files.get? id).map ReceivingFile.grant = (a.files.get? id).map ReceivingFile.grant

namespace SameGrants

variable {a b c : ReceiveSessionState}

theorem refl (a : ReceiveSessionState) : SameGrants a a := ⟨rfl, rfl, fun _ => rfl⟩

theorem trans (h : SameGrants a b) (h' : SameGrants b c) : SameGrants a c :=
  ⟨h'.sessionId.trans h.sessionId, h'.handler.trans h.handler,
    fun id => (h'.grants id).trans (h.grants id)⟩

/-- A new entry with the old grant. -/
theorem insert {fileId : String} {file : ReceivingFile} (file' : ReceivingFile)
    (hget : a.files.get? fileId = some file) (hgrant : file'.grant = file.grant)
    (hid : b.sessionId = a.sessionId) (hhandler : b.responseHandler = a.responseHandler)
    (hfiles : b.files = a.files.insert fileId file') : SameGrants a b := by
  refine ⟨hid, hhandler, fun id => ?_⟩
  rw [hfiles, LinkedMap.get?_insert]
  split
  · rename_i h
    rw [h, hget, Option.map_some, Option.map_some, hgrant]
  · rfl

theorem begun {fileId : String} {file : ReceivingFile} (hget : a.files.get? fileId = some file)
    (now : Int) : SameGrants a (a.begun fileId file now) :=
  .insert { file with status := .sending } hget rfl rfl rfl rfl

theorem fileFinished {fileId : String} {status : FileStatus} {path error : Option String}
    {gallery : Bool} (h : a.fileFinished fileId status path gallery error = some b) :
    SameGrants a b := by
  obtain ⟨file, hget, rfl⟩ := ReceiveSessionState.fileFinished_some h
  exact .insert { file with
    status := status, path := path, savedToGallery := gallery, errorMessage := error }
    hget rfl rfl rfl rfl

theorem settled (a : ReceiveSessionState) (now : Int) : SameGrants a (a.settled now) := by
  unfold ReceiveSessionState.settled
  split
  · exact ⟨rfl, rfl, fun _ => rfl⟩
  · exact refl a

theorem caught (a : ReceiveSessionState) (fileId error : String) (now : Int) :
    SameGrants a (a.caught fileId error now) := by
  unfold ReceiveSessionState.caught
  split
  · rename_i h
    exact (fileFinished h).trans (settled _ now)
  · exact refl a

theorem done (a : ReceiveSessionState) (fileId : String) (path : Option String) (gallery : Bool) :
    SameGrants a (a.done fileId path gallery) := by
  unfold ReceiveSessionState.done
  split
  · cases h : a.fileFinished fileId .finished path gallery none with
    | none => exact refl a
    | some b => exact fileFinished h
  · exact refl a

end SameGrants

/-- Whatever session is there after the step was there before, with the same grants. -/
def KeepsGrants (s t : State) : Prop :=
  ∀ session', t.session = some session' → ∃ session, s.session = some session ∧
    SameGrants session session'

theorem KeepsGrants.of_eq (h : t.session = s.session) : KeepsGrants s t :=
  fun session' hs' => ⟨session', h ▸ hs', .refl _⟩

theorem KeepsGrants.of_none (h : t.session = none) : KeepsGrants s t := fun session' hs' => by
  rw [h] at hs'
  cases hs'

theorem KeepsGrants.of_map {f : ReceiveSessionState → ReceiveSessionState}
    (h : t.session = s.session.map f) (hf : ∀ session, SameGrants session (f session)) :
    KeepsGrants s t := fun session' hs' => by
  rw [h] at hs'
  obtain ⟨session, hs, rfl⟩ := Option.map_eq_some_iff.mp hs'
  exact ⟨session, hs, hf session⟩

theorem startUpload_grants (s : State) (r : RequestId) (req : UploadRequest) (env : UploadEnv) :
    KeepsGrants s (startUpload s r req env) := by
  have hses := startUpload_session s r req env
  cases hg : uploadGuards s.session req with
  | error response =>
      rw [hg] at hses
      exact .of_eq hses
  | ok x =>
      obtain ⟨session, fileId, file⟩ := x
      obtain ⟨hs, hpassed⟩ := uploadGuards_passed hg
      have hbegun := SameGrants.begun hpassed.found env.now
      rw [hg] at hses
      intro session' hs'
      refine ⟨session, hs, ?_⟩
      cases hname : file.desiredName with
      | some name =>
          simp only [hname] at hses
          obtain rfl := Option.some.inj (hs'.symm.trans hses)
          exact hbegun
      | none =>
          simp only [hname] at hses
          obtain rfl := Option.some.inj (hs'.symm.trans hses)
          exact hbegun.trans (.caught _ _ _ _)

/-- The session a handler waits for the user with. -/
def State.serving (s : State) (r : RequestId) : Option String :=
  (s.tasks.get? r).bind Task.sessionId?

/-- The handler has passed its store. -/
def State.stored (s : State) (r : RequestId) : Bool :=
  (s.tasks.get? r).any fun task => !task.beforeStore

/-- What a step that neither stores a session nor takes up an answer leaves as it was. -/
structure Quiet (s t : State) : Prop where
  grants : KeepsGrants s t
  serving : ∀ r, t.serving r = s.serving r
  stored : ∀ r, s.stored r = true → t.stored r = true

/-- A request that was not there gets a task that serves no session. -/
theorem serving_new {task : Task} (hr : r ∉ s.tasks.keys)
    (htasks : t.tasks = s.tasks.insert r task) (htask : task.sessionId? = none) :
    (∀ q, t.serving q = s.serving q) ∧ ∀ q, s.stored q = true → t.stored q = true := by
  have hnone : s.tasks.get? r = none := LinkedMap.get?_eq_none.mpr hr
  refine ⟨fun q => ?_, fun q hq => ?_⟩
  · unfold State.serving
    rw [htasks, LinkedMap.get?_insert]
    split
    · rename_i h
      rw [h, hnone, Option.bind_some, htask]
      rfl
    · rfl
  · unfold State.stored at hq ⊢
    rw [htasks, LinkedMap.get?_insert]
    split
    · rename_i h
      rw [h, hnone] at hq
      cases hq
    · exact hq

/-- A task moves on, for the same session. -/
theorem serving_next {old task : Task} (hr : s.tasks.get? r = some old)
    (htasks : t.tasks = s.tasks.insert r task) (htask : task.sessionId? = old.sessionId?)
    (hstored : old.beforeStore = false → task.beforeStore = false) :
    (∀ q, t.serving q = s.serving q) ∧ ∀ q, s.stored q = true → t.stored q = true := by
  refine ⟨fun q => ?_, fun q hq => ?_⟩
  · unfold State.serving
    rw [htasks, LinkedMap.get?_insert]
    split
    · rename_i h
      rw [h, hr, Option.bind_some, Option.bind_some, htask]
    · rfl
  · unfold State.stored at hq ⊢
    rw [htasks, LinkedMap.get?_insert]
    split
    · rename_i h
      rw [h, hr] at hq
      simpa using hstored (by simpa using hq)
    · exact hq

/-- The steps that give a session its files. -/
def Event.opens : Event → Bool
  | .createSession _ _ _ _ _ _ | .decided _ _ => true
  | _ => false

/-- Handlers serve the sessions they served. -/
theorem step_serving (hs : (controller platform).step s e = some t) (he : e.opens = false) :
    (∀ q, t.serving q = s.serving q) ∧ ∀ q, s.stored q = true → t.stored q = true := by
  have hreturn : ∀ {task : Task}, task.isReturn = true →
      task.sessionId? = none ∧ task.beforeStore = false := by
    intro task h
    cases task <;> first | exact ⟨rfl, rfl⟩ | cases h
  rcases step_next hs with htasks | ⟨r, task, htasks, hnext⟩
  · unfold State.serving State.stored
    rw [htasks]
    exact ⟨fun _ => rfl, fun _ h => h⟩
  · cases hnext with
    | prepareUpload hnew h =>
        refine serving_new hnew htasks ?_
        rcases h with h | rfl
        · exact (hreturn h).1
        · rfl
    | readBody hr h =>
        refine serving_next hr htasks ?_ nofun
        rcases h with h | ⟨d, rfl⟩
        · exact (hreturn h).1
        · rfl
    | createSession hr h => cases he
    | shown hr h =>
        rcases h with rfl | rfl
        · exact serving_next hr htasks rfl fun _ => rfl
        · exact serving_next hr htasks rfl fun _ => rfl
    | messageRecorded hr => exact serving_next hr htasks rfl fun _ => rfl
    | decided hr h => cases he
    | permitted hr => exact serving_next hr htasks rfl fun _ => rfl
    | refused hnew hg => exact serving_new hnew htasks rfl
    | begun hnew hg h =>
        rcases h with ⟨_, rfl⟩ | ⟨_, ⟨text, rfl⟩ | rfl⟩
        · exact serving_new hnew htasks rfl
        · exact serving_new hnew htasks rfl
        · exact serving_new hnew htasks rfl
    | saved hr h =>
        rcases h with ⟨text, rfl⟩ | rfl | ⟨_, rfl⟩
        · exact serving_next hr htasks rfl fun _ => rfl
        · exact serving_next hr htasks rfl fun _ => rfl
        · exact serving_next hr htasks rfl fun _ => rfl
    | recorded hr h =>
        rcases h with ⟨response, rfl⟩ | rfl
        · exact serving_next hr htasks rfl fun _ => rfl
        · exact serving_next hr htasks rfl fun _ => rfl
    | cancel hnew => exact serving_new hnew htasks rfl

/-- Sessions keep their grants. -/
theorem step_grants (hs : (controller platform).step s e = some t) (he : e.opens = false) :
    KeepsGrants s t := by
  have hafter := step_session hs
  cases e with
  | createSession _ _ _ _ _ _ | decided _ _ => cases he
  | delayedClose _ | closeSession | cancelSession => exact .of_none hafter
  | upload r req env =>
      intro session' hs'
      exact startUpload_grants s r req env session' (hafter ▸ hs')
  | saved r result env =>
      obtain ⟨u, _, hafter⟩ := hafter
      refine .of_map hafter fun session => ?_
      cases result with
      | error error => exact .caught _ _ _ _
      | ok x => exact .done _ _ _ _
  | recorded r result env =>
      obtain ⟨u, _, hafter⟩ := hafter
      refine .of_map hafter fun session => ?_
      cases result with
      | error error => exact .caught _ _ _ _
      | ok x => exact .settled _ _
  | cancel r req now =>
      rcases hafter with h | h
      · exact .of_eq h
      · exact .of_map h fun session => ⟨rfl, rfl, fun _ => rfl⟩
  | setSessionDestinationDir _ | setSessionSaveToGallery _ =>
      exact .of_map hafter fun session => ⟨rfl, rfl, fun _ => rfl⟩
  | _ => exact .of_eq hafter

/-- **The other steps are quiet.** -/
theorem step_quiet (hs : (controller platform).step s e = some t) (he : e.opens = false) :
    Quiet s t :=
  ⟨step_grants hs he, (step_serving hs he).1, (step_serving hs he).2⟩

/-! ## 2. Answers -/

/-- What a handler of an upload does not touch. -/
def State.aside (s : State) : (String → Nat) × LinkedMap RequestId (Option Selection) :=
  (s.pinAttempts, s.answers)

theorem finishUpload_aside (s : State) (r : RequestId) (u : Upload) (env : UploadEnv) :
    (finishUpload s r u env).aside = s.aside := by
  unfold finishUpload
  split
  · rfl
  · dsimp only
    split <;> rfl

theorem catchUpload_aside (s : State) (r : RequestId) (u : Upload) (error : String)
    (env : UploadEnv) : (catchUpload s r u error env).aside = s.aside := by
  unfold catchUpload State.fileFinished
  cases hs : s.session with
  | none => exact finishUpload_aside _ _ _ _
  | some session =>
      dsimp only
      cases session.fileFinished u.fileId .failed none false (some error) with
      | none => rfl
      | some session' => exact finishUpload_aside _ _ _ _

theorem startUpload_aside (s : State) (r : RequestId) (req : UploadRequest) (env : UploadEnv) :
    (startUpload s r req env).aside = s.aside := by
  unfold startUpload
  split
  · rfl
  · dsimp only
    split
    · rfl
    · exact catchUpload_aside _ _ _ _ _

theorem afterSave_aside (s : State) (r : RequestId) (u : Upload)
    (result : Except String (Bool × Option String)) (env : UploadEnv) :
    (afterSave s r u result env).aside = s.aside := by
  unfold afterSave
  cases result with
  | error error => exact catchUpload_aside _ _ _ _ _
  | ok x =>
      dsimp only
      split
      · unfold State.fileFinished
        cases hs : s.session with
        | none => rfl
        | some session =>
            dsimp only
            cases session.fileFinished u.fileId .finished x.2 x.1 none with
            | none => exact catchUpload_aside _ _ _ _ _
            | some session' => rfl
      · rfl

theorem afterRecord_aside (s : State) (r : RequestId) (u : Upload) (result : Except String Unit)
    (env : UploadEnv) : (afterRecord s r u result env).aside = s.aside := by
  unfold afterRecord
  cases result with
  | error error => exact catchUpload_aside _ _ _ _ _
  | ok x => exact finishUpload_aside _ _ _ _

/-- The user answers the request that waits. -/
def answersTo (s t : State) (r : RequestId) (selection : Option Selection) : Prop :=
  r ∉ s.answers.keys ∧ t.answers = s.answers.insert r selection ∧
    ∃ session, s.session = some session ∧ session.responseHandler = some r

theorem answer_cases (s : State) (selection : Option Selection) :
    (s.answer selection).answers = s.answers ∨
    ∃ r, answersTo s (s.answer selection) r selection := by
  unfold State.answer
  cases hh : s.session.bind ReceiveSessionState.responseHandler with
  | none => exact Or.inl rfl
  | some r =>
      obtain ⟨session, hs, hr⟩ := Option.bind_eq_some_iff.mp hh
      dsimp only
      split
      · exact Or.inl rfl
      · rename_i hno
        exact Or.inr ⟨r, hno, rfl, session, hs, hr⟩

/-- **Who answers**: only the user. -/
theorem step_answers (hs : (controller platform).step s e = some t) :
    t.answers = s.answers ∨ ∃ r selection, answersTo s t r selection ∧
      ∀ chosen, selection = some chosen → e = .acceptFileRequest chosen := by
  change step platform s e = some t at hs
  cases e with
  | prepareUpload r req pin =>
      simp only [step] at hs
      split at hs
      · cases hs
      · cases hs
        left
        unfold prepareUpload
        split
        · rfl
        · split <;> rfl
  | readBody r dto settings =>
      simp only [step] at hs
      split at hs
      · cases hs
        left
        unfold readBody
        split
        · rfl
        · split <;> rfl
      · cases hs
  | createSession r favorites defaultDir cacheDir sessionId tokens =>
      simp only [step] at hs
      split at hs
      · obtain ⟨_, session, _, ⟨_, hresume⟩ | ⟨_, _, hanswers, _⟩⟩ := createSession_cases hs
        · exact Or.inl (resumeSelection_cases hresume).2.1
        · exact Or.inl hanswers
      · cases hs
  | shown r =>
      simp only [step] at hs
      split at hs
      · cases hs
        left
        unfold afterShown
        split <;> rfl
      · cases hs
  | messageRecorded r =>
      simp only [step] at hs
      split at hs
      · cases hs
        exact Or.inl rfl
      · cases hs
  | decided r tokens =>
      simp only [step] at hs
      split at hs
      · exact Or.inl (resumeSelection_cases hs).2.1
      · cases hs
  | permitted r =>
      simp only [step] at hs
      split at hs
      · cases hs
        exact Or.inl rfl
      · cases hs
  | upload r req env =>
      simp only [step] at hs
      split at hs
      · cases hs
      · cases hs
        exact Or.inl (congrArg Prod.snd (startUpload_aside s r req env))
  | saved r result env =>
      simp only [step] at hs
      split at hs
      · cases hs
        exact Or.inl (congrArg Prod.snd (afterSave_aside _ _ _ _ _))
      · cases hs
  | recorded r result env =>
      simp only [step] at hs
      split at hs
      · cases hs
        exact Or.inl (congrArg Prod.snd (afterRecord_aside _ _ _ _ _))
      · cases hs
  | delayedClose r =>
      simp only [step] at hs
      split at hs
      · cases hs
        exact Or.inl rfl
      · cases hs
  | cancel r req now =>
      simp only [step] at hs
      split at hs
      · cases hs
      · cases hs
        left
        unfold cancelHandler
        repeat' split
        all_goals rfl
  | acceptFileRequest selection =>
      cases hs
      rcases answer_cases s (some selection) with h | ⟨r, h⟩
      · exact Or.inl h
      · exact Or.inr ⟨r, _, h, fun chosen hc => by rw [Option.some.inj hc]⟩
  | declineFileRequest =>
      cases hs
      rcases answer_cases s none with h | ⟨r, h⟩
      · exact Or.inl h
      · exact Or.inr ⟨r, _, h, (fun _ h => by cases h)⟩
  | closeSession =>
      cases hs
      exact Or.inl rfl
  | cancelSession =>
      cases hs
      exact Or.inl rfl
  | setSessionDestinationDir dir =>
      cases hs
      exact Or.inl rfl
  | setSessionSaveToGallery saveToGallery =>
      cases hs
      exact Or.inl rfl

/-! ## 3. Tokens and handlers -/

/-- A token among the accepted files is a new one, for a selected file. -/
theorem acceptFiles_get {files : LinkedMap String ReceivingFile} {selection : Selection}
    {tokens : List String} {fileId token : String} {file : ReceivingFile}
    (hget : (acceptFiles files selection tokens).get? fileId = some file)
    (htoken : file.token = some token) :
    token ∈ tokens ∧ fileId ∈ selection.keys ∧ file.desiredName.isSome = true := by
  unfold acceptFiles at hget
  rw [LinkedMap.get?_mapValues] at hget
  obtain ⟨old, _, rfl⟩ := Option.map_eq_some_iff.mp hget
  obtain ⟨hchosen, hmem⟩ := List.of_mem_zip (Assoc.mem_of_lookup htoken)
  have hsome := (List.mem_filter.mp hchosen).2
  refine ⟨hmem, ?_, hsome⟩
  obtain ⟨name, hname⟩ := Option.isSome_iff_exists.mp hsome
  exact LinkedMap.mem_keys.mpr ⟨name, hname⟩

theorem newSession_token {req : PrepareRequest} {dto : PrepareUploadRequestDto}
    {settings : Settings} {favorites : List Favorite} {dir cacheDir sessionId fileId : String}
    {file : ReceivingFile}
    (h : (newSession platform r req dto settings favorites dir cacheDir sessionId).files.get? fileId =
      some file) : file.token = none := by
  obtain ⟨f, _, hpair⟩ := List.mem_map.mp (LinkedMap.mem_of_get?_ofList h)
  obtain ⟨_, rfl⟩ := Prod.mk.inj hpair
  rfl

theorem serving_stored {id : String} (h : s.serving r = some id) : s.stored r = true := by
  obtain ⟨task, htask, hid⟩ := Option.bind_eq_some_iff.mp h
  unfold State.stored
  rw [htask]
  cases task <;> first | rfl | cases hid

/-- A handler that returns serves no session any more. -/
theorem serving_return {task : Task} (htask : task.isReturn = true)
    (htasks : t.tasks = s.tasks.insert r task) :
    (∀ q id, t.serving q = some id → s.serving q = some id) ∧
    ∀ q, s.stored q = true → t.stored q = true := by
  have hnone : task.sessionId? = none ∧ task.beforeStore = false := by
    cases task <;> first | exact ⟨rfl, rfl⟩ | cases htask
  refine ⟨fun q id hq => ?_, fun q hq => ?_⟩
  · unfold State.serving at hq ⊢
    rw [htasks, LinkedMap.get?_insert] at hq
    split at hq
    · rw [Option.bind_some, hnone.1] at hq
      cases hq
    · exact hq
  · unfold State.stored at hq ⊢
    rw [htasks, LinkedMap.get?_insert]
    split
    · simp [hnone.2]
    · exact hq

/-- **Where an upload on its way comes from**: it was on its way, or it has just passed its
    checks. -/
theorem step_upload (hs : (controller platform).step s e = some t) {task : Task} {u : Upload}
    (hr : t.tasks.get? r = some task) (hu : task.upload? = some u) :
    (∃ old, s.tasks.get? r = some old ∧ old.upload? = some u ∧ (task = .saving u → old = .saving u)) ∨
    ∃ req env session, e = .upload r req env ∧ r ∉ s.tasks.keys ∧ task = .saving u ∧
      uploadGuards s.session req = .ok (session, u.fileId, u.receivingFile) ∧
      u.sessionId = session.sessionId ∧ u.receivingFile.desiredName.isSome = true := by
  have hreturn : ∀ {task : Task}, task.isReturn = true → task.upload? = none := by
    intro task h
    cases task <;> first | rfl | cases h
  rcases step_task hs hr with hold | hnext
  · exact Or.inl ⟨task, hold, hu, fun h => h⟩
  · cases hnext with
    | prepareUpload hnew h =>
        rcases h with h | rfl
        · rw [hreturn h] at hu
          cases hu
        · cases hu
    | readBody hr h =>
        rcases h with h | ⟨d, rfl⟩
        · rw [hreturn h] at hu
          cases hu
        · cases hu
    | createSession hr h =>
        rcases h with h | h
        · rw [hreturn h] at hu
          cases hu
        · have hnone : task.upload? = none := by
            cases task <;> first | rfl | cases h
          rw [hnone] at hu
          cases hu
    | shown hr h => rcases h with rfl | rfl <;> cases hu
    | messageRecorded hr => cases hu
    | decided hr h =>
        rw [hreturn h] at hu
        cases hu
    | permitted hr => cases hu
    | refused hnew hg => cases hu
    | @begun _ req env session fileId file _ hnew hg h =>
        rcases h with ⟨hname, rfl⟩ | ⟨_, ⟨text, rfl⟩ | rfl⟩
        · obtain rfl := Option.some.inj hu
          exact Or.inr ⟨req, env, session, rfl, hnew, rfl, hg, rfl, hname⟩
        · cases hu
        · cases hu
    | saved hold h =>
        rcases h with ⟨text, rfl⟩ | rfl | ⟨_, rfl⟩
        · cases hu
        · cases hu
        · obtain rfl := Option.some.inj hu
          exact Or.inl ⟨_, hold, rfl, (fun h => by cases h)⟩
    | recorded hr h => rcases h with ⟨response, rfl⟩ | rfl <;> cases hu
    | cancel hnew => cases hu

end LocalSend.Receive
