/-
  File:      LocalSend/Receive/Endgame.lean
  Subject:   A SESSION WITH NO FILE IN THE QUEUE ENDS BY ITSELF. As long as all uploads belong to
             the session that is there, a file that is being sent has its handler, and the handler
             that ends the last file ends the session.

  * `Sole` -- all uploads are those of the session; `Sole.staysInside`;
  * `Served` -- the files that are being sent have a handler at `saveFile`; `served_step`;
  * `Ending` -- the session is over, or has no file in the queue and an upload on its way;
    `ending_step` -- **no upload takes a session out of it**.
-/
import LocalSend.Receive.Consistency

namespace LocalSend.Receive

open Lib

variable {platform : Platform} {s t : State} {e : Event} {r : RequestId}

/-! ## 1. Uploads of one session -/

/-- **All uploads are those of the session that is there.** -/
structure Sole (s : State) : Prop where
  uploads : ∀ r task u session, s.tasks.get? r = some task → task.upload? = some u →
    s.session = some session → session.sessionId = u.sessionId
  closing : ∀ c ∈ s.closing, ∀ session, s.session = some session → session.sessionId = c.2

theorem Sole.staysInside (h : Sole s) (e : Event) : staysInside s e := by
  intro id hid session hs
  left
  cases e with
  | saved r result env | recorded r result env =>
      simp only [uploadSession, Option.mem_def, Option.map_eq_some_iff, Option.bind_eq_some_iff]
        at hid
      obtain ⟨u, ⟨task, hr, hu⟩, rfl⟩ := hid
      exact h.uploads r task u session hr hu hs
  | delayedClose r => exact h.closing (r, id) (Assoc.mem_of_lookup hid) session hs
  | upload r req env =>
      simp only [uploadSession, Option.mem_def] at hid
      rw [show s.session = some session from hs] at hid
      exact Option.some.inj hid
  | _ => cases hid

/-- No upload is on its way. -/
structure NoUpload (s : State) : Prop where
  uploads : ∀ r task, s.tasks.get? r = some task → task.upload? = none
  closing : s.closing = []

theorem NoUpload.sole (h : NoUpload s) : Sole s where
  uploads r task u session hr hu := by
    rw [h.uploads r task hr] at hu
    cases hu
  closing c hc := by
    rw [h.closing] at hc
    cases hc

/-- The id of the session stays, unless the step stores one. -/
theorem session_kept (heff : Effect s t e) (he : ∀ r favorites defaultDir cacheDir id tokens,
    e ≠ .createSession r favorites defaultDir cacheDir id tokens)
    {session' : ReceiveSessionState} (hs' : t.session = some session') :
    ∃ session, s.session = some session ∧ session'.sessionId = session.sessionId ∧
      session'.files.keys = session.files.keys := by
  rcases heff.identity with hid | ⟨hnone, _⟩ | ⟨r, _, _, _, favorites, defaultDir, cacheDir, id,
    tokens, hcreate, _⟩
  · rw [State.identity, hs', Option.map_some] at hid
    obtain ⟨session, hs, hmk⟩ := Option.map_eq_some_iff.mp hid.symm
    obtain ⟨hid', hkeys⟩ := Prod.mk.inj hmk
    exact ⟨session, hs, hid'.symm, hkeys.symm⟩
  · rw [hs'] at hnone
    cases hnone
  · exact absurd hcreate (he r favorites defaultDir cacheDir id tokens)

theorem sole_step (h : Sole s) (heff : Effect s t e)
    (he : ∀ r favorites defaultDir cacheDir id tokens,
      e ≠ .createSession r favorites defaultDir cacheDir id tokens) : Sole t where
  uploads r task u session' hr hu hs' := by
    obtain ⟨session, hs, hid, _⟩ := session_kept heff he hs'
    rw [hid]
    rcases heff.tasks with htasks | ⟨q, task', htasks, hmove⟩
    · exact h.uploads r task u session (htasks ▸ hr) hu hs
    · rw [htasks, LinkedMap.get?_insert] at hr
      split at hr
      · rename_i hq
        subst hq
        obtain rfl := Option.some.inj hr
        cases hmove with
        | returned _ hret => rw [(isReturn_upload hret).1] at hu; cases hu
        | reading => cases hu
        | locating => cases hu
        | stored _ hst => rw [(afterStore_upload hst).1] at hu; cases hu
        | saving v keys hv hkey =>
            obtain rfl := Option.some.inj hu
            rw [State.identity, hs, Option.map_some] at hv
            exact (Prod.mk.inj (Option.some.inj hv)).1
        | recording v hv =>
            obtain rfl := Option.some.inj hu
            exact h.uploads r _ v session hv rfl hs
        | crashed => cases hu
      · exact h.uploads r task u session hr hu hs
  closing c hc session' hs' := by
    obtain ⟨session, hs, hid, _⟩ := session_kept heff he hs'
    rw [hid]
    rcases heff.closing c hc with hc | ⟨keys, hkeys⟩ | ⟨task, u, hr, hu, hcu⟩
    · exact h.closing c hc session hs
    · rw [State.identity, hs, Option.map_some] at hkeys
      exact (Prod.mk.inj (Option.some.inj hkeys)).1
    · rw [hcu]
      exact h.uploads c.1 task u session hr hu hs

/-! ## 2. What an upload does to the files -/

namespace ReceiveSessionState

variable {session session' : ReceiveSessionState} {fileId error : String} {now : Int}

/-- The file itself. -/
theorem fileFinished_self {status : FileStatus} {path error : Option String} {gallery : Bool}
    (h : session.fileFinished fileId status path gallery error = some session')
    {file : ReceivingFile} (hget : session'.files.get? fileId = some file) :
    file.status = status := by
  obtain ⟨old, _, rfl⟩ := fileFinished_some h
  rw [LinkedMap.get?_insert_self] at hget
  obtain rfl := Option.some.inj hget
  rfl

/-- A file that is over keeps the others over. -/
theorem fileFinished_over {status : FileStatus} {path error : Option String} {gallery : Bool}
    (h : session.fileFinished fileId status path gallery error = some session')
    (hstatus : status.isFinishedOrError = true) (hover : session.isFinishedOrError = true) :
    session'.isFinishedOrError = true := by
  refine isFinishedOrError_iff.mpr fun id file hget => ?_
  by_cases hid : id = fileId
  · subst hid
    rw [fileFinished_self h hget, hstatus]
  · rw [fileFinished_other h hid] at hget
    exact isFinishedOrError_iff.mp hover id file hget

/-- **The last file**: a session that still sends afterwards has a file that is not over. -/
theorem settled_cases (session : ReceiveSessionState) (now : Int) :
    (session.settled now = session ∧
      (allowedStates session.status = true → session.isFinishedOrError = false)) ∨
    (allowedStates session.status = true ∧ session.isFinishedOrError = true ∧
      ((session.settled now).status = .finished ∨
        (session.settled now).status = .finishedWithErrors)) := by
  unfold settled
  split
  · rename_i hcond
    obtain ⟨hallowed, hover⟩ := Bool.and_eq_true_iff.mp hcond
    refine Or.inr ⟨hallowed, hover, ?_⟩
    dsimp only
    split
    · exact Or.inr rfl
    · exact Or.inl rfl
  · rename_i hcond
    refine Or.inl ⟨rfl, fun hallowed => ?_⟩
    simpa [hallowed] using hcond

/-- What `settled` leaves of a session that may still go on. -/
theorem settled_ended (h : session.status = .finishedWithErrors → session.isFinishedOrError = true)
    (hstatus : (session.settled now).status = .finishedWithErrors) :
    (session.settled now).isFinishedOrError = true := by
  rcases settled_cases session now with ⟨hsame, _⟩ | ⟨_, hover, _⟩
  · rw [hsame] at hstatus ⊢
    exact h hstatus
  · refine isFinishedOrError_iff.mpr fun id file hget => ?_
    rw [settled_files] at hget
    exact isFinishedOrError_iff.mp hover id file hget

theorem settled_sending (hstatus : (session.settled now).status = .sending) :
    session.settled now = session ∧ session.isFinishedOrError = false := by
  rcases settled_cases session now with ⟨hsame, hopen⟩ | ⟨_, _, hend⟩
  · rw [hsame] at hstatus
    exact ⟨hsame, hopen (by rw [hstatus]; rfl)⟩
  · rw [hstatus] at hend
    rcases hend with h | h <;> cases h

theorem settled_allowed (h : allowedStates (session.settled now).status = true) :
    allowedStates session.status = true := by
  rcases settled_cases session now with ⟨hsame, _⟩ | ⟨hallowed, _⟩
  · rwa [hsame] at h
  · exact hallowed

/-- **A failed file**, in a session that has it. -/
theorem caught_cases (session : ReceiveSessionState) (fileId error : String) (now : Int) :
    (session.caught fileId error now = session ∧ fileId ∉ session.files.keys) ∨
    ∃ session', session.fileFinished fileId .failed none false (some error) = some session' ∧
      session.caught fileId error now = session'.settled now ∧
      session'.status = session.status := by
  unfold caught
  cases h : session.fileFinished fileId .failed none false (some error) with
  | none => exact Or.inl ⟨rfl, fileFinished_none.mp h⟩
  | some session' =>
      obtain ⟨file, _, hsession'⟩ := fileFinished_some h
      exact Or.inr ⟨session', rfl, rfl, by rw [hsession']⟩

/-- **A saved file**, in a session that may go on and has it. -/
theorem done_cases (session : ReceiveSessionState) (fileId : String) (path : Option String)
    (gallery : Bool) :
    (session.done fileId path gallery = session ∧
      (allowedStates session.status = true → fileId ∉ session.files.keys)) ∨
    ∃ session', session.fileFinished fileId .finished path gallery none = some session' ∧
      session.done fileId path gallery = session' ∧ session'.status = session.status := by
  unfold done
  split
  · cases h : session.fileFinished fileId .finished path gallery none with
    | none => exact Or.inl ⟨rfl, fun _ => fileFinished_none.mp h⟩
    | some session' =>
        obtain ⟨file, _, hsession'⟩ := fileFinished_some h
        exact Or.inr ⟨session', rfl, rfl, by rw [hsession']⟩
  · rename_i hno
    exact Or.inl ⟨rfl, fun h => absurd h hno⟩

end ReceiveSessionState

/-- Whose session it is. -/
def ReceiveSessionState.origin (session : ReceiveSessionState) :
    String × Device × Option RequestId :=
  (session.sessionId, session.sender, session.responseHandler)

/-- **What the steps of uploads do to a session**, apart from the begin of one: a file stays as it
    is or is over, and a session goes on only if it might have. -/
structure Follows (session session' : ReceiveSessionState) : Prop where
  origin : session'.origin = session.origin
  files : ∀ id file, session'.files.get? id = some file →
    session.files.get? id = some file ∨ file.status.isFinishedOrError = true
  allowed : allowedStates session'.status = true → allowedStates session.status = true
  ended : (session.status = .finishedWithErrors → session.isFinishedOrError = true) →
    session'.status = .finishedWithErrors → session'.isFinishedOrError = true
  waiting : session'.status = .waiting → session.status = .waiting

namespace Follows

variable {a b c : ReceiveSessionState} {fileId : String}

/-- The same status and files. -/
theorem of_same (horigin : b.origin = a.origin) (hfiles : b.files = a.files)
    (hstatus : b.status = a.status) : Follows a b where
  origin := horigin
  files _ _ h := Or.inl (hfiles ▸ h)
  allowed h := hstatus ▸ h
  ended h h' := by
    have hover := h (hstatus ▸ h')
    unfold ReceiveSessionState.isFinishedOrError at hover ⊢
    rwa [hfiles]
  waiting h := hstatus ▸ h

theorem trans (h : Follows a b) (h' : Follows b c) : Follows a c where
  origin := h'.origin.trans h.origin
  files id file hget := by
    rcases h'.files id file hget with hget | hover
    · exact h.files id file hget
    · exact Or.inr hover
  allowed hc := h.allowed (h'.allowed hc)
  ended ha := h'.ended (h.ended ha)
  waiting hc := h.waiting (h'.waiting hc)

theorem settled (a : ReceiveSessionState) (now : Int) : Follows a (a.settled now) where
  origin := by
    unfold ReceiveSessionState.settled
    split <;> rfl
  files _ _ h := by
    rw [ReceiveSessionState.settled_files] at h
    exact Or.inl h
  allowed := ReceiveSessionState.settled_allowed
  ended := ReceiveSessionState.settled_ended
  waiting h := by
    rcases ReceiveSessionState.settled_cases a now with ⟨hsame, _⟩ | ⟨_, _, hend⟩
    · rwa [hsame] at h
    · rw [h] at hend
      rcases hend with h | h <;> cases h

theorem fileFinished {status : FileStatus} {path error : Option String} {gallery : Bool}
    (h : a.fileFinished fileId status path gallery error = some b)
    (hstatus : status.isFinishedOrError = true) : Follows a b where
  origin := by
    obtain ⟨file, _, rfl⟩ := ReceiveSessionState.fileFinished_some h
    rfl
  files id file hget := by
    by_cases hid : id = fileId
    · subst hid
      rw [ReceiveSessionState.fileFinished_self h hget]
      exact Or.inr hstatus
    · rw [ReceiveSessionState.fileFinished_other h hid] at hget
      exact Or.inl hget
  allowed hb := by
    obtain ⟨file, _, rfl⟩ := ReceiveSessionState.fileFinished_some h
    exact hb
  ended ha hb := by
    refine ReceiveSessionState.fileFinished_over h hstatus (ha ?_)
    obtain ⟨file, _, rfl⟩ := ReceiveSessionState.fileFinished_some h
    exact hb
  waiting hb := by
    obtain ⟨file, _, rfl⟩ := ReceiveSessionState.fileFinished_some h
    exact hb

theorem caught (a : ReceiveSessionState) (fileId error : String) (now : Int) :
    Follows a (a.caught fileId error now) := by
  rcases a.caught_cases fileId error now with ⟨hsame, _⟩ | ⟨b, hb, heq, _⟩
  · rw [hsame]
    exact of_same rfl rfl rfl
  · rw [heq]
    exact (fileFinished hb rfl).trans (settled b now)

theorem done (a : ReceiveSessionState) (fileId : String) (path : Option String) (gallery : Bool) :
    Follows a (a.done fileId path gallery) := by
  rcases a.done_cases fileId path gallery with ⟨hsame, _⟩ | ⟨b, hb, heq, _⟩
  · rw [hsame]
    exact of_same rfl rfl rfl
  · rw [heq]
    exact fileFinished hb rfl

theorem cancelBySender (a : ReceiveSessionState) (now : Int) : Follows a (a.cancelBySender now) where
  origin := rfl
  files _ _ h := Or.inl h
  allowed h := by cases h
  ended _ h := by cases h
  waiting h := by cases h

/-- An upload that begins and fails at once. -/
theorem begun_caught {file : ReceivingFile} (hallowed : allowedStates a.status = true)
    (hget : a.files.get? fileId = some file) (error : String) (now : Int) :
    Follows a ((a.begun fileId file now).caught fileId error now) := by
  rcases (a.begun fileId file now).caught_cases fileId error now with ⟨_, hno⟩ | ⟨b, hb, heq, _⟩
  · refine absurd ?_ hno
    exact LinkedMap.mem_keys.mpr ⟨_, LinkedMap.get?_insert_self⟩
  · have hbegun := (fileFinished hb rfl).trans (settled b now)
    rw [heq]
    refine ⟨hbegun.origin, fun id file' hget' => ?_, fun _ => hallowed,
      fun _ => hbegun.ended (fun h => by cases h), fun h => ?_⟩
    · by_cases hid : id = fileId
      · subst hid
        rw [ReceiveSessionState.settled_files] at hget'
        rw [ReceiveSessionState.fileFinished_self hb hget']
        exact Or.inr rfl
      · rcases hbegun.files id file' hget' with h | h
        · rw [ReceiveSessionState.begun_other _ _ _ hid] at h
          exact Or.inl h
        · exact Or.inr h
    · cases hbegun.waiting h

end Follows

/-! ## 3. Sending files have handlers -/

/-- An upload begins. -/
structure Begins (s t : State) (e : Event) (r : RequestId) (session : ReceiveSessionState)
    (fileId : String) (file : ReceivingFile) (now : Int) : Prop where
  event : ∃ req env, e = .upload r req env ∧
    uploadGuards s.session req = .ok (session, fileId, file)
  found : s.session = some session
  allowed : allowedStates session.status = true
  begun : t.session = some (session.begun fileId file now)
  task : t.tasks = s.tasks.insert r (.saving ⟨session.sessionId, session.senderAlias, fileId, file⟩)

/-- **The session after a step** that does not give a session its files. -/
theorem step_follows (hs : (controller platform).step s e = some t) (he : e.opens = false)
    {session' : ReceiveSessionState} (hs' : t.session = some session') :
    (∃ session, s.session = some session ∧ Follows session session') ∨
    ∃ r session fileId file now, Begins s t e r session fileId file now := by
  have hafter := step_session hs
  have hmap : ∀ f : ReceiveSessionState → ReceiveSessionState, t.session = s.session.map f →
      (∀ session, Follows session (f session)) →
      ∃ session, s.session = some session ∧ Follows session session' := by
    intro f h hf
    rw [h] at hs'
    obtain ⟨session, hses, rfl⟩ := Option.map_eq_some_iff.mp hs'
    exact ⟨session, hses, hf session⟩
  have hsame : t.session = s.session → ∃ session, s.session = some session ∧
      Follows session session' := fun h => ⟨session', h ▸ hs', .of_same rfl rfl rfl⟩
  cases e with
  | createSession _ _ _ _ _ _ | decided _ _ => cases he
  | delayedClose _ | closeSession | cancelSession =>
      rw [show t.session = none from hafter] at hs'
      cases hs'
  | upload r req env =>
      have hstart := hafter.trans (startUpload_session s r req env)
      cases hguards : uploadGuards s.session req with
      | error response =>
          rw [hguards] at hstart
          exact Or.inl (hsame hstart)
      | ok x =>
          obtain ⟨session, fileId, file⟩ := x
          obtain ⟨hses, hpassed⟩ := uploadGuards_passed hguards
          simp only [hguards] at hstart
          cases hname : file.desiredName with
          | some name =>
              simp only [hname] at hstart
              refine Or.inr ⟨r, session, fileId, file, env.now, ⟨_, _, rfl, hguards⟩, hses,
                hpassed.status, hstart, ?_⟩
              change step platform s (.upload r req env) = some t at hs
              simp only [step] at hs
              split at hs
              · cases hs
              · cases hs
                simp only [startUpload, hguards]
                split
                · rfl
                · rename_i hnone
                  rw [hname] at hnone
                  cases hnone
          | none =>
              simp only [hname] at hstart
              obtain rfl := Option.some.inj (hs'.symm.trans hstart)
              exact Or.inl ⟨session, hses, .begun_caught hpassed.status hpassed.found _ _⟩
  | saved r result env =>
      obtain ⟨u, _, h⟩ := hafter
      cases result with
      | error error => exact Or.inl (hmap _ h fun session => .caught _ _ _ _)
      | ok x => exact Or.inl (hmap _ h fun session => .done _ _ _ _)
  | recorded r result env =>
      obtain ⟨u, _, h⟩ := hafter
      cases result with
      | error error => exact Or.inl (hmap _ h fun session => .caught _ _ _ _)
      | ok x => exact Or.inl (hmap _ h fun session => .settled _ _)
  | cancel r req now =>
      rcases hafter with h | h
      · exact Or.inl (hsame h)
      · exact Or.inl (hmap _ h fun session => .cancelBySender _ _)
  | setSessionDestinationDir _ | setSessionSaveToGallery _ =>
      exact Or.inl (hmap _ hafter fun session => .of_same rfl rfl rfl)
  | _ => exact Or.inl (hsame hafter)

/-- **The files that are being sent have their handlers**, and a session that finished with errors
    has all files over. -/
structure Served (s : State) : Prop where
  inside : Inside s
  sole : Sole s
  busy : ∀ session, s.session = some session → allowedStates session.status = true →
    ∀ id file, session.files.get? id = some file → file.status = .sending →
    ∃ r u, s.tasks.get? r = some (.saving u) ∧ u.fileId = id
  ended : ∀ session, s.session = some session → session.status = .finishedWithErrors →
    session.isFinishedOrError = true

theorem served_initial : Served State.initial where
  inside := inside_initial
  sole := ⟨fun _ _ _ _ h => (by cases h), fun _ h => (by cases h)⟩
  busy _ h := by cases h
  ended _ h := by cases h

/-- The file of an upload on its way is one of the session's. -/
theorem Served.known (h : Served s) {task : Task} {u : Upload} (hr : s.tasks.get? r = some task)
    (hu : task.upload? = some u) {session : ReceiveSessionState} (hs : s.session = some session) :
    u.fileId ∈ session.files.keys := by
  refine (h.inside.uploads r task u hr hu).2 _ ?_
  rw [State.identity, hs, Option.map_some, h.sole.uploads r task u session hr hu hs]

/-- An upload on its way stays until its own next step. -/
theorem upload_kept (hs : (controller platform).step s e = some t) {task : Task} {u : Upload}
    (hr : s.tasks.get? r = some task) (hu : task.upload? = some u)
    (he : ∀ result env, e ≠ .saved r result env) (he' : ∀ result env, e ≠ .recorded r result env) :
    t.tasks.get? r = some task := by
  have hkey : r ∈ s.tasks.keys := LinkedMap.mem_keys.mpr ⟨_, hr⟩
  by_cases hreq : e.request = some r
  · have hsaving : task = .saving u ∨ task = .recording u := by
      cases task <;> simp_all [Task.upload?]
    rcases hsaving with rfl | rfl
    · obtain ⟨result, env, rfl, _⟩ := step_saving hs hr hreq
      exact absurd rfl (he result env)
    · obtain ⟨result, env, rfl, _⟩ := step_recording hs hr hreq
      exact absurd rfl (he' result env)
  · rw [step_other hs hreq, hr]

/-- **After a save the file is over**, in a session that may go on. -/
theorem saved_over {u : Upload} {result : Except String (Bool × Option String)} {env : UploadEnv}
    (hs : (controller platform).step s (.saved r result env) = some t)
    (hr : s.tasks.get? r = some (.saving u)) {session' : ReceiveSessionState}
    (hs' : t.session = some session') (hallowed : allowedStates session'.status = true)
    {file : ReceivingFile} (hget : session'.files.get? u.fileId = some file) :
    file.status.isFinishedOrError = true := by
  obtain ⟨v, hv, h⟩ := step_session hs
  obtain rfl : u = v := by
    rw [hr] at hv
    cases hv
    rfl
  rw [h] at hs'
  obtain ⟨session, hses, rfl⟩ := Option.map_eq_some_iff.mp hs'
  have hkey : ∀ {x : ReceiveSessionState}, x.files.get? u.fileId = some file →
      u.fileId ∈ x.files.keys := fun h => LinkedMap.mem_keys.mpr ⟨_, h⟩
  cases result with
  | error error =>
      dsimp only at hget
      rcases session.caught_cases u.fileId error env.now with ⟨hsame, hno⟩ | ⟨b, hb, heq, _⟩
      · rw [hsame] at hget
        exact absurd (hkey hget) hno
      · rw [heq, ReceiveSessionState.settled_files] at hget
        rw [ReceiveSessionState.fileFinished_self hb hget]
        rfl
  | ok x =>
      dsimp only at hget hallowed
      rcases session.done_cases u.fileId x.2 x.1 with ⟨hsame, hno⟩ | ⟨b, hb, heq, _⟩
      · rw [hsame] at hget hallowed
        exact absurd (hkey hget) (hno hallowed)
      · rw [heq] at hget
        rw [ReceiveSessionState.fileFinished_self hb hget]
        rfl

/-- Uploads come from upload requests only. -/
theorem noUpload_step (h : NoUpload s) (hs : (controller platform).step s e = some t)
    (he : ∀ r req env, e ≠ .upload r req env) : NoUpload t where
  uploads r task hr := by
    cases hu : task.upload? with
    | none => rfl
    | some u =>
        rcases step_upload hs hr hu with ⟨old, hold, hu', _⟩ | ⟨req, env, _, heq, _⟩
        · rw [h.uploads r old hold] at hu'
          cases hu'
        · exact absurd heq (he r req env)
  closing := by
    change step platform s e = some t at hs
    cases e with
    | upload r req env => exact absurd rfl (he r req env)
    | saved r result env | recorded r result env =>
        simp only [step] at hs
        split at hs
        · rename_i u hr
          cases h.uploads r _ hr
        · cases hs
    | prepareUpload r req pin =>
        simp only [step] at hs
        split at hs
        · cases hs
        · cases hs
          obtain ⟨_, _, _, hcl, _⟩ := prepareUpload_spec s r req pin
          rw [hcl, h.closing]
    | readBody r dto settings =>
        simp only [step] at hs
        split at hs
        · rename_i req _
          cases hs
          obtain ⟨_, _, _, hcl, _⟩ := readBody_spec s r req dto settings
          rw [hcl, h.closing]
        · cases hs
    | createSession r favorites defaultDir cacheDir sessionId tokens =>
        simp only [step] at hs
        split at hs
        · obtain ⟨_, _, _, hcl, _⟩ := createSession_spec hs
          rw [hcl, h.closing]
        · cases hs
    | shown r =>
        simp only [step] at hs
        split at hs
        · rename_i req sessionId _
          cases hs
          obtain ⟨_, _, _, _, hcl⟩ := afterShown_spec s r req sessionId
          rw [hcl, h.closing]
        · cases hs
    | messageRecorded r | permitted r =>
        simp only [step] at hs
        split at hs
        · cases hs
          exact h.closing
        · cases hs
    | decided r tokens =>
        simp only [step] at hs
        split at hs
        · obtain ⟨_, _, _, hcl, _⟩ := resumeSelection_spec hs
          rw [hcl, h.closing]
        · cases hs
    | delayedClose r =>
        simp only [step, h.closing] at hs
        cases hs
    | cancel r req now =>
        simp only [step] at hs
        split at hs
        · cases hs
        · cases hs
          unfold cancelHandler
          repeat' split
          all_goals exact h.closing
    | acceptFileRequest selection | declineFileRequest =>
        cases hs
        unfold State.answer
        repeat' split
        all_goals exact h.closing
    | closeSession | cancelSession | setSessionDestinationDir _ | setSessionSaveToGallery _ =>
        cases hs
        exact h.closing

/-- **The session given its files**: it waits, or its files are queued or skipped. -/
theorem session_opens (hs : (controller platform).step s e = some t) (he : e.opens = true)
    {session' : ReceiveSessionState} (hs' : t.session = some session') :
    session'.status = .waiting ∨ (session'.status = .sending ∧ ∀ id file,
      session'.files.get? id = some file → file.status = .queue ∨ file.status = .skipped) := by
  have hresume : ∀ {s0 : State} {r v2 sessionId selection tokens},
      resumeSelection platform s0 r v2 sessionId selection tokens = some t →
      session'.status = .sending ∧ ∀ id file, session'.files.get? id = some file →
        file.status = .queue ∨ file.status = .skipped := by
    intro s0 r v2 sessionId selection tokens h
    rcases (resumeSelection_cases h).2.2 with ⟨_, hnone⟩ | ⟨_, hnone⟩ |
      ⟨session, chosen, _, _, _, _, hsome⟩
    · rw [hnone] at hs'
      cases hs'
    · rw [hnone] at hs'
      cases hs'
    · obtain rfl := Option.some.inj (hs'.symm.trans hsome)
      refine ⟨rfl, fun id file hget => ?_⟩
      simp only [ReceiveSessionState.accepted, acceptFiles, LinkedMap.get?_mapValues] at hget
      obtain ⟨old, _, rfl⟩ := Option.map_eq_some_iff.mp hget
      dsimp only
      split
      · exact Or.inl rfl
      · exact Or.inr rfl
  change step platform s e = some t at hs
  cases e with
  | createSession r favorites defaultDir cacheDir sessionId tokens =>
      simp only [step] at hs
      split at hs
      · obtain ⟨_, session, hsession, ⟨_, h⟩ | ⟨_, hses, _⟩⟩ := createSession_cases hs
        · exact Or.inr (hresume h)
        · obtain rfl := Option.some.inj (hs'.symm.trans hses)
          rw [hsession]
          exact Or.inl rfl
      · cases hs
  | decided r tokens =>
      simp only [step] at hs
      split at hs
      · exact Or.inr (hresume hs)
      · cases hs
  | _ => cases he

/-- **A step keeps every file that is being sent in the hands of a handler.** -/
theorem served_step (h : Served s) (hs : (controller platform).step s e = some t)
    (hopens : e.opens = true → NoUpload s) : Served t where
  inside := inside_step h.inside (h.sole.staysInside e) (step_effect hs)
  sole := by
    cases he : e.opens with
    | true =>
        refine (noUpload_step (hopens he) hs fun r req env heq => ?_).sole
        rw [heq] at he
        cases he
    | false =>
        refine sole_step h.sole (step_effect hs) fun r favorites defaultDir cacheDir id tokens heq => ?_
        rw [heq] at he
        cases he
  busy session' hs' hallowed id file hget hsending := by
    cases he : e.opens with
    | true =>
        rcases session_opens hs he hs' with hwaiting | ⟨_, hfiles⟩
        · rw [hwaiting] at hallowed
          cases hallowed
        · rcases hfiles id file hget with hf | hf <;> cases hsending.symm.trans hf
    | false =>
        rcases step_follows hs he hs' with ⟨session, hses, hfollows⟩ |
          ⟨r, session, fileId, f, now, hbegins⟩
        · rcases hfollows.files id file hget with hold | hover
          · obtain ⟨r, u, hr, rfl⟩ := h.busy session hses (hfollows.allowed hallowed) id file hold
              hsending
            by_cases hsaved : ∃ result env, e = .saved r result env
            · obtain ⟨result, env, rfl⟩ := hsaved
              have hover := saved_over hs hr hs' hallowed hget
              rw [hsending] at hover
              cases hover
            · refine ⟨r, u, upload_kept hs hr rfl (fun result env he => hsaved ⟨result, env, he⟩) ?_,
                rfl⟩
              intro result env he
              obtain ⟨v, hv, _⟩ := he ▸ step_session hs
              rw [hr] at hv
              cases hv
          · rw [hsending] at hover
            cases hover
        · obtain rfl := Option.some.inj (hs'.symm.trans hbegins.begun)
          by_cases hid : id = fileId
          · exact ⟨r, _, by rw [hbegins.task, LinkedMap.get?_insert_self], hid.symm⟩
          · rw [ReceiveSessionState.begun_other _ _ _ hid] at hget
            obtain ⟨q, u, hq, rfl⟩ := h.busy session hbegins.found hbegins.allowed id file hget
              hsending
            obtain ⟨req, env, rfl, _⟩ := hbegins.event
            exact ⟨q, u, upload_kept hs hq rfl (fun _ _ h => by cases h) (fun _ _ h => by cases h), rfl⟩
  ended session' hs' hstatus := by
    cases he : e.opens with
    | true =>
        rcases session_opens hs he hs' with h | ⟨h, _⟩ <;> cases hstatus.symm.trans h
    | false =>
        rcases step_follows hs he hs' with ⟨session, hses, hfollows⟩ |
          ⟨r, session, fileId, f, now, hbegins⟩
        · exact hfollows.ended (h.ended session hses) hstatus
        · obtain rfl := Option.some.inj (hs'.symm.trans hbegins.begun)
          cases hstatus

/-! ## 4. Sessions that end by themselves -/

/-- **The session is over, or it will be**: no file is in the queue and an upload is on its way. -/
def Ending (s : State) : Prop :=
  ∀ session, s.session = some session → session.status ≠ .waiting ∧
    (session.status = .sending →
      (∀ id file, session.files.get? id = some file → file.status ≠ .queue) ∧
      ∃ r task u, s.tasks.get? r = some task ∧ task.upload? = some u)

/-- A sending session with a file that is not over has an upload on its way, if none is queued. -/
theorem Served.upload_of_open (h : Served s) {session : ReceiveSessionState}
    (hs : s.session = some session) (hstatus : session.status = .sending)
    (hqueue : ∀ id file, session.files.get? id = some file → file.status ≠ .queue)
    (hopen : session.isFinishedOrError = false) :
    ∃ r task u, s.tasks.get? r = some task ∧ task.upload? = some u := by
  by_contra hnone
  have hall : session.isFinishedOrError = true := by
    refine isFinishedOrError_iff.mpr fun id file hget => ?_
    cases hfile : file.status with
    | queue => exact absurd hfile (hqueue id file hget)
    | sending =>
        obtain ⟨r, u, hr, _⟩ := h.busy session hs (by rw [hstatus]; rfl) id file hget hfile
        exact absurd ⟨r, _, u, hr, rfl⟩ hnone
    | _ => rfl
  rw [hopen] at hall
  cases hall

/-- A session that is ending has no file in the queue while it may go on. -/
theorem Ending.no_queue (hE : Ending s) (h : Served s) {session : ReceiveSessionState}
    (hs : s.session = some session) (hallowed : allowedStates session.status = true) :
    ∀ id file, session.files.get? id = some file → file.status ≠ .queue := by
  intro id file hget hfile
  cases hstatus : session.status with
  | sending => exact ((hE session hs).2 hstatus).1 id file hget hfile
  | finishedWithErrors =>
      have hover := isFinishedOrError_iff.mp (h.ended session hs hstatus) id file hget
      rw [hfile] at hover
      cases hover
  | _ =>
      rw [hstatus] at hallowed
      cases hallowed

/-- A saved file goes on to the history. -/
theorem afterSave_recording {u : Upload} {path : Option String} {gallery : Bool} {env : UploadEnv}
    {session : ReceiveSessionState} (hs : s.session = some session)
    (hallowed : allowedStates session.status = true) (hkey : u.fileId ∈ session.files.keys) :
    (afterSave s r u (.ok (gallery, path)) env).tasks.get? r = some (.recording u) := by
  have hfinished : session.fileFinished u.fileId .finished path gallery none ≠ none := by
    rw [ne_eq, ReceiveSessionState.fileFinished_none]
    exact fun h => h hkey
  obtain ⟨session', hsession'⟩ := Option.ne_none_iff_exists'.mp hfinished
  unfold afterSave
  simp only [hs, Option.any_some, hallowed, if_true, State.fileFinished, hsession',
    Option.map_some]
  exact LinkedMap.get?_insert_self

/-- **A session that still sends with all files over** has a file on its way to the history, or is
    left alone by the step. -/
theorem sending_over (h : Served s) (hs : (controller platform).step s e = some t)
    (he : e.opens = false) {session' : ReceiveSessionState} (hs' : t.session = some session')
    (hstatus : session'.status = .sending) (hover : session'.isFinishedOrError = true) :
    (∃ r u, t.tasks.get? r = some (.recording u)) ∨
    (∃ session, s.session = some session ∧ session.status = .sending) ∧
      (∀ r result env, e ≠ .saved r result env) ∧ ∀ r result env, e ≠ .recorded r result env := by
  have hafter := step_session hs
  have hcaught : ∀ {session : ReceiveSessionState} {fileId error : String} {now : Int},
      fileId ∈ session.files.keys → session' = session.caught fileId error now → False := by
    intro session fileId error now hkey heq
    rcases session.caught_cases fileId error now with ⟨_, hno⟩ | ⟨b, _, hb, _⟩
    · exact hno hkey
    · rw [heq, hb] at hstatus
      obtain ⟨hsame, hopen⟩ := ReceiveSessionState.settled_sending hstatus
      rw [heq, hb, hsame, hopen] at hover
      cases hover
  cases e with
  | createSession _ _ _ _ _ _ | decided _ _ => cases he
  | delayedClose _ | closeSession | cancelSession =>
      rw [show t.session = none from hafter] at hs'
      cases hs'
  | upload r req env =>
      have hstart := hafter.trans (startUpload_session s r req env)
      cases hguards : uploadGuards s.session req with
      | error response =>
          rw [hguards] at hstart
          exact Or.inr ⟨⟨session', hstart.symm.trans hs', hstatus⟩, (fun _ _ _ h => by cases h),
            (fun _ _ _ h => by cases h)⟩
      | ok x =>
          obtain ⟨session, fileId, file⟩ := x
          simp only [hguards] at hstart
          cases hname : file.desiredName with
          | some name =>
              simp only [hname] at hstart
              obtain rfl := Option.some.inj (hs'.symm.trans hstart)
              have hsending := isFinishedOrError_iff.mp hover fileId _ LinkedMap.get?_insert_self
              cases hsending
          | none =>
              simp only [hname] at hstart
              obtain rfl := Option.some.inj (hs'.symm.trans hstart)
              exact (hcaught (LinkedMap.mem_keys.mpr ⟨_, LinkedMap.get?_insert_self⟩) rfl).elim
  | saved r result env =>
      obtain ⟨u, hr, h'⟩ := hafter
      rw [h'] at hs'
      obtain ⟨session, hses, hsession'⟩ := Option.map_eq_some_iff.mp hs'
      have hkey := h.known hr rfl hses
      cases result with
      | error error => exact (hcaught hkey hsession'.symm).elim
      | ok x =>
          obtain ⟨gallery, path⟩ := x
          have hsame : session.status = .sending := by
            rcases session.done_cases u.fileId path gallery with ⟨heq, _⟩ | ⟨b, _, heq, hb⟩
            · rw [← hsession'] at hstatus
              dsimp only at hstatus
              rwa [heq] at hstatus
            · rw [← hsession'] at hstatus
              dsimp only at hstatus
              rwa [heq, hb] at hstatus
          change step platform s (.saved r (.ok (gallery, path)) env) = some t at hs
          simp only [step, hr, Option.some.injEq] at hs
          subst hs
          exact Or.inl ⟨r, u, afterSave_recording hses (by rw [hsame]; rfl) hkey⟩
  | recorded r result env =>
      obtain ⟨u, hr, h'⟩ := hafter
      rw [h'] at hs'
      obtain ⟨session, hses, hsession'⟩ := Option.map_eq_some_iff.mp hs'
      cases result with
      | error error => exact (hcaught (h.known hr rfl hses) hsession'.symm).elim
      | ok x =>
          dsimp only at hsession'
          rw [← hsession'] at hstatus hover
          obtain ⟨hsame, hopen⟩ := ReceiveSessionState.settled_sending hstatus
          rw [hsame, hopen] at hover
          cases hover
  | cancel r req now =>
      rcases hafter with h' | h'
      · exact Or.inr ⟨⟨session', h' ▸ hs', hstatus⟩, (fun _ _ _ h => by cases h),
          (fun _ _ _ h => by cases h)⟩
      · rw [h'] at hs'
        obtain ⟨session, _, rfl⟩ := Option.map_eq_some_iff.mp hs'
        cases hstatus
  | setSessionDestinationDir _ | setSessionSaveToGallery _ =>
      rw [show t.session = _ from hafter] at hs'
      obtain ⟨session, hses, rfl⟩ := Option.map_eq_some_iff.mp hs'
      exact Or.inr ⟨⟨session, hses, hstatus⟩, (fun _ _ _ h => by cases h), (fun _ _ _ h => by cases h)⟩
  | _ =>
      exact Or.inr ⟨⟨session', hafter ▸ hs', hstatus⟩, (fun _ _ _ h => by cases h),
        (fun _ _ _ h => by cases h)⟩

/-- **A step keeps a session ending**, unless it gives it its files. -/
theorem ending_step (h : Served s) (hE : Ending s) (hs : (controller platform).step s e = some t)
    (hopens : e.opens = true → t.session = none) : Ending t := by
  intro session' hs'
  cases he : e.opens with
  | true =>
      rw [hopens he] at hs'
      cases hs'
  | false =>
      have hnext := served_step h hs (by rw [he]; exact fun h => by cases h)
      rcases step_follows hs he hs' with ⟨session, hses, hfollows⟩ |
        ⟨r, session, fileId, f, now, hbegins⟩
      · refine ⟨fun hw => (hE session hses).1 (hfollows.waiting hw), fun hstatus => ?_⟩
        have hallowed := hfollows.allowed (by rw [hstatus]; rfl)
        have hqueue : ∀ id file, session'.files.get? id = some file → file.status ≠ .queue := by
          intro id file hget hfile
          rcases hfollows.files id file hget with hold | hover
          · exact (hE.no_queue h hses hallowed) id file hold hfile
          · rw [hfile] at hover
            cases hover
        refine ⟨hqueue, ?_⟩
        cases hover : session'.isFinishedOrError with
        | false => exact hnext.upload_of_open hs' hstatus hqueue hover
        | true =>
            rcases sending_over h hs he hs' hstatus hover with ⟨r, u, hr⟩ |
              ⟨⟨x, hx, hsending⟩, hsaved, hrecorded⟩
            · exact ⟨r, _, u, hr, rfl⟩
            · obtain ⟨_, r, task, u, hr, hu⟩ := (hE x hx).2 hsending
              exact ⟨r, task, u, upload_kept hs hr hu (hsaved r) (hrecorded r), hu⟩
      · obtain rfl := Option.some.inj (hs'.symm.trans hbegins.begun)
        refine ⟨fun h => (by cases h), fun _ => ⟨fun id file hget hfile => ?_, r, _, _,
          by rw [hbegins.task, LinkedMap.get?_insert_self], rfl⟩⟩
        by_cases hid : id = fileId
        · subst hid
          obtain rfl := Option.some.inj (LinkedMap.get?_insert_self.symm.trans hget)
          cases hfile
        · rw [ReceiveSessionState.begun_other _ _ _ hid] at hget
          exact hE.no_queue h hbegins.found hbegins.allowed id file hget hfile

end LocalSend.Receive
