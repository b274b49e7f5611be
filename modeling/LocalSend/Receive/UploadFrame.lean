/-
  File:      LocalSend/Receive/UploadFrame.lean
  Subject:   UPLOADS STAY INSIDE THEIR SESSION.

  After `saveFile` an upload handler reads the session again and looks at its status only; the
  catch, the last status and the delayed close look at nothing. If another session is there by
  then, they act on it.

  * `upload_leaves_session` -- a run in which the upload of a closed session marks a file of the
    next one as finished;
  * `staysInside` -- the guard of a step: an upload handler goes on only while its own session, or
    none, or one it will not write to is there;
  * `uploads_stay_inside` -- in runs of such steps no upload changes another session, and none
    fails on a missing file.
-/
import LocalSend.Receive.Exclusivity

namespace LocalSend.Receive

open Lib

variable {platform : Platform} {s t : State} {e : Event} {r : RequestId}

/-! ## 1. The guard -/

/-- The session under which the upload began whose code the step runs. -/
def uploadSession (s : State) : Event → Option String
  | .saved r _ _ | .recorded r _ _ =>
    ((s.tasks.get? r).bind Task.upload?).map Upload.sessionId
  | .delayedClose r => s.closing.lookup r
  | .upload _ _ _ => s.session.map ReceiveSessionState.sessionId
  | _ => none

/-- **The guard of a step**: the code of an upload runs while its own session is there, or none,
    or another one it does not write to. -/
def staysInside (s : State) (e : Event) : Prop :=
  ∀ id ∈ uploadSession s e, ∀ session ∈ s.session, session.sessionId = id ∨ ¬ e.writes session

/-- What holds of an upload that passes its checks can be decided. -/
instance (session : Option ReceiveSessionState) (req : UploadRequest)
    (p : ReceiveSessionState → String → ReceivingFile → Prop) [∀ x id f, Decidable (p x id f)] :
    Decidable (∀ x id f, uploadGuards session req = .ok (x, id, f) → p x id f) :=
  match hg : uploadGuards session req with
  | .error _ => .isTrue fun _ _ _ h => by cases h
  | .ok (x, id, f) => decidable_of_iff (p x id f)
      ⟨fun h _ _ _ h' => by
        cases h'
        exact h, fun h => h x id f rfl⟩

instance (session : ReceiveSessionState) : (e : Event) → Decidable (e.writes session)
  | .saved _ result _ =>
    inferInstanceAs (Decidable (result.isOk = true → allowedStates session.status = true))
  | .recorded _ result _ =>
    inferInstanceAs (Decidable (result.isOk = true → allowedStates session.status = true ∧
      session.isFinishedOrError = true))
  | .prepareUpload _ _ _ | .readBody _ _ _ | .createSession _ _ _ _ _ _ | .shown _
  | .messageRecorded _ | .decided _ _ | .permitted _ | .upload _ _ _ | .delayedClose _
  | .cancel _ _ _ | .acceptFileRequest _ | .declineFileRequest | .closeSession | .cancelSession
  | .setSessionDestinationDir _ | .setSessionSaveToGallery _ => inferInstanceAs (Decidable True)

instance (s : State) (e : Event) : Decidable (staysInside s e) :=
  inferInstanceAs (Decidable (∀ id ∈ uploadSession s e, ∀ session ∈ s.session, _ ∨ _))

/-! ## 2. The invariant -/

/-- **The invariant**: an upload in flight knows a file of its own session, and a session never
    comes back under the id of an earlier one. -/
structure Inside (s : State) : Prop where
  current : ∀ id keys, s.identity = some (id, keys) → id ∈ s.uuids
  uploads : ∀ r task u, s.tasks.get? r = some task → task.upload? = some u →
    u.sessionId ∈ s.uuids ∧ ∀ keys, s.identity = some (u.sessionId, keys) → u.fileId ∈ keys
  alive : ∀ r, s.tasks.get? r ≠ some .crashed

theorem inside_initial : Inside State.initial where
  current _ _ h := by cases h
  uploads _ _ _ h := by cases h
  alive _ h := by cases h

theorem isReturn_upload {task : Task} (h : task.isReturn = true) :
    task.upload? = none ∧ task ≠ .crashed := by
  cases task with
  | crashed => cases h
  | _ => first | exact ⟨rfl, nofun⟩ | cases h

theorem afterStore_upload {task : Task} (h : task.afterStore = true) :
    task.upload? = none ∧ task ≠ .crashed := by
  cases task with
  | crashed => cases h
  | _ => first | exact ⟨rfl, nofun⟩ | cases h

/-- An upload in flight keeps its file through every step of the session. -/
theorem inside_keeps (heff : Effect s t e) {u : Upload}
    (hu : u.sessionId ∈ s.uuids ∧ ∀ keys, s.identity = some (u.sessionId, keys) → u.fileId ∈ keys) :
    u.sessionId ∈ t.uuids ∧ ∀ keys, t.identity = some (u.sessionId, keys) → u.fileId ∈ keys := by
  refine ⟨heff.uuids _ hu.1, fun keys hkeys => ?_⟩
  rcases heff.identity with hid | ⟨hnone, _⟩ | ⟨r0, req, dto, settings, favorites, defaultDir,
    cacheDir, sessionId, tokens, _, _, _, hnew, _, hid⟩
  · exact hu.2 keys (hid ▸ hkeys)
  · rw [identity_eq_none hnone] at hkeys
    cases hkeys
  · rcases hid with hnone | ⟨keys', hid⟩
    · rw [identity_eq_none hnone] at hkeys
      cases hkeys
    · -- a new session has a new id
      rw [hid, Option.some.injEq, Prod.mk.injEq] at hkeys
      exact absurd (hkeys.1 ▸ hu.1) hnew

/-- The id of the session is one of those given out. -/
theorem current_step (hcurrent : ∀ id keys, s.identity = some (id, keys) → id ∈ s.uuids)
    (heff : Effect s t e) (id : String) (keys : List String) (hid : t.identity = some (id, keys)) :
    id ∈ t.uuids := by
  rcases heff.identity with hsame | ⟨hnone, _⟩ | ⟨r0, req, dto, settings, favorites, defaultDir,
    cacheDir, sessionId, tokens, _, _, _, _, hin, hnew⟩
  · exact heff.uuids _ (hcurrent id keys (hsame ▸ hid))
  · rw [identity_eq_none hnone] at hid
    cases hid
  · rcases hnew with hnone | ⟨keys', hnew⟩
    · rw [identity_eq_none hnone] at hid
      cases hid
    · rw [hnew, Option.some.injEq, Prod.mk.injEq] at hid
      exact hid.1 ▸ hin

theorem inside_step (hI : Inside s) (hg : staysInside s e) (heff : Effect s t e) : Inside t where
  current := current_step hI.current heff
  uploads r task u hr hu := by
    rcases heff.tasks with htasks | ⟨r0, task0, htasks, hmove⟩
    · rw [htasks] at hr
      exact inside_keeps heff (hI.uploads r task u hr hu)
    · rw [htasks, LinkedMap.get?_insert] at hr
      split at hr
      · obtain rfl := Option.some.inj hr
        cases hmove with
        | returned _ h => rw [(isReturn_upload h).1] at hu; cases hu
        | reading req pin he hnone hpin => cases hu
        | locating req dto settings hr0 => cases hu
        | stored _ h => rw [(afterStore_upload h).1] at hu; cases hu
        | saving u' keys hid hkey =>
            obtain rfl := Option.some.inj hu
            refine inside_keeps heff ⟨hI.current _ _ hid, fun keys' hid' => ?_⟩
            rw [hid, Option.some.injEq, Prod.mk.injEq] at hid'
            exact hid'.2 ▸ hkey
        | recording u' hr0 =>
            obtain rfl := Option.some.inj hu
            exact inside_keeps heff (hI.uploads r0 _ u' hr0 rfl)
        | crashed task u' session hr0 hu' hs hno he hw => cases hu
      · exact inside_keeps heff (hI.uploads r task u hr hu)
  alive r hr := by
    rcases heff.tasks with htasks | ⟨r0, task0, htasks, hmove⟩
    · exact hI.alive r (htasks ▸ hr)
    · rw [htasks, LinkedMap.get?_insert] at hr
      split at hr
      · obtain rfl := Option.some.inj hr
        cases hmove with
        | returned _ h => exact (isReturn_upload h).2 rfl
        | stored _ h => exact (afterStore_upload h).2 rfl
        | crashed task u session hr0 hu hs hno he hw =>
            -- the session is another one, by the invariant, and the guard keeps the step from it
            have hid : s.identity = some (session.sessionId, session.files.keys) := by
              rw [State.identity, hs]
              rfl
            have hother : session.sessionId ≠ u.sessionId := fun heq =>
              hno ((hI.uploads r0 task u hr0 hu).2 _ (heq ▸ hid))
            have hses : uploadSession s e = some u.sessionId := by
              rcases he with ⟨result, env, rfl⟩ | ⟨result, env, rfl⟩
              all_goals
                simp only [uploadSession, hr0, Option.bind_some, hu, Option.map_some]
            rcases hg _ hses session hs with heq | hnw
            · exact hother heq
            · exact hnw hw
      · exact hI.alive r hr

/-! ## 3. The frame -/

/-- A step that does not write leaves the session alone. -/
theorem saved_frame {u : Upload} {result : Except String (Bool × Option String)} {env : UploadEnv}
    {session : ReceiveSessionState} (hs : s.session = some session)
    (hnw : ¬ Event.writes session (.saved r result env)) :
    (afterSave s r u result env).session = some session := by
  cases result with
  | error e => exact absurd nofun hnw
  | ok x =>
      have hno : allowedStates session.status = false := by
        simpa [Event.writes, Except.isOk, Except.toBool] using hnw
      unfold afterSave
      simp [hs, hno, State.respond, State.setTask]

theorem recorded_frame {u : Upload} {result : Except String Unit} {env : UploadEnv}
    {session : ReceiveSessionState} (hs : s.session = some session)
    (hnw : ¬ Event.writes session (.recorded r result env)) :
    (afterRecord s r u result env).session = some session := by
  cases result with
  | error e => exact absurd nofun hnw
  | ok x =>
      have hno : ¬ (allowedStates session.status && session.isFinishedOrError) = true := by
        simpa [Event.writes, Except.isOk, Except.toBool] using hnw
      unfold afterRecord finishUpload
      simp only [hs, if_neg hno]
      exact hs

/-- **The frame of one step**: another session stays as it is. -/
theorem upload_frame (hg : staysInside s e) (hs : (controller platform).step s e = some t)
    {id : String} (hid : uploadSession s e = some id) {session : ReceiveSessionState}
    (hses : s.session = some session) (hother : session.sessionId ≠ id) :
    t.session = some session := by
  have hnw : ¬ e.writes session := (hg id hid session hses).resolve_left hother
  change step platform s e = some t at hs
  cases e with
  | saved r result env =>
      simp only [step] at hs
      split at hs
      · cases hs
        exact saved_frame hses hnw
      · cases hs
  | recorded r result env =>
      simp only [step] at hs
      split at hs
      · cases hs
        exact recorded_frame hses hnw
      · cases hs
  | upload r req env =>
      simp only [uploadSession, hses, Option.map_some, Option.some.injEq] at hid
      exact absurd hid hother
  | delayedClose r => exact absurd trivial hnw
  | _ => cases hid

/-- **Uploads stay inside their session**: no upload fails on a file the session does not have,
    and the code of an upload that began under one id leaves a session with another id as it
    is. -/
theorem uploads_stay_inside (platform : Platform) (es : List Event) (s : State)
    (h : (controller platform).Run staysInside State.initial es s) :
    (∀ r, s.tasks.get? r ≠ some .crashed) ∧
    ∀ e t id session, staysInside s e → (controller platform).step s e = some t →
      uploadSession s e = some id → s.session = some session → session.sessionId ≠ id →
      t.session = some session := by
  have hI : Inside s := h.invariant inside_initial
    fun _ _ _ hI hg hs => inside_step hI hg (step_effect hs)
  exact ⟨hI.alive, fun e t id session hg hs hid hses hother => upload_frame hg hs hid hses hother⟩

/-! ## 4. Two sessions -/

section Runs

def quickSettings : Settings := ⟨some "/dl", false, true, false⟩

/-- An upload is being saved when its session is closed. -/
def closedRun : List Event :=
  [.prepareUpload 0 demoRequest none, .readBody 0 (some demoDto) quickSettings,
    .createSession 0 [] "/dl" "/tmp" "S" ["t"],
    .upload 1 ⟨"10.0.0.1", true, some "f", some "t", some "S"⟩ ⟨quickSettings, [], 7⟩,
    .closeSession]

/-- A second session with the same file id, before the save returns. -/
def reopenedRun : List Event :=
  closedRun ++ [.prepareUpload 2 demoRequest none, .readBody 2 (some demoDto) quickSettings,
    .createSession 2 [] "/dl" "/tmp" "S'" ["t'"]]

def savedEvent : Event := .saved 1 (.ok (false, some "/dl/f.bin")) ⟨quickSettings, [], 8⟩

/-- A second session, which waits for the user when the save returns. -/
def waitingRun : List Event :=
  closedRun ++ [.prepareUpload 2 demoRequest none, .readBody 2 (some demoDto) demoSettings,
    .createSession 2 [] "/dl" "/tmp" "S'" []]

theorem uploads_stay_inside_waitingRun :
    ∃ s t session, (controller demoPlatform).Run staysInside State.initial waitingRun s ∧
      staysInside s savedEvent ∧ (controller demoPlatform).step s savedEvent = some t ∧
      uploadSession s savedEvent = some "S" ∧ s.session = some session ∧
      session.sessionId = "S'" ∧ t.session = some session ∧
      ∀ r, s.tasks.get? r ≠ some .crashed := by
  let s := (((controller demoPlatform).guarded staysInside).run State.initial waitingRun).getD .initial
  have hrun : (((controller demoPlatform).guarded staysInside).run State.initial waitingRun).map id =
      some s := rfl
  obtain ⟨s', hs', rfl⟩ := Machine.run_observe_guarded hrun
  let session := newSession demoPlatform 2 demoRequest demoDto demoSettings [] "/dl" "/tmp" "S'"
  let t := afterSave s 1 ⟨"S", "a", "f", ((LinkedMap.get? (acceptFiles session.files
    (.ofList [("f", "f.bin")]) ["t"]) "f").getD (.queued ⟨"", "", 0, .other, none⟩))⟩
    (.ok (false, some "/dl/f.bin")) ⟨quickSettings, [], 8⟩
  have hg : staysInside s savedEvent := by decide
  have ht : (controller demoPlatform).step s savedEvent = some t := rfl
  have hs : s.session = some session := rfl
  have hmain := uploads_stay_inside demoPlatform waitingRun s hs'
  exact ⟨s, t, session, hs', hg, ht, by decide, hs, rfl,
    hmain.2 savedEvent t "S" session hg ht (by decide) hs (by decide), hmain.1⟩

/-- **An upload leaves its session**: what began under `S` marks the file of `S'` as finished. -/
theorem upload_leaves_session :
    ∃ s t session, (controller demoPlatform).Run Machine.anyStep State.initial reopenedRun s ∧
      uploadSession s savedEvent = some "S" ∧ s.session = some session ∧
      session.sessionId ≠ "S" ∧ (controller demoPlatform).step s savedEvent = some t ∧
      t.session ≠ some session := by
  let s := ((controller demoPlatform).run State.initial reopenedRun).getD .initial
  have hrun : ((controller demoPlatform).run State.initial reopenedRun).map id = some s := rfl
  obtain ⟨s', hs', rfl⟩ := Machine.run_observe hrun
  refine ⟨s, afterSave s 1 _ (.ok (false, some "/dl/f.bin")) ⟨quickSettings, [], 8⟩, _, hs',
    by decide, rfl, by decide, rfl, by decide⟩

end Runs

end LocalSend.Receive
