/-
  File:      LocalSend/Receive/Times.lean
  Subject:   START AND END OF A RECEIVE SESSION. The first upload notes the start, the last one the
             end. Nothing takes the end back when the session goes on, and an upload that comes in
             after the last one notes it anew.

  * `restamps`, `timely` -- the condition on the steps;
  * `Begun` -- what the code keeps of the start of a transfer; `begun_step`;
  * `step_times` -- what a step does to the times; `step_timely` -- the condition is exact;
  * `timesAgree_iff` -- **the runs in which the times agree with the status**.
-/
import LocalSend.Common.TransferTimes
import LocalSend.Receive.Endgame

namespace LocalSend.Receive

open Lib

variable {platform : Platform} {s t : State} {e : Event} {r : RequestId}

/-! ## 1. Times -/

def ReceiveSessionState.times (session : ReceiveSessionState) : Times :=
  ⟨session.status, session.startTime, session.endTime⟩

/-- The times of the one session. -/
def State.times (_ : Unit) (s : State) : Option Times := s.session.map ReceiveSessionState.times

/-- What the clock shows at a step that may read it. -/
def Event.time : Event → Option Int
  | .upload _ _ env | .saved _ _ env | .recorded _ _ env => some env.now
  | .cancel _ _ now => some now
  | _ => none

/-- The end of an upload gives a session that has finished with errors, and still does, a new
    end. -/
def ReceiveSessionState.restamps (session : ReceiveSessionState) (now : Int) : Prop :=
  session.status = .finishedWithErrors ∧ session.isFinishedOrError = true ∧
    session.hasError = true ∧ session.startTime.isSome = true ∧ session.endTime ≠ some now

instance (session : ReceiveSessionState) (now : Int) : Decidable (session.restamps now) :=
  inferInstanceAs (Decidable (_ ∧ _))

/-- The session the end of an upload looks at: the one that is there, with the file marked as
    failed if it failed. -/
def lastLook (s : State) : Event → Option ReceiveSessionState
  | .saved r (.error error) _ | .recorded r (.error error) _ =>
    ((s.tasks.get? r).bind Task.upload?).bind fun u => s.session.bind fun session =>
      session.fileFinished u.fileId .failed none false (some error)
  | .recorded _ (.ok _) _ => s.session
  | _ => none

/-- **A session with an end is left alone**: no upload begins in it, no decision opens it again,
    and no upload ends in it that would note the end anew. The condition on the steps. -/
def timely (s : State) : Event → Prop
  | .upload _ req _ => ∀ x ∈ (uploadGuards s.session req).toOption, x.1.endTime = none
  | .decided r _ => (s.answers.get? r).any (fun answer => !refused answer) = true →
      ∀ session ∈ s.session, session.endTime = none
  | .saved r result env => ∀ session ∈ lastLook s (.saved r result env), ¬ session.restamps env.now
  | .recorded r result env =>
      ∀ session ∈ lastLook s (.recorded r result env), ¬ session.restamps env.now
  | _ => True

instance (s : State) : (e : Event) → Decidable (timely s e)
  | .upload _ req _ => inferInstanceAs (Decidable
      (∀ x ∈ (uploadGuards s.session req).toOption, x.1.endTime = none))
  | .decided r _ => inferInstanceAs (Decidable
      ((s.answers.get? r).any (fun answer => !refused answer) = true →
        ∀ session ∈ s.session, session.endTime = none))
  | .saved r result env => inferInstanceAs (Decidable
      (∀ session ∈ lastLook s (.saved r result env), ¬ session.restamps env.now))
  | .recorded r result env => inferInstanceAs (Decidable
      (∀ session ∈ lastLook s (.recorded r result env), ¬ session.restamps env.now))
  | .prepareUpload _ _ _ | .readBody _ _ _ | .createSession _ _ _ _ _ _ | .shown _
  | .messageRecorded _ | .permitted _ | .delayedClose _ | .cancel _ _ _ | .acceptFileRequest _
  | .declineFileRequest | .closeSession | .cancelSession | .setSessionDestinationDir _
  | .setSessionSaveToGallery _ => inferInstanceAs (Decidable True)

/-- The transfer of the session `id` starts or goes on: an upload passes its checks. -/
def begins (id : String) (s : State) (e : Event) (_ : State) : Prop :=
  match e with
  | .upload _ req _ => ∃ x ∈ (uploadGuards s.session req).toOption, x.1.sessionId = id
  | _ => False

instance (id : String) (s : State) : (e : Event) → (t : State) → Decidable (begins id s e t)
  | .upload _ req _, _ => inferInstanceAs (Decidable
      (∃ x ∈ (uploadGuards s.session req).toOption, x.1.sessionId = id))
  | .prepareUpload _ _ _, _ | .readBody _ _ _, _ | .createSession _ _ _ _ _ _, _ | .shown _, _
  | .messageRecorded _, _ | .decided _ _, _ | .permitted _, _ | .saved _ _ _, _
  | .recorded _ _ _, _ | .delayedClose _, _ | .cancel _ _ _, _ | .acceptFileRequest _, _
  | .declineFileRequest, _ | .closeSession, _ | .cancelSession, _ | .setSessionDestinationDir _, _
  | .setSessionSaveToGallery _, _ => inferInstanceAs (Decidable False)

/-! ## 2. What a step does to the times -/

namespace ReceiveSessionState

variable {session : ReceiveSessionState} {G : Prop}

/-- The last file ends the transfer, or the times stay. -/
theorem settled_times (session : ReceiveSessionState) (now : Int)
    (hG : G → ¬ session.restamps now) :
    Times.Step G (some now) (some session.times) (some (session.settled now).times) := by
  unfold settled
  split
  · rename_i hcond
    obtain ⟨_, hover⟩ := Bool.and_eq_true_iff.mp hcond
    refine .ends session.times _ now rfl ?_ fun hclean hsame hstart => ?_
    · split
      · exact Or.inr rfl
      · exact Or.inl rfl
    · have hallowed : allowedStates session.status = true := (Bool.and_eq_true_iff.mp hcond).1
      have hold : session.status = if session.hasError then .finishedWithErrors else .finished :=
        hsame.symm
      refine Classical.byContradiction fun hne => hG hclean ?_
      cases herror : session.hasError with
      | true =>
          rw [herror, if_pos rfl] at hold
          exact ⟨hold, hover, herror, hstart, hne⟩
      | false =>
          rw [herror, if_neg Bool.false_ne_true] at hold
          rw [hold] at hallowed
          cases hallowed
  · exact .kept _

theorem fileFinished_times {session' : ReceiveSessionState} {fileId : String} {status : FileStatus}
    {path error : Option String} {gallery : Bool}
    (h : session.fileFinished fileId status path gallery error = some session') :
    session'.times = session.times := by
  obtain ⟨file, _, rfl⟩ := fileFinished_some h
  rfl

theorem caught_times (session : ReceiveSessionState) (fileId error : String) (now : Int)
    (hG : G → ∀ session' ∈ session.fileFinished fileId .failed none false (some error),
      ¬ session'.restamps now) :
    Times.Step G (some now) (some session.times) (some (session.caught fileId error now).times) := by
  rcases caught_cases session fileId error now with ⟨hsame, _⟩ | ⟨session', hfile, heq, _⟩
  · rw [hsame]
    exact .kept _
  · rw [heq, ← fileFinished_times hfile]
    exact settled_times session' now fun hclean => hG hclean session' hfile

theorem done_times (session : ReceiveSessionState) (fileId : String) (path : Option String)
    (gallery : Bool) : (session.done fileId path gallery).times = session.times := by
  rcases done_cases session fileId path gallery with ⟨hsame, _⟩ | ⟨session', hfile, heq, _⟩
  · rw [hsame]
  · rw [heq, fileFinished_times hfile]

theorem settled_start (session : ReceiveSessionState) (now : Int) :
    (session.settled now).startTime = session.startTime := by
  unfold settled
  split <;> rfl

theorem caught_start (session : ReceiveSessionState) (fileId error : String) (now : Int) :
    (session.caught fileId error now).startTime = session.startTime := by
  rcases caught_cases session fileId error now with ⟨hsame, _⟩ | ⟨session', hfile, heq, _⟩
  · rw [hsame]
  · rw [heq, settled_start]
    exact congrArg Times.startTime (fileFinished_times hfile)

end ReceiveSessionState

/-! ## 3. The start of a transfer -/

variable {H : (State → Event → State → Prop) → Prop}

/-- **What the code keeps of the start**; `H` is the history of the run. A file with a token has a
    name to save it under, and a session has a start as soon as an upload has begun in it. -/
structure Begun (H : (State → Event → State → Prop) → Prop) (s : State) : Prop where
  named : ∀ session fileId file, s.session = some session →
    session.files.get? fileId = some file → file.token.isSome = true →
    file.desiredName.isSome = true
  known : ∀ id, H (begins id) → id ∈ s.uuids
  current : ∀ id keys, s.identity = some (id, keys) → id ∈ s.uuids
  start : ∀ session, s.session = some session →
    (session.startTime.isSome = true ↔ H (begins session.sessionId))

theorem begun_initial : Begun (fun _ => False) State.initial where
  named _ _ _ h := by cases h
  known _ h := h.elim
  current _ _ h := by cases h
  start _ h := by cases h

/-- **The start of an upload**: the transfer begins, for a file that has a name. -/
theorem upload_begins (h : Begun H s) {req : UploadRequest} {env : UploadEnv}
    {session : ReceiveSessionState} {fileId : String} {file : ReceivingFile}
    (hguards : uploadGuards s.session req = .ok (session, fileId, file))
    (hs : (controller platform).step s (.upload r req env) = some t) :
    s.session = some session ∧ t.session = some (session.begun fileId file env.now) := by
  obtain ⟨hsession, hpassed⟩ := uploadGuards_passed hguards
  have htoken : file.token.isSome = true := hpassed.token.2 ▸ hpassed.token.1
  obtain ⟨name, hname⟩ := Option.isSome_iff_exists.mp
    (h.named session fileId file hsession hpassed.found htoken)
  have hafter : t.session = (startUpload s r req env).session := step_session hs
  rw [startUpload_session, hguards] at hafter
  simp only [hname] at hafter
  exact ⟨hsession, hafter⟩

/-- A refused upload leaves the session. -/
theorem upload_refused {req : UploadRequest} {env : UploadEnv} {response : Response}
    (hguards : uploadGuards s.session req = .error response)
    (hs : (controller platform).step s (.upload r req env) = some t) : t.session = s.session := by
  have hafter : t.session = (startUpload s r req env).session := step_session hs
  rwa [startUpload_session, hguards] at hafter

/-- **The start of a session after a step**: the one before, or that of the upload that begins. -/
theorem step_start (h : Begun H s) (hs : (controller platform).step s e = some t)
    (he : e.opens = false) {session' : ReceiveSessionState} (hs' : t.session = some session') :
    ∃ session, s.session = some session ∧
      ((session'.startTime = session.startTime ∧ ∀ id, ¬ begins id s e t) ∨
        (session'.startTime.isSome = true ∧ ∀ id, begins id s e t ↔ id = session.sessionId)) := by
  have hafter := step_session hs
  have hmap : ∀ f : ReceiveSessionState → ReceiveSessionState, t.session = s.session.map f →
      (∀ session, (f session).startTime = session.startTime) → ∃ session,
      s.session = some session ∧ session'.startTime = session.startTime := by
    intro f hmap hf
    rw [hmap] at hs'
    obtain ⟨session, hses, rfl⟩ := Option.map_eq_some_iff.mp hs'
    exact ⟨session, hses, hf session⟩
  have hquiet : (∀ id, ¬ begins id s e t) → (∃ session, s.session = some session ∧
      session'.startTime = session.startTime) → ∃ session, s.session = some session ∧
      ((session'.startTime = session.startTime ∧ ∀ id, ¬ begins id s e t) ∨
        (session'.startTime.isSome = true ∧ ∀ id, begins id s e t ↔ id = session.sessionId)) := by
    intro hno hold
    obtain ⟨session, hses, hstart⟩ := hold
    exact ⟨session, hses, Or.inl ⟨hstart, hno⟩⟩
  cases e with
  | createSession _ _ _ _ _ _ | decided _ _ => cases he
  | delayedClose _ | closeSession | cancelSession =>
      rw [show t.session = none from hafter] at hs'
      cases hs'
  | upload r req env =>
      cases hguards : uploadGuards s.session req with
      | error response =>
          refine hquiet (fun id hbegins => ?_) ⟨session', ?_, rfl⟩
          · obtain ⟨x, hx, _⟩ := hbegins
            rw [hguards] at hx
            cases hx
          · rw [← upload_refused hguards hs, hs']
      | ok x =>
          obtain ⟨session, fileId, file⟩ := x
          obtain ⟨hses, hbegun⟩ := upload_begins h hguards hs
          obtain rfl := Option.some.inj (hs'.symm.trans hbegun)
          refine ⟨session, hses, Or.inr ⟨rfl, fun id => ?_⟩⟩
          simp only [begins, hguards, Except.toOption, Option.mem_some_iff, exists_eq_left']
          exact eq_comm
  | saved r result env =>
      obtain ⟨u, _, hafter⟩ := hafter
      refine hquiet (fun _ => id) (hmap _ hafter fun session => ?_)
      cases result with
      | error error => exact session.caught_start _ _ _
      | ok x => exact congrArg Times.startTime (session.done_times _ _ _)
  | recorded r result env =>
      obtain ⟨u, _, hafter⟩ := hafter
      refine hquiet (fun _ => id) (hmap _ hafter fun session => ?_)
      cases result with
      | error error => exact session.caught_start _ _ _
      | ok x => exact session.settled_start _
  | cancel r req now =>
      refine hquiet (fun _ => id) ?_
      rcases hafter with h | h
      · exact ⟨session', h ▸ hs', rfl⟩
      · exact hmap _ h fun session => rfl
  | setSessionDestinationDir _ | setSessionSaveToGallery _ =>
      exact hquiet (fun _ => id) (hmap _ hafter fun session => rfl)
  | _ => exact hquiet (fun _ => id) ⟨session', (show t.session = s.session from hafter) ▸ hs', rfl⟩

/-- **The session a step gives its files**: a new one, without a time, or one whose files are
    accepted. A file with a token has a name. -/
theorem opens_cases (hs : (controller platform).step s e = some t) (he : e.opens = true)
    {session' : ReceiveSessionState} (hs' : t.session = some session') :
    (∀ fileId file, session'.files.get? fileId = some file → file.token.isSome = true →
      file.desiredName.isSome = true) ∧
    ((session'.sessionId ∉ s.uuids ∧ ¬ session'.times.isOver ∧ session'.startTime = none ∧
        session'.endTime = none) ∨
      ∃ r tokens session chosen, e = .decided r tokens ∧ s.session = some session ∧
        (s.answers.get? r).any (fun answer => !refused answer) = true ∧
        session' = session.accepted chosen tokens) := by
  have haccepted : ∀ {session : ReceiveSessionState} {chosen : Selection} {tokens : List String},
      session' = session.accepted chosen tokens → ∀ fileId file,
      session'.files.get? fileId = some file → file.token.isSome = true →
        file.desiredName.isSome = true := by
    intro session chosen tokens heq fileId file hget htoken
    subst heq
    obtain ⟨token, htoken⟩ := Option.isSome_iff_exists.mp htoken
    exact (acceptFiles_get hget htoken).2.2
  change step platform s e = some t at hs
  cases e with
  | createSession r favorites defaultDir cacheDir sessionId tokens =>
      simp only [step] at hs
      split at hs
      · obtain ⟨hnew, session, hsession, ⟨_, hresume⟩ | ⟨_, hses, _⟩⟩ := createSession_cases hs
        · rcases (resumeSelection_cases hresume).2.2 with ⟨hnone, _⟩ | ⟨_, hnone⟩ |
            ⟨session0, chosen, hses0, _, _, _, hsome⟩
          · cases hnone
          · cases hs'.symm.trans hnone
          · obtain rfl := Option.some.inj (hs'.symm.trans hsome)
            obtain rfl := Option.some.inj hses0
            refine ⟨haccepted rfl, Or.inl ?_⟩
            subst hsession
            refine ⟨hnew, fun hover => ?_, rfl, rfl⟩
            rcases hover with h | h <;> cases h
        · obtain rfl := Option.some.inj (hs'.symm.trans hses)
          subst hsession
          refine ⟨fun fileId file hget htoken => ?_, Or.inl ⟨hnew, fun hover => ?_, rfl, rfl⟩⟩
          · rw [newSession_token hget] at htoken
            cases htoken
          · rcases hover with h | h <;> cases h
      · cases hs
  | decided r tokens =>
      simp only [step] at hs
      split at hs
      · rename_i req sessionId selection hr hanswer
        rcases (resumeSelection_cases hs).2.2 with ⟨_, hnone⟩ | ⟨_, hnone⟩ |
          ⟨session, chosen, hses, _, hno, _, hsome⟩
        · cases hs'.symm.trans hnone
        · cases hs'.symm.trans hnone
        · obtain rfl := Option.some.inj (hs'.symm.trans hsome)
          refine ⟨haccepted rfl, Or.inr ⟨r, tokens, session, chosen, rfl, hses, ?_, rfl⟩⟩
          rw [hanswer, Option.any_some, hno]
          rfl
      · cases hs
  | _ => cases he

theorem begins_opens {id : String} (h : begins id s e t) : e.opens = false := by
  cases e <;> first | rfl | cases h

/-- **Every step keeps the start.** -/
theorem begun_step (h : Begun H s) (hs : (controller platform).step s e = some t) :
    Begun (fun p => H p ∨ p s e t) t where
  named session' fileId file hs' hget htoken := by
    cases he : e.opens with
    | true => exact (opens_cases hs he hs').1 fileId file hget htoken
    | false =>
        obtain ⟨session, hses, hsame⟩ := step_grants hs he session' hs'
        have hgrant := hsame.grants fileId
        rw [hget, Option.map_some] at hgrant
        obtain ⟨old, hold, hfile⟩ := Option.map_eq_some_iff.mp hgrant.symm
        obtain ⟨htok, hname⟩ := Prod.mk.inj hfile
        exact hname ▸ h.named session fileId old hses hold (htok ▸ htoken)
  known id hpast := by
    refine (step_effect hs).uuids id ?_
    rcases hpast with hpast | hbegins
    · exact h.known id hpast
    · cases e with
      | upload r req env =>
          obtain ⟨⟨session, fileId, file⟩, hx, rfl⟩ := hbegins
          cases hguards : uploadGuards s.session req with
          | error response =>
              rw [hguards] at hx
              cases hx
          | ok x =>
              rw [hguards] at hx
              obtain rfl := Option.some.inj hx
              refine h.current session.sessionId session.files.keys ?_
              rw [State.identity, (uploadGuards_passed hguards).1]
              rfl
      | _ => cases hbegins
  current := current_step h.current (step_effect hs)
  start session' hs' := by
    cases he : e.opens with
    | true =>
        have hno : ∀ id, ¬ begins id s e t := fun id hbegins => by
          cases he.symm.trans (begins_opens hbegins)
        rcases (opens_cases hs he hs').2 with ⟨hnew, _, hstart, _⟩ |
          ⟨r, tokens, session, chosen, _, hses, _, rfl⟩
        · -- nothing has begun in a session under a new id
          rw [hstart]
          refine ⟨(fun hsome => by cases hsome), fun hpast => ?_⟩
          rcases hpast with hpast | hbegins
          · exact absurd (h.known _ hpast) hnew
          · exact absurd hbegins (hno _)
        · exact (h.start session hses).trans ⟨Or.inl, fun hpast => hpast.resolve_right (hno _)⟩
    | false =>
        obtain ⟨session, hses, hcases⟩ := step_start h hs he hs'
        obtain ⟨old, hold, hsame⟩ := step_grants hs he session' hs'
        obtain rfl := Option.some.inj (hses.symm.trans hold)
        rw [hsame.sessionId]
        rcases hcases with ⟨hstart, hno⟩ | ⟨hstart, hbegins⟩
        · rw [hstart]
          exact (h.start session hses).trans ⟨Or.inl, fun hpast => hpast.resolve_right (hno _)⟩
        · exact ⟨fun _ => Or.inr ((hbegins _).mpr rfl), fun _ => hstart⟩

/-! ## 4. Steps -/

/-- **What a step does to the times.** -/
theorem step_times (h : Begun H s) (hs : (controller platform).step s e = some t) (k : Unit) :
    Times.Step (timely s e) e.time (s.times k) (t.times k) := by
  have hafter := step_session hs
  have hmap : ∀ {now : Option Int} {G : Prop} (f : ReceiveSessionState → ReceiveSessionState),
      t.session = s.session.map f → (∀ session, s.session = some session →
        Times.Step G now (some session.times) (some (f session).times)) →
      Times.Step G now (s.times k) (t.times k) := by
    intro now G f hmap hf
    cases hses : s.session with
    | none =>
        rw [hses] at hmap
        rw [State.times, State.times, hses, hmap]
        exact .kept _
    | some session =>
        rw [hses] at hmap
        rw [State.times, State.times, hses, hmap]
        exact hf session hses
  have hkept : ∀ {now : Option Int} {G : Prop}, t.session = s.session →
      Times.Step G now (s.times k) (t.times k) := by
    intro now G hsame
    rw [State.times, State.times, hsame]
    exact .kept _
  have hgone : ∀ {now : Option Int} {G : Prop}, t.session = none →
      Times.Step G now (s.times k) (t.times k) := by
    intro now G hnone
    rw [State.times, State.times, hnone]
    exact .gone _
  cases e with
  | createSession r favorites defaultDir cacheDir sessionId tokens | decided r tokens =>
      cases hses : t.session with
      | none => exact hgone hses
      | some session' =>
          rcases (opens_cases hs rfl hses).2 with ⟨_, hover, hstart, hend⟩ |
            ⟨r', tokens', session, chosen, he, hses', hanswer, rfl⟩
          · rw [State.times, State.times, hses]
            exact .stored _ _ hover hstart hend
          · rw [State.times, State.times, hses, hses']
            refine .sends session.times session.startTime (Or.inl rfl) fun hclean => ?_
            rw [he] at hclean
            exact hclean hanswer session hses'
  | delayedClose _ | closeSession | cancelSession => exact hgone hafter
  | upload r req env =>
      cases hguards : uploadGuards s.session req with
      | error response => exact hkept (upload_refused hguards hs)
      | ok x =>
          obtain ⟨session, fileId, file⟩ := x
          obtain ⟨hses, hbegun⟩ := upload_begins h hguards hs
          rw [State.times, State.times, hses, hbegun]
          refine .sends session.times (some (session.startTime.getD env.now)) ?_ fun hclean => ?_
          · cases hstart : session.startTime with
            | none => exact Or.inr rfl
            | some start => exact Or.inl hstart.symm
          · refine hclean (session, fileId, file) ?_
            rw [hguards]
            rfl
  | saved r result env =>
      obtain ⟨u, hr, hafter⟩ := hafter
      refine hmap _ hafter fun session hses => ?_
      cases result with
      | error error =>
          refine session.caught_times _ _ _ fun hclean session' hfile => hclean session' ?_
          simp only [lastLook, hr, hses, Option.bind_some, Task.upload?]
          exact hfile
      | ok x =>
          dsimp only
          rw [session.done_times]
          exact .kept _
  | recorded r result env =>
      obtain ⟨u, hr, hafter⟩ := hafter
      refine hmap _ hafter fun session hses => ?_
      cases result with
      | error error =>
          refine session.caught_times _ _ _ fun hclean session' hfile => hclean session' ?_
          simp only [lastLook, hr, hses, Option.bind_some, Task.upload?]
          exact hfile
      | ok x => exact session.settled_times _ fun hclean => hclean session hses
  | cancel r req now =>
      rcases hafter with hsame | hcancel
      · exact hkept hsame
      · refine hmap _ hcancel fun session _ => .aside _ _ rfl (fun h => by cases h) fun hover => ?_
        rcases hover with h | h <;> cases h
  | setSessionDestinationDir _ | setSessionSaveToGallery _ =>
      exact hmap _ hafter fun session _ => .kept _
  | _ => exact hkept hafter

/-- A session that is given a new end has the status it had. -/
theorem ReceiveSessionState.restamps.settled {session : ReceiveSessionState} {now : Int}
    (h : session.restamps now) : session.settled now = { session with endTime := some now } := by
  obtain ⟨hstatus, hover, herror, _, _⟩ := h
  rw [ReceiveSessionState.settled, hstatus, hover, herror]
  simp [allowedStates, ← hstatus]

/-- **The condition is exact**: a step without it leaves a session that sends and has an end, or
    that has another end than when its status was entered. -/
theorem step_timely (h : Begun H s) (hs : (controller platform).step s e = some t)
    {entered : Option (Option Int)}
    (hold : ∀ x, s.times () = some x → x.Agree (x.startTime.isSome = true) entered)
    (hnew : ∀ y, t.times () = some y → y.Agree (y.startTime.isSome = true)
      (Times.enteredAt entered e.time (s.times ()) (t.times ()))) : timely s e := by
  have hstamp : ∀ {session session' : ReceiveSessionState} {now : Int},
      s.session = some session → session'.times = session.times → session'.restamps now →
      t.session = some (session'.settled now) → False := by
    intro session session' now hses hsame hstamp hafter
    have htimes : s.times () = some session'.times := by
      rw [State.times, hses, hsame]
      rfl
    have htimes' : t.times () = some ⟨session'.status, session'.startTime, some now⟩ := by
      rw [State.times, hafter, hstamp.settled]
      rfl
    have hagree := hnew _ htimes'
    have hsame' : Times.enteredAt entered e.time (some session'.times)
        (some ⟨session'.status, session'.startTime, some now⟩) = entered := Times.enteredAt_same rfl
    rw [htimes, htimes', hsame'] at hagree
    obtain ⟨hstatus, _, _, hstart, hend⟩ := hstamp
    exact hend ((hold _ htimes).endTime_eq hagree (Or.inr hstatus) (Or.inr hstatus) hstart hstart)
  have hcaught : ∀ {session session' : ReceiveSessionState} {fileId error : String} {now : Int},
      s.session = some session →
      session.fileFinished fileId .failed none false (some error) = some session' →
      session'.restamps now →
      t.session = s.session.map (fun session => session.caught fileId error now) → False := by
    intro session session' fileId error now hses hfile hstamps hafter
    refine hstamp hses (ReceiveSessionState.fileFinished_times hfile) hstamps ?_
    rw [hafter, hses, Option.map_some, ReceiveSessionState.caught, hfile]
  have hafter := step_session hs
  cases e with
  | upload r req env =>
      intro x hx
      cases hguards : uploadGuards s.session req with
      | error response =>
          rw [hguards] at hx
          cases hx
      | ok y =>
          rw [hguards] at hx
          obtain rfl := Option.some.inj hx
          obtain ⟨session, fileId, file⟩ := y
          obtain ⟨_, hbegun⟩ := upload_begins h hguards hs
          refine (hnew (session.begun fileId file env.now).times ?_).sending rfl
          rw [State.times, hbegun]
          rfl
  | decided r tokens =>
      intro hanswer session hses
      have hses : s.session = some session := hses
      change step platform s (.decided r tokens) = some t at hs
      simp only [step] at hs
      split at hs
      · rename_i req sessionId selection hr hselection
        rw [hselection, Option.any_some] at hanswer
        rcases (resumeSelection_cases hs).2.2 with ⟨hnone, _⟩ | ⟨hrefused, _⟩ |
          ⟨old, chosen, hses', _, _, _, hsome⟩
        · cases hses.symm.trans hnone
        · rw [hrefused] at hanswer
          cases hanswer
        · obtain rfl := Option.some.inj (hses.symm.trans hses')
          refine (hnew (session.accepted chosen tokens).times ?_).sending rfl
          rw [State.times, hsome]
          rfl
      · cases hs
  | saved r result env =>
      intro session' hlook hstamps
      obtain ⟨u, hr, hafter⟩ := hafter
      cases result with
      | ok x => cases hlook
      | error error =>
          simp only [lastLook, hr, Option.bind_some, Task.upload?] at hlook
          obtain ⟨session, hses, hfile⟩ := Option.bind_eq_some_iff.mp hlook
          exact hcaught hses hfile hstamps hafter
  | recorded r result env =>
      intro session' hlook hstamps
      obtain ⟨u, hr, hafter⟩ := hafter
      cases result with
      | ok x =>
          have hses : s.session = some session' := hlook
          rw [hses] at hafter
          exact hstamp hses rfl hstamps hafter
      | error error =>
          simp only [lastLook, hr, Option.bind_some, Task.upload?] at hlook
          obtain ⟨session, hses, hfile⟩ := Option.bind_eq_some_iff.mp hlook
          exact hcaught hses hfile hstamps hafter
  | _ => trivial

/-- **The times of the receive session agree with its status.** -/
def TimesAgree (platform : Platform) (es : List Event) (s : State) : Prop :=
  Punctual (controller platform) Event.time State.times (fun _ es s => ∃ session,
    s.session = some session ∧
      (controller platform).Past (begins session.sessionId) State.initial es) State.initial es s

/-- The invariant, in the history of a run. -/
theorem begun_run {es : List Event}
    (h : (controller platform).Run Machine.anyStep State.initial es s) :
    Begun (fun p => (controller platform).Past p State.initial es) s :=
  h.pastInvariant (I := Begun) begun_initial fun _ _ _ _ hB _ hs => begun_step hB hs

/-- **On the receive side** the times agree with the status in every state of a run if and only if
    a session with an end is left alone. -/
theorem timesAgree_iff (platform : Platform) (es : List Event) (s : State)
    (h : (controller platform).Run Machine.anyStep State.initial es s)
    (hclock : Machine.Forward Event.time es) :
    (∀ fs t, fs <+: es → (controller platform).Run Machine.anyStep State.initial fs t →
      TimesAgree platform fs t) ↔ (controller platform).Run timely State.initial es s := by
  refine punctual_iff (I := fun s => ∃ H, Begun H s) ⟨_, begun_initial⟩ ?_ (fun k => rfl) ?_ ?_ ?_ h
    hclock
  · intro v e w hv hs
    obtain ⟨H, hB⟩ := hv
    exact ⟨_, begun_step hB hs⟩
  · intro v e w k hv hs
    obtain ⟨H, hB⟩ := hv
    exact step_times hB hs k
  · intro v e w entered hv hs hold hnew
    obtain ⟨H, hB⟩ := hv
    exact step_timely hB hs (hold ()) (hnew ())
  · intro fs v k x hv hx
    obtain ⟨session, hses, rfl⟩ := Option.map_eq_some_iff.mp hx
    have hstart := (begun_run hv).start session hses
    constructor
    · intro hbegun
      obtain ⟨session', hses', hpast⟩ := hbegun
      obtain rfl := Option.some.inj (hses.symm.trans hses')
      exact hstart.mpr hpast
    · intro hsome
      exact ⟨session, hses, hstart.mp hsome⟩

end LocalSend.Receive
