/-
  File:      LocalSend/Receive/Acceptance.lean
  Subject:   NOTHING IS SAVED THAT WAS NOT ACCEPTED.

  The checks of `_uploadHandler` compare a request with the session that is there. Its tokens come
  from `_prepareUploadHandler`, which wakes up with the user's answer and gives the files of
  whatever session is there their tokens: it looks only whether there is one.

  * `selects`, `issues` -- the steps by which a file of a session is accepted, and gets a token;
  * `saved_unaccepted` -- a run in which the answer given for one session opens the next one;
  * `ownDecision` -- the guard of a step: an accepting answer is taken up while its own session,
    or none, is there;
  * `saved_accepted` -- in runs of such steps a file is saved only behind all checks, for a file
    accepted in that very session and with the token made for it there.
-/
import LocalSend.Receive.Grants
import LocalSend.Receive.Exclusivity

namespace LocalSend.Receive

open Lib

variable {platform : Platform} {s t : State} {e : Event} {r : RequestId}

/-! ## 1. Accepting and issuing -/

/-- **The step accepts the file for the session**: the user answers the request that waits, or the
    session is stored with quick save. -/
def selects (platform : Platform) (sessionId fileId : String) (s : State) (e : Event) (_ : State) :
    Bool :=
  match e with
  | .acceptFileRequest selection =>
    decide (fileId ∈ selection.keys) && s.session.any fun session =>
      decide (session.sessionId = sessionId) &&
        session.responseHandler.any fun r => decide (r ∉ s.answers.keys)
  | .createSession r favorites defaultDir cacheDir id _ =>
    decide (id = sessionId) &&
      match s.tasks.get? r with
      | some (.locating req dto settings) =>
        isQuickSave settings favorites
            (newSession platform r req dto settings favorites
              (settings.destination.getD defaultDir) cacheDir id) dto.info.fingerprint &&
          decide (fileId ∈ dto.files.values.map FileDto.id)
      | _ => false
  | _ => false

/-- **The step makes the token** for the file of the session. -/
def issues (sessionId fileId token : String) (s : State) (e : Event) (t : State) : Bool :=
  match e with
  | .createSession _ _ _ _ _ tokens | .decided _ tokens =>
    decide (token ∈ tokens) && decide (token ∉ s.uuids) && t.session.any fun session =>
      decide (session.sessionId = sessionId) &&
        (session.files.get? fileId).any fun file => decide (file.token = some token)
  | _ => false

/-- **The guard of a step**: an accepting answer is taken up while its own session is there, or
    none. -/
def ownDecision (s : State) : Event → Prop
  | .decided r _ =>
    (s.answers.get? r).any (fun answer => !refused answer) = true → ∀ session ∈ s.session,
      (s.tasks.get? r).bind Task.sessionId? = some session.sessionId
  | _ => True

instance (s : State) : (e : Event) → Decidable (ownDecision s e)
  | .decided r _ =>
    inferInstanceAs (Decidable ((s.answers.get? r).any (fun answer => !refused answer) = true →
      ∀ session ∈ s.session, (s.tasks.get? r).bind Task.sessionId? = some session.sessionId))
  | .prepareUpload _ _ _ | .readBody _ _ _ | .createSession _ _ _ _ _ _ | .shown _
  | .messageRecorded _ | .permitted _ | .upload _ _ _ | .saved _ _ _ | .recorded _ _ _
  | .delayedClose _ | .cancel _ _ _ | .acceptFileRequest _ | .declineFileRequest | .closeSession
  | .cancelSession | .setSessionDestinationDir _ | .setSessionSaveToGallery _ =>
    inferInstanceAs (Decidable True)

/-! ## 2. The invariant -/

/-- **The invariant.** `H` is the history of the run. -/
structure Accounted (platform : Platform) (H : (State → Event → State → Prop) → Prop) (s : State) :
    Prop where
  /-- the stream of a session belongs to the handler that serves it -/
  handler : ∀ session r, s.session = some session → session.responseHandler = some r →
    s.serving r = some session.sessionId
  asked : ∀ r, r ∈ s.answers.keys → s.stored r = true
  /-- an answer was given while the session of its handler was there -/
  answered : ∀ r selection id fileId, s.answers.get? r = some (some selection) →
    s.serving r = some id → fileId ∈ selection.keys →
    H fun a e b => selects platform id fileId a e b = true
  granted : ∀ session fileId file token, s.session = some session →
    session.files.get? fileId = some file → file.token = some token →
    (H fun a e b => selects platform session.sessionId fileId a e b = true) ∧
    (H fun a e b => issues session.sessionId fileId token a e b = true) ∧
    file.desiredName.isSome = true

variable {H : (State → Event → State → Prop) → Prop}

/-- **A quiet step keeps the invariant.** -/
theorem accounted_quiet (hA : Accounted platform H s) (hq : Quiet s t)
    (hans : t.answers = s.answers ∨ ∃ r selection, answersTo s t r selection ∧
      ∀ chosen, selection = some chosen → e = .acceptFileRequest chosen) :
    Accounted platform (fun p => H p ∨ p s e t) t where
  handler session' r hs' hr := by
    obtain ⟨session, hs, hsame⟩ := hq.grants session' hs'
    rw [hq.serving, hsame.sessionId]
    exact hA.handler session r hs (hsame.handler ▸ hr)
  asked r hr := by
    rcases hans with h | ⟨q, selection, ⟨_, h, session, hs, hq'⟩, _⟩
    · exact hq.stored r (hA.asked r (h ▸ hr))
    · rw [h] at hr
      obtain ⟨answer, hget⟩ := LinkedMap.mem_keys.mp hr
      rw [LinkedMap.get?_insert] at hget
      split at hget
      · rename_i heq
        subst heq
        exact hq.stored _ (serving_stored (hA.handler session _ hs hq'))
      · exact hq.stored r (hA.asked r (LinkedMap.mem_keys.mpr ⟨answer, hget⟩))
  answered r selection id fileId hget hserving hmem := by
    rw [hq.serving] at hserving
    rcases hans with h | ⟨q, answer, ⟨hno, h, session, hs, hq'⟩, haccept⟩
    · exact Or.inl (hA.answered r selection id fileId (h ▸ hget) hserving hmem)
    · rw [h, LinkedMap.get?_insert] at hget
      split at hget
      · -- the answer of this very step
        rename_i heq
        subst heq
        obtain rfl := Option.some.inj hget
        obtain rfl := haccept selection rfl
        have hid : session.sessionId = id :=
          Option.some.inj ((hA.handler session r hs hq').symm.trans hserving)
        right
        simp [selects, hmem, hs, hid, hq', hno]
      · exact Or.inl (hA.answered r selection id fileId hget hserving hmem)
  granted session' fileId file' token hs' hget' htoken := by
    obtain ⟨session, hs, hsame⟩ := hq.grants session' hs'
    have hgrant := hsame.grants fileId
    rw [hget', Option.map_some] at hgrant
    obtain ⟨file, hget, hfile⟩ := Option.map_eq_some_iff.mp hgrant.symm
    obtain ⟨htok, hname⟩ := Prod.mk.inj hfile
    obtain ⟨hsel, hiss, hsome⟩ := hA.granted session fileId file token hs hget (htok.trans htoken)
    rw [hsame.sessionId]
    exact ⟨Or.inl hsel, Or.inl hiss, hname ▸ hsome⟩

/-- **A handler that goes on from a selection keeps the invariant**: the session is gone, or its
    files are accepted, selected in this session. -/
theorem accounted_resume {s0 : State} {v2 : Bool} {sessionId : String}
    {selection : Option Selection} {tokens : List String} (hA : Accounted platform H s)
    (hh : resumeSelection platform s0 r v2 sessionId selection tokens = some t)
    (htasks : s0.tasks = s.tasks) (hanswers : s0.answers = s.answers)
    (huuids : ∀ i ∈ s.uuids, i ∈ s0.uuids)
    (hissues : ∀ id fileId token, token ∈ tokens → token ∉ s.uuids →
      (t.session.any fun session => decide (session.sessionId = id) &&
        (session.files.get? fileId).any fun file => decide (file.token = some token)) = true →
      issues id fileId token s e t = true)
    (hsel : ∀ session chosen fileId, s0.session = some session → selection = some chosen →
      refused selection = false → fileId ∈ chosen.keys →
      (H fun a e b => selects platform session.sessionId fileId a e b = true) ∨
        selects platform session.sessionId fileId s e t = true) :
    Accounted platform (fun p => H p ∨ p s e t) t := by
  obtain ⟨⟨task, htask, htasks'⟩, hanswers', hcases⟩ := resumeSelection_cases hh
  rw [htasks] at htasks'
  rw [hanswers] at hanswers'
  obtain ⟨hserving, hstored⟩ := serving_return htask htasks'
  have hasked : ∀ q, q ∈ t.answers.keys → t.stored q = true :=
    fun q hq => hstored q (hA.asked q (hanswers' ▸ hq))
  have hanswered : ∀ q chosen id fileId, t.answers.get? q = some (some chosen) →
      t.serving q = some id → fileId ∈ chosen.keys →
      (H fun a e b => selects platform id fileId a e b = true) ∨
        selects platform id fileId s e t = true :=
    fun q chosen id fileId hq hid hmem =>
      Or.inl (hA.answered q chosen id fileId (hanswers' ▸ hq) (hserving q id hid) hmem)
  have hclosed : t.session = none → Accounted platform (fun p => H p ∨ p s e t) t := by
    intro hnone
    refine ⟨fun session q hs _ => ?_, hasked, hanswered, fun session _ _ _ hs _ _ => ?_⟩
    · rw [hnone] at hs
      cases hs
    · rw [hnone] at hs
      cases hs
  rcases hcases with ⟨_, hnone⟩ | ⟨_, hnone⟩ | ⟨session, chosen, hs0, hchosen, hno, hfresh, hs'⟩
  · exact hclosed hnone
  · exact hclosed hnone
  · refine ⟨fun session' q hsession hq => ?_, hasked, hanswered, ?_⟩
    · rw [hs'] at hsession
      obtain rfl := Option.some.inj hsession
      cases hq
    · intro session' fileId file token hsession hget htoken
      rw [hs'] at hsession
      obtain rfl := Option.some.inj hsession
      obtain ⟨hmem, hkey, hname⟩ := acceptFiles_get hget htoken
      refine ⟨hsel session chosen fileId hs0 hchosen hno hkey, Or.inr ?_, hname⟩
      refine hissues _ _ _ hmem (fun h => hfresh token hmem (huuids _ h)) ?_
      rw [hs', Option.any_some, hget]
      simp [htoken]

/-- **A step keeps the invariant.** -/
theorem accounted_step (hA : Accounted platform H s) (hg : ownDecision s e)
    (hs : (controller platform).step s e = some t) :
    Accounted platform (fun p => H p ∨ p s e t) t := by
  by_cases he : e.opens = false
  · exact accounted_quiet hA (step_quiet hs he) (step_answers hs)
  · change step platform s e = some t at hs
    cases e with
    | decided r tokens =>
        simp only [step] at hs
        split at hs
        · rename_i req sessionId selection hr hanswer
          refine accounted_resume hA hs rfl rfl (fun _ h => h) (fun id fileId token hmem hnew hses => ?_)
            fun session chosen fileId hses hchosen hno hkey => ?_
          · simp only [issues, hses, hmem, hnew, not_false_eq_true, decide_true, Bool.and_self]
          · -- the guard: the session is the one of the handler
            have hown := hg (by rw [hanswer]; simp [hno]) session hses
            subst hchosen
            exact Or.inl (hA.answered r chosen _ fileId hanswer hown hkey)
        · cases hs
    | createSession r favorites defaultDir cacheDir sessionId tokens =>
        simp only [step] at hs
        split at hs
        · rename_i req dto settings hr
          obtain ⟨hnew, session, hsession, ⟨hquick, hresume⟩ | ⟨_, hses, hanswers, task, htasks, hid⟩⟩ :=
            createSession_cases hs
          · refine accounted_resume hA hresume rfl rfl
              (fun _ h => List.mem_cons_of_mem _ h) (fun id fileId token hmem hnew hses => ?_)
              fun session' chosen fileId hses hchosen _ hkey => Or.inr ?_
            · simp only [issues, hses, hmem, hnew, not_false_eq_true, decide_true, Bool.and_self]
            · obtain rfl := Option.some.inj hses
              obtain rfl := Option.some.inj hchosen
              obtain ⟨name, hname⟩ := LinkedMap.mem_keys.mp hkey
              obtain ⟨f, hf, hpair⟩ := List.mem_map.mp (LinkedMap.mem_of_get?_ofList hname)
              have hfile : fileId ∈ dto.files.values.map FileDto.id :=
                List.mem_map.mpr ⟨f, hf, (Prod.mk.inj hpair).1⟩
              have hid : session.sessionId = sessionId := by
                rw [hsession]
                rfl
              rw [hid]
              simp only [selects, hr, ← hsession, hquick, hfile, decide_true, Bool.and_self]
          · have hnot : r ∉ s.answers.keys := fun h => by
              have hstored := hA.asked r h
              rw [State.stored, hr] at hstored
              cases hstored
            have hserving : ∀ q, t.serving q = if q = r then some sessionId else s.serving q := by
              intro q
              unfold State.serving
              rw [htasks, LinkedMap.get?_insert]
              split
              · rw [Option.bind_some, hid]
              · rfl
            refine ⟨fun session' q hs' hq => ?_, fun q hq => ?_, fun q chosen id fileId hq hid' hmem => ?_,
              fun session' fileId file token hs' hget htoken => ?_⟩
            · obtain rfl := Option.some.inj (hs'.symm.trans hses)
              rw [hsession] at hq ⊢
              obtain rfl := Option.some.inj hq
              rw [hserving, if_pos rfl]
              rfl
            · rw [hanswers] at hq
              have hne : q ≠ r := fun h => hnot (h ▸ hq)
              have hstored := hA.asked q hq
              unfold State.stored at hstored ⊢
              rw [htasks, LinkedMap.get?_insert_ne hne]
              exact hstored
            · rw [hanswers] at hq
              have hne : q ≠ r := fun h => hnot (LinkedMap.mem_keys.mpr ⟨_, h ▸ hq⟩)
              rw [hserving, if_neg hne] at hid'
              exact Or.inl (hA.answered q chosen id fileId hq hid' hmem)
            · obtain rfl := Option.some.inj (hs'.symm.trans hses)
              rw [hsession] at hget
              rw [newSession_token hget] at htoken
              cases htoken
        · cases hs
    | _ => exact absurd rfl he

theorem accounted_initial : Accounted platform (fun _ => False) State.initial where
  handler _ _ h := by cases h
  asked _ h := by cases h
  answered _ _ _ _ h := by cases h
  granted _ _ _ _ h := by cases h

/-! ## 3. Saving -/

/-- **What stands behind a save**: the checks, an acceptance of the file for this session, and the
    token made for it there. -/
structure Warranted (platform : Platform) (es : List Event) (s : State) (req : UploadRequest)
    (fileId : String) (session : ReceiveSessionState) : Prop where
  current : s.session = some session
  status : session.status = .sending ∨ session.status = .finishedWithErrors
  ip : session.sender.ip = some req.ip
  named : req.fileId = some fileId
  sessionId : req.v2 = true → req.sessionId = some session.sessionId
  selected : (controller platform).Past
    (fun a e b => selects platform session.sessionId fileId a e b = true) State.initial es
  token : ∃ token, req.token = some token ∧ (controller platform).Past
    (fun a e b => issues session.sessionId fileId token a e b = true) State.initial es

/-- **Nothing is saved that was not accepted**: in every run of the server in which an accepting
    answer is taken up while its own session (or none) is there, `saveFile` is called only with
    all of this behind it. -/
theorem saved_accepted (platform : Platform) (es : List Event) (s t : State)
    (h : (controller platform).Run ownDecision State.initial es s) (r : RequestId)
    (req : UploadRequest) (env : UploadEnv)
    (hs : (controller platform).step s (.upload r req env) = some t) (u : Upload)
    (hsave : t.tasks.get? r = some (.saving u)) :
    ∃ session, Warranted platform es s req u.fileId session := by
  have hA : Accounted platform (fun p => (controller platform).Past p State.initial es) s :=
    h.pastInvariant (I := Accounted platform) accounted_initial
      fun H t e u hA hg hs => accounted_step hA hg hs
  obtain ⟨session, hs, hpassed⟩ : ∃ session, s.session = some session ∧
      Passed session req u.fileId u.receivingFile := by
    rcases step_upload hs hsave rfl with ⟨old, hold, _⟩ | ⟨_, _, session, he, _, _, hg, _⟩
    · have hkey : r ∈ s.tasks.keys := LinkedMap.mem_keys.mpr ⟨old, hold⟩
      change step platform s (.upload r req env) = some t at hs
      rw [step, if_pos hkey] at hs
      cases hs
    · cases he
      exact ⟨session, uploadGuards_passed hg⟩
  obtain ⟨token, htoken⟩ := Option.isSome_iff_exists.mp hpassed.token.1
  obtain ⟨hsel, hiss, _⟩ := hA.granted session u.fileId u.receivingFile token hs hpassed.found
    (hpassed.token.2.trans htoken)
  have hstatus : session.status = .sending ∨ session.status = .finishedWithErrors := by
    have hallowed := hpassed.status
    cases hst : session.status with
    | sending => exact Or.inl rfl
    | finishedWithErrors => exact Or.inr rfl
    | _ =>
        rw [hst] at hallowed
        cases hallowed
  exact ⟨session, hs, hstatus, hpassed.ip.symm, hpassed.named, hpassed.sessionId, hsel, token,
    htoken, hiss⟩

/-! ## 4. An answer for another session -/

section Runs

/-- A session whose file the user accepts. -/
def decidedRun : List Event :=
  blockedRun ++ [.acceptFileRequest (.ofList [("f", "f.bin")]), .decided 0 ["t"]]

def fileUpload : Event :=
  .upload 2 ⟨"10.0.0.1", true, some "f", some "t", some "S"⟩ ⟨demoSettings, [], 7⟩

theorem saved_accepted_decidedRun :
    ∃ s t u, (controller demoPlatform).Run ownDecision State.initial decidedRun s ∧
      (controller demoPlatform).step s fileUpload = some t ∧
      t.tasks.get? 2 = some (.saving u) ∧ ∃ session, Warranted demoPlatform decidedRun s
        ⟨"10.0.0.1", true, some "f", some "t", some "S"⟩ u.fileId session := by
  let s := (((controller demoPlatform).guarded ownDecision).run State.initial decidedRun).getD
    .initial
  have hrun : (((controller demoPlatform).guarded ownDecision).run State.initial decidedRun).map id =
      some s := rfl
  obtain ⟨s', hs', rfl⟩ := Machine.run_observe_guarded hrun
  let t := ((controller demoPlatform).step s fileUpload).getD .initial
  have ht : (controller demoPlatform).step s fileUpload = some t := rfl
  have hsaving : ∃ u, t.tasks.get? 2 = some (.saving u) := ⟨_, rfl⟩
  obtain ⟨u, hu⟩ := hsaving
  exact ⟨s, t, u, hs', ht, hu, saved_accepted demoPlatform decidedRun s t hs' 2 _ _ ht u hu⟩

def trayPlatform : Platform := ⟨false, true, false⟩

/-- Two requests pass the check together (`session_replaced`). The page of the first is there when
    the second is stored, and the window is being shown for it; the user accepts, and closes the
    session. A third request is stored before the second handler wakes up with the answer. -/
def lateAnswerRun : List Event :=
  [.prepareUpload 0 demoRequest none, .prepareUpload 1 demoRequest none,
    .readBody 0 (some demoDto) demoSettings, .readBody 1 (some demoDto) demoSettings,
    .createSession 0 [] "/dl" "/tmp" "S" [], .shown 0, .createSession 1 [] "/dl" "/tmp" "S'" [],
    .acceptFileRequest (.ofList [("f", "f.bin")]), .closeSession,
    .prepareUpload 2 demoRequest none, .readBody 2 (some demoDto) demoSettings,
    .createSession 2 [] "/dl" "/tmp" "S''" [], .shown 1, .decided 1 ["t"]]

/-- **A file is saved that nobody accepted**: the answer for `S'` opens the session `S''`. -/
theorem saved_unaccepted :
    ∃ s t u session, (controller trayPlatform).Run Machine.anyStep State.initial lateAnswerRun s ∧
      (controller trayPlatform).step s
        (.upload 3 ⟨"10.0.0.1", false, some "f", some "t", none⟩ ⟨demoSettings, [], 7⟩) = some t ∧
      t.tasks.get? 3 = some (.saving u) ∧ s.session = some session ∧
      ¬ (controller trayPlatform).Past
        (fun a e b => selects trayPlatform session.sessionId u.fileId a e b = true)
        State.initial lateAnswerRun := by
  let s := ((controller trayPlatform).run State.initial lateAnswerRun).getD .initial
  have hrun : ((controller trayPlatform).run State.initial lateAnswerRun).map id = some s := rfl
  obtain ⟨s', hs', rfl⟩ := Machine.run_observe hrun
  exact ⟨s, _, _, _, hs', rfl, rfl, rfl, by decide⟩

end Runs

end LocalSend.Receive
