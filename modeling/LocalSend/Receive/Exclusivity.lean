/-
  File:      LocalSend/Receive/Exclusivity.lean
  Subject:   ONE RECEIVE SESSION AT A TIME.

  `_prepareUploadHandler` looks whether a session is there before its first await, and stores its
  own after three more of them without looking again; a refused handler and a delayed close end
  whatever session is there when they run.

  * `session_replaced` -- two requests that both pass the check: the second store replaces the
    first session;
  * `exclusive` -- the guard of a step: no request passes the check while another one is between
    its check and its store, and the late closes run only while their own session, or none, is
    there;
  * `session_exclusive` -- in runs of such steps a session stays until it is closed itself.
-/
import LocalSend.Receive.Effects

namespace LocalSend.Receive

open Lib

variable {platform : Platform} {s t : State} {e : Event} {r : RequestId}

/-! ## 1. The guard -/

/-- **The guard of a step.** -/
def exclusive (s : State) : Event → Prop
  | .prepareUpload _ req pin =>
    s.session.isNone = true → (checkPin s.pinAttempts req.ip pin req.pin).2 = none →
      ∀ x ∈ s.tasks.entries, x.2.beforeStore = false
  | .decided r _ =>
    (s.answers.get? r).any refused = true → ∀ session ∈ s.session,
      (s.tasks.get? r).bind Task.sessionId? = some session.sessionId
  | .delayedClose r => ∀ session ∈ s.session, s.closing.lookup r = some session.sessionId
  | _ => True

instance (s : State) : (e : Event) → Decidable (exclusive s e)
  | .prepareUpload _ req pin =>
    inferInstanceAs (Decidable (s.session.isNone = true →
      (checkPin s.pinAttempts req.ip pin req.pin).2 = none → ∀ x ∈ s.tasks.entries, _ = false))
  | .decided r _ =>
    inferInstanceAs (Decidable ((s.answers.get? r).any refused = true → ∀ session ∈ s.session,
      (s.tasks.get? r).bind Task.sessionId? = some session.sessionId))
  | .delayedClose r =>
    inferInstanceAs (Decidable (∀ session ∈ s.session,
      s.closing.lookup r = some session.sessionId))
  | .readBody _ _ _ | .createSession _ _ _ _ _ _ | .shown _ | .messageRecorded _ | .permitted _
  | .upload _ _ _ | .saved _ _ _ | .recorded _ _ _ | .cancel _ _ _ | .acceptFileRequest _
  | .declineFileRequest | .closeSession | .cancelSession | .setSessionDestinationDir _
  | .setSessionSaveToGallery _ => inferInstanceAs (Decidable True)

/-! ## 2. The invariant -/

/-- **The window** between check and store: whoever is in it is alone there, and no session is
    stored. -/
def Window (s : State) : Prop :=
  ∀ r task, s.tasks.get? r = some task → task.beforeStore = true →
    s.session = none ∧ ∀ r' task', s.tasks.get? r' = some task' → task'.beforeStore = true → r' = r

theorem afterStore_not_before {task : Task} (h : task.afterStore = true) :
    task.beforeStore = false := by
  cases task <;> first | rfl | cases h

theorem session_of_identity (h : t.identity = s.identity) (hs : s.session = none) :
    t.session = none := by
  rw [State.identity, State.identity, hs] at h
  simpa using h

/-- In the window a step finds nothing to store over, and closes nothing but nothing. -/
theorem window_session (hW : Window s) (heff : Effect s t e) {task : Task}
    (hr : t.tasks.get? r = some task) (hb : task.beforeStore = true)
    (hs : s.session = none) : t.session = none := by
  rcases heff.identity with hid | ⟨hnone, _⟩ | ⟨r0, req, dto, settings, favorites, defaultDir,
    cacheDir, sessionId, tokens, _, hr0, ⟨task0, htasks, hafter⟩, _, _, _⟩
  · exact session_of_identity hid hs
  · exact hnone
  · -- the store empties the window
    rw [htasks, LinkedMap.get?_insert] at hr
    split at hr
    · obtain rfl := Option.some.inj hr
      rw [afterStore_not_before hafter] at hb
      cases hb
    · rename_i hne
      exact absurd ((hW r0 _ hr0 rfl).2 r task hr hb) hne

theorem window_step (hW : Window s) (hg : exclusive s e) (heff : Effect s t e) : Window t := by
  -- the window after the step: as before it, or the request that just arrived in an empty one
  have hback : ∀ r task, t.tasks.get? r = some task → task.beforeStore = true →
      (∃ task', s.tasks.get? r = some task' ∧ task'.beforeStore = true) ∨
      (s.session = none ∧ ∀ r' task', s.tasks.get? r' = some task' → task'.beforeStore = false) := by
    intro r task hr hb
    rcases heff.tasks with htasks | ⟨r0, task0, htasks, hmove⟩
    · rw [htasks] at hr
      exact Or.inl ⟨task, hr, hb⟩
    · rw [htasks, LinkedMap.get?_insert] at hr
      split at hr
      · rename_i hrr
        subst hrr
        obtain rfl := Option.some.inj hr
        cases hmove with
        | returned _ h => rw [afterStore_not_before (isReturn_afterStore h)] at hb; cases hb
        | reading req pin he hnone hpin =>
            subst he
            refine Or.inr ⟨hnone, fun r' task' hr' => ?_⟩
            exact hg (by rw [hnone]; rfl) hpin (r', task') (LinkedMap.get?_mem hr')
        | locating req dto settings hr0 => exact Or.inl ⟨_, hr0, rfl⟩
        | stored _ h => rw [afterStore_not_before h] at hb; cases hb
        | saving u keys hid hkey => cases hb
        | recording u hr0 => cases hb
        | crashed task u session hr0 hu hs hno he hw => cases hb
      · exact Or.inl ⟨task, hr, hb⟩
  intro r task hr hb
  have hsession : s.session = none := by
    rcases hback r task hr hb with ⟨task', hr', hb'⟩ | ⟨hnone, _⟩
    · exact (hW r task' hr' hb').1
    · exact hnone
  refine ⟨window_session hW heff hr hb hsession, fun r' task' hr' hb' => ?_⟩
  rcases hback r task hr hb with ⟨task1, hr1, hb1⟩ | ⟨_, hempty⟩
  · rcases hback r' task' hr' hb' with ⟨task2, hr2, hb2⟩ | ⟨_, hempty⟩
    · exact (hW r task1 hr1 hb1).2 r' task2 hr2 hb2
    · rw [hempty r task1 hr1] at hb1
      cases hb1
  · -- the window was empty, so both are the task that moved
    rcases heff.tasks with htasks | ⟨r0, task0, htasks, _⟩
    · rw [htasks] at hr
      rw [hempty r task hr] at hb
      cases hb
    · have hself : ∀ q tq, t.tasks.get? q = some tq → tq.beforeStore = true → q = r0 := by
        intro q tq hq hbq
        rw [htasks, LinkedMap.get?_insert] at hq
        split at hq
        · assumption
        · rw [hempty q tq hq] at hbq
          cases hbq
      rw [hself r task hr hb, hself r' task' hr' hb']

theorem window_run {es : List Event} {G : State → Event → Prop}
    (hG : ∀ s e, G s e → exclusive s e) (hW : Window s) (h : (controller platform).Run G s es t) :
    Window t :=
  h.invariant hW fun _ _ _ hW hg hs => window_step hW (hG _ _ hg) (step_effect hs)

theorem window_initial : Window State.initial := fun _ _ h => by cases h

/-! ## 3. A session stays until it is closed -/

/-- **One step**: the session stays, or the step closes this very session. -/
theorem kept_step (hW : Window s) (hg : exclusive s e) (heff : Effect s t e)
    {session : ReceiveSessionState} (hs : s.session = some session)
    (hno : ¬ closes s e session.sessionId) :
    ∃ session', t.session = some session' ∧ session'.sessionId = session.sessionId := by
  rcases heff.identity with hid | ⟨hnone, id, hclose⟩ | ⟨r0, req, dto, settings, favorites,
    defaultDir, cacheDir, sessionId, tokens, _, hr0, _⟩
  · have hid' : t.identity = some (session.sessionId, session.files.keys) := by
      rw [hid, State.identity, hs]
      rfl
    obtain ⟨session', hs', heq⟩ := Option.map_eq_some_iff.mp hid'
    exact ⟨session', hs', (Prod.mk.inj heq).1⟩
  · -- a late close runs only while its own session is there
    have hid : id = session.sessionId := by
      cases e with
      | closeSession => simpa [closes, hs] using hclose.symm
      | cancelSession => simpa [closes, hs] using hclose.symm
      | decided r tokens =>
          have hown := hg hclose.2 session hs
          exact Option.some.inj (hclose.1.symm.trans hown)
      | delayedClose r => exact Option.some.inj (hclose.symm.trans (hg session hs))
      | _ => cases hclose
    exact absurd (hid ▸ hclose) hno
  · rw [(hW r0 _ hr0 rfl).1] at hs
    cases hs

/-- **Exclusivity**: once a session is stored, it stays the session of the server through every
    run that does not close it. -/
theorem session_exclusive (platform : Platform) (es fs : List Event) (s t : State)
    (h : (controller platform).Run exclusive State.initial es s) (session : ReceiveSessionState)
    (hs : s.session = some session)
    (h' : (controller platform).Run (fun s e => exclusive s e ∧ ¬ closes s e session.sessionId)
      s fs t) :
    ∃ session', t.session = some session' ∧ session'.sessionId = session.sessionId := by
  have hW : Window s := window_run (fun _ _ hg => hg) window_initial h
  have hinv : Window t ∧
      ∃ session', t.session = some session' ∧ session'.sessionId = session.sessionId := by
    refine h'.invariant (I := fun t => Window t ∧
      ∃ session', t.session = some session' ∧ session'.sessionId = session.sessionId)
      ⟨hW, session, hs, rfl⟩ ?_
    rintro u e v ⟨hWu, session', hs', hid⟩ ⟨hg, hno⟩ hstep
    have heff := step_effect hstep
    refine ⟨window_step hWu hg heff, ?_⟩
    rw [← hid] at hno ⊢
    exact kept_step hWu hg heff hs' hno
  exact hinv.2

/-! ## 4. Two requests -/

section Runs

def demoPlatform : Platform := ⟨false, false, false⟩

def demoSettings : Settings := ⟨some "/dl", false, false, false⟩

def demoRequest : PrepareRequest := ⟨"10.0.0.1", 53317, false, true, none⟩

def demoDto : PrepareUploadRequestDto :=
  ⟨⟨"a", none, none, none, none, none, none, none⟩,
    .ofList [("f", ⟨"f", "f.bin", 1, .other, none⟩)]⟩

/-- The first request is stored, the second one is blocked, and the file is accepted. -/
def blockedRun : List Event :=
  [.prepareUpload 0 demoRequest none, .readBody 0 (some demoDto) demoSettings,
    .createSession 0 [] "/dl" "/tmp" "S" []]

def acceptedRun : List Event :=
  [.prepareUpload 1 demoRequest none, .acceptFileRequest (.ofList [("f", "f.bin")]),
    .decided 0 ["t"], .upload 2 ⟨"10.0.0.1", true, some "f", some "t", some "S"⟩ ⟨demoSettings, [], 7⟩,
    .saved 2 (.ok (false, some "/dl/f.bin")) ⟨demoSettings, [], 8⟩,
    .recorded 2 (.ok ()) ⟨demoSettings, [], 9⟩]

theorem session_exclusive_blockedRun :
    ∃ s session t, (controller demoPlatform).Run exclusive State.initial blockedRun s ∧
      s.session = some session ∧ session.sessionId = "S" ∧
      (controller demoPlatform).Run (fun s e => exclusive s e ∧ ¬ closes s e session.sessionId)
        s acceptedRun t ∧
      ∃ session', t.session = some session' ∧ session'.sessionId = session.sessionId := by
  let s := (((controller demoPlatform).guarded exclusive).run State.initial blockedRun).getD .initial
  have hrun : (((controller demoPlatform).guarded exclusive).run State.initial blockedRun).map id =
      some s := rfl
  obtain ⟨s', hs', rfl⟩ := Machine.run_observe_guarded hrun
  let session := newSession demoPlatform 0 demoRequest demoDto demoSettings [] "/dl" "/tmp" "S"
  have hsession : s.session = some session := rfl
  have hrun' : (((controller demoPlatform).guarded
      (fun s e => exclusive s e ∧ ¬ closes s e session.sessionId)).run s acceptedRun).map
      (fun t => t.session.map ReceiveSessionState.status) = some (some .finished) := by decide
  obtain ⟨t, ht, _⟩ := Machine.run_observe_guarded hrun'
  exact ⟨s, session, t, hs', hsession, rfl, ht,
    session_exclusive demoPlatform blockedRun acceptedRun s t hs' session hsession ht⟩

/-- Both requests pass the check before either is stored. -/
def doubleRun : List Event :=
  [.prepareUpload 0 demoRequest none, .prepareUpload 1 demoRequest none,
    .readBody 0 (some demoDto) demoSettings, .readBody 1 (some demoDto) demoSettings,
    .createSession 0 [] "/dl" "/tmp" "S" []]

/-- **A session is replaced**: the second store comes over the first session, which nothing
    closed. -/
theorem session_replaced :
    ∃ s session t session', (controller demoPlatform).Run Machine.anyStep State.initial doubleRun s ∧
      s.session = some session ∧
      (controller demoPlatform).Run (fun s e => ¬ closes s e session.sessionId)
        s [.createSession 1 [] "/dl" "/tmp" "S'" []] t ∧
      t.session = some session' ∧ session'.sessionId ≠ session.sessionId := by
  let s := ((controller demoPlatform).run State.initial doubleRun).getD .initial
  have hrun : ((controller demoPlatform).run State.initial doubleRun).map id = some s := rfl
  obtain ⟨s', hs', rfl⟩ := Machine.run_observe hrun
  let session := newSession demoPlatform 0 demoRequest demoDto demoSettings [] "/dl" "/tmp" "S"
  let session' := newSession demoPlatform 1 demoRequest demoDto demoSettings [] "/dl" "/tmp" "S'"
  have hrun' : (((controller demoPlatform).guarded
      (fun s e => ¬ closes s e session.sessionId)).run s
        [.createSession 1 [] "/dl" "/tmp" "S'" []]).map State.session = some (some session') := rfl
  obtain ⟨t, ht, hobs⟩ := Machine.run_observe_guarded hrun'
  exact ⟨s, session, t, session', hs', rfl, ht, hobs, by decide⟩

end Runs

end LocalSend.Receive
