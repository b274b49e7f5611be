/-
  File:      LocalSend/Receive/Attended.lean
  Subject:   THE PENDING DECISION. A prepare-upload handler waits on its stream; the only reference
             to the stream is the one in the session.

  * `State.pending` -- the session that is there, and the stream the user's decision goes to;
    `pending_step` -- it stays, unless the step stores or ends a session, or answers;
  * `Attended` -- every handler that waits has its stream there;
  * `attentive` -- the guard of a step: what drops a session finds no handler that waits, and a
    handler that begins to wait finds its own session;
  * `attended_iff` -- one step keeps `Attended` exactly then;
  * **`decisions_attended`** -- so guarded runs keep it. `request_orphaned`: the sender cancels, the
    user closes the session, and the request is never answered.
-/
import LocalSend.Receive.Endgame

namespace LocalSend.Receive

open Lib

variable {platform : Platform} {s t : State} {e : Event} {r : RequestId}

/-! ## 1. The session and its stream -/

def ReceiveSessionState.pending (session : ReceiveSessionState) : String × Option RequestId :=
  (session.sessionId, session.responseHandler)

/-- The session that is there, with its stream. -/
def State.pending (s : State) : Option (String × Option RequestId) :=
  s.session.map ReceiveSessionState.pending

/-- The handler waits on its stream. -/
def Task.deciding? : Task → Option String
  | .deciding _ sessionId => some sessionId
  | _ => none

/-- **Every handler that waits on its stream belongs to the session that is there**, and its stream
    is the session's. -/
def Attended (s : State) : Prop :=
  ∀ r task id, s.tasks.get? r = some task → task.deciding? = some id →
    s.pending = some (id, some r)

/-- No handler waits. -/
def State.undecided (s : State) : Bool := s.tasks.values.all fun task => task.deciding?.isNone

/-- The session a handler is about to wait with. -/
def State.aboutToWait (s : State) (r : RequestId) : Option String :=
  match s.tasks.get? r with
  | some (.showing _ sessionId) =>
    if (s.session.bind ReceiveSessionState.message).isNone then some sessionId else none
  | some (.recordingMessage _ sessionId) => some sessionId
  | _ => none

/-- **The guard of a step.** -/
def attentive (s : State) : Event → Prop
  | .createSession _ _ _ _ _ _ | .closeSession | .cancelSession | .delayedClose _ =>
    s.undecided = true
  | .shown r | .messageRecorded r => ∀ id ∈ s.aboutToWait r, s.pending = some (id, some r)
  | _ => True

instance (s : State) : (e : Event) → Decidable (attentive s e)
  | .createSession _ _ _ _ _ _ => inferInstanceAs (Decidable (s.undecided = true))
  | .closeSession => inferInstanceAs (Decidable (s.undecided = true))
  | .cancelSession => inferInstanceAs (Decidable (s.undecided = true))
  | .delayedClose _ => inferInstanceAs (Decidable (s.undecided = true))
  | .shown r =>
    inferInstanceAs (Decidable (∀ id ∈ s.aboutToWait r, s.pending = some (id, some r)))
  | .messageRecorded r =>
    inferInstanceAs (Decidable (∀ id ∈ s.aboutToWait r, s.pending = some (id, some r)))
  | .prepareUpload _ _ _ | .readBody _ _ _ | .decided _ _ | .permitted _ | .upload _ _ _
  | .saved _ _ _ | .recorded _ _ _ | .cancel _ _ _ | .acceptFileRequest _ | .declineFileRequest
  | .setSessionDestinationDir _ | .setSessionSaveToGallery _ => inferInstanceAs (Decidable True)

/-! ## 2. Steps -/

/-- The steps that end the session, whatever it is. -/
def Event.ends : Event → Bool
  | .closeSession | .cancelSession | .delayedClose _ => true
  | _ => false

/-- The step leads a handler to its stream. -/
def Event.waits : Event → Bool
  | .shown _ | .messageRecorded _ => true
  | _ => false

theorem undecided_iff : s.undecided = true ↔
    ∀ r task, s.tasks.get? r = some task → task.deciding? = none := by
  unfold State.undecided
  rw [List.all_eq_true]
  constructor
  · intro h r task hr
    exact Option.isNone_iff_eq_none.mp (h task (LinkedMap.mem_values.mpr ⟨r, hr⟩))
  · intro h task htask
    obtain ⟨r, hr⟩ := LinkedMap.mem_values.mp htask
    exact Option.isNone_iff_eq_none.mpr (h r task hr)

theorem isReturn_deciding {task : Task} (h : task.isReturn = true) : task.deciding? = none := by
  cases task <;> first | rfl | cases h

/-- Where no handler waits, every one is attended. -/
theorem attended_of_undecided (h : s.undecided = true) : Attended s := fun r task id hr hid => by
  rw [undecided_iff.mp h r task hr] at hid
  cases hid

/-- **The stream stays**, unless the step stores or ends a session, or answers. -/
theorem pending_step (hs : (controller platform).step s e = some t) (hopens : e.opens = false)
    (hends : e.ends = false) : t.pending = s.pending := by
  have hsome : t.session.isSome = s.session.isSome := by
    have hafter := step_session hs
    cases e with
    | createSession _ _ _ _ _ _ | decided _ _ => cases hopens
    | delayedClose _ | closeSession | cancelSession => cases hends
    | upload r req env =>
        rw [show t.session = _ from hafter.trans (startUpload_session s r req env)]
        split
        · rfl
        · rename_i hguards
          rw [(uploadGuards_passed hguards).1]
          split <;> rfl
    | saved r result env | recorded r result env =>
        obtain ⟨u, _, hafter⟩ := hafter
        rw [hafter, Option.isSome_map]
    | cancel r req now =>
        rcases hafter with hafter | hafter
        · rw [hafter]
        · rw [hafter, Option.isSome_map]
    | setSessionDestinationDir _ | setSessionSaveToGallery _ =>
        rw [show t.session = _ from hafter, Option.isSome_map]
    | _ => rw [show t.session = _ from hafter]
  unfold State.pending
  cases ht : t.session with
  | none =>
      rw [ht] at hsome
      rw [Option.isNone_iff_eq_none.mp (Option.isSome_eq_false_iff.mp hsome.symm)]
  | some session' =>
      rcases step_follows hs hopens ht with ⟨session, hsession, hfollows⟩ |
        ⟨_, session, fileId, file, now, hbegins⟩
      · have horigin := hfollows.origin
        simp only [ReceiveSessionState.origin, Prod.mk.injEq] at horigin
        rw [hsession, Option.map_some, Option.map_some, ReceiveSessionState.pending,
          ReceiveSessionState.pending, horigin.1, horigin.2.2]
      · rw [hbegins.found]
        rw [Option.some.inj (ht.symm.trans hbegins.begun)]
        rfl

/-- A handler that waits was waiting, or the step led it to its stream. -/
theorem deciding_step (hs : (controller platform).step s e = some t) (hopens : e.opens = false)
    (hwaits : e.waits = false) {task : Task} {id : String} (hr : t.tasks.get? r = some task)
    (hid : task.deciding? = some id) : s.tasks.get? r = some task := by
  rcases step_task hs hr with hold | hnext
  · exact hold
  · cases hnext with
    | prepareUpload _ h =>
        rcases h with h | rfl
        · rw [isReturn_deciding h] at hid
          cases hid
        · cases hid
    | readBody _ h =>
        rcases h with h | ⟨_, rfl⟩
        · rw [isReturn_deciding h] at hid
          cases hid
        · cases hid
    | createSession _ _ | decided _ _ => cases hopens
    | shown _ _ | messageRecorded _ => cases hwaits
    | permitted _ | refused _ _ | cancel _ => cases hid
    | begun _ _ h => rcases h with ⟨_, rfl⟩ | ⟨_, ⟨_, rfl⟩ | rfl⟩ <;> cases hid
    | saved _ h => rcases h with ⟨_, rfl⟩ | rfl | ⟨_, rfl⟩ <;> cases hid
    | recorded _ h => rcases h with ⟨_, rfl⟩ | rfl <;> cases hid

/-- **The session after a decision** has no stream any more. -/
theorem resumeSelection_pending {v2 : Bool} {sessionId : String} {selection : Option Selection}
    {tokens : List String}
    (h : resumeSelection platform s r v2 sessionId selection tokens = some t) (q : RequestId)
    (id : String) : t.pending ≠ some (id, some q) := by
  intro hpending
  obtain ⟨session, hsession, hq⟩ := Option.map_eq_some_iff.mp hpending
  rcases (resumeSelection_cases h).2.2 with ⟨_, hnone⟩ | ⟨_, hnone⟩ |
    ⟨old, chosen, _, _, _, _, haccepted⟩
  · rw [hnone] at hsession
    cases hsession
  · rw [hnone] at hsession
    cases hsession
  · rw [haccepted] at hsession
    cases hsession
    cases hq

/-- The step that ends the session, whatever it is. -/
theorem attended_ends (hs : (controller platform).step s e = some t) (hends : e.ends = true) :
    Attended t ↔ s.undecided = true := by
  have hnone : t.pending = none := by
    have hafter := step_session hs
    cases e with
    | closeSession | cancelSession | delayedClose _ =>
        rw [State.pending, show t.session = none from hafter, Option.map_none]
    | _ => cases hends
  have htasks : t.tasks = s.tasks := by
    rcases step_next hs with h | ⟨_, _, _, hnext⟩
    · exact h
    · cases hnext <;> cases hends
  constructor
  · intro ht
    refine undecided_iff.mpr fun r task hr => ?_
    cases hid : task.deciding? with
    | none => rfl
    | some id =>
        have hpending := ht r task id (htasks ▸ hr) hid
        rw [hnone] at hpending
        cases hpending
  · intro h r task id hr hid
    rw [undecided_iff.mp h r task (htasks ▸ hr)] at hid
    cases hid

/-- **The store**: whoever waits besides loses its stream. -/
theorem attended_createSession {favorites : List Favorite}
    {defaultDir cacheDir sessionId : String} {tokens : List String}
    (hs : (controller platform).step s
      (.createSession r favorites defaultDir cacheDir sessionId tokens) = some t) :
    Attended t ↔ s.undecided = true := by
  change step platform s (.createSession r favorites defaultDir cacheDir sessionId tokens) = _ at hs
  simp only [step] at hs
  split at hs
  · rename_i req dto settings hr
    -- the handler alone may wait afterwards, and then with its own stream
    obtain ⟨task, htasks, hown, hother⟩ : ∃ task, t.tasks = s.tasks.insert r task ∧
        (∀ id, task.deciding? = some id → t.pending = some (id, some r)) ∧
        ∀ q id, q ≠ r → t.pending ≠ some (id, some q) := by
      obtain ⟨_, session, hnew, ⟨_, hresume⟩ | ⟨_, hsession, _, task, htasks, htask⟩⟩ :=
        createSession_cases hs
      · obtain ⟨⟨task, hreturn, htasks⟩, _⟩ := resumeSelection_cases hresume
        refine ⟨task, htasks, fun id hid => ?_, fun q id _ => resumeSelection_pending hresume q id⟩
        rw [isReturn_deciding hreturn] at hid
        cases hid
      · have hpending : t.pending = some (sessionId, some r) := by
          rw [State.pending, hsession, hnew]
          rfl
        refine ⟨task, htasks, fun id hid => ?_, fun q id hq hpending' => ?_⟩
        · cases task <;> cases hid
          cases htask
          exact hpending
        · cases hpending.symm.trans hpending'
          exact hq rfl
    constructor
    · intro ht
      refine undecided_iff.mpr fun q old hq => ?_
      cases hid : old.deciding? with
      | none => rfl
      | some id =>
          have hne : q ≠ r := by
            intro h
            subst h
            cases hr.symm.trans hq
            cases hid
          refine absurd (ht q old id ?_ hid) (hother q id hne)
          rw [htasks, LinkedMap.get?_insert_ne hne]
          exact hq
    · intro h q old id hq hid
      rw [htasks, LinkedMap.get?_insert] at hq
      split at hq
      · rename_i hqr
        cases hq
        rw [hqr]
        exact hown id hid
      · rw [undecided_iff.mp h q old hq] at hid
        cases hid
  · cases hs

/-- **The handler comes to its stream**, and finds its own session or not. -/
theorem attended_waits (h : Attended s) (hs : (controller platform).step s e = some t)
    (he : e = .shown r ∨ e = .messageRecorded r) :
    Attended t ↔ ∀ id ∈ s.aboutToWait r, s.pending = some (id, some r) := by
  -- the handler of `r` waits afterwards exactly with the session it was about to wait with
  obtain ⟨hpending, task, htasks, htask⟩ : t.pending = s.pending ∧ ∃ task,
      t.tasks = s.tasks.insert r task ∧ task.deciding? = s.aboutToWait r := by
    rcases he with rfl | rfl
    · change step platform s (.shown r) = _ at hs
      simp only [step] at hs
      split at hs
      · rename_i req id hr
        cases hs
        unfold afterShown State.aboutToWait
        rw [hr]
        cases s.session.bind ReceiveSessionState.message with
        | none => exact ⟨rfl, _, rfl, rfl⟩
        | some message => exact ⟨rfl, _, rfl, rfl⟩
      · cases hs
    · change step platform s (.messageRecorded r) = _ at hs
      simp only [step] at hs
      split at hs
      · rename_i req id hr
        cases hs
        unfold State.aboutToWait
        rw [hr]
        exact ⟨rfl, _, rfl, rfl⟩
      · cases hs
  constructor
  · intro ht id hid
    rw [← hpending]
    refine ht r task id ?_ (htask.trans hid)
    rw [htasks]
    exact LinkedMap.get?_insert_self
  · intro hown q old id hq hid
    rw [hpending]
    rw [htasks, LinkedMap.get?_insert] at hq
    split at hq
    · rename_i hqr
      cases hq
      rw [hqr]
      exact hown id (htask.symm.trans hid)
    · exact h q old id hq hid

/-- The answer is taken up: the handler alone was waiting. -/
theorem attended_decided (h : Attended s) {tokens : List String}
    (hs : (controller platform).step s (.decided r tokens) = some t) : Attended t := by
  change step platform s (.decided r tokens) = _ at hs
  simp only [step] at hs
  split at hs
  · rename_i req sessionId selection hr _
    obtain ⟨⟨task, hreturn, htasks⟩, _⟩ := resumeSelection_cases hs
    intro q old id hq hid
    rw [htasks, LinkedMap.get?_insert] at hq
    split at hq
    · cases hq
      rw [isReturn_deciding hreturn] at hid
      cases hid
    · rename_i hne
      have hpending := (h r _ sessionId hr rfl).symm.trans (h q old id hq hid)
      cases hpending
      exact absurd rfl hne
  · cases hs

/-- **One step** keeps every waiting handler attended exactly where it meets the guard. -/
theorem attended_iff (h : Attended s) (hs : (controller platform).step s e = some t) :
    Attended t ↔ attentive s e := by
  have hquiet : e.opens = false → e.ends = false → e.waits = false → Attended t := by
    intro hopens hends hwaits r task id hr hid
    rw [pending_step hs hopens hends]
    exact h r task id (deciding_step hs hopens hwaits hr hid) hid
  cases e with
  | createSession _ _ _ _ _ _ => exact attended_createSession hs
  | closeSession | cancelSession | delayedClose _ => exact attended_ends hs rfl
  | shown r => exact attended_waits h hs (Or.inl rfl)
  | messageRecorded r => exact attended_waits h hs (Or.inr rfl)
  | decided r tokens => exact ⟨fun _ => trivial, fun _ => attended_decided h hs⟩
  | _ => exact ⟨fun _ => trivial, fun _ => hquiet rfl rfl rfl⟩

/-! ## 3. Runs -/

/-- **No orphaned prepare-upload**: in every state of a run each handler that waits on its stream
    belongs to the session that is there, and its stream is the session's, if and only if every
    step of the run meets the guard. -/
theorem decisions_attended (platform : Platform) (es : List Event) (s : State)
    (h : (controller platform).Run Machine.anyStep .initial es s) :
    (∀ fs t, fs <+: es → (controller platform).Run Machine.anyStep .initial fs t → Attended t) ↔
      (controller platform).Run attentive .initial es s :=
  h.invariant_iff (attended_of_undecided rfl) fun _ _ _ => attended_iff

/-- A request is declined, and the next one waits. -/
def declinedRun : List Event :=
  [.prepareUpload 0 demoRequest none, .readBody 0 (some demoDto) demoSettings,
    .createSession 0 [] "/dl" "/tmp" "S" [], .declineFileRequest, .decided 0 [],
    .prepareUpload 1 demoRequest none, .readBody 1 (some demoDto) demoSettings,
    .createSession 1 [] "/dl" "/tmp" "S'" []]

theorem decisions_attended_declinedRun :
    ∃ s, (controller demoPlatform).Run Machine.anyStep .initial declinedRun s ∧
      s.tasks.get? 1 = some (.deciding demoRequest "S'") ∧ s.pending = some ("S'", some 1) ∧
      ∀ fs t, fs <+: declinedRun →
        (controller demoPlatform).Run Machine.anyStep .initial fs t → Attended t := by
  have hrun : (((controller demoPlatform).guarded attentive).run .initial declinedRun).map
      (fun s => (s.tasks.get? 1, s.pending)) =
      some (some (.deciding demoRequest "S'"), some ("S'", some 1)) := by
    decide
  obtain ⟨s, hs, hend⟩ := Machine.run_observe_guarded hrun
  obtain ⟨htask, hpending⟩ := Prod.mk.inj hend
  exact ⟨s, hs.any, htask, hpending, (decisions_attended demoPlatform declinedRun s hs.any).mpr hs⟩

/-- The sender cancels while the user is asked, and the user closes the session. -/
def orphanRun : List Event :=
  [.prepareUpload 0 demoRequest none, .readBody 0 (some demoDto) demoSettings,
    .createSession 0 [] "/dl" "/tmp" "S" [], .cancel 1 ⟨"10.0.0.1", true, none⟩ 7, .closeSession]

/-- **A request that nobody can answer**: its handler waits, and there is no session. -/
theorem request_orphaned :
    ∃ s, (controller demoPlatform).Run Machine.anyStep .initial orphanRun s ∧ ¬ Attended s := by
  have hrun : ((controller demoPlatform).run .initial orphanRun).map
      (fun s => (s.tasks.get? 0, s.pending)) = some (some (.deciding demoRequest "S"), none) := by
    decide
  obtain ⟨s, hs, hend⟩ := Machine.run_observe hrun
  obtain ⟨htask, hpending⟩ := Prod.mk.inj hend
  refine ⟨s, hs, fun hattended => ?_⟩
  rw [hattended 0 _ "S" htask rfl] at hpending
  cases hpending

end LocalSend.Receive
