/-
  File:      LocalSend/Receive/Withdrawal.lean
  Subject:   A SESSION CANCELLED BY ITS SENDER stays cancelled until it is removed, and nothing is
             saved for it.

  * `Withdrawn` -- the session of an id, where it is there, is cancelled by the sender, and the id
    does not come back;
  * `unresumed` -- the guard of a step: no accepting answer is taken up while the session is there;
  * `withdrawn_iff` -- one step keeps the session withdrawn exactly then;
  * `savesFor` -- the step starts `saveFile` for the session; `withdrawn_saves` -- not while it is
    withdrawn;
  * **`cancellation_kept`** -- so for every run after the cancel. `cancelled_resumed`: the user
    accepts after the cancel.
-/
import LocalSend.Receive.Endgame

namespace LocalSend.Receive

open Lib

variable {platform : Platform} {s t : State} {e : Event} {r : RequestId} {id : String}

/-! ## 1. The guard -/

/-- The session of the id, where it is there, is cancelled by the sender. -/
def canceledIn (id : String) (s : State) : Prop :=
  ∀ session, s.session = some session → session.sessionId = id →
    session.status = .canceledBySender

/-- **The session is withdrawn**: it is cancelled where it is there, and its id was given out. -/
structure Withdrawn (id : String) (s : State) : Prop where
  known : id ∈ s.uuids
  canceled : canceledIn id s

/-- **The guard of a step**: no accepting answer is taken up while the session is there. -/
def unresumed (id : String) (s : State) : Event → Prop
  | .decided r _ =>
    (s.answers.get? r).any (fun answer => !refused answer) = true →
      s.session.map ReceiveSessionState.sessionId ≠ some id
  | _ => True

instance (id : String) (s : State) (e : Event) : Decidable (unresumed id s e) := by
  cases e <;> unfold unresumed <;> infer_instance

/-- **The step starts `saveFile`** for the session. -/
def savesFor (id : String) (_ : State) (e : Event) (t : State) : Bool :=
  match e with
  | .upload r _ _ =>
    match t.tasks.get? r with
    | some (.saving u) => decide (u.sessionId = id)
    | _ => false
  | _ => false

/-! ## 2. Steps -/

namespace ReceiveSessionState

variable {session : ReceiveSessionState}

theorem settled_canceled (h : session.status = .canceledBySender) (now : Int) :
    (session.settled now).status = .canceledBySender := by
  unfold settled
  rw [h]
  exact h

theorem caught_canceled (h : session.status = .canceledBySender) (fileId error : String)
    (now : Int) : (session.caught fileId error now).status = .canceledBySender := by
  unfold caught
  split
  · rename_i session' hfinished
    obtain ⟨_, _, rfl⟩ := fileFinished_some hfinished
    refine settled_canceled ?_ now
    exact h
  · exact h

theorem done_canceled (h : session.status = .canceledBySender) (fileId : String)
    (path : Option String) (gallery : Bool) :
    (session.done fileId path gallery).status = .canceledBySender := by
  unfold done
  rw [h]
  exact h

end ReceiveSessionState

/-- **Only an answer resumes a cancelled session.** -/
theorem canceled_step (hs : (controller platform).step s e = some t) (hopens : e.opens = false)
    (h : canceledIn id s) : canceledIn id t := by
  intro session' hsession' hid
  have hafter := step_session hs
  have hmap : ∀ f : ReceiveSessionState → ReceiveSessionState, t.session = s.session.map f →
      (∀ session, (f session).sessionId = session.sessionId) →
      (∀ session, session.status = .canceledBySender → (f session).status = .canceledBySender) →
      session'.status = .canceledBySender := by
    intro f hf hsame hkeeps
    rw [hf] at hsession'
    obtain ⟨session, hsession, rfl⟩ := Option.map_eq_some_iff.mp hsession'
    exact hkeeps session (h session hsession ((hsame session).symm.trans hid))
  cases e with
  | createSession _ _ _ _ _ _ | decided _ _ => cases hopens
  | delayedClose _ | closeSession | cancelSession =>
      rw [show t.session = none from hafter] at hsession'
      cases hsession'
  | upload r req env =>
      have hstart := hafter.trans (startUpload_session s r req env)
      cases hguards : uploadGuards s.session req with
      | error response =>
          rw [hguards] at hstart
          exact h session' (hstart.symm.trans hsession') hid
      | ok x =>
          -- the checks do not pass for a cancelled session
          obtain ⟨session, fileId, file⟩ := x
          obtain ⟨hsession, hpassed⟩ := uploadGuards_passed hguards
          have hgrants := startUpload_grants s r req env session' (hafter ▸ hsession')
          obtain ⟨old, hold, hsame⟩ := hgrants
          cases hsession.symm.trans hold
          have hstatus := h session hsession (hsame.sessionId.symm.trans hid)
          have hallowed := hpassed.status
          rw [hstatus] at hallowed
          cases hallowed
  | saved r result env =>
      obtain ⟨u, _, hafter⟩ := hafter
      cases result with
      | error error =>
          exact hmap _ hafter (fun session => (SameGrants.caught session _ _ _).sessionId)
            fun session hst => session.caught_canceled hst _ _ _
      | ok x =>
          exact hmap _ hafter (fun session => (SameGrants.done session _ _ _).sessionId)
            fun session hst => session.done_canceled hst _ _ _
  | recorded r result env =>
      obtain ⟨u, _, hafter⟩ := hafter
      cases result with
      | error error =>
          exact hmap _ hafter (fun session => (SameGrants.caught session _ _ _).sessionId)
            fun session hst => session.caught_canceled hst _ _ _
      | ok x =>
          exact hmap _ hafter (fun session => (SameGrants.settled session _).sessionId)
            fun session hst => session.settled_canceled hst _
  | cancel r req now =>
      rcases hafter with hafter | hafter
      · exact h session' (hafter ▸ hsession') hid
      · exact hmap _ hafter (fun _ => rfl) fun _ _ => rfl
  | setSessionDestinationDir _ | setSessionSaveToGallery _ =>
      exact hmap _ hafter (fun _ => rfl) fun _ hst => hst
  | _ => exact h session' ((show t.session = s.session from hafter) ▸ hsession') hid

/-- **One step** keeps the session withdrawn exactly where it does not resume it. -/
theorem withdrawn_iff (h : Withdrawn id s) (hs : (controller platform).step s e = some t) :
    canceledIn id t ↔ unresumed id s e := by
  cases e with
  | createSession r favorites defaultDir cacheDir sessionId tokens =>
      refine ⟨fun _ => trivial, fun _ session' hsession' hid => ?_⟩
      -- the session that is stored has a new id
      change step platform s (.createSession r favorites defaultDir cacheDir sessionId tokens) = _ at hs
      simp only [step] at hs
      split at hs
      · obtain ⟨hnew, session, hsession, ⟨_, hresume⟩ | ⟨_, hstored, _⟩⟩ := createSession_cases hs
        · rcases (resumeSelection_cases hresume).2.2 with ⟨_, hnone⟩ | ⟨_, hnone⟩ |
            ⟨old, chosen, hold, _, _, _, haccepted⟩
          · rw [hnone] at hsession'
            cases hsession'
          · rw [hnone] at hsession'
            cases hsession'
          · cases haccepted.symm.trans hsession'
            cases hold
            rw [hsession] at hid
            exact absurd h.known (hid ▸ hnew)
        · cases hstored.symm.trans hsession'
          rw [hsession] at hid
          exact absurd h.known (hid ▸ hnew)
      · cases hs
  | decided r tokens =>
      change step platform s (.decided r tokens) = some t at hs
      simp only [step] at hs
      split at hs
      · rename_i req sessionId selection _ hanswer
        simp only [unresumed, hanswer, Option.any_some]
        rcases (resumeSelection_cases hs).2.2 with ⟨hnone, hnone'⟩ | ⟨hrefused, hnone⟩ |
          ⟨session, chosen, hsession, _, hrefused, _, haccepted⟩
        · refine ⟨fun _ _ h => ?_, fun _ session hsession => ?_⟩
          · rw [hnone] at h
            cases h
          · rw [hnone'] at hsession
            cases hsession
        · refine ⟨fun _ h => ?_, fun _ session hsession => ?_⟩
          · rw [hrefused] at h
            cases h
          · rw [hnone] at hsession
            cases hsession
        · rw [hrefused, hsession, Option.map_some]
          constructor
          · intro ht _ hid
            have hstatus := ht _ haccepted (Option.some.inj hid)
            cases hstatus
          · intro hguard session' hsession' hid
            cases haccepted.symm.trans hsession'
            exact absurd (congrArg some hid) (hguard rfl)
      · cases hs
  | _ => exact ⟨fun _ => trivial, fun _ => canceled_step hs rfl h.canceled⟩

/-- **No upload of a withdrawn session passes its checks.** -/
theorem withdrawn_saves (h : Withdrawn id s) (hs : (controller platform).step s e = some t) :
    savesFor id s e t = false := by
  cases e with
  | upload r req env =>
      unfold savesFor
      dsimp only
      split
      · rename_i u hr
        rcases step_upload hs hr rfl with ⟨old, hold, _⟩ | ⟨_, _, session, _, _, _, hg, hu, _⟩
        · change step platform s (.upload r req env) = some t at hs
          rw [step, if_pos (LinkedMap.mem_keys.mpr ⟨old, hold⟩)] at hs
          cases hs
        · obtain ⟨hsession, hpassed⟩ := uploadGuards_passed hg
          rw [hu]
          refine decide_eq_false fun hid => ?_
          have hallowed := hpassed.status
          rw [h.canceled session hsession hid] at hallowed
          cases hallowed
      · rfl
  | _ => rfl

/-- The id is not given out again. -/
theorem withdrawn_step (h : Withdrawn id s) (hs : (controller platform).step s e = some t) :
    Withdrawn id t ↔ unresumed id s e := by
  rw [← withdrawn_iff h hs]
  exact ⟨fun ht => ht.canceled, fun ht => ⟨(step_effect hs).uuids id h.known, ht⟩⟩

/-! ## 3. Runs -/

/-- The id of a session was given out. -/
theorem session_known {es : List Event} (h : (controller platform).Run Machine.anyStep .initial es s)
    {session : ReceiveSessionState} (hsession : s.session = some session) :
    session.sessionId ∈ s.uuids := by
  have hcurrent : ∀ id keys, s.identity = some (id, keys) → id ∈ s.uuids :=
    h.invariant (I := fun s => ∀ id keys, s.identity = some (id, keys) → id ∈ s.uuids)
      inside_initial.current fun _ _ _ ht _ hs => current_step ht (step_effect hs)
  refine hcurrent session.sessionId session.files.keys ?_
  rw [State.identity, hsession]
  rfl

/-- **A cancelled session is not resumed**: once the sender has cancelled a session, it stays
    cancelled until it is removed and no save starts for it, if and only if no later step of the run
    takes up an accepting answer while it is there. -/
theorem cancellation_kept (platform : Platform) (es fs : List Event) (s t : State)
    (h : (controller platform).Run Machine.anyStep .initial es s) (session : ReceiveSessionState)
    (hsession : s.session = some session) (hstatus : session.status = .canceledBySender)
    (hrun : (controller platform).Run Machine.anyStep s fs t) :
    ((∀ gs u, gs <+: fs → (controller platform).Run Machine.anyStep s gs u →
        canceledIn session.sessionId u) ∧
      ¬ (controller platform).Past
        (fun a e b => savesFor session.sessionId a e b = true) s fs) ↔
    (controller platform).Run (unresumed session.sessionId) s fs t := by
  have hstart : Withdrawn session.sessionId s := by
    refine ⟨session_known h hsession, fun session' hsession' _ => ?_⟩
    cases hsession.symm.trans hsession'
    exact hstatus
  have hiff := hrun.invariant_iff hstart fun _ _ _ ht hs => withdrawn_step ht hs
  constructor
  · intro ⟨hcanceled, _⟩
    refine hiff.mp fun gs u hgs hu => ⟨?_, hcanceled gs u hgs hu⟩
    exact hu.invariant (I := fun u => session.sessionId ∈ u.uuids) hstart.known
      fun _ _ _ hknown _ hs => (step_effect hs).uuids _ hknown
  · intro hguarded
    refine ⟨fun gs u hgs hu => (hiff.mpr hguarded gs u hgs hu).canceled, ?_⟩
    refine (hguarded.pastInvariant (I := fun H u => Withdrawn session.sessionId u ∧
      ¬ H fun a e b => savesFor session.sessionId a e b = true) ⟨hstart, id⟩ ?_).2
    intro H u e v ⟨hu, hpast⟩ hg hs
    refine ⟨(withdrawn_step hu hs).mpr hg, fun hnow => ?_⟩
    rcases hnow with hnow | hnow
    · exact hpast hnow
    · rw [withdrawn_saves hu hs] at hnow
      cases hnow

/-- The sender cancels while the user is asked. -/
def withdrawnRun : List Event :=
  [.prepareUpload 0 demoRequest none, .readBody 0 (some demoDto) demoSettings,
    .createSession 0 [] "/dl" "/tmp" "S" [], .cancel 1 ⟨"10.0.0.1", true, none⟩ 7]

/-- The user declines, the session is removed, and the next request is accepted. -/
def nextRun : List Event :=
  [.declineFileRequest, .decided 0 [], .prepareUpload 2 demoRequest none,
    .readBody 2 (some demoDto) demoSettings, .createSession 2 [] "/dl" "/tmp" "S'" [],
    .acceptFileRequest (.ofList [("f", "f.bin")]), .decided 2 ["t"]]

theorem cancellation_kept_nextRun :
    ∃ s session t, (controller demoPlatform).Run Machine.anyStep .initial withdrawnRun s ∧
      s.session = some session ∧ session.status = .canceledBySender ∧
      (controller demoPlatform).Run Machine.anyStep s nextRun t ∧
      t.session.map ReceiveSessionState.status = some .sending ∧
      ¬ (controller demoPlatform).Past
        (fun a e b => savesFor session.sessionId a e b = true) s nextRun := by
  let s := ((controller demoPlatform).run .initial withdrawnRun).getD .initial
  have hrun : ((controller demoPlatform).run .initial withdrawnRun).map id = some s := rfl
  obtain ⟨s', hs', rfl⟩ := Machine.run_observe hrun
  let session := (newSession demoPlatform 0 demoRequest demoDto demoSettings [] "/dl" "/tmp"
    "S").cancelBySender 7
  have hsession : s.session = some session := rfl
  have hrun' : (((controller demoPlatform).guarded (unresumed "S")).run s nextRun).map
      (fun t => t.session.map ReceiveSessionState.status) = some (some .sending) := by
    decide
  obtain ⟨t, ht, hend⟩ := Machine.run_observe_guarded hrun'
  exact ⟨s, session, t, hs', hsession, rfl, ht.any, hend,
    ((cancellation_kept demoPlatform withdrawnRun nextRun s t hs' session hsession rfl
      ht.any).mpr ht).2⟩

/-- The answer is there before the page shows the cancel, and the sender uploads. -/
def resumedRun : List Event :=
  [.acceptFileRequest (.ofList [("f", "f.bin")]), .decided 0 ["t"],
    .upload 2 ⟨"10.0.0.1", true, some "f", some "t", some "S"⟩ ⟨demoSettings, [], 8⟩]

/-- **A cancelled session is resumed**, and a file is saved for it. -/
theorem cancelled_resumed :
    ∃ s session t, (controller demoPlatform).Run Machine.anyStep .initial withdrawnRun s ∧
      s.session = some session ∧ session.status = .canceledBySender ∧
      (controller demoPlatform).Run Machine.anyStep s resumedRun t ∧
      ¬ canceledIn session.sessionId t ∧
      (controller demoPlatform).Past
        (fun a e b => savesFor session.sessionId a e b = true) s resumedRun := by
  let s := ((controller demoPlatform).run .initial withdrawnRun).getD .initial
  have hrun : ((controller demoPlatform).run .initial withdrawnRun).map id = some s := rfl
  obtain ⟨s', hs', rfl⟩ := Machine.run_observe hrun
  let session := (newSession demoPlatform 0 demoRequest demoDto demoSettings [] "/dl" "/tmp"
    "S").cancelBySender 7
  have hsession : s.session = some session := rfl
  have hrun' : ((controller demoPlatform).run s resumedRun).map
      (fun t => t.session.map fun session => (session.sessionId, session.status)) =
      some (some ("S", .sending)) := by
    decide
  obtain ⟨t, ht, hend⟩ := Machine.run_observe hrun'
  obtain ⟨session', hsession', heq⟩ := Option.map_eq_some_iff.mp hend
  obtain ⟨hid, hsending⟩ := Prod.mk.inj heq
  refine ⟨s, session, t, hs', hsession, rfl, ht, fun hcanceled => ?_, by decide⟩
  rw [hcanceled session' hsession' hid] at hsending
  cases hsending

end LocalSend.Receive
