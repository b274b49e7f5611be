/-
  File:      LocalSend/Send/Ownership.lean
  Subject:   WHO OWNS A RUNNING UPLOAD. Tasks are tracked in the record of their session only.

  * `Halted` -- a session that was cancelled; `halted_turn` -- no turn takes it out of this, and
    none dispatches a task for it;
  * `cancellation_final` -- **a cancellation is complete and final**;
  * `Owned` -- every upload in flight has got a cancel or its session is still there;
  * `tidy` -- no session is closed under a running upload; `uploads_owned` -- **in such runs no
    upload is orphaned**; `upload_orphaned` -- the other runs.
-/
import LocalSend.Send.Invariant

namespace LocalSend.SendSession

open Lib

/-! ## 1. Cancellation -/

section Cancellation

variable {n : TaskId} {k : String} {v w : View} {s t : State} {e : Event}

/-- A session that is gone, or that the receiver has cancelled. -/
structure Halted (v : View) : Prop where
  flow : v.flow ≠ none
  status : ∀ x, v.session = some x → x.status = .canceledByReceiver
  begun : v.session ≠ none → ∀ flow, v.flow = some flow → flow.isHandshake = false

/-- A session that is gone is halted. -/
theorem Halted.gone {flow : Option Flow} {ups : TaskId → Option Upload} (h : flow ≠ none) :
    Halted ⟨none, flow, ups⟩ where
  flow := h
  status x hx := by cases hx
  begun hne := absurd rfl hne

/-- `_finish` leaves a cancelled session as it is. -/
theorem finish_canceled {x y : SendSessionState} (h : x.status = .canceledByReceiver) {now : Int}
    (hy : x.finish now = some y) : y.status = .canceledByReceiver := by
  have hne : x.status ≠ .sending := by
    rw [h]
    decide
  rw [SendSessionState.finish, if_pos hne] at hy
  exact Option.some.inj hy ▸ h

theorem afterUpload_canceled {x y : SendSessionState} (h : x.status = .canceledByReceiver)
    {u : Upload} {id : TaskId} {error : Option String} {now : Int}
    (hy : x.afterUpload u id error now = some y) : y.status = .canceledByReceiver := by
  have hup : (x.uploaded u.action.fileId (u.task id) error).status = .canceledByReceiver := h
  unfold SendSessionState.afterUpload at hy
  simp only at hy
  split at hy
  · exact finish_canceled hup hy
  · exact Option.some.inj hy ▸ hup

/-- **A halted session stays halted**: no new task, and once gone it does not come back. -/
theorem halted_turn (h : Halted v) (ht : Turn n k v e w) :
    Halted w ∧ (∀ id u, w.uploads id = some u → v.uploads id = some u) ∧
    (v.session = none → w.session = none) := by
  cases ht with
  | other => exact ⟨h, fun _ _ hu => hu, id⟩
  | created => exact absurd rfl h.flow
  | passed _ x ups flow flow' hflow hflow' =>
      have hx : x = none := by
        cases x with
        | none => rfl
        | some x =>
            have hno := h.begun (Option.some_ne_none _) flow rfl
            rw [hflow] at hno
            cases hno
      subst hx
      exact ⟨.gone (Option.some_ne_none _), fun _ _ hu => hu, id⟩
  | refused _ x ups flow status message hflow _ | empty _ x ups flow hflow =>
      have hno := h.begun (Option.some_ne_none _) flow rfl
      rw [hflow] at hno
      cases hno
  | opened reply now x y ups submission remote fileMap hy => cases h.begun (Option.some_ne_none _) _ rfl
  | left index x ups workers hnext =>
      refine ⟨⟨Option.some_ne_none _, h.status, fun _ flow hflow => ?_⟩, fun _ _ hu => hu, id⟩
      obtain rfl := Option.some.inj hflow
      rfl
  | skipped index x ups file queue workers hnext hsends =>
      refine ⟨⟨Option.some_ne_none _, h.status, fun _ flow hflow => ?_⟩, fun _ _ hu => hu, id⟩
      obtain rfl := Option.some.inj hflow
      rfl
  | sent index x ups file queue workers token hnext hallowed htoken
  | retried x flow ups file token hallowed htoken hfile hfailed =>
      rw [h.status x rfl] at hallowed
      cases hallowed
  | uploaded id error now x flow ups u hu =>
      refine ⟨⟨?_, fun y hy => ?_, fun hne fl hfl => ?_⟩, fun id' u' hu' => ?_, fun hx => ?_⟩
      · exact fun hnone => h.flow (Option.map_eq_none_iff.mp hnone)
      · obtain ⟨z, rfl, hz⟩ := Option.bind_eq_some_iff.mp hy
        exact afterUpload_canceled (h.status z rfl) hz
      · obtain ⟨fl', rfl, rfl⟩ := Option.map_eq_some_iff.mp hfl
        have hx : x ≠ none := by
          intro hx
          subst hx
          exact hne rfl
        have hno := h.begun hx fl' rfl
        cases fl' with
        | sending queue workers =>
            unfold Flow.afterUpload
            simp only
            split <;> rfl
        | _ => exact hno
      · by_cases hid : id' = id
        · subst hid
          simp at hu'
        · simpa [Function.update_of_ne hid] using hu'
      · obtain rfl : x = none := hx
        rfl
  | ended now x ups queue workers hall =>
      refine ⟨⟨Option.some_ne_none _, fun y hy => ?_, fun _ flow hflow => ?_⟩, fun _ _ hu => hu, fun hx => ?_⟩
      · obtain ⟨z, rfl, hz⟩ := Option.bind_eq_some_iff.mp hy
        exact finish_canceled (h.status z rfl) hz
      · obtain rfl := Option.some.inj hflow
        rfl
      · obtain rfl : x = none := hx
        rfl
  | closed _ x flow ups he =>
      exact ⟨.gone h.flow, fun _ _ hu => hu, fun _ => rfl⟩
  | canceled now x flow ups hstatus =>
      have hcanceled := h.status x rfl
      rw [hstatus] at hcanceled
      cases hcanceled
  | background b x flow ups =>
      refine ⟨⟨h.flow, fun y hy => ?_, fun _ fl hfl => h.begun (Option.some_ne_none _) fl hfl⟩, fun _ _ hu => hu,
        fun hx => absurd hx (Option.some_ne_none _)⟩
      obtain rfl := Option.some.inj hy
      exact h.status x rfl

/-- The cancel actions of `cancelSession` and `cancelSessionByReceiver`, and what is left. -/
theorem cancel_step (he : e = .cancelSession k ∨ ∃ now, e = .cancelSessionByReceiver k now)
    (hs : service.step s e = some t) :
    ∃ x, s.sessions.get? k = some x ∧ t.cancelled = x.sendingTasks ++ s.cancelled ∧
      t.flows = s.flows ∧ (e = .cancelSession k ∧ t.sessions.get? k = none ∨
        x.status = .sending ∧ ∃ now, e = .cancelSessionByReceiver k now ∧ t.sessions.get? k =
          some { x with status := .canceledByReceiver, endTime := some now }) := by
  rcases he with rfl | ⟨now, rfl⟩
  · simp only [service, step, cancelSession] at hs
    split at hs
    · rename_i x hx
      simp only [hx] at hs
      cases hs
      refine ⟨x, hx, rfl, rfl, Or.inl ⟨rfl, ?_⟩⟩
      simp [State.closeSession, LinkedMap.get?_erase]
    · cases hs
  · simp only [service, step, cancelSessionByReceiver] at hs
    split at hs
    · rename_i x hx
      split at hs
      · rename_i hstatus
        simp only [hx] at hs
        cases hs
        exact ⟨x, hx, rfl, rfl, Or.inr ⟨hstatus, now, rfl, LinkedMap.get?_insert_self⟩⟩
      · cases hs
    · cases hs

/-- A step that dispatches an upload task for the session `k`. -/
def dispatches (k : String) (s : State) (_ : Event) (t : State) : Prop :=
  ∃ task ∈ t.uploads.entries, task ∉ s.uploads.entries ∧ task.2.sessionId = k

/-- A halted session over a run. -/
theorem halted_run {fs : List Event} {u : State} (hK : Known t) (h : Halted (t.view k))
    (hrun : service.Run Machine.anyStep t fs u) :
    ¬ service.Past (dispatches k) t fs ∧ Halted (u.view k) ∧
    (t.sessions.get? k = none → u.sessions.get? k = none) := by
  have hI : (¬ service.Past (dispatches k) t fs ∧ Halted (u.view k) ∧
      (t.sessions.get? k = none → u.sessions.get? k = none)) ∧ Known u := by
    refine hrun.pastInvariant (I := fun H a => (¬ H (dispatches k) ∧ Halted (a.view k) ∧
      (t.sessions.get? k = none → a.sessions.get? k = none)) ∧ Known a) ⟨⟨id, h, id⟩, hK⟩ ?_
    intro H a f b ⟨⟨hno, hhalted, hgone⟩, hKa⟩ _ hs
    obtain ⟨hhalted', hups, hgone'⟩ := halted_turn hhalted (step_turn hKa hs k)
    refine ⟨⟨?_, hhalted', fun ht => hgone' (hgone ht)⟩, known_step hKa hs⟩
    rintro (hpast | ⟨⟨id, v⟩, hmem, hnew, hv⟩)
    · exact hno hpast
    · have hold := hups id v (uploadsOf_eq_some.mpr ⟨LinkedMap.get?_of_mem hmem, hv⟩)
      exact hnew (LinkedMap.get?_mem (uploadsOf_eq_some.mp hold).1)
  exact hI.1

/-- **A cancellation is complete and final**, whatever happens before and after it: every upload
    of the session in flight gets a cancel action, none is dispatched for it again, and the
    session is gone for good, or stays cancelled by the receiver until it is gone. -/
theorem cancellation_final (es fs : List Event) (s t u : State) (k : String) (e : Event)
    (hrun : service.Run Machine.anyStep State.initial es s)
    (he : e = .cancelSession k ∨ ∃ now, e = .cancelSessionByReceiver k now)
    (hs : service.step s e = some t) (hafter : service.Run Machine.anyStep t fs u) :
    (∀ id v, s.uploads.get? id = some v → v.sessionId = k → v.task id ∈ t.cancelled) ∧
    ¬ service.Past (dispatches k) t fs ∧
    (e = .cancelSession k → u.sessions.get? k = none) ∧
    (∀ x, u.sessions.get? k = some x → x.status = .canceledByReceiver) := by
  have hsound : Sound s := hrun.invariant sound_initial fun a f b ha _ hf => sound_step ha hf
  obtain ⟨x, hx, hcancelled, hflows, hleft⟩ := cancel_step he hs
  obtain ⟨flow, hflow, hfits⟩ := (hsound.sound k).fits x hx
  have hhalted : Halted (t.view k) := by
    have hsome : t.flows.get? k = some flow := by
      rw [hflows]
      exact hflow
    refine ⟨fun hnone => Option.some_ne_none flow (hsome.symm.trans hnone), fun y hy => ?_, fun hne fl hfl => ?_⟩
    · rcases hleft with ⟨_, hnone⟩ | ⟨_, now, _, hsession⟩
      · cases hnone.symm.trans hy
      · obtain rfl := Option.some.inj (hsession.symm.trans hy)
        rfl
    · rcases hleft with ⟨_, hnone⟩ | ⟨hstatus, now, _, hsession⟩
      · exact absurd hnone hne
      · obtain rfl := Option.some.inj (hsome.symm.trans hfl)
        cases hhs : flow.isHandshake with
        | false => rfl
        | true =>
            have hwaiting := (hfits.fresh (handshake_not_begun hhs)).waiting hhs
            rw [hstatus] at hwaiting
            cases hwaiting
  obtain ⟨hno, hhalted', hgone⟩ := halted_run (sound_step hsound hs).known hhalted hafter
  refine ⟨fun id v hv hk => ?_, hno, fun hcancel => ?_, hhalted'.status⟩
  · have hmem : (s.view k).uploads id = some v := uploadsOf_eq_some.mpr ⟨hv, hk⟩
    obtain ⟨fl, hfl, hbegun⟩ := (hsound.sound k).loop.begun id v hmem
    obtain rfl := Option.some.inj (hflow.symm.trans hfl)
    rw [hcancelled]
    exact List.mem_append_left _ ((hfits.running hbegun).listed id v hmem)
  · rcases hleft with ⟨_, hnone⟩ | ⟨_, now, he', hsession⟩
    · exact hgone hnone
    · cases hcancel.symm.trans he'

instance (k : String) (s : State) (e : Event) (t : State) : Decidable (dispatches k s e t) :=
  inferInstanceAs (Decidable (∃ task ∈ t.uploads.entries, task ∉ s.uploads.entries ∧
    task.2.sessionId = k))

def demoDevice : Device :=
  ⟨none, some "10.0.0.2", "2.1", 53317, true, "b", "B", none, .mobile, false, []⟩

/-- One session with two files; the receiver wants both. -/
def acceptedRun (background : Bool) : List Event :=
  [.startSession "S" demoDevice [⟨"a.bin", .other, 1, some "/a.bin", none⟩,
      ⟨"b.bin", .other, 1, some "/b.bin", none⟩] background ["a", "b"],
    .submitted "S" (.response 200 (.error "") (.ok ⟨"R", .ofList [("a", "ta"), ("b", "tb")]⟩)) 1]

/-- The session is cancelled while both files are uploaded; the uploads end, the workers go on. -/
theorem cancellation_final_twoUploads :
    ∃ s t u, service.Run Machine.anyStep State.initial
        (acceptedRun false ++ [.work "S" 0, .work "S" 1]) s ∧
      service.step s (.cancelSession "S") = some t ∧
      service.Run Machine.anyStep t [.uploadEnded 1 (some "cancelled") 2, .work "S" 1,
        .uploadEnded 0 (some "cancelled") 3, .work "S" 0, .loopEnded "S" 4] u ∧
      (s.uploads.keys = [0, 1] ∧ u.uploads.keys = []) ∧
      ((∀ id v, s.uploads.get? id = some v → v.sessionId = "S" → v.task id ∈ t.cancelled) ∧
      ¬ service.Past (dispatches "S") t [.uploadEnded 1 (some "cancelled") 2, .work "S" 1,
        .uploadEnded 0 (some "cancelled") 3, .work "S" 0, .loopEnded "S" 4] ∧
      (Event.cancelSession "S" = .cancelSession "S" → u.sessions.get? "S" = none) ∧
      (∀ x, u.sessions.get? "S" = some x → x.status = .canceledByReceiver)) := by
  have hrun : (service.run State.initial (acceptedRun false ++ [.work "S" 0, .work "S" 1])).map
      (fun s => (s.uploads.keys, (service.step s (.cancelSession "S")).map fun t =>
        (service.run t [.uploadEnded 1 (some "cancelled") 2, .work "S" 1,
          .uploadEnded 0 (some "cancelled") 3, .work "S" 0, .loopEnded "S" 4]).map fun u =>
            u.uploads.keys)) = some ([0, 1], some (some [])) := by decide
  obtain ⟨s, hs, hobs⟩ := Machine.run_observe hrun
  obtain ⟨hups, hstep⟩ := Prod.mk.inj hobs
  obtain ⟨t, ht, hafter⟩ := Option.map_eq_some_iff.mp hstep
  obtain ⟨u, hu, hups'⟩ := Machine.run_observe hafter
  exact ⟨s, t, u, hs, ht, hu, ⟨hups, hups'⟩,
    cancellation_final _ _ s t u "S" _ hs (Or.inl rfl) ht hu⟩

end Cancellation

/-! ## 2. Orphans -/

section Orphans

variable {s t : State} {e : Event}

/-- **Every upload in flight is owned**: it got a cancel action, or it is listed in the record of
    a session that is there. -/
def Owned (s : State) : Prop :=
  ∀ id u, s.uploads.get? id = some u → u.task id ∉ s.cancelled →
    ∃ x, s.sessions.get? u.sessionId = some x ∧ u.task id ∈ x.sendingTasks

/-- Every upload in flight of the session has got its cancel action. -/
def State.calm (s : State) (k : String) : Prop :=
  ∀ task ∈ s.uploads.entries, task.2.sessionId = k → task.2.task task.1 ∈ s.cancelled

/-- `_finish` closes the session: in background, without a failed file. -/
def SendSessionState.closes (x : SendSessionState) : Bool :=
  decide (x.status = .sending) && !x.hasError && x.background

/-- **No session is closed under a running upload**: the condition on the steps. -/
def tidy (s : State) : Event → Prop
  | .closeSession k => s.calm k
  | .clearAllSessions => ∀ task ∈ s.uploads.entries, task.2.task task.1 ∈ s.cancelled
  | .loopEnded k _ => ∀ x ∈ s.sessions.get? k, x.closes = true → s.calm k
  | _ => True

/-- Only sessions that are there get new uploads. -/
theorem Turn.upload_old {n id : TaskId} {k : String} {v w : View} {u : Upload}
    (ht : Turn n k v e w) (hu : w.uploads id = some u) (hgone : w.session = none) :
    v.uploads id = some u := by
  cases ht with
  | created | sent | retried => cases hgone
  | uploaded id' error now x flow ups u' hu' =>
      by_cases hid : id = id'
      · subst hid
        simp at hu
      · simpa [Function.update_of_ne hid] using hu
  | _ => exact hu

/-- `_finish` closes a session only then. -/
theorem finish_eq_none {x : SendSessionState} {now : Int} (h : x.finish now = none) :
    x.closes = true := by
  unfold SendSessionState.finish at h
  split at h
  · cases h
  · rename_i hstatus
    split at h
    · rename_i hclose
      simp only [Bool.and_eq_true, Bool.not_eq_eq_eq_not, Bool.not_true] at hclose
      simp only [ne_eq, Decidable.not_not] at hstatus
      simp [SendSessionState.closes, hstatus, hclose.1, hclose.2]
    · cases h

/-- The events that take a session away under its uploads. -/
def closing (k : String) (x : SendSessionState) (e : Event) : Prop :=
  e = .closeSession k ∨ e = .cancelSession k ∨ e = .clearAllSessions ∨
    ∃ now, e = .loopEnded k now ∧ x.closes = true

/-- **How a session goes**: without uploads, or by one of these events. The `_finish` of a retry
    comes after all of them. -/
theorem Turn.session_gone {n : TaskId} {k : String} {v w : View} (h : v.Sound)
    (ht : Turn n k v e w) {x : SendSessionState} (hx : v.session = some x)
    (hgone : w.session = none) : (∀ id, w.uploads id = none) ∨ closing k x e := by
  cases ht with
  | other | passed | left | skipped =>
      rw [hx] at hgone
      cases hgone
  | created | refused | opened | sent | retried | canceled | background => cases hgone
  | empty _ y ups flow hflow =>
      have hnone := h.loop.crew.not_begun (handshake_not_begun hflow)
      exact Or.inl fun id => congrFun hnone id
  | uploaded id error now y flow ups u hu =>
      refine Or.inl fun id' => ?_
      obtain rfl : y = some x := hx
      obtain ⟨fl, hfl, hbegun⟩ := h.loop.begun id u hu
      obtain ⟨fl', hfl', hfits⟩ := h.fits x rfl
      obtain rfl := Option.some.inj (hfl.symm.trans hfl')
      have hrunning := (hfits.running hbegun).uploaded hu error
      change x.afterUpload u id error now = none at hgone
      unfold SendSessionState.afterUpload at hgone
      simp only at hgone
      split at hgone
      · rename_i hall
        simp only [Bool.and_eq_true] at hall
        cases hu' : Function.update ups id none id' with
        | none => exact hu'
        | some u' =>
            obtain ⟨f, hf, hfs, _⟩ := hrunning.busy id' u' hu'
            have hdone := isFinishedOrError_iff.mp hall.2 _ f hf
            rw [hfs] at hdone
            cases hdone
      · cases hgone
  | ended now y ups queue workers hall =>
      obtain rfl : y = some x := hx
      exact Or.inr (Or.inr (Or.inr (Or.inr ⟨now, rfl, finish_eq_none hgone⟩)))
  | closed _ y flow ups he =>
      rcases he with rfl | rfl | rfl
      · exact Or.inr (Or.inl rfl)
      · exact Or.inr (Or.inr (Or.inl rfl))
      · exact Or.inr (Or.inr (Or.inr (Or.inl rfl)))

theorem owned_initial : Owned State.initial := fun _ _ hu => by cases hu

/-- A session that is there lists its uploads. -/
theorem Sound.listed (h : Sound s) {id : TaskId} {u : Upload} (hu : s.uploads.get? id = some u)
    {x : SendSessionState} (hx : s.sessions.get? u.sessionId = some x) :
    u.task id ∈ x.sendingTasks := by
  have hmem : (s.view u.sessionId).uploads id = some u := uploadsOf_eq_some.mpr ⟨hu, rfl⟩
  obtain ⟨fl, hfl, hbegun⟩ := (h.sound u.sessionId).loop.begun id u hmem
  obtain ⟨fl', hfl', hfits⟩ := (h.sound u.sessionId).fits x hx
  obtain rfl := Option.some.inj (hfl.symm.trans hfl')
  exact (hfits.running hbegun).listed id u hmem

theorem owned_step (hS : Sound s) (h : Owned s) (hg : tidy s e) (hs : service.step s e = some t) :
    Owned t := by
  have htasks := step_tasks hs
  intro id u hu hcancel
  cases hx : t.sessions.get? u.sessionId with
  | some x => exact ⟨x, rfl, (sound_step hS hs).listed hu hx⟩
  | none =>
      exfalso
      have hturn := step_turn hS.known hs u.sessionId
      have hmem : (t.view u.sessionId).uploads id = some u := uploadsOf_eq_some.mpr ⟨hu, rfl⟩
      have hold := (uploadsOf_eq_some.mp (hturn.upload_old hmem hx)).1
      obtain ⟨x, hxs, hlisted⟩ := h id u hold fun hc => hcancel (htasks.cancelled_mem hc)
      have hentry := LinkedMap.get?_mem hold
      rcases hturn.session_gone (hS.sound _) hxs hx with hnone | rfl | rfl | rfl | ⟨now, rfl, hclose⟩
      · rw [hnone id] at hmem
        cases hmem
      · exact hcancel (htasks.cancelled_mem (hg _ hentry rfl))
      · obtain ⟨y, hy, hcancelled, _⟩ := cancel_step (Or.inl rfl) hs
        obtain rfl := Option.some.inj (hy.symm.trans hxs)
        exact hcancel (hcancelled ▸ List.mem_append_left _ hlisted)
      · exact hcancel (htasks.cancelled_mem (hg _ hentry))
      · exact hcancel (htasks.cancelled_mem (hg x hxs hclose _ hentry rfl))

/-- **No upload is orphaned**, in any run that closes no session under a running upload. -/
theorem uploads_owned (es : List Event) (s : State) (h : service.Run tidy State.initial es s) :
    Owned s := by
  have hI : Sound s ∧ Owned s :=
    h.invariant (I := fun s => Sound s ∧ Owned s) ⟨sound_initial, owned_initial⟩
      fun a e b ha hg hs => ⟨sound_step ha.1 hs, owned_step ha.1 ha.2 hg hs⟩
  exact hI.2

instance (s : State) (k : String) : Decidable (s.calm k) :=
  inferInstanceAs (Decidable (∀ task ∈ s.uploads.entries, task.2.sessionId = k →
    task.2.task task.1 ∈ s.cancelled))

instance (s : State) : (e : Event) → Decidable (tidy s e)
  | .closeSession k => inferInstanceAs (Decidable (s.calm k))
  | .clearAllSessions =>
    inferInstanceAs (Decidable (∀ task ∈ s.uploads.entries, task.2.task task.1 ∈ s.cancelled))
  | .loopEnded k _ =>
    inferInstanceAs (Decidable (∀ x ∈ s.sessions.get? k, x.closes = true → s.calm k))
  | .startSession _ _ _ _ _ | .submitted _ _ _ | .pinEntered _ _ | .work _ _ | .uploadEnded _ _ _
  | .retry _ _ | .cancelSession _ | .cancelSessionByReceiver _ _ | .setBackground _ _ =>
    inferInstanceAs (Decidable True)

/-- The receiver cancels the session while a file is sent; then the session is closed. -/
theorem uploads_owned_closedRun :
    ∃ s, service.Run tidy State.initial (acceptedRun false ++ [.work "S" 0,
        .cancelSessionByReceiver "S" 2, .closeSession "S"]) s ∧
      (s.uploads.keys = [0] ∧ s.sessions.keys = []) ∧ Owned s := by
  have hrun : ((service.guarded tidy).run State.initial (acceptedRun false ++ [.work "S" 0,
      .cancelSessionByReceiver "S" 2, .closeSession "S"])).map
      (fun s => (s.uploads.keys, s.sessions.keys)) = some ([0], []) := by decide
  obtain ⟨s, hs, hobs⟩ := Machine.run_observe_guarded hrun
  exact ⟨s, hs, Prod.mk.inj hobs, uploads_owned _ s hs⟩

/-- **An orphaned upload**: all sessions are cleared while a file is sent. -/
theorem upload_orphaned :
    ∃ s, service.Run Machine.anyStep State.initial
        (acceptedRun true ++ [.work "S" 0, .clearAllSessions]) s ∧ ¬ Owned s := by
  have hrun : (service.run State.initial (acceptedRun true ++ [.work "S" 0,
      .clearAllSessions])).map (fun s => ((s.uploads.get? 0).map fun u =>
        (u.sessionId, decide (u.task 0 ∈ s.cancelled)), s.sessions.get? "S")) =
      some (some ("S", false), none) := by decide
  obtain ⟨s, hs, hobs⟩ := Machine.run_observe hrun
  obtain ⟨hupload, hgone⟩ := Prod.mk.inj hobs
  obtain ⟨u, hu, heq⟩ := Option.map_eq_some_iff.mp hupload
  obtain ⟨hk, hcancel⟩ := Prod.mk.inj heq
  refine ⟨s, hs, fun h => ?_⟩
  obtain ⟨x, hx, _⟩ := h 0 u hu (of_decide_eq_false hcancel)
  rw [hk, hgone] at hx
  cases hx

end Orphans

end LocalSend.SendSession
