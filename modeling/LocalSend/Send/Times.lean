/-
  File:      LocalSend/Send/Times.lean
  Subject:   START AND END OF A SEND SESSION. `_sendLoop` notes the start, `_finish` the end, and a
             retry makes a session that has ended send again.

  * `timely` -- no retry of a session that has ended: the condition on the steps;
  * `View.Timed` -- no time before the transfer; `timed_turn`;
  * `turn_times` -- what a turn does to the times; `step_timely` -- the condition is exact;
  * `timesAgree_iff` -- **the runs in which the times agree with the status**.
-/
import LocalSend.Common.TransferTimes
import LocalSend.Send.Ownership

namespace LocalSend.SendSession

open Lib

/-! ## 1. Times -/

def SendSessionState.times (x : SendSessionState) : Times := ⟨x.status, x.startTime, x.endTime⟩

def State.times (k : String) (s : State) : Option Times :=
  (s.sessions.get? k).map SendSessionState.times

/-- What the clock shows at a step that may read it. -/
def Event.time : Event → Option Int
  | .submitted _ _ now | .uploadEnded _ _ now | .loopEnded _ now
  | .cancelSessionByReceiver _ now => some now
  | _ => none

/-- **No file is sent again in a session that has ended**: the condition on the steps. -/
def timely (s : State) : Event → Prop
  | .retry k file => ∀ x ∈ s.sessions.get? k, allowedStates x.status = true →
      file.token.isSome = true → x.endTime = none
  | _ => True

instance (s : State) : (e : Event) → Decidable (timely s e)
  | .retry k file =>
    inferInstanceAs (Decidable (∀ x ∈ s.sessions.get? k, allowedStates x.status = true →
      file.token.isSome = true → x.endTime = none))
  | .startSession _ _ _ _ _ | .submitted _ _ _ | .pinEntered _ _ | .work _ _ | .uploadEnded _ _ _
  | .loopEnded _ _ | .cancelSession _ | .cancelSessionByReceiver _ _ | .closeSession _
  | .clearAllSessions | .setBackground _ _ => inferInstanceAs (Decidable True)

/-- The transfer of a session has started: `startUpload` was called. -/
def State.begun (k : String) (s : State) : Prop :=
  ∃ flow, s.flows.get? k = some flow ∧ flow.isBegun = true

/-! ## 2. What a turn does to the times -/

section Turns

variable {n : TaskId} {k : String} {v w : View} {s t : State} {e : Event} {G : Prop}

/-- **No time before the transfer**, and a start from then on. -/
def View.Timed (v : View) : Prop :=
  ∀ x flow, v.session = some x → v.flow = some flow →
    x.startTime.isSome = flow.isBegun ∧ (flow.isBegun = false → x.endTime = none)

/-- `_finish` notes the end of a session that sends, closes it or does nothing. -/
theorem finish_times (x : SendSessionState) (now : Int) :
    Times.Step G (some now) (some x.times) ((x.finish now).map SendSessionState.times) := by
  unfold SendSessionState.finish
  split
  · exact .kept _
  · rename_i hstatus
    have hsending : x.status = .sending := by simpa using hstatus
    split
    · exact .gone _
    · refine .ends x.times _ now rfl ?_ fun _ hsame _ => ?_
      · split
        · exact Or.inr rfl
        · exact Or.inl rfl
      · -- the session was sending
        have hold : x.times.status = .sending := hsending
        rw [hold] at hsame
        split at hsame <;> cases hsame

theorem finish_start {x y : SendSessionState} {now : Int} (hy : x.finish now = some y) :
    y.startTime = x.startTime := by
  unfold SendSessionState.finish at hy
  split at hy
  · rw [Option.some.inj hy]
  · split at hy
    · cases hy
    · rw [← Option.some.inj hy]

/-- The end of an upload: `_finish`, or nothing. -/
theorem afterUpload_cases (x : SendSessionState) (u : Upload) (id : TaskId) (error : Option String)
    (now : Int) : ∃ y, y.times = x.times ∧
      (x.afterUpload u id error now = y.finish now ∨ x.afterUpload u id error now = some y) := by
  refine ⟨x.uploaded u.action.fileId (u.task id) error, rfl, ?_⟩
  unfold SendSessionState.afterUpload
  simp only
  split
  · exact Or.inl rfl
  · exact Or.inr rfl

theorem times_start {x y : SendSessionState} (h : y.times = x.times) : y.startTime = x.startTime :=
  congrArg Times.startTime h

theorem timed_turn (hS : v.Sound) (h : v.Timed) (ht : Turn n k v e w) : w.Timed := by
  intro y flow hy hflow
  cases ht with
  | other => exact h y flow hy hflow
  | created target files background preview ids x hx hids =>
      obtain rfl := Option.some.inj hy
      obtain rfl := Option.some.inj hflow
      rw [hx]
      exact ⟨rfl, fun _ => rfl⟩
  | passed _ x ups fl fl' hfl hfl' =>
      obtain rfl := Option.some.inj hflow
      have hold := h y fl hy rfl
      rw [handshake_not_begun hfl] at hold
      rwa [hfl']
  | refused _ x ups fl status message hfl hstatus =>
      obtain rfl := Option.some.inj hy
      obtain rfl := Option.some.inj hflow
      have hold := h x fl rfl rfl
      rwa [handshake_not_begun hfl] at hold
  | empty => cases hy
  | opened reply now x z ups submission remote fileMap hz =>
      obtain rfl := Option.some.inj hy
      obtain rfl := Option.some.inj hflow
      rw [hz]
      exact ⟨rfl, nofun⟩
  | left index x ups workers hnext =>
      obtain rfl := Option.some.inj hflow
      exact h y (.sending [] workers) hy rfl
  | skipped index x ups file queue workers hnext hsends =>
      obtain rfl := Option.some.inj hflow
      exact h y (.sending (file :: queue) workers) hy rfl
  | sent index x ups file queue workers token hnext hallowed htoken =>
      obtain rfl := Option.some.inj hy
      obtain rfl := Option.some.inj hflow
      exact h x (.sending (file :: queue) workers) rfl rfl
  | retried x fl ups file token hallowed htoken hfile hfailed =>
      obtain rfl := Option.some.inj hy
      exact h x flow rfl hflow
  | uploaded id error now x fl ups u hu =>
      obtain ⟨z, rfl, hz⟩ := Option.bind_eq_some_iff.mp hy
      obtain ⟨fl', rfl, rfl⟩ := Option.map_eq_some_iff.mp hflow
      obtain ⟨fl'', hfl, hbegun⟩ := hS.loop.begun id u hu
      obtain rfl := Option.some.inj hfl
      rw [(afterUpload_flow u fl').1, hbegun]
      refine ⟨?_, nofun⟩
      have hstart : y.startTime = z.startTime := by
        obtain ⟨z', hz', hcases⟩ := afterUpload_cases z u id error now
        rcases hcases with hfinish | hsame
        · rw [finish_start (hfinish ▸ hz), times_start hz']
        · rw [← Option.some.inj (hsame.symm.trans hz), times_start hz']
      rw [hstart, (h z fl' rfl rfl).1, hbegun]
  | ended now x ups queue workers hall =>
      obtain ⟨z, rfl, hz⟩ := Option.bind_eq_some_iff.mp hy
      obtain rfl := Option.some.inj hflow
      rw [finish_start hz]
      exact ⟨(h z _ rfl rfl).1, nofun⟩
  | closed => cases hy
  | canceled now x fl ups hstatus =>
      obtain rfl := Option.some.inj hy
      obtain ⟨fl', hfl, hfits⟩ := hS.fits x rfl
      obtain rfl := Option.some.inj (hfl.symm.trans hflow)
      refine ⟨(h x fl' rfl hfl).1, fun hno => ?_⟩
      exact absurd hstatus (hfits.fresh hno).status.2
  | background b x fl ups =>
      obtain rfl := Option.some.inj hy
      exact h x flow rfl hflow

/-- **What a turn does to the times.** A retry must find no end. -/
theorem turn_times (hT : v.Timed) (ht : Turn n k v e w)
    (hretry : ∀ x file, e = .retry k file → v.session = some x → allowedStates x.status = true →
      file.token.isSome = true → G → x.endTime = none) :
    Times.Step G e.time (v.session.map SendSessionState.times)
      (w.session.map SendSessionState.times) := by
  cases ht with
  | created target files background preview ids x hx hids =>
      refine .stored _ _ ?_ ?_ ?_
      · rw [hx]
        intro hover
        rcases hover with h | h <;> cases h
      · rw [hx]
        rfl
      · rw [hx]
        rfl
  | refused _ x ups fl status message hfl hstatus =>
      have hstart := (hT x fl rfl rfl).1
      rw [handshake_not_begun hfl, Option.isSome_eq_false_iff, Option.isNone_iff_eq_none] at hstart
      exact .aside x.times _ rfl (isRefusal_status hstatus).2 fun _ => hstart
  | empty | closed => exact .gone _
  | opened reply now x y ups submission remote fileMap hy =>
      rw [hy]
      exact .sends x.times (some now) (Or.inr rfl) fun _ => (hT x _ rfl rfl).2 rfl
  | retried x fl ups file token hallowed htoken hfile hfailed =>
      refine .sends x.times x.startTime (Or.inl rfl) ?_
      exact hretry x file rfl rfl hallowed (htoken ▸ rfl)
  | uploaded id error now x fl ups u hu =>
      cases x with
      | none => exact .kept _
      | some x =>
          obtain ⟨y, hy, hcases⟩ := afterUpload_cases x u id error now
          simp only [Option.map_some, Option.bind_some]
          rw [← hy]
          rcases hcases with hfinish | hsame
          · rw [hfinish]
            exact finish_times y now
          · rw [hsame]
            exact .kept _
  | ended now x ups queue workers hall =>
      cases x with
      | none => exact .kept _
      | some x => exact finish_times x now
  | canceled now x fl ups hstatus =>
      refine .aside x.times _ rfl nofun fun hover => ?_
      rcases hover with h | h <;> cases h
  | _ => exact .kept _

/-! ## 3. Steps -/

/-- The invariant: that of `Sound`, and no time before the transfer. -/
structure Timed (s : State) : Prop where
  sound : Sound s
  timed : ∀ k, (s.view k).Timed

theorem timed_initial : Timed State.initial := ⟨sound_initial, fun k x flow hx => by cases hx⟩

theorem timed_step (h : Timed s) (hs : service.step s e = some t) : Timed t where
  sound := sound_step h.sound hs
  timed k := timed_turn (h.sound.sound k) (h.timed k) (step_turn h.sound.known hs k)

theorem step_times (h : Timed s) (hs : service.step s e = some t) (k : String) :
    Times.Step (timely s e) e.time (s.times k) (t.times k) := by
  refine turn_times (h.timed k) (step_turn h.sound.known hs k) ?_
  intro x file he hx hallowed htoken hG
  subst he
  exact hG x hx hallowed htoken

/-- **The condition is exact**: after a step without it some session sends and has an end. -/
theorem step_timely (hs : service.step s e = some t)
    (hsending : ∀ k y, t.times k = some y → y.status = .sending → y.endTime = none) :
    timely s e := by
  cases e with
  | retry k file =>
      intro x hx hallowed htoken
      have hx : s.sessions.get? k = some x := hx
      simp only [service, step, hx] at hs
      split at hs
      · rcases sendFile_cases s k 0 file true with ⟨hno, _⟩ | ⟨token, y, _, hy, _, hsend⟩
        · simp [sends, hx, hallowed, htoken] at hno
        · obtain rfl := Option.some.inj (hx.symm.trans hy)
          rw [hsend] at hs
          obtain rfl := Option.some.inj hs
          refine hsending k (x.dispatched true file.file.id ⟨0, s.nextId⟩).times ?_ rfl
          simp [State.times, State.setSession, LinkedMap.get?_insert_self]
      · cases hs
  | _ => trivial

/-- The transfer of a session has started if and only if it has a start. -/
theorem begun_iff (h : Timed s) {x : Times} (hx : s.times k = some x) :
    s.begun k ↔ x.startTime.isSome = true := by
  obtain ⟨session, hsession, rfl⟩ := Option.map_eq_some_iff.mp hx
  obtain ⟨flow, hflow, _⟩ := (h.sound.sound k).fits session hsession
  have hstart : session.startTime.isSome = flow.isBegun := (h.timed k session flow hsession hflow).1
  constructor
  · intro hbegun
    obtain ⟨flow', hflow', hbegun⟩ := hbegun
    obtain rfl := Option.some.inj (hflow.symm.trans hflow')
    exact hstart.trans hbegun
  · intro hsome
    exact ⟨flow, hflow, hstart.symm.trans hsome⟩

/-- **The times of every send session agree with its status.** -/
def TimesAgree (es : List Event) (s : State) : Prop :=
  Punctual service Event.time State.times (fun k _ s => s.begun k) State.initial es s

/-- **On the send side** the times agree with the status in every state of a run if and only if no
    file is sent again in a session that has ended. -/
theorem timesAgree_iff (es : List Event) (s : State)
    (h : service.Run Machine.anyStep State.initial es s) (hclock : Machine.Forward Event.time es) :
    (∀ fs t, fs <+: es → service.Run Machine.anyStep State.initial fs t → TimesAgree fs t) ↔
      service.Run timely State.initial es s := by
  refine punctual_iff (I := Timed) timed_initial (fun v e w hv hs => timed_step hv hs)
    (fun k => rfl) (fun v e w k hv hs => step_times hv hs k) ?_ ?_ h hclock
  · intro v e w entered _ hs _ hnew
    exact step_timely hs fun k y hy => (hnew k y hy).sending
  · intro fs v k x hv hx
    exact begun_iff (hv.invariant timed_initial fun v e w hv _ hs => timed_step hv hs) hx

end Turns

end LocalSend.SendSession
