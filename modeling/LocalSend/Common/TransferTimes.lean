/-
  File:      LocalSend/Common/TransferTimes.lean
  Subject:   START AND END OF A TRANSFER. A session notes when its transfer starts and when it
             ends; both ends of a transfer keep these times beside the status. Stated for any
             machine with sessions, so that the two ends share it.

  * `Times`, `Times.Agree` -- the times of a session, and what the status says about them;
  * `Times.Step` -- what a step may do to them; `Step.startTime`, `Step.agree` -- what follows;
  * `Punctual`, `punctual_iff` -- **the times agree with the status in every state of a run if and
    only if all its steps meet the guard**.
-/
import LocalSend.Common.Device
import LocalSend.Lib.Clock

namespace LocalSend

open Lib

/-- The times a session keeps, and its status. -/
structure Times where
  status : SessionStatus
  startTime : Option Int
  endTime : Option Int
  deriving DecidableEq, Repr

namespace Times

/-! ## 1. The times and the status -/

/-- The transfer is over. -/
def isOver (x : Times) : Prop := x.status = .finished ∨ x.status = .finishedWithErrors

/-- **The times agree with the status**; `started`: the transfer has started, `entered`: when the
    status was entered last. -/
structure Agree (started : Prop) (entered : Option (Option Int)) (x : Times) : Prop where
  sending : x.status = .sending → x.endTime = none
  ended : x.isOver → started → ∃ start stop, x.startTime = some start ∧ x.endTime = some stop ∧
    start ≤ stop ∧ entered = some (some stop)

/-- **What a step may do to the times of a session**, if any; `now` is the time of the step, and
    `G` what the program is asked for. -/
inductive Step (G : Prop) (now : Option Int) : Option Times → Option Times → Prop where
  | kept (x : Option Times) : Step G now x x
  | gone (x : Option Times) : Step G now x none
  | stored (x : Option Times) (y : Times) (hover : ¬ y.isOver) (hstart : y.startTime = none)
      (hend : y.endTime = none) : Step G now x (some y)
  /-- canceled, refused or failed before the transfer -/
  | aside (x y : Times) (hstart : y.startTime = x.startTime) (hsending : y.status ≠ .sending)
      (hover : y.isOver → y.startTime = none) : Step G now (some x) (some y)
  | sends (x : Times) (start : Option Int) (hstart : start = x.startTime ∨ start = now)
      (hend : G → x.endTime = none) : Step G now (some x) (some ⟨.sending, start, x.endTime⟩)
  | ends (x : Times) (status : SessionStatus) (stop : Int) (hnow : now = some stop)
      (hstatus : status = .finished ∨ status = .finishedWithErrors)
      (hagain : G → status = x.status → x.startTime.isSome = true → x.endTime = some stop) :
      Step G now (some x) (some ⟨status, x.startTime, some stop⟩)

section Step

variable {G : Prop} {now : Option Int} {before : Option Times} {x y : Times}
  {entered : Option (Option Int)}

/-- A start is as old as it was, or of this step. -/
theorem Step.startTime (h : Step G now before (some y)) {start : Int}
    (hy : y.startTime = some start) :
    now = some start ∨ ∃ x, before = some x ∧ x.startTime = some start := by
  cases h with
  | kept => exact Or.inr ⟨y, rfl, hy⟩
  | stored _ _ _ hstart => cases hstart.symm.trans hy
  | aside x _ hstart => exact Or.inr ⟨x, rfl, hstart.symm.trans hy⟩
  | sends x _ hstart =>
      rcases hstart with rfl | rfl
      · exact Or.inr ⟨x, rfl, hy⟩
      · exact Or.inl hy
  | ends x => exact Or.inr ⟨x, rfl, hy⟩

/-- The status is entered at this step, unless it is the one before. -/
def enteredAt (entered : Option (Option Int)) (now : Option Int) (before after : Option Times) :
    Option (Option Int) :=
  if after.map status = before.map status then entered else some now

theorem enteredAt_same (h : y.status = x.status) :
    enteredAt entered now (some x) (some y) = entered :=
  if_pos (congrArg some h)

theorem enteredAt_new (h : y.status ≠ x.status) :
    enteredAt entered now (some x) (some y) = some now :=
  if_neg fun hsame => h (Option.some.inj hsame)

/-- **A step under the guard keeps the times in agreement.** -/
theorem Step.agree (h : Step G now before (some y)) (hG : G)
    (hbefore : ∀ x, before = some x → x.Agree (x.startTime.isSome = true) entered)
    (hpast : ∀ x start stop, before = some x → x.startTime = some start → now = some stop →
      start ≤ stop) :
    y.Agree (y.startTime.isSome = true) (enteredAt entered now before (some y)) := by
  have haside : ∀ {z : Times} {entered'}, z.status ≠ .sending → (z.isOver → z.startTime = none) →
      z.Agree (z.startTime.isSome = true) entered' := by
    intro z entered' hsending hover
    refine ⟨fun hstatus => absurd hstatus hsending, fun hz hstarted => ?_⟩
    rw [hover hz] at hstarted
    cases hstarted
  cases h with
  | kept =>
      rw [enteredAt, if_pos rfl]
      exact hbefore y rfl
  | stored _ _ hover _ hend => exact ⟨fun _ => hend, fun hy => absurd hy hover⟩
  | aside x _ _ hsending hover => exact haside hsending hover
  | sends x start hstart hend =>
      refine ⟨fun _ => hend hG, fun hy => ?_⟩
      rcases hy with hy | hy <;> cases hy
  | ends x status stop hnow hstatus hagain =>
      refine ⟨fun hy => ?_, fun _ hstarted => ?_⟩
      · have hsending : status = .sending := hy
        subst hsending
        rcases hstatus with h | h <;> cases h
      · obtain ⟨start, hstart⟩ := Option.isSome_iff_exists.mp hstarted
        refine ⟨start, stop, hstart, rfl, hpast x start stop rfl hstart hnow, ?_⟩
        by_cases hsame : status = x.status
        · -- not entered at this step: it was entered when the end was set
          have hover : x.isOver := by
            rw [hsame] at hstatus
            exact hstatus
          obtain ⟨_, stop', _, hstop', _, hentered⟩ := (hbefore x rfl).ended hover hstarted
          rw [enteredAt_same hsame, hentered, ← hstop', hagain hG hsame hstarted]
        · rw [enteredAt_new hsame, hnow]

/-- Two sessions of one status, entered at one time, ended at one time. -/
theorem Agree.endTime_eq {p q : Prop} (hx : x.Agree p entered) (hy : y.Agree q entered)
    (hxover : x.isOver) (hyover : y.isOver) (hp : p) (hq : q) : x.endTime = y.endTime := by
  obtain ⟨_, stop, _, hstop, _, hentered⟩ := hx.ended hxover hp
  obtain ⟨_, stop', _, hstop', _, hentered'⟩ := hy.ended hyover hq
  obtain rfl := Option.some.inj (Option.some.inj (hentered.symm.trans hentered'))
  exact hstop.trans hstop'.symm

end Step

end Times

/-! ## 2. Runs -/

section Runs

variable {σ ε κ : Type} (M : Machine σ ε) (time : ε → Option Int) (times : κ → σ → Option Times)
  (started : κ → List ε → σ → Prop)

/-- When the session `k` entered its status last. -/
def entered (s : σ) (es : List ε) (k : κ) : Option (Option Int) :=
  M.lastChange time (fun t => (times k t).map Times.status) s es

/-- **The times of every session agree with its status**, at the end of a run from `s`. -/
def Punctual (s : σ) (es : List ε) (t : σ) : Prop :=
  ∀ k x, times k t = some x → x.Agree (started k es t) (entered M time times s es k)

variable {M time times started} {s t : σ} {es : List ε} {I : σ → Prop} {G : σ → ε → Prop}

/-- A session has started in the past of the run. -/
theorem start_past (h0 : I s) (hI : ∀ v e w, I v → M.step v e = some w → I w)
    (hnone : ∀ k, times k s = none)
    (hstep : ∀ v e w k, I v → M.step v e = some w →
      Times.Step (G v e) (time e) (times k v) (times k w))
    (h : M.Run Machine.anyStep s es t) {k : κ} {x : Times} {start : Int} (hx : times k t = some x)
    (hstart : x.startTime = some start) : start ∈ es.filterMap time := by
  have hall : I t ∧ ∀ k x start, times k t = some x → x.startTime = some start →
      start ∈ es.filterMap time := by
    refine h.traceInvariant (I := fun es t => I t ∧ ∀ k x start, times k t = some x →
      x.startTime = some start → start ∈ es.filterMap time) ⟨h0, fun k x start hx => ?_⟩ ?_
    · rw [hnone k] at hx
      cases hx
    · intro fs v e w ⟨hv, hpast⟩ _ hs
      refine ⟨hI v e w hv hs, fun k y start hy hstart => ?_⟩
      rw [List.filterMap_append, List.mem_append]
      have hsingle := hstep v e w k hv hs
      rw [hy] at hsingle
      rcases hsingle.startTime hstart with hnow | ⟨x, hx, hold⟩
      · exact Or.inr (List.mem_filterMap.mpr ⟨e, List.mem_singleton_self e, hnow⟩)
      · exact Or.inl (hpast k x start hx hold)
  exact hall.2 k x start hx hstart

/-- **The exact guard.** `I` holds on every run; a step does to the times what `Times.Step` says,
    and a step between two states with times in agreement meets the guard. Then the times agree in
    every state of a run if and only if all its steps meet the guard. -/
theorem punctual_iff (h0 : I s) (hI : ∀ v e w, I v → M.step v e = some w → I w)
    (hnone : ∀ k, times k s = none)
    (hstep : ∀ v e w k, I v → M.step v e = some w →
      Times.Step (G v e) (time e) (times k v) (times k w))
    (hguard : ∀ v e w (entered : κ → Option (Option Int)), I v → M.step v e = some w →
      (∀ k x, times k v = some x → x.Agree (x.startTime.isSome = true) (entered k)) →
      (∀ k y, times k w = some y → y.Agree (y.startTime.isSome = true)
        (Times.enteredAt (entered k) (time e) (times k v) (times k w))) → G v e)
    (hstarted : ∀ fs v k x, M.Run Machine.anyStep s fs v → times k v = some x →
      (started k fs v ↔ x.startTime.isSome = true))
    (h : M.Run Machine.anyStep s es t) (hclock : Machine.Forward time es) :
    (∀ fs v, fs <+: es → M.Run Machine.anyStep s fs v → Punctual M time times started s fs v) ↔
      M.Run G s es t := by
  have hagree : ∀ {fs v}, M.Run Machine.anyStep s fs v →
      (Punctual M time times started s fs v ↔ ∀ k x, times k v = some x →
        x.Agree (x.startTime.isSome = true) (entered M time times s fs k)) := by
    intro fs v hv
    refine forall_congr' fun k => forall_congr' fun x => forall_congr' fun hx => ?_
    rw [propext (hstarted fs v k x hv hx)]
  refine h.traceInvariant_iff (fun k x hx => ?_) fun fs v e w hfs hv hold hs => ?_
  · rw [hnone k] at hx
    cases hx
  · have hIv : I v := hv.invariant h0 fun v e w hv _ hs => hI v e w hv hs
    have hw : M.Run Machine.anyStep s (fs ++ [e]) w := .step fs e v w hv trivial hs
    have hentered : ∀ k, entered M time times s (fs ++ [e]) k =
        Times.enteredAt (entered M time times s fs k) (time e) (times k v) (times k w) :=
      fun k => hv.lastChange_snoc hs
    rw [hagree hv] at hold
    rw [hagree hw]
    constructor
    · intro hnew
      exact hguard v e w _ hIv hs hold fun k y hy => hentered k ▸ hnew k y hy
    · intro hG k y hy
      have hsingle := hstep v e w k hIv hs
      rw [hentered k, hy]
      rw [hy] at hsingle
      refine hsingle.agree hG (hold k) fun x start stop hx hstart hstop => ?_
      exact (hclock.of_prefix hfs).past_le hstop start
        (start_past h0 hI hnone hstep hv hx hstart)

end Runs

end LocalSend
