/-
  File:      LocalSend/Lib/Machine.lean
  Subject:   MACHINES WITH LABELLED PARTIAL STEPS. Definitions and the three rules every machine
             of the development uses; nothing here names a program.

  * `Machine` -- a step function on states, undefined where the label is not enabled;
  * `Machine.run` -- the state after a list of labels (executable), `Machine.Run G` -- the same
    as a relation, over steps that all meet a guard `G` on the state before the step;
  * `run_observe`, `run_observe_guarded` -- from an evaluated run to the relation;
  * `Run.head_induction` -- induction from the first label of a run;
  * `Run.invariant`, `Run.traceInvariant` -- what holds at the start and is kept by every guarded
    step holds after every guarded run (the second may speak about the labels so far);
    `Run.guarded_of`, `Run.traceInvariant_iff`, `Run.invariant_iff` -- the guard is exact;
  * `count` -- how many steps of a run met a predicate; `Run.count_snoc`;
  * `trace` -- what the steps of a run show; `Run.shownInvariant`, the rule for it;
  * `Past`, `Run.pastInvariant` -- what happened on the way: some step of the run met a predicate;
    the rule for invariants that speak about it;
  * `Along`, `Run.along_iff` -- a condition on every step and the labels before it; when two such
    conditions are the same;
  * `run_unwind` -- the two-run rule: if invisible steps stay inside a class of an equivalence
    and visible steps map classes to classes, two runs with the same visible labels end in one
    class.
-/
import Mathlib.Logic.Function.Basic
import Mathlib.Data.List.Basic

namespace LocalSend.Lib

/-- A machine: from a state, a label is accepted (with the next state) or not enabled. -/
structure Machine (σ ε : Type) where
  step : σ → ε → Option σ

namespace Machine

variable {σ ε : Type} (M : Machine σ ε)

/-! ## 1. Runs -/

/-- The state after the labels `es`, if every one of them is enabled in its turn. -/
def run (s : σ) : List ε → Option σ
  | [] => some s
  | e :: es => (M.step s e).bind fun s' => run s' es

/-- **A guarded run**: `es` leads from `s` to the last state, and every step meets the guard `G`
    on the state before it. -/
inductive Run (G : σ → ε → Prop) (s : σ) : List ε → σ → Prop where
  | start : Run G s [] s
  | step (es : List ε) (e : ε) (t u : σ) (h : Run G s es t) (hg : G t e)
      (hs : M.step t e = some u) : Run G s (es ++ [e]) u

/-- The guard every step meets. -/
def anyStep : σ → ε → Prop := fun _ _ => True

variable {M} {G : σ → ε → Prop} {s t u : σ} {es fs : List ε}

theorem Run.trans (h : M.Run G s es t) (h' : M.Run G t fs u) : M.Run G s (es ++ fs) u := by
  induction h' with
  | start => simpa using h
  | step fs e v w _ hg hs ih =>
      rw [← List.append_assoc]
      exact .step _ _ _ _ ih hg hs

/-- The last step of a run. -/
theorem Run.last {e : ε} (h : M.Run G s (es ++ [e]) u) :
    ∃ t, M.Run G s es t ∧ G t e ∧ M.step t e = some u := by
  generalize hall : es ++ [e] = all at h
  cases h with
  | start => simp at hall
  | step es' e' t _ hr hg hs =>
      obtain ⟨rfl, he⟩ := List.append_inj' hall rfl
      obtain rfl := List.singleton_inj.mp he
      exact ⟨t, hr, hg, hs⟩

/-- A run through `es ++ fs` has a state in between. -/
theorem Run.split (h : M.Run G s (es ++ fs) t) : ∃ u, M.Run G s es u ∧ M.Run G u fs t := by
  generalize hall : es ++ fs = all at h
  induction h generalizing fs with
  | start =>
      obtain ⟨rfl, rfl⟩ := List.append_eq_nil_iff.mp hall
      exact ⟨s, .start, .start⟩
  | step gs e t v hr hg hs ih =>
      rcases List.eq_nil_or_concat' fs with rfl | ⟨fs, f, rfl⟩
      · rw [List.append_nil] at hall
        subst hall
        exact ⟨v, .step _ _ _ _ hr hg hs, .start⟩
      · rw [← List.append_assoc] at hall
        obtain ⟨rfl, he⟩ := List.append_inj' hall rfl
        obtain rfl := List.singleton_inj.mp he
        obtain ⟨u, hu, hrest⟩ := ih rfl
        exact ⟨u, hu, .step _ _ _ _ hrest hg hs⟩

/-- **The executable run is a run.** -/
theorem run_sound (h : M.run s es = some t) : M.Run anyStep s es t := by
  induction es generalizing s with
  | nil =>
      simp only [run, Option.some.injEq] at h
      subst h
      exact .start
  | cons e es ih =>
      simp only [run, Option.bind_eq_some_iff] at h
      obtain ⟨v, hv, h⟩ := h
      have h1 : M.Run anyStep s ([] ++ [e]) v := .step [] e s v .start trivial hv
      exact h1.trans (ih h)

/-- A run is the executable run. -/
theorem Run.run_eq (h : M.Run G s es t) : M.run s es = some t := by
  have hsnoc : ∀ (es : List ε) (e : ε) (s t u : σ), M.run s es = some t → M.step t e = some u →
      M.run s (es ++ [e]) = some u := by
    intro es e
    induction es with
    | nil =>
        intro s t u hrun hs
        obtain rfl := Option.some.inj hrun
        simp [run, hs]
    | cons f es ih =>
        intro s t u hrun hs
        simp only [run, Option.bind_eq_some_iff] at hrun
        obtain ⟨v, hv, hrun⟩ := hrun
        simp only [List.cons_append, run, hv, Option.bind_some]
        exact ih v t u hrun hs
  induction h with
  | start => rfl
  | step es e t u _ _ hs ih => exact hsnoc es e _ t u ih hs

/-- **Induction from the first label**: what the last state has and each step hands back. -/
theorem Run.head_induction {motive : σ → List ε → Prop} (h : M.Run G s es t)
    (hnil : motive t [])
    (hcons : ∀ v e w es, M.step v e = some w → motive w es → motive v (e :: es)) :
    motive s es := by
  have hall : ∀ (es : List ε) (s : σ), M.run s es = some t → motive s es := by
    intro es
    induction es with
    | nil =>
        intro s hrun
        obtain rfl := Option.some.inj hrun
        exact hnil
    | cons e es ih =>
        intro s hrun
        simp only [run, Option.bind_eq_some_iff] at hrun
        obtain ⟨v, hv, hrun⟩ := hrun
        exact hcons s e v es hv (ih v hrun)
  exact hall es s h.run_eq

/-- **Observing an executable run**: a value computed from its last state is the value at the end
    of a run. -/
theorem run_observe {α : Type} {f : σ → α} {a : α} (h : (M.run s es).map f = some a) :
    ∃ t, M.Run anyStep s es t ∧ f t = a := by
  obtain ⟨t, ht, rfl⟩ := Option.map_eq_some_iff.mp h
  exact ⟨t, run_sound ht, rfl⟩

/-- Dropping the guard. -/
theorem Run.any (h : M.Run G s es t) : M.Run anyStep s es t := by
  induction h with
  | start => exact .start
  | step es e t u _ _ hs ih => exact .step es e t u ih trivial hs

/-- A machine with more steps has more runs. -/
theorem Run.of_step {N : Machine σ ε} (hN : ∀ s e t, M.step s e = some t → N.step s e = some t)
    (h : M.Run G s es t) : N.Run G s es t := by
  induction h with
  | start => exact .start
  | step es e t u _ hg hs ih => exact .step es e t u ih hg (hN t e u hs)

/-- The machine whose steps are those of `M` that meet the guard. -/
def guarded (M : Machine σ ε) (G : σ → ε → Prop) [∀ s e, Decidable (G s e)] : Machine σ ε where
  step s e := if G s e then M.step s e else none

/-- **Observing an executable guarded run.** -/
theorem run_observe_guarded [∀ s e, Decidable (G s e)] {α : Type} {f : σ → α} {a : α}
    (h : ((M.guarded G).run s es).map f = some a) : ∃ t, M.Run G s es t ∧ f t = a := by
  obtain ⟨t, ht, hf⟩ := run_observe h
  refine ⟨t, ?_, hf⟩
  clear h hf
  induction ht with
  | start => exact .start
  | step es e t u _ _ hs ih =>
      simp only [guarded] at hs
      split at hs
      · rename_i hg
        exact .step es e t u ih hg hs
      · cases hs

/-! ## 2. Invariants -/

/-- **The invariant rule**: kept by every guarded step, so kept by every guarded run. -/
theorem Run.invariant {I : σ → Prop} (h0 : I s)
    (hI : ∀ t e u, I t → G t e → M.step t e = some u → I u) (h : M.Run G s es t) : I t := by
  induction h with
  | start => exact h0
  | step es e t u _ hg hs ih => exact hI t e u ih hg hs

/-- **The invariant rule with the labels so far.** -/
theorem Run.traceInvariant {I : List ε → σ → Prop} (h0 : I [] s)
    (hI : ∀ es t e u, I es t → G t e → M.step t e = some u → I (es ++ [e]) u)
    (h : M.Run G s es t) : I es t := by
  induction h with
  | start => exact h0
  | step es e t u _ hg hs ih => exact hI es t e u ih hg hs

/-- **What forces the guard**: where a step from `P` to `P` meets `G`, a run through states with
    `P` only is guarded by `G`. The invariant `I` holds on every run. -/
theorem Run.guarded_of {I P : σ → Prop} (h0 : I s)
    (hI : ∀ t e u, I t → M.step t e = some u → I u)
    (hG : ∀ t e u, I t → P t → M.step t e = some u → P u → G t e) (h : M.Run anyStep s es t)
    (hall : ∀ fs u, fs <+: es → M.Run anyStep s fs u → P u) : M.Run G s es t := by
  induction h with
  | start => exact .start
  | step es e t u hr _ hs ih =>
      have ht : I t := hr.invariant h0 fun t e u ht _ hs => hI t e u ht hs
      have hPt : P t := hall es t (List.prefix_append es [e]) hr
      have hu : P u := hall _ u List.prefix_rfl (.step es e t u hr trivial hs)
      refine .step es e t u (ih fun fs v hfs => ?_) (hG t e u ht hPt hs hu) hs
      exact hall fs v (hfs.trans (List.prefix_append es [e]))

/-- The states on the way of a guarded run are reached by guarded runs. -/
theorem Run.of_prefix (hG : M.Run G s es t) (hfs : fs <+: es) (hu : M.Run anyStep s fs u) :
    M.Run G s fs u := by
  obtain ⟨gs, rfl⟩ := hfs
  obtain ⟨v, hv, _⟩ := hG.split
  obtain rfl := Option.some.inj (hu.run_eq.symm.trans hv.any.run_eq)
  exact hv

/-- **The exact guard, for a property of the labels so far**: where a step keeps `I` if and only if
    it meets `G`, the runs through states with `I` only are the runs guarded by `G`. -/
theorem Run.traceInvariant_iff {I : List ε → σ → Prop} (h0 : I [] s) (h : M.Run anyStep s es t)
    (hI : ∀ fs v e w, fs ++ [e] <+: es → M.Run anyStep s fs v → I fs v → M.step v e = some w →
      (I (fs ++ [e]) w ↔ G v e)) :
    (∀ fs u, fs <+: es → M.Run anyStep s fs u → I fs u) ↔ M.Run G s es t := by
  constructor
  · intro hall
    induction h with
    | start => exact .start
    | step es e v w hr _ hs ih =>
        have hv : I es v := hall es v (List.prefix_append es [e]) hr
        have hw : I (es ++ [e]) w := hall _ w List.prefix_rfl (.step es e v w hr trivial hs)
        have hG : M.Run G s es v := by
          refine ih (fun fs a f b hfs => hI fs a f b ?_) fun fs a hfs => hall fs a ?_
          · exact hfs.trans (List.prefix_append es [e])
          · exact hfs.trans (List.prefix_append es [e])
        exact .step es e v w hG ((hI es v e w List.prefix_rfl hr hv hs).mp hw) hs
  · intro hG fs u hfs hu
    have hGu : M.Run G s fs u := hG.of_prefix hfs hu
    clear hu
    induction hGu with
    | start => exact h0
    | step fs e v w hr hg hs ih =>
        have hv : I fs v := ih ((List.prefix_append fs [e]).trans hfs)
        exact (hI fs v e w hfs hr.any hv hs).mpr hg

/-- **The exact guard**: where a step keeps `I` if and only if it meets `G`, the runs through
    states with `I` only are the runs guarded by `G`. -/
theorem Run.invariant_iff {I : σ → Prop} (h0 : I s)
    (hI : ∀ t e u, I t → M.step t e = some u → (I u ↔ G t e)) (h : M.Run anyStep s es t) :
    (∀ fs u, fs <+: es → M.Run anyStep s fs u → I u) ↔ M.Run G s es t :=
  h.traceInvariant_iff (I := fun _ => I) h0 fun _ v e w _ _ hv hs => hI v e w hv hs

/-! ## 3. What happened on the way -/

/-- **Some step of the run met `p`** (of the state before, the label, the state after). -/
def Past (M : Machine σ ε) (p : σ → ε → σ → Prop) : σ → List ε → Prop
  | _, [] => False
  | s, e :: es =>
    match M.step s e with
    | none => False
    | some t => p s e t ∨ Past M p t es

instance Past.decidable (p : σ → ε → σ → Prop) [∀ s e t, Decidable (p s e t)] :
    (s : σ) → (es : List ε) → Decidable (M.Past p s es)
  | _, [] => .isFalse id
  | s, e :: es =>
    match h : M.step s e with
    | none => .isFalse (by simp [Past, h])
    | some t =>
      have := Past.decidable p t es
      decidable_of_iff (p s e t ∨ M.Past p t es) (by simp [Past, h])

/-- **The last step** is part of what happened. -/
theorem Run.past_snoc (h : M.Run G s es t) {e : ε} (hs : M.step t e = some u)
    (p : σ → ε → σ → Prop) : M.Past p s (es ++ [e]) ↔ M.Past p s es ∨ p t e u := by
  refine h.head_induction (motive := fun s es =>
    M.Past p s (es ++ [e]) ↔ M.Past p s es ∨ p t e u) ?_ fun v f w es hv ih => ?_
  · simp [Past, hs]
  · simp only [List.cons_append, Past, hv, ih, or_assoc]

/-- **The invariant rule with a history**: `H p` says that a step that meets `p` has happened. -/
theorem Run.pastInvariant {I : ((σ → ε → σ → Prop) → Prop) → σ → Prop}
    (h0 : I (fun _ => False) s)
    (hI : ∀ H t e u, I H t → G t e → M.step t e = some u → I (fun p => H p ∨ p t e u) u)
    (h : M.Run G s es t) : I (fun p => M.Past p s es) t := by
  induction h with
  | start => exact h0
  | step es e t u hr hg hs ih =>
      have hpast : (fun p => M.Past p s (es ++ [e])) = fun p => M.Past p s es ∨ p t e u :=
        funext fun p => propext (hr.past_snoc hs p)
      rw [hpast]
      exact hI _ t e u ih hg hs

/-- **How many steps of the run met `p`** (of the state before and the label). -/
def count (M : Machine σ ε) (p : σ → ε → Bool) : σ → List ε → Nat
  | _, [] => 0
  | s, e :: es => (if p s e then 1 else 0) + (M.step s e).elim 0 fun t => count M p t es

/-- **The last step** counts if it met `p`. -/
theorem Run.count_snoc (h : M.Run G s es t) (e : ε) (p : σ → ε → Bool) :
    M.count p s (es ++ [e]) = M.count p s es + if p t e then 1 else 0 := by
  refine h.head_induction (motive := fun s es =>
    M.count p s (es ++ [e]) = M.count p s es + if p t e then 1 else 0) ?_ fun v f w es hv ih => ?_
  · cases hs : M.step t e <;> simp [count, hs]
  · simp only [List.cons_append, count, hv, Option.elim_some, ih, Nat.add_assoc]

/-- **What the steps of a run show**, one after another (of the state before and the label). -/
def trace {ω : Type} (M : Machine σ ε) (f : σ → ε → List ω) : σ → List ε → List ω
  | _, [] => []
  | s, e :: es => f s e ++ (M.step s e).elim [] fun t => trace M f t es

theorem Run.trace_snoc {ω : Type} (h : M.Run G s es t) (e : ε) (f : σ → ε → List ω) :
    M.trace f s (es ++ [e]) = M.trace f s es ++ f t e := by
  refine h.head_induction (motive := fun s es =>
    M.trace f s (es ++ [e]) = M.trace f s es ++ f t e) ?_ fun v e' w es hv ih => ?_
  · cases hs : M.step t e <;> simp [trace, hs]
  · simp only [List.cons_append, trace, hv, Option.elim_some, ih, List.append_assoc]

/-- A machine with more steps shows the same. -/
theorem Run.trace_of_step {ω : Type} {N : Machine σ ε}
    (hN : ∀ s e t, M.step s e = some t → N.step s e = some t) (f : σ → ε → List ω)
    (h : M.Run G s es t) : N.trace f s es = M.trace f s es := by
  induction h with
  | start => rfl
  | step es e t u hr _ _ ih => rw [(hr.of_step hN).trace_snoc, hr.trace_snoc, ih]

/-- **The invariant rule with what was shown.** -/
theorem Run.shownInvariant {ω : Type} {f : σ → ε → List ω} {I : List ω → σ → Prop} (h0 : I [] s)
    (hI : ∀ ms t e u, I ms t → G t e → M.step t e = some u → I (ms ++ f t e) u)
    (h : M.Run G s es t) : I (M.trace f s es) t := by
  induction h with
  | start => exact h0
  | step es e t u hr hg hs ih =>
      rw [hr.trace_snoc]
      exact hI _ t e u ih hg hs

/-! ## 4. Every step with the labels before it -/

/-- **Every step of the run meets `P`** (of the labels before it, the state before it and the
    label); `before` are the labels before the run. -/
def Along (M : Machine σ ε) (P : List ε → σ → ε → Prop) : List ε → σ → List ε → Prop
  | _, _, [] => True
  | before, s, e :: es =>
    P before s e ∧ (M.step s e).elim True fun t => Along M P (before ++ [e]) t es

instance Along.decidable (P : List ε → σ → ε → Prop) [∀ es s e, Decidable (P es s e)] :
    (before : List ε) → (s : σ) → (es : List ε) → Decidable (M.Along P before s es)
  | _, _, [] => .isTrue trivial
  | before, s, e :: es =>
    match h : M.step s e with
    | none => decidable_of_iff (P before s e) (by simp [Along, h])
    | some t =>
      have := Along.decidable P (before ++ [e]) t es
      decidable_of_iff (P before s e ∧ M.Along P (before ++ [e]) t es) (by simp [Along, h])

theorem Run.along_snoc {P : List ε → σ → ε → Prop} (h : M.Run G s es t) (e : ε) :
    M.Along P [] s (es ++ [e]) ↔ M.Along P [] s es ∧ P es t e := by
  have hall : ∀ before,
      (M.Along P before s (es ++ [e]) ↔ M.Along P before s es ∧ P (before ++ es) t e) := by
    refine h.head_induction (motive := fun s es => ∀ before,
      (M.Along P before s (es ++ [e]) ↔ M.Along P before s es ∧ P (before ++ es) t e))
      (fun before => ?_) fun v f w es hv ih before => ?_
    · cases hs : M.step t e <;> simp [Along, hs]
    · simp only [List.cons_append, Along, hv, Option.elim_some, ih, List.append_assoc, and_assoc,
        List.nil_append]
  exact hall []

/-- **Two conditions on every step.** Where `I` holds at the start and is kept by the steps that
    meet `P`, and under `I` a step meets `P` if and only if it meets `Q`, a run meets `P` along
    the way if and only if it meets `Q`. -/
theorem Run.along_iff {P Q : List ε → σ → ε → Prop} {I : List ε → σ → Prop} (h0 : I [] s)
    (hI : ∀ es t e u, I es t → P es t e → M.step t e = some u → I (es ++ [e]) u)
    (hiff : ∀ es t e, I es t → (P es t e ↔ Q es t e)) (h : M.Run G s es t) :
    M.Along P [] s es ↔ M.Along Q [] s es := by
  have hall : (M.Along P [] s es → I es t) ∧ (M.Along P [] s es ↔ M.Along Q [] s es) := by
    induction h with
    | start => exact ⟨fun _ => h0, Iff.rfl⟩
    | step es e t u hr _ hs ih =>
        obtain ⟨ihI, ih⟩ := ih
        rw [hr.along_snoc, hr.along_snoc]
        refine ⟨fun ⟨halong, hP⟩ => hI es t e u (ihI halong) hP hs, fun ⟨halong, hP⟩ => ?_,
          fun ⟨halong, hQ⟩ => ?_⟩
        · exact ⟨ih.mp halong, (hiff es t e (ihI halong)).mp hP⟩
        · have halong' := ih.mpr halong
          exact ⟨halong', (hiff es t e (ihI halong')).mpr hQ⟩
  exact hall.2

/-! ## 5. Two runs -/

/-- **Unwinding**: `R` relates states an observer cannot tell apart. If an invisible step leads
    to a related state and a visible step leads related states to related states, two runs with
    the same visible labels end in related states. The invariant `I` holds on both runs. -/
theorem run_unwind (R : σ → σ → Prop) (I : σ → Prop) (vis : ε → Bool)
    (hsymm : ∀ a b, R a b → R b a) (htrans : ∀ a b c, R a b → R b c → R a c)
    (hI : ∀ a e b, I a → M.step a e = some b → I b)
    (hinv : ∀ a e b, I a → vis e = false → M.step a e = some b → R a b)
    (hvis : ∀ a a' e b b', I a → I a' → R a a' → vis e = true → M.step a e = some b →
      M.step a' e = some b' → R b b')
    (hI0 : I s) (hR0 : R s s) {t' : σ} (h : M.Run anyStep s es t)
    (h' : M.Run anyStep s fs t') (hes : es.filter vis = fs.filter vis) : R t t' := by
  have hIrun : ∀ {es : List ε} {t : σ}, M.Run anyStep s es t → I t :=
    fun h => h.invariant hI0 fun t e u ht _ hs => hI t e u ht hs
  induction h generalizing fs t' with
  | start =>
      -- the second run shows nothing: walk it step by step inside the class of `s`
      induction h' with
      | start => exact hR0
      | step fs f v w hr' _ hs' ih =>
          rw [List.filter_append] at hes
          obtain ⟨hfs, hf⟩ := List.append_eq_nil_iff.mp hes.symm
          have hf' : vis f = false := by simpa using hf
          exact htrans _ _ _ (ih hfs.symm) (hinv v f w (hIrun hr') hf' hs')
  | step es e t u hr _ hs ih =>
      by_cases he : vis e = true
      · -- a visible last label: the second run has one too, at the end of its visible part
        induction h' with
        | start => simp [List.filter_append, he] at hes
        | step fs f v w hr' _ hs' ih' =>
            by_cases hf : vis f = true
            · rw [List.filter_append, List.filter_append] at hes
              simp only [List.filter_cons, he, hf, if_true, List.filter_nil] at hes
              obtain ⟨h1, h2⟩ := List.append_inj' hes rfl
              obtain rfl : e = f := by simpa using h2
              exact hvis t v e u w (hIrun hr) (hIrun hr') (ih hr' h1) he hs hs'
            · have hf' : vis f = false := by simpa using hf
              have hes' : (es ++ [e]).filter vis = fs.filter vis := by
                rw [hes, List.filter_append]
                simp [hf']
              exact htrans _ _ _ (ih' hes') (hinv v f w (hIrun hr') hf' hs')
      · have he' : vis e = false := by simpa using he
        have hes' : es.filter vis = fs.filter vis := by
          rw [← hes, List.filter_append]
          simp [he']
        exact htrans _ _ _ (hsymm _ _ (hinv t e u (hIrun hr) he' hs)) (ih h' hes')

end Machine

end LocalSend.Lib
