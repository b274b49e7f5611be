/-
  File:      LocalSend/Lib/Clock.lean
  Subject:   RUNS WITH A CLOCK. Some labels of a machine carry the time they were taken at; nothing
             here names a program.

  * `Forward` -- the clock of a run never goes back; `Forward.past_le` -- the last label is not
    earlier than any label before it;
  * `lastChange` -- when a part of the state changed last; `Run.lastChange_snoc`.
-/
import LocalSend.Lib.Machine

namespace LocalSend.Lib.Machine

variable {σ ε τ α : Type} {M : Machine σ ε} {G : σ → ε → Prop} {s t u : σ} {es fs : List ε} {e : ε}

/-! ## 1. The clock -/

section Clock

variable [LE τ] {time : ε → Option τ}

/-- **The clock never goes back**, from one label with a time to the next. -/
def Forward (time : ε → Option τ) (es : List ε) : Prop := (es.filterMap time).Pairwise (· ≤ ·)

instance [DecidableLE τ] : Decidable (Forward time es) :=
  inferInstanceAs (Decidable (List.Pairwise _ _))

theorem Forward.of_prefix (h : Forward time es) (hfs : fs <+: es) : Forward time fs :=
  List.Pairwise.sublist (hfs.sublist.filterMap time) h

theorem Forward.past_le (h : Forward time (es ++ [e])) {now : τ} (he : time e = some now) :
    ∀ past ∈ es.filterMap time, past ≤ now := by
  intro past hpast
  rw [Forward, List.filterMap_append, List.pairwise_append] at h
  exact h.2.2 past hpast now (List.mem_filterMap.mpr ⟨e, List.mem_singleton_self e, he⟩)

end Clock

/-! ## 2. Changes -/

section Changes

variable [DecidableEq α] (M) (time : ε → Option τ) (obs : σ → α)

/-- The time of a step, if it changes `obs`. -/
def change (s : σ) (e : ε) : List (Option τ) :=
  (M.step s e).elim [] fun t => if obs t = obs s then [] else [time e]

/-- **When `obs` changed last** in the run: the time of that step, which may have none. -/
def lastChange (s : σ) (es : List ε) : Option (Option τ) :=
  (M.trace (M.change time obs) s es).getLast?

variable {M time obs}

/-- **The last step** changes `obs`, or leaves the last change where it was. -/
theorem Run.lastChange_snoc (h : M.Run G s es t) (hs : M.step t e = some u) :
    M.lastChange time obs s (es ++ [e]) =
      if obs u = obs t then M.lastChange time obs s es else some (time e) := by
  rw [lastChange, h.trace_snoc, change, hs, Option.elim_some]
  split
  · rw [List.append_nil, lastChange]
  · rw [List.getLast?_concat]

end Changes

end LocalSend.Lib.Machine
