/-
  File:      LocalSend/Lib/KeyedWrites.lean
  Subject:   WRITES TO THE KEYS OF A MAP, one after another. Nothing here names a program.

  * `applyWrites` -- the map after a list of writes;
  * `applyWrites_apply` -- a key holds what the last write of it wrote (`lastOf`);
  * `applyWrites_replace` -- the writes of a key before another write of it do not matter;
  * `applyWrites_first` -- **a write may come first**, if none of the writes before it is of its
    key.
-/
import Mathlib.Logic.Function.Basic
import Mathlib.Data.List.Induction

namespace LocalSend.Lib

/-- A write of a key. -/
structure KeyedWrite (κ α : Type) where
  key : κ
  value : α
  deriving DecidableEq, Repr

namespace KeyedWrite

variable {κ α : Type} [DecidableEq κ]

/-! ## 1. Definitions -/

def apply (m : κ → α) (w : KeyedWrite κ α) : κ → α := Function.update m w.key w.value

/-- The map after the writes. -/
def applyWrites (m : κ → α) (ws : List (KeyedWrite κ α)) : κ → α := ws.foldl apply m

/-- The last write of a key. -/
def lastOf (key : κ) (ws : List (KeyedWrite κ α)) : Option (KeyedWrite κ α) :=
  (ws.filter fun w => w.key = key).getLast?

/-- The writes of the other keys. -/
def others (key : κ) (ws : List (KeyedWrite κ α)) : List (KeyedWrite κ α) :=
  ws.filter fun w => w.key ≠ key

variable {m : κ → α} {w : KeyedWrite κ α} {ws pre post : List (KeyedWrite κ α)} {key : κ}

@[simp] theorem applyWrites_nil : applyWrites m [] = m := rfl

@[simp] theorem applyWrites_cons : applyWrites m (w :: ws) = applyWrites (apply m w) ws := rfl

theorem applyWrites_append : applyWrites m (pre ++ post) = applyWrites (applyWrites m pre) post :=
  List.foldl_append

theorem applyWrites_snoc : applyWrites m (ws ++ [w]) = apply (applyWrites m ws) w := by
  rw [applyWrites_append]
  rfl

/-! ## 2. Which write counts -/

theorem lastOf_snoc : lastOf key (ws ++ [w]) = if w.key = key then some w else lastOf key ws := by
  rw [lastOf, List.filter_append]
  by_cases h : w.key = key
  · simp [h]
  · simp [h, lastOf]

/-- There is no last write of a key that no write is of. -/
theorem lastOf_eq_none : lastOf key ws = none ↔ ∀ w ∈ ws, w.key ≠ key := by
  simp [lastOf]

/-- **A key holds what the last write of it wrote.** -/
theorem applyWrites_apply :
    applyWrites m ws key = ((lastOf key ws).map KeyedWrite.value).getD (m key) := by
  induction ws using List.reverseRecOn with
  | nil => rfl
  | append_singleton ws w ih =>
      rw [applyWrites_snoc, lastOf_snoc, apply]
      by_cases h : w.key = key
      · subst h
        simp
      · rw [Function.update_of_ne (fun e => h e.symm), if_neg h, ih]

theorem others_snoc : others key (ws ++ [w]) =
    if w.key = key then others key ws else others key ws ++ [w] := by
  rw [others, List.filter_append]
  by_cases h : w.key = key
  · simp [h, others]
  · simp [h, others]

/-- Without the writes of a key, the other keys hold the same. -/
theorem applyWrites_others {k : κ} (h : k ≠ key) :
    applyWrites m (others key ws) k = applyWrites m ws k := by
  induction ws using List.reverseRecOn with
  | nil => rfl
  | append_singleton ws w ih =>
      rw [others_snoc, applyWrites_snoc]
      split
      · rename_i hw
        rw [ih, apply, Function.update_of_ne (by rw [hw]; exact h)]
      · rw [applyWrites_snoc, apply, apply]
        by_cases hk : k = w.key
        · subst hk
          simp
        · rw [Function.update_of_ne hk, Function.update_of_ne hk, ih]

/-- The writes of a key do not matter before another write of it. -/
theorem applyWrites_replace :
    applyWrites m (others w.key ws ++ [w]) = apply (applyWrites m ws) w := by
  rw [applyWrites_snoc]
  funext k
  by_cases hk : k = w.key
  · subst hk
    simp [apply]
  · rw [apply, apply, Function.update_of_ne hk, Function.update_of_ne hk, applyWrites_others hk]

/-- **A write may come first**, if none of the writes before it is of its key. -/
theorem applyWrites_first (h : ∀ w' ∈ pre, w'.key ≠ w.key) :
    applyWrites (apply m w) (pre ++ post) = applyWrites m (pre ++ w :: post) := by
  induction pre generalizing m with
  | nil => rfl
  | cons v pre ih =>
      have hv : v.key ≠ w.key := h v List.mem_cons_self
      have hcomm : apply (apply m w) v = apply (apply m v) w :=
        Function.update_comm hv.symm _ _ _
      rw [List.cons_append, List.cons_append, applyWrites_cons, applyWrites_cons, hcomm]
      exact ih fun w' hw' => h w' (List.mem_cons_of_mem _ hw')

end KeyedWrite

end LocalSend.Lib
