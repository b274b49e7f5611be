/-
  File:      LocalSend/Lib/Potential.lean
  Subject:   POTENTIALS: how many steps a machine can take before it needs something new. Nothing
             here names a program.

  * `weight` -- the sum of the weights of a list, and what one element more, one less or another
    one does to it;
  * **`Run.potential`** -- where every step pays its cost out of the potential and what it is given,
    the cost of a run is at most the potential at the start and all that was given.
-/
import LocalSend.Lib.Machine

namespace LocalSend.Lib

/-! ## 1. Weights -/

section Weight

variable {α : Type} {w : α → Nat} {l : List α} {a b : α} {i : Nat}

/-- The sum of the weights. -/
def weight (w : α → Nat) : List α → Nat
  | [] => 0
  | a :: l => w a + weight w l

theorem weight_append (l l' : List α) : weight w (l ++ l') = weight w l + weight w l' := by
  induction l with
  | nil => exact (Nat.zero_add _).symm
  | cons a l ih => rw [List.cons_append, weight, weight, ih, Nat.add_assoc]

theorem weight_singleton (a : α) : weight w [a] = w a := rfl

theorem weight_eraseIdx (h : l[i]? = some a) : weight w (l.eraseIdx i) + w a = weight w l := by
  induction l generalizing i with
  | nil => cases h
  | cons x l ih =>
      cases i with
      | zero =>
          obtain rfl := Option.some.inj h
          rw [List.eraseIdx_cons_zero, weight, Nat.add_comm]
      | succ i =>
          have hrest := ih (i := i) (by simpa using h)
          rw [List.eraseIdx_cons_succ, weight, weight]
          omega

theorem weight_set (h : l[i]? = some a) : weight w (l.set i b) + w a = weight w l + w b := by
  induction l generalizing i with
  | nil => cases h
  | cons x l ih =>
      cases i with
      | zero =>
          obtain rfl := Option.some.inj h
          rw [List.set_cons_zero, weight, weight]
          omega
      | succ i =>
          have hrest := ih (i := i) (by simpa using h)
          rw [List.set_cons_succ, weight, weight]
          omega

/-- Elements of one weight. -/
theorem weight_eq_mul {n : Nat} (h : ∀ a ∈ l, w a = n) : weight w l = l.length * n := by
  induction l with
  | nil => exact (Nat.zero_mul n).symm
  | cons a l ih =>
      rw [weight, ih fun b hb => h b (List.mem_cons_of_mem a hb), h a List.mem_cons_self,
        List.length_cons, Nat.succ_mul, Nat.add_comm]

/-- The elements with a property weigh the same, the others nothing. -/
theorem weight_ite {n : Nat} (p : α → Bool) (l : List α) :
    weight (fun a => if p a then n else 0) l = l.countP p * n := by
  induction l with
  | nil => exact (Nat.zero_mul n).symm
  | cons a l ih =>
      rw [weight, ih, List.countP_cons]
      split
      · rw [Nat.succ_mul, Nat.add_comm]
      · rw [Nat.zero_add, Nat.add_zero]

end Weight

/-! ## 2. Runs -/

namespace Machine

variable {σ ε : Type} {M : Machine σ ε} {G : σ → ε → Prop} {s t : σ} {es : List ε}

/-- **The rule of potentials**: if every step's cost and the potential after it are paid by the
    potential before it and the step's credit, so is the cost of a run. -/
theorem Run.potential (Φ : σ → Nat) (cost credit : ε → Nat)
    (hstep : ∀ t e u, G t e → M.step t e = some u → Φ u + cost e ≤ Φ t + credit e)
    (h : M.Run G s es t) : Φ t + weight cost es ≤ Φ s + weight credit es := by
  induction h with
  | start => exact Nat.le_refl _
  | step es e t u _ hg hs ih =>
      have hlast := hstep t e u hg hs
      rw [weight_append, weight_append, weight_singleton, weight_singleton]
      omega

end Machine

end LocalSend.Lib
