/-
  File:      LocalSend/Lib/SplitOn.lean
  Subject:   SPLITTING A LIST AT A SEPARATOR. Nothing here names a program.

  * `not_mem_of_mem_splitOn` -- the parts have no separator;
  * `splitOn_eq_append` -- **parts after each other are the parts of two lists** with a separator
    between them.
-/
import Mathlib.Data.List.Basic

namespace LocalSend.Lib.SplitOn

variable {α : Type} {x : α} {cs part : List α}

theorem intercalate_append {front back : List (List α)} (hfront : front ≠ []) (hback : back ≠ []) :
    [x].intercalate (front ++ back) = [x].intercalate front ++ x :: [x].intercalate back := by
  induction front with
  | nil => exact absurd rfl hfront
  | cons part front ih =>
      rw [List.cons_append, List.intercalate_cons_of_ne_nil (by simp [hback])]
      cases front with
      | nil => simp
      | cons part' front =>
          rw [ih (List.cons_ne_nil _ _), List.intercalate_cons_of_ne_nil (List.cons_ne_nil _ _)]
          simp

variable [BEq α] [LawfulBEq α]

/-- **The parts have no separator.** -/
theorem not_mem_of_mem_splitOn (h : part ∈ cs.splitOn x) : x ∉ part := by
  induction cs generalizing part with
  | nil =>
      rw [List.splitOn_nil, List.mem_singleton] at h
      subst h
      exact List.not_mem_nil
  | cons c cs ih =>
      rw [List.splitOn_cons_eq_if_modifyHead] at h
      split at h
      · rcases List.mem_cons.mp h with rfl | h
        · exact List.not_mem_nil
        · exact ih h
      · rename_i hc
        obtain ⟨first, rest, hsplit⟩ := List.exists_cons_of_ne_nil (List.splitOn_ne_nil x cs)
        rw [hsplit, List.modifyHead_cons] at h
        rw [hsplit] at ih
        rcases List.mem_cons.mp h with rfl | h
        · rw [List.mem_cons, not_or]
          refine ⟨fun heq => hc (by rw [heq, BEq.rfl]), ih List.mem_cons_self⟩
        · exact ih (List.mem_cons_of_mem _ h)

/-- **Parts after each other**: the list is two lists around a separator. -/
theorem splitOn_eq_append {front back : List (List α)} (h : cs.splitOn x = front ++ back)
    (hfront : front ≠ []) (hback : back ≠ []) :
    ∃ a b, cs = a ++ x :: b ∧ a.splitOn x = front ∧ b.splitOn x = back := by
  have hmem : ∀ part ∈ front ++ back, x ∉ part := by
    intro part hpart
    rw [← h] at hpart
    exact not_mem_of_mem_splitOn hpart
  refine ⟨[x].intercalate front, [x].intercalate back, ?_, ?_, ?_⟩
  · rw [← intercalate_append hfront hback, ← h, List.intercalate_splitOn]
  · exact List.splitOn_intercalate x (fun part hp => hmem part (List.mem_append_left _ hp)) hfront
  · exact List.splitOn_intercalate x (fun part hp => hmem part (List.mem_append_right _ hp)) hback

end LocalSend.Lib.SplitOn
