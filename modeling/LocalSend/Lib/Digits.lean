/-
  File:      LocalSend/Lib/Digits.lean
  Subject:   NUMBERS IN TEXT, in a base up to 16 and without leading zeros (`Nat.toDigits`). Nothing
             here names a program.

  * `digitChar_inj` -- a digit is read back from its character;
  * `mem_toDigits` -- the characters of a number are digits;
  * `toDigits_inj` -- **a number is read back from its digits**;
  * `numbers_inj` -- **numbers are read back from a text** where a character that is no digit
    separates them.
-/
import Mathlib.Data.List.Basic

namespace LocalSend.Lib.Digits

variable {b m n : Nat} {c : Char}

theorem digitChar_inj (hm : m < 16) (hn : n < 16) (h : m.digitChar = n.digitChar) : m = n := by
  have hall : ∀ m : Fin 16, ∀ n : Fin 16, m.1.digitChar = n.1.digitChar → m = n := by decide
  exact congrArg Fin.val (hall ⟨m, hm⟩ ⟨n, hn⟩ h)

/-- **The characters of a number** are digits of the base. -/
theorem mem_toDigits (hb : 1 < b) (h : c ∈ Nat.toDigits b n) : ∃ d < b, c = d.digitChar := by
  induction n using Nat.strongRecOn with
  | ind n ih =>
      rw [Nat.toDigits_eq_if hb] at h
      split at h
      · rename_i hn
        exact ⟨n, hn, List.mem_singleton.mp h⟩
      · rename_i hn
        rcases List.mem_append.mp h with h | h
        · exact ih (n / b) (Nat.div_lt_self (by omega) hb) h
        · exact ⟨n % b, Nat.mod_lt n (by omega), List.mem_singleton.mp h⟩

/-- A character that is no digit is in no number. -/
theorem not_mem_toDigits (hb : 1 < b) (hb' : b ≤ 16) (hc : ∀ d : Fin 16, c ≠ d.1.digitChar) :
    c ∉ Nat.toDigits b n := by
  intro h
  obtain ⟨d, hd, rfl⟩ := mem_toDigits hb h
  exact hc ⟨d, Nat.lt_of_lt_of_le hd hb'⟩ rfl

/-- **A number is read back from its digits.** -/
theorem toDigits_inj (hb : 1 < b) (hb' : b ≤ 16) (h : Nat.toDigits b m = Nat.toDigits b n) :
    m = n := by
  induction m using Nat.strongRecOn generalizing n with
  | ind m ih =>
      have hlast : ∀ k, k % b < 16 := fun k => Nat.lt_of_lt_of_le (Nat.mod_lt k (by omega)) hb'
      rcases Nat.lt_or_ge m b with hm | hm
      · rcases Nat.lt_or_ge n b with hn | hn
        · rw [Nat.toDigits_of_lt_base hm, Nat.toDigits_of_lt_base hn] at h
          exact digitChar_inj (by omega) (by omega) (List.singleton_inj.mp h)
        · rw [Nat.toDigits_of_lt_base hm, Nat.toDigits_of_base_le hb hn] at h
          have happend : [] ++ [m.digitChar] = Nat.toDigits b (n / b) ++ [(n % b).digitChar] := h
          exact absurd (List.append_inj' happend rfl).1.symm Nat.toDigits_ne_nil
      · rcases Nat.lt_or_ge n b with hn | hn
        · rw [Nat.toDigits_of_base_le hb hm, Nat.toDigits_of_lt_base hn] at h
          have happend : Nat.toDigits b (m / b) ++ [(m % b).digitChar] = [] ++ [n.digitChar] := h
          exact absurd (List.append_inj' happend rfl).1 Nat.toDigits_ne_nil
        · rw [Nat.toDigits_of_base_le hb hm, Nat.toDigits_of_base_le hb hn] at h
          obtain ⟨hfront, hdigit⟩ := List.append_inj' h rfl
          have hquot : m / b = n / b := ih (m / b) (Nat.div_lt_self (by omega) hb) hfront
          have hrem : m % b = n % b :=
            digitChar_inj (hlast m) (hlast n) (List.singleton_inj.mp hdigit)
          rw [← Nat.div_add_mod m b, hquot, hrem, Nat.div_add_mod]

/-- **Numbers with a separator between them** are read back. -/
theorem numbers_inj (hb : 1 < b) (hb' : b ≤ 16) (hc : ∀ d : Fin 16, c ≠ d.1.digitChar)
    {ms ns : List Nat} (hms : ms ≠ []) (hns : ns ≠ [])
    (h : [c].intercalate (ms.map (Nat.toDigits b)) = [c].intercalate (ns.map (Nat.toDigits b))) :
    ms = ns := by
  have hparts : ∀ ks : List Nat, ∀ part ∈ ks.map (Nat.toDigits b), c ∉ part := by
    intro ks part hpart
    obtain ⟨k, _, rfl⟩ := List.mem_map.mp hpart
    exact not_mem_toDigits hb hb' hc
  have hsplit := congrArg (List.splitOn c) h
  rw [List.splitOn_intercalate c (hparts ms) (by simp [hms]),
    List.splitOn_intercalate c (hparts ns) (by simp [hns])] at hsplit
  exact List.map_injective_iff.mpr (fun _ _ => toDigits_inj hb hb') hsplit

end LocalSend.Lib.Digits
