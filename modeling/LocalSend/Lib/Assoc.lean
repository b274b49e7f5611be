/-
  File:      LocalSend/Lib/Assoc.lean
  Subject:   Association lists read as finite maps: what `List.lookup` finds, and how it behaves
             under the changes a map sees (a value replaced, a key dropped).
-/
import Mathlib.Data.List.Nodup

namespace LocalSend.Lib.Assoc

variable {α β : Type} [DecidableEq α] {l : List (α × β)} {a b : α} {v w : β}

/-- What is found is there. -/
theorem mem_of_lookup (h : l.lookup a = some v) : (a, v) ∈ l := by
  obtain ⟨l₁, l₂, rfl, _⟩ := List.lookup_eq_some_iff.mp h
  exact List.mem_append_right _ List.mem_cons_self

/-- With distinct keys, what is there is found. -/
theorem lookup_of_mem (hn : (l.map Prod.fst).Nodup) (h : (a, v) ∈ l) : l.lookup a = some v := by
  obtain ⟨l₁, l₂, rfl⟩ := List.append_of_mem h
  refine List.lookup_eq_some_iff.mpr ⟨l₁, l₂, rfl, fun p hp => ?_⟩
  rw [List.map_append, List.map_cons, List.nodup_append] at hn
  have hne := hn.2.2 p.1 (List.mem_map_of_mem hp) a List.mem_cons_self
  simpa using fun e => hne e.symm

/-- One entry at a time. -/
theorem lookup_cons (kv : α × β) (l : List (α × β)) (a : α) :
    (kv :: l).lookup a = if a = kv.1 then some kv.2 else l.lookup a := by
  obtain ⟨b, v⟩ := kv
  rw [List.lookup_cons]
  by_cases h : a = b
  · simp [h]
  · simp [h, beq_eq_false_iff_ne.mpr h]

/-- A key is absent exactly if the lookup finds nothing. -/
theorem lookup_eq_none : l.lookup a = none ↔ a ∉ l.map Prod.fst := by
  simp only [List.lookup_eq_none_iff, List.mem_map, Prod.exists, exists_and_right, exists_eq_right,
    not_exists]
  constructor
  · intro h v hv
    simpa using h (a, v) hv
  · rintro h ⟨k, v⟩ hv
    simp only [bne_iff_ne, ne_eq]
    rintro rfl
    exact h v hv

end LocalSend.Lib.Assoc
