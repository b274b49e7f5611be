/-
  File:      LocalSend/Lib/LinkedMap.lean
  Subject:   MAPS THAT KEEP THEIR INSERTION ORDER. An association list whose keys are distinct, by
             construction.

  * `insert` -- a new key goes to the end, an old one keeps its place;
  * `update` -- changes the value of a key that is there, and fails without it;
  * `mapValues` -- a new value for every key, same keys in the same order; `erase` -- without a
    key;
  * the lookup of each operation (`get?_insert`, `get?_update`, `get?_mapValues`), and its keys;
  * `get?_foldl_upsert`, `filter_values_eq_singleton` -- many upserts, and a value that is alone.
-/
import LocalSend.Lib.Assoc
import Mathlib.Data.List.Nodup

namespace LocalSend.Lib

/-- A map with insertion order; its keys are distinct. -/
structure LinkedMap (κ α : Type) where
  entries : List (κ × α)
  nodup : (entries.map Prod.fst).Nodup

namespace LinkedMap

variable {κ α : Type} [DecidableEq κ] {m : LinkedMap κ α} {k j : κ} {v w : α}

omit [DecidableEq κ] in
theorem ext_entries {a b : LinkedMap κ α} (h : a.entries = b.entries) : a = b := by
  cases a
  cases b
  cases h
  rfl

instance [DecidableEq α] : DecidableEq (LinkedMap κ α) := fun a b =>
  decidable_of_iff (a.entries = b.entries) ⟨ext_entries, fun h => h ▸ rfl⟩

instance [Repr κ] [Repr α] : Repr (LinkedMap κ α) := ⟨fun m => reprPrec m.entries⟩

/-! ## 1. Operations -/

omit [DecidableEq κ] in
/-- The keys, in insertion order. -/
def keys (m : LinkedMap κ α) : List κ := m.entries.map Prod.fst

omit [DecidableEq κ] in
def values (m : LinkedMap κ α) : List α := m.entries.map Prod.snd

def empty : LinkedMap κ α := ⟨[], List.nodup_nil⟩

def get? (m : LinkedMap κ α) (k : κ) : Option α := m.entries.lookup k

theorem setValue_keys (l : List (κ × α)) (k : κ) (v : α) :
    (l.map fun kv => if kv.1 = k then (kv.1, v) else kv).map Prod.fst = l.map Prod.fst := by
  rw [List.map_map]
  refine List.map_congr_left fun kv _ => ?_
  by_cases h : kv.1 = k <;> simp [h]

/-- `m[k] = v`. -/
def insert (m : LinkedMap κ α) (k : κ) (v : α) : LinkedMap κ α :=
  if h : k ∈ m.keys then
    ⟨m.entries.map fun kv => if kv.1 = k then (kv.1, v) else kv, by
      rw [setValue_keys]
      exact m.nodup⟩
  else
    ⟨m.entries ++ [(k, v)], by
      rw [List.map_append, List.nodup_append]
      refine ⟨m.nodup, by simp, fun a ha b hb => ?_⟩
      obtain rfl : b = k := by simpa using hb
      rintro rfl
      exact h ha⟩

/-- `m.update(k, f)` without a value for the absent key: fails if the key is not there. -/
def update (m : LinkedMap κ α) (k : κ) (f : α → α) : Option (LinkedMap κ α) :=
  (m.get? k).map fun v => m.insert k (f v)

omit [DecidableEq κ] in
/-- A new value for every key. -/
def mapValues (m : LinkedMap κ α) (f : κ → α → α) : LinkedMap κ α :=
  ⟨m.entries.map fun kv => (kv.1, f kv.1 kv.2), by
    rw [List.map_map]
    exact m.nodup⟩

/-- `m.remove(k)`. -/
def erase (m : LinkedMap κ α) (k : κ) : LinkedMap κ α :=
  ⟨m.entries.filter fun kv => kv.1 ≠ k, m.nodup.sublist (List.filter_sublist.map _)⟩

/-- The map of a list of entries; a later entry of a key replaces the value. -/
def ofList (l : List (κ × α)) : LinkedMap κ α := l.foldl (fun m kv => m.insert kv.1 kv.2) empty

/-! ## 2. Lookups and keys -/

theorem get?_eq_none : m.get? k = none ↔ k ∉ m.keys := Assoc.lookup_eq_none

theorem mem_keys : k ∈ m.keys ↔ ∃ v, m.get? k = some v := by
  rw [← Option.ne_none_iff_exists', ne_eq, get?_eq_none, Decidable.not_not]

theorem get?_mem (h : m.get? k = some v) : (k, v) ∈ m.entries := Assoc.mem_of_lookup h

theorem get?_of_mem (h : (k, v) ∈ m.entries) : m.get? k = some v := Assoc.lookup_of_mem m.nodup h

theorem mem_entries : (k, v) ∈ m.entries ↔ m.get? k = some v := ⟨get?_of_mem, get?_mem⟩

theorem mem_values {v : α} : v ∈ m.values ↔ ∃ k, m.get? k = some v := by
  simp only [values, List.mem_map, Prod.exists, exists_eq_right, mem_entries]

theorem mem_insert {x : κ × α} :
    x ∈ (m.insert k v).entries ↔ x = (k, v) ∨ (x ∈ m.entries ∧ x.1 ≠ k) := by
  unfold insert
  split
  · rename_i hk
    simp only [List.mem_map]
    constructor
    · intro h
      obtain ⟨kv, hkv, rfl⟩ := h
      by_cases h : kv.1 = k
      · exact Or.inl (by simp [h])
      · exact Or.inr (by simpa [h] using hkv)
    · rintro (rfl | ⟨hx, hne⟩)
      · obtain ⟨kv, hkv, hk⟩ := List.mem_map.mp hk
        exact ⟨kv, hkv, by simp [hk]⟩
      · exact ⟨x, hx, by simp [hne]⟩
  · rename_i hk
    simp only [List.mem_append, List.mem_singleton]
    constructor
    · rintro (hx | rfl)
      · refine Or.inr ⟨hx, ?_⟩
        rintro rfl
        exact hk (List.mem_map_of_mem hx)
      · exact Or.inl rfl
    · rintro (rfl | ⟨hx, _⟩)
      · exact Or.inr rfl
      · exact Or.inl hx

theorem get?_insert_self : (m.insert k v).get? k = some v :=
  get?_of_mem (mem_insert.mpr (Or.inl rfl))

theorem get?_insert_ne (h : j ≠ k) : (m.insert k v).get? j = m.get? j := by
  refine Option.ext fun w => ?_
  rw [← mem_entries, ← mem_entries, mem_insert]
  constructor
  · rintro (he | ⟨hx, _⟩)
    · exact absurd (Prod.mk.inj he).1 h
    · exact hx
  · exact fun hx => Or.inr ⟨hx, h⟩

theorem get?_insert : (m.insert k v).get? j = if j = k then some v else m.get? j := by
  split
  · rename_i h
    rw [h]
    exact get?_insert_self
  · rename_i h
    exact get?_insert_ne h

theorem insert_of_notMem (h : k ∉ m.keys) : (m.insert k v).entries = m.entries ++ [(k, v)] := by
  unfold insert
  rw [dif_neg h]

/-- The map of its own entries. -/
theorem ofList_entries (m : LinkedMap κ α) : ofList m.entries = m := by
  have hfold : ∀ (l : List (κ × α)) (m' : LinkedMap κ α),
      ((m'.entries ++ l).map Prod.fst).Nodup →
      (l.foldl (fun m kv => m.insert kv.1 kv.2) m').entries = m'.entries ++ l := by
    intro l
    induction l with
    | nil => simp
    | cons kv l ih =>
        intro m' hnd
        have hnew : kv.1 ∉ m'.keys := by
          rw [List.map_append, List.map_cons] at hnd
          exact fun h => List.disjoint_of_nodup_append hnd h List.mem_cons_self
        have hinsert := insert_of_notMem (v := kv.2) hnew
        rw [List.foldl_cons, ih, hinsert, List.append_assoc]
        · rfl
        · rw [hinsert, List.append_assoc]
          exact hnd
  exact ext_entries (hfold m.entries empty m.nodup)

/-- An entry of the map of a list is one of the list. -/
theorem mem_of_get?_ofList {l : List (κ × α)} (h : (ofList l).get? k = some v) : (k, v) ∈ l := by
  have hfold : ∀ (l : List (κ × α)) (m' : LinkedMap κ α) (x : κ × α),
      x ∈ (l.foldl (fun m kv => m.insert kv.1 kv.2) m').entries → x ∈ m'.entries ∨ x ∈ l := by
    intro l
    induction l with
    | nil => exact fun _ _ hx => Or.inl hx
    | cons kv l ih =>
        intro m' x hx
        rcases ih _ x hx with hx | hx
        · rcases mem_insert.mp hx with rfl | hx
          · exact Or.inr List.mem_cons_self
          · exact Or.inl hx.1
        · exact Or.inr (List.mem_cons_of_mem _ hx)
  rcases hfold l empty (k, v) (get?_mem h) with hx | hx
  · cases hx
  · exact hx

theorem keys_insert_of_mem (h : k ∈ m.keys) : (m.insert k v).keys = m.keys := by
  unfold insert
  rw [dif_pos h]
  exact setValue_keys _ _ _

theorem update_eq_none {f : α → α} : m.update k f = none ↔ k ∉ m.keys := by
  rw [update, Option.map_eq_none_iff, get?_eq_none]

/-- What a successful update leaves. -/
theorem update_spec {f : α → α} {m' : LinkedMap κ α} (h : m.update k f = some m') :
    m'.keys = m.keys ∧ (∃ v, m.get? k = some v ∧ m'.get? k = some (f v)) ∧
    ∀ j, j ≠ k → m'.get? j = m.get? j := by
  obtain ⟨v, hv, rfl⟩ := Option.map_eq_some_iff.mp h
  exact ⟨keys_insert_of_mem (mem_keys.mpr ⟨v, hv⟩), ⟨v, hv, get?_insert_self⟩,
    fun j hj => get?_insert_ne hj⟩

omit [DecidableEq κ] in
@[simp] theorem keys_mapValues (f : κ → α → α) : (m.mapValues f).keys = m.keys := by
  simp [keys, mapValues, Function.comp_def]

theorem get?_mapValues (f : κ → α → α) : (m.mapValues f).get? k = (m.get? k).map (f k) := by
  refine Option.ext fun w => ?_
  rw [← mem_entries, Option.map_eq_some_iff]
  simp only [mapValues, List.mem_map, Prod.mk.injEq]
  constructor
  · intro h
    obtain ⟨⟨k', v⟩, hkv, rfl, rfl⟩ := h
    exact ⟨v, get?_of_mem hkv, rfl⟩
  · intro h
    obtain ⟨v, hv, rfl⟩ := h
    exact ⟨(k, v), get?_mem hv, rfl, rfl⟩

/-- Keys that can be read off the values. -/
theorem map_values_eq_keys {key : α → κ} (h : ∀ k v, m.get? k = some v → key v = k) :
    m.values.map key = m.keys := by
  rw [values, List.map_map, keys]
  exact List.map_congr_left fun kv hkv => h kv.1 kv.2 (get?_of_mem hkv)

/-- A map rebuilt from its values, under the keys read off them. -/
theorem ofList_values {key : α → κ} (h : ∀ k v, m.get? k = some v → key v = k) (g : α → α) :
    ofList (m.values.map fun v => (key v, g v)) = m.mapValues fun _ => g := by
  have hentries : m.values.map (fun v => (key v, g v)) = (m.mapValues fun _ => g).entries := by
    rw [values, List.map_map, mapValues]
    refine List.map_congr_left fun kv hkv => ?_
    simp [h kv.1 kv.2 (get?_of_mem hkv)]
  rw [hentries, ofList_entries]

theorem get?_erase : (m.erase k).get? j = if j = k then none else m.get? j := by
  refine Option.ext fun w => ?_
  rw [← mem_entries]
  simp only [erase, List.mem_filter, decide_eq_true_eq, mem_entries]
  split
  · rename_i h
    simp [h]
  · rename_i h
    simp [h]

/-- What is left was there. -/
theorem get?_of_erase {v : α} (h : (m.erase k).get? j = some v) : m.get? j = some v := by
  rw [get?_erase] at h
  split at h
  · cases h
  · exact h

/-! ## 3. Values -/

/-- **A key sees its own upserts only.** Each `x` gives the key `key x` a value made of the old
    one. -/
theorem get?_foldl_upsert {β : Type} (key : β → κ) (f : Option α → β → α) (xs : List β) :
    (xs.foldl (fun m x => m.insert (key x) (f (m.get? (key x)) x)) m).get? k =
      (xs.filter fun x => key x = k).foldl (fun v x => some (f v x)) (m.get? k) := by
  induction xs generalizing m with
  | nil => rfl
  | cons x xs ih =>
      rw [List.foldl_cons, ih, get?_insert]
      by_cases h : key x = k
      · subst h
        simp
      · rw [if_neg fun e => h e.symm, List.filter_cons_of_neg (by simpa using h)]

/-- The lists of a map whose elements know their keys: those of one key stand in its list. -/
theorem filter_flatten_values {β : Type} {m : LinkedMap κ (List β)} {key : β → κ}
    (h : ∀ k xs, m.get? k = some xs → ∀ x ∈ xs, key x = k) :
    m.values.flatten.filter (fun x => key x = k) = (m.get? k).getD [] := by
  have hall : ∀ l : List (κ × List β), (l.map Prod.fst).Nodup →
      (∀ kv ∈ l, ∀ x ∈ kv.2, key x = kv.1) →
      (l.map Prod.snd).flatten.filter (fun x => key x = k) = (l.lookup k).getD [] := by
    intro l
    induction l with
    | nil => intros; rfl
    | cons kv l ih =>
        intro hnd hkey
        obtain ⟨hout, hnd⟩ := List.nodup_cons.mp hnd
        have htail := ih hnd fun kv' hkv' => hkey kv' (List.mem_cons_of_mem _ hkv')
        have hhead := hkey kv List.mem_cons_self
        rw [List.map_cons, List.flatten_cons, List.filter_append, htail, Assoc.lookup_cons]
        by_cases hk : k = kv.1
        · have hnone : l.lookup k = none := Assoc.lookup_eq_none.mpr (hk ▸ hout)
          rw [if_pos hk, hnone, List.filter_eq_self.mpr fun x hx => by simp [hhead x hx, hk]]
          simp
        · have hnil : kv.2.filter (fun x => key x = k) = [] :=
            List.filter_eq_nil_iff.mpr fun x hx => by simpa [hhead x hx] using fun e => hk e.symm
          rw [if_neg hk, hnil, List.nil_append]
  exact hall m.entries m.nodup fun kv hkv => h kv.1 kv.2 (get?_of_mem hkv)

omit [DecidableEq κ] in
theorem filter_values (p : α → Bool) :
    m.values.filter p = (m.entries.filter fun kv => p kv.2).map Prod.snd := by
  rw [values, List.filter_map]
  rfl

/-- **One value with `p`**: it stands under one key, and no other key has such a value. -/
theorem filter_values_eq_singleton {p : α → Bool} :
    m.values.filter p = [v] ↔
      ∃ k, m.get? k = some v ∧ p v ∧ ∀ j w, m.get? j = some w → p w → j = k := by
  rw [filter_values]
  constructor
  · intro h
    obtain ⟨⟨k, v'⟩, hkv, hv'⟩ := List.map_eq_singleton_iff.mp h
    obtain rfl : v' = v := hv'
    have hin : (k, v') ∈ m.entries.filter fun kv => p kv.2 := by simp [hkv]
    obtain ⟨hmem, hp⟩ := List.mem_filter.mp hin
    refine ⟨k, get?_of_mem hmem, hp, fun j w hj hw => ?_⟩
    have hjw : (j, w) ∈ m.entries.filter fun kv => p kv.2 :=
      List.mem_filter.mpr ⟨get?_mem hj, hw⟩
    rw [hkv, List.mem_singleton] at hjw
    exact (Prod.mk.inj hjw).1
  · intro h
    obtain ⟨k, hk, hp, hone⟩ := h
    have hiff : ∀ x, x ∈ (m.entries.filter fun kv => p kv.2) ↔ x ∈ [(k, v)] := by
      intro h
      obtain ⟨j, w⟩ := h
      rw [List.mem_filter, mem_entries, List.mem_singleton]
      constructor
      · intro h
        obtain ⟨hj, hw⟩ := h
        obtain rfl := hone j w hj hw
        rw [hk] at hj
        rw [Option.some.inj hj]
      · intro h
        obtain ⟨rfl, rfl⟩ := Prod.mk.inj h
        exact ⟨hk, hp⟩
    have hnd : (m.entries.filter fun kv => p kv.2).Nodup :=
      (List.Nodup.of_map _ m.nodup).filter _
    rw [List.perm_singleton.mp ((List.perm_ext_iff_of_nodup hnd (List.nodup_singleton _)).mpr hiff)]
    rfl

end LinkedMap

end LocalSend.Lib
