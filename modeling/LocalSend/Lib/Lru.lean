/-
  File:      LocalSend/Lib/Lru.lean
  Subject:   CACHES WITH A CAPACITY that drop the entry used least recently. Nothing here names a
             program.

  * `Lru` -- the entries, the most recently used first: no key twice, no more than the capacity;
  * `put`, `get`, `peek` -- `put` and `get` bring the entry to the front, `peek` does not;
  * `keys_put` -- **which keys are kept depends on the keys only**, not on the values;
  * `LruCache` -- what is relied on of such a cache; `lruCache`: `Lru` is one;
  * `replay` -- a cache as a fold over what was put; `keys_replay`, `peek_replay`: two caches that
    replay one list have the same keys, and a kept key shows the last element put under it;
  * `mem_keys_put_of_room` -- with room left no key is dropped.
-/
import LocalSend.Lib.Assoc
import Mathlib.Data.List.Induction
import Mathlib.Data.List.Nodup

namespace LocalSend.Lib

/-- A cache: the entry used last comes first. -/
structure Lru (κ α : Type) (capacity : Nat) where
  entries : List (κ × α)
  nodup : (entries.map Prod.fst).Nodup
  bounded : entries.length ≤ capacity

namespace Lru

variable {κ α : Type} {capacity : Nat}

/-! ## 1. Definitions -/

def empty : Lru κ α capacity := ⟨[], List.nodup_nil, Nat.zero_le _⟩

def keys (c : Lru κ α capacity) : List κ := c.entries.map Prod.fst

theorem ext_entries {a b : Lru κ α capacity} (h : a.entries = b.entries) : a = b := by
  cases a
  cases b
  cases h
  rfl

variable [DecidableEq κ]

/-- The value of a key; the order stays. -/
def peek (c : Lru κ α capacity) (k : κ) : Option α := c.entries.lookup k

theorem nodup_front {l : List (κ × α)} (h : (l.map Prod.fst).Nodup) (k : κ) (v : α) :
    (((k, v) :: l.filter fun e => e.1 ≠ k).map Prod.fst).Nodup := by
  rw [List.map_cons, List.nodup_cons]
  refine ⟨?_, h.sublist (List.filter_sublist.map Prod.fst)⟩
  intro hk
  obtain ⟨e, he, hek⟩ := List.mem_map.mp hk
  exact of_decide_eq_true (List.mem_filter.mp he).2 hek

/-- A value under a key, in front; what exceeds the capacity is dropped. -/
def put (c : Lru κ α capacity) (k : κ) (v : α) : Lru κ α capacity where
  entries := ((k, v) :: c.entries.filter fun e => e.1 ≠ k).take capacity
  nodup := (nodup_front c.nodup k v).sublist ((List.take_sublist ..).map Prod.fst)
  bounded := by
    rw [List.length_take]
    exact Nat.min_le_left ..

/-- The value of a key; its entry comes to the front. -/
def get (c : Lru κ α capacity) (k : κ) : Option α × Lru κ α capacity :=
  match c.peek k with
  | none => (none, c)
  | some v => (some v, c.put k v)

variable {c : Lru κ α capacity} {j k : κ} {v w : α}

/-! ## 2. Keys and values -/

theorem mem_keys : k ∈ c.keys ↔ ∃ v, c.peek k = some v := by
  rw [← Option.isSome_iff_exists, ← Option.ne_none_iff_isSome, peek, ne_eq, Assoc.lookup_eq_none,
    not_not]
  rfl

/-- **The keys after a `put`** depend on the keys only. -/
theorem keys_put : (c.put k v).keys = (k :: c.keys.filter fun e => e ≠ k).take capacity := by
  simp only [keys, put, List.map_take, List.map_cons, List.filter_map]
  rfl

theorem entries_put {n : Nat} (c : Lru κ α (n + 1)) :
    (c.put k v).entries = (k, v) :: (c.entries.filter fun e => e.1 ≠ k).take n := rfl

theorem peek_put_self (hcap : 0 < capacity) : (c.put k v).peek k = some v := by
  cases capacity with
  | zero => exact absurd hcap (Nat.lt_irrefl 0)
  | succ n => rw [peek, entries_put, Assoc.lookup_cons, if_pos rfl]

/-- A value that is still there is the one from before. -/
theorem peek_put_ne (h : j ≠ k) (hw : (c.put k v).peek j = some w) : c.peek j = some w := by
  have hmem := (List.take_sublist ..).mem (Assoc.mem_of_lookup hw)
  rcases List.mem_cons.mp hmem with he | he
  · exact absurd (congrArg Prod.fst he) h
  · exact Assoc.lookup_of_mem c.nodup (List.mem_filter.mp he).1

/-- A second `put` of one entry changes nothing. -/
theorem put_put_self (hcap : 0 < capacity) : (c.put k v).put k v = c.put k v := by
  cases capacity with
  | zero => exact absurd hcap (Nat.lt_irrefl 0)
  | succ n =>
      have hfront : ∀ e ∈ (c.entries.filter fun e => e.1 ≠ k).take n, decide (e.1 ≠ k) = true :=
        fun e he => (List.mem_filter.mp ((List.take_sublist ..).mem he)).2
      apply ext_entries
      rw [entries_put, entries_put, List.filter_cons_of_neg (by simp),
        List.filter_eq_self.mpr hfront, List.take_take, Nat.min_self]

/-- **A read of what was just put changes nothing.** -/
theorem get_put_self (hcap : 0 < capacity) : (c.put k v).get k = (some v, c.put k v) := by
  rw [get, peek_put_self hcap]
  exact congrArg (Prod.mk (some v)) (put_put_self hcap)

end Lru

/-! ## 3. What is relied on -/

/-- **A cache with a capacity**: `keys` are its keys, the one used last first. -/
structure LruCache (κ α : Type) [DecidableEq κ] (capacity : Nat) where
  Cache : Type
  new : Cache
  put : Cache → κ → α → Cache
  get : Cache → κ → Option α × Cache
  peek : Cache → κ → Option α
  keys : Cache → List κ
  keys_new : keys new = []
  keys_put : ∀ c k v, keys (put c k v) = (k :: (keys c).filter fun e => e ≠ k).take capacity
  mem_keys : ∀ c k, k ∈ keys c ↔ ∃ v, peek c k = some v
  peek_put_self : ∀ c k v, peek (put c k v) k = some v
  peek_put_ne : ∀ c j k v w, j ≠ k → peek (put c k v) j = some w → peek c j = some w
  get_put_self : ∀ c k v, get (put c k v) k = (some v, put c k v)

/-- **`Lru` is such a cache.** -/
def Lru.lruCache {κ α : Type} [DecidableEq κ] {capacity : Nat} (hcap : 0 < capacity) :
    LruCache κ α capacity where
  Cache := Lru κ α capacity
  new := .empty
  put := Lru.put
  get := Lru.get
  peek := Lru.peek
  keys := Lru.keys
  keys_new := rfl
  keys_put _ _ _ := Lru.keys_put
  mem_keys _ _ := Lru.mem_keys
  peek_put_self _ _ _ := Lru.peek_put_self hcap
  peek_put_ne _ _ _ _ _ := Lru.peek_put_ne
  get_put_self _ _ _ := Lru.get_put_self hcap

namespace LruCache

variable {κ α ι : Type} [DecidableEq κ] {capacity : Nat} {C : LruCache κ α capacity}
  {c : C.Cache} {j k : κ} {v w : α} {key : ι → κ} {value other : ι → α} {xs : List ι} {x : ι}

/-- **With room left, no key is dropped.** -/
theorem mem_keys_put_of_room (hroom : (C.keys c).length < capacity) :
    j ∈ C.keys (C.put c k v) ↔ j = k ∨ j ∈ C.keys c := by
  have hlength : (k :: (C.keys c).filter fun e => e ≠ k).length ≤ capacity := by
    have := List.length_filter_le (fun e => decide (e ≠ k)) (C.keys c)
    simp only [List.length_cons]
    omega
  rw [C.keys_put, List.take_of_length_le hlength, List.mem_cons, List.mem_filter]
  by_cases h : j = k <;> simp [h]

/-! ## 4. Replays -/

/-- What was put, one after another. -/
def replay (C : LruCache κ α capacity) (key : ι → κ) (value : ι → α) (xs : List ι) : C.Cache :=
  xs.foldl (fun c x => C.put c (key x) (value x)) C.new

/-- The last element under a key. -/
def lastWith (key : ι → κ) (k : κ) (xs : List ι) : Option ι :=
  (xs.filter fun x => key x = k).getLast?

theorem replay_snoc : C.replay key value (xs ++ [x]) =
    C.put (C.replay key value xs) (key x) (value x) := by
  rw [replay, List.foldl_append]
  rfl

theorem lastWith_snoc :
    lastWith key k (xs ++ [x]) = if key x = k then some x else lastWith key k xs := by
  rw [lastWith, List.filter_append]
  by_cases h : key x = k
  · simp [h]
  · simp [h, lastWith]

theorem lastWith_eq_some (h : lastWith key k xs = some x) : x ∈ xs ∧ key x = k := by
  obtain ⟨hx, hk⟩ := List.mem_filter.mp (List.mem_of_getLast? h)
  exact ⟨hx, of_decide_eq_true hk⟩

/-- **Two replays of one list keep the same keys.** -/
theorem keys_replay : C.keys (C.replay key value xs) = C.keys (C.replay key other xs) := by
  induction xs using List.reverseRecOn with
  | nil => rfl
  | append_singleton xs x ih => rw [replay_snoc, replay_snoc, C.keys_put, C.keys_put, ih]

/-- **A kept key shows the last element put under it.** -/
theorem peek_replay (hk : k ∈ C.keys (C.replay key value xs)) :
    C.peek (C.replay key value xs) k = (lastWith key k xs).map value := by
  induction xs using List.reverseRecOn with
  | nil =>
      rw [replay, List.foldl_nil, C.keys_new] at hk
      cases hk
  | append_singleton xs x ih =>
      obtain ⟨w, hw⟩ := (C.mem_keys _ _).mp hk
      rw [hw]
      rw [replay_snoc] at hw
      rw [lastWith_snoc]
      by_cases h : key x = k
      · subst h
        rw [if_pos rfl]
        exact hw.symm.trans (C.peek_put_self ..)
      · have hold := C.peek_put_ne _ _ _ _ _ (Ne.symm h) hw
        rw [if_neg h, ← ih ((C.mem_keys _ _).mpr ⟨w, hold⟩), hold]

end LruCache

end LocalSend.Lib
