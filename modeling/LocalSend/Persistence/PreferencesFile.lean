/-
  File:      LocalSend/Persistence/PreferencesFile.lean
  Subject:   THE PREFERENCES IN A FILE OF THEIR OWN (`shared_preferences_file.dart`).

  A map is kept in a cache, which is read from the file when it is first needed, and written to the
  file by every operation. `clear` writes an empty map to the file and leaves the cache.

  * `Codec` -- the texts of maps: what is encoded is decoded again;
  * `SharedPreferencesFile`, `Op`, `step` -- the store and its operations;
  * `applyOp` -- the same on a map;
  * `Refines` -- what `getAll` returns, now or after reopening the file, is the map;
  * `step_refines`, `clear_refines` -- every operation keeps this, `clear` exactly if the cache is
    not read yet or is empty;
  * **`refines_iff`** -- the store is the map in every state of a run, exactly if every `clear`
    finds the cache so. `cleared_key_reappears`: with a key in the cache, `clear` does not remove it.
-/
import Mathlib.Data.List.Induction
import LocalSend.Lib.Json
import LocalSend.Lib.LinkedMap

namespace LocalSend.Persistence.PreferencesFile

open Lib

/-! ## 1. The store -/

/-- `JsonEncoder.convert` for maps, and `json.decode` of a text that holds an object. -/
structure Codec (τ α : Type) where
  encode : LinkedMap String α → τ
  decode : τ → Option (LinkedMap String α)
  isNull : α → Bool
  /-- the text of a new file -/
  empty : τ
  decode_encode : ∀ m, decode (encode m) = some m
  decode_empty : decode empty = none

/-- The values of type `Object`. -/
abbrev Codec.Object {τ α : Type} (C : Codec τ α) : Type := { v : α // C.isNull v = false }

structure SharedPreferencesFile (τ α : Type) where
  /-- the text of the file, if there is one -/
  file : Option τ
  /-- `_cache`, once it was needed -/
  cache : Option (LinkedMap String α)

variable {τ α : Type} (C : Codec τ α)

inductive Op where
  | setValue (key : String) (value : C.Object)
  | remove (key : String)
  | clear
  | getAll
  /-- the file is closed and opened again -/
  | reopen

/-- The map of a text; without one, or with another one, an empty map. -/
def contents (file : Option τ) : LinkedMap String α :=
  (file.bind C.decode).getD .empty

/-- `_getAll`: a file that is missing is created. -/
def readAll (file : Option τ) : Option τ × LinkedMap String α :=
  let file := some (file.getD C.empty)
  (file, contents C file)

/-- The first use of `_cache` initialises it. -/
def getAll (s : SharedPreferencesFile τ α) :
    SharedPreferencesFile τ α × LinkedMap String α :=
  match s.cache with
  | some m => (s, m)
  | none =>
    let (file, m) := readAll C s.file
    (⟨file, some m⟩, m)

/-- The map can be read at its type, `Map<String, Object>`. -/
def Readable (m : LinkedMap String α) : Prop := ∀ v ∈ m.values, C.isNull v = false

instance (m : LinkedMap String α) : Decidable (Readable C m) :=
  inferInstanceAs (Decidable (∀ v ∈ m.values, _ = false))

/-- `_write`: the conversion comes first, and fails on a value that is null. -/
def write (file : Option τ) (data : LinkedMap String α) : Option τ :=
  if Readable C data then some (C.encode data) else some (file.getD C.empty)

def step (s : SharedPreferencesFile τ α) : Op C → SharedPreferencesFile τ α
  | .setValue key value =>
    let (s, m) := getAll C s
    let m := m.insert key value.val
    ⟨write C s.file m, some m⟩
  | .remove key =>
    let (s, m) := getAll C s
    let m := m.erase key
    ⟨write C s.file m, some m⟩
  | .clear => { s with file := write C s.file .empty }
  | .getAll => (getAll C s).1
  | .reopen => { s with cache := none }

/-- **The store after the operations**, opened on a file. -/
def after (file : Option τ) (ops : List (Op C)) : SharedPreferencesFile τ α :=
  ops.foldl (step C) ⟨file, none⟩

/-! ## 2. The map -/

def applyOp (m : LinkedMap String α) : Op C → LinkedMap String α
  | .setValue key value => m.insert key value.val
  | .remove key => m.erase key
  | .clear => .empty
  | .getAll | .reopen => m

/-- **The map after the operations.** -/
def mapAfter (file : Option τ) (ops : List (Op C)) : LinkedMap String α :=
  ops.foldl (applyOp C) (contents C file)

/-- `getAll` returns `m`. -/
def Returns (s : SharedPreferencesFile τ α) (m : LinkedMap String α) : Prop :=
  (getAll C s).2 = m ∧ Readable C m

/-- **The store is the map**: now, and when the file is opened again. -/
def Refines (s : SharedPreferencesFile τ α) (m : LinkedMap String α) : Prop :=
  Returns C s m ∧ Returns C (step C s .reopen) m

/-- The cache is not read yet, or is empty. -/
def clearable (s : SharedPreferencesFile τ α) : Prop := s.cache = none ∨ s.cache = some .empty

variable {C} {s : SharedPreferencesFile τ α} {m : LinkedMap String α} {file : Option τ}
  {op : Op C} {ops : List (Op C)}

/-! ## 3. One operation -/

@[simp] theorem contents_encode : contents C (some (C.encode m)) = m := by
  simp [contents, C.decode_encode]

/-- A file that is created holds no map. -/
theorem contents_created : contents C (some (file.getD C.empty)) = contents C file := by
  cases file with
  | none => simp [contents, C.decode_empty]
  | some text => rfl

/-- What `getAll` returns, and what it leaves in the cache and in the file. -/
theorem getAll_eq : (getAll C s).2 = s.cache.getD (contents C s.file) ∧
    (getAll C s).1.cache = some (getAll C s).2 ∧
    contents C (getAll C s).1.file = contents C s.file := by
  cases hcache : s.cache with
  | some m => simp [getAll, hcache]
  | none => simp [getAll, hcache, readAll, contents_created]

theorem refines_iff_contents :
    Refines C s m ↔ (getAll C s).2 = m ∧ contents C s.file = m ∧ Readable C m := by
  have hreopen : (getAll C (step C s .reopen)).2 = contents C s.file := getAll_eq.1
  rw [Refines, Returns, Returns, hreopen]
  exact ⟨fun h => ⟨h.1.1, h.2.1, h.1.2⟩, fun h => ⟨⟨h.1, h.2.2⟩, h.2⟩⟩

/-- What an operation writes is what it leaves in the cache. -/
theorem written_refines (hm : Readable C m) : Refines C ⟨write C file m, some m⟩ m := by
  rw [refines_iff_contents]
  refine ⟨rfl, ?_, hm⟩
  rw [write, if_pos hm, contents_encode]

theorem readable_insert {key : String} {value : C.Object} (h : Readable C m) :
    Readable C (m.insert key value.val) := by
  intro v hv
  obtain ⟨k, hk⟩ := LinkedMap.mem_values.mp hv
  rw [LinkedMap.get?_insert] at hk
  split at hk
  · cases hk
    exact value.property
  · exact h v (LinkedMap.mem_values.mpr ⟨k, hk⟩)

theorem readable_erase {key : String} (h : Readable C m) : Readable C (m.erase key) := by
  intro v hv
  obtain ⟨k, hk⟩ := LinkedMap.mem_values.mp hv
  rw [LinkedMap.get?_erase] at hk
  split at hk
  · cases hk
  · exact h v (LinkedMap.mem_values.mpr ⟨k, hk⟩)

theorem readable_empty : Readable C .empty := fun _ h => by cases h

/-- **`clear` and the cache**: the cleared store is the empty map exactly if the cache is not read
    yet or is empty. -/
theorem clear_refines : Refines C (step C s .clear) .empty ↔ clearable s := by
  have hfile : contents C (step C s .clear).file = .empty := by
    show contents C (write C s.file .empty) = .empty
    rw [write, if_pos readable_empty, contents_encode]
  rw [refines_iff_contents, hfile, getAll_eq.1, hfile]
  show s.cache.getD .empty = .empty ∧ _ ↔ clearable s
  rw [clearable]
  cases s.cache with
  | none => simp [readable_empty]
  | some m => simp [readable_empty]

/-- **Every other operation keeps the store and the map together.** -/
theorem step_refines (h : Refines C s m) (hop : op = .clear → clearable s) :
    Refines C (step C s op) (applyOp C m op) := by
  obtain ⟨hget, hfile, hreadable⟩ := refines_iff_contents.mp h
  cases op with
  | setValue key value =>
      simp only [step, applyOp, hget]
      exact written_refines (readable_insert hreadable)
  | remove key =>
      simp only [step, applyOp, hget]
      exact written_refines (readable_erase hreadable)
  | clear => exact clear_refines.mpr (hop rfl)
  | getAll =>
      obtain ⟨-, hcache, hsame⟩ := getAll_eq (C := C) (s := s)
      refine refines_iff_contents.mpr ⟨?_, hsame.trans hfile, hreadable⟩
      show (getAll C (getAll C s).1).2 = m
      rw [getAll_eq.1, hcache, hget]
      rfl
  | reopen =>
      refine refines_iff_contents.mpr ⟨?_, hfile, hreadable⟩
      exact getAll_eq.1.trans hfile

/-! ## 4. Every sequence of operations -/

theorem after_snoc : after C file (ops ++ [op]) = step C (after C file ops) op := by
  simp [after]

theorem mapAfter_snoc : mapAfter C file (ops ++ [op]) = applyOp C (mapAfter C file ops) op := by
  simp [mapAfter]

theorem opened_refines : Refines C ⟨file, none⟩ (contents C file) ↔
    Readable C (contents C file) := by
  rw [refines_iff_contents]
  exact ⟨fun h => h.2.2, fun h => ⟨getAll_eq.1, rfl, h⟩⟩

/-- **The store is a persistent map exactly if every `clear` comes before the cache is filled.**
    On the left: after any part of the operations, `getAll` returns the map of these operations,
    and so it does once the file is opened again. On the right: the file holds no null, and every
    `clear` finds a cache that is not read yet or is empty. -/
theorem refines_iff (C : Codec τ α) (file : Option τ) (ops : List (Op C)) :
    (∀ pre, pre <+: ops → Refines C (after C file pre) (mapAfter C file pre)) ↔
      Readable C (contents C file) ∧
      ∀ pre, pre ++ [.clear] <+: ops → clearable (after C file pre) := by
  constructor
  · intro h
    refine ⟨opened_refines.mp (h [] List.nil_prefix), fun pre hpre => ?_⟩
    have hcleared := h _ hpre
    rw [after_snoc, mapAfter_snoc] at hcleared
    exact clear_refines.mp hcleared
  · rintro ⟨hopened, hclear⟩ pre hpre
    -- one operation after the other, each at the end of a part of `ops`
    induction pre using List.reverseRecOn with
    | nil => exact opened_refines.mpr hopened
    | append_singleton pre op ih =>
        rw [after_snoc, mapAfter_snoc]
        refine step_refines (ih ((List.prefix_append pre [op]).trans hpre)) ?_
        rintro rfl
        exact hclear pre hpre

/-! ## 5. JSON -/

/-- The objects over JSON values, as UTF-8. -/
def jsonCodec : Codec (List UInt8) Json where
  encode m := Json.encode (.obj m.entries)
  decode text :=
    match Json.decode text with
    | some (.obj fields) => some (.ofList fields)
    | _ => none
  isNull
    | .null => true
    | _ => false
  empty := []
  decode_encode m := by
    rw [Json.decode_encode]
    exact congrArg some (LinkedMap.ofList_entries m)
  decode_empty := by
    cases h : Json.decode [] with
    | none => rfl
    | some j =>
        obtain ⟨n, rfl⟩ := @Json.decode_short [] (Nat.zero_le 1) j h
        rfl

def demoValue : jsonCodec.Object := ⟨.str "v", rfl⟩

/-- One value is set and the store is cleared. -/
def clearedOps : List (Op jsonCodec) := [.setValue "k" demoValue, .clear]

/-- **A key reappears.** The store is cleared, and `getAll` still returns the value; once another
    one is set, the first one is in the file again. -/
theorem cleared_key_reappears :
    (mapAfter jsonCodec none clearedOps).get? "k" = none ∧
    (getAll jsonCodec (after jsonCodec none clearedOps)).2.get? "k" = some demoValue.val ∧
    (contents jsonCodec (after jsonCodec none
      (clearedOps ++ [.setValue "j" demoValue])).file).get? "k" = some demoValue.val := by
  have hopened : (getAll jsonCodec ⟨none, none⟩).2 = .empty := getAll_eq.1
  have hcleared : (getAll jsonCodec (after jsonCodec none clearedOps)).2 =
      (getAll jsonCodec ⟨none, none⟩).2.insert "k" demoValue.val := getAll_eq.1
  rw [hopened] at hcleared
  have hreadable : Readable jsonCodec (((LinkedMap.empty.insert "k" demoValue.val)).insert "j"
      demoValue.val) := readable_insert (readable_insert readable_empty)
  refine ⟨rfl, ?_, ?_⟩
  · rw [hcleared, LinkedMap.get?_insert_self]
  · rw [after_snoc]
    simp only [step, hcleared]
    rw [write, if_pos hreadable, contents_encode, LinkedMap.get?_insert_ne (by decide),
      LinkedMap.get?_insert_self]

end LocalSend.Persistence.PreferencesFile
