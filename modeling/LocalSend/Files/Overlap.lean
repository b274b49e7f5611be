/-
  File:      LocalSend/Files/Overlap.lean
  Subject:   SAVES THAT OVERLAP (`saveFile` and `_saveFile` of `file_saver.dart`, for paths).

  A save asks whether a file exists and opens it later, each behind an await; with the first error
  it deletes the path again. Any number of saves run at once, in any interleaving.

  * `Save`, `Saves`, `Event`, `step` -- the machine, one step for each piece between two awaits;
    `answers_freePath`: a save whose questions are answered without a step of another one in
    between ends the loop where `freePath` does;
  * `found` -- the guard: what is a destination of a save that overlaps is found by the question;
  * `Apart` -- the invariant: saves that overlap have different destinations, and a save that
    writes finds the file it opened (`writing_found`);
  * **`saves_apart`** -- so in every run of guarded steps. `saves_share_destination`: two saves of
    the same name ask before either opens; the error of one deletes the file of the other.
-/
import LocalSend.Lib.Machine
import LocalSend.Files.Containment

namespace LocalSend.Files

open Lib Lib.Posix

/-! ## 1. Files that come and go -/

def FileSystem.put (fs : FileSystem) (here : List Text) : FileSystem :=
  { fs with kind := fun there => if there = here then some .file else fs.kind there }

def FileSystem.delete (fs : FileSystem) (here : List Text) : FileSystem :=
  { fs with kind := fun there => if there = here then none else fs.kind there }

/-- A path can be opened for writing: its directory is there, and it is no directory. -/
def canOpen (fs : FileSystem) (path : Text) : Bool :=
  find fs [] (components path).dropLast = some .directory && fs.kind (place path) ≠ some .directory

/-! ## 2. The saves -/

/-- Where a call of `saveFile` stands. -/
inductive Phase where
  /-- it asks whether the path with this counter exists -/
  | checking (counter : Nat)
  /-- no file was there, and it is not open yet -/
  | chosen (destinationPath : Text)
  | writing (destinationPath : Text)
  | ended (destinationPath : Option Text)
  deriving DecidableEq, Repr

structure Save where
  parentDirectory : Text
  fileName : Text
  /-- the calls that had ended when this one began -/
  endedBefore : List Nat
  phase : Phase
  deriving DecidableEq, Repr

/-- The file system, the save that opened each file last, and all calls so far. -/
structure Saves where
  fs : FileSystem
  opener : List Text → Option Nat
  saves : List Save

def Saves.start (fs : FileSystem) : Saves := ⟨fs, fun _ => none, []⟩

inductive Event where
  /-- `saveFile` is called and runs up to its first question -/
  | call (parentDirectory fileName : Text)
  /-- the question whether the path exists is answered -/
  | answer (a : Nat)
  | openWrite (a : Nat)
  | openFails (a : Nat)
  /-- everything is written, and the file is closed -/
  | finish (a : Nat)
  /-- an error; the path is deleted, unless that fails too -/
  | error (a : Nat) (deleted : Bool)
  deriving DecidableEq, Repr

def Phase.hasEnded : Phase → Bool
  | .ended _ => true
  | _ => false

/-- The path `saveFile` writes to, once it is known. -/
def Phase.destination : Phase → Option Text
  | .checking _ => none
  | .chosen path | .writing path => some path
  | .ended path => path

def Saves.ended (s : Saves) : List Nat :=
  (List.range s.saves.length).filter fun a => s.saves[a]?.any fun save => save.phase.hasEnded

/-- The path of the loop with this counter. -/
def candidate (platform : Platform) (save : Save) (counter : Nat) : Text :=
  joinAll [targetDir save.parentDirectory save.fileName,
    if counter = 1 then platform.legalizeFilename (basename save.fileName)
    else withCount platform (platform.legalizeFilename (basename save.fileName)) counter]

/-- `take` throws for the empty name, and a name that leaves the directory is refused. -/
def refused (parentDirectory fileName : Text) : Prop :=
  split fileName = [] ∨ 1 < (split fileName).length ∧
    ¬isWithin parentDirectory (targetDir parentDirectory fileName)

instance (parentDirectory fileName : Text) : Decidable (refused parentDirectory fileName) :=
  inferInstanceAs (Decidable (_ ∨ _))

/-- The call up to its first question. -/
def saveFile (s : Saves) (parentDirectory fileName : Text) : Saves :=
  if refused parentDirectory fileName then
    { s with saves := s.saves ++ [⟨parentDirectory, fileName, s.ended, .ended none⟩] }
  else
    { s with
      fs := if 1 < (split fileName).length
        then (createSync s.fs (targetDir parentDirectory fileName)).1 else s.fs
      saves := s.saves ++ [⟨parentDirectory, fileName, s.ended, .checking 1⟩] }

def Saves.setPhase (s : Saves) (a : Nat) (save : Save) (phase : Phase) : Saves :=
  { s with saves := s.saves.set a { save with phase := phase } }

/-- A step of save `a`. -/
def saveStep (platform : Platform) (s : Saves) (a : Nat) (save : Save) : Event → Option Saves
  | .answer _ =>
    match save.phase with
    | .checking counter =>
      if s.fs.fileExists (candidate platform save counter) then
        some (s.setPhase a save (.checking (counter + 1)))
      else some (s.setPhase a save (.chosen (candidate platform save counter)))
    | _ => none
  | .openWrite _ =>
    match save.phase with
    | .chosen path =>
      if canOpen s.fs path then
        some { s.setPhase a save (.writing path) with
          fs := s.fs.put (place path)
          opener := Function.update s.opener (place path) (some a) }
      else none
    | _ => none
  | .openFails _ =>
    match save.phase with
    | .chosen path => some (s.setPhase a save (.ended (some path)))
    | _ => none
  | .finish _ =>
    match save.phase with
    | .writing path => some (s.setPhase a save (.ended (some path)))
    | _ => none
  | .error _ deleted =>
    match save.phase with
    | .writing path =>
      if deleted then
        some { s.setPhase a save (.ended (some path)) with
          fs := s.fs.delete (place path)
          opener := Function.update s.opener (place path) none }
      else some (s.setPhase a save (.ended (some path)))
    | _ => none
  | .call _ _ => none

def step (platform : Platform) (s : Saves) (e : Event) : Option Saves :=
  match e with
  | .call parentDirectory fileName =>
    if "content://".toList <+: parentDirectory then none
    else some (saveFile s parentDirectory fileName)
  | .answer a | .openWrite a | .openFails a | .finish a | .error a _ =>
    s.saves[a]?.bind fun save => saveStep platform s a save e

/-- **The saves of one file system.** -/
def saving (platform : Platform) : Machine Saves Event := ⟨step platform⟩

/-! ## 3. The steps -/

variable {platform : Platform} {fs fs' : FileSystem} {s t : Saves} {e : Event} {es : List Event}
  {a b : Nat} {x y save : Save} {path p q : Text}

/-- **Every transition**, with its guard and its successor. -/
inductive Step (platform : Platform) (s : Saves) : Event → Saves → Prop where
  | call (parentDirectory fileName : Text) :
      Step platform s (.call parentDirectory fileName) (saveFile s parentDirectory fileName)
  | present (a : Nat) (save : Save) (counter : Nat) (ha : s.saves[a]? = some save)
      (hph : save.phase = .checking counter)
      (hexists : s.fs.fileExists (candidate platform save counter) = true) :
      Step platform s (.answer a) (s.setPhase a save (.checking (counter + 1)))
  | absent (a : Nat) (save : Save) (counter : Nat) (ha : s.saves[a]? = some save)
      (hph : save.phase = .checking counter)
      (hexists : s.fs.fileExists (candidate platform save counter) = false) :
      Step platform s (.answer a) (s.setPhase a save (.chosen (candidate platform save counter)))
  | opens (a : Nat) (save : Save) (path : Text) (ha : s.saves[a]? = some save)
      (hph : save.phase = .chosen path) (hcan : canOpen s.fs path = true) :
      Step platform s (.openWrite a) { s.setPhase a save (.writing path) with
        fs := s.fs.put (place path)
        opener := Function.update s.opener (place path) (some a) }
  | openFails (a : Nat) (save : Save) (path : Text) (ha : s.saves[a]? = some save)
      (hph : save.phase = .chosen path) :
      Step platform s (.openFails a) (s.setPhase a save (.ended (some path)))
  | finishes (a : Nat) (save : Save) (path : Text) (ha : s.saves[a]? = some save)
      (hph : save.phase = .writing path) :
      Step platform s (.finish a) (s.setPhase a save (.ended (some path)))
  | deletes (a : Nat) (save : Save) (path : Text) (ha : s.saves[a]? = some save)
      (hph : save.phase = .writing path) :
      Step platform s (.error a true) { s.setPhase a save (.ended (some path)) with
        fs := s.fs.delete (place path)
        opener := Function.update s.opener (place path) none }
  | leaves (a : Nat) (save : Save) (path : Text) (ha : s.saves[a]? = some save)
      (hph : save.phase = .writing path) :
      Step platform s (.error a false) (s.setPhase a save (.ended (some path)))

/-- **Inversion**: the machine does nothing else. -/
theorem step_inv (h : (saving platform).step s e = some t) : Step platform s e t := by
  change step platform s e = some t at h
  cases e with
  | call parentDirectory fileName =>
      simp only [step] at h
      split at h
      · cases h
      · obtain rfl := Option.some.inj h
        exact .call parentDirectory fileName
  | answer a =>
      obtain ⟨save, ha, h⟩ := Option.bind_eq_some_iff.mp h
      simp only [saveStep] at h
      split at h
      · rename_i counter hph
        split at h
        · rename_i hexists
          obtain rfl := Option.some.inj h
          exact .present a save counter ha hph hexists
        · rename_i hexists
          obtain rfl := Option.some.inj h
          exact .absent a save counter ha hph (Bool.not_eq_true _ ▸ hexists)
      · cases h
  | openWrite a =>
      obtain ⟨save, ha, h⟩ := Option.bind_eq_some_iff.mp h
      simp only [saveStep] at h
      split at h
      · rename_i path hph
        split at h
        · rename_i hcan
          obtain rfl := Option.some.inj h
          exact .opens a save path ha hph hcan
        · cases h
      · cases h
  | openFails a =>
      obtain ⟨save, ha, h⟩ := Option.bind_eq_some_iff.mp h
      simp only [saveStep] at h
      split at h
      · rename_i path hph
        obtain rfl := Option.some.inj h
        exact .openFails a save path ha hph
      · cases h
  | finish a =>
      obtain ⟨save, ha, h⟩ := Option.bind_eq_some_iff.mp h
      simp only [saveStep] at h
      split at h
      · rename_i path hph
        obtain rfl := Option.some.inj h
        exact .finishes a save path ha hph
      · cases h
  | error a deleted =>
      obtain ⟨save, ha, h⟩ := Option.bind_eq_some_iff.mp h
      simp only [saveStep] at h
      split at h
      · rename_i path hph
        cases deleted with
        | true =>
            obtain rfl := Option.some.inj h
            exact .deletes a save path ha hph
        | false =>
            obtain rfl := Option.some.inj h
            exact .leaves a save path ha hph
      · cases h

/-! ## 4. What a path finds -/

/-- A walk that gets through gets through as long as no directory goes away. -/
theorem find_mono (hdir : ∀ there, fs.kind there = some .directory →
    fs'.kind there = some .directory) {here : List Text} {names : List Text} {kind : Kind}
    (hlast : fs'.kind (names.foldl enter here) = some kind)
    (h : find fs here names = some kind) : find fs' here names = some kind := by
  induction names generalizing here with
  | nil => exact hlast
  | cons name names ih =>
      rw [find] at h ⊢
      split at h
      · rename_i hhere
        rw [if_pos (hdir here hhere)]
        exact ih hlast h
      · cases h

theorem find_snoc {here : List Text} {names : List Text} {name : Text}
    (h : find fs here names = some .directory) :
    find fs here (names ++ [name]) = fs.kind ((names ++ [name]).foldl enter here) := by
  induction names generalizing here with
  | nil =>
      have hhere : fs.kind here = some .directory := h
      rw [List.nil_append, find, if_pos hhere]
      rfl
  | cons first names ih =>
      rw [find] at h
      split at h
      · rename_i hhere
        rw [List.cons_append, find, if_pos hhere]
        exact ih h
      · cases h

/-- Making directories changes nothing that is there. -/
theorem createFrom_kind {here : List Text} {names : List Text} {there : List Text} {kind : Kind}
    (h : fs.kind there = some kind) : (createFrom fs here names).1.kind there = some kind := by
  induction names generalizing fs here with
  | nil => exact h
  | cons name names ih =>
      rw [createFrom]
      split
      · exact ih h
      · exact h
      · rename_i hnone
        split
        · refine ih ?_
          have hne : there ≠ enter here name := by
            intro heq
            rw [heq, hnone] at h
            cases h
          rw [FileSystem.make_kind_of_ne fs hne]
          exact h
        · exact h

/-- A file that is put where no directory is leaves the directories. -/
theorem put_directory {here there : List Text} (hhere : fs.kind here ≠ some .directory)
    (hthere : fs.kind there = some .directory) : (fs.put here).kind there = some .directory := by
  have hne : there ≠ here := fun heq => hhere (heq ▸ hthere)
  exact (if_neg hne).trans hthere

/-- A file that is opened is found. -/
theorem put_found (h : canOpen fs path = true) :
    (fs.put (place path)).fileExists path = true := by
  obtain ⟨hdir, hnot⟩ : find fs [] (components path).dropLast = some .directory ∧
      fs.kind (place path) ≠ some .directory := by simpa [canOpen] using h
  have hkeep : ∀ there, fs.kind there = some .directory →
      (fs.put (place path)).kind there = some .directory := fun there => put_directory hnot
  rcases List.eq_nil_or_concat' (components path) with hnil | ⟨front, last, hlast⟩
  · -- the path names the root, which is a directory
    refine absurd ?_ hnot
    rw [hnil] at hdir
    rw [place, hnil]
    exact hdir
  · rw [hlast, List.dropLast_concat] at hdir
    have hfront := find_mono hkeep (hkeep _ (find_kind hdir)) hdir
    have hfile : (fs.put (place path)).kind ((front ++ [last]).foldl enter []) = some .file := by
      rw [← hlast]
      exact if_pos rfl
    have hfind := (find_snoc hfront).trans hfile
    rw [← hlast] at hfind
    simpa [FileSystem.fileExists] using hfind

/-- A file is found as long as no directory goes away and the file stays. -/
theorem fileExists_mono (hdir : ∀ there, fs.kind there = some .directory →
    fs'.kind there = some .directory)
    (hfile : fs.kind (place path) = some .file → fs'.kind (place path) = some .file)
    (h : fs.fileExists path = true) : fs'.fileExists path = true := by
  have hfind : find fs [] (components path) = some .file := by
    simpa [FileSystem.fileExists] using h
  have hfind' := find_mono hdir (hfile (fileExists_kind h)) hfind
  simpa [FileSystem.fileExists] using hfind'

/-! ## 5. Saves that overlap -/

/-- Save `a` is `x`, save `b` is `y`, and neither had ended when the other one began. -/
structure Saves.Overlap (s : Saves) (a b : Nat) (x y : Save) : Prop where
  ne : a ≠ b
  left : s.saves[a]? = some x
  right : s.saves[b]? = some y
  before : a ∉ y.endedBefore
  after : b ∉ x.endedBefore

theorem Saves.Overlap.symm (h : s.Overlap a b x y) : s.Overlap b a y x :=
  ⟨h.ne.symm, h.right, h.left, h.after, h.before⟩

/-- The destination of save `a` is another place than the path, or the two do not overlap. -/
def elsewhere (s : Saves) (b : Nat) (y : Save) (path : Text) (a : Nat) : Bool :=
  s.saves[a]?.all fun x => a = b || y.endedBefore.contains a || x.endedBefore.contains b ||
    x.phase.destination.all fun p => place p ≠ place path

/-- **The question finds** every destination of a save that overlaps. -/
def found (platform : Platform) (s : Saves) : Event → Bool
  | .answer b => s.saves[b]?.all fun y =>
    match y.phase with
    | .checking counter =>
      s.fs.fileExists (candidate platform y counter) ||
        (List.range s.saves.length).all (elsewhere s b y (candidate platform y counter))
    | _ => true
  | _ => true

/-- **The invariant.** -/
structure Apart (s : Saves) : Prop where
  /-- what is noted as ended has ended -/
  ended : ∀ (a : Nat) (x : Save), s.saves[a]? = some x → ∀ b ∈ x.endedBefore,
    ∃ y, s.saves[b]? = some y ∧ y.phase.hasEnded = true
  /-- saves that overlap have destinations at different places -/
  apart : ∀ (a b : Nat) (x y : Save) (p q : Text), s.Overlap a b x y → x.phase.destination = some p →
    y.phase.destination = some q → place p ≠ place q
  /-- a save that writes finds the file it opened -/
  writing : ∀ (a : Nat) (x : Save) (p : Text), s.saves[a]? = some x → x.phase = .writing p →
    s.opener (place p) = some a ∧ s.fs.fileExists p = true

theorem apart_start : Apart (Saves.start fs) where
  ended a x h := by cases h
  apart a b x y p q h := by cases h.left
  writing a x p h := by cases h

/-- Two saves that have not ended overlap. -/
theorem Apart.overlap (h : Apart s) (hne : a ≠ b) (hx : s.saves[a]? = some x)
    (hy : s.saves[b]? = some y) (hxe : x.phase.hasEnded = false)
    (hye : y.phase.hasEnded = false) : s.Overlap a b x y := by
  refine ⟨hne, hx, hy, fun hin => ?_, fun hin => ?_⟩
  · obtain ⟨x', hx', hended⟩ := h.ended b y hy a hin
    obtain rfl := Option.some.inj (hx.symm.trans hx')
    rw [hxe] at hended
    cases hended
  · obtain ⟨y', hy', hended⟩ := h.ended a x hx b hin
    obtain rfl := Option.some.inj (hy.symm.trans hy')
    rw [hye] at hended
    cases hended

/-- What the guard says of a path that is free. -/
theorem found_elsewhere (hg : found platform s (.answer b) = true) (hy : s.saves[b]? = some y)
    {counter : Nat} (hph : y.phase = .checking counter)
    (hexists : s.fs.fileExists (candidate platform y counter) = false)
    (hoverlap : s.Overlap a b x y) (hp : x.phase.destination = some p) :
    place p ≠ place (candidate platform y counter) := by
  simp only [found, hy, Option.all_some, hph, hexists, Bool.false_or, List.all_eq_true,
    List.mem_range] at hg
  obtain ⟨hlt, -⟩ := List.getElem?_eq_some_iff.mp hoverlap.left
  have helse := hg a hlt
  simp only [elsewhere, hoverlap.left, Option.all_some, hp, hoverlap.ne, decide_false,
    Bool.false_or, Bool.or_eq_true, List.contains_iff_mem, hoverlap.before, hoverlap.after,
    false_or, decide_eq_true_eq] at helse
  exact helse

/-! ## 6. One step -/

/-- What a step of save `a` leaves of the list. -/
theorem setPhase_getElem? (ha : s.saves[a]? = some save) (phase : Phase) :
    (s.setPhase a save phase).saves[b]? =
      if b = a then some { save with phase := phase } else s.saves[b]? := by
  obtain ⟨hlt, -⟩ := List.getElem?_eq_some_iff.mp ha
  simp only [Saves.setPhase, List.getElem?_set]
  by_cases hba : b = a
  · subst hba
    simp [hlt]
  · rw [if_neg hba, if_neg fun h => hba h.symm]

/-- Two saves that overlap after a step of `a` overlapped before it. -/
theorem overlap_setPhase (ha : s.saves[a]? = some save) {phase : Phase} {fs : FileSystem}
    {opener : List Text → Option Nat} {b c : Nat}
    (h : Saves.Overlap { s.setPhase a save phase with fs := fs, opener := opener } b c x y) :
    ∃ x' y', s.Overlap b c x' y' ∧
      (if b = a then save = x' ∧ x = { save with phase := phase } else x = x') ∧
      (if c = a then save = y' ∧ y = { save with phase := phase } else y = y') := by
  obtain ⟨hne, hx, hy, hbefore, hafter⟩ := h
  change (s.setPhase a save phase).saves[b]? = some x at hx
  change (s.setPhase a save phase).saves[c]? = some y at hy
  rw [setPhase_getElem? ha] at hx hy
  by_cases hb : b = a
  · subst hb
    have hc : c ≠ b := hne.symm
    rw [if_pos rfl] at hx
    rw [if_neg hc] at hy
    obtain rfl := Option.some.inj hx
    refine ⟨save, y, ⟨hne, ha, hy, hbefore, hafter⟩, ?_, ?_⟩
    · rw [if_pos rfl]
      exact ⟨rfl, rfl⟩
    · rw [if_neg hc]
  · rw [if_neg hb] at hx
    by_cases hc : c = a
    · subst hc
      rw [if_pos rfl] at hy
      obtain rfl := Option.some.inj hy
      refine ⟨x, save, ⟨hne, hx, ha, hbefore, hafter⟩, ?_, ?_⟩
      · rw [if_neg hb]
      · rw [if_pos rfl]
        exact ⟨rfl, rfl⟩
    · rw [if_neg hc] at hy
      refine ⟨x, y, ⟨hne, hx, hy, hbefore, hafter⟩, ?_, ?_⟩
      · rw [if_neg hb]
      · rw [if_neg hc]

/-- **A step of one save**: its new destination is apart from those of the saves it overlaps, and
    every other save that writes still finds its file. -/
theorem apart_setPhase (h : Apart s) (ha : s.saves[a]? = some save)
    (hactive : save.phase.hasEnded = false) {phase : Phase} {fs : FileSystem}
    {opener : List Text → Option Nat}
    (hdest : ∀ p, phase.destination = some p → ∀ b y q, s.Overlap a b save y →
      y.phase.destination = some q → place p ≠ place q)
    (hself : ∀ p, phase = .writing p → opener (place p) = some a ∧ fs.fileExists p = true)
    (hothers : ∀ b y p, b ≠ a → s.saves[b]? = some y → y.phase = .writing p →
      opener (place p) = some b ∧ fs.fileExists p = true) :
    Apart { s.setPhase a save phase with fs := fs, opener := opener } where
  ended b x hx c hc := by
    change (s.setPhase a save phase).saves[b]? = some x at hx
    have hold : ∃ y, s.saves[c]? = some y ∧ y.phase.hasEnded = true := by
      rw [setPhase_getElem? ha] at hx
      split at hx
      · obtain rfl := Option.some.inj hx
        exact h.ended a save ha c hc
      · exact h.ended b x hx c hc
    obtain ⟨y, hy, hended⟩ := hold
    have hne : c ≠ a := by
      rintro rfl
      obtain rfl := Option.some.inj (ha.symm.trans hy)
      rw [hactive] at hended
      cases hended
    refine ⟨y, ?_, hended⟩
    show (s.setPhase a save phase).saves[c]? = some y
    rw [setPhase_getElem? ha, if_neg hne]
    exact hy
  apart b c x y p q hoverlap hp hq := by
    obtain ⟨x', y', hold, hx, hy⟩ := overlap_setPhase ha hoverlap
    by_cases hb : b = a
    · subst hb
      have hc : c ≠ b := hoverlap.ne.symm
      rw [if_pos rfl] at hx
      rw [if_neg hc] at hy
      obtain ⟨rfl, rfl⟩ := hx
      subst hy
      exact hdest p hp c y q hold hq
    · rw [if_neg hb] at hx
      subst hx
      by_cases hc : c = a
      · subst hc
        rw [if_pos rfl] at hy
        obtain ⟨rfl, rfl⟩ := hy
        exact (hdest q hq b x p hold.symm hp).symm
      · rw [if_neg hc] at hy
        subst hy
        exact h.apart b c x y p q hold hp hq
  writing b x p hx hph := by
    change (s.setPhase a save phase).saves[b]? = some x at hx
    rw [setPhase_getElem? ha] at hx
    split at hx
    · rename_i hb
      subst hb
      obtain rfl := Option.some.inj hx
      exact hself p hph
    · rename_i hb
      exact hothers b x p hb hx hph

/-- An entry of the list with a new one at its end. -/
theorem getElem?_snoc {saves : List Save} {new : Save} (h : (saves ++ [new])[a]? = some x) :
    saves[a]? = some x ∨ x = new := by
  rw [List.getElem?_append] at h
  split at h
  · exact .inl h
  · exact .inr (List.mem_singleton.mp (List.mem_of_getElem? h))

theorem mem_ended (h : b ∈ s.ended) : ∃ y, s.saves[b]? = some y ∧ y.phase.hasEnded = true := by
  obtain ⟨-, hany⟩ := List.mem_filter.mp h
  cases hy : s.saves[b]? with
  | none =>
      rw [hy] at hany
      cases hany
  | some y =>
      rw [hy] at hany
      exact ⟨y, rfl, hany⟩

/-- A save that is called, with the file system it leaves. -/
theorem apart_append (h : Apart s) {fs : FileSystem} (hkeep : ∀ there kind,
    s.fs.kind there = some kind → fs.kind there = some kind) {new : Save}
    (hended : new.endedBefore = s.ended) (hdest : new.phase.destination = none) :
    Apart { s with fs := fs, saves := s.saves ++ [new] } where
  ended a x hx b hb := by
    have hold : ∃ y, s.saves[b]? = some y ∧ y.phase.hasEnded = true := by
      rcases getElem?_snoc hx with hx | rfl
      · exact h.ended a x hx b hb
      · rw [hended] at hb
        exact mem_ended hb
    obtain ⟨y, hy, hyended⟩ := hold
    obtain ⟨hlt, -⟩ := List.getElem?_eq_some_iff.mp hy
    exact ⟨y, (List.getElem?_append_left hlt).trans hy, hyended⟩
  apart a b x y p q hoverlap hp hq := by
    -- the new save has no destination
    have hold : ∀ {a : Nat} {x : Save} {p : Text}, (s.saves ++ [new])[a]? = some x →
        x.phase.destination = some p → s.saves[a]? = some x := by
      intro a x p hx hp
      rcases getElem?_snoc hx with hx | rfl
      · exact hx
      · rw [hdest] at hp
        cases hp
    exact h.apart a b x y p q ⟨hoverlap.ne, hold hoverlap.left hp, hold hoverlap.right hq,
      hoverlap.before, hoverlap.after⟩ hp hq
  writing a x p hx hph := by
    rcases getElem?_snoc hx with hx | rfl
    · obtain ⟨hopener, hexists⟩ := h.writing a x p hx hph
      exact ⟨hopener, fileExists_mono (fun there => hkeep there _) (hkeep _ _) hexists⟩
    · rw [hph] at hdest
      cases hdest

theorem apart_call (h : Apart s) (parentDirectory fileName : Text) :
    Apart (saveFile s parentDirectory fileName) := by
  unfold saveFile
  split
  · exact apart_append h (fun _ _ hkind => hkind) rfl rfl
  · refine apart_append h (fun there kind hkind => ?_) rfl rfl
    split
    · exact createFrom_kind hkind
    · exact hkind

/-- A save that has not ended has its destination to itself among those that write. -/
theorem Apart.elsewhere (h : Apart s) (ha : s.saves[a]? = some save)
    (hactive : save.phase.hasEnded = false) (hdest : save.phase.destination = some path)
    (hne : b ≠ a) (hy : s.saves[b]? = some y) (hph : y.phase = .writing p) :
    place p ≠ place path := by
  have hoverlap : s.Overlap b a y save := h.overlap hne hy ha (by rw [hph]; rfl) hactive
  exact h.apart b a y save p path hoverlap (by rw [hph]; rfl) hdest

/-- A step of a save that keeps its destination. -/
theorem apart_kept (h : Apart s) (ha : s.saves[a]? = some save)
    (hactive : save.phase.hasEnded = false) (hdest : save.phase.destination = some path)
    {phase : Phase} {fs : FileSystem} {opener : List Text → Option Nat}
    (hkept : phase.destination = some path)
    (hself : ∀ p, phase = .writing p → opener (place p) = some a ∧ fs.fileExists p = true)
    (hothers : ∀ b y p, place p ≠ place path → s.saves[b]? = some y → y.phase = .writing p →
      opener (place p) = some b ∧ fs.fileExists p = true) :
    Apart { s.setPhase a save phase with fs := fs, opener := opener } := by
  refine apart_setPhase h ha hactive (fun p hp b y q hoverlap hq => ?_) hself
    fun b y p hne hy hph => hothers b y p (h.elsewhere ha hactive hdest hne hy hph) hy hph
  rw [hkept] at hp
  obtain rfl := Option.some.inj hp
  exact h.apart a b save y path q hoverlap hdest hq

/-- A save ends and leaves the file system alone. -/
theorem apart_ends (h : Apart s) (ha : s.saves[a]? = some save)
    (hactive : save.phase.hasEnded = false) (hdest : save.phase.destination = some path) :
    Apart (s.setPhase a save (.ended (some path))) :=
  apart_kept h ha hactive hdest rfl (fun p hp => by cases hp)
    fun b y p _ hy hph => h.writing b y p hy hph

/-- **One guarded step keeps the saves apart.** -/
theorem apart_step (h : Apart s) (hg : found platform s e = true) (hs : Step platform s e t) :
    Apart t := by
  cases hs with
  | call parentDirectory fileName => exact apart_call h parentDirectory fileName
  | present a save counter ha hph hexists =>
      exact apart_setPhase h ha (by rw [hph]; rfl) (fun p hp => by cases hp)
        (fun p hp => by cases hp) fun b y p _ hy hyph => h.writing b y p hy hyph
  | absent a save counter ha hph hexists =>
      refine apart_setPhase h ha (by rw [hph]; rfl) ?_ (fun p hp => by cases hp)
        fun b y p _ hy hyph => h.writing b y p hy hyph
      intro p hp b y q hoverlap hq
      obtain rfl := Option.some.inj hp
      exact (found_elsewhere hg ha hph hexists hoverlap.symm hq).symm
  | opens a save path ha hph hcan =>
      obtain ⟨-, hnot⟩ : find s.fs [] (components path).dropLast = some .directory ∧
          s.fs.kind (place path) ≠ some .directory := by simpa [canOpen] using hcan
      refine apart_kept h ha (by rw [hph]; rfl) (by rw [hph]; rfl) rfl ?_ ?_
      · intro p hp
        cases hp
        exact ⟨Function.update_self .., put_found hcan⟩
      · intro b y p hne hy hyph
        obtain ⟨hopener, hexists⟩ := h.writing b y p hy hyph
        refine ⟨(Function.update_of_ne hne ..).trans hopener, ?_⟩
        exact fileExists_mono (fun there => put_directory hnot) (if_neg hne).trans hexists
  | openFails a save path ha hph =>
      exact apart_ends h ha (by rw [hph]; rfl) (by rw [hph]; rfl)
  | finishes a save path ha hph =>
      exact apart_ends h ha (by rw [hph]; rfl) (by rw [hph]; rfl)
  | deletes a save path ha hph =>
      refine apart_kept h ha (by rw [hph]; rfl) (by rw [hph]; rfl) rfl (fun p hp => by cases hp) ?_
      intro b y p hne hy hyph
      obtain ⟨hopener, hexists⟩ := h.writing b y p hy hyph
      refine ⟨(Function.update_of_ne hne ..).trans hopener, ?_⟩
      have hfile := fileExists_kind (h.writing a save path ha hph).2
      refine fileExists_mono (fun there hthere => ?_) (if_neg hne).trans hexists
      -- what is deleted is a file, so no directory
      have hother : there ≠ place path := by
        rintro rfl
        rw [hfile] at hthere
        cases hthere
      exact (if_neg hother).trans hthere
  | leaves a save path ha hph =>
      exact apart_ends h ha (by rw [hph]; rfl) (by rw [hph]; rfl)

/-! ## 7. Every run -/

/-- Each question finds the destinations of the saves that overlap. -/
def finds (platform : Platform) (s : Saves) (e : Event) : Prop := found platform s e = true

instance (s : Saves) (e : Event) : Decidable (finds platform s e) :=
  inferInstanceAs (Decidable (_ = true))

/-- **Saves that overlap stay apart.** If each question finds what is already a destination of a
    save that overlaps, two saves that overlap never have the same destination, as a path or as a
    place; and a save that writes finds the file that it was the last one to open. -/
theorem saves_apart (hr : (saving platform).Run (finds platform) (.start fs) es s) :
    (∀ a b x y p q, s.Overlap a b x y → x.phase.destination = some p →
      y.phase.destination = some q → p ≠ q ∧ place p ≠ place q) ∧
    ∀ (a : Nat) (x : Save) (p : Text), s.saves[a]? = some x → x.phase = .writing p →
      s.opener (place p) = some a ∧ s.fs.fileExists p = true := by
  have h : Apart s := hr.invariant apart_start fun t e u ht hg hs =>
    apart_step ht hg (step_inv hs)
  refine ⟨fun a b x y p q hoverlap hp hq => ?_, h.writing⟩
  have hplace := h.apart a b x y p q hoverlap hp hq
  exact ⟨fun heq => hplace (congrArg place heq), hplace⟩

/-- A save that has the questions to itself ends its loop where `freePath` does. -/
theorem answers_freePath {rounds counter : Nat} (ha : s.saves[a]? = some save)
    (hph : save.phase = .checking counter)
    (h : freePath platform s.fs (targetDir save.parentDirectory save.fileName)
      (platform.legalizeFilename (basename save.fileName)) rounds counter = some path) :
    ∃ n, (saving platform).run s (List.replicate n (.answer a)) =
      some (s.setPhase a save (.chosen path)) := by
  induction rounds generalizing s save counter with
  | zero => cases h
  | succ rounds ih =>
      have hanswer : (saving platform).step s (.answer a) =
          if s.fs.fileExists (candidate platform save counter)
          then some (s.setPhase a save (.checking (counter + 1)))
          else some (s.setPhase a save (.chosen (candidate platform save counter))) := by
        show s.saves[a]?.bind _ = _
        rw [ha, Option.bind_some]
        simp only [saveStep, hph]
      change (if s.fs.fileExists (candidate platform save counter) then _ else
        some (candidate platform save counter)) = some path at h
      split at h
      · rename_i hexists
        rw [if_pos hexists] at hanswer
        have ha' : (s.setPhase a save (.checking (counter + 1))).saves[a]? =
            some { save with phase := .checking (counter + 1) } := by
          rw [setPhase_getElem? ha, if_pos rfl]
        obtain ⟨n, hn⟩ := ih ha' rfl h
        refine ⟨n + 1, ?_⟩
        rw [List.replicate_succ, Machine.run, hanswer, Option.bind_some, hn]
        simp [Saves.setPhase]
      · rename_i hexists
        rw [if_neg hexists] at hanswer
        obtain rfl := Option.some.inj h
        refine ⟨1, ?_⟩
        rw [List.replicate_one, Machine.run, hanswer]
        rfl

def downloads : Text := "/home/u/dl".toList

/-- The second save asks after the first one has opened its file. -/
def orderlyRun : List Event :=
  [.call downloads "a".toList, .call downloads "a".toList, .answer 0, .openWrite 0, .answer 1,
    .answer 1, .openWrite 1]

/-- Both ask before either opens; the first one finishes, the second one fails. -/
def racingRun : List Event :=
  [.call downloads "a".toList, .call downloads "a".toList, .answer 0, .answer 1, .openWrite 0,
    .openWrite 1, .finish 0, .error 1 true]

theorem saves_apart_orderlyRun :
    ∃ s, (saving plainPlatform).Run (finds plainPlatform) (.start homeSystem) orderlyRun s ∧
      s.opener (place "/home/u/dl/a".toList) = some 0 ∧
      s.opener (place "/home/u/dl/a (2)".toList) = some 1 := by
  have hrun : (((saving plainPlatform).guarded (finds plainPlatform)).run (.start homeSystem)
      orderlyRun).map Saves.saves =
      some [⟨downloads, "a".toList, [], .writing "/home/u/dl/a".toList⟩,
        ⟨downloads, "a".toList, [], .writing "/home/u/dl/a (2)".toList⟩] := by
    decide
  obtain ⟨s, hs, hsaves⟩ := Machine.run_observe_guarded hrun
  have hapart := (saves_apart hs).2
  exact ⟨s, hs, (hapart 0 _ _ (by rw [hsaves]; rfl) rfl).1,
    (hapart 1 _ _ (by rw [hsaves]; rfl) rfl).1⟩

/-- **Two saves share a destination**, and the error of the second one deletes the file of the
    first one, which had finished. -/
theorem saves_share_destination :
    ∃ s x y, (saving plainPlatform).Run Machine.anyStep (.start homeSystem) racingRun s ∧
      s.Overlap 0 1 x y ∧ x.phase = .ended (some "/home/u/dl/a".toList) ∧
      y.phase = .ended (some "/home/u/dl/a".toList) ∧
      s.fs.fileExists "/home/u/dl/a".toList = false := by
  have hrun : ((saving plainPlatform).run (.start homeSystem) racingRun).map
      (fun s => (s.saves, s.fs.fileExists "/home/u/dl/a".toList)) =
      some ([⟨downloads, "a".toList, [], .ended (some "/home/u/dl/a".toList)⟩,
        ⟨downloads, "a".toList, [], .ended (some "/home/u/dl/a".toList)⟩], false) := by
    decide
  obtain ⟨s, hs, hobs⟩ := Machine.run_observe hrun
  simp only [Prod.mk.injEq] at hobs
  refine ⟨s, _, _, hs, ⟨by decide, by rw [hobs.1]; rfl, by rw [hobs.1]; rfl, ?_, ?_⟩, rfl, rfl,
    hobs.2⟩
  · exact List.not_mem_nil
  · exact List.not_mem_nil

end LocalSend.Files
