/-
  File:      LocalSend/Files/Containment.lean
  Subject:   THE DESTINATION STAYS BELOW THE PARENT DIRECTORY (`file_saver.dart`).

  * `Contained` -- the path returned lies strictly inside, the directories made lie inside;
  * `mem_createFrom` -- a directory is made where the walk along the written components meets a
    missing place;
  * `freePath_segment` -- the path returned is one more name below the directory;
  * **`digest_contained_iff`** -- the path is always contained; the directories are, exactly if no
    place outside that the walk meets is missing.

  The check compares normalised paths, but `createSync` makes every component as it is written, so
  a name that leaves the directory and comes back makes directories outside (`digest_makes_outside`).
-/
import LocalSend.Files.Names
import LocalSend.Lib.Digits

namespace LocalSend.Files

open Lib.Posix

/-! ## 1. Names -/

/-- What `legalizeFilename` is taken to return, and lower case to leave alone. -/
structure Platform.Sane (platform : Platform) : Prop where
  legal : ∀ name, Segment (platform.legalizeFilename name)
  lower : ∀ text, '/' ∉ text → '/' ∉ platform.toLowerCase text

theorem mem_of_withoutNumber {fileName front : Text} (h : withoutNumber fileName = some front)
    {c : Char} (hc : c ∈ front) : c ∈ fileName := by
  unfold withoutNumber at h
  split at h
  · rename_i rest hreverse
    split at h
    · rename_i space before hdrop
      split at h
      · cases h
        have hrest : c ∈ rest := (List.dropWhile_sublist Char.isDigit).subset
          (hdrop ▸ List.mem_cons_of_mem _ (List.mem_cons_of_mem _ (List.mem_reverse.mp hc)))
        exact List.mem_reverse.mp (hreverse ▸ List.mem_cons_of_mem _ hrest)
      · cases h
    · cases h
  · cases h

theorem withExtension_separator {name extension : Text} (hname : '/' ∉ name)
    (hextension : '/' ∉ extension) : '/' ∉ withExtension name extension := by
  unfold withExtension
  split
  · exact hname
  · simp [hname, hextension]

theorem separator_not_mem_repr (count : Nat) : '/' ∉ (Nat.repr count).toList := by
  rw [Nat.toList_repr]
  exact Lib.Digits.not_mem_toDigits (by decide) (by decide) (by decide)

/-- A name with a number is still a name. -/
theorem withCount_segment {platform : Platform} (hsane : platform.Sane) {name : Text}
    (hname : '/' ∉ name) (count : Nat) : Segment (withCount platform name count) := by
  have hfront : ∀ fileName : Text, '/' ∉ fileName → '/' ∉
      (withoutNumber fileName).getD fileName ++ " (".toList ++ (Nat.repr count).toList ++ [')'] := by
    intro fileName hfileName
    have hnumber : '/' ∉ (withoutNumber fileName).getD fileName := by
      cases hwithout : withoutNumber fileName with
      | none => exact hfileName
      | some front => exact fun hmem => hfileName (mem_of_withoutNumber hwithout hmem)
    simp only [List.mem_append, not_or]
    exact ⟨⟨⟨hnumber, by decide⟩, separator_not_mem_repr count⟩, by decide⟩
  have hbracket : ∀ fileName extension : Text, '(' ∈ withExtension
      ((withoutNumber fileName).getD fileName ++ " (".toList ++ (Nat.repr count).toList ++ [')'])
      extension := by
    intro fileName extension
    unfold withExtension
    split <;> simp
  have hmem : '(' ∈ withCount platform name count := hbracket _ _
  refine ⟨List.ne_nil_of_mem hmem, ?_, fun hdot => ?_, fun hdot => ?_⟩
  · unfold withCount
    cases lastIndexOf '.' name with
    | none => exact withExtension_separator (hfront _ hname) List.not_mem_nil
    | some index =>
        exact withExtension_separator (hfront _ fun hmem => hname (List.mem_of_mem_take hmem))
          (hsane.lower _ fun hmem => hname (List.mem_of_mem_drop hmem))
  · rw [hdot] at hmem
    revert hmem
    decide
  · rw [hdot] at hmem
    revert hmem
    decide

/-- The path the counter loop ends with names one more segment. -/
theorem freePath_segment {platform : Platform} (hsane : platform.Sane) {fs : FileSystem}
    {dir actualFileName path : Text} (hname : Segment actualFileName) {rounds counter : Nat}
    (h : freePath platform fs dir actualFileName rounds counter = some path) :
    ∃ name, Segment name ∧ path = joinAll [dir, name] := by
  induction rounds generalizing counter with
  | zero => cases h
  | succ rounds ih =>
      have hnext : Segment (if counter = 1 then actualFileName
          else withCount platform actualFileName counter) := by
        split
        · exact hname
        · exact withCount_segment hsane hname.separator counter
      by_cases hexists : fs.fileExists (joinAll [dir, if counter = 1 then actualFileName
          else withCount platform actualFileName counter])
      · exact ih ((if_pos hexists).symm.trans h)
      · exact ⟨_, hnext, (Option.some.inj ((if_neg hexists).symm.trans h)).symm⟩

/-! ## 2. Directories -/

/-- The walk gets through: every place on the way is a directory, or can become one. -/
def Passable (fs : FileSystem) (here : List Text) : List Text → Prop
  | [] => True
  | name :: names =>
    (fs.kind (enter here name) = some .directory ∨
      fs.kind (enter here name) = none ∧ fs.mayCreate (enter here name) = true) ∧
    Passable fs (enter here name) names

/-- A missing place that the walk gets to. -/
def Meets (fs : FileSystem) (here : List Text) (names : List Text) (there : List Text) : Prop :=
  ∃ walked, walked ≠ [] ∧ walked <+: names ∧ Passable fs here walked ∧
    fs.kind (walked.foldl enter here) = none ∧ there = walked.foldl enter here

theorem FileSystem.make_kind_self (fs : FileSystem) (here : List Text) :
    (fs.make here).kind here = some .directory := if_pos rfl

theorem FileSystem.make_kind_of_ne (fs : FileSystem) {here there : List Text} (h : there ≠ here) :
    (fs.make here).kind there = fs.kind there := if_neg h

/-- A directory more at a place that could become one opens no new way and closes none. -/
theorem passable_make {fs : FileSystem} {made : List Text}
    (hmade : fs.kind made = none ∧ fs.mayCreate made = true) {here : List Text}
    {names : List Text} : Passable (fs.make made) here names ↔ Passable fs here names := by
  induction names generalizing here with
  | nil => rfl
  | cons name names ih =>
      have hstep : ((fs.make made).kind (enter here name) = some .directory ∨
          (fs.make made).kind (enter here name) = none ∧
            fs.mayCreate (enter here name) = true) ↔
          (fs.kind (enter here name) = some .directory ∨
            fs.kind (enter here name) = none ∧ fs.mayCreate (enter here name) = true) := by
        by_cases hhere : enter here name = made
        · rw [hhere, fs.make_kind_self made]
          exact ⟨fun _ => .inr hmade, fun _ => .inl rfl⟩
        · rw [fs.make_kind_of_ne hhere]
      exact and_congr hstep ih

/-- The first name of a walk. -/
theorem meets_cons {fs : FileSystem} {here : List Text} {name : Text} {names : List Text}
    {there : List Text} : Meets fs here (name :: names) there ↔
      (fs.kind (enter here name) = some .directory ∨
        fs.kind (enter here name) = none ∧ fs.mayCreate (enter here name) = true) ∧
      (fs.kind (enter here name) = none ∧ there = enter here name ∨
        Meets fs (enter here name) names there) := by
  constructor
  · intro h
    obtain ⟨walked, hne, hprefix, hpassable, hnone, rfl⟩ := h
    cases walked with
    | nil => exact absurd rfl hne
    | cons first walked =>
        obtain ⟨rfl, hrest⟩ := List.cons_prefix_cons.mp hprefix
        refine ⟨hpassable.1, ?_⟩
        cases walked with
        | nil => exact .inl ⟨hnone, rfl⟩
        | cons second walked =>
            exact .inr ⟨_, List.cons_ne_nil _ _, hrest, hpassable.2, hnone, rfl⟩
  · intro h
    obtain ⟨hstep, h | h⟩ := h
    · obtain ⟨hnone, rfl⟩ := h
      exact ⟨[name], List.cons_ne_nil _ _, ⟨names, rfl⟩, ⟨hstep, trivial⟩, hnone, rfl⟩
    · obtain ⟨walked, hne, hprefix, hpassable, hnone, rfl⟩ := h
      exact ⟨name :: walked, List.cons_ne_nil _ _, List.cons_prefix_cons.mpr ⟨rfl, hprefix⟩,
        ⟨hstep, hpassable⟩, hnone, rfl⟩

/-- A directory more takes its own place from those a walk meets, and no other one. -/
theorem meets_make {fs : FileSystem} {made : List Text}
    (hmade : fs.kind made = none ∧ fs.mayCreate made = true) {here : List Text}
    {names : List Text} {there : List Text} :
    Meets (fs.make made) here names there ↔ there ≠ made ∧ Meets fs here names there := by
  constructor
  · intro h
    obtain ⟨walked, hne, hprefix, hpassable, hnone, rfl⟩ := h
    have hother : walked.foldl enter here ≠ made := by
      intro hsame
      rw [hsame, fs.make_kind_self made] at hnone
      cases hnone
    rw [fs.make_kind_of_ne hother] at hnone
    exact ⟨hother, walked, hne, hprefix, (passable_make hmade).mp hpassable, hnone, rfl⟩
  · intro h
    obtain ⟨hother, walked, hne, hprefix, hpassable, hnone, rfl⟩ := h
    exact ⟨walked, hne, hprefix, (passable_make hmade).mpr hpassable,
      (fs.make_kind_of_ne hother).trans hnone, rfl⟩

/-- **A directory is made exactly where the walk meets a missing place.** -/
theorem mem_createFrom {fs : FileSystem} {here : List Text} {names : List Text}
    {there : List Text} : there ∈ (createFrom fs here names).2 ↔ Meets fs here names there := by
  induction names generalizing fs here with
  | nil =>
      constructor
      · intro h
        cases h
      · intro h
        obtain ⟨walked, hne, hprefix, -⟩ := h
        exact absurd (List.prefix_nil.mp hprefix) hne
  | cons name names ih =>
      rw [createFrom, meets_cons]
      cases hkind : fs.kind (enter here name) with
      | none =>
          cases hmay : fs.mayCreate (enter here name) with
          | false => simp
          | true =>
              simp only [if_true, List.mem_cons, ih, meets_make ⟨hkind, hmay⟩]
              by_cases hsame : there = enter here name <;> simp [hsame]
      | some kind =>
          cases kind with
          | file => simp
          | directory => simp [ih]

/-! ## 3. The destination -/

/-- What is promised: the path strictly inside the parent directory, the directories inside. -/
def Contained (parentDirectory : Text) (digest : Digest) : Prop :=
  StrictlyInside (place parentDirectory) (place digest.destination) ∧
  ∀ there ∈ digest.made, Inside (place parentDirectory) there

instance (parentDirectory : Text) (digest : Digest) : Decidable (Contained parentDirectory digest) :=
  inferInstanceAs (Decidable (_ ∧ _))

/-- The components `createSync` walks along, as they are written. -/
def walkOf (parentDirectory fileName : Text) : List Text :=
  if isAbsolute fileName then (components fileName).dropLast
  else components parentDirectory ++ (components fileName).dropLast

/-- **Every place outside that the walk gets to exists**, unless there is no walk. -/
def OutsideExists (fs : FileSystem) (parentDirectory fileName : Text) : Prop :=
  1 < (split fileName).length → ∀ walked, walked ≠ [] →
    walked <+: walkOf parentDirectory fileName → Passable fs [] walked →
    ¬Inside (place parentDirectory) (resolve walked) → fs.kind (resolve walked) ≠ none

theorem dropLast_components {path : Text} :
    ∀ name ∈ (components path).dropLast, name ≠ [] ∧ '/' ∉ name :=
  fun _ hname => mem_components (List.mem_of_mem_dropLast hname)

/-- With a name of several parts, the directory has the components of the walk. -/
theorem components_targetDir {parentDirectory fileName : Text}
    (habs : isAbsolute parentDirectory = true) (hparts : 1 < (split fileName).length) :
    components (targetDir parentDirectory fileName) = walkOf parentDirectory fileName ∧
    isAbsolute (targetDir parentDirectory fileName) = true := by
  unfold targetDir walkOf
  unfold split at hparts ⊢
  split
  · rename_i hroot
    rw [if_pos hroot] at hparts
    cases hcomponents : components fileName with
    | nil =>
        rw [hcomponents] at hparts
        exact absurd hparts (by decide)
    | cons first rest =>
        have hnames : ∀ name ∈ (first :: rest).dropLast, name ≠ [] ∧ '/' ∉ name :=
          hcomponents ▸ dropLast_components
        exact components_joinAll_root hnames
  · exact components_joinAll habs dropLast_components

/-- With a name of one part, the directory is the parent directory. -/
theorem targetDir_of_single {parentDirectory fileName : Text}
    (habs : isAbsolute parentDirectory = true) (hparts : ¬1 < (split fileName).length) :
    components (targetDir parentDirectory fileName) = components parentDirectory ∧
    isAbsolute (targetDir parentDirectory fileName) = true := by
  have hnone : (split fileName).dropLast = [] := by
    apply List.eq_nil_of_length_eq_zero
    rw [List.length_dropLast]
    omega
  have hnames : ∀ name ∈ ([] : List Text), name ≠ [] ∧ '/' ∉ name := by simp
  obtain ⟨hcomponents, habsolute⟩ := components_joinAll habs hnames
  unfold targetDir
  rw [hnone]
  exact ⟨hcomponents.trans (List.append_nil _), habsolute⟩

/-- A name joined to a directory inside is strictly inside. -/
theorem strictlyInside_join {parent : List Text} {dir name : Text}
    (habs : isAbsolute dir = true) (hinside : Inside parent (place dir)) (hname : Segment name) :
    StrictlyInside parent (place (joinAll [dir, name])) := by
  have hnames : ∀ other ∈ [name], other ≠ [] ∧ '/' ∉ other := by
    simp [hname.nonempty, hname.separator]
  obtain ⟨hcomponents, -⟩ := components_joinAll habs hnames
  rw [place, hcomponents, resolve_append_segment hname]
  exact hinside.append name

/-- What a call that returns has done. -/
theorem digestPath_returns {platform : Platform} (hsane : platform.Sane) {around : Surroundings}
    {rounds : Nat} {parentDirectory fileName : Text} {digest : Digest}
    (h : digestPath platform around rounds parentDirectory fileName = some digest) :
    (∃ name, Segment name ∧
      digest.destination = joinAll [targetDir parentDirectory fileName, name]) ∧
    (1 < (split fileName).length ∧
        isWithin parentDirectory (targetDir parentDirectory fileName) = true ∧
        digest.made = (createSync around.fs (targetDir parentDirectory fileName)).2 ∨
      ¬1 < (split fileName).length ∧ digest.made = []) := by
  rw [digestPath] at h
  by_cases hempty : split fileName = []
  · rw [if_pos hempty] at h
    cases h
  rw [if_neg hempty] at h
  by_cases hparts : 1 < (split fileName).length
  · simp only [hparts, true_and, if_true] at h
    by_cases hwithin : isWithin parentDirectory (targetDir parentDirectory fileName) = true
    · rw [if_neg (not_not_intro hwithin)] at h
      obtain ⟨path, hfree, rfl⟩ := Option.map_eq_some_iff.mp h
      exact ⟨freePath_segment hsane (hsane.legal _) hfree, .inl ⟨hparts, hwithin, rfl⟩⟩
    · rw [if_pos hwithin] at h
      cases h
  · simp only [hparts, false_and, if_false] at h
    obtain ⟨path, hfree, rfl⟩ := Option.map_eq_some_iff.mp h
    exact ⟨freePath_segment hsane (hsane.legal _) hfree, .inr ⟨hparts, rfl⟩⟩

/-- **The destination is contained** exactly if every place outside the parent directory that the
    walk to it gets to exists already. -/
theorem digest_contained_iff {platform : Platform} (hsane : platform.Sane) {around : Surroundings}
    {rounds : Nat} {parentDirectory fileName : Text} (habs : isAbsolute parentDirectory = true)
    {digest : Digest} (h : digestFilePathAndPrepareDirectory platform around rounds
      parentDirectory fileName = some digest) :
    Contained parentDirectory digest ↔
      OutsideExists around.fs parentDirectory fileName := by
  have hpath : ¬"content://".toList <+: parentDirectory := by
    intro hcontent
    obtain ⟨rest, rfl⟩ := hcontent
    exact absurd habs (by simp [isAbsolute])
  rw [digestFilePathAndPrepareDirectory, if_neg hpath] at h
  obtain ⟨⟨name, hname, hdestination⟩, hmade⟩ := digestPath_returns hsane h
  obtain ⟨hparts, hwithin, hmade⟩ | ⟨hparts, hmade⟩ := hmade
  · -- Several parts: the check has passed, and the walk has made what it met missing.
    obtain ⟨hcomponents, habsolute⟩ := components_targetDir habs hparts
    have hinside : Inside (place parentDirectory) (place (targetDir parentDirectory fileName)) :=
      (of_decide_eq_true hwithin).1
    have hstrictly := strictlyInside_join habsolute hinside hname
    have hmem : ∀ there, there ∈ digest.made ↔
        Meets around.fs [] (walkOf parentDirectory fileName) there := by
      intro there
      rw [hmade, createSync, hcomponents]
      exact mem_createFrom
    rw [Contained, hdestination]
    constructor
    · intro hcontained _ walked hne hprefix hpassable houtside hnone
      exact houtside (hcontained.2 _ ((hmem _).mpr ⟨walked, hne, hprefix, hpassable, hnone, rfl⟩))
    · intro hexists
      refine ⟨hstrictly, fun there hthere => ?_⟩
      obtain ⟨walked, hne, hprefix, hpassable, hnone, rfl⟩ := (hmem there).mp hthere
      by_contra houtside
      exact hexists hparts walked hne hprefix hpassable houtside hnone
  · -- One part: the directory is the parent directory, and none is made.
    obtain ⟨hcomponents, habsolute⟩ := targetDir_of_single habs hparts
    have hinside : Inside (place parentDirectory) (place (targetDir parentDirectory fileName)) := by
      rw [place, place, hcomponents]
      exact List.prefix_rfl
    have hstrictly := strictlyInside_join habsolute hinside hname
    rw [Contained, hdestination, hmade]
    constructor
    · intro _ hseveral
      exact absurd hseveral hparts
    · intro _
      exact ⟨hstrictly, fun there hthere => by cases hthere⟩

/-! ## 4. A name that leaves and comes back -/

/-- A platform that replaces the two names with a meaning of their own, and every separator. -/
def plainPlatform : Platform where
  legalizeFilename name :=
    if name = [] ∨ name = ['.'] ∨ name = ['.', '.'] then ['_']
    else name.map fun c => if c = '/' then '_' else c
  toLowerCase text := text.map Char.toLower

/-- The directories of a home with a directory for downloads, everything else missing. -/
def homeSystem : FileSystem where
  kind there :=
    if there <+: ["home".toList, "u".toList, "dl".toList] then some .directory else none
  mayCreate _ := true

def homeSurroundings : Surroundings where
  fs := homeSystem
  succeeds _ := true
  createdDirectories := []

theorem plainPlatform_sane : plainPlatform.Sane where
  legal name := by
    change Segment (if name = [] ∨ name = ['.'] ∨ name = ['.', '.'] then ['_']
      else name.map fun c => if c = '/' then '_' else c)
    split
    · exact ⟨by decide, by decide, by decide, by decide⟩
    · rename_i hname
      obtain ⟨hempty, hdot, hdotDot⟩ : name ≠ [] ∧ name ≠ ['.'] ∧ name ≠ ['.', '.'] := by
        simpa [not_or] using hname
      have hkept : ∀ c : Char, (if c = '/' then '_' else c) = '.' → c = '.' := by
        intro c hc
        split at hc
        · exact absurd hc (by decide)
        · exact hc
      refine ⟨by simpa using hempty, ?_, fun h => hdot ?_, fun h => hdotDot ?_⟩
      · intro hmem
        obtain ⟨c, -, hc⟩ := List.mem_map.mp hmem
        split at hc
        · exact absurd hc (by decide)
        · rename_i hne
          exact hne hc
      · obtain ⟨c, rfl, hc⟩ := List.map_eq_singleton_iff.mp h
        rw [hkept c hc]
      · obtain ⟨c, rest, rfl, hc, hrest⟩ := List.map_eq_cons_iff.mp h
        obtain ⟨d, rfl, hd⟩ := List.map_eq_singleton_iff.mp hrest
        rw [hkept c hc, hkept d hd]
  lower text h := by
    intro hmem
    obtain ⟨c, hc, hlower⟩ := List.mem_map.mp hmem
    have hsame : c = '/' := eq_of_toLower hlower (by decide)
    exact h (hsame ▸ hc)

/-- A file in a new directory below the downloads. -/
theorem digest_contained_iff_subfolder :
    ∃ digest, digestFilePathAndPrepareDirectory plainPlatform homeSurroundings 1 "/home/u/dl".toList
        "a/x".toList = some digest ∧
      digest.made = [["home".toList, "u".toList, "dl".toList, "a".toList]] ∧
      OutsideExists homeSystem "/home/u/dl".toList "a/x".toList := by
  obtain ⟨digest, hdigest, hmade, hcontained⟩ : ∃ digest,
      digestFilePathAndPrepareDirectory plainPlatform homeSurroundings 1 "/home/u/dl".toList
        "a/x".toList = some digest ∧
      digest.made = [["home".toList, "u".toList, "dl".toList, "a".toList]] ∧
      Contained "/home/u/dl".toList digest := ⟨_, rfl, by decide, by decide⟩
  exact ⟨digest, hdigest, hmade,
    (digest_contained_iff plainPlatform_sane (by decide) hdigest).mp hcontained⟩

/-- **A name that leaves the directory and comes back** passes the check; the directory it leaves
    through is made outside. -/
theorem digest_makes_outside :
    isAbsolute "/home/u/dl".toList = true ∧
    ∃ digest, digestFilePathAndPrepareDirectory plainPlatform homeSurroundings 1 "/home/u/dl".toList
        "../newdir/../dl/a/x".toList = some digest ∧
      ["home".toList, "u".toList, "newdir".toList] ∈ digest.made ∧
      ¬Contained "/home/u/dl".toList digest :=
  ⟨by decide, _, rfl, by decide, by decide⟩

end LocalSend.Files
