/-
  File:      LocalSend/Send/SelectedFiles.lean
  Subject:   THE FILES SELECTED FOR SENDING (`selected_sending_files_provider.dart`) under the
             actions that add to them.

  An action that converts files is suspended at each of them, one that scans a directory until the
  scan is there; messages and binaries are added at once. What an action returns after its last
  await is the selection in the same turn.

  * `State`, `Event`, `step` -- the machine (`actions`); `finished` -- the files requested by the
    action that a step ends;
  * `Complete` -- **nothing lost, no path twice**, the entries before in their order;
  * `lossless` -- the condition on the steps;
  * `complete_append`, `complete_insert` -- what an action does at its end;
  * **`selection_complete`** -- in such runs the selection is complete in every state;
    `selection_loses_file`, `selection_doubles_path` -- the other runs.
-/
import LocalSend.Common.CrossFile
import LocalSend.Lib.Machine
import Mathlib.Data.List.InsertIdx
import Mathlib.Data.List.Perm.Basic

namespace LocalSend.SelectedFiles

open Lib

/-! ## 1. The actions -/

/-- `isAlreadySelect`. -/
def isAlreadySelect (selection : List CrossFile) (file : CrossFile) : Bool :=
  selection.any fun element => element.isSameFile file

/-- A suspended action. -/
inductive Action where
  /-- `AddFilesAction`, with what the converter makes of each file, the number of those that it has
      converted, and the ones taken -/
  | addFiles (files : List CrossFile) (converted : Nat) (newFiles : List CrossFile)
  /-- `AddDirectoryAction`, with what the scan will find -/
  | addDirectory (files : List CrossFile)
  deriving DecidableEq, Repr

structure State where
  selection : List CrossFile
  suspended : List Action
  deriving DecidableEq, Repr

def State.start (selection : List CrossFile) : State := ⟨selection, []⟩

/-- The file of a message. -/
def messageFile (message uuid : String) : CrossFile where
  name := uuid ++ ".txt"
  fileType := .text
  size := (message.toList.flatMap String.utf8EncodeChar).length
  thumbnail := none
  asset := none
  path := none
  bytes := some (message.toList.flatMap String.utf8EncodeChar)
  lastModified := none
  lastAccessed := none

/-- The file of a binary. -/
def binaryFile (bytes : List UInt8) (fileType : FileType) (fileName : String) : CrossFile where
  name := fileName
  fileType := fileType
  size := bytes.length
  thumbnail := if fileType = .image then some bytes else none
  asset := none
  path := none
  bytes := some bytes
  lastModified := none
  lastAccessed := none

/-- `AddMessageAction`; `none`: the index is out of range. -/
def addMessage (selection : List CrossFile) (file : CrossFile) (index : Option Int) :
    Option (List CrossFile) :=
  let i := index.getD selection.length
  if 0 ≤ i ∧ i ≤ selection.length then some (selection.insertIdx i.toNat file) else none

/-- The files taken after one more is converted. -/
def taken (selection newFiles : List CrossFile) (crossFile : CrossFile) : List CrossFile :=
  if isAlreadySelect selection crossFile then newFiles else newFiles ++ [crossFile]

/-- The new files of a scan. -/
def scanned (selection files : List CrossFile) : List CrossFile :=
  files.filter fun file => !isAlreadySelect selection file

inductive Event where
  | addFiles (files : List CrossFile)
  | addDirectory (files : List CrossFile)
  /-- the converter of the `i`-th suspended action returns -/
  | converted (i : Nat)
  /-- the scan of the `i`-th suspended action returns -/
  | scanned (i : Nat)
  /-- the converter or the scan throws, and the action with it -/
  | threw (i : Nat)
  | addBinary (bytes : List UInt8) (fileType : FileType) (fileName : String)
  | addMessage (message uuid : String) (index : Option Int)
  deriving DecidableEq, Repr

def step (s : State) : Event → Option State
  | .addFiles files =>
    if files = [] then some s else some { s with suspended := s.suspended ++ [.addFiles files 0 []] }
  | .addDirectory files => some { s with suspended := s.suspended ++ [.addDirectory files] }
  | .converted i =>
    match s.suspended[i]? with
    | some (.addFiles files converted newFiles) =>
      match files[converted]? with
      | some crossFile =>
        let newFiles := taken s.selection newFiles crossFile
        if converted + 1 = files.length then
          some ⟨s.selection ++ newFiles, s.suspended.eraseIdx i⟩
        else
          some { s with suspended := s.suspended.set i (.addFiles files (converted + 1) newFiles) }
      | none => none
    | _ => none
  | .scanned i =>
    match s.suspended[i]? with
    | some (.addDirectory files) =>
      some ⟨s.selection ++ scanned s.selection files, s.suspended.eraseIdx i⟩
    | _ => none
  | .threw i =>
    if i < s.suspended.length then some { s with suspended := s.suspended.eraseIdx i } else none
  | .addBinary bytes fileType fileName =>
    some { s with selection := s.selection ++ [binaryFile bytes fileType fileName] }
  | .addMessage message uuid index =>
    some { s with
      selection := (addMessage s.selection (messageFile message uuid) index).getD s.selection }

/-- **The selection with its actions.** -/
def actions : Machine State Event := ⟨step⟩

/-! ## 2. What is promised, and when -/

/-- The files requested by the action that ends with the event. -/
def finished (s : State) : Event → List CrossFile
  | .converted i =>
    match s.suspended[i]? with
    | some (.addFiles files converted _) => if converted + 1 = files.length then files else []
    | _ => []
  | .scanned i =>
    match s.suspended[i]? with
    | some (.addDirectory files) => files
    | _ => []
  | .addBinary bytes fileType fileName => [binaryFile bytes fileType fileName]
  | .addMessage message uuid index =>
    if (addMessage s.selection (messageFile message uuid) index).isSome then
      [messageFile message uuid]
    else []
  | _ => []

/-- The paths of some files, without those that have none. -/
def paths (files : List CrossFile) : List String := files.filterMap CrossFile.path

/-- The files without a path. -/
def pathless (files : List CrossFile) : List CrossFile := files.filter fun file => file.path = none

/-- **A complete selection**, from the one before and the files requested since: the entries before
    in their order, no path twice, every path requested, and every file without a path as an entry
    of its own. -/
structure Complete (before requested selection : List CrossFile) : Prop where
  order : before.Sublist selection
  distinct : (paths selection).Nodup
  present : ∀ path ∈ paths requested, path ∈ paths selection
  own : (pathless selection).Perm (pathless before ++ pathless requested)

/-- The file is passed over only if its path is there: none without a path is compared with an entry
    without one. -/
def Spared (selection : List CrossFile) (file : CrossFile) : Prop :=
  isAlreadySelect selection file = true → ∃ path ∈ file.path, path ∈ paths selection

/-- **Nothing is lost or doubled as the action goes on**: a file without a path meets no entry
    without one, the files of one action have different paths, and what the action has taken was not
    selected meanwhile. -/
def Action.Lossless (selection : List CrossFile) : Action → Prop
  | .addFiles files converted newFiles =>
    ∀ crossFile ∈ files[converted]?, Spared selection crossFile ∧
      (∀ path ∈ crossFile.path, path ∉ paths newFiles) ∧
      (converted + 1 = files.length → ∀ path ∈ paths newFiles, path ∉ paths selection)
  | .addDirectory files => (∀ file ∈ files, Spared selection file) ∧ (paths files).Nodup

def lossless (s : State) : Event → Prop
  | .converted i | .scanned i => ∀ action ∈ s.suspended[i]?, action.Lossless s.selection
  | _ => True

instance (selection : List CrossFile) (file : CrossFile) : Decidable (Spared selection file) :=
  inferInstanceAs (Decidable (_ → _))

instance (selection : List CrossFile) : (action : Action) → Decidable (action.Lossless selection)
  | .addFiles _ _ _ => inferInstanceAs (Decidable (∀ _ ∈ _, _))
  | .addDirectory _ => inferInstanceAs (Decidable (_ ∧ _))

instance (s : State) : (e : Event) → Decidable (lossless s e)
  | .converted _ | .scanned _ => inferInstanceAs (Decidable (∀ _ ∈ _, _))
  | .addFiles _ | .addDirectory _ | .threw _ | .addBinary _ _ _ | .addMessage _ _ _ =>
    .isTrue trivial

/-! ## 3. What an action does at its end -/

section Effects

variable {before requested selection selection' files newFiles : List CrossFile}
  {file : CrossFile}

@[simp] theorem paths_append (files newFiles : List CrossFile) :
    paths (files ++ newFiles) = paths files ++ paths newFiles := List.filterMap_append

@[simp] theorem pathless_append (files newFiles : List CrossFile) :
    pathless (files ++ newFiles) = pathless files ++ pathless newFiles :=
  List.filter_append _ _

theorem mem_paths {path : String} : path ∈ paths files ↔ ∃ file ∈ files, file.path = some path :=
  List.mem_filterMap

/-- A new file has another path than the entries. -/
theorem path_not_mem (h : isAlreadySelect selection file = false) {path : String}
    (hpath : file.path = some path) : path ∉ paths selection := by
  intro hmem
  obtain ⟨element, helement, hsame⟩ := mem_paths.mp hmem
  have hdiffers := List.any_eq_false.mp h element helement
  simp [CrossFile.isSameFile, hsame, hpath] at hdiffers

/-- **What was taken of some files**: those without a path, and the new ones of the others. -/
structure Taken (selection files newFiles : List CrossFile) : Prop where
  own : pathless newFiles = pathless files
  found : ∀ path ∈ paths files, path ∈ paths selection ∨ path ∈ paths newFiles
  distinct : (paths newFiles).Nodup

/-- One more file is converted. -/
theorem Taken.snoc (h : Taken selection files newFiles) (hspared : Spared selection file)
    (hpath : ∀ path ∈ file.path, path ∉ paths newFiles) :
    Taken selection (files ++ [file]) (taken selection newFiles file) := by
  unfold taken
  split
  · rename_i hselected
    obtain ⟨path, hsome, hmem⟩ := hspared hselected
    refine ⟨?_, ?_, h.distinct⟩
    · rw [pathless_append, h.own]
      simp [pathless, Option.mem_def.mp hsome]
    · intro other hother
      rw [paths_append, List.mem_append] at hother
      rcases hother with hother | hother
      · exact h.found other hother
      · obtain rfl : other = path := by simpa [paths, Option.mem_def.mp hsome] using hother
        exact Or.inl hmem
  · refine ⟨?_, ?_, ?_⟩
    · rw [pathless_append, pathless_append, h.own]
    · intro other hother
      rw [paths_append, List.mem_append] at hother ⊢
      rcases hother with hother | hother
      · exact (h.found other hother).imp_right Or.inl
      · exact Or.inr (Or.inr hother)
    · rw [paths_append, List.nodup_append]
      refine ⟨h.distinct, ?_, ?_⟩
      · cases hsome : file.path <;> simp [paths, hsome]
      · intro path hnew other hother hsame
        have hsome : file.path = some other := by simpa [paths] using hother
        exact hpath other hsome (hsame ▸ hnew)

theorem taken_not_mem (h : ∀ path ∈ paths newFiles, path ∉ paths selection) :
    ∀ path ∈ paths (taken selection newFiles file), path ∉ paths selection := by
  unfold taken
  split
  · exact h
  · rename_i hselected
    intro path hpath
    rw [paths_append, List.mem_append] at hpath
    rcases hpath with hpath | hpath
    · exact h path hpath
    · exact path_not_mem (by simpa using hselected) (by simpa [paths] using hpath)

/-- A scan comes back. -/
theorem taken_scanned (hspared : ∀ file ∈ files, Spared selection file)
    (hdistinct : (paths files).Nodup) : Taken selection files (scanned selection files) := by
  refine ⟨?_, ?_, ?_⟩
  · unfold pathless scanned
    rw [List.filter_filter]
    refine List.filter_congr fun file hfile => ?_
    cases hselected : isAlreadySelect selection file with
    | false => simp
    | true =>
        obtain ⟨path, hsome, _⟩ := hspared file hfile hselected
        simp [Option.mem_def.mp hsome]
  · intro path hpath
    obtain ⟨file, hfile, hsome⟩ := mem_paths.mp hpath
    cases hselected : isAlreadySelect selection file with
    | false =>
        exact Or.inr (mem_paths.mpr ⟨file, by simp [scanned, hfile, hselected], hsome⟩)
    | true =>
        obtain ⟨other, hother, hmem⟩ := hspared file hfile hselected
        rw [Option.mem_def, hsome] at hother
        exact Or.inl (Option.some.inj hother ▸ hmem)
  · exact hdistinct.sublist (List.filter_sublist.filterMap _)

theorem scanned_not_mem : ∀ path ∈ paths (scanned selection files), path ∉ paths selection := by
  intro path hpath
  obtain ⟨file, hfile, hsome⟩ := mem_paths.mp hpath
  have hnew : isAlreadySelect selection file = false := by
    simpa using (List.mem_filter.mp hfile).2
  exact path_not_mem hnew hsome

/-- **An action ends**: what it has taken goes behind the selection. -/
theorem complete_append (h : Complete before requested selection)
    (htaken : Taken selection files newFiles)
    (hnew : ∀ path ∈ paths newFiles, path ∉ paths selection) :
    Complete before (requested ++ files) (selection ++ newFiles) := by
  refine ⟨h.order.trans (List.sublist_append_left _ _), ?_, ?_, ?_⟩
  · rw [paths_append, List.nodup_append]
    exact ⟨h.distinct, htaken.distinct, fun path hpath other hother hsame =>
      hnew other hother (hsame ▸ hpath)⟩
  · intro path hpath
    rw [paths_append, List.mem_append] at hpath ⊢
    rcases hpath with hpath | hpath
    · exact Or.inl (h.present path hpath)
    · exact htaken.found path hpath
  · rw [pathless_append, pathless_append, htaken.own, ← List.append_assoc]
    exact h.own.append_right _

theorem addMessage_eq_some {index : Option Int} (h : addMessage selection file index =
    some selection') : ∃ i ≤ selection.length, selection' = selection.insertIdx i file := by
  simp only [addMessage] at h
  split at h
  · rename_i hrange
    exact ⟨_, by omega, (Option.some.inj h).symm⟩
  · cases h

theorem insertIdx_paths {i : Nat} (hi : i ≤ selection.length) {path : String}
    (h : path ∈ paths selection) : path ∈ paths (selection.insertIdx i file) := by
  obtain ⟨element, helement, hsome⟩ := mem_paths.mp h
  exact mem_paths.mpr ⟨element, (List.mem_insertIdx hi).mpr (Or.inr helement), hsome⟩

/-- **A file without a path** goes anywhere between the entries. -/
theorem complete_insert (h : Complete before requested selection) (hpath : file.path = none)
    {i : Nat} (hi : i ≤ selection.length) :
    Complete before (requested ++ [file]) (selection.insertIdx i file) := by
  have hperm : (selection.insertIdx i file).Perm (file :: selection) :=
    List.perm_insertIdx file selection hi
  have hpaths : (paths (selection.insertIdx i file)).Perm (paths selection) := by
    simpa [paths, hpath] using hperm.filterMap CrossFile.path
  refine ⟨h.order.trans (List.sublist_insertIdx selection i file), ?_, ?_, ?_⟩
  · exact hpaths.nodup_iff.mpr h.distinct
  · intro path hmem
    have hold : path ∈ paths requested := by simpa [paths, hpath] using hmem
    exact hpaths.mem_iff.mpr (h.present path hold)
  · have hown : (pathless (selection.insertIdx i file)).Perm (file :: pathless selection) := by
      simpa [pathless, hpath] using hperm.filter fun file => file.path = none
    have hlast : pathless (requested ++ [file]) = pathless requested ++ [file] := by
      simp [pathless, hpath]
    rw [hlast, ← List.append_assoc]
    exact hown.trans ((h.own.cons file).trans (List.perm_append_singleton file _).symm)

end Effects

/-! ## 4. Runs -/

section Runs

variable {before requested : List CrossFile} {s t : State} {e : Event}

/-- What a suspended action has taken so far. -/
def Action.Sound (selection : List CrossFile) : Action → Prop
  | .addFiles files converted newFiles => Taken selection (files.take converted) newFiles
  | .addDirectory _ => True

/-- **A state on the way.** -/
structure Kept (before requested : List CrossFile) (s : State) : Prop where
  complete : Complete before requested s.selection
  sound : ∀ action ∈ s.suspended, action.Sound s.selection

/-- What was taken stays taken when the selection grows. -/
theorem Action.Sound.grow {selection selection' : List CrossFile} {action : Action}
    (h : action.Sound selection) (hgrow : ∀ path ∈ paths selection, path ∈ paths selection') :
    action.Sound selection' := by
  cases action with
  | addFiles files converted newFiles =>
      have htaken : Taken selection (files.take converted) newFiles := h
      exact ⟨htaken.own, fun path hpath => (htaken.found path hpath).imp_left (hgrow path),
        htaken.distinct⟩
  | addDirectory files => trivial

theorem kept_start (h : (paths before).Nodup) : Kept before [] (State.start before) := by
  refine ⟨⟨List.Sublist.refl _, h, ?_, ?_⟩, ?_⟩
  · intro path hpath
    cases hpath
  · rw [State.start, pathless, pathless, List.filter_nil, List.append_nil]
  · intro action haction
    cases haction

/-- An action ends at its place, with the selection it leaves. -/
theorem kept_ended {selection : List CrossFile} (h : Kept before requested s)
    (hcomplete : Complete before (requested ++ finished s e) selection) (i : Nat)
    (hgrow : ∀ path ∈ paths s.selection, path ∈ paths selection) :
    Kept before (requested ++ finished s e) ⟨selection, s.suspended.eraseIdx i⟩ :=
  ⟨hcomplete, fun action haction =>
    (h.sound action (List.mem_of_mem_eraseIdx haction)).grow hgrow⟩

theorem kept_step (h : Kept before requested s) (hg : lossless s e) (hs : step s e = some t) :
    Kept before (requested ++ finished s e) t := by
  cases e with
  | addFiles files =>
      have hnone : finished s (.addFiles files) = [] := rfl
      rw [hnone, List.append_nil]
      simp only [step] at hs
      split at hs
      · cases hs
        exact h
      · cases hs
        refine ⟨h.complete, fun action haction => ?_⟩
        rcases List.mem_append.mp haction with haction | haction
        · exact h.sound action haction
        · obtain rfl := List.mem_singleton.mp haction
          exact ⟨rfl, fun path hpath => by simp [paths] at hpath, List.nodup_nil⟩
  | addDirectory files =>
      have hnone : finished s (.addDirectory files) = [] := rfl
      rw [hnone, List.append_nil]
      cases hs
      refine ⟨h.complete, fun action haction => ?_⟩
      rcases List.mem_append.mp haction with haction | haction
      · exact h.sound action haction
      · obtain rfl := List.mem_singleton.mp haction
        trivial
  | converted i =>
      simp only [step] at hs
      split at hs
      · rename_i files converted newFiles haction
        split at hs
        · rename_i crossFile hnext
          obtain ⟨hspared, hpath, hlast⟩ := hg _ haction crossFile hnext
          have hmem := List.mem_of_getElem? haction
          have hsound : Taken s.selection (files.take converted) newFiles := h.sound _ hmem
          have htaken := hsound.snoc hspared hpath
          have htake : files.take converted ++ [crossFile] = files.take (converted + 1) := by
            rw [List.take_add_one, hnext]
            rfl
          rw [htake] at htaken
          split at hs
          · -- The last file: the action returns.
            rename_i hend
            cases hs
            have hfinished : finished s (.converted i) = files := by
              simp [finished, haction, hend]
            rw [hend, List.take_length] at htaken
            refine kept_ended h ?_ i fun path hpath => by simp [hpath]
            rw [hfinished]
            exact complete_append h.complete htaken (taken_not_mem (hlast hend))
          · cases hs
            rename_i hmore
            have hfinished : finished s (.converted i) = [] := by
              simp [finished, haction, hmore]
            rw [hfinished, List.append_nil]
            refine ⟨h.complete, fun action haction => ?_⟩
            rcases List.mem_or_eq_of_mem_set haction with haction | rfl
            · exact h.sound action haction
            · exact htaken
        · cases hs
      · cases hs
  | scanned i =>
      simp only [step] at hs
      split at hs
      · rename_i files haction
        cases hs
        obtain ⟨hspared, hdistinct⟩ := hg _ haction
        have hfinished : finished s (.scanned i) = files := by simp [finished, haction]
        refine kept_ended h ?_ i fun path hpath => by simp [hpath]
        rw [hfinished]
        exact complete_append h.complete (taken_scanned hspared hdistinct) scanned_not_mem
      · cases hs
  | threw i =>
      simp only [step] at hs
      split at hs
      · cases hs
        have hnone : finished s (.threw i) = [] := rfl
        refine kept_ended h ?_ i fun path hpath => hpath
        rw [hnone, List.append_nil]
        exact h.complete
      · cases hs
  | addBinary bytes fileType fileName =>
      cases hs
      have hpathless : (binaryFile bytes fileType fileName).path = none := rfl
      have hcomplete := complete_insert h.complete hpathless (Nat.le_refl s.selection.length)
      rw [List.insertIdx_length_self] at hcomplete
      exact ⟨hcomplete, fun action haction =>
        (h.sound action haction).grow fun path hpath => by simp [hpath]⟩
  | addMessage message uuid index =>
      cases hs
      cases hindex : addMessage s.selection (messageFile message uuid) index with
      | none =>
          -- The index is out of range: the action throws.
          have hnone : finished s (.addMessage message uuid index) = [] := by
            simp [finished, hindex]
          rw [hnone, List.append_nil]
          exact h
      | some selection =>
          have hadded : finished s (.addMessage message uuid index) = [messageFile message uuid] := by
            simp [finished, hindex]
          obtain ⟨i, hi, rfl⟩ := addMessage_eq_some hindex
          rw [hadded]
          have hpathless : (messageFile message uuid).path = none := rfl
          exact ⟨complete_insert h.complete hpathless hi, fun action haction =>
            (h.sound action haction).grow fun path hpath => insertIdx_paths hi hpath⟩

end Runs

/-- **The selection is complete in every state** of a run in which no step loses or doubles a
    file: it has the entries before, in their order, and what the actions that have ended asked for,
    no path twice. -/
theorem selection_complete {before : List CrossFile} {es : List Event} {t : State}
    (hbefore : (paths before).Nodup) (h : actions.Run lossless (State.start before) es t) :
    Complete before (actions.trace finished (State.start before) es) t.selection := by
  have hkept : Kept before (actions.trace finished (State.start before) es) t :=
    h.shownInvariant (kept_start hbefore) fun _ _ _ _ hkept hg hs => kept_step hkept hg hs
  exact hkept.complete

/-- A file of the platform's picker, with a path or, in the browser, with its bytes. -/
def pickedFile (name : String) (path : Option String) : CrossFile where
  name := name
  fileType := .other
  size := 3
  thumbnail := none
  asset := none
  path := path
  bytes := if path.isSome then none else some [1, 2, 3]
  lastModified := none
  lastAccessed := none

/-- A message is added while the second of two files is converted, and one of them is picked
    again. -/
def mixedRun : List Event :=
  [.addFiles [pickedFile "a" (some "/a"), pickedFile "b" (some "/b")], .converted 0,
    .addMessage "hello" "1" none, .converted 0, .addFiles [pickedFile "a" (some "/a")],
    .converted 0]

theorem selection_complete_mixedRun :
    ∃ t, actions.Run lossless (State.start []) mixedRun t ∧
      t.selection.map CrossFile.name = ["1.txt", "a", "b"] ∧
      Complete [] (actions.trace finished (State.start []) mixedRun) t.selection := by
  have hrun : ((actions.guarded lossless).run (State.start []) mixedRun).map
      (fun t => t.selection.map CrossFile.name) = some ["1.txt", "a", "b"] := by
    decide
  obtain ⟨t, ht, hnames⟩ := Machine.run_observe_guarded hrun
  exact ⟨t, ht, hnames, selection_complete List.nodup_nil ht⟩

/-- A message, and a file picked in the browser. -/
def browserRun : List Event :=
  [.addMessage "hello" "1" none, .addFiles [pickedFile "a" none], .converted 0]

/-- **The file is lost** behind the message: neither has a path. -/
theorem selection_loses_file :
    ∃ t, actions.Run Machine.anyStep (State.start []) browserRun t ∧
      t = State.start [messageFile "hello" "1"] ∧
      ¬ Complete [] (actions.trace finished (State.start []) browserRun) t.selection := by
  have hrun : (actions.run (State.start []) browserRun).map id =
      some (State.start [messageFile "hello" "1"]) := by decide
  have hrequested : actions.trace finished (State.start []) browserRun =
      [messageFile "hello" "1", pickedFile "a" none] := by decide
  obtain ⟨t, ht, rfl⟩ := Machine.run_observe hrun
  refine ⟨_, ht, rfl, fun hcomplete => ?_⟩
  have hlength := hcomplete.own.length_eq
  rw [hrequested] at hlength
  revert hlength
  decide

/-- **A path is selected twice**: by one action, which compares its files with the selection only,
    or by two actions that are suspended at the same time. -/
theorem selection_doubles_path :
    (∃ t, actions.Run Machine.anyStep (State.start [])
        [.addFiles [pickedFile "a" (some "/a"), pickedFile "a" (some "/a")], .converted 0,
          .converted 0] t ∧ t.suspended = [] ∧ paths t.selection = ["/a", "/a"]) ∧
    ∃ t, actions.Run Machine.anyStep (State.start [])
        [.addFiles [pickedFile "a" (some "/a"), pickedFile "b" (some "/b")], .converted 0,
          .addFiles [pickedFile "a" (some "/a")], .converted 1, .converted 0] t ∧
      t.suspended = [] ∧ paths t.selection = ["/a", "/a", "/b"] := by
  have hone : (actions.run (State.start [])
      [.addFiles [pickedFile "a" (some "/a"), pickedFile "a" (some "/a")], .converted 0,
        .converted 0]).map (fun t => (t.suspended, paths t.selection)) =
      some ([], ["/a", "/a"]) := by decide
  have htwo : (actions.run (State.start [])
      [.addFiles [pickedFile "a" (some "/a"), pickedFile "b" (some "/b")], .converted 0,
        .addFiles [pickedFile "a" (some "/a")], .converted 1, .converted 0]).map
        (fun t => (t.suspended, paths t.selection)) = some ([], ["/a", "/a", "/b"]) := by decide
  obtain ⟨t, ht, hseen⟩ := Machine.run_observe hone
  obtain ⟨u, hu, hseen'⟩ := Machine.run_observe htwo
  obtain ⟨hsuspended, hpaths⟩ := Prod.mk.inj hseen
  obtain ⟨hsuspended', hpaths'⟩ := Prod.mk.inj hseen'
  exact ⟨⟨t, ht, hsuspended, hpaths⟩, u, hu, hsuspended', hpaths'⟩

end LocalSend.SelectedFiles
