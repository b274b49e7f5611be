/-
  File:      LocalSend/Files/ContentUri.lean
  Subject:   DOCUMENTS BELOW A TREE (`file_saver.dart` for content:// destinations,
             `content_uri_helper.dart`, `android_channel.dart`).

  * `documentPath` -- the path a document URI stands for, decoded;
  * `DocumentsContained` -- every document named, and every directory asked for, lies under the
    path of the tree;
  * `documentPath_convert` -- the URI of a suffix stands for the path of the tree with the suffix
    after it;
  * `mem_createMissing` -- which directories are asked for;
  * **`digest_documents_contained_iff`** -- all that holds exactly if the name, its directory and
    each directory on the way come back as often as they climb out.

  Nothing in this branch checks the name: `..` goes through to the document provider
  (`digest_leaves_tree`).
-/
import LocalSend.Files.Names

namespace LocalSend.Files

open Lib.Posix
open Lib.Percent (encodeComponent decodeComponent decodeComponent_append decodeUtf8_eq_some
  decodeBytes_encodeComponent)

/-! ## 1. What a URI stands for -/

/-- The path of a document in a tree: what stands after the tree and `/document/`, decoded. -/
def documentPath (treeUri uri : Text) : Option Text :=
  if treeUri ++ "/document/".toList <+: uri then
    decodeComponent (uri.drop (treeUri ++ "/document/".toList).length)
  else none

/-- The path that `more` leads to from a document lies under a root, dots resolved. -/
def LiesUnder (treeUri root uri : Text) (more : Text) : Prop :=
  ∃ path, documentPath treeUri uri = some path ∧
    Inside (place root) ((components more).foldl enter (place path))

/-- **Every document named and every directory asked for lies under the path of the tree.** -/
structure DocumentsContained (treeUri root : Text) (digest : Digest) : Prop where
  destination : LiesUnder treeUri root digest.destination []
  document : ∀ uri, digest.documentUri = some uri → LiesUnder treeUri root uri []
  asked : ∀ request ∈ digest.asked,
    LiesUnder treeUri root request.documentUri request.directoryName

theorem documentPath_append (treeUri component : Text) :
    documentPath treeUri (treeUri ++ "/document/".toList ++ component) =
      decodeComponent component := by
  rw [documentPath, if_pos (List.prefix_append _ _), List.drop_left]

/-- A tree URI, and the path it stands for. -/
theorem treePath_decodes {treeUri root : Text} (h : getPathFromTreeUri treeUri = some root) :
    decodeComponent (treePath treeUri) = some root := by
  obtain ⟨index, hindex, hdecode⟩ := Option.bind_eq_some_iff.mp h
  rw [treePath, hindex]
  exact hdecode

/-- The path of the tree, with the suffix after it if there is one. -/
def suffixed (root : Text) : Option Text → Text
  | none => root
  | some suffix => root ++ '/' :: suffix

/-- **The URI of a suffix stands for the path of the tree with the suffix after it.** -/
theorem documentPath_convert {treeUri root : Text} (h : getPathFromTreeUri treeUri = some root)
    (suffix : Option Text) :
    documentPath treeUri (convertTreeUriToDocumentUri treeUri suffix) =
      some (suffixed root suffix) := by
  cases suffix with
  | none =>
      rw [convertTreeUriToDocumentUri, documentPath_append]
      exact treePath_decodes h
  | some suffix =>
      have hassoc : convertTreeUriToDocumentUri treeUri (some suffix) =
          treeUri ++ "/document/".toList ++
            (treePath treeUri ++ "%2F".toList ++ encodeComponent suffix) := by
        simp only [convertTreeUriToDocumentUri, List.append_assoc]
      rw [hassoc, documentPath_append]
      exact decodeComponent_append (treePath_decodes h) suffix

theorem place_suffixed (root : Text) (suffix : Option Text) :
    place (suffixed root suffix) =
      (components (suffix.getD [])).foldl enter (place root) := by
  cases suffix with
  | none => rfl
  | some suffix =>
      rw [suffixed, place, components_append, resolve, List.foldl_append]
      rfl

/-- What lies under the tree, said of the names alone. -/
theorem liesUnder_convert {treeUri root : Text} (h : getPathFromTreeUri treeUri = some root)
    (suffix : Option Text) (more : Text) :
    LiesUnder treeUri root (convertTreeUriToDocumentUri treeUri suffix) more ↔
      ComesBack (place root) (components (suffix.getD []) ++ components more) := by
  rw [← inside_walk_iff, List.foldl_append, ← place_suffixed]
  constructor
  · intro hunder
    obtain ⟨path, hpath, hinside⟩ := hunder
    rw [documentPath_convert h] at hpath
    cases hpath
    exact hinside
  · intro hinside
    exact ⟨_, documentPath_convert h suffix, hinside⟩

/-! ## 2. The directories asked for -/

/-- `subDirPath`: the parts up to an index. -/
def subDirPath (parts : List Text) (i : Nat) : Text := join (parts.take (i + 1))

theorem join_cons {parts : List Text} (part : Text) (h : parts ≠ []) :
    join (part :: parts) = part ++ '/' :: join parts := by
  rw [join, List.intercalate_cons_of_ne_nil h, List.append_assoc]
  rfl

theorem components_join (parts : List Text) :
    components (join parts) = parts.flatMap components := by
  induction parts with
  | nil => exact components_nil
  | cons part parts ih =>
      rw [List.flatMap_cons, ← ih]
      by_cases hparts : parts = []
      · rw [hparts]
        simp [join, components_nil]
      · rw [join_cons part hparts, components_append]

theorem components_subDirPath {parts : List Text} {i : Nat} (h : i < parts.length) :
    components (subDirPath parts i) =
      components (join (parts.take i)) ++ components (parts.getD i []) := by
  rw [subDirPath, components_join, components_join, List.take_succ_eq_append_getElem h,
    List.flatMap_append]
  simp [List.getD_eq_getElem?_getD, h]

/-- Another part makes the path longer. -/
theorem length_join_concat (parts : List Text) (part : Text) (h : parts ≠ []) :
    (join parts).length < (join (parts ++ [part])).length := by
  induction parts with
  | nil => exact absurd rfl h
  | cons first parts ih =>
      have hmore : parts ++ [part] ≠ [] := List.append_ne_nil_of_right_ne_nil parts (by simp)
      rw [List.cons_append, join_cons first hmore, List.length_append, List.length_cons]
      by_cases hparts : parts = []
      · rw [hparts]
        simp only [join, List.intercalate_singleton]
        omega
      · have hlength := ih hparts
        rw [join_cons first hparts, List.length_append, List.length_cons]
        omega

theorem length_subDirPath_lt {parts : List Text} {i j : Nat} (hij : i < j)
    (hj : j < parts.length) : (subDirPath parts i).length < (subDirPath parts j).length := by
  induction j with
  | zero => exact absurd hij (Nat.not_lt_zero i)
  | succ j ih =>
      have hstep : (subDirPath parts j).length < (subDirPath parts (j + 1)).length := by
        unfold subDirPath
        rw [List.take_succ_eq_append_getElem hj]
        apply length_join_concat
        intro hnone
        have hlength := congrArg List.length hnone
        rw [List.length_take, List.length_nil] at hlength
        omega
      rcases Nat.lt_succ_iff_lt_or_eq.mp hij with hlt | rfl
      · exact (ih hlt (by omega)).trans hstep
      · exact hstep

section Loop

variable (succeeds : DirectoryRequest → Bool) (parentUri : Text) (parts : List Text)

/-- The loop gets past an index: the directory is known, or made. -/
def Passed (created : List Text) (i : Nat) : Prop :=
  subDirPath parts i ∈ created ∨ succeeds (directoryRequest parentUri parts i) = true

/-- **A directory is asked for** at each index that is not known, up to the first failure. -/
def Asks (created : List Text) (i bound k : Nat) : Prop :=
  i ≤ k ∧ k < bound ∧ (∀ j, i ≤ j → j < k → Passed succeeds parentUri parts created j) ∧
    subDirPath parts k ∉ created

variable {succeeds parentUri parts}

/-- One round of the loop. -/
theorem asks_iff {created : List Text} {i bound k : Nat} (hi : i < bound) :
    Asks succeeds parentUri parts created i bound k ↔
      k = i ∧ subDirPath parts i ∉ created ∨
      Passed succeeds parentUri parts created i ∧
        Asks succeeds parentUri parts created (i + 1) bound k := by
  constructor
  · intro h
    obtain ⟨hlow, hhigh, hpassed, hnew⟩ := h
    rcases Nat.eq_or_lt_of_le hlow with rfl | hlt
    · exact .inl ⟨rfl, hnew⟩
    · exact .inr ⟨hpassed i (Nat.le_refl i) hlt, hlt, hhigh,
        fun j hj hjk => hpassed j (by omega) hjk, hnew⟩
  · intro h
    obtain ⟨rfl, hnew⟩ | ⟨hfirst, hlow, hhigh, hpassed, hnew⟩ := h
    · exact ⟨Nat.le_refl k, hi, fun j hj hjk => by omega, hnew⟩
    · refine ⟨by omega, hhigh, fun j hj hjk => ?_, hnew⟩
      rcases Nat.eq_or_lt_of_le hj with rfl | hlt
      · exact hfirst
      · exact hpassed j hlt hjk

/-- The directory of a round is none of those of later rounds. -/
theorem asks_cons {created : List Text} {i bound k : Nat} (hbound : bound ≤ parts.length) :
    Asks succeeds parentUri parts (subDirPath parts i :: created) (i + 1) bound k ↔
      Asks succeeds parentUri parts created (i + 1) bound k := by
  have hmem : ∀ j, i < j → j < bound →
      (subDirPath parts j ∈ subDirPath parts i :: created ↔ subDirPath parts j ∈ created) := by
    intro j hij hj
    have hlength := length_subDirPath_lt hij (Nat.lt_of_lt_of_le hj hbound)
    have hne : subDirPath parts j ≠ subDirPath parts i := by
      intro hsame
      rw [hsame] at hlength
      omega
    rw [List.mem_cons, or_iff_right hne]
  unfold Asks Passed
  constructor
  · intro h
    obtain ⟨hlow, hhigh, hpassed, hnew⟩ := h
    refine ⟨hlow, hhigh, fun j hj hjk => ?_, (not_congr (hmem k hlow hhigh)).mp hnew⟩
    exact (or_congr_left (hmem j hj (by omega))).mp (hpassed j hj hjk)
  · intro h
    obtain ⟨hlow, hhigh, hpassed, hnew⟩ := h
    refine ⟨hlow, hhigh, fun j hj hjk => ?_, (not_congr (hmem k hlow hhigh)).mpr hnew⟩
    exact (or_congr_left (hmem j hj (by omega))).mpr (hpassed j hj hjk)

/-- **The calls the loop makes.** -/
theorem mem_createMissing {created : List Text} {request : DirectoryRequest} {i rounds : Nat}
    (hbound : i + rounds ≤ parts.length) :
    request ∈ (createMissing succeeds parentUri parts i rounds created).1 ↔
      ∃ k, Asks succeeds parentUri parts created i (i + rounds) k ∧
        request = directoryRequest parentUri parts k := by
  induction rounds generalizing i created with
  | zero =>
      constructor
      · intro h
        cases h
      · intro h
        obtain ⟨k, ⟨hlow, hhigh, -⟩, -⟩ := h
        omega
  | succ rounds ih =>
      have hsum : i + (rounds + 1) = i + 1 + rounds := by omega
      have hi : i < i + 1 + rounds := by omega
      rw [hsum] at hbound ⊢
      rw [createMissing]
      by_cases hknown : join (parts.take (i + 1)) ∈ created
      · -- A directory that is known: the round makes no call.
        rw [if_pos hknown, ih hbound]
        have hpassed : Passed succeeds parentUri parts created i := .inl hknown
        have hnot : ¬subDirPath parts i ∉ created := not_not_intro hknown
        simp only [asks_iff hi, hpassed, hnot, and_false, false_or, true_and]
      · rw [if_neg hknown]
        by_cases hsucceeds : succeeds (directoryRequest parentUri parts i) = true
        · -- A call that succeeds: the directory is known from now on.
          rw [if_pos hsucceeds, List.mem_cons, ih hbound]
          have hpassed : Passed succeeds parentUri parts created i := .inr hsucceeds
          have hnew : subDirPath parts i ∉ created := hknown
          have hlater : ∀ k, Asks succeeds parentUri parts
              (join (parts.take (i + 1)) :: created) (i + 1) (i + 1 + rounds) k ↔
                Asks succeeds parentUri parts created (i + 1) (i + 1 + rounds) k :=
            fun k => asks_cons hbound
          simp only [asks_iff hi, hpassed, hnew, hlater, not_false_eq_true, and_true, true_and,
            or_and_right, exists_or, exists_eq_left]
        · -- A call that fails throws out of the loop.
          rw [if_neg hsucceeds, List.mem_singleton]
          have hnotPassed : ¬Passed succeeds parentUri parts created i := by
            intro hpassed
            exact hpassed.elim hknown hsucceeds
          have hnew : subDirPath parts i ∉ created := hknown
          simp only [asks_iff hi, hnotPassed, hnew, not_false_eq_true, and_true, false_and,
            or_false, exists_eq_left]

end Loop

/-! ## 3. The branch for content:// URIs -/

/-- The names come back: the name itself, its directory with backslashes read as slashes, and each
    directory that is asked for on the way. -/
structure NamesComeBack (around : Surroundings) (treeUri root fileName : Text) : Prop where
  name : ComesBack (place root) (components fileName)
  directory : '/' ∈ fileName → ComesBack (place root) (components (parentPath fileName))
  missing : '/' ∈ fileName → ∀ k, Asks around.succeeds treeUri (fileName.splitOn '/')
      around.createdDirectories 0 ((fileName.splitOn '/').length - 1) k →
    ComesBack (place root) (components (subDirPath (fileName.splitOn '/') k))

/-- The directory of a call, said of the names alone. -/
theorem liesUnder_request {treeUri root : Text} (h : getPathFromTreeUri treeUri = some root)
    {parts : List Text} {k : Nat} (hk : k < parts.length) :
    LiesUnder treeUri root (directoryRequest treeUri parts k).documentUri
        (directoryRequest treeUri parts k).directoryName ↔
      ComesBack (place root) (components (subDirPath parts k)) := by
  rw [components_subDirPath hk]
  have hsuffix : components ((if k = 0 then none else some (join (parts.take k))).getD []) =
      components (join (parts.take k)) := by
    split
    · rename_i hzero
      rw [hzero]
      rfl
    · rfl
  rw [← hsuffix]
  exact liesUnder_convert h _ _

/-- The calls of the branch. -/
theorem mem_asked {around : Surroundings} {treeUri fileName : Text} {request : DirectoryRequest} :
    request ∈ (digestDocument around treeUri fileName).asked ↔
      '/' ∈ fileName ∧ ∃ k, Asks around.succeeds treeUri (fileName.splitOn '/')
        around.createdDirectories 0 ((fileName.splitOn '/').length - 1) k ∧
      request = directoryRequest treeUri (fileName.splitOn '/') k := by
  by_cases hslash : '/' ∈ fileName
  · have hbound : 0 + ((fileName.splitOn '/').length - 1) ≤ (fileName.splitOn '/').length := by
      omega
    simp only [digestDocument, createMissingDirectoriesAndroid, hslash, if_true, true_and,
      mem_createMissing hbound, Nat.zero_add]
  · simp [digestDocument, hslash]

/-- **Documents stay under the tree** exactly if the names come back. -/
theorem digest_documents_contained_iff (platform : Platform) (around : Surroundings) (rounds : Nat)
    {treeUri root : Text} (fileName : Text) (hcontent : "content://".toList <+: treeUri)
    (hroot : getPathFromTreeUri treeUri = some root) :
    ∃ digest, digestFilePathAndPrepareDirectory platform around rounds treeUri fileName =
        some digest ∧
      (DocumentsContained treeUri root digest ↔ NamesComeBack around treeUri root fileName) := by
  refine ⟨digestDocument around treeUri fileName,
    by rw [digestFilePathAndPrepareDirectory, if_pos hcontent], ?_⟩
  have hdestination : LiesUnder treeUri root (digestDocument around treeUri fileName).destination []
      ↔ ComesBack (place root) (components fileName) := by
    have hconvert := liesUnder_convert hroot (some fileName) []
    rw [components_nil, List.append_nil] at hconvert
    exact hconvert
  have hdocument : (∀ uri, (digestDocument around treeUri fileName).documentUri = some uri →
      LiesUnder treeUri root uri []) ↔
      ('/' ∈ fileName → ComesBack (place root) (components (parentPath fileName))) := by
    have hconvert := liesUnder_convert hroot
      (if '/' ∈ fileName then some (parentPath fileName) else none) []
    rw [components_nil, List.append_nil] at hconvert
    have hone : (∀ uri, (digestDocument around treeUri fileName).documentUri = some uri →
        LiesUnder treeUri root uri []) ↔ LiesUnder treeUri root (convertTreeUriToDocumentUri treeUri
          (if '/' ∈ fileName then some (parentPath fileName) else none)) [] := by
      constructor
      · intro hall
        exact hall _ rfl
      · intro hunder uri huri
        cases huri
        exact hunder
    rw [hone, hconvert]
    by_cases hslash : '/' ∈ fileName
    · simp [hslash]
    · -- Without a slash the document is the tree itself.
      simp only [hslash, if_false, false_implies, iff_true]
      exact (inside_walk_iff _ _).mp List.prefix_rfl
  constructor
  · intro hcontained
    refine ⟨hdestination.mp hcontained.destination, hdocument.mp hcontained.document, ?_⟩
    intro hslash k hasks
    have hk : k < (fileName.splitOn '/').length := by
      have hhigh := hasks.2.1
      omega
    exact (liesUnder_request hroot hk).mp
      (hcontained.asked _ (mem_asked.mpr ⟨hslash, k, hasks, rfl⟩))
  · intro hnames
    refine ⟨hdestination.mpr hnames.name, hdocument.mpr hnames.directory, ?_⟩
    intro request hrequest
    obtain ⟨hslash, k, hasks, rfl⟩ := mem_asked.mp hrequest
    have hk : k < (fileName.splitOn '/').length := by
      have hhigh := hasks.2.1
      omega
    exact (liesUnder_request hroot hk).mpr (hnames.missing hslash k hasks)

/-! ## 4. A name that leaves -/

def localSendTree : Text :=
  "content://com.android.externalstorage.documents/tree/primary%3ALocalSend".toList

/-- A session that has made no directory, on a platform where every call succeeds. -/
def emptySurroundings : Surroundings where
  fs := ⟨fun _ => none, fun _ => false⟩
  succeeds _ := true
  createdDirectories := []

theorem localSendTree_path : getPathFromTreeUri localSendTree = some "primary:LocalSend".toList := by
  have hindex : indexOf "/tree/".toList localSendTree = some 47 := by decide
  have hcoded : localSendTree.drop (47 + 6) = encodeComponent "primary:LocalSend".toList := by decide
  rw [getPathFromTreeUri, hindex, Option.bind_some, hcoded, decodeComponent,
    decodeBytes_encodeComponent, Option.bind_some]
  exact decodeUtf8_eq_some.mpr ⟨_, rfl, by decide⟩

/-- A file in a new directory of the tree. -/
theorem digest_documents_contained_iff_subfolder :
    ∃ digest, digestFilePathAndPrepareDirectory asciiPlatform emptySurroundings 1 localSendTree
        "a/x".toList = some digest ∧
      DocumentsContained localSendTree "primary:LocalSend".toList digest := by
  obtain ⟨digest, hdigest, hiff⟩ := digest_documents_contained_iff asciiPlatform emptySurroundings 1
    "a/x".toList (by decide) localSendTree_path
  refine ⟨digest, hdigest, hiff.mpr ⟨by decide, fun _ => by decide, ?_⟩⟩
  intro _ k hasks
  obtain ⟨-, hhigh, -⟩ := hasks
  have hlength : ("a/x".toList.splitOn '/').length = 2 := by decide
  obtain rfl : k = 0 := by omega
  decide

/-- **A name with `..` leaves the tree.** -/
theorem digest_leaves_tree :
    "content://".toList <+: localSendTree ∧
    getPathFromTreeUri localSendTree = some "primary:LocalSend".toList ∧
    ∃ digest, digestFilePathAndPrepareDirectory asciiPlatform emptySurroundings 1 localSendTree
        "../x".toList = some digest ∧
      ¬DocumentsContained localSendTree "primary:LocalSend".toList digest := by
  have hcontent : "content://".toList <+: localSendTree := by decide
  refine ⟨hcontent, localSendTree_path, digestDocument emptySurroundings localSendTree
    "../x".toList, if_pos hcontent, fun hcontained => ?_⟩
  have hback := (liesUnder_convert localSendTree_path (some "../x".toList) []).mp
    hcontained.destination
  revert hback
  decide

end LocalSend.Files
