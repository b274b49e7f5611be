/-
  File:      LocalSend/Files/TreeUri.lean
  Subject:   TREE URIS (`content_uri_helper.dart`, and `file_saver.dart` for an SD card).

  * `encodeTreeUri`, `guessRelativePathFromPickedFileContentUri` -- over any decoder of components;
  * `indexOf_front`, `replaceFirst_front` -- the two searches find what stands in front;
  * **`guess_convert`** -- the path of a document below a coded tree is guessed right, whatever
    the names;
  * `getSdCardPath`, `sdCardStreamUri` -- where a file on an SD card is written to;
  * **`sdCardStreamUri_fits_iff`** -- that URI names the directory of the file only where nothing in
    it had to be coded: the coder looks for a `/tree/` in the bare path and finds none.
-/
import LocalSend.Files.Names

namespace LocalSend.Files

open Lib.Posix
open Lib.Percent (encodeComponent decodeComponent decodeText decodeComponent_append
  decodeText_append decodeText_encodeComponent decodeText_self_iff decodeComponent_eq dropMark
  hexValue)

/-! ## 1. The helpers -/

/-- `String.replaceFirst` of a text. -/
def replaceFirst (text pattern replacement : Text) : Text :=
  match indexOf pattern text with
  | some index => text.take index ++ replacement ++ text.drop (index + pattern.length)
  | none => text

section Decoder

variable (decode : Text → Option Text)

/-- `none` where the decoder throws. -/
def encodeTreeUri (uri : Text) : Option Text :=
  match indexOf "/tree/".toList uri with
  | none => some uri
  | some treeIndex =>
    (decode (uri.drop (treeIndex + 6))).map fun path =>
      uri.take (treeIndex + 6) ++ encodeComponent path

/-- `getPathFromTreeUri`, over a decoder. -/
def pathFromTreeUri (uri : Text) : Option Text :=
  (indexOf "/tree/".toList uri).bind fun index => decode (uri.drop (index + 6))

/-- `none` where the decoder throws. -/
def guessRelativePathFromPickedFileContentUri (folderContentUri basePath folderName uri : Text) :
    Option Text :=
  let withoutFolder := replaceFirst uri folderContentUri []
  let fileUri :=
    if "/document/".toList <+: withoutFolder then withoutFolder.drop 10 else withoutFolder
  (decode fileUri).map fun decoded =>
    let withoutBasePath := replaceFirst decoded basePath []
    if ['/'] <+: withoutBasePath then folderName ++ withoutBasePath
    else folderName ++ '/' :: withoutBasePath

end Decoder

theorem getPathFromTreeUri_eq : getPathFromTreeUri = pathFromTreeUri decodeComponent := rfl

/-! ## 2. Searches -/

variable {pattern text rest uri treeUri : Text} {index : Nat}

theorem indexOf_self (pattern rest : Text) : indexOf pattern (pattern ++ rest) = some 0 := by
  cases pattern with
  | nil => cases rest <;> simp [indexOf]
  | cons c pattern =>
      rw [List.cons_append, indexOf, if_pos]
      exact List.prefix_append (c :: pattern) rest

/-- What stands somewhere is found. -/
theorem indexOf_append (front pattern rest : Text) :
    ∃ index, indexOf pattern (front ++ (pattern ++ rest)) = some index := by
  induction front with
  | nil => exact ⟨0, indexOf_self pattern rest⟩
  | cons c front ih =>
      rw [List.cons_append, indexOf]
      split
      · exact ⟨0, rfl⟩
      · obtain ⟨index, hindex⟩ := ih
        exact ⟨index + 1, by rw [hindex, Option.map_some]⟩

/-- A text that is found fits. -/
theorem indexOf_le (h : indexOf pattern text = some index) :
    index + pattern.length ≤ text.length := by
  induction text generalizing index with
  | nil =>
      rw [indexOf] at h
      split at h
      · rename_i hpattern
        cases h
        simp [hpattern]
      · cases h
  | cons c text ih =>
      rw [indexOf] at h
      split at h
      · rename_i hfront
        cases h
        have hlength := hfront.length_le
        omega
      · obtain ⟨index, hindex, rfl⟩ := Option.map_eq_some_iff.mp h
        have hlength := ih hindex
        rw [List.length_cons]
        omega

theorem indexOf_take (h : indexOf pattern text = some index) :
    text.take (index + pattern.length) = text.take index ++ pattern := by
  induction text generalizing index with
  | nil =>
      rw [indexOf] at h
      split at h
      · rename_i hpattern
        cases h
        simp [hpattern]
      · cases h
  | cons c text ih =>
      rw [indexOf] at h
      split at h
      · rename_i hfront
        cases h
        obtain ⟨rest, hrest⟩ := hfront
        rw [Nat.zero_add, ← hrest, List.take_left, List.take_zero, List.nil_append]
      · obtain ⟨index, hindex, rfl⟩ := Option.map_eq_some_iff.mp h
        have hsum : index + 1 + pattern.length = index + pattern.length + 1 := by omega
        rw [hsum, List.take_succ_cons, ih hindex, List.take_succ_cons, List.cons_append]

/-- **What stands after the first occurrence does not matter.** -/
theorem indexOf_front (h : indexOf pattern text = some index) (other : Text) :
    indexOf pattern (text.take (index + pattern.length) ++ other) = some index := by
  induction text generalizing index with
  | nil =>
      rw [indexOf] at h
      split at h
      · rename_i hpattern
        cases h
        rw [hpattern]
        exact indexOf_self [] other
      · cases h
  | cons c text ih =>
      have hfits := indexOf_le h
      rw [indexOf] at h
      split at h
      · rename_i hfront
        cases h
        obtain ⟨rest, hrest⟩ := hfront
        rw [Nat.zero_add, ← hrest, List.take_left]
        exact indexOf_self pattern other
      · rename_i hfront
        obtain ⟨index, hindex, rfl⟩ := Option.map_eq_some_iff.mp h
        have hsum : index + 1 + pattern.length = index + pattern.length + 1 := by omega
        rw [hsum, List.take_succ_cons, List.cons_append, indexOf, if_neg, ih hindex,
          Option.map_some]
        -- An occurrence at the front would be one in the text.
        intro hnew
        apply hfront
        have hshort : pattern.length ≤ (c :: text.take (index + pattern.length)).length := by
          rw [List.length_cons, List.length_take]
          rw [List.length_cons] at hfits
          omega
        have hwithin := List.prefix_of_prefix_length_le hnew
          (List.prefix_append (c :: text.take (index + pattern.length)) other) hshort
        exact hwithin.trans (List.cons_prefix_cons.mpr ⟨rfl, List.take_prefix _ _⟩)

theorem replaceFirst_front (pattern rest : Text) : replaceFirst (pattern ++ rest) pattern [] = rest := by
  rw [replaceFirst, indexOf_self]
  simp

/-! ## 3. A document below a coded tree -/

section Coded

variable {decode : Text → Option Text}

/-- **A coded tree URI** has the first `/tree/` where it was, and a coded path after it. -/
theorem encodeTreeUri_coded (h : encodeTreeUri decode uri = some treeUri)
    (hindex : indexOf "/tree/".toList uri = some index) : ∃ path,
      indexOf "/tree/".toList treeUri = some index ∧
      treeUri.take (index + 6) = uri.take (index + 6) ∧
      treeUri.drop (index + 6) = encodeComponent path := by
  rw [encodeTreeUri, hindex] at h
  obtain ⟨path, -, rfl⟩ := Option.map_eq_some_iff.mp h
  have hlength : (uri.take (index + 6)).length = index + 6 := by
    have hfits : index + 6 ≤ uri.length := indexOf_le hindex
    rw [List.length_take]
    omega
  exact ⟨path, indexOf_front hindex _, List.take_left' hlength, List.drop_left' hlength⟩

/-- The path of a document is guessed, once the decoder reads the path of the tree and a name
    after it. -/
theorem guess_of_decodes {path basePath : Text} {suffix : Text}
    (hindex : indexOf "/tree/".toList treeUri = some index)
    (hcoded : treeUri.drop (index + 6) = encodeComponent path)
    (hdecode : decode (encodeComponent path ++ "%2F".toList ++ encodeComponent suffix) =
      some (basePath ++ '/' :: suffix)) (folderName : Text) :
    guessRelativePathFromPickedFileContentUri decode treeUri basePath folderName
        (convertTreeUriToDocumentUri treeUri (some suffix)) =
      some (folderName ++ '/' :: suffix) := by
  have hdocument : convertTreeUriToDocumentUri treeUri (some suffix) =
      treeUri ++ ("/document/".toList ++
        (encodeComponent path ++ "%2F".toList ++ encodeComponent suffix)) := by
    simp only [convertTreeUriToDocumentUri, treePath, hindex, hcoded, List.append_assoc]
  have hdrop : ("/document/".toList ++
      (encodeComponent path ++ "%2F".toList ++ encodeComponent suffix)).drop 10 =
        encodeComponent path ++ "%2F".toList ++ encodeComponent suffix := rfl
  rw [hdocument, guessRelativePathFromPickedFileContentUri]
  simp only [replaceFirst_front, if_pos (List.prefix_append _ _), hdrop, hdecode, Option.map_some]
  rw [if_pos]
  exact List.prefix_append ['/'] suffix

/-- What a decoder has to do for it: read a name after a separator. -/
theorem guess_convert_of
    (hdecode : ∀ component root text, decode component = some root →
      decode (component ++ "%2F".toList ++ encodeComponent text) = some (root ++ '/' :: text))
    {provider path : Text}
    (htree : encodeTreeUri decode (provider ++ ("/tree/".toList ++ path)) = some treeUri)
    {basePath : Text} (hbase : pathFromTreeUri decode treeUri = some basePath)
    (folderName suffix : Text) :
    guessRelativePathFromPickedFileContentUri decode treeUri basePath folderName
        (convertTreeUriToDocumentUri treeUri (some suffix)) =
      some (folderName ++ '/' :: suffix) := by
  obtain ⟨index, hindex⟩ := indexOf_append provider "/tree/".toList path
  obtain ⟨decoded, htreeIndex, -, hcoded⟩ := encodeTreeUri_coded htree hindex
  rw [pathFromTreeUri, htreeIndex, Option.bind_some, hcoded] at hbase
  exact guess_of_decodes htreeIndex hcoded (hdecode _ _ suffix hbase) folderName

end Coded

/-- The decoder throws a byte order mark in front away, and still reads a name after it. -/
theorem guess_decodeComponent {provider path basePath : Text}
    (htree : encodeTreeUri decodeComponent (provider ++ ("/tree/".toList ++ path)) = some treeUri)
    (hbase : getPathFromTreeUri treeUri = some basePath) (folderName suffix : Text) :
    guessRelativePathFromPickedFileContentUri decodeComponent treeUri basePath folderName
        (convertTreeUriToDocumentUri treeUri (some suffix)) =
      some (folderName ++ '/' :: suffix) :=
  guess_convert_of (fun _ _ text h => decodeComponent_append h text) htree
    (getPathFromTreeUri_eq ▸ hbase) folderName suffix

/-- Coding a URI again, with that decoder: a mark in front of the path goes. -/
theorem encodeTreeUri_decodeComponent (h : encodeTreeUri decodeComponent uri = some treeUri)
    (hindex : indexOf "/tree/".toList uri = some index) : ∃ path,
      treeUri.drop (index + 6) = encodeComponent path ∧
      encodeTreeUri decodeComponent treeUri =
        some (treeUri.take (index + 6) ++ encodeComponent (dropMark path)) := by
  obtain ⟨path, hnew, -, hcoded⟩ := encodeTreeUri_coded h hindex
  refine ⟨path, hcoded, ?_⟩
  rw [encodeTreeUri, hnew]
  simp only [hcoded, decodeComponent_eq, decodeText_encodeComponent, Option.map_some]

theorem decodeText_separated {component root : Text} (h : decodeText component = some root)
    (text : Text) :
    decodeText (component ++ "%2F".toList ++ encodeComponent text) = some (root ++ '/' :: text) := by
  have hslash : decodeText "%2F".toList = some ['/'] :=
    Lib.Percent.decodeText_eq_some.mpr (by decide)
  rw [List.append_assoc, decodeText_append h, decodeText_append hslash,
    decodeText_encodeComponent, Option.map_some, Option.map_some]
  rfl

/-- Coding a URI again changes nothing. -/
theorem encodeTreeUri_again (h : encodeTreeUri decodeText uri = some treeUri) :
    encodeTreeUri decodeText treeUri = some treeUri := by
  cases hindex : indexOf "/tree/".toList uri with
  | none =>
      have hsame : encodeTreeUri decodeText uri = some uri := by rw [encodeTreeUri, hindex]
      obtain rfl : uri = treeUri := Option.some_inj.mp (hsame.symm.trans h)
      exact hsame
  | some index =>
      obtain ⟨path, hnew, -, hcoded⟩ := encodeTreeUri_coded h hindex
      rw [encodeTreeUri, hnew]
      simp only [hcoded, decodeText_encodeComponent, Option.map_some]
      rw [← hcoded, List.take_append_drop]

/-- **The round trip of a document URI**, with percent coding over UTF-8: below a tree URI that was
    coded, the path of a document is guessed as the name of the folder with the relative path after
    it, and coding the URI again changes nothing. -/
theorem guess_convert (h : encodeTreeUri decodeText uri = some treeUri) :
    encodeTreeUri decodeText treeUri = some treeUri ∧
      ∀ provider path, uri = provider ++ "/tree/".toList ++ path →
        ∃ basePath, pathFromTreeUri decodeText treeUri = some basePath ∧
          ∀ folderName suffix,
            guessRelativePathFromPickedFileContentUri decodeText treeUri basePath folderName
                (convertTreeUriToDocumentUri treeUri (some suffix)) =
              some (folderName ++ '/' :: suffix) := by
  refine ⟨encodeTreeUri_again h, ?_⟩
  intro provider path huri
  rw [List.append_assoc] at huri
  rw [huri] at h
  obtain ⟨index, hindex⟩ := indexOf_append provider "/tree/".toList path
  obtain ⟨decoded, hnew, -, hcoded⟩ := encodeTreeUri_coded h hindex
  have hbase : pathFromTreeUri decodeText treeUri = some decoded := by
    rw [pathFromTreeUri, hnew, Option.bind_some, hcoded, decodeText_encodeComponent]
  refine ⟨decoded, hbase, ?_⟩
  intro folderName suffix
  exact guess_convert_of (fun _ _ text hroot => decodeText_separated hroot text) h hbase folderName
    suffix

/-- A folder with a blank, and a document in it. -/
theorem guess_convert_documents : ∃ treeUri basePath,
    encodeTreeUri decodeText "content://docs/tree/primary:My Files".toList = some treeUri ∧
      guessRelativePathFromPickedFileContentUri decodeText treeUri basePath "Docs".toList
        (convertTreeUriToDocumentUri treeUri (some "a/b.txt".toList)) =
      some "Docs/a/b.txt".toList := by
  have hascii : ("primary:My Files".toList.all fun c => c ≠ '%' ∧ c.val ≤ 127) = true := by decide
  have hplain : decodeText "primary:My Files".toList = some "primary:My Files".toList :=
    (decodeText_self_iff _).mpr fun c hc => of_decide_eq_true (List.all_eq_true.mp hascii c hc)
  have htree : encodeTreeUri decodeText "content://docs/tree/primary:My Files".toList =
      some "content://docs/tree/primary%3AMy%20Files".toList := by
    have hindex : indexOf "/tree/".toList "content://docs/tree/primary:My Files".toList = some 14 := by
      decide
    have hdrop : "content://docs/tree/primary:My Files".toList.drop (14 + 6) =
        "primary:My Files".toList := by decide
    rw [encodeTreeUri, hindex]
    simp only [hdrop, hplain, Option.map_some]
    decide
  obtain ⟨basePath, -, hguess⟩ :=
    (guess_convert htree).2 "content://docs".toList "primary:My Files".toList (by decide)
  exact ⟨_, basePath, htree, hguess "Docs".toList "a/b.txt".toList⟩

/-! ## 4. A file on an SD card -/

structure SdCardPath where
  sdCardId : Text
  path : Text
  deriving DecidableEq, Repr

def isHexDigit (c : Char) : Bool := (hexValue c).isSome

/-- `[A-Fa-f0-9]{4}-[A-Fa-f0-9]{4}`. -/
def isSdCardId : Text → Bool
  | [a, b, c, d, dash, e, f, g, h] => [a, b, c, d, e, f, g, h].all isHexDigit && dash = '-'
  | _ => false

/-- The match of `_sdCardPathRegex`. -/
def getSdCardPath (path : Text) : Option SdCardPath :=
  let sdCardId := (path.drop 9).take 9
  let rest := path.drop 19
  if "/storage/".toList <+: path ∧ isSdCardId sdCardId = true ∧ path[18]? = some '/' ∧
      rest.all (fun c => !isLineTerminator c) = true then
    some ⟨sdCardId, rest⟩
  else none

def treeStart : Text := "content://com.android.externalstorage.documents/tree/".toList

/-- The URI `saveFile` passes to `startWriteStream`; `none` where the decoder throws. -/
def sdCardStreamUri (sdCardPath : SdCardPath) : Option Text :=
  (encodeTreeUri decodeComponent (parentPath sdCardPath.path)).map fun uriString =>
    treeStart ++ (sdCardPath.sdCardId ++ ':' :: uriString)

/-- **The URI names a directory of the card**: it is a tree URI with no further separator, and
    reads as that directory. -/
def NamesDirectory (sdCardPath : SdCardPath) (parent : Text) : Prop :=
  ∃ uri, sdCardStreamUri sdCardPath = some uri ∧ '/' ∉ treePath uri ∧
    getPathFromTreeUri uri = some (sdCardPath.sdCardId ++ ':' :: parent)

theorem isHexDigit_plain {c : Char} (h : isHexDigit c = true) : c ≠ '/' ∧ c ≠ '%' ∧ c.val ≤ 127 := by
  have hrange : '0'.val ≤ c.val ∧ c.val ≤ 'f'.val := by
    have h0 : '0'.val.toNat = 48 := rfl
    have h9 : '9'.val.toNat = 57 := rfl
    have hA : 'A'.val.toNat = 65 := rfl
    have hF : 'F'.val.toNat = 70 := rfl
    have ha : 'a'.val.toNat = 97 := rfl
    have hf : 'f'.val.toNat = 102 := rfl
    rw [isHexDigit, hexValue] at h
    simp only [Char.le_def, UInt32.le_iff_toNat_le] at h ⊢
    split at h
    · omega
    · split at h
      · omega
      · split at h
        · omega
        · cases h
  refine ⟨?_, ?_, ?_⟩
  · rintro rfl
    revert hrange
    decide
  · rintro rfl
    revert hrange
    decide
  · exact UInt32.le_trans hrange.2 (by decide)

theorem isSdCardId_plain {sdCardId : Text} (h : isSdCardId sdCardId = true) :
    ∀ c ∈ sdCardId, c ≠ '/' ∧ c ≠ '%' ∧ c.val ≤ 127 := by
  unfold isSdCardId at h
  split at h
  · rename_i a b c d dash e f g i
    simp only [List.all_cons, List.all_nil, Bool.and_true, Bool.and_eq_true,
      decide_eq_true_eq] at h
    obtain ⟨⟨ha, hb, hc, hd, he, hf, hg, hi⟩, rfl⟩ := h
    simp only [List.forall_mem_cons]
    exact ⟨isHexDigit_plain ha, isHexDigit_plain hb, isHexDigit_plain hc, isHexDigit_plain hd,
      by decide, isHexDigit_plain he, isHexDigit_plain hf, isHexDigit_plain hg,
      isHexDigit_plain hi, by simp⟩
  · cases h

theorem getSdCardPath_id {path : Text} {sdCardPath : SdCardPath}
    (h : getSdCardPath path = some sdCardPath) :
    ∀ c ∈ sdCardPath.sdCardId, c ≠ '/' ∧ c ≠ '%' ∧ c.val ≤ 127 := by
  rw [getSdCardPath] at h
  split at h
  · rename_i hmatch
    cases h
    exact isSdCardId_plain hmatch.2.1
  · cases h

theorem indexOf_treeStart (rest : Text) :
    indexOf "/tree/".toList (treeStart ++ rest) = some 47 := by
  have hstart : indexOf "/tree/".toList treeStart = some 47 := by decide
  have hall : treeStart.take (47 + "/tree/".toList.length) = treeStart := by decide
  have hfront := indexOf_front hstart rest
  rw [hall] at hfront
  exact hfront

theorem drop_treeStart (rest : Text) : (treeStart ++ rest).drop (47 + 6) = rest :=
  List.drop_left' rfl

theorem treePath_treeStart (rest : Text) : treePath (treeStart ++ rest) = rest := by
  rw [treePath, indexOf_treeStart]
  exact drop_treeStart rest

/-- No byte order mark is lost after a text in ASCII. -/
theorem decodeComponent_ascii {front : Text} (h : ∀ c ∈ front, c ≠ '%' ∧ c.val ≤ 127)
    (hfront : front ≠ []) (component : Text) :
    decodeComponent (front ++ component) =
      (decodeText component).map fun text => front ++ text := by
  rw [decodeComponent_eq, decodeText_append ((decodeText_self_iff front).mpr h), Option.map_map]
  congr 1
  funext text
  cases front with
  | nil => exact absurd rfl hfront
  | cons c front =>
      have hmark : c ≠ Char.ofNat 0xFEFF := by
        intro hc
        have hascii := (h c (by simp)).2
        rw [hc] at hascii
        revert hascii
        decide
      rw [Function.comp_apply, List.cons_append, dropMark, if_neg hmark]

theorem getPathFromTreeUri_card {path : Text} {sdCardPath : SdCardPath}
    (h : getSdCardPath path = some sdCardPath) (component : Text) :
    getPathFromTreeUri (treeStart ++ (sdCardPath.sdCardId ++ ':' :: component)) =
      (decodeText component).map fun text => sdCardPath.sdCardId ++ ':' :: text := by
  have hfront : ∀ c ∈ sdCardPath.sdCardId ++ [':'], c ≠ '%' ∧ c.val ≤ 127 := by
    intro c hc
    rcases List.mem_append.mp hc with hid | hcolon
    · exact (getSdCardPath_id h c hid).2
    · obtain rfl := List.mem_singleton.mp hcolon
      decide
  have hassoc : (fun text => sdCardPath.sdCardId ++ ':' :: text) =
      fun text => sdCardPath.sdCardId ++ [':'] ++ text :=
    funext fun text => List.append_cons _ _ _
  rw [getPathFromTreeUri, indexOf_treeStart, Option.bind_some, drop_treeStart,
    List.append_cons, hassoc]
  exact decodeComponent_ascii hfront (by simp) component

/-- A path without a separator is passed on as it is. -/
theorem encodeTreeUri_noSlash {p : Text} (h : '/' ∉ p) : encodeTreeUri decodeComponent p = some p := by
  have hindex : indexOf "/tree/".toList p = none := by
    rw [Option.eq_none_iff_forall_ne_some]
    intro index hindex
    have htake := indexOf_take hindex
    have hslash : '/' ∈ p.take (index + "/tree/".toList.length) := by
      rw [htake]
      exact List.mem_append_right _ (by decide)
    exact h (List.mem_of_mem_take hslash)
  rw [encodeTreeUri, hindex]

/-- A path with a separator keeps one. -/
theorem encodeTreeUri_slash {p coded : Text} (h : '/' ∈ p)
    (hcoded : encodeTreeUri decodeComponent p = some coded) : '/' ∈ coded := by
  rw [encodeTreeUri] at hcoded
  split at hcoded
  · cases hcoded
    exact h
  · rename_i index hindex
    obtain ⟨path, -, rfl⟩ := Option.map_eq_some_iff.mp hcoded
    have htake : p.take (index + 6) = p.take index ++ "/tree/".toList := indexOf_take hindex
    rw [htake]
    exact List.mem_append_left _ (List.mem_append_right _ (by decide))

/-- **What the URI of a file on the card stands for**: the path of its directory, read once more. -/
theorem namesDirectory_iff {path : Text} {sdCardPath : SdCardPath}
    (h : getSdCardPath path = some sdCardPath) (parent : Text) :
    NamesDirectory sdCardPath parent ↔
      '/' ∉ parentPath sdCardPath.path ∧ decodeText (parentPath sdCardPath.path) = some parent := by
  have hid : '/' ∉ sdCardPath.sdCardId ++ [':'] := by
    intro hmem
    rcases List.mem_append.mp hmem with hin | hcolon
    · exact (getSdCardPath_id h '/' hin).1 rfl
    · revert hcolon
      decide
  have hread : ∀ component, getPathFromTreeUri (treeStart ++ (sdCardPath.sdCardId ++
      ':' :: component)) = some (sdCardPath.sdCardId ++ ':' :: parent) ↔
        decodeText component = some parent := by
    intro component
    rw [getPathFromTreeUri_card h, Option.map_eq_some_iff]
    constructor
    · intro hfits
      obtain ⟨text, htext, hsame⟩ := hfits
      have htail := List.append_cancel_left hsame
      rw [htext, (List.cons.inj htail).2]
    · intro hparent
      exact ⟨parent, hparent, rfl⟩
  constructor
  · intro hfits
    obtain ⟨uri, huri, hslash, hpath⟩ := hfits
    obtain ⟨coded, hcoded, rfl⟩ := Option.map_eq_some_iff.mp huri
    rw [treePath_treeStart, List.append_cons] at hslash
    have hplain : '/' ∉ parentPath sdCardPath.path := by
      intro hparent
      exact hslash (List.mem_append_right _ (encodeTreeUri_slash hparent hcoded))
    rw [encodeTreeUri_noSlash hplain] at hcoded
    cases hcoded
    exact ⟨hplain, (hread _).mp hpath⟩
  · intro hfits
    obtain ⟨hplain, hparent⟩ := hfits
    refine ⟨treeStart ++ (sdCardPath.sdCardId ++ ':' :: parentPath sdCardPath.path), ?_, ?_,
      (hread _).mpr hparent⟩
    · rw [sdCardStreamUri, encodeTreeUri_noSlash hplain, Option.map_some]
    · rw [treePath_treeStart, List.append_cons]
      intro hmem
      exact (List.mem_append.mp hmem).elim hid hplain

/-- **A file on an SD card is written to its directory** exactly if the path of the directory needs
    no coding: one folder at most, all its characters in ASCII, and no percent sign. -/
theorem sdCardStreamUri_fits_iff {path : Text} {sdCardPath : SdCardPath}
    (h : getSdCardPath path = some sdCardPath) :
    NamesDirectory sdCardPath (parentPath sdCardPath.path) ↔
      ∀ c ∈ parentPath sdCardPath.path, c ≠ '/' ∧ c ≠ '%' ∧ c.val ≤ 127 := by
  rw [namesDirectory_iff h, decodeText_self_iff]
  constructor
  · intro hfits c hc
    obtain ⟨hslash, hplain⟩ := hfits
    refine ⟨?_, hplain c hc⟩
    rintro rfl
    exact hslash hc
  · intro hall
    exact ⟨fun hslash => (hall '/' hslash).1 rfl, fun c hc => (hall c hc).2⟩

/-- A file in a folder of the card. -/
theorem sdCardStreamUri_fits_iff_folder :
    NamesDirectory ⟨"1A2B-3C4D".toList, "DCIM/x.jpg".toList⟩ (parentPath "DCIM/x.jpg".toList) := by
  have hcard : getSdCardPath "/storage/1A2B-3C4D/DCIM/x.jpg".toList =
      some ⟨"1A2B-3C4D".toList, "DCIM/x.jpg".toList⟩ := by decide
  have hascii : ((parentPath "DCIM/x.jpg".toList).all fun c =>
      c ≠ '/' ∧ c ≠ '%' ∧ c.val ≤ 127) = true := by decide
  exact (sdCardStreamUri_fits_iff hcard).mpr fun c hc =>
    of_decide_eq_true (List.all_eq_true.mp hascii c hc)

/-- A file in a folder of a folder: the URI keeps the separator. -/
theorem nested_folder_kept :
    getSdCardPath "/storage/1A2B-3C4D/DCIM/Camera/x.jpg".toList =
        some ⟨"1A2B-3C4D".toList, "DCIM/Camera/x.jpg".toList⟩ ∧
      sdCardStreamUri ⟨"1A2B-3C4D".toList, "DCIM/Camera/x.jpg".toList⟩ =
        some (treeStart ++ "1A2B-3C4D:DCIM/Camera".toList) ∧
      '/' ∈ treePath (treeStart ++ "1A2B-3C4D:DCIM/Camera".toList) ∧
      ¬ NamesDirectory ⟨"1A2B-3C4D".toList, "DCIM/Camera/x.jpg".toList⟩
        (parentPath "DCIM/Camera/x.jpg".toList) := by
  have huri : sdCardStreamUri ⟨"1A2B-3C4D".toList, "DCIM/Camera/x.jpg".toList⟩ =
      some (treeStart ++ "1A2B-3C4D:DCIM/Camera".toList) := by
    have hparent : parentPath "DCIM/Camera/x.jpg".toList = "DCIM/Camera".toList := by decide
    have hindex : indexOf "/tree/".toList "DCIM/Camera".toList = none := by decide
    rw [sdCardStreamUri, hparent, encodeTreeUri, hindex]
    decide
  have hslash : '/' ∈ treePath (treeStart ++ "1A2B-3C4D:DCIM/Camera".toList) := by
    rw [treePath_treeStart]
    decide
  refine ⟨by decide, huri, hslash, ?_⟩
  intro hfits
  obtain ⟨uri, hsame, hnone, -⟩ := hfits
  obtain rfl := Option.some_inj.mp (huri.symm.trans hsame)
  exact hnone hslash

end LocalSend.Files
