/-
  File:      LocalSend/Receive/SelectedFiles.lean
  Subject:   NUMBERED NAMES: `applyCounter` of `selected_receiving_files_provider.dart`.

  * `applyCounter` -- the names of a selection are replaced by a prefix and a number;
  * `Numbering` -- the order the numbers are given in; with `sortFirst`, any order the sort may give;
  * `KeepsOrder` -- different names with numbers of one width, which sort in the order of the numbers;
  * `renamed_at` -- the new name of each file;
  * **`keepsOrder_iff`** -- they do for up to nine files: the padded number is thrown away.
-/
import LocalSend.Files.Names
import LocalSend.Lib.LinkedMap

namespace LocalSend.SelectedReceivingFiles

open Lib
open Lib.Posix (Text)
open Files (Platform extension withFileNameKeepExtension)

/-! ## 1. The action -/

/-- The names of the files to receive, by the id of the file. -/
abbrev Selection := LinkedMap String Text

/-- The code units of a character in UTF-16. -/
def unitsOf (c : Char) : List Nat :=
  if c.toNat < 0x10000 then [c.toNat]
  else [0xD800 + (c.toNat - 0x10000) / 0x400, 0xDC00 + (c.toNat - 0x10000) % 0x400]

def codeUnits (text : Text) : List Nat := text.flatMap unitsOf

/-- `compareTo` is negative. -/
def Before (a b : Text) : Prop := codeUnits a < codeUnits b

instance (a b : Text) : Decidable (Before a b) :=
  inferInstanceAs (Decidable (codeUnits a < codeUnits b))

/-- **The order the numbers are given in.** The sort puts equal names in any order. -/
def Numbering (sortFirst : Bool) (state : Selection) (files : List (String × Text)) : Prop :=
  if sortFirst = true then
    files.Perm state.entries ∧ files.Pairwise fun a b => ¬ Before b.2 a.2
  else files = state.entries

def counterNumber (padZero : Bool) (index : Nat) : Text :=
  let number := (Nat.repr (index + 1)).toList
  if padZero then
    -- What `padLeft` returns is not used.
    number
  else number

/-- The entries for the files in the order of their numbers. -/
def numbered (platform : Platform) (namePrefix : Text) (padZero : Bool)
    (files : List (String × Text)) : List (String × Text) :=
  files.mapIdx fun index element => (element.1, withFileNameKeepExtension platform element.2
    (namePrefix ++ counterNumber padZero index))

def applyCounter (platform : Platform) (namePrefix : Text) (padZero : Bool)
    (files : List (String × Text)) : Selection :=
  .ofList (numbered platform namePrefix padZero files)

/-! ## 2. What is promised -/

/-- A name with a number. -/
structure HasNumber (namePrefix name number : Text) : Prop where
  name : ∃ ext, name = namePrefix ++ number ++ '.' :: ext
  digits : ∀ c ∈ number, c.isDigit = true

/-- **The numbers keep the order of the files.** -/
structure KeepsOrder (platform : Platform) (namePrefix : Text) (files : List (String × Text))
    (renamed : Selection) : Prop where
  ids : renamed.keys = files.map Prod.fst
  distinct : renamed.values.Nodup
  width : ∃ width, ∀ (i : Nat) name, renamed.values[i]? = some name →
    ∃ number, HasNumber namePrefix name number ∧ number.length = width ∧
      Nat.ofDigitChars 10 number 0 = i + 1
  ordered : ∀ (i j : Nat) a b, renamed.values[i]? = some a → renamed.values[j]? = some b →
    i < j → extension platform a = extension platform b → Before a b
  kept : ∀ (i : Nat) old new, files[i]? = some old → renamed.values[i]? = some new →
    extension platform new = extension platform old.2

/-- What is relied on of lower case: it is lower case already, and no dot appears. -/
structure LowerCase (platform : Platform) : Prop where
  nil : platform.toLowerCase [] = []
  again : ∀ text, platform.toLowerCase (platform.toLowerCase text) = platform.toLowerCase text
  dot : ∀ text, '.' ∉ text → '.' ∉ platform.toLowerCase text

variable {platform : Platform} {namePrefix : Text} {padZero sortFirst : Bool} {state : Selection}
  {files : List (String × Text)}

theorem Numbering.perm (h : Numbering sortFirst state files) : files.Perm state.entries := by
  unfold Numbering at h
  split at h
  · exact h.1
  · rw [h]

theorem counterNumber_eq (padZero : Bool) (index : Nat) :
    counterNumber padZero index = Nat.toDigits 10 (index + 1) := by
  cases padZero <;> exact Nat.toList_repr

theorem numbered_keys : (numbered platform namePrefix padZero files).map Prod.fst =
    files.map Prod.fst := by
  refine List.ext_getElem? fun i => ?_
  rw [List.getElem?_map, numbered, List.getElem?_mapIdx, List.getElem?_map, Option.map_map]
  rfl

/-- The new entries, the ids being distinct. -/
theorem applyCounter_entries (h : Numbering sortFirst state files) :
    (applyCounter platform namePrefix padZero files).entries =
      numbered platform namePrefix padZero files := by
  have hnodup : ((numbered platform namePrefix padZero files).map Prod.fst).Nodup := by
    rw [numbered_keys]
    exact (h.perm.map Prod.fst).nodup_iff.mpr state.nodup
  have hmap := LinkedMap.ofList_entries
    (⟨numbered platform namePrefix padZero files, hnodup⟩ : Selection)
  rw [applyCounter, hmap]

/-- **The new name of each file.** -/
theorem renamed_at (h : Numbering sortFirst state files) (i : Nat) :
    (applyCounter platform namePrefix padZero files).values[i]? = files[i]?.map fun file =>
      namePrefix ++ Nat.toDigits 10 (i + 1) ++ '.' :: extension platform file.2 := by
  rw [LinkedMap.values, applyCounter_entries h, numbered, List.getElem?_map,
    List.getElem?_mapIdx, Option.map_map]
  simp only [withFileNameKeepExtension, counterNumber_eq]
  rfl

/-! ## 3. Names -/

/-- What stands before the first dot after the prefix. -/
theorem eq_of_append_dot {a b x y : Text} (ha : '.' ∉ a) (hb : '.' ∉ b)
    (h : a ++ '.' :: x = b ++ '.' :: y) : a = b := by
  have htake : ∀ (front rest : Text), '.' ∉ front →
      (front ++ '.' :: rest).takeWhile (fun c => c ≠ '.') = front := by
    intro front rest hfront
    rw [List.takeWhile_append_of_pos]
    · simp
    · intro c hc
      exact decide_eq_true fun hdot => hfront (hdot ▸ hc)
  rw [← htake a x ha, h, htake b y hb]

theorem dot_notMem_digits {number : Text} (h : ∀ c ∈ number, c.isDigit = true) : '.' ∉ number := by
  intro hdot
  have hdigit := h '.' hdot
  revert hdigit
  decide

theorem toDigits_digits (n : Nat) : ∀ c ∈ Nat.toDigits 10 n, c.isDigit = true := fun _ hc =>
  Nat.isDigit_of_mem_toDigits (by decide) (by decide) hc

/-- A name has one number. -/
theorem HasNumber.unique {name a b : Text} (ha : HasNumber namePrefix name a)
    (hb : HasNumber namePrefix name b) : a = b := by
  obtain ⟨x, hx⟩ := ha.name
  obtain ⟨y, hy⟩ := hb.name
  have hsame := hx.symm.trans hy
  rw [List.append_assoc, List.append_assoc] at hsame
  exact eq_of_append_dot (dot_notMem_digits ha.digits) (dot_notMem_digits hb.digits)
    (List.append_cancel_left hsame)

/-- The new name has its number. -/
theorem hasNumber_renamed (namePrefix : Text) (n : Nat) (ext : Text) :
    HasNumber namePrefix (namePrefix ++ Nat.toDigits 10 n ++ '.' :: ext) (Nat.toDigits 10 n) :=
  ⟨⟨ext, rfl⟩, toDigits_digits n⟩

/-- The extension of a name has no dot, and is in lower case. -/
theorem LowerCase.extension (h : LowerCase platform) (name : Text) :
    '.' ∉ extension platform name ∧
      platform.toLowerCase (extension platform name) = extension platform name := by
  rcases Files.dot_cases name with hplain | ⟨front, ext, rfl, hext⟩
  · rw [Files.extension_plain platform hplain]
    exact ⟨List.not_mem_nil, h.nil⟩
  · rw [Files.extension_append platform hext]
    exact ⟨h.dot ext hext, h.again ext⟩

/-- **A file keeps its extension.** -/
theorem extension_renamed (h : LowerCase platform) (front name : Text) :
    extension platform (front ++ '.' :: extension platform name) = extension platform name := by
  obtain ⟨hdot, hlower⟩ := h.extension name
  rw [Files.extension_append platform hdot, hlower]

/-! ## 4. The order -/

theorem codeUnits_append (a b : Text) : codeUnits (a ++ b) = codeUnits a ++ codeUnits b :=
  List.flatMap_append

/-- Numbers of one digit sort as they count. -/
theorem before_of_digits {m n : Nat} (hmn : m < n) (hn : n < 10) (x y : Text) :
    Before (namePrefix ++ Nat.toDigits 10 m ++ x) (namePrefix ++ Nat.toDigits 10 n ++ y) := by
  have hunits : ∀ n < 10, unitsOf (Nat.digitChar n) = [48 + n] := by decide
  have hdigit : ∀ (n : Nat) (rest : Text), n < 10 →
      codeUnits (Nat.toDigits 10 n ++ rest) = (48 + n) :: codeUnits rest := by
    intro n rest hlt
    rw [Nat.toDigits_of_lt_base hlt, List.singleton_append, codeUnits, List.flatMap_cons,
      hunits n hlt]
    rfl
  rw [Before, List.append_assoc, List.append_assoc, codeUnits_append namePrefix,
    codeUnits_append namePrefix, hdigit m x (by omega), hdigit n y hn]
  exact List.append_left_lt (List.cons_lt_cons_iff.mpr (Or.inl (by omega)))

/-- Up to nine names are in order. -/
theorem before_renamed (h : Numbering sortFirst state files) (hlen : files.length < 10)
    {i j : Nat} {a b : Text} (hij : i < j)
    (ha : (applyCounter platform namePrefix padZero files).values[i]? = some a)
    (hb : (applyCounter platform namePrefix padZero files).values[j]? = some b) : Before a b := by
  rw [renamed_at h] at ha hb
  obtain ⟨first, -, rfl⟩ := Option.map_eq_some_iff.mp ha
  obtain ⟨second, hsecond, rfl⟩ := Option.map_eq_some_iff.mp hb
  have hj := (List.getElem?_eq_some_iff.mp hsecond).1
  exact before_of_digits (by omega) (by omega) _ _

theorem keepsOrder_of_lt (hlower : LowerCase platform) (h : Numbering sortFirst state files)
    (hlen : files.length < 10) :
    KeepsOrder platform namePrefix files (applyCounter platform namePrefix padZero files) := by
  constructor
  · rw [LinkedMap.keys, applyCounter_entries h, numbered_keys]
  · refine List.nodup_iff_getElem?_ne_getElem?.mpr fun i j hij hj => ?_
    intro hsame
    obtain ⟨b, hb⟩ : ∃ b, (applyCounter platform namePrefix padZero files).values[j]? = some b :=
      ⟨_, List.getElem?_eq_getElem hj⟩
    have hbefore := before_renamed h hlen hij (hsame.trans hb) hb
    exact List.lt_irrefl _ hbefore
  · refine ⟨1, fun i name hname => ?_⟩
    rw [renamed_at h] at hname
    obtain ⟨file, hfile, rfl⟩ := Option.map_eq_some_iff.mp hname
    have hi := (List.getElem?_eq_some_iff.mp hfile).1
    refine ⟨_, hasNumber_renamed namePrefix (i + 1) _, ?_, Nat.ofDigitChars_ten_toDigits⟩
    rw [Nat.toDigits_of_lt_base (by omega), List.length_singleton]
  · intro i j a b ha hb hij _
    exact before_renamed h hlen hij ha hb
  · intro i old new hold hnew
    rw [renamed_at h, hold] at hnew
    cases hnew
    exact extension_renamed hlower _ old.2

/-- The tenth number is wider than the first one. -/
theorem lt_of_keepsOrder (h : Numbering sortFirst state files)
    (hkeeps : KeepsOrder platform namePrefix files
      (applyCounter platform namePrefix padZero files)) : files.length < 10 := by
  by_contra hlen
  obtain ⟨width, hwidth⟩ := hkeeps.width
  have hnumber : ∀ i, i < files.length → (Nat.toDigits 10 (i + 1)).length = width := by
    intro i hi
    have hname : (applyCounter platform namePrefix padZero files).values[i]? = _ := renamed_at h i
    rw [List.getElem?_eq_getElem hi, Option.map_some] at hname
    obtain ⟨number, hnumber, hlength, -⟩ := hwidth i _ hname
    rw [← hlength, hnumber.unique (hasNumber_renamed namePrefix (i + 1) _)]
  have hfirst : (Nat.toDigits 10 1).length = width := hnumber 0 (by omega)
  have htenth : (Nat.toDigits 10 10).length = width := hnumber 9 (by omega)
  have hone : (Nat.toDigits 10 1).length = 1 := by decide
  have htwo : (Nat.toDigits 10 10).length = 2 := by decide
  omega

/-- **The numbered names keep the order exactly for up to nine files**, sorted before or not: the
    zeros in front of the numbers are computed and thrown away. -/
theorem keepsOrder_iff (hlower : LowerCase platform) (namePrefix : Text)
    (h : Numbering sortFirst state files) :
    KeepsOrder platform namePrefix files (applyCounter platform namePrefix true files) ↔
      state.entries.length < 10 := by
  rw [← h.perm.length_eq]
  exact ⟨lt_of_keepsOrder h, keepsOrder_of_lt hlower h⟩

theorem asciiPlatform_lowerCase : LowerCase Files.asciiPlatform where
  nil := rfl
  again text := by
    change (text.map Char.toLower).map Char.toLower = text.map Char.toLower
    rw [List.map_map]
    exact List.map_congr_left fun c _ => Files.toLower_toLower c
  dot text h := by
    intro hdot
    obtain ⟨c, hc, hlower⟩ := List.mem_map.mp hdot
    have hsame : c = '.' := Files.eq_of_toLower hlower (by decide)
    exact h (hsame ▸ hc)

/-- Two files to receive. -/
def twoFiles : Selection := ⟨[("1", "b.jpg".toList), ("2", "a.jpg".toList)], by decide⟩

theorem keepsOrder_iff_twoFiles :
    KeepsOrder Files.asciiPlatform "img".toList [("2", "a.jpg".toList), ("1", "b.jpg".toList)]
      (applyCounter Files.asciiPlatform "img".toList true
        [("2", "a.jpg".toList), ("1", "b.jpg".toList)]) := by
  have hsorted : Numbering true twoFiles [("2", "a.jpg".toList), ("1", "b.jpg".toList)] := by
    rw [Numbering, if_pos rfl]
    exact ⟨List.Perm.swap _ _ _, by decide⟩
  exact (keepsOrder_iff asciiPlatform_lowerCase "img".toList hsorted).mpr (by decide)

/-- Ten files to receive. -/
def tenFiles : Selection :=
  ⟨[("1", "a.jpg".toList), ("2", "b.jpg".toList), ("3", "c.jpg".toList), ("4", "d.jpg".toList),
    ("5", "e.jpg".toList), ("6", "f.jpg".toList), ("7", "g.jpg".toList), ("8", "h.jpg".toList),
    ("9", "i.jpg".toList), ("10", "j.jpg".toList)], by decide⟩

/-- The tenth file comes before the second one. -/
theorem tenth_before_second :
    (applyCounter Files.asciiPlatform "img".toList true tenFiles.entries).values[9]? =
        some "img10.jpg".toList ∧
      (applyCounter Files.asciiPlatform "img".toList true tenFiles.entries).values[1]? =
        some "img2.jpg".toList ∧
      Before "img10.jpg".toList "img2.jpg".toList ∧
      ¬ KeepsOrder Files.asciiPlatform "img".toList tenFiles.entries
        (applyCounter Files.asciiPlatform "img".toList true tenFiles.entries) := by
  have hnumbering : Numbering false tenFiles tenFiles.entries := rfl
  refine ⟨by rw [renamed_at hnumbering]; decide, by rw [renamed_at hnumbering]; decide,
    by decide, fun hkeeps => ?_⟩
  have hlen := lt_of_keepsOrder hnumbering hkeeps
  revert hlen
  decide

end LocalSend.SelectedReceivingFiles
