/-
  File:      LocalSend/Files/Names.lean
  Subject:   NAMES AND THEIR EXTENSIONS (`file_path_helper.dart`).

  * `extension`, `withFileNameKeepExtension`, `guessFileType` -- the helpers;
  * `dot_cases` -- a name has no dot, or one with no further dot after it;
  * `extension_append`, `extension_plain` -- what the extension of either is;
  * `toLower_cases` -- lower case in ASCII.
-/
import LocalSend.Common.Device
import LocalSend.Files.Saver

namespace LocalSend.Files

open Lib.Posix (Text)

/-- The `extension` of a name: what stands after the last dot, in lower case. -/
def extension (platform : Platform) (name : Text) : Text :=
  match lastIndexOf '.' name with
  | some index => platform.toLowerCase (name.drop (index + 1))
  | none => []

def withFileNameKeepExtension (platform : Platform) (name fileNameWithoutExt : Text) : Text :=
  fileNameWithoutExt ++ '.' :: extension platform name

def guessFileType (platform : Platform) (name : Text) : FileType :=
  match String.ofList (extension platform name) with
  | "bmp" | "jpg" | "jpeg" | "heic" | "png" | "gif" | "svg" | "dng" => .image
  | "mp4" | "mov" => .video
  | "pdf" => .pdf
  | "txt" => .text
  | "apk" => .apk
  | _ => .other

/-- A platform on which every name is legal, for names in ASCII. -/
def asciiPlatform : Platform where
  legalizeFilename name := name
  toLowerCase text := text.map Char.toLower

variable {front ext name : Text}

/-- **The last dot** of a name, if it has one. -/
theorem dot_cases (name : Text) :
    '.' ∉ name ∨ ∃ front ext, name = front ++ '.' :: ext ∧ '.' ∉ ext := by
  by_cases h : '.' ∈ name
  · obtain ⟨ext, front, hreverse, hext⟩ :=
      List.eq_append_cons_of_mem (List.mem_reverse.mpr h)
    refine Or.inr ⟨front.reverse, ext.reverse, ?_, by simpa using hext⟩
    rw [← List.reverse_reverse name, hreverse]
    simp
  · exact Or.inl h

theorem lastIndexOf_append (h : '.' ∉ ext) :
    lastIndexOf '.' (front ++ '.' :: ext) = some front.length := by
  have hindex : (front ++ '.' :: ext).reverse.idxOf '.' = ext.length := by
    rw [List.reverse_append, List.reverse_cons, List.append_assoc,
      List.idxOf_append_of_notMem (by simpa using h)]
    simp
  rw [lastIndexOf, if_pos (by simp), hindex, List.length_append, List.length_cons]
  congr 1
  omega

theorem extension_append (platform : Platform) (h : '.' ∉ ext) :
    extension platform (front ++ '.' :: ext) = platform.toLowerCase ext := by
  have hdrop : (front ++ '.' :: ext).drop (front.length + 1) = ext := by
    rw [List.drop_length_add_append]
    rfl
  simp only [extension, lastIndexOf_append h, hdrop]

theorem extension_plain (platform : Platform) (h : '.' ∉ name) : extension platform name = [] := by
  rw [extension, lastIndexOf, if_neg h]

/-- A capital letter in ASCII is shifted, every other character stays. -/
theorem toLower_cases (c : Char) :
    (65 ≤ c.toNat ∧ c.toNat ≤ 90 ∧ c.toLower.toNat = c.toNat + 32) ∨ c.toLower = c := by
  unfold Char.toLower
  split
  · rename_i hupper
    have hlow : 65 ≤ c.toNat := UInt32.le_iff_toNat_le.mp hupper.1
    have hhigh : c.toNat ≤ 90 := UInt32.le_iff_toNat_le.mp hupper.2
    have hshift : ('a'.val - 'A'.val).toNat = 32 := rfl
    have hsum : (c.val + ('a'.val - 'A'.val)).toNat = c.toNat + 32 := by
      rw [UInt32.toNat_add, hshift]
      exact Nat.mod_eq_of_lt (by change c.toNat + 32 < 2 ^ 32; omega)
    exact Or.inl ⟨hlow, hhigh, hsum⟩
  · exact Or.inr rfl

/-- A character that is no small letter is the lower case of itself alone. -/
theorem eq_of_toLower {c d : Char} (h : c.toLower = d) (hd : d.toNat < 97) : c = d := by
  rcases toLower_cases c with ⟨hlow, -, hsum⟩ | hsame
  · rw [h] at hsum
    omega
  · rw [← h, hsame]

theorem toLower_toLower (c : Char) : c.toLower.toLower = c.toLower := by
  rcases toLower_cases c with ⟨hlow, -, hsum⟩ | hsame
  · rcases toLower_cases c.toLower with ⟨-, hhigh, -⟩ | hagain
    · omega
    · exact hagain
  · rw [hsame, hsame]

end LocalSend.Files
