/-
  File:      LocalSend/Lib/Form.lean
  Subject:   FORM CODING of the query of a URI (`application/x-www-form-urlencoded`), for any choice
             of the characters that are written as they are; nothing here names a program.

  * `Plain` -- what may be written as it is; `encode` -- a name or a value, with `+` for a space and
    escapes for all that is not kept;
  * `decode` -- back, with the UTF-8 decoder that throws a byte order mark at the front away;
    **`decode_encode`** -- so a value comes back, but for this mark;
  * `split` -- the parameters of a query as a map; `addPart` -- one of them;
  * `Reads` -- a part that stands for a name and a value, however an empty value is written;
  * **`split_intercalate`** -- parts of this kind are read as the map of their names and values.
-/
import LocalSend.Lib.LinkedMap
import LocalSend.Lib.Percent
import LocalSend.Lib.Uri

namespace LocalSend.Lib.Form

open Percent

/-! ## 1. The coding -/

/-- **Only characters without a meaning of their own** are written as they are. -/
def Plain (keeps : Char → Bool) : Prop :=
  ∀ c, keeps c = true → c.val ≤ 127 ∧ c ∉ "%+&=#? ".toList

/-- `+` for a space, and an escape for each byte of a character that is not kept. -/
def encodeChar (keeps : Char → Bool) (c : Char) : Text :=
  if keeps c then [c] else if c = ' ' then ['+']
  else (String.utf8EncodeChar c).flatMap encodeByte

def encode (keeps : Char → Bool) (text : Text) : Text := text.flatMap (encodeChar keeps)

def plusToSpace (c : Char) : Char := if c = '+' then ' ' else c

/-- The text a name or a value stands for; `none` where an escape or the UTF-8 is wrong. -/
def decode (component : Text) : Option Text := decodeComponent (component.map plusToSpace)

section Coding

variable {keeps : Char → Bool} {c : Char} {text : Text}

/-- The characters of an escape. -/
theorem mem_encodeByte {byte : UInt8} (h : c ∈ encodeByte byte) :
    c ∈ "%0123456789ABCDEF".toList := by
  have hdigit : ∀ n : Fin 16, hexDigit n.1 ∈ "%0123456789ABCDEF".toList := by decide
  have hbyte : byte.toNat < 256 := byte.toNat_lt
  simp only [encodeByte, List.mem_cons, List.not_mem_nil, or_false] at h
  rcases h with rfl | rfl | rfl
  · decide
  · exact hdigit ⟨byte.toNat / 16, by omega⟩
  · exact hdigit ⟨byte.toNat % 16, by omega⟩

/-- **What is written has no meaning of its own**: no sign between parameters, none inside one, and
    none that ends a query. -/
theorem mem_encode (hkeeps : Plain keeps) (h : c ∈ encode keeps text) : c ∉ "&=#?".toList := by
  obtain ⟨d, -, hc⟩ := List.mem_flatMap.mp h
  unfold encodeChar at hc
  split at hc
  · rename_i hd
    obtain rfl := List.mem_singleton.mp hc
    have hall : "&=#?".toList.all (fun c => c ∈ "%+&=#? ".toList) = true := by decide
    exact fun hmem => (hkeeps c hd).2 (of_decide_eq_true (List.all_eq_true.mp hall c hmem))
  · split at hc
    · obtain rfl := List.mem_singleton.mp hc
      decide
    · obtain ⟨byte, -, hc⟩ := List.mem_flatMap.mp hc
      have hall : "%0123456789ABCDEF".toList.all (fun c => c ∉ "&=#?".toList) = true := by decide
      exact of_decide_eq_true (List.all_eq_true.mp hall c (mem_encodeByte hc))

theorem not_mem_encode (hkeeps : Plain keeps) (hc : c ∈ "&=#?".toList) : c ∉ encode keeps text :=
  fun h => mem_encode hkeeps h hc

theorem map_encodeByte (byte : UInt8) : (encodeByte byte).map plusToSpace = encodeByte byte := by
  have hall : "%0123456789ABCDEF".toList.all (fun c => plusToSpace c = c) = true := by decide
  rw [List.map_congr_left (g := id), List.map_id]
  exact fun c hc => of_decide_eq_true (List.all_eq_true.mp hall c (mem_encodeByte hc))

theorem map_flatMap_encodeByte (bytes : List UInt8) :
    (bytes.flatMap encodeByte).map plusToSpace = bytes.flatMap encodeByte := by
  rw [List.map_flatMap]
  congr 1
  funext byte
  exact map_encodeByte byte

/-- A character is read as its bytes. -/
theorem decodeBytes_encodeChar (hkeeps : Plain keeps) (c : Char) (rest : Text) :
    decodeBytes ((encodeChar keeps c).map plusToSpace ++ rest) =
      (decodeBytes rest).map fun bytes => String.utf8EncodeChar c ++ bytes := by
  unfold encodeChar
  split
  · rename_i hc
    obtain ⟨hascii, hnot⟩ := hkeeps c hc
    have hplus : c ≠ '+' := by
      rintro rfl
      exact hnot (by decide)
    have hescape : c ≠ '%' := by
      rintro rfl
      exact hnot (by decide)
    rw [List.map_singleton, plusToSpace, if_neg hplus, List.singleton_append,
      decodeBytes_plain hescape, if_pos hascii,
      String.utf8EncodeChar_eq_singleton (Char.utf8Size_eq_one_iff.mpr hascii)]
    rfl
  · split
    · rename_i hspace
      subst hspace
      have hmap : ['+'].map plusToSpace = [' '] := by decide
      have hbyte : String.utf8EncodeChar ' ' = [' '.val.toUInt8] := by decide
      rw [hmap, List.singleton_append, decodeBytes_plain (by decide), if_pos (by decide), hbyte]
      rfl
    · rw [map_flatMap_encodeByte]
      exact decodeBytes_flatMap_encodeByte _ rest

/-- **What was written is read**, but for a byte order mark at the front. -/
theorem decode_encode (hkeeps : Plain keeps) (text : Text) :
    decode (encode keeps text) = some (dropMark text) := by
  have hbytes : decodeBytes ((encode keeps text).map plusToSpace) =
      some (text.flatMap String.utf8EncodeChar) := by
    induction text with
    | nil => rfl
    | cons c text ih =>
        rw [encode] at ih
        rw [encode, List.flatMap_cons, List.map_append, decodeBytes_encodeChar hkeeps, ih]
        rfl
  rw [decode, decodeComponent, hbytes, Option.bind_some]
  exact decodeUtf8_eq_some.mpr ⟨text, rfl, rfl⟩

theorem encode_ne_nil (h : text ≠ []) : encode keeps text ≠ [] := by
  obtain ⟨c, rest, rfl⟩ := List.exists_cons_of_ne_nil h
  rw [encode, List.flatMap_cons]
  refine List.append_ne_nil_of_left_ne_nil ?_ _
  unfold encodeChar
  split
  · exact List.cons_ne_nil _ _
  · split
    · exact List.cons_ne_nil _ _
    · obtain ⟨byte, bytes, hbytes⟩ := List.exists_cons_of_ne_nil String.utf8EncodeChar_ne_nil
      rw [hbytes, List.flatMap_cons]
      exact List.cons_ne_nil _ _

end Coding

/-! ## 2. The parameters of a query -/

/-- One part: a name and a value around the first sign; without a sign the value is empty. Parts
    without a name are passed over. -/
def addPart (map : LinkedMap Text Text) (part : Text) : Option (LinkedMap Text Text) :=
  if '=' ∈ part then
    if part.takeWhile (· ≠ '=') = [] then some map
    else (decode (part.takeWhile (· ≠ '='))).bind fun name =>
      (decode ((part.dropWhile (· ≠ '=')).drop 1)).map fun value => map.insert name value
  else if part = [] then some map
  else (decode part).map fun name => map.insert name []

/-- **The parameters of a query**; a later one of a name replaces an earlier one. -/
def split (query : Text) : Option (LinkedMap Text Text) :=
  (query.splitOn '&').foldlM addPart .empty

/-- **A part that stands for a name and a value.** -/
structure Reads (part name value : Text) : Prop where
  single : '&' ∉ part
  adds : ∀ map, addPart map part = some (map.insert name value)

section Parts

variable {keeps : Char → Bool} {name value : Text}

/-- A name and a value with the sign between them. -/
theorem reads_pair (hkeeps : Plain keeps) (hname : name ≠ []) :
    Reads (encode keeps name ++ '=' :: encode keeps value) (dropMark name) (dropMark value) := by
  have hstop : ∀ c ∈ encode keeps name, decide (c ≠ '=') = true := by
    intro c hc
    exact decide_eq_true fun h => mem_encode hkeeps hc (h ▸ by decide)
  refine ⟨?_, fun map => ?_⟩
  · simp only [List.mem_append, List.mem_cons, not_or]
    exact ⟨not_mem_encode hkeeps (by decide), by decide, not_mem_encode hkeeps (by decide)⟩
  · rw [addPart, if_pos (by simp), Uri.takeWhile_stop hstop (by decide),
      Uri.dropWhile_stop hstop (by decide), if_neg (encode_ne_nil hname), List.drop_one,
      List.tail_cons, decode_encode hkeeps, decode_encode hkeeps]
    rfl

/-- A name alone stands for an empty value. -/
theorem reads_name (hkeeps : Plain keeps) (hname : name ≠ []) :
    Reads (encode keeps name) (dropMark name) [] := by
  refine ⟨not_mem_encode hkeeps (by decide), fun map => ?_⟩
  rw [addPart, if_neg (not_mem_encode hkeeps (by decide)), if_neg (encode_ne_nil hname),
    decode_encode hkeeps]
  rfl

/-- **Parts that are read are read together.** -/
theorem split_intercalate {parts : List Text} {ps : List (Text × Text)} (hne : parts ≠ [])
    (h : List.Forall₂ (fun part p => Reads part p.1 p.2) parts ps) :
    split (['&'].intercalate parts) = some (.ofList ps) := by
  have hsingle : ∀ part ∈ parts, '&' ∉ part := by
    clear hne
    induction h with
    | nil => exact fun part hpart => absurd hpart List.not_mem_nil
    | cons hp _ ih => exact List.forall_mem_cons.mpr ⟨hp.single, ih⟩
  have hfold : ∀ map, parts.foldlM addPart map =
      some (ps.foldl (fun m kv => m.insert kv.1 kv.2) map) := by
    clear hne hsingle
    induction h with
    | nil => exact fun map => rfl
    | cons hp _ ih =>
        intro map
        rw [List.foldlM_cons, hp.adds, List.foldl_cons, ← ih]
        rfl
  rw [split, List.splitOn_intercalate _ hsingle hne]
  exact hfold .empty

end Parts

end LocalSend.Lib.Form
