/-
  File:      LocalSend/Lib/Json.lean
  Subject:   JSON TEXTS. Values, the compact text of a value, and a reader of texts. Nothing here
             names a program.

  * `isNumber`, `Decimal` -- the texts of numbers, and those that are no natural numbers;
  * `Json`, `print` -- values and their text without blanks;
  * `parse` -- the value of a text, blanks between tokens allowed;
  * `parse_print` -- **what was printed is read back**;
  * `encode`, `decode` -- the same over UTF-8 bytes, `decode_encode`;
  * `decode_short` -- at most one byte is at most a number;
  * `record`, `field`, `optionalField` -- the fields of a structure, by name, from an object or an
    array; `tagged`, `variant` -- a variant beside its fields, and one alone;
  * `RoundTrip` -- a type whose values are read back and told apart.
-/
import Mathlib.Data.List.Basic
import Mathlib.Data.List.TakeWhile

namespace LocalSend.Lib

namespace Json

/-! ## 1. Numbers -/

/-- A number without sign, fraction, exponent or leading zeros. -/
def isNatural (cs : List Char) : Bool := Nat.toDigits 10 (Nat.ofDigitChars 10 cs 0) = cs

def isDigits (cs : List Char) : Bool := !cs.isEmpty && cs.all Char.isDigit

/-- An exponent, or nothing. -/
def isExponent : List Char → Bool
  | [] => true
  | e :: sign :: cs =>
    (e = 'e' || e = 'E') && isDigits (if sign = '+' ∨ sign = '-' then cs else sign :: cs)
  | _ => false

/-- What may follow the whole part. -/
def isFraction : List Char → Bool
  | [] => true
  | c :: cs =>
    if c = '.' then isDigits (cs.takeWhile Char.isDigit) && isExponent (cs.dropWhile Char.isDigit)
    else isExponent (c :: cs)

/-- A number without its minus. -/
def isUnsigned (cs : List Char) : Bool :=
  isNatural (cs.takeWhile Char.isDigit) && isFraction (cs.dropWhile Char.isDigit)

/-- **A number.** -/
def isNumber : List Char → Bool
  | [] => false
  | c :: cs => isUnsigned (if c = '-' then cs else c :: cs)

/-- A character of a number. -/
def isNumberChar (c : Char) : Bool :=
  c.isDigit || c = '-' || c = '+' || c = '.' || c = 'e' || c = 'E'

/-- **A number that is no natural number**, as it is written. -/
structure Decimal where
  text : List Char
  isNumber_text : isNumber text = true
  isNatural_text : isNatural text = false

end Json

inductive Json where
  | null
  | bool (b : Bool)
  | num (n : Nat)
  | decimal (d : Json.Decimal)
  | str (s : String)
  | arr (elems : List Json)
  | obj (fields : List (String × Json))

namespace Json

/-! ## 2. Printing -/

/-- A character inside a string literal. -/
def escape (c : Char) : List Char :=
  if c = '"' then ['\\', '"']
  else if c = '\\' then ['\\', '\\']
  else if c = '\x08' then ['\\', 'b']
  else if c = '\t' then ['\\', 't']
  else if c = '\n' then ['\\', 'n']
  else if c = '\x0c' then ['\\', 'f']
  else if c = '\r' then ['\\', 'r']
  else if c.toNat < 0x20 then
    ['\\', 'u', '0', '0', Nat.digitChar (c.toNat / 16), Nat.digitChar (c.toNat % 16)]
  else [c]

def printString (s : String) : List Char := '"' :: (s.toList.flatMap escape ++ ['"'])

mutual

/-- The text of a value. -/
def print : Json → List Char
  | .null => ['n', 'u', 'l', 'l']
  | .bool true => ['t', 'r', 'u', 'e']
  | .bool false => ['f', 'a', 'l', 's', 'e']
  | .num n => Nat.toDigits 10 n
  | .decimal d => d.text
  | .str s => printString s
  | .arr [] => ['[', ']']
  | .arr (x :: xs) => '[' :: (print x ++ printElems xs)
  | .obj [] => ['{', '}']
  | .obj ((k, v) :: fs) => '{' :: (printString k ++ ':' :: (print v ++ printFields fs))

/-- The elements after the first, and the closing bracket. -/
def printElems : List Json → List Char
  | [] => [']']
  | x :: xs => ',' :: (print x ++ printElems xs)

/-- The fields after the first, and the closing brace. -/
def printFields : List (String × Json) → List Char
  | [] => ['}']
  | (k, v) :: fs => ',' :: (printString k ++ ':' :: (print v ++ printFields fs))

end

/-! ## 3. Parsing -/

def isSpace (c : Char) : Bool := c = ' ' || c = '\n' || c = '\t' || c = '\r'

def skipSpace (cs : List Char) : List Char := cs.dropWhile isSpace

def hexValue (c : Char) : Option Nat :=
  if c.isDigit then some (c.toNat - '0'.toNat)
  else if 'a' ≤ c ∧ c ≤ 'f' then some (c.toNat - 'a'.toNat + 10)
  else if 'A' ≤ c ∧ c ≤ 'F' then some (c.toNat - 'A'.toNat + 10)
  else none

/-- The character of an escape of one letter. -/
def unescape (c : Char) : Option Char :=
  if c = '"' ∨ c = '\\' ∨ c = '/' then some c
  else if c = 'b' then some '\x08'
  else if c = 't' then some '\t'
  else if c = 'n' then some '\n'
  else if c = 'f' then some '\x0c'
  else if c = 'r' then some '\r'
  else none

/-- The code unit of four hexadecimal digits. -/
def codeUnit (a b c d : Char) : Option Nat :=
  (hexValue a).bind fun a => (hexValue b).bind fun b => (hexValue c).bind fun c =>
    (hexValue d).map fun d => ((a * 16 + b) * 16 + c) * 16 + d

/-- The character of a surrogate pair. -/
def pairChar (high low : Nat) : Option Char :=
  if high < 0xdc00 ∧ 0xdc00 ≤ low ∧ low < 0xe000 then
    some (Char.ofNat (0x10000 + (high - 0xd800) * 0x400 + (low - 0xdc00)))
  else none

/-- The rest of a string literal: its characters, and what follows the quote. Half of a surrogate
    pair alone is refused. -/
def parseChars : List Char → Option (List Char × List Char)
  | [] => none
  | c :: cs =>
    if c = '"' then some ([], cs)
    else if c = '\\' then
      match cs with
      | [] => none
      | e :: rest =>
        if e = 'u' then
          match rest with
          | a :: b :: c :: d :: rest =>
            (codeUnit a b c d).bind fun n =>
              if n.isValidChar then (parseChars rest).map fun r => (Char.ofNat n :: r.1, r.2)
              else
                match rest with
                | '\\' :: 'u' :: a :: b :: c :: d :: rest =>
                  (codeUnit a b c d).bind fun m => (pairChar n m).bind fun c =>
                    (parseChars rest).map fun r => (c :: r.1, r.2)
                | _ => none
          | _ => none
        else (unescape e).bind fun e => (parseChars rest).map fun r => (e :: r.1, r.2)
    else if c.toNat < 0x20 then none
    else (parseChars cs).map fun r => (c :: r.1, r.2)

def parseString : List Char → Option (String × List Char)
  | '"' :: cs => (parseChars cs).map fun r => (String.ofList r.1, r.2)
  | _ => none

def parseNumber (cs : List Char) : Option (Json × List Char) :=
  let text := cs.takeWhile isNumberChar
  let rest := cs.dropWhile isNumberChar
  if h : isNatural text = true then some (.num (Nat.ofDigitChars 10 text 0), rest)
  else if h' : isNumber text = true then
    some (.decimal ⟨text, h', Bool.eq_false_iff.mpr h⟩, rest)
  else none

section Sequence

variable {α : Type} (item : List Char → Option (α × List Char)) (close : Char)

/-- The items after the first, up to the closing character. -/
def parseMore : Nat → List Char → Option (List α × List Char)
  | 0, _ => none
  | fuel + 1, cs =>
    match skipSpace cs with
    | [] => none
    | c :: cs =>
      if c = close then some ([], cs)
      else if c = ',' then
        (item cs).bind fun r => (parseMore fuel r.2).map fun r' => (r.1 :: r'.1, r'.2)
      else none

/-- A sequence behind its opening character. -/
def parseSequence (fuel : Nat) (cs : List Char) : Option (List α × List Char) :=
  match skipSpace cs with
  | [] => none
  | c :: cs' =>
    if c = close then some ([], cs')
    else (item (c :: cs')).bind fun r =>
      (parseMore item close fuel r.2).map fun r' => (r.1 :: r'.1, r'.2)

end Sequence

/-- One field of an object. -/
def parseField (value : List Char → Option (Json × List Char)) (cs : List Char) :
    Option ((String × Json) × List Char) :=
  (parseString (skipSpace cs)).bind fun k =>
    match skipSpace k.2 with
    | ':' :: cs => (value cs).map fun v => ((k.1, v.1), v.2)
    | _ => none

def parseValue : Nat → List Char → Option (Json × List Char)
  | 0, _ => none
  | fuel + 1, cs =>
    match skipSpace cs with
    | [] => none
    | c :: cs =>
      if c = '"' then (parseString (c :: cs)).map fun r => (.str r.1, r.2)
      else if c = '[' then
        (parseSequence (parseValue fuel) ']' fuel cs).map fun r => (.arr r.1, r.2)
      else if c = '{' then
        (parseSequence (parseField (parseValue fuel)) '}' fuel cs).map fun r => (.obj r.1, r.2)
      else if c = 'n' then
        match cs with
        | 'u' :: 'l' :: 'l' :: cs => some (.null, cs)
        | _ => none
      else if c = 't' then
        match cs with
        | 'r' :: 'u' :: 'e' :: cs => some (.bool true, cs)
        | _ => none
      else if c = 'f' then
        match cs with
        | 'a' :: 'l' :: 's' :: 'e' :: cs => some (.bool false, cs)
        | _ => none
      else parseNumber (c :: cs)

/-- **The value of a text.** -/
def parse (cs : List Char) : Option Json :=
  (parseValue (cs.length + 1) cs).bind fun r =>
    if (skipSpace r.2).isEmpty then some r.1 else none

/-! ## 4. Tokens are read back -/

theorem skipSpace_cons {c : Char} (h : isSpace c = false) (cs : List Char) :
    skipSpace (c :: cs) = c :: cs := by
  simp [skipSpace, h]

theorem hexValue_digitChar : ∀ d < 16, hexValue (Nat.digitChar d) = some d := by decide

/-- A control character in its four digits. -/
theorem codeUnit_control {n : Nat} (h : n < 0x20) :
    codeUnit '0' '0' (Nat.digitChar (n / 16)) (Nat.digitChar (n % 16)) = some n := by
  have h0 : hexValue '0' = some 0 := by decide
  have h1 := hexValue_digitChar (n / 16) (by omega)
  have h2 := hexValue_digitChar (n % 16) (by omega)
  simp only [codeUnit, h0, h1, h2, Option.bind_some, Option.map_some]
  congr 1
  omega

theorem parseChars_quote (cs : List Char) : parseChars ('"' :: cs) = some ([], cs) := by
  rw [parseChars.eq_def]
  simp

theorem parseChars_letter {e c : Char} (hu : e ≠ 'u') (h : unescape e = some c) (cs : List Char) :
    parseChars ('\\' :: e :: cs) = (parseChars cs).map fun r => (c :: r.1, r.2) := by
  rw [parseChars.eq_def]
  simp [hu, h]

theorem parseChars_unicode {a b c d : Char} {n : Nat} (h : codeUnit a b c d = some n)
    (hn : n.isValidChar) (cs : List Char) :
    parseChars ('\\' :: 'u' :: a :: b :: c :: d :: cs) =
      (parseChars cs).map fun r => (Char.ofNat n :: r.1, r.2) := by
  rw [parseChars.eq_def]
  simp [h, hn]

theorem parseChars_plain {c : Char} (h1 : c ≠ '"') (h2 : c ≠ '\\') (h3 : ¬ c.toNat < 0x20)
    (cs : List Char) : parseChars (c :: cs) = (parseChars cs).map fun r => (c :: r.1, r.2) := by
  rw [parseChars.eq_def]
  simp only [h1, h2, h3, if_false]

/-- One character of a string literal. -/
theorem parseChars_escape (c : Char) (cs : List Char) :
    parseChars (escape c ++ cs) = (parseChars cs).map fun r => (c :: r.1, r.2) := by
  unfold escape
  split_ifs with h1 h2 h3 h4 h5 h6 h7 h8
  · exact parseChars_letter (by decide) (by rw [h1]; decide) cs
  · exact parseChars_letter (by decide) (by rw [h2]; decide) cs
  · exact parseChars_letter (by decide) (by rw [h3]; decide) cs
  · exact parseChars_letter (by decide) (by rw [h4]; decide) cs
  · exact parseChars_letter (by decide) (by rw [h5]; decide) cs
  · exact parseChars_letter (by decide) (by rw [h6]; decide) cs
  · exact parseChars_letter (by decide) (by rw [h7]; decide) cs
  · have h := parseChars_unicode (codeUnit_control h8) c.valid cs
    rwa [Char.ofNat_toNat] at h
  · exact parseChars_plain h1 h2 h8 cs

theorem parseString_print (s : String) (cs : List Char) :
    parseString (printString s ++ cs) = some (s, cs) := by
  have hchars : ∀ l : List Char,
      parseChars (l.flatMap escape ++ '"' :: cs) = some (l, cs) := by
    intro l
    induction l with
    | nil => exact parseChars_quote cs
    | cons c l ih =>
        rw [List.flatMap_cons, List.append_assoc, parseChars_escape, ih]
        rfl
  simp [printString, parseString, hchars]

theorem isNumberChar_digit {c : Char} (h : c.isDigit = true) : isNumberChar c = true := by
  simp [isNumberChar, h]

theorem isDigits_chars {cs : List Char} (h : isDigits cs = true) :
    ∀ c ∈ cs, isNumberChar c = true := fun c hc =>
  isNumberChar_digit (List.all_eq_true.mp (Bool.and_eq_true_iff.mp h).2 c hc)

theorem isExponent_chars {cs : List Char} (h : isExponent cs = true) :
    ∀ c ∈ cs, isNumberChar c = true := by
  match cs, h with
  | [], _ => exact fun c hc => absurd hc List.not_mem_nil
  | e :: sign :: ds, h =>
      obtain ⟨he, hds⟩ := Bool.and_eq_true_iff.mp h
      have hletter : isNumberChar e = true := by
        rcases Bool.or_eq_true_iff.mp he with he | he
        · rw [of_decide_eq_true he]
          decide
        · rw [of_decide_eq_true he]
          decide
      split at hds
      · rename_i hsign
        have hmark : isNumberChar sign = true := by
          rcases hsign with rfl | rfl
          · decide
          · decide
        exact List.forall_mem_cons.mpr ⟨hletter, List.forall_mem_cons.mpr
          ⟨hmark, isDigits_chars hds⟩⟩
      · exact List.forall_mem_cons.mpr ⟨hletter, isDigits_chars hds⟩

/-- Digits, and what comes after them. -/
theorem span_chars {cs : List Char}
    (h : ∀ c ∈ cs.dropWhile Char.isDigit, isNumberChar c = true) :
    ∀ c ∈ cs, isNumberChar c = true := by
  intro c hc
  rw [← List.takeWhile_append_dropWhile (p := Char.isDigit) (l := cs)] at hc
  rcases List.mem_append.mp hc with hc | hc
  · exact isNumberChar_digit (List.mem_takeWhile_imp hc)
  · exact h c hc

theorem isFraction_chars {cs : List Char} (h : isFraction cs = true) :
    ∀ c ∈ cs, isNumberChar c = true := by
  cases cs with
  | nil => exact fun c hc => absurd hc List.not_mem_nil
  | cons c cs =>
      rw [isFraction] at h
      split at h
      · rename_i hc
        have hrest := isExponent_chars (Bool.and_eq_true_iff.mp h).2
        exact List.forall_mem_cons.mpr ⟨by rw [hc]; decide, span_chars hrest⟩
      · exact isExponent_chars h

/-- A number has only such characters. -/
theorem isNumber_chars {cs : List Char} (h : isNumber cs = true) :
    ∀ c ∈ cs, isNumberChar c = true := by
  have hunsigned : ∀ ds, isUnsigned ds = true → ∀ c ∈ ds, isNumberChar c = true := fun _ hds =>
    span_chars (isFraction_chars (Bool.and_eq_true_iff.mp hds).2)
  cases cs with
  | nil => cases h
  | cons c cs =>
      rw [isNumber] at h
      split at h
      · rename_i hc
        exact List.forall_mem_cons.mpr ⟨by rw [hc]; decide, hunsigned cs h⟩
      · exact hunsigned _ h

/-- What may follow a value: a number ends there. -/
def Follows (cs : List Char) : Prop := ∀ c ∈ cs.head?, isNumberChar c = false

theorem span_number {text cs : List Char} (h : ∀ c ∈ text, isNumberChar c = true)
    (hcs : Follows cs) : (text ++ cs).takeWhile isNumberChar = text ∧
      (text ++ cs).dropWhile isNumberChar = cs := by
  rw [List.takeWhile_append_of_pos h, List.dropWhile_append_of_pos h]
  cases cs with
  | nil => simp
  | cons c cs => simp [hcs c rfl]

theorem parseNumber_print (n : Nat) {cs : List Char} (h : Follows cs) :
    parseNumber (Nat.toDigits 10 n ++ cs) = some (.num n, cs) := by
  have hdigits : ∀ c ∈ Nat.toDigits 10 n, isNumberChar c = true := fun c hc =>
    isNumberChar_digit (Nat.isDigit_of_mem_toDigits (by decide) (by decide) hc)
  obtain ⟨htake, hdrop⟩ := span_number hdigits h
  have hnatural : isNatural (Nat.toDigits 10 n) = true := by
    simp [isNatural]
  simp only [parseNumber, htake, hdrop, hnatural, Nat.ofDigitChars_ten_toDigits, dif_pos]

theorem parseNumber_decimal (d : Decimal) {cs : List Char} (h : Follows cs) :
    parseNumber (d.text ++ cs) = some (.decimal d, cs) := by
  obtain ⟨htake, hdrop⟩ := span_number (isNumber_chars d.isNumber_text) h
  have hnatural : ¬ isNatural d.text = true := by
    simp [d.isNatural_text]
  simp only [parseNumber, htake, hdrop]
  rw [dif_neg hnatural, dif_pos d.isNumber_text]

/-- One character is no number but a digit. -/
theorem parseNumber_short {c : Char} {r : Json × List Char} (h : parseNumber [c] = some r) :
    ∃ n, r.1 = .num n := by
  unfold parseNumber at h
  simp only at h
  split at h
  · exact ⟨_, (congrArg Prod.fst (Option.some.inj h)).symm⟩
  · rename_i hnatural
    split at h
    · rename_i hnumber
      exfalso
      cases hc : isNumberChar c with
      | false =>
          rw [List.takeWhile_cons, hc] at hnumber
          cases hnumber
      | true =>
          simp only [List.takeWhile_cons, hc, if_true, List.takeWhile_nil] at hnatural hnumber
          rw [isNumber] at hnumber
          have hwhole := (Bool.and_eq_true_iff.mp hnumber).1
          have hnil : ¬ isNatural [] = true := by decide
          split at hwhole
          · exact hnil hwhole
          · cases hdigit : c.isDigit with
            | true => exact hnatural (by simpa [hdigit] using hwhole)
            | false => exact hnil (by simpa [hdigit] using hwhole)
    · cases h

/-! ## 5. Values are read back -/

/-- The parser reads this value back, with enough fuel and whatever follows. -/
def ReadsValue (j : Json) : Prop :=
  ∀ fuel cs, j.print.length ≤ fuel → Follows cs → parseValue fuel (j.print ++ cs) = some (j, cs)

def ReadsElems (xs : List Json) : Prop :=
  ∀ fuel n cs, (printElems xs).length ≤ fuel → (printElems xs).length ≤ n →
    parseMore (parseValue fuel) ']' n (printElems xs ++ cs) = some (xs, cs)

def ReadsFields (fs : List (String × Json)) : Prop :=
  ∀ fuel n cs, (printFields fs).length ≤ fuel → (printFields fs).length ≤ n →
    parseMore (parseField (parseValue fuel)) '}' n (printFields fs ++ cs) = some (fs, cs)

theorem follows_cons {c : Char} (h : isNumberChar c = false) (cs : List Char) :
    Follows (c :: cs) := by
  rintro c' ⟨⟩
  exact h

theorem follows_elems (xs : List Json) (cs : List Char) : Follows (printElems xs ++ cs) := by
  cases xs with
  | nil => exact follows_cons (by decide) _
  | cons x xs => exact follows_cons (by decide) _

theorem follows_fields (fs : List (String × Json)) (cs : List Char) :
    Follows (printFields fs ++ cs) := by
  cases fs with
  | nil => exact follows_cons (by decide) _
  | cons f fs => exact follows_cons (by decide) _

theorem numberChar_ne {c d : Char} (hc : isNumberChar c = true) (hd : isNumberChar d = false) :
    c ≠ d := by
  rintro rfl
  rw [hc] at hd
  cases hd

/-- A number begins with a character of a number. -/
theorem toDigits_head (n : Nat) :
    ∃ c cs, Nat.toDigits 10 n = c :: cs ∧ isNumberChar c = true := by
  cases h : Nat.toDigits 10 n with
  | nil => exact absurd h Nat.toDigits_ne_nil
  | cons c cs =>
      refine ⟨c, cs, rfl, isNumberChar_digit ?_⟩
      refine Nat.isDigit_of_mem_toDigits (b := 10) (n := n) (by decide) (by decide) ?_
      rw [h]
      exact List.mem_cons_self

theorem Decimal.head (d : Decimal) : ∃ c cs, d.text = c :: cs ∧ isNumberChar c = true := by
  have hchars := isNumber_chars d.isNumber_text
  have hnumber := d.isNumber_text
  cases h : d.text with
  | nil =>
      rw [h] at hnumber
      cases hnumber
  | cons c cs => exact ⟨c, cs, rfl, hchars c (h ▸ List.mem_cons_self)⟩

theorem isSpace_number {c : Char} (h : isNumberChar c = true) : isSpace c = false := by
  simp [isSpace, numberChar_ne h (show isNumberChar ' ' = false by decide),
    numberChar_ne h (show isNumberChar '\n' = false by decide),
    numberChar_ne h (show isNumberChar '\t' = false by decide),
    numberChar_ne h (show isNumberChar '\r' = false by decide)]

/-- The first character of a value is no blank, and closes no array. -/
theorem print_head (j : Json) : ∃ c cs, j.print = c :: cs ∧ isSpace c = false ∧ c ≠ ']' := by
  cases j with
  | null => exact ⟨_, _, rfl, by decide, by decide⟩
  | bool b => cases b <;> exact ⟨_, _, rfl, by decide, by decide⟩
  | num n =>
      obtain ⟨c, cs, h, hc⟩ := toDigits_head n
      exact ⟨c, cs, h, isSpace_number hc, numberChar_ne hc (by decide)⟩
  | decimal d =>
      obtain ⟨c, cs, h, hc⟩ := d.head
      exact ⟨c, cs, h, isSpace_number hc, numberChar_ne hc (by decide)⟩
  | str s => exact ⟨_, _, rfl, by decide, by decide⟩
  | arr xs => cases xs <;> exact ⟨_, _, rfl, by decide, by decide⟩
  | obj fs =>
      obtain _ | ⟨⟨k, v⟩, fs⟩ := fs <;> exact ⟨_, _, rfl, by decide, by decide⟩

section Sequence

variable {α : Type} {item : List Char → Option (α × List Char)} {close c : Char} {x : α}
  {xs : List α} {n : Nat} {cs cs' cs'' : List Char}

theorem parseMore_close (h : isSpace close = false) :
    parseMore item close (n + 1) (close :: cs) = some ([], cs) := by
  simp [parseMore, skipSpace_cons h]

theorem parseMore_cons (h : close ≠ ',') (hitem : item cs = some (x, cs'))
    (hmore : parseMore item close n cs' = some (xs, cs'')) :
    parseMore item close (n + 1) (',' :: cs) = some (x :: xs, cs'') := by
  simp [parseMore, skipSpace_cons (show isSpace ',' = false by decide), Ne.symm h, hitem, hmore]

theorem parseSequence_close (h : isSpace close = false) :
    parseSequence item close n (close :: cs) = some ([], cs) := by
  simp [parseSequence, skipSpace_cons h]

theorem parseSequence_cons (hspace : isSpace c = false) (hc : c ≠ close)
    (hitem : item (c :: cs) = some (x, cs'))
    (hmore : parseMore item close n cs' = some (xs, cs'')) :
    parseSequence item close n (c :: cs) = some (x :: xs, cs'') := by
  simp [parseSequence, skipSpace_cons hspace, hc, hitem, hmore]

end Sequence

theorem parseField_print {value : List Char → Option (Json × List Char)} {k : String} {v : Json}
    {cs cs' : List Char} (h : value cs = some (v, cs')) :
    parseField value (printString k ++ ':' :: cs) = some ((k, v), cs') := by
  have hskip : skipSpace (printString k ++ ':' :: cs) = printString k ++ ':' :: cs :=
    skipSpace_cons (by decide) _
  simp [parseField, hskip, parseString_print, skipSpace_cons (show isSpace ':' = false by decide), h]

theorem parseValue_str (s : String) (fuel : Nat) (cs : List Char) :
    parseValue (fuel + 1) (printString s ++ cs) = some (.str s, cs) := by
  have h := parseString_print s cs
  rw [printString, List.cons_append] at h ⊢
  rw [parseValue, skipSpace_cons (by decide)]
  simp only [if_true, h, Option.map_some]

/-- What begins like a number is read as one. -/
theorem parseValue_number {text cs : List Char} {c : Char} {ds : List Char} {j : Json} (fuel : Nat)
    (htext : text = c :: ds) (hc : isNumberChar c = true)
    (h : parseNumber (text ++ cs) = some (j, cs)) :
    parseValue (fuel + 1) (text ++ cs) = some (j, cs) := by
  rw [htext, List.cons_append] at h ⊢
  rw [parseValue, skipSpace_cons (isSpace_number hc)]
  simp [numberChar_ne hc (show isNumberChar '"' = false by decide),
    numberChar_ne hc (show isNumberChar '[' = false by decide),
    numberChar_ne hc (show isNumberChar '{' = false by decide),
    numberChar_ne hc (show isNumberChar 'n' = false by decide),
    numberChar_ne hc (show isNumberChar 't' = false by decide),
    numberChar_ne hc (show isNumberChar 'f' = false by decide), h]

theorem parseValue_arr {fuel : Nat} {cs cs' : List Char} {xs : List Json}
    (h : parseSequence (parseValue fuel) ']' fuel cs = some (xs, cs')) :
    parseValue (fuel + 1) ('[' :: cs) = some (.arr xs, cs') := by
  rw [parseValue, skipSpace_cons (by decide)]
  simp [h]

theorem parseValue_obj {fuel : Nat} {cs cs' : List Char} {fs : List (String × Json)}
    (h : parseSequence (parseField (parseValue fuel)) '}' fuel cs = some (fs, cs')) :
    parseValue (fuel + 1) ('{' :: cs) = some (.obj fs, cs') := by
  rw [parseValue, skipSpace_cons (by decide)]
  simp [h]

mutual

theorem readsValue : ∀ j : Json, ReadsValue j
  | .null => by
      rintro (_ | fuel) cs hfuel -
      · cases hfuel
      · rw [print, parseValue, List.cons_append, skipSpace_cons (by decide)]
        simp
  | .bool true => by
      rintro (_ | fuel) cs hfuel -
      · cases hfuel
      · rw [print, parseValue, List.cons_append, skipSpace_cons (by decide)]
        simp
  | .bool false => by
      rintro (_ | fuel) cs hfuel -
      · cases hfuel
      · rw [print, parseValue, List.cons_append, skipSpace_cons (by decide)]
        simp
  | .num n => by
      rintro (_ | fuel) cs hfuel hcs
      · obtain ⟨c, ds, hds, _⟩ := toDigits_head n
        rw [print, hds] at hfuel
        cases hfuel
      · obtain ⟨c, ds, hds, hc⟩ := toDigits_head n
        exact parseValue_number fuel hds hc (parseNumber_print n hcs)
  | .decimal d => by
      rintro (_ | fuel) cs hfuel hcs
      · obtain ⟨c, ds, hds, _⟩ := d.head
        rw [print, hds] at hfuel
        cases hfuel
      · obtain ⟨c, ds, hds, hc⟩ := d.head
        exact parseValue_number fuel hds hc (parseNumber_decimal d hcs)
  | .str s => by
      rintro (_ | fuel) cs hfuel -
      · cases hfuel
      · exact parseValue_str s fuel cs
  | .arr [] => by
      rintro (_ | fuel) cs hfuel -
      · cases hfuel
      · exact parseValue_arr (parseSequence_close (by decide))
  | .arr (x :: xs) => by
      rintro (_ | fuel) cs hfuel -
      · cases hfuel
      · simp only [print, List.length_cons, List.length_append] at hfuel
        obtain ⟨c, tail, hprint, hspace, hc⟩ := print_head x
        have hx := readsValue x fuel (printElems xs ++ cs) (by omega) (follows_elems xs cs)
        have hxs := readsElems xs fuel fuel cs (by omega) (by omega)
        rw [print, List.cons_append, List.append_assoc]
        rw [hprint, List.cons_append] at hx ⊢
        exact parseValue_arr (parseSequence_cons hspace hc hx hxs)
  | .obj [] => by
      rintro (_ | fuel) cs hfuel -
      · cases hfuel
      · exact parseValue_obj (parseSequence_close (by decide))
  | .obj ((k, v) :: fs) => by
      rintro (_ | fuel) cs hfuel -
      · cases hfuel
      · simp only [print, List.length_cons, List.length_append] at hfuel
        have hv := readsValue v fuel (printFields fs ++ cs) (by omega) (follows_fields fs cs)
        have hfs := readsFields fs fuel fuel cs (by omega) (by omega)
        have hfield := parseField_print (k := k) hv
        rw [print, List.cons_append, List.append_assoc, List.cons_append, List.append_assoc]
        exact parseValue_obj (parseSequence_cons (by decide) (by decide) hfield hfs)

theorem readsElems : ∀ xs : List Json, ReadsElems xs
  | [] => by
      rintro fuel (_ | n) cs hfuel hn
      · cases hn
      · exact parseMore_close (by decide)
  | x :: xs => by
      rintro fuel (_ | n) cs hfuel hn
      · cases hn
      · simp only [printElems, List.length_cons, List.length_append] at hfuel hn
        have hx := readsValue x fuel (printElems xs ++ cs) (by omega) (follows_elems xs cs)
        have hxs := readsElems xs fuel n cs (by omega) (by omega)
        rw [printElems, List.cons_append, List.append_assoc]
        exact parseMore_cons (by decide) hx hxs

theorem readsFields : ∀ fs : List (String × Json), ReadsFields fs
  | [] => by
      rintro fuel (_ | n) cs hfuel hn
      · cases hn
      · exact parseMore_close (by decide)
  | (k, v) :: fs => by
      rintro fuel (_ | n) cs hfuel hn
      · cases hn
      · simp only [printFields, List.length_cons, List.length_append] at hfuel hn
        have hv := readsValue v fuel (printFields fs ++ cs) (by omega) (follows_fields fs cs)
        have hfs := readsFields fs fuel n cs (by omega) (by omega)
        rw [printFields, List.cons_append, List.append_assoc, List.cons_append, List.append_assoc]
        exact parseMore_cons (by decide) (parseField_print hv) hfs

end

/-- **What was printed is read back.** -/
theorem parse_print (j : Json) : parse j.print = some j := by
  have hend : Follows [] := fun c hc => by cases hc
  have h := readsValue j (j.print.length + 1) [] (Nat.le_succ _) hend
  rw [List.append_nil] at h
  rw [parse, h]
  rfl

/-- A pair of code units, a number with a sign. -/
example : (parse "[\"\\ud83d\\ude00\", -1.5e3]".toList).map print =
    some ("[\"😀\",-1.5e3]".toList) := by
  decide +kernel

/-! ## 6. Bytes -/

/-- The text of a value in UTF-8. -/
def encode (j : Json) : List UInt8 := (String.ofList j.print).toByteArray.data.toList

/-- **The value of a text in UTF-8.** -/
def decode (bytes : List UInt8) : Option Json :=
  (ByteArray.mk bytes.toArray).utf8Decode?.bind fun cs => parse cs.toList

@[simp] theorem decode_encode (j : Json) : decode j.encode = some j := by
  have hbytes : ByteArray.mk j.encode.toArray = j.print.utf8Encode := String.toByteArray_ofList
  rw [decode, hbytes, List.utf8Decode?_utf8Encode, Option.bind_some, parse_print]

/-- Every character is at least one byte. -/
theorem length_le_utf8Encode (cs : List Char) : cs.length ≤ cs.utf8Encode.size := by
  induction cs with
  | nil => simp
  | cons c cs ih =>
      have hc := c.utf8Size_pos
      rw [List.utf8Encode_cons, List.utf8Encode_singleton, ByteArray.size_append,
        List.size_toByteArray, String.length_utf8EncodeChar, List.length_cons]
      omega

/-- A text of at most one character is at most a number. -/
theorem parse_short {cs : List Char} (h : cs.length ≤ 1) {j : Json} (hj : parse cs = some j) :
    ∃ n, j = .num n := by
  obtain _ | ⟨c, _ | ⟨d, cs⟩⟩ := cs
  · simp [parse, parseValue, skipSpace] at hj
  · obtain ⟨⟨j', rest⟩, hvalue, hrest⟩ := Option.bind_eq_some_iff.mp hj
    obtain rfl : j' = j := by
      simp only at hrest
      split at hrest
      · exact Option.some.inj hrest
      · cases hrest
    by_cases hc : isSpace c = true
    · simp [parseValue, skipSpace, hc] at hvalue
    · rw [Bool.not_eq_true] at hc
      rw [parseValue, skipSpace_cons hc] at hvalue
      simp only at hvalue
      split_ifs at hvalue with h1 h2 h3 h4 h5 h6
      · simp [h1, parseString, parseChars] at hvalue
      · simp [parseSequence, skipSpace] at hvalue
      · simp [parseSequence, skipSpace] at hvalue
      · exact parseNumber_short hvalue
  · simp at h

/-- **At most one byte is at most a number.** -/
theorem decode_short {bytes : List UInt8} (h : bytes.length ≤ 1) {j : Json}
    (hj : decode bytes = some j) : ∃ n, j = .num n := by
  obtain ⟨cs, hcs, hparse⟩ := Option.bind_eq_some_iff.mp hj
  have hsize := length_le_utf8Encode cs.toList
  have hback : cs.toList.utf8Encode = ByteArray.mk bytes.toArray := by
    have hget := ByteArray.utf8Encode_get_utf8Decode? (b := ByteArray.mk bytes.toArray)
      (h := by rw [hcs]; rfl)
    simpa [hcs] using hget
  rw [hback] at hsize
  exact parse_short (Nat.le_trans hsize h) hparse

/-! ## 7. Reading values -/

def text : Json → Option String
  | .str s => some s
  | _ => none

def flag : Json → Option Bool
  | .bool b => some b
  | _ => none

/-- A number of 16 bits. -/
def u16 : Json → Option Nat
  | .num n => if n < UInt16.size then some n else none
  | _ => none

/-- A number of 64 bits. -/
def u64 : Json → Option UInt64
  | .num n => if n < UInt64.size then some (.ofNat n) else none
  | _ => none

def elems : Json → Option (List Json)
  | .arr xs => some xs
  | _ => none

def fields : Json → Option (List (String × Json))
  | .obj fs => some fs
  | _ => none

/-- A field that must be there, once. -/
def field {α : Type} (name : String) (read : Json → Option α) (fs : List (String × Json)) :
    Option α :=
  match fs.filter (fun f => f.1 = name) with
  | [f] => read f.2
  | _ => none

/-- A value, or null. -/
def orNull {α : Type} (read : Json → Option α) : Json → Option (Option α)
  | .null => some none
  | j => (read j).map some

/-- A field that may be absent or null, but not there twice. -/
def optionalField {α : Type} (name : String) (read : Json → Option α)
    (fs : List (String × Json)) : Option (Option α) :=
  match fs.filter (fun f => f.1 = name) with
  | [] => some none
  | [f] => orNull read f.2
  | _ => none

/-- The fields of a structure: those of an object, or the elements of an array in the order of the
    fields, of which the defaulted ones may be left out. -/
def record (required defaulted : List String) : Json → Option (List (String × Json))
  | .obj fs => some fs
  | .arr xs =>
    if required.length ≤ xs.length ∧ xs.length ≤ required.length + defaulted.length then
      some ((required ++ defaulted).zip xs)
    else none
  | _ => none

/-- A value under an internal tag: the tag, and what is beside it. -/
def tagged {α : Type} (tag : String) (read : String → Json → Option α) : Json → Option α
  | .obj fs => do read (← field tag text fs) (.obj (fs.filter fun f => f.1 ≠ tag))
  | .arr (.str name :: xs) => read name (.arr xs)
  | _ => none

/-- What is beside the tag of a variant without fields. -/
def unit : Json → Option Unit
  | .obj _ => some ()
  | .arr [] => some ()
  | _ => none

/-- The name of a variant without fields. -/
def variant : Json → Option String
  | .str name => some name
  | .obj [(name, .null)] => some name
  | _ => none

/-- A field that is left out when there is no value. -/
def skipNone (name : String) : Option Json → List (String × Json)
  | none => []
  | some j => [(name, j)]

@[simp] theorem text_str (s : String) : text (.str s) = some s := rfl
@[simp] theorem flag_bool (b : Bool) : flag (.bool b) = some b := rfl
@[simp] theorem elems_arr (xs : List Json) : elems (.arr xs) = some xs := rfl
@[simp] theorem fields_obj (fs : List (String × Json)) : fields (.obj fs) = some fs := rfl
@[simp] theorem record_obj (required defaulted : List String) (fs : List (String × Json)) :
    record required defaulted (.obj fs) = some fs := rfl
@[simp] theorem unit_obj (fs : List (String × Json)) : unit (.obj fs) = some () := rfl
@[simp] theorem variant_str (name : String) : variant (.str name) = some name := rfl

@[simp] theorem orNull_str {α : Type} (read : Json → Option α) (s : String) :
    orNull read (.str s) = (read (.str s)).map some := rfl

@[simp] theorem u64_num (n : UInt64) : u64 (.num n.toNat) = some n := by
  simp [u64, n.toNat_lt_size]

theorem u16_num {n : Nat} (h : n < UInt16.size) : u16 (.num n) = some n := if_pos h

theorem u16_lt {j : Json} {n : Nat} (h : u16 j = some n) : n < UInt16.size := by
  cases j with
  | num m =>
      simp only [u16, Option.ite_none_right_eq_some, Option.some.injEq] at h
      exact h.2 ▸ h.1
  | _ => cases h

/-- **A tagged object is read by its tag**, if no other field has the tag's name. -/
theorem tagged_obj {α : Type} {tag : String} {read : String → Json → Option α} {name : String}
    {fs : List (String × Json)} (h : ∀ f ∈ fs, f.1 ≠ tag) :
    tagged tag read (.obj ((tag, .str name) :: fs)) = read name (.obj fs) := by
  have hrest : fs.filter (fun f => decide (f.1 = tag)) = [] := by
    simpa [List.filter_eq_nil_iff] using h
  have hkeep : fs.filter (fun f => !decide (f.1 = tag)) = fs := by
    simpa [List.filter_eq_self] using h
  simp [tagged, field, hrest, hkeep]

/-- **A list of values is read back**, if each of them is. -/
theorem mapM_map {α : Type} {write : α → Json} {read : Json → Option α} {l : List α}
    (h : ∀ a ∈ l, read (write a) = some a) : (l.map write).mapM read = some l := by
  induction l with
  | nil => rfl
  | cons a l ih =>
      have hl := ih fun b hb => h b (List.mem_cons_of_mem a hb)
      simp [List.mapM_cons, h a List.mem_cons_self, hl]

/-- The elements of a list that was read were read. -/
theorem of_mapM {α : Type} {read : Json → Option α} {js : List Json} {l : List α}
    (h : js.mapM read = some l) : ∀ a ∈ l, ∃ j, read j = some a := by
  induction js generalizing l with
  | nil =>
      obtain rfl : [] = l := Option.some.inj h
      exact fun a ha => absurd ha List.not_mem_nil
  | cons j js ih =>
      simp only [List.mapM_cons, Option.bind_eq_bind, Option.bind_eq_some_iff, Option.pure_def,
        Option.some.injEq] at h
      obtain ⟨a, ha, l, hl, rfl⟩ := h
      intro b hb
      rcases List.mem_cons.mp hb with rfl | hb
      · exact ⟨j, ha⟩
      · exact ih hl b hb

theorem of_field {α : Type} {name : String} {read : Json → Option α} {fs : List (String × Json)}
    {a : α} (h : field name read fs = some a) : ∃ j, read j = some a := by
  unfold field at h
  split at h
  · exact ⟨_, h⟩
  · cases h

theorem of_tagged {α : Type} {tag : String} {read : String → Json → Option α} {j : Json} {a : α}
    (h : tagged tag read j = some a) : ∃ name rest, read name rest = some a := by
  unfold tagged at h
  split at h
  · obtain ⟨name, _, h⟩ := Option.bind_eq_some_iff.mp h
    exact ⟨name, _, h⟩
  · exact ⟨_, _, h⟩
  · cases h

/-- **The values of `P` are read back and told apart.** -/
structure RoundTrip {α : Type} (P : α → Prop) (write : α → Json) (read : Json → Option α) :
    Prop where
  read_write : ∀ a, P a → read (write a) = some a
  write_inj : ∀ a b, P a → P b → write a = write b → a = b

theorem RoundTrip.of_read {α : Type} {P : α → Prop} {write : α → Json} {read : Json → Option α}
    (h : ∀ a, P a → read (write a) = some a) : RoundTrip P write read where
  read_write := h
  write_inj a b ha hb hab := by
    have hread := h a ha
    rw [hab, h b hb] at hread
    exact (Option.some.inj hread).symm

end Json

end LocalSend.Lib
