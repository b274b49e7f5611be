/-
  File:      LocalSend/Lib/Query.lean
  Subject:   THE QUERY OF A URL and its parameters, as the URL Standard reads them
             (`application/x-www-form-urlencoded`); nothing here names a program.

  * `query` -- what stands after the first question mark, up to a number sign; before that the text
    loses spaces and control characters around it, tabs and newlines in it. A text without scheme,
    host and port is no URL;
  * `parameters` -- the pairs of a query: split at `&`, each at its first `=`, with `+` read as a
    space and escapes as bytes. Whatever else the parser of URLs escapes is read back here;
  * `join` -- names and values as they are, with `=` and `&` between them;
  * `isLiteral` -- no character of the value means anything but itself;
  * **`parameters_query_iff`** -- what `join` puts together, after an address, is read back exactly
    if every value is literal and the last one does not end with a space; `query_none`: without an
    address there is no query.
-/
import LocalSend.Lib.Percent
import LocalSend.Lib.Uri
import Mathlib.Data.List.DropRight

namespace LocalSend.Lib.Query

open Percent

/-! ## 1. The grammar -/

/-- A C0 control or a space. -/
def isBlank (c : Char) : Bool := c ≤ ' '

def isTabOrNewline (c : Char) : Bool := c ∈ ['\t', '\n', '\r']

/-- The text without tabs and newlines, up to a number sign. -/
def beforeFragment (text : Text) : Text :=
  (text.filter fun c => !isTabOrNewline c).takeWhile (· ≠ '#')

/-- The text as it is parsed: without what is lost around it and in it, and without its fragment. -/
def cleaned (url : Text) : Text := beforeFragment ((url.dropWhile isBlank).rdropWhile isBlank)

/-- **The query of a URL**, empty where there is none; a text that addresses nothing is no URL. -/
def query (url : Text) : Option Text :=
  (Uri.endpoint (cleaned url)).map fun _ => ((cleaned url).dropWhile (· ≠ '?')).drop 1

/-- The bytes of a text in UTF-8. -/
def utf8 (text : Text) : List UInt8 := text.flatMap String.utf8EncodeChar

/-- The byte of an escape: a percent sign and two hexadecimal digits. -/
def escape (c high low : Char) : Option UInt8 :=
  if c = '%' then
    (hexValue high).bind fun h => (hexValue low).map fun l => UInt8.ofNat (16 * h + l)
  else none

/-- A character outside escapes. -/
def decodeChar (c : Char) : List UInt8 := String.utf8EncodeChar (if c = '+' then ' ' else c)

/-- The bytes a name or a value stands for; a percent sign that begins no escape is itself. -/
def decode : Text → List UInt8
  | [] => []
  | [c] => decodeChar c
  | [c, d] => decodeChar c ++ decodeChar d
  | c :: d :: e :: rest =>
    match escape c d e with
    | some byte => byte :: decode rest
    | none => decodeChar c ++ decode (d :: e :: rest)

/-- A part of a query: its name up to the first `=`, its value after it. -/
def parameter (part : Text) : List UInt8 × List UInt8 :=
  (decode (part.takeWhile (· ≠ '=')), decode ((part.dropWhile (· ≠ '=')).drop 1))

/-- **The parameters of a query**, as bytes. -/
def parameters (query : Text) : List (List UInt8 × List UInt8) :=
  ((query.splitOn '&').filter (· ≠ [])).map parameter

example : (query "https://[::1]/a?b=1%2B1&c=%zz+&&d#e".toList).map parameters =
    some [(utf8 "b".toList, utf8 "1+1".toList), (utf8 "c".toList, utf8 "%zz ".toList),
      (utf8 "d".toList, [])] := by
  decide

example : query "https://::1:53317/a?b=1".toList = none := by decide

/-! ## 2. Values that stand for themselves -/

def hasEscape : Text → Bool
  | c :: d :: e :: rest => (escape c d e).isSome || hasEscape (d :: e :: rest)
  | _ => false

/-- What ends a value, or is lost in it. -/
def isSpecial (c : Char) : Bool := c = '&' || c = '#' || isTabOrNewline c

/-- **Nothing in the value means anything but itself.** -/
def isLiteral (value : Text) : Bool :=
  value.all (fun c => !isSpecial c && c ≠ '+') && !hasEscape value

section Sizes

variable {a b v : Text}

@[simp] theorem utf8_cons (c : Char) (rest : Text) :
    utf8 (c :: rest) = String.utf8EncodeChar c ++ utf8 rest := rfl

theorem utf8EncodeChar_pos (c : Char) : 0 < (String.utf8EncodeChar c).length := by
  rw [String.length_utf8EncodeChar]
  exact Char.utf8Size_pos c

theorem decodeChar_length (c : Char) :
    (decodeChar c).length = (String.utf8EncodeChar c).length := by
  unfold decodeChar
  split
  · rename_i h
    subst h
    rfl
  · rfl

/-- A character is read as itself, unless it is a plus sign. -/
theorem decodeChar_eq {c : Char} : decodeChar c = String.utf8EncodeChar c ↔ c ≠ '+' := by
  unfold decodeChar
  split
  · rename_i h
    subst h
    decide
  · rename_i h
    simp [h]

/-- Reading makes nothing longer. -/
theorem decode_length_le (v : Text) : (decode v).length ≤ (utf8 v).length := by
  fun_induction decode v with
  | case1 => exact Nat.le_refl 0
  | case2 c => simp [utf8, decodeChar_length]
  | case3 c d => simp [utf8, decodeChar_length]
  | case4 c d e rest byte h ih =>
      have hc := utf8EncodeChar_pos c
      simp only [utf8_cons, List.length_append, List.length_cons]
      omega
  | case5 c d e rest h ih =>
      rw [utf8_cons, List.length_append, List.length_append, decodeChar_length]
      exact Nat.add_le_add_left ih _

theorem decodeChar_append {c : Char} {xs ys : List UInt8} :
    decodeChar c ++ xs = String.utf8EncodeChar c ++ ys ↔ c ≠ '+' ∧ xs = ys := by
  constructor
  · intro h
    obtain ⟨hc, htail⟩ := List.append_inj h (decodeChar_length c)
    exact ⟨decodeChar_eq.mp hc, htail⟩
  · intro h
    obtain ⟨hc, rfl⟩ := h
    rw [decodeChar_eq.mpr hc]

theorem decodeChar_utf8 {c : Char} : decodeChar c = utf8 [c] ↔ c ≠ '+' := by
  rw [← List.append_nil (decodeChar c), utf8_cons, decodeChar_append]
  exact and_iff_left rfl

theorem not_mem_cons {x c : Char} {cs : Text} : x ∉ c :: cs ↔ c ≠ x ∧ x ∉ cs := by
  rw [List.mem_cons, not_or, ne_comm]

/-- **A text is read as itself** exactly if it has no plus sign and no escape. -/
theorem decode_eq_utf8 : decode v = utf8 v ↔ '+' ∉ v ∧ hasEscape v = false := by
  fun_induction decode v with
  | case1 => simp [utf8, hasEscape]
  | case2 c =>
      rw [decodeChar_utf8, not_mem_cons]
      simp [hasEscape]
  | case3 c d =>
      rw [utf8_cons, decodeChar_append, decodeChar_utf8, not_mem_cons, not_mem_cons]
      simp [hasEscape]
  | case4 c d e rest byte h ih =>
      -- the byte of an escape is shorter than the escape
      have hlen : (byte :: decode rest).length < (utf8 (c :: d :: e :: rest)).length := by
        have hc := utf8EncodeChar_pos c
        have hd := utf8EncodeChar_pos d
        have hrest := decode_length_le rest
        simp only [utf8_cons, List.length_append, List.length_cons]
        omega
      refine iff_of_false (fun heq => absurd (congrArg List.length heq) (Nat.ne_of_lt hlen)) ?_
      simp [hasEscape, h]
  | case5 c d e rest h ih =>
      rw [utf8_cons, decodeChar_append, ih]
      rw [not_mem_cons (c := c), hasEscape, h, Option.isSome_none, Bool.false_or, and_assoc]

/-- What is left of a text is as much shorter as characters are missing. -/
theorem utf8_length_sublist (h : a.Sublist b) :
    (utf8 a).length + b.length ≤ (utf8 b).length + a.length := by
  induction h with
  | slnil => exact Nat.le_refl 0
  | cons c _ ih =>
      have hc := utf8EncodeChar_pos c
      simp only [utf8_cons, List.length_append, List.length_cons]
      omega
  | cons_cons c _ ih =>
      simp only [utf8_cons, List.length_append, List.length_cons]
      omega

/-- **What is left of a value reads as the value only if all of it is left.** -/
theorem eq_of_decode_eq (h : a.Sublist b) (hdecode : decode a = utf8 b) : a = b := by
  have hlen := decode_length_le a
  rw [hdecode] at hlen
  have hsub := utf8_length_sublist h
  exact h.eq_of_length_le (by omega)

end Sizes

/-! ## 3. Parameters put together -/

/-- The parameters as they are: `name=value`, with `&` between them. -/
def join : List (Text × Text) → Text
  | [] => []
  | p :: ps => p.1 ++ '=' :: p.2 ++ if ps = [] then [] else '&' :: join ps

/-- A name that is read as itself. -/
def isName (name : Text) : Bool := name ≠ [] && isLiteral name && name.all (· ≠ '=')

/-- What is left of a value that another parameter, or nothing, follows. -/
def kept (value : Text) : Text :=
  (value.filter fun c => !isTabOrNewline c).takeWhile fun c => c ≠ '&' ∧ c ≠ '#'

section Join

variable {n v sent : Text} {ps : List (Text × Text)}

theorem join_cons (p : Text × Text) (ps : List (Text × Text)) :
    join (p :: ps) = p.1 ++ '=' :: p.2 ++ if ps = [] then [] else '&' :: join ps := rfl

theorem isLiteral_iff : isLiteral v = true ↔
    (∀ c ∈ v, isSpecial c = false) ∧ '+' ∉ v ∧ hasEscape v = false := by
  simp only [isLiteral, Bool.and_eq_true, List.all_eq_true, Bool.not_eq_true',
    decide_eq_true_eq]
  constructor
  · intro h
    obtain ⟨hall, hesc⟩ := h
    exact ⟨fun c hc => (hall c hc).1, fun h => (hall _ h).2 rfl, hesc⟩
  · intro h
    obtain ⟨hall, hplus, hesc⟩ := h
    exact ⟨fun c hc => ⟨hall c hc, fun h => hplus (h ▸ hc)⟩, hesc⟩

theorem isSpecial_eq_false {c : Char} :
    isSpecial c = false ↔ isTabOrNewline c = false ∧ c ≠ '&' ∧ c ≠ '#' := by
  simp only [isSpecial, Bool.or_eq_false_iff, decide_eq_false_iff_not]
  exact and_comm

theorem kept_sublist : (kept v).Sublist v :=
  (List.takeWhile_sublist _).trans List.filter_sublist

/-- All of a value is left exactly if it has no special characters. -/
theorem kept_eq_self : kept v = v ↔ ∀ c ∈ v, isSpecial c = false := by
  constructor
  · intro h c hc
    rw [← h, kept] at hc
    have hp := List.mem_takeWhile_imp hc
    have hin := (List.takeWhile_sublist _).subset hc
    have hf := (List.mem_filter.mp hin).2
    exact isSpecial_eq_false.mpr ⟨by simpa using hf, by simpa using hp⟩
  · intro h
    rw [kept, List.filter_eq_self.mpr fun c hc => by simp [(isSpecial_eq_false.mp (h c hc)).1],
      List.takeWhile_eq_self_iff.mpr fun c hc => by simpa using (isSpecial_eq_false.mp (h c hc)).2]

/-- **What is left of what was sent reads as the value** exactly if the value was sent, and is
    literal. -/
theorem decode_kept (h : sent.Sublist v) :
    decode (kept sent) = utf8 v ↔ sent = v ∧ isLiteral v = true := by
  constructor
  · intro hdecode
    have hkept : kept sent = v := eq_of_decode_eq (kept_sublist.trans h) hdecode
    have hsent : sent = v := h.antisymm (hkept ▸ kept_sublist)
    subst hsent
    rw [hkept, decode_eq_utf8] at hdecode
    exact ⟨rfl, isLiteral_iff.mpr ⟨kept_eq_self.mp hkept, hdecode⟩⟩
  · intro h
    obtain ⟨rfl, hv⟩ := h
    obtain ⟨hspecial, hplain⟩ := isLiteral_iff.mp hv
    rw [kept_eq_self.mpr hspecial]
    exact decode_eq_utf8.mpr hplain

/-! ## 4. Reading them back -/

theorem takeWhile_append_stop {p : Char → Bool} {a b : Text} {c : Char} (hc : p c = false) :
    (a ++ c :: b).takeWhile p = a.takeWhile p := by
  induction a with
  | nil => simp [hc]
  | cons d a ih =>
      by_cases hd : p d = true
      · simp [hd, ih]
      · simp [hd]

theorem rdropWhile_append_stop {p : Char → Bool} {a b : Text} {c : Char} (hc : p c = false) :
    (a ++ c :: b).rdropWhile p = a ++ c :: b.rdropWhile p := by
  have hstop : ∀ xs ys : Text, (xs ++ c :: ys).dropWhile p = xs.dropWhile p ++ c :: ys := by
    intro xs ys
    induction xs with
    | nil => simp [hc]
    | cons d xs ih =>
        by_cases hd : p d = true
        · simp [hd, ih]
        · simp [hd]
  simp [List.rdropWhile, hstop]

theorem beforeFragment_append {a b : Text} (h : ∀ c ∈ a, isTabOrNewline c = false ∧ c ≠ '#') :
    beforeFragment (a ++ b) = a ++ beforeFragment b := by
  rw [beforeFragment, List.filter_append, List.filter_eq_self.mpr fun c hc => by simp [(h c hc).1],
    List.takeWhile_append_of_pos fun c hc => by simpa using (h c hc).2]
  rfl

/-- The characters of names and literal values stay. -/
theorem beforeFragment_literal {a b : Text} (h : ∀ c ∈ a, isSpecial c = false) :
    beforeFragment (a ++ b) = a ++ beforeFragment b :=
  beforeFragment_append fun c hc =>
    ⟨(isSpecial_eq_false.mp (h c hc)).1, (isSpecial_eq_false.mp (h c hc)).2.2⟩

theorem not_mem_of_special {a : Text} (h : ∀ c ∈ a, isSpecial c = false) : '&' ∉ a := fun hin =>
  (isSpecial_eq_false.mp (h _ hin)).2.1 rfl

/-- A part without `&`, and what follows it. -/
theorem parameters_append {a b : Text} (ha : '&' ∉ a) (hne : a ≠ []) :
    parameters (a ++ '&' :: b) = parameter a :: parameters b := by
  rw [parameters, List.splitOn_append_cons_self_of_not_mem ha]
  simp [hne, parameters]

theorem parameters_single {a : Text} (ha : '&' ∉ a) (hne : a ≠ []) :
    parameters a = [parameter a] := by
  rw [parameters, List.splitOn_eq_singleton ha]
  simp [hne]

/-- The first parameter stands before the first `&`. -/
theorem parameters_head {q : Text} (hne : q.takeWhile (· ≠ '&') ≠ []) :
    ∃ rest, parameters q = parameter (q.takeWhile (· ≠ '&')) :: rest := by
  have hsplit := q.takeWhile_append_dropWhile (p := (· ≠ '&'))
  have hout : '&' ∉ q.takeWhile (· ≠ '&') := fun h => by simpa using List.mem_takeWhile_imp h
  cases hdrop : q.dropWhile (· ≠ '&') with
  | nil =>
      rw [hdrop, List.append_nil] at hsplit
      exact ⟨[], by rw [← parameters_single hout hne, hsplit]⟩
  | cons c rest =>
      obtain rfl : c = '&' := by
        have hc := List.head?_dropWhile_not (· ≠ '&') q
        rw [hdrop] at hc
        simpa using hc
      rw [hdrop] at hsplit
      exact ⟨parameters rest, by rw [← parameters_append hout hne, hsplit]⟩

theorem isName_iff : isName n = true ↔ n ≠ [] ∧ isLiteral n = true ∧ '=' ∉ n := by
  simp only [isName, Bool.and_eq_true, decide_eq_true_eq, List.all_eq_true, and_assoc]
  grind

/-- A part with a name. -/
theorem parameter_name (hn : isName n = true) (x : Text) :
    parameter (n ++ '=' :: x) = (utf8 n, decode x) := by
  obtain ⟨_, hlit, heq⟩ := isName_iff.mp hn
  have hall : ∀ c ∈ n, decide (c ≠ '=') = true := by
    intro c hc
    rw [decide_eq_true_eq]
    rintro rfl
    exact heq hc
  rw [parameter, Uri.takeWhile_stop hall (by decide), Uri.dropWhile_stop hall (by decide),
    decode_eq_utf8.mpr (isLiteral_iff.mp hlit).2]
  rfl

/-- **The first parameter of what was put together**: its value is what is left of it. -/
theorem parameters_join_head (hn : isName n = true) (v : Text) (ps : List (Text × Text)) :
    ∃ rest, parameters (beforeFragment (join ((n, v) :: ps))) =
      (utf8 n, decode (kept v)) :: rest := by
  obtain ⟨_, hlit, _⟩ := isName_iff.mp hn
  have hnspecial := (isLiteral_iff.mp hlit).1
  have hspecial : ∀ c ∈ n ++ ['='], isSpecial c = false := by
    intro c hc
    rcases List.mem_append.mp hc with hc | hc
    · exact hnspecial c hc
    · rw [List.mem_singleton.mp hc]
      decide
  -- the value ends where `kept` says
  have hvalue : ∀ b : Text, b = [] ∨ b.head? = some '&' →
      (beforeFragment (v ++ b)).takeWhile (· ≠ '&') = kept v := by
    intro b hb
    rw [beforeFragment, List.takeWhile_takeWhile, List.filter_append]
    cases b with
    | nil => simp [kept]
    | cons c b =>
        obtain rfl : c = '&' := by simpa using hb
        rw [List.filter_cons_of_pos (by decide), takeWhile_append_stop (by simp)]
        simp [kept]
  have hfirst : (beforeFragment (join ((n, v) :: ps))).takeWhile (· ≠ '&') =
      n ++ '=' :: kept v := by
    rw [join, List.append_assoc, List.cons_append, List.append_cons, beforeFragment_literal hspecial,
      List.takeWhile_append_of_pos fun c hc => by
        simpa using (isSpecial_eq_false.mp (hspecial c hc)).2.1, hvalue]
    · simp
    · split
      · exact Or.inl rfl
      · exact Or.inr rfl
  obtain ⟨rest, hrest⟩ := parameters_head (q := beforeFragment (join ((n, v) :: ps))) (by
    rw [hfirst]
    simp)
  exact ⟨rest, by rw [hrest, hfirst, parameter_name hn]⟩

/-- **A literal value is read, and then the parameters after it.** -/
theorem parameters_join_cons (hn : isName n = true) (hv : isLiteral v = true)
    (ps : List (Text × Text)) :
    parameters (beforeFragment (join ((n, v) :: ps))) =
      (utf8 n, utf8 v) :: parameters (beforeFragment (join ps)) := by
  obtain ⟨_, hlit, _⟩ := isName_iff.mp hn
  have hspecial : ∀ c ∈ n ++ '=' :: v, isSpecial c = false := by
    intro c hc
    rcases List.mem_append.mp hc with hc | hc
    · exact (isLiteral_iff.mp hlit).1 c hc
    · rcases List.mem_cons.mp hc with rfl | hc
      · decide
      · exact (isLiteral_iff.mp hv).1 c hc
  have hpart : parameter (n ++ '=' :: v) = (utf8 n, utf8 v) := by
    rw [parameter_name hn, decode_eq_utf8.mpr (isLiteral_iff.mp hv).2]
  rw [join, beforeFragment_literal hspecial]
  by_cases hps : ps = []
  · subst hps
    rw [if_pos rfl]
    simp [beforeFragment, join, parameters_single (not_mem_of_special hspecial), hpart]
    rfl
  · have hamp : beforeFragment ('&' :: join ps) = '&' :: beforeFragment (join ps) :=
      beforeFragment_append (a := ['&']) fun c hc => by
        rw [List.mem_singleton.mp hc]
        decide
    rw [if_neg hps, hamp, parameters_append (not_mem_of_special hspecial) (by simp), hpart]

/-- Parameters of which the values may have lost something on the way. -/
def Lost (sent ps : List (Text × Text)) : Prop :=
  List.Forall₂ (fun a b => a.1 = b.1 ∧ a.2.Sublist b.2) sent ps

/-- **What was sent is read as the parameters** exactly if nothing was lost and every value is
    literal. -/
theorem parameters_join_iff {sent : List (Text × Text)} (h : Lost sent ps)
    (hnames : ∀ p ∈ ps, isName p.1 = true) :
    parameters (beforeFragment (join sent)) = ps.map (fun p => (utf8 p.1, utf8 p.2)) ↔
      sent = ps ∧ ∀ p ∈ ps, isLiteral p.2 = true := by
  induction h with
  | nil => simp [join, beforeFragment, parameters]
  | @cons a b sent ps hab _ ih =>
      obtain ⟨n, v'⟩ := a
      obtain ⟨m, v⟩ := b
      obtain ⟨rfl, hsub⟩ : n = m ∧ v'.Sublist v := hab
      have hn : isName n = true := hnames _ List.mem_cons_self
      have ih := ih fun p hp => hnames p (List.mem_cons_of_mem _ hp)
      constructor
      · intro heq
        obtain ⟨rest, hrest⟩ := parameters_join_head hn v' sent
        rw [hrest, List.map_cons] at heq
        obtain ⟨hhead, _⟩ := List.cons.inj heq
        obtain ⟨rfl, hv⟩ := (decode_kept hsub).mp (Prod.mk.inj hhead).2
        rw [← hrest, parameters_join_cons hn hv] at heq
        obtain ⟨rfl, hall⟩ := ih.mp (List.cons.inj heq).2
        refine ⟨rfl, fun p hp => ?_⟩
        rcases List.mem_cons.mp hp with rfl | hp
        · exact hv
        · exact hall p hp
      · intro h
        obtain ⟨heq, hall⟩ := h
        obtain ⟨hhead, rfl⟩ := List.cons.inj heq
        obtain rfl := (Prod.mk.inj hhead).2
        rw [parameters_join_cons hn (hall _ List.mem_cons_self), List.map_cons,
          ih.mpr ⟨rfl, fun p hp => hall p (List.mem_cons_of_mem _ hp)⟩]

/-! ## 5. The end of the URL -/

/-- The parameters without the spaces at the end of the last one. -/
def trimLast : List (Text × Text) → List (Text × Text)
  | [] => []
  | [p] => [(p.1, p.2.rdropWhile isBlank)]
  | p :: q :: ps => p :: trimLast (q :: ps)

/-- The value does not end with a space or a control character. -/
def endsVisibly (value : Text) : Bool := value.getLast?.all fun c => !isBlank c

theorem trimLast_eq_nil : trimLast ps = [] ↔ ps = [] := by
  fun_cases trimLast ps <;> simp

theorem rdropWhile_join (ps : List (Text × Text)) :
    (join ps).rdropWhile isBlank = join (trimLast ps) := by
  fun_induction trimLast ps with
  | case1 => rfl
  | case2 p => simp [join, rdropWhile_append_stop (show isBlank '=' = false by decide)]
  | case3 p q ps ih =>
      rw [join_cons, if_neg (by simp), rdropWhile_append_stop (by decide), ih, join_cons,
        if_neg (by simp [trimLast_eq_nil])]

theorem lost_trimLast (ps : List (Text × Text)) : Lost (trimLast ps) ps := by
  fun_induction trimLast ps with
  | case1 => exact .nil
  | case2 p => exact .cons ⟨rfl, (List.rdropWhile_prefix _ _).sublist⟩ .nil
  | case3 p q ps ih => exact .cons ⟨rfl, List.Sublist.refl _⟩ ih

theorem rdropWhile_eq_self : v.rdropWhile isBlank = v ↔ endsVisibly v = true := by
  rw [List.rdropWhile_eq_self_iff, endsVisibly]
  cases v using List.reverseRecOn with
  | nil => simp
  | append_singleton v c => simp

theorem trimLast_eq_self :
    trimLast ps = ps ↔ ∀ p, ps.getLast? = some p → endsVisibly p.2 = true := by
  fun_induction trimLast ps with
  | case1 => simp
  | case2 p =>
      have hp : [(p.1, p.2.rdropWhile isBlank)] = [p] ↔ endsVisibly p.2 = true := by
        rw [← rdropWhile_eq_self]
        simp only [List.cons.injEq, Prod.ext_iff, true_and, and_true]
      rw [hp]
      simp
  | case3 p q ps ih => simpa using ih

section Address

variable {address : Text}

/-- **What is parsed of an address with parameters after it**: all of the address. -/
theorem cleaned_address (hne : address ≠ [])
    (haddress : ∀ c ∈ address, isBlank c = false ∧ c ≠ '#' ∧ c ≠ '?') (ps : List (Text × Text)) :
    cleaned (address ++ '?' :: join ps) = address ++ '?' :: beforeFragment (join (trimLast ps)) := by
  have hkeep : ∀ c ∈ address ++ ['?'], isTabOrNewline c = false ∧ c ≠ '#' := by
    intro c hc
    rcases List.mem_append.mp hc with hc | hc
    · obtain ⟨hblank, hsign, _⟩ := haddress c hc
      refine ⟨?_, hsign⟩
      by_contra htab
      rw [Bool.not_eq_false, isTabOrNewline, decide_eq_true_eq] at htab
      simp only [List.mem_cons, List.not_mem_nil, or_false] at htab
      rcases htab with rfl | rfl | rfl <;> exact absurd hblank (by decide)
    · rw [List.mem_singleton.mp hc]
      decide
  have hfront : (address ++ '?' :: join ps).dropWhile isBlank = address ++ '?' :: join ps := by
    obtain ⟨c, rest, rfl⟩ := List.exists_cons_of_ne_nil hne
    rw [List.cons_append, List.dropWhile_cons_of_neg]
    simp [haddress c List.mem_cons_self]
  rw [cleaned, hfront, rdropWhile_append_stop (by decide), rdropWhile_join, List.append_cons,
    beforeFragment_append hkeep, List.append_assoc, List.singleton_append]

/-- **Without an address there is no query.** -/
theorem query_none (hne : address ≠ [])
    (haddress : ∀ c ∈ address, isBlank c = false ∧ c ≠ '#' ∧ c ≠ '?')
    (hendpoint : ∀ rest, Uri.endpoint (address ++ '?' :: rest) = none) :
    query (address ++ '?' :: join ps) = none := by
  rw [query, cleaned_address hne haddress, hendpoint, Option.map_none]

/-- **Parameters after an address are read back** exactly if every value is literal and the last
    one ends visibly. -/
theorem parameters_query_iff (hne : address ≠ [])
    (haddress : ∀ c ∈ address, isBlank c = false ∧ c ≠ '#' ∧ c ≠ '?')
    {endpoint : Text × Uri.Host × Option Text}
    (hendpoint : ∀ rest, Uri.endpoint (address ++ '?' :: rest) = some endpoint)
    (hnames : ∀ p ∈ ps, isName p.1 = true) :
    (query (address ++ '?' :: join ps)).map parameters =
        some (ps.map fun p => (utf8 p.1, utf8 p.2)) ↔
      (∀ p ∈ ps, isLiteral p.2 = true) ∧ ∀ p, ps.getLast? = some p → endsVisibly p.2 = true := by
  have hquery : query (address ++ '?' :: join ps) = some (beforeFragment (join (trimLast ps))) := by
    rw [query, cleaned_address hne haddress, hendpoint, Option.map_some,
      Uri.dropWhile_stop (fun c hc => by simpa using (haddress c hc).2.2) (by decide)]
    rfl
  rw [hquery, Option.map_some, Option.some.injEq, parameters_join_iff (lost_trimLast ps) hnames,
    trimLast_eq_self, and_comm]

end Address

end Join

end LocalSend.Lib.Query
