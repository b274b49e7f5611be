/-
  File:      LocalSend/Lib/RegExp.lean
  Subject:   REGULAR EXPRESSIONS of ECMAScript as Dart runs them: no flag set, the grammar of the
             annex for web browsers, texts as UTF-16 code units; nothing here names a program.

  * `Node` -- an expression; `run` -- the states it leads to, in the order they are tried;
    `hasMatch` -- whether one is found anywhere;
  * `compile` -- the parser, with its errors;
  * `Reads`, `Ends` -- what an expression reads, if it only reads on; **`hasMatch_anchored`** -- an
    expression between `^` and `$` matches the whole text or nothing.

  Left out: groups with a name, and looking behind. At one of them the parser stops with `beyond`.
-/
import Mathlib.Data.List.Basic

namespace LocalSend.Lib.RegExp

/-- A UTF-16 code unit. -/
abbrev CodeUnit := Nat

def unit (c : Char) : CodeUnit := c.toNat

/-- A text in ASCII. -/
def units (text : String) : List CodeUnit := text.toList.map unit

/-! ## 1. Expressions -/

inductive ClassItem where
  | range (low high : CodeUnit)
  | digit (negated : Bool)
  | space (negated : Bool)
  | word (negated : Bool)
  deriving DecidableEq, Repr

inductive Node where
  | empty
  | oneOf (negated : Bool) (items : List ClassItem)
  | seq (first second : Node)
  | alt (first second : Node)
  | repeated (min : Nat) (max : Option Nat) (greedy : Bool) (body : Node)
  | capture (index : Nat) (body : Node)
  /-- looking ahead -/
  | ahead (negated : Bool) (body : Node)
  | inputStart
  | inputEnd
  | boundary (negated : Bool)
  | backReference (index : Nat)
  deriving DecidableEq, Repr

/-- One after the other. -/
def sequence (nodes : List Node) : Node := nodes.foldr .seq .empty

/-- A code unit that stands for itself. -/
def literal (c : CodeUnit) : Node := .oneOf false [.range c c]

/-- The groups that are captured. -/
def Node.groups : Node → List Nat
  | .seq first second | .alt first second => first.groups ++ second.groups
  | .repeated _ _ _ body | .ahead _ body => body.groups
  | .capture index body => index :: body.groups
  | _ => []

/-! ## 2. Matching -/

def isDigit (c : CodeUnit) : Bool := unit '0' ≤ c && c ≤ unit '9'

def isLetter (c : CodeUnit) : Bool :=
  unit 'A' ≤ c && c ≤ unit 'Z' || unit 'a' ≤ c && c ≤ unit 'z'

def isWord (c : CodeUnit) : Bool := isLetter c || isDigit c || c = unit '_'

def lineTerminators : List CodeUnit := [10, 13, 0x2028, 0x2029]

def isSpace (c : CodeUnit) : Bool :=
  c ∈ lineTerminators || c ∈ [9, 11, 12, 32, 0xA0, 0x1680, 0x202F, 0x205F, 0x3000, 0xFEFF] ||
    0x2000 ≤ c && c ≤ 0x200A

def ClassItem.contains : ClassItem → CodeUnit → Bool
  | .range low high, c => low ≤ c && c ≤ high
  | .digit negated, c => isDigit c != negated
  | .space negated, c => isSpace c != negated
  | .word negated, c => isWord c != negated

def accepts (negated : Bool) (items : List ClassItem) (c : CodeUnit) : Bool :=
  items.any (fun item => item.contains c) != negated

/-- Where the matcher stands, and what the groups have captured. -/
structure State where
  /-- the last code unit first -/
  before : List CodeUnit
  after : List CodeUnit
  captures : List (Nat × List CodeUnit)
  deriving DecidableEq, Repr

/-- A text is read. -/
def State.advance (s : State) (part : List CodeUnit) : State where
  before := part.reverse ++ s.before
  after := s.after.drop part.length
  captures := s.captures

def State.setCapture (s : State) (index : Nat) (text : List CodeUnit) : State :=
  { s with captures := (index, text) :: s.captures }

def State.clear (s : State) (indices : List Nat) : State :=
  { s with captures := s.captures.filter fun capture => capture.1 ∉ indices }

/-- What was read from one state to another. -/
def between (s t : State) : List CodeUnit :=
  (t.before.take (t.before.length - s.before.length)).reverse

/-- The rounds of a repetition, with at most so many more; once enough are made, a round that reads
    nothing does not count. -/
def iterate (body : State → List State) (greedy : Bool) :
    Nat → Nat → Option Nat → State → List State
  | 0, _, _, _ => []
  | fuel + 1, min, max, s =>
    if max = some 0 then [s]
    else
      let again := ((body s).filter fun t => 0 < min || t.after.length < s.after.length).flatMap
        (iterate body greedy fuel (min - 1) (max.map fun n => n - 1))
      if 0 < min then again else if greedy then again ++ [s] else s :: again

def atBoundary (s : State) : Bool :=
  (s.before.head?.any isWord) != (s.after.head?.any isWord)

/-- **The states an expression leads to**, in the order they are tried. -/
def run : Node → State → List State
  | .empty, s => [s]
  | .oneOf negated items, s =>
    match s.after with
    | c :: _ => if accepts negated items c then [s.advance [c]] else []
    | [] => []
  | .seq first second, s => (run first s).flatMap (run second)
  | .alt first second, s => run first s ++ run second s
  | .repeated min max greedy body, s =>
    iterate (fun t => run body (t.clear body.groups)) greedy (min + s.after.length + 1) min max s
  | .capture index body, s => (run body s).map fun t => t.setCapture index (between s t)
  | .ahead negated body, s =>
    match run body s with
    | t :: _ => if negated then [] else [{ s with captures := t.captures }]
    | [] => if negated then [s] else []
  | .inputStart, s => if s.before = [] then [s] else []
  | .inputEnd, s => if s.after = [] then [s] else []
  | .boundary negated, s => if atBoundary s != negated then [s] else []
  | .backReference index, s =>
    match s.captures.lookup index with
    | some text => if text <+: s.after then [s.advance text] else []
    | none => [s]

/-- `RegExp.hasMatch`. -/
def hasMatch (regExp : Node) (input : List CodeUnit) : Bool :=
  (List.range (input.length + 1)).any fun start =>
    !(run regExp ⟨(input.take start).reverse, input.drop start, []⟩).isEmpty

/-! ## 3. The parser -/

inductive Failure where
  /-- a `FormatException` -/
  | syntaxError
  /-- what is left out here -/
  | beyond
  deriving DecidableEq, Repr

def value (digits : List CodeUnit) : Nat :=
  digits.foldl (fun n c => 10 * n + (c - unit '0')) 0

/-- The upper bound after the comma, if there is one, and the closing brace. -/
def upperBound (min : Nat) (text : List CodeUnit) :
    Option ((Nat × Option Nat) × List CodeUnit) :=
  match text.dropWhile isDigit with
  | [] => none
  | c :: rest =>
    if c ≠ unit '}' then none
    else if text.takeWhile isDigit = [] then some ((min, none), rest)
    else some ((min, some (value (text.takeWhile isDigit))), rest)

/-- The bounds of `{n}`, `{n,}` or `{n,m}`, if one of them stands here. -/
def braces : List CodeUnit → Option ((Nat × Option Nat) × List CodeUnit)
  | [] => none
  | c :: text =>
    if c ≠ unit '{' ∨ text.takeWhile isDigit = [] then none
    else
      let min := value (text.takeWhile isDigit)
      match text.dropWhile isDigit with
      | [] => none
      | d :: rest =>
        if d = unit '}' then some ((min, some min), rest)
        else if d = unit ',' then upperBound min rest
        else none

/-- The bounds of a quantifier, if one stands here. -/
def quantifier (text : List CodeUnit) : Option ((Nat × Option Nat) × List CodeUnit) :=
  match text with
  | [] => none
  | c :: rest =>
    if c = unit '*' then some ((0, none), rest)
    else if c = unit '+' then some ((1, none), rest)
    else if c = unit '?' then some ((0, some 1), rest)
    else braces text

/-- An atom with its quantifier. -/
def quantified (atom : Node) (text : List CodeUnit) : Except Failure (Node × List CodeUnit) :=
  match quantifier text with
  | none => .ok (atom, text)
  | some ((min, max), rest) =>
    if max.any fun n => n < min then .error .syntaxError
    else if rest.head? = some (unit '?') then .ok (.repeated min max false atom, rest.tail)
    else .ok (.repeated min max true atom, rest)

def hexValue (c : CodeUnit) : Option Nat :=
  if isDigit c then some (c - unit '0')
  else if unit 'A' ≤ c ∧ c ≤ unit 'F' then some (c - unit 'A' + 10)
  else if unit 'a' ≤ c ∧ c ≤ unit 'f' then some (c - unit 'a' + 10)
  else none

/-- So many hexadecimal digits. -/
def hexCode (count : Nat) (text : List CodeUnit) : Option (CodeUnit × List CodeUnit) :=
  if text.length < count then none
  else ((text.take count).mapM hexValue).map fun values =>
    (values.foldl (fun n v => 16 * n + v) 0, text.drop count)

def isOctal (c : CodeUnit) : Bool := unit '0' ≤ c && c ≤ unit '7'

/-- Up to three octal digits, as far as they make up a byte. -/
def octalCode (first : CodeUnit) (text : List CodeUnit) : CodeUnit × List CodeUnit :=
  match text with
  | [] => (first - unit '0', [])
  | second :: rest =>
    if isOctal second then
      let code := 8 * (first - unit '0') + (second - unit '0')
      match rest with
      | [] => (code, [])
      | third :: more =>
        if first ≤ unit '3' ∧ isOctal third then (8 * code + (third - unit '0'), more)
        else (code, rest)
    else (first - unit '0', text)

/-- A code unit after a backslash. -/
def characterEscape (inClass : Bool) (c : CodeUnit) (rest : List CodeUnit) :
    CodeUnit × List CodeUnit :=
  if c = unit 't' then (9, rest)
  else if c = unit 'n' then (10, rest)
  else if c = unit 'v' then (11, rest)
  else if c = unit 'f' then (12, rest)
  else if c = unit 'r' then (13, rest)
  else if c = unit 'c' then
    match rest with
    | letter :: more =>
      if isLetter letter || inClass && isWord letter then (letter % 32, more)
      else (unit '\\', c :: rest)
    | [] => (unit '\\', c :: rest)
  else if c = unit 'x' then (hexCode 2 rest).getD (c, rest)
  else if c = unit 'u' then (hexCode 4 rest).getD (c, rest)
  else if isOctal c then octalCode c rest
  else (c, rest)

def classEscape (c : CodeUnit) : Option ClassItem :=
  if c = unit 'd' then some (.digit false)
  else if c = unit 'D' then some (.digit true)
  else if c = unit 's' then some (.space false)
  else if c = unit 'S' then some (.space true)
  else if c = unit 'w' then some (.word false)
  else if c = unit 'W' then some (.word true)
  else none

def classAtom : List CodeUnit → Except Failure (ClassItem × List CodeUnit)
  | [] => .error .syntaxError
  | c :: rest =>
    if c ≠ unit '\\' then .ok (.range c c, rest)
    else
      match rest with
      | [] => .error .syntaxError
      | e :: more =>
        match classEscape e with
        | some item => .ok (item, more)
        | none =>
          if e = unit 'b' then .ok (.range 8 8, more)
          else
            let (escaped, more) := characterEscape true e more
            .ok (.range escaped escaped, more)

/-- The items for two atoms with a hyphen between. -/
def classRange : ClassItem → ClassItem → Except Failure (List ClassItem)
  | .range low _, .range _ high =>
    if low ≤ high then .ok [.range low high] else .error .syntaxError
  | first, last => .ok [first, .range (unit '-') (unit '-'), last]

/-- The items of a class up to its end. -/
def classItems : Nat → List CodeUnit → Except Failure (List ClassItem × List CodeUnit)
  | 0, _ => .error .syntaxError
  | fuel + 1, text =>
    if text.head? = some (unit ']') then .ok ([], text.tail)
    else do
      let (first, rest) ← classAtom text
      if rest.head? = some (unit '-') ∧ rest.tail.head? ≠ some (unit ']') then
        let (last, rest) ← classAtom rest.tail
        let range ← classRange first last
        let (items, rest) ← classItems fuel rest
        return (range ++ items, rest)
      else
        let (items, rest) ← classItems fuel rest
        return (first :: items, rest)

/-- A class after its bracket. -/
def characterClass (text : List CodeUnit) : Except Failure (Node × List CodeUnit) := do
  let negated : Bool := text.head? = some (unit '^')
  let (items, rest) ← classItems (text.length + 1) (if negated then text.tail else text)
  return (.oneOf negated items, rest)

/-- An escape after its backslash, in an expression with so many groups. -/
def atomEscape (groups : Nat) : List CodeUnit → Except Failure (Node × List CodeUnit)
  | [] => .error .syntaxError
  | c :: rest =>
    match classEscape c with
    | some item => .ok (.oneOf false [item], rest)
    | none =>
      let index := value ((c :: rest).takeWhile isDigit)
      if isDigit c = true ∧ c ≠ unit '0' ∧ index ≤ groups then
        .ok (.backReference index, rest.dropWhile isDigit)
      else
        let (escaped, rest) := characterEscape false c rest
        .ok (literal escaped, rest)

def atom (groups : Nat) (c : CodeUnit) (rest : List CodeUnit) :
    Except Failure (Node × List CodeUnit) :=
  if c = unit '.' then .ok (.oneOf true (lineTerminators.map fun c => .range c c), rest)
  else if c = unit '[' then characterClass rest
  else if c = unit '\\' then atomEscape groups rest
  -- A quantifier with nothing in front of it.
  else if (quantifier (c :: rest)).isSome then .error .syntaxError
  else .ok (literal c, rest)

/-- A node with the number of groups opened so far and what is left to read. -/
abbrev Opened := Except Failure (Node × Nat × List CodeUnit)

section Groups

variable (groups : Nat) (inner : Nat → List CodeUnit → Opened)

/-- The inside of a group, its closing bracket, and a quantifier. -/
def closed (wrap : Node → Node) (opened : Nat) (text : List CodeUnit) : Opened := do
  let (body, opened, rest) ← inner opened text
  if rest.head? = some (unit ')') then
    let (node, rest) ← quantified (wrap body) rest.tail
    return (node, opened, rest)
  else .error .syntaxError

/-- A group after its bracket. -/
def group (opened : Nat) (text : List CodeUnit) : Opened :=
  if text.head? ≠ some (unit '?') then closed inner (.capture (opened + 1)) (opened + 1) text
  else
    match text.tail with
    | [] => .error .syntaxError
    | kind :: rest =>
      if kind = unit ':' then closed inner id opened rest
      else if kind = unit '=' then closed inner (.ahead false) opened rest
      else if kind = unit '!' then closed inner (.ahead true) opened rest
      else if kind = unit '<' then .error .beyond
      else .error .syntaxError

def term (opened : Nat) (c : CodeUnit) (rest : List CodeUnit) : Opened :=
  if c = unit '^' then .ok (.inputStart, opened, rest)
  else if c = unit '$' then .ok (.inputEnd, opened, rest)
  else if c = unit '(' then group inner opened rest
  else if c = unit '\\' ∧ rest.head? = some (unit 'b') then
    .ok (.boundary false, opened, rest.tail)
  else if c = unit '\\' ∧ rest.head? = some (unit 'B') then
    .ok (.boundary true, opened, rest.tail)
  else do
    let (node, rest) ← atom groups c rest
    let (node, rest) ← quantified node rest
    return (node, opened, rest)

/-- The terms up to a bar, a closing bracket or the end. -/
def alternative : Nat → Nat → List CodeUnit → Opened
  | 0, _, _ => .error .syntaxError
  | _ + 1, opened, [] => .ok (.empty, opened, [])
  | fuel + 1, opened, c :: rest =>
    if c = unit '|' ∨ c = unit ')' then .ok (.empty, opened, c :: rest)
    else do
      let (first, opened, rest) ← term groups inner opened c rest
      let (second, opened, rest) ← alternative fuel opened rest
      return (.seq first second, opened, rest)

end Groups

/-- The alternatives up to a closing bracket or the end. -/
def disjunction (groups : Nat) : Nat → Nat → List CodeUnit → Opened
  | 0, _, _ => .error .syntaxError
  | depth + 1, opened, text => do
    let (first, opened, rest) ←
      alternative groups (disjunction groups depth) (text.length + 1) opened text
    if rest.head? = some (unit '|') then
      let (second, opened, rest) ← disjunction groups depth opened rest.tail
      return (.alt first second, opened, rest)
    else return (first, opened, rest)

/-- The number of groups that are captured. -/
def countGroups (inClass : Bool) : List CodeUnit → Nat
  | [] => 0
  | [c] => if c = unit '(' ∧ inClass = false then 1 else 0
  | c :: d :: rest =>
    if c = unit '\\' then countGroups inClass rest
    else if inClass then countGroups (c ≠ unit ']') (d :: rest)
    else if c = unit '[' then countGroups true (d :: rest)
    else if c = unit '(' ∧ d ≠ unit '?' then countGroups false (d :: rest) + 1
    else countGroups false (d :: rest)

/-- **`RegExp(source)`**; a closing bracket too many is an error. -/
def compile (source : List CodeUnit) : Except Failure Node := do
  let (node, _, rest) ←
    disjunction (countGroups false source) (source.length + 1) 0 source
  if rest = [] then return node else .error .syntaxError

/-! ## 4. What an expression reads -/

/-- **The expression only reads on**: it leads to the states after the texts of a language. -/
def Reads (node : Node) (language : List CodeUnit → Prop) : Prop :=
  ∀ s t, t ∈ run node s ↔ ∃ part rest, s.after = part ++ rest ∧ language part ∧ t = s.advance part

/-- **The expression reads up to the end**, if what is left is in the language. -/
def Ends (node : Node) (language : List CodeUnit → Prop) : Prop :=
  ∀ s, run node s ≠ [] ↔ language s.after

variable {a b : Node} {L M : List CodeUnit → Prop} {negated : Bool} {items : List ClassItem}
  {s t : State}

@[simp] theorem State.advance_nil (s : State) : s.advance [] = s := rfl

theorem State.advance_append (s : State) (x y : List CodeUnit) :
    (s.advance x).advance y = s.advance (x ++ y) := by
  simp [State.advance]

theorem State.advance_after {part rest : List CodeUnit} (h : s.after = part ++ rest) :
    (s.advance part).after = rest := by
  rw [State.advance, h, List.drop_left]

theorem reads_oneOf (negated : Bool) (items : List ClassItem) :
    Reads (.oneOf negated items) fun part => ∃ c, part = [c] ∧ accepts negated items c = true := by
  intro s t
  cases hafter : s.after with
  | nil =>
      simp only [run, hafter, List.not_mem_nil, false_iff]
      intro hparts
      obtain ⟨_, rest, hsplit, ⟨c, rfl, -⟩, -⟩ := hparts
      cases hsplit
  | cons c rest =>
      simp only [run, hafter]
      constructor
      · intro h
        split at h
        · rename_i haccepts
          exact ⟨[c], rest, rfl, ⟨c, rfl, haccepts⟩, List.mem_singleton.mp h⟩
        · cases h
      · intro hparts
        obtain ⟨_, rest, hsplit, ⟨d, rfl, haccepts⟩, rfl⟩ := hparts
        obtain ⟨rfl, -⟩ := List.cons.inj hsplit
        rw [if_pos haccepts]
        exact List.mem_singleton_self _

theorem reads_literal (c : CodeUnit) : Reads (literal c) fun part => part = [c] := by
  intro s t
  rw [literal, reads_oneOf false [.range c c] s t]
  have haccepts : ∀ d, accepts false [.range c c] d = true ↔ d = c := by
    intro d
    simp [accepts, ClassItem.contains, Nat.le_antisymm_iff, and_comm]
  simp only [haccepts, exists_eq_right]

theorem State.clear_nil (s : State) : s.clear [] = s := by
  simp [State.clear]

/-- The rounds of a class: as many as there are code units it accepts. -/
theorem mem_iterate_oneOf {fuel min : Nat} (hmin : min ≤ 1) (hfuel : s.after.length + min < fuel) :
    t ∈ iterate (fun t => run (.oneOf negated items) (t.clear [])) true fuel min none s ↔
      ∃ part rest, s.after = part ++ rest ∧
        (min ≤ part.length ∧ ∀ c ∈ part, accepts negated items c = true) ∧ t = s.advance part := by
  induction fuel generalizing s min with
  | zero => exact absurd hfuel (Nat.not_lt_zero _)
  | succ fuel ih =>
      -- The states after one round and more.
      have hagain : t ∈ ((run (.oneOf negated items) (s.clear [])).filter fun t =>
            0 < min || t.after.length < s.after.length).flatMap
          (iterate (fun t => run (.oneOf negated items) (t.clear [])) true fuel (min - 1) none) ↔
          ∃ part rest, s.after = part ++ rest ∧
            (1 ≤ part.length ∧ ∀ c ∈ part, accepts negated items c = true) ∧
            t = s.advance part := by
        rw [s.clear_nil, List.mem_flatMap]
        constructor
        · intro hparts
          obtain ⟨m, hm, ht⟩ := hparts
          obtain ⟨_, rest, hsplit, ⟨c, rfl, hc⟩, rfl⟩ :=
            (reads_oneOf negated items s m).mp (List.mem_filter.mp hm).1
          have hafter := State.advance_after hsplit
          have hlength := congrArg List.length hsplit
          simp only [List.length_append, List.length_singleton] at hlength
          have hmore : (s.advance [c]).after.length + (min - 1) < fuel := by
            rw [hafter]
            omega
          obtain ⟨part, rest', hsplit', ⟨-, hall⟩, rfl⟩ := (ih (by omega) hmore).mp ht
          refine ⟨c :: part, rest', ?_, ⟨by simp, ?_⟩, ?_⟩
          · rw [hsplit, ← hafter, hsplit']
            rfl
          · exact List.forall_mem_cons.mpr ⟨hc, hall⟩
          · rw [State.advance_append]
            rfl
        · intro hparts
          obtain ⟨part, rest, hsplit, ⟨hlen, hall⟩, rfl⟩ := hparts
          cases part with
          | nil => cases hlen
          | cons c part =>
              have hfirst : s.after = [c] ++ (part ++ rest) := hsplit
              have hafter := State.advance_after hfirst
              have hlength := congrArg List.length hfirst
              simp only [List.length_append, List.length_singleton] at hlength
              have hmore : (s.advance [c]).after.length + (min - 1) < fuel := by
                rw [hafter, List.length_append]
                omega
              obtain ⟨hc, hrest⟩ := List.forall_mem_cons.mp hall
              refine ⟨s.advance [c], List.mem_filter.mpr ⟨?_, ?_⟩, ?_⟩
              · exact (reads_oneOf negated items s _).mpr
                  ⟨[c], part ++ rest, hfirst, ⟨c, rfl, hc⟩, rfl⟩
              · have hshorter : (s.advance [c]).after.length < s.after.length := by
                  rw [hafter, List.length_append]
                  omega
                simp [hshorter]
              · exact (ih (by omega) hmore).mpr ⟨part, rest, hafter, ⟨by omega, hrest⟩,
                  by rw [State.advance_append]; rfl⟩
      rw [iterate, if_neg (by simp), Option.map_none]
      by_cases hpos : 0 < min
      · obtain rfl : min = 1 := by omega
        rw [if_pos hpos]
        exact hagain
      · obtain rfl : min = 0 := by omega
        rw [if_neg hpos, if_pos rfl, List.mem_append, hagain]
        constructor
        · rintro (⟨part, rest, hsplit, ⟨-, hall⟩, ht⟩ | hstop)
          · exact ⟨part, rest, hsplit, ⟨by omega, hall⟩, ht⟩
          · exact ⟨[], s.after, rfl, ⟨by simp, by simp⟩, List.mem_singleton.mp hstop⟩
        · intro hparts
          obtain ⟨part, rest, hsplit, ⟨-, hall⟩, ht⟩ := hparts
          cases part with
          | nil => exact Or.inr (List.mem_singleton.mpr ht)
          | cons c part => exact Or.inl ⟨c :: part, rest, hsplit, ⟨by simp, hall⟩, ht⟩

/-- **One or more code units of a class.** -/
theorem reads_plus (negated : Bool) (items : List ClassItem) :
    Reads (.repeated 1 none true (.oneOf negated items)) fun part =>
      1 ≤ part.length ∧ ∀ c ∈ part, accepts negated items c = true := by
  intro s t
  have hfuel : s.after.length + 1 < 1 + s.after.length + 1 := by omega
  exact mem_iterate_oneOf (Nat.le_refl 1) hfuel

/-! ### Up to the end -/

theorem ends_inputEnd : Ends (.seq .inputEnd .empty) fun text => text = [] := by
  intro s
  by_cases h : s.after = [] <;> simp [run, h]

/-- What is read first, and then up to the end. -/
theorem ends_seq (ha : Reads a L) (hb : Ends b M) :
    Ends (.seq a b) fun text => ∃ part rest, text = part ++ rest ∧ L part ∧ M rest := by
  intro s
  rw [run, ne_eq, List.flatMap_eq_nil_iff, Classical.not_forall]
  constructor
  · intro hparts
    obtain ⟨m, hm⟩ := hparts
    obtain ⟨hmem, hrest⟩ := Classical.not_imp.mp hm
    obtain ⟨part, rest, hsplit, hpart, rfl⟩ := (ha s m).mp hmem
    refine ⟨part, rest, hsplit, hpart, ?_⟩
    rw [← State.advance_after hsplit]
    exact (hb _).mp hrest
  · intro hparts
    obtain ⟨part, rest, hsplit, hpart, hrest⟩ := hparts
    refine ⟨s.advance part, Classical.not_imp.mpr ⟨(ha s _).mpr ⟨part, rest, hsplit, hpart, rfl⟩, ?_⟩⟩
    apply (hb _).mpr
    rw [State.advance_after hsplit]
    exact hrest

/-- **An expression after `^` that reads up to the end** matches the whole text or nothing. -/
theorem hasMatch_anchored (h : Ends a L) (input : List CodeUnit) :
    hasMatch (.seq .inputStart a) input = true ↔ L input := by
  have hstart : ∀ s : State, run (.seq .inputStart a) s ≠ [] ↔ s.before = [] ∧ L s.after := by
    intro s
    rw [← h s]
    by_cases hbefore : s.before = [] <;> simp [run, hbefore]
  simp only [hasMatch, List.any_eq_true, List.mem_range, Bool.not_eq_true', List.isEmpty_eq_false_iff,
    hstart]
  constructor
  · intro hparts
    obtain ⟨start, hlt, hbefore, hrest⟩ := hparts
    have hnone : input.take start = [] := List.reverse_eq_nil_iff.mp hbefore
    have hall := List.take_append_drop start input
    rw [hnone, List.nil_append] at hall
    rwa [← hall]
  · intro hinput
    exact ⟨0, Nat.zero_lt_succ _, rfl, hinput⟩

/-! ## 5. Terms -/

/-- The code units with a meaning of their own, braces apart. -/
def syntaxUnits : List CodeUnit := units "^$\\.*+?()[|"

section Terms

variable {groups : Nat} {inner : Nat → List CodeUnit → Opened} {opened opened' fuel : Nat}
  {c : CodeUnit} {rest rest' : List CodeUnit} {node : Node}

theorem quantified_none (h : quantifier rest = none) (node : Node) :
    quantified node rest = .ok (node, rest) := by
  rw [quantified, h]

theorem quantified_plus (h : rest.head? ≠ some (unit '?')) (node : Node) :
    quantified node (unit '+' :: rest) = .ok (.repeated 1 none true node, rest) := by
  have hplus : quantifier (unit '+' :: rest) = some ((1, none), rest) := by
    rw [quantifier, if_neg (by decide), if_pos rfl]
  rw [quantified, hplus]
  simp only [Option.any_none, Bool.false_eq_true, if_false, if_neg h]

/-- An atom that is not an assertion, with its quantifier. -/
theorem term_atom (hstart : c ≠ unit '^') (hend : c ≠ unit '$') (hgroup : c ≠ unit '(')
    (hb : c = unit '\\' → rest.head? ≠ some (unit 'b'))
    (hB : c = unit '\\' → rest.head? ≠ some (unit 'B')) (hatom : atom groups c rest = .ok (a, rest'))
    {rest'' : List CodeUnit} (hquantified : quantified a rest' = .ok (b, rest'')) :
    term groups inner opened c rest = .ok (b, opened, rest'') := by
  rw [term, if_neg hstart, if_neg hend, if_neg hgroup, if_neg fun h => hb h.1 h.2,
    if_neg fun h => hB h.1 h.2, hatom]
  simp only [bind, Except.bind, hquantified, pure, Except.pure]

/-- **A code unit without a meaning** stands for itself. -/
theorem term_literal (hplain : c ∉ syntaxUnits) (hbraces : braces (c :: rest) = none)
    (hrest : quantifier rest = none) :
    term groups inner opened c rest = .ok (literal c, opened, rest) := by
  have hne : ∀ d ∈ syntaxUnits, c ≠ d := fun d hd hcd => hplain (hcd ▸ hd)
  have hescape : c ≠ unit '\\' := hne _ (by decide)
  have hnone : quantifier (c :: rest) = none := by
    rw [quantifier, if_neg (hne _ (by decide)), if_neg (hne _ (by decide)),
      if_neg (hne _ (by decide))]
    exact hbraces
  have hatom : atom groups c rest = .ok (literal c, rest) := by
    rw [atom, if_neg (hne _ (by decide)), if_neg (hne _ (by decide)), if_neg hescape, hnone]
    rfl
  exact term_atom (hne _ (by decide)) (hne _ (by decide)) (hne _ (by decide))
    (fun h => absurd h hescape) (fun h => absurd h hescape) hatom (quantified_none hrest _)

theorem alternative_cons (hbar : c ≠ unit '|') (hclose : c ≠ unit ')')
    (hterm : term groups inner opened c rest = .ok (a, opened', rest'))
    {opened'' : Nat} {rest'' : List CodeUnit}
    (hmore : alternative groups inner fuel opened' rest' = .ok (b, opened'', rest'')) :
    alternative groups inner (fuel + 1) opened (c :: rest) = .ok (.seq a b, opened'', rest'') := by
  rw [alternative, if_neg (by simp [hbar, hclose]), hterm]
  simp only [bind, Except.bind, hmore, pure, Except.pure]

/-- An expression of one alternative. -/
theorem compile_of_alternative {source : List CodeUnit}
    (h : ∀ inner fuel, source.length < fuel →
      alternative (countGroups false source) inner fuel 0 source = .ok (node, opened, [])) :
    compile source = .ok node := by
  have hdisjunction : disjunction (countGroups false source) (source.length + 1) 0 source =
      .ok (node, opened, []) := by
    rw [disjunction, h _ _ (Nat.lt_succ_self _)]
    rfl
  rw [compile, hdisjunction]
  rfl

end Terms

end LocalSend.Lib.RegExp
