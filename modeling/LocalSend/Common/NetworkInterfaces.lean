/-
  File:      LocalSend/Common/NetworkInterfaces.lean
  Subject:   IP FILTERS (`common/lib/util/network_interfaces.dart`).

  A filter is made a regular expression by writing `\.` for a dot and `[^.]+` for a star; whatever
  else means something in a regular expression goes in as it is.

  * `buildRegExpFromIpFilter`, `isNetworkIgnored`, `isNetworkIgnoredRaw`, `getNetworkInterfaces`;
  * `Instance` -- an address a filter stands for; `MeansWhatItSays`;
  * `Plain` -- a filter with nothing that means something in a regular expression;
  * `alternative_text`, `ends_text` -- the parser reads such a filter as it is meant, and what it
    reads is an instance;
  * **`plain_filters`** -- filters of this kind mean what they say, alone and in lists.

  A single bracket makes a whole list throw (`bracket_throws`).
-/
import LocalSend.Lib.RegExp
import Mathlib.Data.List.Infix

namespace LocalSend.NetworkInterfaces

open Lib.RegExp

/-! ## 1. The filters -/

/-- `String.replaceAll` of a code unit. -/
def replaceAll (text : List CodeUnit) (c : CodeUnit) (replacement : List CodeUnit) :
    List CodeUnit :=
  text.flatMap fun d => if d = c then replacement else [d]

def buildRegExpFromIpFilter (ip : List CodeUnit) : Except Failure Node :=
  compile (units "^" ++ replaceAll (replaceAll ip (unit '.') (units "\\.")) (unit '*')
    (units "[^.]+") ++ units "$")

def isNetworkIgnored (networkWhitelist networkBlacklist : Option (List Node))
    (interface : List (List CodeUnit)) : Bool :=
  if networkWhitelist.any fun whitelist =>
      !interface.any fun a => whitelist.any fun w => hasMatch w a then true
  else if networkBlacklist.any fun blacklist =>
      interface.any fun a => blacklist.any fun b => hasMatch b a then true
  else false

/-- The expressions of a list of filters, if there is one. -/
def digested (filters : Option (List (List CodeUnit))) : Except Failure (Option (List Node)) :=
  filters.mapM fun filters => filters.mapM buildRegExpFromIpFilter

def isNetworkIgnoredRaw (networkWhitelist networkBlacklist : Option (List (List CodeUnit)))
    (interface : List (List CodeUnit)) : Except Failure Bool := do
  return isNetworkIgnored (← digested networkWhitelist) (← digested networkBlacklist) interface

/-- The interfaces of the system, each with its addresses, that are not ignored. -/
def getNetworkInterfaces (whitelist blacklist : Option (List (List CodeUnit)))
    (interfaces : List (List (List CodeUnit))) : Except Failure (List (List (List CodeUnit))) := do
  let digestedWhitelist ← digested whitelist
  let digestedBlacklist ← digested blacklist
  return interfaces.filter fun interface =>
    !isNetworkIgnored digestedWhitelist digestedBlacklist interface

/-! ## 2. What they mean -/

/-- What may stand for a code unit of a filter. -/
def StandsFor (part : List CodeUnit) (c : CodeUnit) : Prop :=
  if c = unit '*' then part ≠ [] ∧ unit '.' ∉ part else part = [c]

/-- **An address of a filter**: one or more code units other than a dot for each star, every other
    one as it is. -/
def Instance : List CodeUnit → List CodeUnit → Prop
  | [], a => a = []
  | c :: f, a => ∃ part rest, a = part ++ rest ∧ StandsFor part c ∧ Instance f rest

/-- **The filter means what it says.** -/
def MeansWhatItSays (f : List CodeUnit) : Prop :=
  ∃ regExp, buildRegExpFromIpFilter f = .ok regExp ∧
    ∀ a, hasMatch regExp a = true ↔ Instance f a

/-- **The interface is ignored**: none of its addresses is one of the whitelist, or one of them is one
    of the blacklist. -/
def Ignored (whitelist blacklist : Option (List (List CodeUnit)))
    (interface : List (List CodeUnit)) : Prop :=
  (∃ filters, whitelist = some filters ∧ ∀ a ∈ interface, ∀ f ∈ filters, ¬ Instance f a) ∨
    ∃ filters, blacklist = some filters ∧ ∃ a ∈ interface, ∃ f ∈ filters, Instance f a

/-- What means something in a regular expression, the dot and the star apart. -/
def meaningful : List CodeUnit := units "^$\\+?()[|"

/-- **Nothing in the filter means something else**: no such code unit, and no braces with numbers. -/
def Plain (f : List CodeUnit) : Prop :=
  (∀ c ∈ f, c ∉ meaningful) ∧ ∀ rest ∈ f.tails, braces rest = none

instance (f : List CodeUnit) : Decidable (Plain f) := inferInstanceAs (Decidable (_ ∧ _))

/-! ## 3. The expression -/

/-- What a code unit of a filter is written as. -/
def written (c : CodeUnit) : List CodeUnit :=
  if c = unit '.' then units "\\." else if c = unit '*' then units "[^.]+" else [c]

/-- What stands after the `^`. -/
def textOf (f : List CodeUnit) : List CodeUnit := f.flatMap written ++ units "$"

/-- What it is read as. -/
def nodeOf (c : CodeUnit) : Node :=
  if c = unit '*' then .repeated 1 none true (.oneOf true [.range (unit '.') (unit '.')])
  else literal c

def nodesOf (f : List CodeUnit) : Node := sequence (f.map nodeOf ++ [.inputEnd])

variable {c : CodeUnit} {f : List CodeUnit}

theorem source_eq (f : List CodeUnit) : buildRegExpFromIpFilter f = compile (unit '^' :: textOf f) := by
  have hwritten : ∀ c, (if c = unit '.' then units "\\." else [c]).flatMap
      (fun d => if d = unit '*' then units "[^.]+" else [d]) = written c := by
    intro c
    by_cases hdot : c = unit '.'
    · rw [written, if_pos hdot, if_pos hdot]
      decide
    · rw [written, if_neg hdot, if_neg hdot, List.flatMap_singleton]
  have hboth : replaceAll (replaceAll f (unit '.') (units "\\.")) (unit '*') (units "[^.]+") =
      f.flatMap written := by
    rw [replaceAll, replaceAll, List.flatMap_assoc]
    exact List.flatMap_congr fun c _ => hwritten c
  rw [buildRegExpFromIpFilter, hboth]
  rfl

theorem Plain.tail (h : Plain (c :: f)) : Plain f := by
  refine ⟨fun d hd => h.1 d (List.mem_cons_of_mem _ hd), fun rest hrest => h.2 rest ?_⟩
  rw [List.mem_tails] at hrest ⊢
  exact hrest.trans (List.suffix_cons c f)

theorem Plain.head_braces (h : Plain (c :: f)) : braces (c :: f) = none :=
  h.2 _ ((List.mem_tails _ _).mpr (List.suffix_refl _))

theorem written_literal (hdot : c ≠ unit '.') (hstar : c ≠ unit '*') : written c = [c] := by
  rw [written, if_neg hdot, if_neg hstar]

theorem textOf_cons (c : CodeUnit) (f : List CodeUnit) : textOf (c :: f) = written c ++ textOf f := by
  rw [textOf, List.flatMap_cons, List.append_assoc, textOf]

/-- How the text for a filter begins: as the filter does, or with what an escape or a class begins
    with. -/
theorem textOf_head (c : CodeUnit) (f : List CodeUnit) : ∃ d rest, textOf (c :: f) = d :: rest ∧
    ((d = c ∧ rest = textOf f ∧ c ≠ unit '.' ∧ c ≠ unit '*') ∨ d = unit '\\' ∨ d = unit '[') := by
  rw [textOf_cons]
  by_cases hdot : c = unit '.'
  · rw [written, if_pos hdot]
    exact ⟨_, _, rfl, Or.inr (Or.inl rfl)⟩
  · by_cases hstar : c = unit '*'
    · rw [written, if_neg hdot, if_pos hstar]
      exact ⟨_, _, rfl, Or.inr (Or.inr rfl)⟩
    · rw [written_literal hdot hstar]
      exact ⟨c, textOf f, rfl, Or.inl ⟨rfl, rfl, hdot, hstar⟩⟩

/-- Digits are written as they are, and nothing else is written as digits. -/
theorem digits_textOf (f : List CodeUnit) :
    (textOf f).takeWhile isDigit = f.takeWhile isDigit ∧
      (textOf f).dropWhile isDigit = textOf (f.dropWhile isDigit) := by
  induction f with
  | nil => decide
  | cons c f ih =>
      by_cases hdigit : isDigit c = true
      · have hdot : c ≠ unit '.' := by
          rintro rfl
          revert hdigit
          decide
        have hstar : c ≠ unit '*' := by
          rintro rfl
          revert hdigit
          decide
        rw [textOf_cons, written_literal hdot hstar, List.singleton_append,
          List.takeWhile_cons_of_pos hdigit, List.takeWhile_cons_of_pos hdigit,
          List.dropWhile_cons_of_pos hdigit, List.dropWhile_cons_of_pos hdigit, ih.1, ih.2]
        exact ⟨rfl, rfl⟩
      · rw [List.takeWhile_cons_of_neg hdigit, List.dropWhile_cons_of_neg hdigit]
        obtain ⟨d, rest, htext, hd⟩ := textOf_head c f
        have hother : ¬ isDigit d = true := by
          rcases hd with ⟨rfl, -⟩ | rfl | rfl
          · exact hdigit
          · decide
          · decide
        rw [htext, List.takeWhile_cons_of_neg hother, List.dropWhile_cons_of_neg hother]
        exact ⟨rfl, rfl⟩

theorem upperBound_textOf {min : Nat} (h : upperBound min f = none) :
    upperBound min (textOf f) = none := by
  obtain ⟨htake, hdrop⟩ := digits_textOf f
  rw [upperBound] at h ⊢
  rw [htake, hdrop]
  cases hrest : f.dropWhile isDigit with
  | nil => rfl
  | cons c rest =>
      rw [hrest] at h
      have hopen : c ≠ unit '}' := by
        rintro rfl
        simp only [ne_eq, not_true_eq_false, if_false] at h
        split at h <;> cases h
      obtain ⟨d, more, htext, hd⟩ := textOf_head c rest
      have hother : d ≠ unit '}' := by
        rcases hd with ⟨rfl, -⟩ | rfl | rfl
        · exact hopen
        · decide
        · decide
      simp only [htext, if_pos hother]

/-- Braces are a quantifier in the text only if they are one in the filter. -/
theorem braces_textOf (h : braces (unit '{' :: f) = none) :
    braces (unit '{' :: textOf f) = none := by
  obtain ⟨htake, hdrop⟩ := digits_textOf f
  rw [braces] at h ⊢
  rw [htake, hdrop]
  by_cases hdigits : f.takeWhile isDigit = []
  · rw [if_pos (Or.inr hdigits)]
  · have hboth : ¬ (unit '{' ≠ unit '{' ∨ f.takeWhile isDigit = []) := by simp [hdigits]
    rw [if_neg hboth] at h ⊢
    cases hrest : f.dropWhile isDigit with
    | nil => rfl
    | cons c rest =>
        rw [hrest] at h
        have hopen : c ≠ unit '}' := by
          rintro rfl
          simp only [if_true] at h
          cases h
        simp only [if_neg hopen] at h
        obtain ⟨d, more, htext, hd⟩ := textOf_head c rest
        rcases hd with ⟨rfl, rfl, -⟩ | rfl | rfl
        · simp only [htext, if_neg hopen]
          split
          · rename_i hcomma
            rw [if_pos hcomma] at h
            exact upperBound_textOf h
          · rfl
        · simp only [htext]
          rfl
        · simp only [htext]
          rfl

/-- Other code units begin no braces. -/
theorem braces_of_ne (hc : c ≠ unit '{') (rest : List CodeUnit) : braces (c :: rest) = none := by
  rw [braces, if_pos (Or.inl hc)]

theorem Plain.braces_text (h : Plain (c :: f)) : braces (c :: textOf f) = none := by
  by_cases hc : c = unit '{'
  · subst hc
    exact braces_textOf h.head_braces
  · exact braces_of_ne hc _

theorem Plain.ne {d : CodeUnit} (h : Plain (c :: f)) (hd : d ∈ meaningful) : c ≠ d := by
  rintro rfl
  exact h.1 c (by simp) hd

/-- **No quantifier** stands in front of the text of a plain filter. -/
theorem quantifier_textOf (h : Plain f) : quantifier (textOf f) = none := by
  cases f with
  | nil => decide
  | cons c f =>
      obtain ⟨d, rest, htext, hd⟩ := textOf_head c f
      rw [htext]
      rcases hd with ⟨rfl, rfl, -, hstar⟩ | rfl | rfl
      · rw [quantifier, if_neg hstar, if_neg (h.ne (by decide)), if_neg (h.ne (by decide))]
        exact h.braces_text
      · rw [quantifier, if_neg (by decide), if_neg (by decide), if_neg (by decide)]
        exact braces_of_ne (by decide) rest
      · rw [quantifier, if_neg (by decide), if_neg (by decide), if_neg (by decide)]
        exact braces_of_ne (by decide) rest

theorem head_textOf (h : Plain f) : (textOf f).head? ≠ some (unit '?') := by
  cases f with
  | nil => decide
  | cons c f =>
      obtain ⟨d, rest, htext, hd⟩ := textOf_head c f
      rw [htext, List.head?_cons, ne_eq, Option.some_inj]
      rcases hd with ⟨rfl, -⟩ | rfl | rfl
      · exact h.ne (by decide)
      · decide
      · decide

/-! ## 4. The parser reads it as it is meant -/

section Parser

variable {groups opened fuel : Nat} {inner : Nat → List CodeUnit → Opened}

/-- A dot is written as an escape, and read as a dot. -/
theorem term_dot (h : Plain f) : term groups inner opened (unit '\\') (unit '.' :: textOf f) =
    .ok (literal (unit '.'), opened, textOf f) := by
  have hatom : atom groups (unit '\\') (unit '.' :: textOf f) =
      .ok (literal (unit '.'), textOf f) := rfl
  exact term_atom (by decide) (by decide) (by decide) (fun _ => by simp [unit])
    (fun _ => by simp [unit]) hatom (quantified_none (quantifier_textOf h) _)

/-- A star is written as a class, and read as one or more of it. -/
theorem term_star (h : Plain f) : term groups inner opened (unit '[') (units "^.]+" ++ textOf f) =
    .ok (nodeOf (unit '*'), opened, textOf f) := by
  have hatom : atom groups (unit '[') (units "^.]+" ++ textOf f) =
      .ok (.oneOf true [.range (unit '.') (unit '.')], unit '+' :: textOf f) := rfl
  exact term_atom (by decide) (by decide) (by decide) (fun h => absurd h (by decide))
    (fun h => absurd h (by decide)) hatom (quantified_plus (head_textOf h) _)

/-- **The expression of a plain filter.** -/
theorem alternative_text (h : Plain f) (hfuel : (textOf f).length < fuel) :
    alternative groups inner fuel opened (textOf f) = .ok (nodesOf f, opened, []) := by
  induction f generalizing fuel with
  | nil =>
      obtain ⟨fuel, rfl⟩ : ∃ n, fuel = n + 2 := ⟨fuel - 2, by
        have hlength : (textOf []).length = 1 := rfl
        omega⟩
      rfl
  | cons c f ih =>
      have hnode : nodesOf (c :: f) = .seq (nodeOf c) (nodesOf f) := rfl
      obtain ⟨fuel, rfl⟩ : ∃ n, fuel = n + 1 := ⟨fuel - 1, by omega⟩
      rw [textOf_cons, List.length_append] at hfuel
      rw [textOf_cons, hnode]
      by_cases hdot : c = unit '.'
      · subst hdot
        have hlength : (written (unit '.')).length = 2 := rfl
        exact alternative_cons (by decide) (by decide) (term_dot h.tail) (ih h.tail (by omega))
      · by_cases hstar : c = unit '*'
        · subst hstar
          have hlength : (written (unit '*')).length = 5 := rfl
          exact alternative_cons (by decide) (by decide) (term_star h.tail) (ih h.tail (by omega))
        · rw [written_literal hdot hstar] at hfuel ⊢
          have hplain : c ∉ syntaxUnits := by
            intro hc
            have hcases : c = unit '.' ∨ c = unit '*' ∨ c ∈ meaningful := by
              revert hc
              simp only [syntaxUnits, meaningful, units]
              simp
              tauto
            rcases hcases with hc | hc | hc
            · exact hdot hc
            · exact hstar hc
            · exact h.1 c (by simp) hc
          have hliteral : nodeOf c = literal c := if_neg hstar
          rw [hliteral]
          rw [List.length_singleton] at hfuel
          exact alternative_cons (h.ne (by decide)) (h.ne (by decide))
            (term_literal hplain h.braces_text (quantifier_textOf h.tail)) (ih h.tail (by omega))

end Parser

/-- A plain filter is an expression. -/
theorem build_plain (h : Plain f) :
    buildRegExpFromIpFilter f = .ok (.seq .inputStart (nodesOf f)) := by
  have hall : ∀ inner fuel, (unit '^' :: textOf f).length < fuel →
      alternative (countGroups false (unit '^' :: textOf f)) inner fuel 0 (unit '^' :: textOf f) =
        .ok (.seq .inputStart (nodesOf f), 0, []) := by
    intro inner fuel hfuel
    obtain ⟨fuel, rfl⟩ : ∃ n, fuel = n + 1 := ⟨fuel - 1, by omega⟩
    rw [List.length_cons] at hfuel
    exact alternative_cons (by decide) (by decide) rfl (alternative_text h (by omega))
  rw [source_eq]
  exact compile_of_alternative hall

/-! ## 5. What it matches -/

theorem reads_nodeOf (c : CodeUnit) : Reads (nodeOf c) fun part => StandsFor part c := by
  by_cases hstar : c = unit '*'
  · intro s t
    rw [nodeOf, if_pos hstar, reads_plus true [.range (unit '.') (unit '.')] s t]
    have haccepts : ∀ c, accepts true [.range (unit '.') (unit '.')] c = true ↔ c ≠ unit '.' := by
      intro c
      simp [accepts, ClassItem.contains, Nat.le_antisymm_iff]
    have hpart : ∀ part : List CodeUnit, StandsFor part c ↔
        1 ≤ part.length ∧ ∀ c ∈ part, accepts true [.range (unit '.') (unit '.')] c = true := by
      intro part
      rw [StandsFor, if_pos hstar, ← List.length_pos_iff]
      simp only [haccepts, ne_eq, Nat.succ_le_iff, List.forall_mem_ne']
    simp only [hpart]
  · intro s t
    rw [nodeOf, if_neg hstar, reads_literal c s t]
    simp only [StandsFor, if_neg hstar]

/-- **What the expression of a plain filter reads up to the end** is an instance. -/
theorem ends_nodesOf (f : List CodeUnit) : Ends (nodesOf f) (Instance f) := by
  induction f with
  | nil => exact ends_inputEnd
  | cons c f ih => exact ends_seq (reads_nodeOf c) ih

/-- **A plain filter means what it says.** -/
theorem meansWhatItSays_of_plain (h : Plain f) : MeansWhatItSays f :=
  ⟨_, build_plain h, hasMatch_anchored (ends_nodesOf f)⟩

/-! ## 6. Lists -/

/-- Every filter of the list, if there is one, is plain. -/
def AllPlain (filters : Option (List (List CodeUnit))) : Prop :=
  ∀ list, filters = some list → ∀ f ∈ list, Plain f

theorem mapM_build {list : List (List CodeUnit)} (h : ∀ f ∈ list, Plain f) :
    list.mapM buildRegExpFromIpFilter =
      .ok (list.map fun f => .seq .inputStart (nodesOf f)) := by
  induction list with
  | nil => rfl
  | cons f list ih =>
      obtain ⟨hfirst, hrest⟩ := List.forall_mem_cons.mp h
      rw [List.mapM_cons, build_plain hfirst, ih hrest]
      rfl

theorem digested_plain {filters : Option (List (List CodeUnit))} (h : AllPlain filters) :
    digested filters =
      .ok (filters.map fun list => list.map fun f => .seq .inputStart (nodesOf f)) := by
  cases filters with
  | none => rfl
  | some list =>
      have hmap := mapM_build (h list rfl)
      rw [digested, Option.mapM_some, hmap]
      rfl

/-- Some address matches some filter. -/
theorem any_hasMatch (list interface : List (List CodeUnit)) :
    (interface.any fun a => (list.map fun f => .seq .inputStart (nodesOf f)).any fun w =>
        hasMatch w a) = true ↔ ∃ a ∈ interface, ∃ f ∈ list, Instance f a := by
  simp only [List.any_eq_true, List.any_map, Function.comp_apply,
    hasMatch_anchored (ends_nodesOf _)]

theorem isNetworkIgnored_iff (whitelist blacklist : Option (List (List CodeUnit)))
    (interface : List (List CodeUnit)) :
    isNetworkIgnored (whitelist.map fun list => list.map fun f => .seq .inputStart (nodesOf f))
        (blacklist.map fun list => list.map fun f => .seq .inputStart (nodesOf f)) interface = true ↔
      Ignored whitelist blacklist interface := by
  have hwhite : (whitelist.map fun list => list.map fun f =>
        Node.seq .inputStart (nodesOf f)).any (fun whitelist => !interface.any fun a =>
          whitelist.any fun w => hasMatch w a) = true ↔
      ∃ filters, whitelist = some filters ∧ ∀ a ∈ interface, ∀ f ∈ filters, ¬ Instance f a := by
    cases whitelist with
    | none => simp
    | some list =>
        rw [Option.map_some, Option.any_some, Bool.not_eq_true', ← Bool.not_eq_true, any_hasMatch]
        simp
  have hblack : (blacklist.map fun list => list.map fun f =>
        Node.seq .inputStart (nodesOf f)).any (fun blacklist => interface.any fun a =>
          blacklist.any fun b => hasMatch b a) = true ↔
      ∃ filters, blacklist = some filters ∧ ∃ a ∈ interface, ∃ f ∈ filters, Instance f a := by
    cases blacklist with
    | none => simp
    | some list =>
        rw [Option.map_some, Option.any_some, any_hasMatch]
        simp
  rw [isNetworkIgnored, Ignored, ← hwhite, ← hblack]
  split
  · rename_i hfirst
    exact iff_of_true rfl (Or.inl hfirst)
  · rename_i hfirst
    rw [or_iff_right hfirst]
    split
    · rename_i hsecond
      exact iff_of_true rfl hsecond
    · rename_i hsecond
      exact iff_of_false Bool.false_ne_true hsecond

/-- **Filters with nothing in them that means something in a regular expression** mean what they
    say, and an interface is ignored as the lists say. -/
theorem plain_filters (f : List CodeUnit) (hf : Plain f)
    (whitelist blacklist : Option (List (List CodeUnit))) (hwhite : AllPlain whitelist)
    (hblack : AllPlain blacklist) (interface : List (List CodeUnit)) :
    MeansWhatItSays f ∧
      ∃ ignored, isNetworkIgnoredRaw whitelist blacklist interface = .ok ignored ∧
        (ignored = true ↔ Ignored whitelist blacklist interface) := by
  refine ⟨meansWhatItSays_of_plain hf, _, ?_, isNetworkIgnored_iff whitelist blacklist interface⟩
  rw [isNetworkIgnoredRaw, digested_plain hwhite, digested_plain hblack]
  rfl

theorem plain_filters_subnet : MeansWhatItSays (units "192.168.*.1") ∧
    ∃ ignored, isNetworkIgnoredRaw none (some [units "192.168.*.1"]) [units "192.168.7.1"] =
      .ok ignored ∧ ignored = true := by
  have hplain : Plain (units "192.168.*.1") := by decide
  have hblack : AllPlain (some [units "192.168.*.1"]) := by
    rintro _ ⟨⟩ f hf
    obtain rfl := List.mem_singleton.mp hf
    exact hplain
  have hwhite : AllPlain none := by
    rintro _ ⟨⟩
  obtain ⟨hmeans, ignored, hignored, -⟩ :=
    plain_filters (units "192.168.*.1") hplain none (some [units "192.168.*.1"]) hwhite hblack
      [units "192.168.7.1"]
  have hrun : isNetworkIgnoredRaw none (some [units "192.168.*.1"]) [units "192.168.7.1"] =
      .ok true := by decide
  rw [hrun] at hignored
  cases hignored
  exact ⟨hmeans, true, hrun, rfl⟩

/-- Each of the code units left out goes wrong by itself already: it throws, or does not match
    itself, or matches the empty text. -/
theorem meaningful_fails : ∀ c ∈ meaningful, ¬ MeansWhatItSays [c] := by
  have hwrong : ∀ c ∈ meaningful, ∀ regExp ∈ (buildRegExpFromIpFilter [c]).toOption,
      ¬ (hasMatch regExp [c] = true ∧ hasMatch regExp [] = false) := by decide
  intro c hc hmeans
  obtain ⟨regExp, hbuilt, hmatch⟩ := hmeans
  have hstar : c ≠ unit '*' := by
    rintro rfl
    revert hc
    decide
  have hself : Instance [c] [c] := ⟨[c], [], rfl, by rw [StandsFor, if_neg hstar], rfl⟩
  have hempty : ¬ Instance [c] [] := by
    intro hexists
    obtain ⟨part, rest, hsplit, hpart, -⟩ := hexists
    rw [StandsFor, if_neg hstar] at hpart
    rw [hpart] at hsplit
    cases hsplit
  have hsome : regExp ∈ (buildRegExpFromIpFilter [c]).toOption := by rw [hbuilt]; rfl
  refine hwrong c hc regExp hsome ⟨(hmatch [c]).mpr hself, ?_⟩
  rw [← Bool.not_eq_true]
  exact fun h => hempty ((hmatch []).mp h)

/-- **A bracket throws**, and with it every use of the list; a bar splits the filter. -/
theorem bracket_throws :
    buildRegExpFromIpFilter (units "10.0.0.1(") = .error .syntaxError ∧
    ¬ MeansWhatItSays (units "10.0.0.1(") ∧
    (∀ interfaces, getNetworkInterfaces none (some [units "10.0.0.1("]) interfaces =
      .error .syntaxError) ∧
    isNetworkIgnoredRaw none (some [units "10.0.0.1|10.0.0.2"]) [units "10.0.0.19"] = .ok true := by
  have hthrows : buildRegExpFromIpFilter (units "10.0.0.1(") = .error .syntaxError := by decide
  refine ⟨hthrows, ?_, fun interfaces => ?_, by decide⟩
  · intro hexists
    obtain ⟨regExp, hbuilt, -⟩ := hexists
    rw [hthrows] at hbuilt
    cases hbuilt
  · have hlist : digested (some [units "10.0.0.1("]) = .error .syntaxError := by
      rw [digested, Option.mapM_some, List.mapM_cons, hthrows]
      rfl
    rw [getNetworkInterfaces, hlist]
    rfl

end LocalSend.NetworkInterfaces
