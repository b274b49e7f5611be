/-
  File:      LocalSend/Lib/PosixPath.lean
  Subject:   POSIX PATHS AS TEXTS, with the operations of Dart's `package:path` on them; nothing
             here names a program.

  * `components` -- what stands between the separators; `split`, `basename`, `joinAll`;
  * `resolve` -- the place a list of components leads to, with '.' and '..' taken as steps;
  * `Inside`, `isWithin` -- a place below another one;
  * `components_joinAll`, `components_joinAll_root` -- joining puts components one after another;
    an absolute part starts anew;
  * `climb`, `inside_walk_iff` -- how far a list of components climbs, and whether it comes back.
-/
import LocalSend.Lib.SplitOn
import Mathlib.Data.List.Basic
import Mathlib.Data.List.Infix

namespace LocalSend.Lib.Posix

/-- A text, as its characters. -/
abbrev Text := List Char

/-! ## 1. Texts -/

/-- The non-empty parts between the separators. -/
def components (path : Text) : List Text := (path.splitOn '/').filter fun part => part ≠ []

def isAbsolute (path : Text) : Bool := path.head? = some '/'

/-- `split`: the root, if the path is absolute, and the components. -/
def split (path : Text) : List Text :=
  if isAbsolute path then ['/'] :: components path else components path

/-- `basename`: the last component; without one, the root or nothing. -/
def basename (path : Text) : Text :=
  (components path).getLast?.getD (if isAbsolute path then ['/'] else [])

/-- Whether a separator goes between this part and the next one. -/
def needsSeparator (part : Text) : Bool := part.getLast? ≠ some '/'

/-- The loop of `joinAll`: an absolute part throws out everything before it. -/
def joinOnto (buffer : Text) (separate : Bool) : List Text → Text
  | [] => buffer
  | part :: parts =>
    if part = [] then joinOnto buffer separate parts
    else if isAbsolute part then joinOnto part (needsSeparator part) parts
    else joinOnto (buffer ++ (if separate then ['/'] else []) ++ part) (needsSeparator part) parts

/-- `joinAll`. -/
def joinAll (parts : List Text) : Text := joinOnto [] false parts

/-- A name that stands for itself in a path. -/
structure Segment (name : Text) : Prop where
  nonempty : name ≠ []
  separator : '/' ∉ name
  dot : name ≠ ['.']
  dotDot : name ≠ ['.', '.']

theorem components_append (a b : Text) :
    components (a ++ '/' :: b) = components a ++ components b := by
  rw [components, List.splitOn_append_cons_self, List.filter_append]
  rfl

theorem components_nil : components [] = [] := by decide

theorem components_eq_singleton {name : Text} (hne : name ≠ []) (hsep : '/' ∉ name) :
    components name = [name] := by
  rw [components, List.splitOn_eq_singleton hsep]
  simp [hne]

/-- The components of a component are itself. -/
theorem mem_components {path name : Text} (h : name ∈ components path) :
    name ≠ [] ∧ '/' ∉ name := by
  obtain ⟨hmem, hne⟩ := List.mem_filter.mp h
  exact ⟨by simpa using hne, SplitOn.not_mem_of_mem_splitOn hmem⟩

/-- A separator at the end changes nothing. -/
theorem components_append_name {buffer name : Text} (hne : name ≠ []) (hsep : '/' ∉ name) :
    components (buffer ++ (if needsSeparator buffer then ['/'] else []) ++ name) =
      components buffer ++ [name] := by
  cases hneeds : needsSeparator buffer with
  | true =>
      simp only [if_true, List.append_assoc, List.singleton_append]
      rw [components_append, components_eq_singleton hne hsep]
  | false =>
      have hlast : buffer.getLast? = some '/' := by simpa [needsSeparator] using hneeds
      obtain ⟨front, rfl⟩ := List.getLast?_eq_some_iff.mp hlast
      simp only [Bool.false_eq_true, if_false, List.append_nil, List.append_assoc,
        List.singleton_append]
      rw [components_append, components_append, components_eq_singleton hne hsep, components_nil,
        List.append_nil]

/-- Joining names to an absolute path. -/
theorem joinOnto_names {names : List Text} (h : ∀ name ∈ names, name ≠ [] ∧ '/' ∉ name) :
    ∀ {buffer : Text}, isAbsolute buffer = true →
      components (joinOnto buffer (needsSeparator buffer) names) = components buffer ++ names ∧
      isAbsolute (joinOnto buffer (needsSeparator buffer) names) = true := by
  induction names with
  | nil => exact fun habs => ⟨(List.append_nil _).symm, habs⟩
  | cons name names ih =>
      intro buffer habs
      obtain ⟨hne, hsep⟩ := h name List.mem_cons_self
      have hrel : isAbsolute name = false := by
        cases name with
        | nil => rfl
        | cons c cs =>
            have hc : c ≠ '/' := fun hc => hsep (hc ▸ List.mem_cons_self)
            simp [isAbsolute, hc]
      have hlast : needsSeparator (buffer ++ (if needsSeparator buffer then ['/'] else []) ++ name) =
          needsSeparator name := by
        unfold needsSeparator
        rw [List.getLast?_append_of_ne_nil _ hne]
      have habs' : isAbsolute
          (buffer ++ (if needsSeparator buffer then ['/'] else []) ++ name) = true := by
        cases buffer with
        | nil => cases habs
        | cons c cs => simpa [isAbsolute] using habs
      obtain ⟨hcomponents, habsolute⟩ :=
        ih (fun name hname => h name (List.mem_cons_of_mem _ hname)) habs'
      rw [joinOnto, if_neg hne, hrel, if_neg Bool.false_ne_true, ← hlast]
      rw [components_append_name hne hsep] at hcomponents
      refine ⟨hcomponents.trans ?_, habsolute⟩
      rw [List.append_assoc, List.singleton_append]

/-- **Names joined to an absolute path** follow its components. -/
theorem components_joinAll {path : Text} (habs : isAbsolute path = true) {names : List Text}
    (h : ∀ name ∈ names, name ≠ [] ∧ '/' ∉ name) :
    components (joinAll (path :: names)) = components path ++ names ∧
    isAbsolute (joinAll (path :: names)) = true := by
  have hne : path ≠ [] := by
    intro hnil
    rw [hnil] at habs
    cases habs
  rw [joinAll, joinOnto, if_neg hne, habs, if_pos rfl]
  exact joinOnto_names h habs

/-- **An absolute path joined to another one** throws it out. -/
theorem components_joinAll_root {path : Text} {names : List Text}
    (h : ∀ name ∈ names, name ≠ [] ∧ '/' ∉ name) :
    components (joinAll (path :: ['/'] :: names)) = names ∧
    isAbsolute (joinAll (path :: ['/'] :: names)) = true := by
  have hroot : ∀ buffer separate, joinOnto buffer separate (['/'] :: names) =
      joinOnto ['/'] (needsSeparator ['/']) names := by
    intro buffer separate
    rfl
  have hjoin : joinAll (path :: ['/'] :: names) = joinOnto ['/'] (needsSeparator ['/']) names := by
    rw [joinAll, joinOnto]
    split
    · exact hroot _ _
    · split <;> exact hroot _ _
  rw [hjoin]
  have habs : isAbsolute ['/'] = true := rfl
  exact joinOnto_names h habs

/-! ## 2. Places -/

/-- One step from a place, as the file system takes it. -/
def enter (place : List Text) (name : Text) : List Text :=
  if name = ['.'] then place else if name = ['.', '.'] then place.dropLast else place ++ [name]

/-- **The place a list of components leads to**, from the root. -/
def resolve (names : List Text) : List Text := names.foldl enter []

/-- The place a path names, normalised. -/
def place (path : Text) : List Text := resolve (components path)

/-- A place below another one, or that one. -/
def Inside (parent child : List Text) : Prop := parent <+: child

/-- A place below another one. -/
def StrictlyInside (parent child : List Text) : Prop := parent <+: child ∧ parent ≠ child

instance (parent child : List Text) : Decidable (Inside parent child) :=
  inferInstanceAs (Decidable (parent <+: child))

instance (parent child : List Text) : Decidable (StrictlyInside parent child) :=
  inferInstanceAs (Decidable (parent <+: child ∧ parent ≠ child))

/-- `isWithin`, on absolute paths. -/
def isWithin (parent child : Text) : Bool := decide (StrictlyInside (place parent) (place child))

theorem enter_segment {name : Text} (h : Segment name) (here : List Text) :
    enter here name = here ++ [name] := by
  rw [enter, if_neg h.dot, if_neg h.dotDot]

theorem resolve_append_segment {name : Text} (h : Segment name) (names : List Text) :
    resolve (names ++ [name]) = resolve names ++ [name] := by
  rw [resolve, List.foldl_append]
  exact enter_segment h _

/-- One more name below a place inside is strictly inside. -/
theorem Inside.append {parent child : List Text} (h : Inside parent child) (name : Text) :
    StrictlyInside parent (child ++ [name]) := by
  obtain ⟨rest, rfl⟩ := h
  refine ⟨⟨rest ++ [name], (List.append_assoc _ _ _).symm⟩, fun heq => ?_⟩
  have hlength := congrArg List.length heq
  simp only [List.length_append, List.length_singleton] at hlength
  omega

/-! ## 3. Climbing -/

/-- One component of a relative path, with the '..' that nothing before it matches counted apart. -/
def climbStep (route : Nat × List Text) (name : Text) : Nat × List Text :=
  if name = ['.'] then route
  else if name = ['.', '.'] then
    if route.2 = [] then (route.1 + 1, []) else (route.1, route.2.dropLast)
  else (route.1, route.2 ++ [name])

/-- **A relative path in normal form**: the number of '..' it starts with, and the names after. -/
def climb (names : List Text) : Nat × List Text := names.foldl climbStep (0, [])

/-- The names of a place that a relative path climbs out of are the first it enters again. -/
def ComesBack (base : List Text) (names : List Text) : Prop :=
  base.drop (base.length - (climb names).1) <+: (climb names).2

instance (base names : List Text) : Decidable (ComesBack base names) :=
  inferInstanceAs (Decidable (_ <+: _))

theorem enter_climbStep (base : List Text) (route : Nat × List Text) (name : Text) :
    enter (base.take (base.length - route.1) ++ route.2) name =
      base.take (base.length - (climbStep route name).1) ++ (climbStep route name).2 := by
  unfold enter climbStep
  by_cases hdot : name = ['.']
  · rw [if_pos hdot, if_pos hdot]
  rw [if_neg hdot, if_neg hdot]
  by_cases hdotDot : name = ['.', '.']
  · rw [if_pos hdotDot, if_pos hdotDot]
    by_cases hempty : route.2 = []
    · rw [if_pos hempty, hempty, List.append_nil, List.append_nil, List.dropLast_eq_take,
        List.take_take, List.length_take]
      congr 1
      omega
    · rw [if_neg hempty, List.dropLast_append_of_ne_nil hempty]
  · rw [if_neg hdotDot, if_neg hdotDot, List.append_assoc]

/-- **A walk climbs out and enters** what its normal form says. -/
theorem foldl_enter_eq (base names : List Text) :
    names.foldl enter base = base.take (base.length - (climb names).1) ++ (climb names).2 := by
  induction names using List.reverseRecOn with
  | nil => simp [climb]
  | append_singleton names name ih =>
      have hclimb : climb (names ++ [name]) = climbStep (climb names) name := by
        rw [climb, List.foldl_append]
        rfl
      rw [List.foldl_append, ih, hclimb]
      exact enter_climbStep base (climb names) name

/-- **A walk ends inside** the place it starts from exactly if it comes back. -/
theorem inside_walk_iff (base names : List Text) :
    Inside base (names.foldl enter base) ↔ ComesBack base names := by
  have hsplit := List.take_append_drop (base.length - (climb names).1) base
  rw [foldl_enter_eq, ComesBack, Inside]
  nth_rewrite 1 [← hsplit]
  exact List.prefix_append_right_inj _

end LocalSend.Lib.Posix
