/-
  File:      LocalSend/Lib/Uri.lean
  Subject:   THE GRAMMAR OF URIS (RFC 3986) as far as scheme and authority; nothing here names a
             program.

  * `isIPv4`, `isIPv6` -- the texts of addresses;
  * `Host`, `authority`, `parse` -- a URI with an authority: `[userinfo@] host [:port]`, where a
    host is a literal in brackets, an IPv4 address or a name, and no name has a colon; `parseUrl` --
    the same as the URL Standard has it, with a port of 16 bits;
  * `isIPv4_chars`, `isIPv6_chars`, `isIPv6_colon` -- the characters of addresses;
  * `parse_authority` -- a URI is read from its scheme and its authority;
  * `authority_ipv6`, `authority_ipv4` -- an IPv6 address in brackets and an IPv4 address are read
    if what follows the colon after them is a port (`authority_bracketed`, `authority_plain`);
    `authority_colon` -- **a colon outside brackets is the port's.**
-/
import Mathlib.Data.List.Basic
import Mathlib.Data.List.TakeWhile

namespace LocalSend.Lib.Uri

/-- A text, as its characters. -/
abbrev Text := List Char

/-! ## 1. Characters -/

def isHexDigit (c : Char) : Bool :=
  c.isDigit || ('a' ≤ c && c ≤ 'f') || ('A' ≤ c && c ≤ 'F')

def isUnreserved (c : Char) : Bool := c.isAlphanum || c ∈ "-._~".toList

def isSubDelim (c : Char) : Bool := c ∈ "!$&'()*+,;=".toList

/-- Allowed characters and percent escapes. -/
def isEscaped (allowed : Char → Bool) : Text → Bool
  | [] => true
  | '%' :: high :: low :: rest => isHexDigit high && isHexDigit low && isEscaped allowed rest
  | c :: rest => allowed c && isEscaped allowed rest

/-- What ends a scheme, an authority. -/
def endsScheme (c : Char) : Bool := c ∈ ":/?#".toList

def endsAuthority (c : Char) : Bool := c ∈ "/?#".toList

/-! ## 2. Addresses -/

/-- A number up to 255 without leading zeros. -/
def isDecOctet (cs : Text) : Bool :=
  cs.all Char.isDigit && Nat.ofDigitChars 10 cs 0 < 256 &&
    Nat.toDigits 10 (Nat.ofDigitChars 10 cs 0) = cs

def isIPv4 (cs : Text) : Bool :=
  match cs.splitOn '.' with
  | [a, b, c, d] => isDecOctet a && isDecOctet b && isDecOctet c && isDecOctet d
  | _ => false

/-- One to four hexadecimal digits. -/
def isH16 (cs : Text) : Bool := 1 ≤ cs.length && cs.length ≤ 4 && cs.all isHexDigit

/-- The pieces of 16 bits in these groups; an IPv4 address at the end stands for two. -/
def pieces : List Text → Option Nat
  | [] => some 0
  | [group] => if isH16 group then some 1 else if isIPv4 group then some 2 else none
  | group :: groups => if isH16 group then (pieces groups).map (· + 1) else none

/-- The texts around the first double colon. -/
def splitElision : Text → Option (Text × Text)
  | [] => none
  | [_] => none
  | c :: d :: rest =>
    if c = ':' ∧ d = ':' then some ([], rest)
    else (splitElision (d :: rest)).map fun r => (c :: r.1, r.2)

/-- The pieces before a double colon, all of hexadecimal digits. -/
def piecesBefore (cs : Text) : Option Nat :=
  if cs = [] then some 0
  else if (cs.splitOn ':').all isH16 then some (cs.splitOn ':').length else none

def piecesAfter (cs : Text) : Option Nat :=
  if cs = [] then some 0 else pieces (cs.splitOn ':')

/-- Eight pieces, or fewer around a double colon. -/
def isIPv6 (cs : Text) : Bool :=
  match splitElision cs with
  | none => pieces (cs.splitOn ':') = some 8
  | some r =>
    match piecesBefore r.1, piecesAfter r.2 with
    | some m, some n => m + n ≤ 7
    | _, _ => false

/-- An address of a version to come. -/
def isIPvFuture (cs : Text) : Bool :=
  match cs with
  | v :: rest =>
    let version := rest.takeWhile isHexDigit
    (v = 'v' || v = 'V') && version ≠ [] &&
      match rest.dropWhile isHexDigit with
      | '.' :: address =>
        address ≠ [] && address.all fun c => isUnreserved c || isSubDelim c || c = ':'
      | _ => false
  | [] => false

/-! ## 3. Authorities -/

inductive Host where
  | ipv6 (address : Text)
  | ipvFuture (address : Text)
  | ipv4 (address : Text)
  | regName (name : Text)
  deriving DecidableEq, Repr

structure Authority where
  userinfo : Option Text
  host : Host
  port : Option Text
  deriving DecidableEq, Repr

/-- What stands between brackets. -/
def literal (cs : Text) : Option Host :=
  if isIPv6 cs then some (.ipv6 cs) else if isIPvFuture cs then some (.ipvFuture cs) else none

/-- An IPv4 address before a name: the first match wins. -/
def name (cs : Text) : Option Host :=
  if isIPv4 cs then some (.ipv4 cs)
  else if isEscaped (fun c => isUnreserved c || isSubDelim c) cs then some (.regName cs) else none

/-- What follows a host: nothing, or a colon and digits. -/
def portAfter : Text → Option (Option Text)
  | [] => some none
  | c :: digits => if c = ':' ∧ digits.all Char.isDigit then some (some digits) else none

def hostPort : Text → Option (Host × Option Text)
  | [] => some (.regName [], none)
  | c :: cs =>
    if c = '[' then
      match cs.dropWhile (· ≠ ']') with
      | [] => none
      | _ :: rest =>
        (literal (cs.takeWhile (· ≠ ']'))).bind fun host =>
          (portAfter rest).map fun port => (host, port)
    else
      (name ((c :: cs).takeWhile (· ≠ ':'))).bind fun host =>
        (portAfter ((c :: cs).dropWhile (· ≠ ':'))).map fun port => (host, port)

def authority (cs : Text) : Option Authority :=
  if '@' ∈ cs then
    let userinfo := cs.takeWhile (· ≠ '@')
    if isEscaped (fun c => isUnreserved c || isSubDelim c || c = ':') userinfo then
      (hostPort ((cs.dropWhile (· ≠ '@')).drop 1)).map fun hp => ⟨some userinfo, hp.1, hp.2⟩
    else none
  else (hostPort cs).map fun hp => ⟨none, hp.1, hp.2⟩

/-! ## 4. URIs -/

def isScheme : Text → Bool
  | [] => false
  | c :: cs => c.isAlpha && cs.all fun c => c.isAlphanum || c ∈ "+-.".toList

/-- A URI with an authority; `rest` is its path with query and fragment. -/
structure Parts where
  scheme : Text
  authority : Authority
  rest : Text
  deriving DecidableEq, Repr

def parse (cs : Text) : Option Parts :=
  let scheme := cs.takeWhile fun c => !endsScheme c
  match cs.dropWhile fun c => !endsScheme c with
  | ':' :: '/' :: '/' :: rest =>
    if isScheme scheme then
      (authority (rest.takeWhile fun c => !endsAuthority c)).map fun a =>
        ⟨scheme, a, rest.dropWhile fun c => !endsAuthority c⟩
    else none
  | _ => none

/-- The port, if there is one, has 16 bits. -/
def Authority.portFits (a : Authority) : Bool :=
  a.port.all fun digits => Nat.ofDigitChars 10 digits 0 < 65536

/-- **What a client can be asked for**: a URI whose port has 16 bits. -/
def parseUrl (cs : Text) : Option Parts := (parse cs).filter fun u => u.authority.portFits

/-- **Scheme, host and port.** -/
def endpoint (cs : Text) : Option (Text × Host × Option Text) :=
  (parse cs).map fun u => (u.scheme, u.authority.host, u.authority.port)

example : parse "https://user@[::1]:80/a?b".toList =
    some ⟨"https".toList, ⟨some "user".toList, .ipv6 "::1".toList, some "80".toList⟩,
      "/a?b".toList⟩ := by
  decide

example : parse "http://::1:80/".toList = none := by decide

/-! ## 5. The characters of addresses -/

theorem mem_intercalate {c x : Char} {parts : List Text} (h : c ∈ [x].intercalate parts) :
    c = x ∨ ∃ part ∈ parts, c ∈ part := by
  induction parts with
  | nil => cases h
  | cons part parts ih =>
      cases parts with
      | nil => exact Or.inr ⟨part, List.mem_singleton_self _, by simpa using h⟩
      | cons part' parts =>
          rw [List.intercalate_cons_cons, List.append_assoc, List.mem_append] at h
          rcases h with h | h
          · exact Or.inr ⟨part, List.mem_cons_self, h⟩
          · rcases List.mem_append.mp h with h | h
            · exact Or.inl (List.mem_singleton.mp h)
            · rcases ih h with h | ⟨part'', hmem, h⟩
              · exact Or.inl h
              · exact Or.inr ⟨part'', List.mem_cons_of_mem _ hmem, h⟩

/-- A character stands in a part, or is the separator. -/
theorem mem_splitOn {c x : Char} {cs : Text} (h : c ∈ cs) :
    c = x ∨ ∃ part ∈ cs.splitOn x, c ∈ part := by
  have hcs : c ∈ [x].intercalate (cs.splitOn x) := by
    rw [List.intercalate_splitOn]
    exact h
  exact mem_intercalate hcs

theorem isDecOctet_chars {cs : Text} (h : isDecOctet cs = true) : ∀ c ∈ cs, c.isDigit = true := by
  simp only [isDecOctet, Bool.and_eq_true] at h
  exact List.all_eq_true.mp h.1.1

/-- **An IPv4 address is of digits and dots.** -/
theorem isIPv4_chars {cs : Text} (h : isIPv4 cs = true) :
    ∀ c ∈ cs, c.isDigit = true ∨ c = '.' := by
  intro c hc
  unfold isIPv4 at h
  split at h
  · rename_i a b d e hparts
    simp only [Bool.and_eq_true] at h
    obtain ⟨⟨⟨ha, hb⟩, hd⟩, he⟩ := h
    rcases mem_splitOn (x := '.') hc with hdot | ⟨part, hpart, hc⟩
    · exact Or.inr hdot
    · rw [hparts] at hpart
      simp only [List.mem_cons, List.not_mem_nil, or_false] at hpart
      rcases hpart with rfl | rfl | rfl | rfl
      · exact Or.inl (isDecOctet_chars ha c hc)
      · exact Or.inl (isDecOctet_chars hb c hc)
      · exact Or.inl (isDecOctet_chars hd c hc)
      · exact Or.inl (isDecOctet_chars he c hc)
  · cases h

/-- A character of an IPv6 address, with an IPv4 address at its end. -/
def AddressChar (c : Char) : Prop := isHexDigit c = true ∨ c = ':' ∨ c = '.'

theorem isHexDigit_of_isDigit {c : Char} (h : c.isDigit = true) : isHexDigit c = true := by
  simp [isHexDigit, h]

theorem isH16_chars {cs : Text} (h : isH16 cs = true) : ∀ c ∈ cs, AddressChar c := by
  simp only [isH16, Bool.and_eq_true] at h
  exact fun c hc => Or.inl (List.all_eq_true.mp h.2 c hc)

theorem pieces_chars {groups : List Text} {n : Nat} (h : pieces groups = some n) :
    ∀ group ∈ groups, ∀ c ∈ group, AddressChar c := by
  induction groups generalizing n with
  | nil => exact fun group hgroup => absurd hgroup List.not_mem_nil
  | cons group groups ih =>
      intro group' hgroup' c hc
      cases groups with
      | nil =>
          obtain rfl := List.mem_singleton.mp hgroup'
          simp only [pieces] at h
          split at h
          · rename_i hh16
            exact isH16_chars hh16 c hc
          · split at h
            · rename_i hipv4
              rcases isIPv4_chars hipv4 c hc with hdigit | hdot
              · exact Or.inl (isHexDigit_of_isDigit hdigit)
              · exact Or.inr (Or.inr hdot)
            · cases h
      | cons group₂ groups =>
          simp only [pieces, Option.ite_none_right_eq_some, Option.map_eq_some_iff] at h
          obtain ⟨hh16, m, hm, _⟩ := h
          rcases List.mem_cons.mp hgroup' with rfl | hgroup'
          · exact isH16_chars hh16 c hc
          · exact ih hm group' hgroup' c hc

/-- The text is around its first double colon. -/
theorem splitElision_eq {cs : Text} {r : Text × Text} (h : splitElision cs = some r) :
    cs = r.1 ++ ':' :: ':' :: r.2 := by
  fun_induction splitElision cs generalizing r with
  | case1 => cases h
  | case2 => cases h
  | case3 c d rest hcd =>
      obtain ⟨rfl, rfl⟩ := hcd
      obtain rfl := Option.some.inj h
      rfl
  | case4 c d rest hcd ih =>
      obtain ⟨r', hr', rfl⟩ := Option.map_eq_some_iff.mp h
      rw [ih hr']
      rfl

theorem groups_chars {cs : Text} (h : ∀ group ∈ cs.splitOn ':', ∀ c ∈ group, AddressChar c) :
    ∀ c ∈ cs, AddressChar c := by
  intro c hc
  rcases mem_splitOn (x := ':') hc with hcolon | ⟨group, hgroup, hc⟩
  · exact Or.inr (Or.inl hcolon)
  · exact h group hgroup c hc

theorem piecesBefore_chars {cs : Text} {n : Nat} (h : piecesBefore cs = some n) :
    ∀ c ∈ cs, AddressChar c := by
  unfold piecesBefore at h
  split at h
  · rename_i hnil
    rw [hnil]
    exact fun c hc => absurd hc List.not_mem_nil
  · split at h
    · rename_i hall
      exact groups_chars fun group hgroup => isH16_chars (List.all_eq_true.mp hall group hgroup)
    · cases h

theorem piecesAfter_chars {cs : Text} {n : Nat} (h : piecesAfter cs = some n) :
    ∀ c ∈ cs, AddressChar c := by
  unfold piecesAfter at h
  split at h
  · rename_i hnil
    rw [hnil]
    exact fun c hc => absurd hc List.not_mem_nil
  · exact groups_chars (pieces_chars h)

/-- **The characters of an IPv6 address.** -/
theorem isIPv6_chars {cs : Text} (h : isIPv6 cs = true) : ∀ c ∈ cs, AddressChar c := by
  unfold isIPv6 at h
  split at h
  · exact groups_chars (pieces_chars (of_decide_eq_true h))
  · rename_i r hr
    split at h
    · rename_i m n hm hn
      intro c hc
      rw [splitElision_eq hr] at hc
      rcases List.mem_append.mp hc with hc | hc
      · exact piecesBefore_chars hm c hc
      · rcases List.mem_cons.mp hc with hc | hc
        · exact Or.inr (Or.inl hc)
        · rcases List.mem_cons.mp hc with hc | hc
          · exact Or.inr (Or.inl hc)
          · exact piecesAfter_chars hn c hc
    · cases h

/-- **An IPv6 address has a colon.** -/
theorem isIPv6_colon {cs : Text} (h : isIPv6 cs = true) : ':' ∈ cs := by
  unfold isIPv6 at h
  split at h
  · by_contra hcolon
    rw [List.splitOn_eq_singleton hcolon] at h
    simp only [pieces] at h
    split_ifs at h <;> cases of_decide_eq_true h
  · rename_i r hr
    rw [splitElision_eq hr]
    exact List.mem_append_right _ List.mem_cons_self

/-! ## 6. Reading up to a delimiter -/

section Stop

variable {p : Char → Bool} {a b : Text} {c : Char}

theorem takeWhile_stop (ha : ∀ c ∈ a, p c = true) (hc : p c = false) :
    (a ++ c :: b).takeWhile p = a := by
  rw [List.takeWhile_append_of_pos ha, List.takeWhile_cons_of_neg (by simp [hc]), List.append_nil]

theorem dropWhile_stop (ha : ∀ c ∈ a, p c = true) (hc : p c = false) :
    (a ++ c :: b).dropWhile p = c :: b := by
  rw [List.dropWhile_append_of_pos ha, List.dropWhile_cons_of_neg (by simp [hc])]

end Stop

/-- **A URI is read from its scheme and its authority.** -/
theorem parse_authority {scheme auth rest : Text} (hscheme : isScheme scheme = true)
    (hends : ∀ c ∈ scheme, endsScheme c = false) (hauth : ∀ c ∈ auth, endsAuthority c = false) :
    parse (scheme ++ ':' :: '/' :: '/' :: (auth ++ '/' :: rest)) =
      (authority auth).map fun a => ⟨scheme, a, '/' :: rest⟩ := by
  have hs : ∀ c ∈ scheme, (!endsScheme c) = true := fun c hc => by rw [hends c hc]; rfl
  have ha : ∀ c ∈ auth, (!endsAuthority c) = true := fun c hc => by rw [hauth c hc]; rfl
  have hcolon : (!endsScheme ':') = false := by decide
  have hslash : (!endsAuthority '/') = false := by decide
  simp only [parse, takeWhile_stop hs hcolon, dropWhile_stop hs hcolon, hscheme, if_true,
    takeWhile_stop ha hslash, dropWhile_stop ha hslash]

/-! ## 7. Addresses in an authority -/

theorem addressChar_ne {c : Char} (h : AddressChar c) : c ≠ '@' ∧ c ≠ '[' ∧ c ≠ ']' ∧ c ≠ '/' ∧
    c ≠ '?' ∧ c ≠ '#' := by
  refine ⟨?_, ?_, ?_, ?_, ?_, ?_⟩ <;>
    · rintro rfl
      exact absurd h (by unfold AddressChar; decide)

theorem portAfter_digits {digits : Text} (h : ∀ c ∈ digits, c.isDigit = true) :
    portAfter (':' :: digits) = some (some digits) :=
  if_pos ⟨rfl, List.all_eq_true.mpr h⟩

theorem isDigit_address {c : Char} (h : c.isDigit = true) : AddressChar c :=
  Or.inl (isHexDigit_of_isDigit h)

theorem isIPv4_addressChar {cs : Text} (h : isIPv4 cs = true) : ∀ c ∈ cs, AddressChar c :=
  fun c hc => (isIPv4_chars h c hc).elim isDigit_address fun h => Or.inr (Or.inr h)

theorem isIPv4_ne_colon {cs : Text} (h : isIPv4 cs = true) : ∀ c ∈ cs, c ≠ ':' := by
  rintro c hc rfl
  exact absurd (isIPv4_chars h ':' hc) (by decide)

section Authority

variable {ip rest digits : Text}

theorem at_not_mem (hip : ∀ c ∈ ip, AddressChar c) (hrest : '@' ∉ rest) :
    '@' ∉ ip ++ ':' :: rest := by
  simp only [List.mem_append, List.mem_cons, not_or]
  exact ⟨fun h => (addressChar_ne (hip _ h)).1 rfl, by decide, hrest⟩

theorem digits_not_at (hdigits : ∀ c ∈ digits, c.isDigit = true) : '@' ∉ digits := fun h =>
  (addressChar_ne (isDigit_address (hdigits _ h))).1 rfl

/-- **An IPv6 address in brackets**, with a port if what follows is one. -/
theorem authority_ipv6 (hip : isIPv6 ip = true) (hrest : '@' ∉ rest) :
    authority ('[' :: ip ++ ']' :: ':' :: rest) =
      (portAfter (':' :: rest)).map fun port => ⟨none, .ipv6 ip, port⟩ := by
  have hchars := isIPv6_chars hip
  have hclose : ∀ c ∈ ip, decide (c ≠ ']') = true := fun c hc =>
    decide_eq_true (addressChar_ne (hchars c hc)).2.2.1
  have hat : '@' ∉ '[' :: ip ++ ']' :: ':' :: rest := by
    have hrest := at_not_mem hchars hrest
    simp only [List.mem_append, List.mem_cons, not_or] at hrest
    simp only [List.cons_append, List.mem_cons, List.mem_append, not_or]
    exact ⟨by decide, hrest.1, by decide, hrest.2⟩
  have hhost : literal ip = some (.ipv6 ip) := if_pos hip
  rw [authority, if_neg hat, List.cons_append, hostPort, if_pos rfl,
    dropWhile_stop hclose (by decide), takeWhile_stop hclose (by decide)]
  simp only [hhost, Option.bind_some, Option.map_map]
  rfl

/-- **An IPv6 address in brackets, with a port.** -/
theorem authority_bracketed (hip : isIPv6 ip = true) (hdigits : ∀ c ∈ digits, c.isDigit = true) :
    authority ('[' :: ip ++ ']' :: ':' :: digits) = some ⟨none, .ipv6 ip, some digits⟩ := by
  rw [authority_ipv6 hip (digits_not_at hdigits), portAfter_digits hdigits, Option.map_some]

/-- Without a bracket in front the host ends at the first colon. -/
theorem hostPort_plain (hip : ∀ c ∈ ip, AddressChar c) (rest : Text) :
    hostPort (ip ++ ':' :: rest) =
      (name ((ip ++ ':' :: rest).takeWhile (· ≠ ':'))).bind fun host =>
        (portAfter ((ip ++ ':' :: rest).dropWhile (· ≠ ':'))).map fun port => (host, port) := by
  cases ip with
  | nil => rfl
  | cons c ip =>
      have hc : c ≠ '[' := (addressChar_ne (hip c List.mem_cons_self)).2.1
      rw [List.cons_append, hostPort, if_neg hc]

/-- **An IPv4 address**, with a port if what follows is one. -/
theorem authority_ipv4 (hip : isIPv4 ip = true) (hrest : '@' ∉ rest) :
    authority (ip ++ ':' :: rest) =
      (portAfter (':' :: rest)).map fun port => ⟨none, .ipv4 ip, port⟩ := by
  have hchars := isIPv4_addressChar hip
  have hcolon : ∀ c ∈ ip, decide (c ≠ ':') = true := fun c hc =>
    decide_eq_true (isIPv4_ne_colon hip c hc)
  have hhost : name ip = some (.ipv4 ip) := if_pos hip
  rw [authority, if_neg (at_not_mem hchars hrest), hostPort_plain hchars,
    takeWhile_stop hcolon (by decide), dropWhile_stop hcolon (by decide)]
  simp only [hhost, Option.bind_some, Option.map_map]
  rfl

/-- **An IPv4 address with a port.** -/
theorem authority_plain (hip : isIPv4 ip = true) (hdigits : ∀ c ∈ digits, c.isDigit = true) :
    authority (ip ++ ':' :: digits) = some ⟨none, .ipv4 ip, some digits⟩ := by
  rw [authority_ipv4 hip (digits_not_at hdigits), portAfter_digits hdigits, Option.map_some]

/-- An IPv4 address alone. -/
theorem authority_host (hip : isIPv4 ip = true) : authority ip = some ⟨none, .ipv4 ip, none⟩ := by
  have hat : '@' ∉ ip := fun h => (addressChar_ne (isIPv4_addressChar hip _ h)).1 rfl
  have hcolon : ∀ c ∈ ip, decide (c ≠ ':') = true := fun c hc =>
    decide_eq_true (isIPv4_ne_colon hip c hc)
  have hhost : name ip = some (.ipv4 ip) := if_pos hip
  have htake : ip.takeWhile (· ≠ ':') = ip := List.takeWhile_eq_self_iff.mpr hcolon
  have hdrop : ip.dropWhile (· ≠ ':') = [] := List.dropWhile_eq_nil_iff.mpr hcolon
  have hport : hostPort ip = some (.ipv4 ip, none) := by
    cases ip with
    | nil => exact absurd hip (by decide)
    | cons c cs =>
        have hc : c ≠ '[' := (addressChar_ne (isIPv4_addressChar hip c List.mem_cons_self)).2.1
        rw [hostPort, if_neg hc, htake, hdrop, hhost]
        rfl
  rw [authority, if_neg hat, hport]
  rfl

/-- An IPv6 address in brackets alone. -/
theorem authority_brackets (hip : isIPv6 ip = true) :
    authority ('[' :: ip ++ [']']) = some ⟨none, .ipv6 ip, none⟩ := by
  have hchars := isIPv6_chars hip
  have hclose : ∀ c ∈ ip, decide (c ≠ ']') = true := fun c hc =>
    decide_eq_true (addressChar_ne (hchars c hc)).2.2.1
  have hat : '@' ∉ '[' :: ip ++ [']'] := by
    simp only [List.cons_append, List.mem_cons, List.mem_append, List.not_mem_nil, not_or]
    exact ⟨by decide, fun h => (addressChar_ne (hchars _ h)).1 rfl, by decide, not_false⟩
  have hhost : literal ip = some (.ipv6 ip) := if_pos hip
  rw [authority, if_neg hat, List.cons_append, hostPort, if_pos rfl,
    dropWhile_stop hclose (by decide), takeWhile_stop hclose (by decide)]
  simp only [hhost, portAfter, Option.bind_some, Option.map_some]

/-- **A colon outside brackets is the port's**: an address with a colon is no host. -/
theorem authority_colon (hip : isIPv6 ip = true) (hrest : '@' ∉ rest) :
    authority (ip ++ ':' :: rest) = none := by
  have hchars := isIPv6_chars hip
  rw [authority, if_neg (at_not_mem hchars hrest), hostPort_plain hchars]
  -- the first colon is inside the address, so a second one stands where the digits should be
  obtain ⟨front, back, rfl, hfront⟩ := List.eq_append_cons_of_mem (isIPv6_colon hip)
  have hcolon : ∀ c ∈ front, decide (c ≠ ':') = true := fun c hc =>
    decide_eq_true fun h => hfront (h ▸ hc)
  have hport : portAfter (':' :: (back ++ ':' :: rest)) = none := by
    refine if_neg fun h => ?_
    exact absurd (List.all_eq_true.mp h.2 ':' (by simp)) (by decide)
  rw [List.append_assoc, List.cons_append, dropWhile_stop hcolon (by decide), hport]
  cases name _ <;> rfl

end Authority

end LocalSend.Lib.Uri
