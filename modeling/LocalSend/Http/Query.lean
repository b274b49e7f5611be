/-
  File:      LocalSend/Http/Query.lean
  Subject:   THE QUERIES OF THE CLIENT. `upload` and `cancel` write the session id, the file id and
             the token into the URL as they are.

  * `uploadUrl_join`, `cancelUrl_join` -- the URLs are their parameters put together;
  * `HasQuery` -- the query of a URL has these parameters, and no others;
  * **`queries_decode_iff`** -- it has those of the call exactly if the address has no colon, every
    value is literal and the last one ends visibly; `token_twice`: a file id that names another
    token.
-/
import LocalSend.Http.Url
import LocalSend.Lib.Query

namespace LocalSend.Http

open Lib Uri Query

/-- **The text is a URL whose query has these parameters**, with these values, and no others. -/
def HasQuery (url : Text) (ps : List (Text × Text)) : Prop :=
  (query url).map parameters = some (ps.map fun p => (utf8 p.1, utf8 p.2))

/-- The parameters of an upload. -/
def uploadParameters (sessionId fileId token : Text) : List (Text × Text) :=
  [("sessionId".toList, sessionId), ("fileId".toList, fileId), ("token".toList, token)]

def cancelParameters (sessionId : Text) : List (Text × Text) := [("sessionId".toList, sessionId)]

section Urls

variable {protocol : ProtocolType} {ip : Text} {port : UInt16}

theorem uploadUrl_join (sessionId fileId token : Text) :
    uploadUrl ⟨protocol, ip, port, sessionId, token⟩ fileId =
      formatUrl protocol ip port "/upload".toList ++
        '?' :: join (uploadParameters sessionId fileId token) := by
  have hsession : "/upload?sessionId=".toList = "/upload".toList ++ '?' :: "sessionId=".toList := rfl
  have hname : "sessionId=".toList = "sessionId".toList ++ ['='] := rfl
  have hfile : "&fileId=".toList = '&' :: "fileId".toList ++ ['='] := rfl
  have htoken : "&token=".toList = '&' :: "token".toList ++ ['='] := rfl
  simp [uploadUrl, formatUrl, uploadParameters, join, hsession, hname, hfile, htoken]

theorem cancelUrl_join (sessionId : Text) :
    cancelUrl protocol ip port sessionId =
      formatUrl protocol ip port "/cancel".toList ++ '?' :: join (cancelParameters sessionId) := by
  have hsession : "/cancel?sessionId=".toList = "/cancel".toList ++ '?' :: "sessionId=".toList := rfl
  have hname : "sessionId=".toList = "sessionId".toList ++ ['='] := rfl
  simp [cancelUrl, formatUrl, cancelParameters, join, hsession, hname]

/-- A character that stands in the address of a URL. -/
def isPlain (c : Char) : Bool := !isBlank c && c ≠ '#' && c ≠ '?'

theorem addressChar_isPlain {c : Char} (h : AddressChar c) : isPlain c = true := by
  obtain ⟨_, _, _, _, hquery, hsign⟩ := addressChar_ne h
  have hblank : isBlank c = false := by
    by_contra hb
    rw [Bool.not_eq_false, isBlank, decide_eq_true_eq] at hb
    rcases h with h | rfl | rfl
    · simp only [isHexDigit, Bool.or_eq_true, Bool.and_eq_true, decide_eq_true_eq] at h
      rcases h with (h | h) | h
      · rw [Char.isDigit, Bool.and_eq_true, decide_eq_true_eq] at h
        have hzero : '0' ≤ c := h.1
        exact absurd (Char.le_trans hzero hb) (by decide)
      · exact absurd (Char.le_trans h.1 hb) (by decide)
      · exact absurd (Char.le_trans h.1 hb) (by decide)
    · exact absurd hb (by decide)
    · exact absurd hb (by decide)
  simp [isPlain, hblank, hquery, hsign]

theorem formatUrl_isPlain (hip : ∀ c ∈ ip, AddressChar c) {tail : Text}
    (htail : tail.all isPlain = true) :
    (formatUrl protocol ip port tail).all isPlain = true := by
  have hscheme : protocol.asStr.all isPlain = true := by cases protocol <;> decide
  have hipPlain : ip.all isPlain = true :=
    List.all_eq_true.mpr fun c hc => addressChar_isPlain (hip c hc)
  have hport : (portText port).all isPlain = true :=
    List.all_eq_true.mpr fun c hc => addressChar_isPlain (isDigit_address (portText_digits c hc))
  have hfixed : "://".toList.all isPlain = true ∧ ":".toList.all isPlain = true ∧
      basePath.all isPlain = true := by decide
  rw [formatUrl]
  simp only [List.all_append, hscheme, hfixed, hipPlain, hport, htail, Bool.and_self]

theorem uploadParameters_names (sessionId fileId token : Text) :
    ∀ p ∈ uploadParameters sessionId fileId token, isName p.1 = true := by
  simp only [uploadParameters, List.forall_mem_cons]
  exact ⟨by decide, by decide, by decide, fun _ h => absurd h List.not_mem_nil⟩

theorem cancelParameters_names (sessionId : Text) :
    ∀ p ∈ cancelParameters sessionId, isName p.1 = true := by
  simp only [cancelParameters, List.forall_mem_cons]
  exact ⟨by decide, fun _ h => absurd h List.not_mem_nil⟩

/-- **The parameters behind a path are read back**: the address must make a URL, which one with a
    colon does not. -/
theorem hasQuery_iff (hip : isIPv4 ip = true ∨ isIPv6 ip = true) {path : Text}
    (hpath : path.all isPlain = true) {ps : List (Text × Text)}
    (hnames : ∀ p ∈ ps, isName p.1 = true) :
    HasQuery (formatUrl protocol ip port path ++ '?' :: join ps) ps ↔
      ':' ∉ ip ∧ (∀ p ∈ ps, isLiteral p.2 = true) ∧
        ∀ p, ps.getLast? = some p → endsVisibly p.2 = true := by
  have haddress : ∀ c ∈ ip, AddressChar c := hip.elim isIPv4_addressChar isIPv6_chars
  have hplain : ∀ c ∈ formatUrl protocol ip port path, isBlank c = false ∧ c ≠ '#' ∧ c ≠ '?' := by
    intro c hc
    have h := List.all_eq_true.mp (formatUrl_isPlain haddress hpath) c hc
    simpa [isPlain, and_assoc] using h
  have hne : formatUrl protocol ip port path ≠ [] := by simp [formatUrl]
  have htail : ∀ rest, formatUrl protocol ip port path ++ '?' :: rest =
      formatUrl protocol ip port (path ++ '?' :: rest) := by
    intro rest
    simp only [formatUrl, List.append_assoc]
  rw [HasQuery]
  rcases hip with hip | hip
  · have hcolon : ':' ∉ ip := fun h => isIPv4_ne_colon hip ':' h rfl
    rw [parameters_query_iff hne hplain (fun rest => by rw [htail, formatUrl_ipv4 hip]) hnames]
    exact (and_iff_right hcolon).symm
  · rw [query_none hne hplain fun rest => by rw [htail, formatUrl_ipv6 hip], Option.map_none]
    exact iff_of_false (by simp) fun h => h.1 (isIPv6_colon hip)

end Urls

/-- **The queries decode to what was put in** exactly if the address has no colon, every value is
    literal, and the last one does not end with a space. -/
theorem queries_decode_iff (protocol : ProtocolType) (ip : Text) (port : UInt16)
    (sessionId fileId token : Text) (hip : isIPv4 ip = true ∨ isIPv6 ip = true) :
    (HasQuery (uploadUrl ⟨protocol, ip, port, sessionId, token⟩ fileId)
        (uploadParameters sessionId fileId token) ↔
      ':' ∉ ip ∧ (isLiteral sessionId = true ∧ isLiteral fileId = true ∧ isLiteral token = true) ∧
        endsVisibly token = true) ∧
    (HasQuery (cancelUrl protocol ip port sessionId) (cancelParameters sessionId) ↔
      ':' ∉ ip ∧ isLiteral sessionId = true ∧ endsVisibly sessionId = true) := by
  constructor
  · rw [uploadUrl_join, hasQuery_iff hip (by decide) (uploadParameters_names _ _ _)]
    simp [uploadParameters]
  · rw [cancelUrl_join, hasQuery_iff hip (by decide) (cancelParameters_names _)]
    simp [cancelParameters]

theorem queries_decode_iff_plainIds :
    HasQuery (uploadUrl ⟨.https, "192.168.178.20".toList, 53317, "a b".toList, "t=1".toList⟩
      "f%g".toList) (uploadParameters "a b".toList "f%g".toList "t=1".toList) ∧
    HasQuery (cancelUrl .https "192.168.178.20".toList 53317 "a b".toList)
      (cancelParameters "a b".toList) ∧
    ¬ HasQuery (cancelUrl .https "::1".toList 53317 "a b".toList)
      (cancelParameters "a b".toList) := by
  have hip4 := queries_decode_iff .https "192.168.178.20".toList 53317 "a b".toList "f%g".toList
    "t=1".toList (Or.inl (by decide))
  have hip6 := queries_decode_iff .https "::1".toList 53317 "a b".toList "f%g".toList "t=1".toList
    (Or.inr (by decide))
  exact ⟨hip4.1.mpr (by decide), hip4.2.mpr (by decide), fun h => (hip6.2.mp h).1 (by decide)⟩

/-- **A file id that names a token**: the query has four parameters, and two tokens. -/
theorem token_twice :
    (query (uploadUrl ⟨.https, "192.168.178.20".toList, 53317, "session".toList,
      "secret".toList⟩ "1&token=other".toList)).map parameters =
        some [(utf8 "sessionId".toList, utf8 "session".toList),
          (utf8 "fileId".toList, utf8 "1".toList), (utf8 "token".toList, utf8 "other".toList),
          (utf8 "token".toList, utf8 "secret".toList)] ∧
    ¬ HasQuery (uploadUrl ⟨.https, "192.168.178.20".toList, 53317, "session".toList,
        "secret".toList⟩ "1&token=other".toList)
      (uploadParameters "session".toList "1&token=other".toList "secret".toList) := by
  have hread : (query (uploadUrl ⟨.https, "192.168.178.20".toList, 53317, "session".toList,
      "secret".toList⟩ "1&token=other".toList)).map parameters =
        some [(utf8 "sessionId".toList, utf8 "session".toList),
          (utf8 "fileId".toList, utf8 "1".toList), (utf8 "token".toList, utf8 "other".toList),
          (utf8 "token".toList, utf8 "secret".toList)] := by
    decide
  refine ⟨hread, fun h => ?_⟩
  rw [HasQuery, hread] at h
  exact absurd (congrArg List.length (Option.some.inj h)) (by decide)

end LocalSend.Http
