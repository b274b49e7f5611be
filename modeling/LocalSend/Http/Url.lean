/-
  File:      LocalSend/Http/Url.lean
  Subject:   THE URLS OF THE CLIENT (`core/src/http/client/url.rs`, `core/src/http/client/mod.rs`).

  * `TargetUrl.fmt` -- the shared type, which brackets a host with a colon; `nonceUrl` goes through
    it;
  * `registerUrl`, `prepareUploadUrl`, `uploadUrl`, `cancelUrl` -- formatted at the call site, the
    address as it is;
  * `SameEndpoint` -- the five URLs have one scheme, host and port;
  * **`same_endpoint_iff`** -- for an IPv4 or IPv6 address they do exactly if it has no colon;
    `loopback_unbracketed`: the URLs of `::1`.
-/
import LocalSend.Lib.Uri

namespace LocalSend.Http

open Lib Uri

/-! ## 1. The URLs -/

inductive ProtocolType where
  | http | https
  deriving DecidableEq, Repr

def ProtocolType.asStr : ProtocolType → Text
  | .http => "http".toList
  | .https => "https".toList

inductive ApiVersion where
  | v3
  deriving DecidableEq, Repr

structure TargetUrl where
  version : ApiVersion
  protocol : ProtocolType
  host : Text
  port : UInt16
  path : Text

/-- A number in decimal digits. -/
def portText (port : UInt16) : Text := Nat.toDigits 10 port.toNat

/-- `impl Display for TargetUrl`. -/
def TargetUrl.fmt (u : TargetUrl) : Text :=
  u.protocol.asStr ++ "://".toList ++
    (if ':' ∈ u.host then "[".toList ++ u.host ++ "]".toList else u.host) ++ ":".toList ++
    portText u.port ++ "/api/localsend/".toList ++
    (match u.version with
      | .v3 => "v3".toList) ++
    u.path

/-- `BASE_PATH`. -/
def basePath : Text := "/api/localsend/v3".toList

structure UploadTarget where
  protocol : ProtocolType
  ip : Text
  port : UInt16
  sessionId : Text
  token : Text

def nonceUrl (protocol : ProtocolType) (ip : Text) (port : UInt16) : Text :=
  TargetUrl.fmt ⟨.v3, protocol, ip, port, "/nonce".toList⟩

/-- `format!("{}://{}:{}{}…", protocol, ip, port, BASE_PATH)`. -/
def formatUrl (protocol : ProtocolType) (ip : Text) (port : UInt16) (tail : Text) : Text :=
  protocol.asStr ++ "://".toList ++ ip ++ ":".toList ++ portText port ++ basePath ++ tail

def registerUrl (protocol : ProtocolType) (ip : Text) (port : UInt16) : Text :=
  formatUrl protocol ip port "/register".toList

def prepareUploadUrl (protocol : ProtocolType) (ip : Text) (port : UInt16) : Text :=
  formatUrl protocol ip port "/prepare-upload".toList

def uploadUrl (target : UploadTarget) (fileId : Text) : Text :=
  formatUrl target.protocol target.ip target.port
    ("/upload?sessionId=".toList ++ target.sessionId ++ "&fileId=".toList ++ fileId ++
      "&token=".toList ++ target.token)

def cancelUrl (protocol : ProtocolType) (ip : Text) (port : UInt16) (sessionId : Text) : Text :=
  formatUrl protocol ip port ("/cancel?sessionId=".toList ++ sessionId)

/-! ## 2. What they address -/

section Endpoints

variable {protocol : ProtocolType} {ip auth : Text} {port : UInt16}

theorem portText_digits : ∀ c ∈ portText port, c.isDigit = true := fun _ hc =>
  Nat.isDigit_of_mem_toDigits (by decide) (by decide) hc

/-- The endpoint of a URL is read from its authority. -/
theorem endpoint_authority (h : ∀ c ∈ auth, endsAuthority c = false) (rest : Text) :
    endpoint (protocol.asStr ++ ':' :: '/' :: '/' :: (auth ++ '/' :: rest)) =
      (authority auth).map fun a => (protocol.asStr, a.host, a.port) := by
  have hscheme : isScheme protocol.asStr = true := by cases protocol <;> decide
  have hall : protocol.asStr.all (fun c => endsScheme c == false) = true := by
    cases protocol <;> decide
  have hends : ∀ c ∈ protocol.asStr, endsScheme c = false := by
    intro c hc
    exact eq_of_beq (List.all_eq_true.mp hall c hc)
  rw [endpoint, parse_authority hscheme hends h, Option.map_map]
  rfl

/-- What follows the address does not end the authority. -/
theorem endsAuthority_port (port : UInt16) (h : ∀ c ∈ ip, AddressChar c) :
    ∀ c ∈ ip ++ ':' :: portText port, endsAuthority c = false := by
  have hchar : ∀ {c}, AddressChar c → endsAuthority c = false := by
    intro c hc
    obtain ⟨_, _, _, h1, h2, h3⟩ := addressChar_ne hc
    simp [endsAuthority, h1, h2, h3]
  intro c hc
  simp only [List.mem_append, List.mem_cons] at hc
  rcases hc with hc | rfl | hc
  · exact hchar (h c hc)
  · decide
  · exact hchar (isDigit_address (portText_digits c hc))

theorem formatUrl_endpoint (h : ∀ c ∈ ip, AddressChar c) (tail : Text) :
    endpoint (formatUrl protocol ip port tail) =
      (authority (ip ++ ':' :: portText port)).map fun a => (protocol.asStr, a.host, a.port) := by
  have htext : formatUrl protocol ip port tail = protocol.asStr ++ ':' :: '/' :: '/' ::
      ((ip ++ ':' :: portText port) ++ '/' :: ("api/localsend/v3".toList ++ tail)) := by
    have hbase : basePath = '/' :: "api/localsend/v3".toList := rfl
    have hslashes : "://".toList = [':', '/', '/'] := rfl
    have hcolon : ":".toList = [':'] := rfl
    rw [formatUrl, hbase, hslashes, hcolon]
    simp only [List.append_assoc, List.cons_append, List.nil_append]
  rw [htext, endpoint_authority (endsAuthority_port port h)]

/-- Without a colon the shared type formats as the call sites do. -/
theorem nonceUrl_plain (h : ':' ∉ ip) :
    nonceUrl protocol ip port = formatUrl protocol ip port "/nonce".toList := by
  have hbase : basePath = "/api/localsend/".toList ++ "v3".toList := rfl
  simp only [nonceUrl, TargetUrl.fmt, if_neg h, formatUrl, hbase, List.append_assoc]

/-- **The shared type addresses an IPv6 host.** -/
theorem nonceUrl_bracketed (hip : isIPv6 ip = true) :
    endpoint (nonceUrl protocol ip port) =
      some (protocol.asStr, .ipv6 ip, some (portText port)) := by
  have htext : nonceUrl protocol ip port = protocol.asStr ++ ':' :: '/' :: '/' ::
      (('[' :: ip ++ ']' :: ':' :: portText port) ++ '/' :: "api/localsend/v3/nonce".toList) := by
    have hbase : "/api/localsend/".toList ++ ("v3".toList ++ "/nonce".toList) =
        '/' :: "api/localsend/v3/nonce".toList := rfl
    have hslashes : "://".toList = [':', '/', '/'] := rfl
    have hcolon : ":".toList = [':'] := rfl
    have hopen : "[".toList = ['['] := rfl
    have hclose : "]".toList = [']'] := rfl
    simp only [nonceUrl, TargetUrl.fmt, if_pos (isIPv6_colon hip), hslashes, hcolon, hopen, hclose,
      List.append_assoc, hbase, List.cons_append, List.nil_append]
  have hends : ∀ c ∈ '[' :: ip ++ ']' :: ':' :: portText port, endsAuthority c = false := by
    have hport := endsAuthority_port port (isIPv6_chars hip)
    intro c hc
    simp only [List.cons_append, List.mem_cons, List.mem_append] at hc hport
    rcases hc with rfl | hc | rfl | hc
    · decide
    · exact hport c (Or.inl hc)
    · decide
    · exact hport c (Or.inr hc)
  rw [htext, endpoint_authority hends, authority_bracketed hip portText_digits]
  rfl

/-! ## 3. One endpoint -/

/-- **The URLs of all calls have the scheme, host and port of the nonce's.** -/
def SameEndpoint (protocol : ProtocolType) (ip : Text) (port : UInt16)
    (sessionId token fileId : Text) : Prop :=
  ∃ e, endpoint (nonceUrl protocol ip port) = some e ∧
    endpoint (registerUrl protocol ip port) = some e ∧
    endpoint (prepareUploadUrl protocol ip port) = some e ∧
    endpoint (uploadUrl ⟨protocol, ip, port, sessionId, token⟩ fileId) = some e ∧
    endpoint (cancelUrl protocol ip port sessionId) = some e

/-- **An IPv4 address** as the call sites format it is an endpoint, whatever follows. -/
theorem formatUrl_ipv4 (hip : isIPv4 ip = true) (tail : Text) :
    endpoint (formatUrl protocol ip port tail) =
      some (protocol.asStr, .ipv4 ip, some (portText port)) := by
  rw [formatUrl_endpoint (isIPv4_addressChar hip), authority_plain hip portText_digits]
  rfl

theorem same_endpoint_ipv4 (hip : isIPv4 ip = true) (sessionId token fileId : Text) :
    SameEndpoint protocol ip port sessionId token fileId := by
  have hcolon : ':' ∉ ip := fun h => isIPv4_ne_colon hip ':' h rfl
  refine ⟨_, ?_, formatUrl_ipv4 hip _, formatUrl_ipv4 hip _, formatUrl_ipv4 hip _,
    formatUrl_ipv4 hip _⟩
  rw [nonceUrl_plain hcolon]
  exact formatUrl_ipv4 hip _

/-- **An address with a colon** as the call sites format it is no endpoint. -/
theorem formatUrl_ipv6 (hip : isIPv6 ip = true) (tail : Text) :
    endpoint (formatUrl protocol ip port tail) = none := by
  rw [formatUrl_endpoint (isIPv6_chars hip), authority_colon hip (digits_not_at portText_digits)]
  rfl

end Endpoints

/-- **All calls address the endpoint of the nonce call**, for an IPv4 or IPv6 address, exactly if
    the address has no colon. -/
theorem same_endpoint_iff (protocol : ProtocolType) (ip : Text) (port : UInt16)
    (sessionId token fileId : Text) (hip : isIPv4 ip = true ∨ isIPv6 ip = true) :
    SameEndpoint protocol ip port sessionId token fileId ↔ ':' ∉ ip := by
  rcases hip with hip | hip
  · refine ⟨fun _ h => isIPv4_ne_colon hip ':' h rfl, fun _ => ?_⟩
    exact same_endpoint_ipv4 hip sessionId token fileId
  · refine ⟨?_, fun h => absurd (isIPv6_colon hip) h⟩
    intro h
    obtain ⟨e, _, hregister, _⟩ := h
    rw [registerUrl, formatUrl_ipv6 hip] at hregister
    cases hregister

theorem same_endpoint_iff_privateAddress :
    SameEndpoint .https "192.168.178.20".toList 53317 "session".toList "token".toList
      "file".toList :=
  (same_endpoint_iff .https "192.168.178.20".toList 53317 _ _ _ (Or.inl (by decide))).mpr
    (by decide)

/-- **The URLs of `::1`**: only the nonce call reaches it. -/
theorem loopback_unbracketed :
    isIPv6 "::1".toList = true ∧
    endpoint (nonceUrl .https "::1".toList 53317) =
      some ("https".toList, .ipv6 "::1".toList, some "53317".toList) ∧
    endpoint (registerUrl .https "::1".toList 53317) = none ∧
    ¬ SameEndpoint .https "::1".toList 53317 "session".toList "token".toList "file".toList := by
  have hip : isIPv6 "::1".toList = true := by decide
  refine ⟨hip, nonceUrl_bracketed hip, formatUrl_ipv6 hip _, ?_⟩
  intro h
  obtain ⟨e, _, hregister, _⟩ := h
  rw [registerUrl, formatUrl_ipv6 hip] at hregister
  cases hregister

end LocalSend.Http
