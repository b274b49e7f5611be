/-
  File:      LocalSend/Http/AppRequests.lean
  Subject:   THE REQUESTS OF THE APP, from the call to the handler (`api_route_builder.dart`,
             `simple_server.dart`, the routes of `receive_controller.dart` and
             `send_controller.dart`).

  * `ApiRoute` -- the paths of both versions; `uriText`, `ApiRoute.target`, `ApiRoute.targetRaw` --
    the URLs built from them;
  * `Call`, `Call.request` -- every request that an app sends to another one, or to itself;
    `HttpClient` -- the package that sends it, and writes its query in form coding;
  * `routes`, `dispatch` -- the server: the handler of a method and a path. A method that it does
    not know throws, and nobody answers (`dispatch_unanswered`);
  * **`call_arrives_iff`** -- a call reaches the address it is meant for and the handler of its
    route and version, and this handler gets what was sent, exactly if the port has 16 bits and it
    is no poll of an IPv6 address;
  * **`transfer_read_iff`** -- what the handlers of a transfer read are the requests of
    `Transfer.network`, exactly if the port has 16 bits and no parameter begins with a byte order
    mark.

  Host names are left out: `Uri` would write them in lower case and with escapes.
-/
import LocalSend.Lib.Form
import LocalSend.Transfer.Network

namespace LocalSend.Api

open Lib Uri

/-! ## 1. Routes and URLs -/

inductive HttpMethod where
  | get | post
  deriving DecidableEq, Repr

def HttpMethod.methodName : HttpMethod → Text
  | .get => "GET".toList
  | .post => "POST".toList

def HttpMethod.values : List HttpMethod := [.get, .post]

inductive ApiRoute where
  | info | register | prepareUpload | upload | cancel | show | prepareDownload | download
  deriving DecidableEq, Repr

/-- `_basePath`. -/
def basePath : Text := "/api/localsend".toList

def ApiRoute.path : ApiRoute → Text
  | .info => "info".toList
  | .register => "register".toList
  | .prepareUpload => "prepare-upload".toList
  | .upload => "upload".toList
  | .cancel => "cancel".toList
  | .show => "show".toList
  | .prepareDownload => "prepare-download".toList
  | .download => "download".toList

/-- The names of two routes in v1. -/
def ApiRoute.legacy : ApiRoute → Option Text
  | .prepareUpload => some "send-request".toList
  | .upload => some "send".toList
  | _ => none

def ApiRoute.v1 (r : ApiRoute) : Text := basePath ++ "/v1/".toList ++ r.legacy.getD r.path

def ApiRoute.v2 (r : ApiRoute) : Text := basePath ++ "/v2/".toList ++ r.path

/-- A number in the text of another value. -/
def intText : Int → Text
  | .ofNat n => Nat.toDigits 10 n
  | .negSucc n => '-' :: Nat.toDigits 10 (n + 1)

def scheme (https : Bool) : Text := if https then "https".toList else "http".toList

/-- The port of a scheme, which a URI leaves out. -/
def schemePort (https : Bool) : Int := if https then 443 else 80

/-- A parameter, as `Uri` writes it: an empty value has no sign. -/
def writeParameter (p : Text × Text) : Text :=
  Form.encode isUnreserved p.1 ++
    if p.2 = [] then [] else '=' :: Form.encode isUnreserved p.2

/-- A host with a colon stands in brackets. -/
def bracketed (host : Text) : Text := if ':' ∈ host then '[' :: host ++ [']'] else host

def portPart (https : Bool) (port : Int) : Text :=
  if port = schemePort https then [] else ':' :: intText port

/-- Without a host and with the port of its scheme, a URI has no authority. -/
def authorityPart (https : Bool) (host : Option Text) (port : Int) : Text :=
  if host = none ∧ port = schemePort https then []
  else '/' :: '/' :: (bracketed (host.getD []) ++ portPart https port)

/-- A query with its sign, if there are parameters. -/
def queryPart (write : Text × Text → Text) (ps : List (Text × Text)) : Text :=
  if ps = [] then [] else '?' :: ['&'].intercalate (ps.map write)

/-- `Uri(scheme: …, host: …, port: …, path: …, queryParameters: …).toString()`. -/
def uriText (https : Bool) (host : Option Text) (port : Int) (path : Text)
    (queryParameters : Option (List (Text × Text))) : Text :=
  scheme https ++ ':' :: (authorityPart https host port ++
    (path ++ (queryParameters.map fun ps =>
      '?' :: ['&'].intercalate (ps.map writeParameter)).getD []))

/-- The path of a route for a peer of this version. -/
def ApiRoute.versioned (r : ApiRoute) (version : String) : Text :=
  if version = "1.0" then r.v1 else r.v2

/-- The client url. -/
def ApiRoute.target (r : ApiRoute) (target : Device) (query : Option (List (Text × Text))) : Text :=
  uriText target.https (target.ip.map String.toList) target.port (r.versioned target.version) query

/-- The client url for polling. -/
def ApiRoute.targetRaw (r : ApiRoute) (ip : Text) (port : Int) (https : Bool) (version : String) :
    Text :=
  scheme https ++ ':' :: '/' :: '/' :: ((ip ++ ':' :: intText port) ++ r.versioned version)

/-! ## 2. The calls -/

/-- What a client is asked to send. -/
structure Request where
  method : HttpMethod
  url : Text
  query : List (Text × Text)

def peerProtocolVersion : String := "1.0"

/-- A parameter that is left out without a value. -/
def optional (name : String) (value : Option String) : List (Text × Text) :=
  (value.map fun v => (name.toList, v.toList)).toList

/-- **The requests of the app.** -/
inductive Call where
  /-- `HttpTargetDiscoveryService.discover` -/
  | info (ip : String) (port : Int) (https : Bool) (fingerprint : String)
  /-- `_answerAnnouncement` -/
  | register (peer : Device)
  /-- `submitRequest` -/
  | prepareUpload (target : Device) (pin : Option String)
  /-- `HttpUploadService.upload` -/
  | upload (target : Device) (remoteSessionId : Option String) (fileId token : String)
  /-- `cancelSession` of the send service, and of the receive controller -/
  | cancel (target : Device) (sessionId : Option String)
  /-- the start of a second instance on a desktop -/
  | show (port : Int) (https : Bool) (token : String)

def Call.request : Call → Request
  | .info ip port https fingerprint =>
    ⟨.get, ApiRoute.info.targetRaw ip.toList port https peerProtocolVersion,
      [("fingerprint".toList, fingerprint.toList)]⟩
  | .register peer => ⟨.post, ApiRoute.register.target peer none, []⟩
  | .prepareUpload target pin => ⟨.post, ApiRoute.prepareUpload.target target none,
      optional "pin" pin⟩
  | .upload target remoteSessionId fileId token =>
    ⟨.post, ApiRoute.upload.target target none,
      optional "sessionId" remoteSessionId ++
        [("fileId".toList, fileId.toList), ("token".toList, token.toList)]⟩
  | .cancel target sessionId =>
    ⟨.post, ApiRoute.cancel.target target
      (sessionId.map fun id => [("sessionId".toList, id.toList)]), []⟩
  | .show port https token =>
    ⟨.post, ApiRoute.show.targetRaw "127.0.0.1".toList port https peerProtocolVersion,
      [("token".toList, token.toList)]⟩

/-- `package:rhttp` with `reqwest` behind it: a query is added in form coding; which characters
    it keeps as they are is its own business. -/
structure HttpClient where
  keeps : Char → Bool
  plain : Form.Plain keeps

/-- A parameter, as the client writes it. -/
def HttpClient.parameter (client : HttpClient) (p : Text × Text) : Text :=
  Form.encode client.keeps p.1 ++ '=' :: Form.encode client.keeps p.2

/-- The URL a request goes to. -/
def HttpClient.url (client : HttpClient) (request : Request) : Text :=
  if request.query = [] then request.url
  else request.url ++ '?' :: ['&'].intercalate (request.query.map client.parameter)

/-! ## 3. The server -/

inductive Handler where
  | info | register
  | prepareUpload (v2 : Bool)
  | upload (v2 : Bool)
  | cancel (v2 : Bool)
  | show | page | script | translations | prepareDownload | download
  deriving DecidableEq, Repr

/-- `ReceiveController.installRoutes`. -/
def receiveRoutes : List ((HttpMethod × Text) × Handler) :=
  [((.get, ApiRoute.info.v1), .info), ((.get, ApiRoute.info.v2), .info),
    ((.post, ApiRoute.register.v1), .register), ((.post, ApiRoute.register.v2), .register),
    ((.post, ApiRoute.prepareUpload.v1), .prepareUpload false),
    ((.post, ApiRoute.prepareUpload.v2), .prepareUpload true),
    ((.post, ApiRoute.upload.v1), .upload false), ((.post, ApiRoute.upload.v2), .upload true),
    ((.post, ApiRoute.cancel.v1), .cancel false), ((.post, ApiRoute.cancel.v2), .cancel true),
    ((.post, ApiRoute.show.v1), .show), ((.post, ApiRoute.show.v2), .show)]

/-- `SendController.installRoutes`. -/
def sendRoutes : List ((HttpMethod × Text) × Handler) :=
  [((.get, "/".toList), .page), ((.get, "/main.js".toList), .script),
    ((.get, "/i18n.json".toList), .translations),
    ((.post, ApiRoute.prepareDownload.v2), .prepareDownload),
    ((.get, ApiRoute.download.v2), .download)]

/-- `SimpleServerRouteBuilder._routes`. -/
def routes : LinkedMap (HttpMethod × Text) Handler := .ofList (receiveRoutes ++ sendRoutes)

inductive Dispatched where
  | handled (handler : Handler)
  /-- 404 -/
  | notFound
  /-- the listener throws, and nobody answers -/
  | unanswered
  deriving DecidableEq, Repr

/-- The listener of `SimpleServer.start`: `firstWhere` throws for a method without a name here. -/
def dispatch (method path : Text) : Dispatched :=
  match HttpMethod.values.find? fun m => m.methodName = method with
  | none => .unanswered
  | some m =>
    match routes.get? (m, path) with
    | some handler => .handled handler
    | none => .notFound

/-- `request.uri.path`. -/
def uriPath (target : Text) : Text := target.takeWhile (· ≠ '?')

/-- `request.uri.queryParameters`. -/
def queryParameters (target : Text) : Option (LinkedMap Text Text) :=
  Form.split ((target.dropWhile (· ≠ '?')).drop 1)

/-- A method other than GET and POST is never answered, whatever the path. -/
theorem dispatch_unanswered {method : Text} (path : Text) :
    dispatch method path = .unanswered ↔ ∀ m, HttpMethod.methodName m ≠ method := by
  unfold dispatch
  split
  · rename_i hfind
    refine iff_of_true rfl fun m => ?_
    have hm : m ∈ HttpMethod.values := by cases m <;> decide
    simpa using List.find?_eq_none.mp hfind m hm
  · rename_i m hfind
    refine iff_of_false ?_ fun hnot => hnot m ?_
    · split <;> exact Dispatched.noConfusion
    · simpa using List.find?_some hfind

/-! ## 4. What a call means -/

namespace Call

/-- Where a call goes: address, port, and whether by https. -/
def ip : Call → Option String
  | .info ip _ _ _ => some ip
  | .register target | .prepareUpload target _ | .upload target _ _ _ | .cancel target _ =>
    target.ip
  | .show _ _ _ => some "127.0.0.1"

def port : Call → Int
  | .info _ port _ _ | .show port _ _ => port
  | .register target | .prepareUpload target _ | .upload target _ _ _ | .cancel target _ =>
    target.port

def https : Call → Bool
  | .info _ _ https _ | .show _ https _ => https
  | .register target | .prepareUpload target _ | .upload target _ _ _ | .cancel target _ =>
    target.https

def route : Call → ApiRoute
  | .info _ _ _ _ => .info
  | .register _ => .register
  | .prepareUpload _ _ => .prepareUpload
  | .upload _ _ _ _ => .upload
  | .cancel _ _ => .cancel
  | .show _ _ _ => .show

def version : Call → String
  | .info _ _ _ _ | .show _ _ _ => peerProtocolVersion
  | .register target | .prepareUpload target _ | .upload target _ _ _ | .cancel target _ =>
    target.version

/-- **The handler a call is meant for.** -/
def handler : Call → Handler
  | .info _ _ _ _ => .info
  | .register _ => .register
  | .prepareUpload target _ => .prepareUpload (target.version ≠ "1.0")
  | .upload target _ _ _ => .upload (target.version ≠ "1.0")
  | .cancel target _ => .cancel (target.version ≠ "1.0")
  | .show _ _ _ => .show

/-- **What a call says**, by name. -/
def parameters : Call → List (Text × Text)
  | .info _ _ _ fingerprint => [("fingerprint".toList, fingerprint.toList)]
  | .register _ => []
  | .prepareUpload _ pin => optional "pin" pin
  | .upload _ remoteSessionId fileId token =>
    optional "sessionId" remoteSessionId ++
      [("fileId".toList, fileId.toList), ("token".toList, token.toList)]
  | .cancel _ sessionId => optional "sessionId" sessionId
  | .show _ _ token => [("token".toList, token.toList)]

/-- What writes the parameters of a call. -/
def writer (client : HttpClient) : Call → Text × Text → Text
  | .cancel _ _ => writeParameter
  | _ => client.parameter

/-- The address is put into the URL as it is. -/
def raw : Call → Bool
  | .info _ _ _ _ | .show _ _ _ => true
  | .register _ | .prepareUpload _ _ | .upload _ _ _ _ | .cancel _ _ => false

/-- The authority of the URL of a call to this address. -/
def authorityText (call : Call) (ip : String) : Text :=
  if call.raw then ip.toList ++ ':' :: intText call.port
  else bracketed ip.toList ++ portPart call.https call.port

def path (call : Call) : Text := call.route.versioned call.version

end Call

section Arrival

variable {client : HttpClient} {call : Call} {ip : String}

theorem url_append (client : HttpClient) (request : Request) :
    client.url request = request.url ++ queryPart client.parameter request.query := by
  unfold HttpClient.url queryPart
  split
  · rw [List.append_nil]
  · rfl

theorem target_eq {target : Device} (r : ApiRoute) (query : Option (List (Text × Text)))
    (hip : target.ip = some ip) :
    r.target target query = scheme target.https ++ ':' :: '/' :: '/' ::
      ((bracketed ip.toList ++ portPart target.https target.port) ++
        (r.versioned target.version ++ (query.map fun ps =>
          '?' :: ['&'].intercalate (ps.map writeParameter)).getD [])) := by
  rw [ApiRoute.target, uriText, hip, authorityPart, if_neg fun h => by simpa using h.1]
  rfl

theorem url_assoc (s auth path query : Text) :
    s ++ ':' :: '/' :: '/' :: (auth ++ path) ++ query =
      s ++ ':' :: '/' :: '/' :: (auth ++ (path ++ query)) := by
  simp only [List.append_assoc, List.cons_append]

/-- **The URL of every call has the same form.** -/
theorem url_eq (client : HttpClient) (call : Call) (hip : call.ip = some ip) :
    client.url call.request = scheme call.https ++ ':' :: '/' :: '/' ::
      (call.authorityText ip ++ (call.path ++ queryPart (call.writer client) call.parameters)) := by
  rw [url_append, ← url_assoc]
  cases call with
  | info _ port https fingerprint =>
      obtain rfl := Option.some.inj hip
      rfl
  | «show» port https token =>
      obtain rfl := Option.some.inj hip
      rfl
  | register target =>
      rw [Call.request, target_eq _ _ hip, Option.map_none, Option.getD_none, List.append_nil]
      rfl
  | prepareUpload target pin =>
      rw [Call.request, target_eq _ _ hip, Option.map_none, Option.getD_none, List.append_nil]
      rfl
  | upload target remoteSessionId fileId token =>
      rw [Call.request, target_eq _ _ hip, Option.map_none, Option.getD_none, List.append_nil]
      rfl
  | cancel target sessionId =>
      have hquery : queryPart client.parameter [] = [] := rfl
      rw [Call.request, target_eq _ _ hip, ← url_assoc, hquery, List.append_nil]
      cases sessionId <;> rfl

end Arrival

/-! ## 5. Where a call arrives -/

/-- The host of an address. -/
def hostOf (ip : String) : Host := if isIPv4 ip.toList then .ipv4 ip.toList else .ipv6 ip.toList

section Address

variable {call : Call} {ip : String} {https : Bool} {port : Int}

theorem toDigits_isDigit (n : Nat) : ∀ c ∈ Nat.toDigits 10 n, c.isDigit = true := fun _ hc =>
  Nat.isDigit_of_mem_toDigits (by decide) (by decide) hc

theorem intText_chars : ∀ c ∈ intText port, c.isDigit = true ∨ c = '-' := by
  intro c hc
  cases port with
  | ofNat n => exact .inl (toDigits_isDigit n c hc)
  | negSucc n =>
      rcases List.mem_cons.mp hc with rfl | hc
      · exact .inr rfl
      · exact .inl (toDigits_isDigit (n + 1) c hc)

theorem intText_not_at : '@' ∉ intText port := by
  intro h
  rcases intText_chars _ h with hdigit | heq
  · exact absurd hdigit (by decide)
  · exact absurd heq (by decide)

/-- **A port is read back** if it is not negative. -/
theorem portAfter_intText :
    portAfter (':' :: intText port) = if 0 ≤ port then some (some (intText port)) else none := by
  cases port with
  | ofNat n =>
      have hpos : 0 ≤ Int.ofNat n := Int.natCast_nonneg n
      rw [if_pos hpos]
      exact portAfter_digits (toDigits_isDigit n)
  | negSucc n =>
      rw [if_neg (Int.not_le.mpr (Int.negSucc_lt_zero n)), portAfter]
      refine if_neg fun h => ?_
      exact absurd (List.all_eq_true.mp h.2 '-' List.mem_cons_self) (by decide)

/-- A port that is read has 16 bits if its number has. -/
theorem intText_fits (hport : 0 ≤ port) (host : Host) :
    (⟨none, host, some (intText port)⟩ : Authority).portFits = true ↔ port ≤ 65535 := by
  obtain ⟨n, rfl⟩ := Int.eq_ofNat_of_zero_le hport
  have hnumber : Nat.ofDigitChars 10 (intText n) 0 = n := Nat.ofDigitChars_ten_toDigits
  simp only [Authority.portFits, Option.all_some, hnumber, decide_eq_true_eq]
  omega

theorem isScheme_scheme : isScheme (scheme https) = true := by
  cases https <;> decide

theorem endsScheme_scheme : ∀ c ∈ scheme https, endsScheme c = false := by
  have hall : (scheme https).all (fun c => endsScheme c == false) = true := by
    cases https <;> decide
  intro c hc
  exact eq_of_beq (List.all_eq_true.mp hall c hc)

theorem isIPv6_false (hip : isIPv4 ip.toList = true) : isIPv6 ip.toList = false :=
  Bool.eq_false_iff.mpr fun h => isIPv4_ne_colon hip ':' (isIPv6_colon h) rfl

theorem bracketed_ipv4 (hip : isIPv4 ip.toList = true) : bracketed ip.toList = ip.toList :=
  if_neg fun h => isIPv4_ne_colon hip ':' h rfl

theorem bracketed_ipv6 (hip : isIPv6 ip.toList = true) :
    bracketed ip.toList = '[' :: ip.toList ++ [']'] :=
  if_pos (isIPv6_colon hip)

/-- The authority of a call does not end before its path. -/
theorem endsAuthority_text (hip : isIPv4 ip.toList = true ∨ isIPv6 ip.toList = true) :
    ∀ c ∈ call.authorityText ip, endsAuthority c = false := by
  have hchar : ∀ {c}, AddressChar c → endsAuthority c = false := by
    intro c hc
    obtain ⟨_, _, _, h1, h2, h3⟩ := addressChar_ne hc
    simp [endsAuthority, h1, h2, h3]
  have haddr : ∀ c ∈ ip.toList, endsAuthority c = false := fun c hc =>
    hchar (hip.elim (fun h => isIPv4_addressChar h c hc) fun h => isIPv6_chars h c hc)
  have hdigits : ∀ c ∈ ':' :: intText call.port, endsAuthority c = false := by
    refine List.forall_mem_cons.mpr ⟨by decide, fun c hc => ?_⟩
    rcases intText_chars c hc with hdigit | rfl
    · exact hchar (isDigit_address hdigit)
    · decide
  have hbracketed : ∀ c ∈ bracketed ip.toList, endsAuthority c = false := by
    unfold bracketed
    split
    · rw [List.cons_append]
      refine List.forall_mem_cons.mpr ⟨by decide, List.forall_mem_append.mpr ⟨haddr, ?_⟩⟩
      exact List.forall_mem_singleton.mpr (by decide)
    · exact haddr
  unfold Call.authorityText portPart
  split
  · exact List.forall_mem_append.mpr ⟨haddr, hdigits⟩
  · refine List.forall_mem_append.mpr ⟨hbracketed, ?_⟩
    split
    · exact fun c hc => absurd hc List.not_mem_nil
    · exact hdigits

/-- The port of a scheme is none of the others. -/
theorem schemePort_fits : 0 ≤ schemePort https ∧ schemePort https ≤ 65535 := by
  cases https <;> decide

/-- **The authority of a call is its address**, and its port unless that is negative, if no colon is
    put into the URL as it is. -/
theorem authority_text (hip : isIPv4 ip.toList = true ∨ isIPv6 ip.toList = true)
    (hraw : call.raw = true → isIPv6 ip.toList = false) :
    (call.port < 0 ∧ authority (call.authorityText ip) = none) ∨
    ∃ port, authority (call.authorityText ip) = some ⟨none, hostOf ip, port⟩ ∧
      port.getD (intText (schemePort call.https)) = intText call.port ∧
      ((⟨none, hostOf ip, port⟩ : Authority).portFits = true ↔
        0 ≤ call.port ∧ call.port ≤ 65535) := by
  -- with a port in the text, and without one
  have hwith : authority (call.authorityText ip) =
      (portAfter (':' :: intText call.port)).map (fun port => ⟨none, hostOf ip, port⟩) →
      (call.port < 0 ∧ authority (call.authorityText ip) = none) ∨
      ∃ port, authority (call.authorityText ip) = some ⟨none, hostOf ip, port⟩ ∧
        port.getD (intText (schemePort call.https)) = intText call.port ∧
        ((⟨none, hostOf ip, port⟩ : Authority).portFits = true ↔
          0 ≤ call.port ∧ call.port ≤ 65535) := by
    intro hauth
    rw [portAfter_intText] at hauth
    by_cases hport : 0 ≤ call.port
    · rw [if_pos hport] at hauth
      refine .inr ⟨_, hauth, rfl, ?_⟩
      rw [intText_fits hport]
      exact (and_iff_right hport).symm
    · rw [if_neg hport] at hauth
      exact .inl ⟨Int.not_le.mp hport, hauth⟩
  have hwithout : call.port = schemePort call.https →
      authority (call.authorityText ip) = some ⟨none, hostOf ip, none⟩ →
      ∃ port, authority (call.authorityText ip) = some ⟨none, hostOf ip, port⟩ ∧
        port.getD (intText (schemePort call.https)) = intText call.port ∧
        ((⟨none, hostOf ip, port⟩ : Authority).portFits = true ↔
          0 ≤ call.port ∧ call.port ≤ 65535) := by
    intro hport hauth
    refine ⟨none, hauth, by rw [Option.getD_none, hport], ?_⟩
    rw [hport]
    exact iff_of_true rfl schemePort_fits
  have hat : '@' ∉ intText call.port := intText_not_at
  by_cases hrawCall : call.raw = true
  · have h4 : isIPv4 ip.toList = true := hip.resolve_right (by rw [hraw hrawCall]; decide)
    refine hwith ?_
    rw [Call.authorityText, if_pos hrawCall, authority_ipv4 h4 hat, hostOf, if_pos h4]
  · have htext : call.authorityText ip =
        bracketed ip.toList ++ portPart call.https call.port := if_neg hrawCall
    by_cases hport : call.port = schemePort call.https
    · refine .inr (hwithout hport ?_)
      rw [htext, portPart, if_pos hport, List.append_nil]
      rcases hip with h4 | h6
      · rw [bracketed_ipv4 h4, hostOf, if_pos h4, authority_host h4]
      · have h4 : isIPv4 ip.toList ≠ true := fun h => by simp [isIPv6_false h] at h6
        rw [bracketed_ipv6 h6, hostOf, if_neg h4, authority_brackets h6]
    · refine hwith ?_
      rw [htext, portPart, if_neg hport]
      rcases hip with h4 | h6
      · rw [bracketed_ipv4 h4, hostOf, if_pos h4, authority_ipv4 h4 hat]
      · have h4 : isIPv4 ip.toList ≠ true := fun h => by simp [isIPv6_false h] at h6
        rw [bracketed_ipv6 h6, hostOf, if_neg h4, List.append_assoc, List.singleton_append,
          authority_ipv6 h6 hat]

/-- A colon that is put into the URL as it is leaves no address. -/
theorem authority_text_none (h6 : isIPv6 ip.toList = true) (hraw : call.raw = true) :
    authority (call.authorityText ip) = none := by
  rw [Call.authorityText, if_pos hraw]
  exact authority_colon h6 intText_not_at

end Address

/-! ## 6. What the server reads -/

/-- **The map of names and values that a handler gets.** -/
def Call.read (call : Call) : LinkedMap Text Text :=
  .ofList (call.parameters.map fun p => (p.1, Percent.dropMark p.2))

section Reading

variable {client : HttpClient} {call : Call}

/-- **Every route of the server is reached.** -/
theorem dispatch_entry {m : HttpMethod} {path : Text} {handler : Handler}
    (h : ((m, path), handler) ∈ receiveRoutes ++ sendRoutes) :
    dispatch m.methodName path = .handled handler := by
  have hall : (receiveRoutes ++ sendRoutes).all
      (fun e => dispatch e.1.1.methodName e.1.2 = .handled e.2) = true := by
    decide +kernel
  exact of_decide_eq_true (List.all_eq_true.mp hall _ h)

theorem mem_versioned (r : ApiRoute) (handler : Bool → Handler)
    (h1 : ((.post, r.v1), handler false) ∈ receiveRoutes)
    (h2 : ((.post, r.v2), handler true) ∈ receiveRoutes) (version : String) :
    ((.post, r.versioned version), handler (version ≠ "1.0")) ∈ receiveRoutes := by
  by_cases h : version = "1.0"
  · rwa [ApiRoute.versioned, if_pos h, decide_eq_false (not_not.mpr h)]
  · rwa [ApiRoute.versioned, if_neg h, decide_eq_true h]

/-- Every call is one of its routes. -/
theorem dispatch_path (call : Call) :
    dispatch call.request.method.methodName call.path = .handled call.handler := by
  refine dispatch_entry (List.mem_append_left _ ?_)
  cases call with
  | info _ _ _ _ =>
      have h : ((HttpMethod.get, ApiRoute.info.versioned peerProtocolVersion), Handler.info) ∈
          receiveRoutes := by
        decide
      exact h
  | «show» _ _ _ =>
      have h : ((HttpMethod.post, ApiRoute.show.versioned peerProtocolVersion), Handler.show) ∈
          receiveRoutes := by
        decide
      exact h
  | register target =>
      exact mem_versioned .register (fun _ => .register) (by decide) (by decide) target.version
  | prepareUpload target _ =>
      exact mem_versioned .prepareUpload .prepareUpload (by decide) (by decide) target.version
  | upload target _ _ _ =>
      exact mem_versioned .upload .upload (by decide) (by decide) target.version
  | cancel target _ =>
      exact mem_versioned .cancel .cancel (by decide) (by decide) target.version

/-- A path begins with a slash and has no query. -/
theorem versioned_slash (r : ApiRoute) (version : String) :
    ∃ rest, r.versioned version = '/' :: rest ∧ '?' ∉ '/' :: rest := by
  unfold ApiRoute.versioned
  split
  · exact ⟨r.v1.tail, by cases r <;> decide, by cases r <;> decide⟩
  · exact ⟨r.v2.tail, by cases r <;> decide, by cases r <;> decide⟩

theorem plain_isUnreserved : Form.Plain isUnreserved := by
  intro c hc
  have hcomponent : Percent.isUnreserved c = true := by
    have hmarks : "-._~".toList.all (fun c => Percent.isUnreserved c) = true := by decide
    rcases Bool.or_eq_true _ _ ▸ hc with h | h
    · rw [Percent.isUnreserved, h, Bool.true_or]
    · exact List.all_eq_true.mp hmarks c (of_decide_eq_true h)
  refine ⟨(Percent.isUnreserved_ascii hcomponent).2, fun hmem => ?_⟩
  have hall : "%+&=#? ".toList.all (fun c => isUnreserved c == false) = true := by decide
  exact Bool.false_ne_true ((eq_of_beq (List.all_eq_true.mp hall c hmem)).symm.trans hc)

/-- What has a name without a mark is read. -/
theorem reads_writer (client : HttpClient) (call : Call) {p : Text × Text} (hname : p.1 ≠ [])
    (hmark : Percent.dropMark p.1 = p.1) :
    Form.Reads (call.writer client p) p.1 (Percent.dropMark p.2) := by
  have hparameter : Form.Reads (client.parameter p) p.1 (Percent.dropMark p.2) := by
    have h : Form.Reads (client.parameter p) (Percent.dropMark p.1) (Percent.dropMark p.2) :=
      Form.reads_pair client.plain hname
    rwa [hmark] at h
  have hwrite : Form.Reads (writeParameter p) p.1 (Percent.dropMark p.2) := by
    unfold writeParameter
    split
    · rename_i hvalue
      have h := Form.reads_name plain_isUnreserved hname
      rw [hmark] at h
      rwa [List.append_nil, hvalue]
    · have h : Form.Reads (Form.encode isUnreserved p.1 ++ '=' :: Form.encode isUnreserved p.2)
          (Percent.dropMark p.1) (Percent.dropMark p.2) :=
        Form.reads_pair plain_isUnreserved hname
      rwa [hmark] at h
  cases call with
  | cancel _ _ => exact hwrite
  | info _ _ _ _ | register _ | prepareUpload _ _ | upload _ _ _ _ | «show» _ _ _ =>
      exact hparameter

/-- The names of parameters. -/
theorem parameters_names (call : Call) : ∀ p ∈ call.parameters,
    p.1 ∈ ["fingerprint", "pin", "sessionId", "fileId", "token"].map String.toList := by
  have hoptional : ∀ (name : String) (value : Option String), ∀ p ∈ optional name value,
      p.1 = name.toList := by
    intro name value p hp
    cases value with
    | none => exact absurd hp List.not_mem_nil
    | some v => rw [List.mem_singleton.mp hp]
  intro p hp
  cases call with
  | info _ _ _ fingerprint =>
      obtain rfl := List.mem_singleton.mp hp
      exact of_decide_eq_true rfl
  | «show» _ _ token =>
      obtain rfl := List.mem_singleton.mp hp
      exact of_decide_eq_true rfl
  | register _ => exact absurd hp List.not_mem_nil
  | prepareUpload _ pin =>
      rw [hoptional _ _ _ hp]
      decide
  | cancel _ sessionId =>
      rw [hoptional _ _ _ hp]
      decide
  | upload _ remoteSessionId fileId token =>
      rcases List.mem_append.mp hp with hp | hp
      · rw [hoptional _ _ _ hp]
        decide
      · rcases List.mem_pair.mp hp with rfl | rfl
        · exact of_decide_eq_true rfl
        · exact of_decide_eq_true rfl

theorem path_stop (call : Call) : ∀ c ∈ call.path, decide (c ≠ '?') = true := by
  obtain ⟨rest, hpath, hquery⟩ := versioned_slash call.route call.version
  intro c hc
  rw [Call.path, hpath] at hc
  exact decide_eq_true fun h => hquery (h ▸ hc)

theorem queryParameters_path (client : HttpClient) (call : Call) :
    queryParameters (call.path ++ queryPart (call.writer client) call.parameters) =
      some call.read := by
  have hstop := path_stop call
  unfold queryPart
  split
  · rename_i h
    rw [List.append_nil, queryParameters, List.dropWhile_eq_nil_iff.mpr hstop, Call.read, h]
    rfl
  · rename_i h
    have hnames : (["fingerprint", "pin", "sessionId", "fileId", "token"].map String.toList).all
        (fun name => name ≠ [] && Percent.dropMark name = name) = true := by
      decide
    rw [queryParameters, dropWhile_stop hstop (by decide), List.drop_one, List.tail_cons, Call.read]
    refine Form.split_intercalate (fun hnil => h (List.map_eq_nil_iff.mp hnil)) ?_
    rw [List.forall₂_map_left_iff, List.forall₂_map_right_iff, List.forall₂_same]
    intro p hp
    have hname := List.all_eq_true.mp hnames p.1 (parameters_names call p hp)
    simp only [Bool.and_eq_true, decide_eq_true_eq] at hname
    exact reads_writer client call hname.1 hname.2

/-- The path ends where the query begins. -/
theorem uriPath_path (write : Text × Text → Text) (call : Call) :
    uriPath (call.path ++ queryPart write call.parameters) = call.path := by
  have hstop := path_stop call
  unfold uriPath queryPart
  split
  · rw [List.append_nil, List.takeWhile_eq_self_iff.mpr hstop]
  · exact takeWhile_stop hstop (by decide)

end Reading

/-! ## 7. From the call to its handler -/

/-- **A call arrives**: the URL is one, and has the scheme, the address and the port of the call,
    its path is that of the handler, and this one gets the parameters. -/
def Call.Arrives (client : HttpClient) (call : Call) (ip : String) : Prop :=
  ∃ u, parseUrl (client.url call.request) = some u ∧ u.scheme = scheme call.https ∧
    u.authority.host = hostOf ip ∧
    u.authority.port.getD (intText (schemePort call.https)) = intText call.port ∧
    dispatch call.request.method.methodName (uriPath u.rest) = .handled call.handler ∧
    queryParameters u.rest = some call.read

section Arrives

variable {call : Call} {ip : String}

/-- The URL of a call is read from its authority. -/
theorem parse_url (client : HttpClient) (hcall : call.ip = some ip)
    (hip : isIPv4 ip.toList = true ∨ isIPv6 ip.toList = true) :
    parse (client.url call.request) = (authority (call.authorityText ip)).map fun a =>
      ⟨scheme call.https, a, call.path ++ queryPart (call.writer client) call.parameters⟩ := by
  obtain ⟨rest, hpath, -⟩ := versioned_slash call.route call.version
  rw [url_eq client call hcall, Call.path, hpath, List.cons_append]
  exact parse_authority isScheme_scheme endsScheme_scheme (endsAuthority_text hip)

theorem arrives (client : HttpClient) (hcall : call.ip = some ip)
    (hip : isIPv4 ip.toList = true ∨ isIPv6 ip.toList = true)
    (hport : 0 ≤ call.port ∧ call.port ≤ 65535)
    (hraw : call.raw = true → isIPv6 ip.toList = false) : call.Arrives client ip := by
  have hparse := parse_url client hcall hip
  rcases authority_text hip hraw with ⟨hneg, -⟩ | ⟨port, hauth, hread, hfits⟩
  · exact absurd hport.1 (Int.not_le.mpr hneg)
  rw [hauth, Option.map_some] at hparse
  refine ⟨⟨scheme call.https, ⟨none, hostOf ip, port⟩, call.path ++
    queryPart (call.writer client) call.parameters⟩, ?_, rfl, rfl, hread, ?_,
    queryParameters_path client call⟩
  · rw [parseUrl, hparse]
    exact if_pos (hfits.mpr hport)
  · rw [uriPath_path]
    exact dispatch_path call

/-- **A port that is negative or has more than 16 bits** leaves nothing to ask for. -/
theorem parseUrl_none (client : HttpClient) (hcall : call.ip = some ip)
    (hip : isIPv4 ip.toList = true ∨ isIPv6 ip.toList = true)
    (hport : ¬(0 ≤ call.port ∧ call.port ≤ 65535))
    (hraw : call.raw = true → isIPv6 ip.toList = false) :
    parseUrl (client.url call.request) = none := by
  rw [parseUrl, parse_url client hcall hip]
  rcases authority_text hip hraw with ⟨-, hnone⟩ | ⟨port, hauth, -, hfits⟩
  · rw [hnone]
    rfl
  · rw [hauth, Option.map_some]
    exact if_neg fun h => hport (hfits.mp h)

end Arrives

/-- **A call arrives**, in every version, at every address and whatever it says, exactly if its port
    has 16 bits and no IPv6 address is put into the URL without brackets. -/
theorem call_arrives_iff (client : HttpClient) (call : Call) {ip : String}
    (hcall : call.ip = some ip) (hip : isIPv4 ip.toList = true ∨ isIPv6 ip.toList = true) :
    call.Arrives client ip ↔
      (0 ≤ call.port ∧ call.port ≤ 65535) ∧ ¬(call.raw = true ∧ isIPv6 ip.toList = true) := by
  constructor
  · rintro ⟨u, hu, -⟩
    have hraw : ¬(call.raw = true ∧ isIPv6 ip.toList = true) := by
      rintro ⟨hraw, h6⟩
      rw [parseUrl, parse_url client hcall hip, authority_text_none h6 hraw] at hu
      cases hu
    refine ⟨?_, hraw⟩
    by_contra hport
    rw [parseUrl_none client hcall hip hport
      fun h => Bool.eq_false_iff.mpr fun h6 => hraw ⟨h, h6⟩] at hu
    cases hu
  · rintro ⟨hport, hraw⟩
    exact arrives client hcall hip hport fun h => Bool.eq_false_iff.mpr fun h6 => hraw ⟨h, h6⟩

/-- A client that keeps what forms keep. -/
def formClient : HttpClient where
  keeps c := c.isAlphanum || c ∈ "*-._".toList
  plain := by
    intro c hc
    have hcomponent : Percent.isUnreserved c = true := by
      have hmarks : "*-._".toList.all (fun c => Percent.isUnreserved c) = true := by decide
      rcases Bool.or_eq_true _ _ ▸ hc with h | h
      · rw [Percent.isUnreserved, h, Bool.true_or]
      · exact List.all_eq_true.mp hmarks c (of_decide_eq_true h)
    refine ⟨(Percent.isUnreserved_ascii hcomponent).2, fun hmem => ?_⟩
    have hall : "%+&=#? ".toList.all
        (fun c => (c.isAlphanum || c ∈ "*-._".toList) == false) = true := by
      decide
    exact Bool.false_ne_true ((eq_of_beq (List.all_eq_true.mp hall c hmem)).symm.trans hc)

def demoPeer : Device where
  signalingId := none
  ip := some "fe80::1"
  version := "2.1"
  port := 443
  https := true
  fingerprint := "f"
  aliasName := "a"
  deviceModel := none
  deviceType := .mobile
  download := false
  discoveryMethods := []

theorem call_arrives_ipv6 :
    (Call.prepareUpload demoPeer (some "1 & 2")).Arrives formClient "fe80::1" ∧
      ¬(Call.info "fe80::1" 443 true "f").Arrives formClient "fe80::1" ∧
      ¬(Call.register { demoPeer with port := 70000 }).Arrives formClient "fe80::1" := by
  refine ⟨(call_arrives_iff formClient _ rfl (by decide)).mpr (by decide), fun h => ?_, fun h => ?_⟩
  · exact absurd ((call_arrives_iff formClient _ rfl (by decide)).mp h).2 (by decide)
  · exact absurd ((call_arrives_iff formClient _ rfl (by decide)).mp h).1.2 (by decide)

/-! ## 8. The requests of a transfer -/

/-- What a handler starts from. -/
inductive Received where
  | prepareUpload (request : Receive.PrepareRequest)
  | upload (request : Receive.UploadRequest)
  | cancel (request : Receive.CancelRequest)
  deriving DecidableEq

/-- A parameter of a request. -/
def readParameter (ps : LinkedMap Text Text) (name : String) : Option String :=
  (ps.get? name.toList).map String.ofList

/-- What the handlers of a transfer read from their requests. -/
def receive (c : Transfer.Ends) (ps : LinkedMap Text Text) : Handler → Option Received
  | .prepareUpload v2 =>
    some (.prepareUpload ⟨c.senderIp, c.port, c.https, v2, readParameter ps "pin"⟩)
  | .upload v2 =>
    some (.upload ⟨c.senderIp, v2, readParameter ps "fileId", readParameter ps "token",
      readParameter ps "sessionId"⟩)
  | .cancel v2 => some (.cancel ⟨c.senderIp, v2, readParameter ps "sessionId"⟩)
  | _ => none

/-- What the other end makes of a call: the URL is read, its handler found, and its query read. -/
def delivered (client : HttpClient) (c : Transfer.Ends) (call : Call) : Option Received :=
  (parseUrl (client.url call.request)).bind fun u =>
    match dispatch call.request.method.methodName (uriPath u.rest) with
    | .handled handler => (queryParameters u.rest).bind fun ps => receive c ps handler
    | _ => none

/-- No byte order mark at the front. -/
def unmarked (value : String) : Bool := Percent.dropMark value.toList = value.toList

/-- What is read where `value` was written. -/
def reread (value : String) : String := String.ofList (Percent.dropMark value.toList)

section Transfer

variable {client : HttpClient} {c : Transfer.Ends}

theorem reread_eq {value : String} : reread value = value ↔ unmarked value := by
  rw [reread, unmarked, ← String.toList_inj, String.toList_ofList, decide_eq_true_eq]

theorem map_reread_eq {value : Option String} :
    value.map reread = value ↔ ∀ v ∈ value, unmarked v := by
  cases value with
  | none => simp
  | some v => simp [reread_eq]

/-- A call of a transfer is handled with what it says. -/
theorem delivered_eq (call : Call) {ip : String} (hcall : call.ip = some ip)
    (hip : isIPv4 ip.toList = true ∨ isIPv6 ip.toList = true)
    (hport : 0 ≤ call.port ∧ call.port ≤ 65535) (hraw : call.raw = false) :
    delivered client c call = receive c call.read call.handler := by
  have hfalse : call.raw = true → isIPv6 ip.toList = false := fun h => by simp [hraw] at h
  obtain ⟨u, hu, -, -, -, hdispatch, hquery⟩ := arrives client hcall hip hport hfalse
  rw [delivered, hu, Option.bind_some, hdispatch]
  simp only [hquery, Option.bind_some]

theorem read_prepareUpload (target : Device) (pin : Option String) :
    readParameter (Call.prepareUpload target pin).read "pin" = pin.map reread := by
  cases pin <;> rfl

theorem read_cancel (target : Device) (sessionId : Option String) :
    readParameter (Call.cancel target sessionId).read "sessionId" = sessionId.map reread := by
  cases sessionId <;> rfl

theorem read_upload (target : Device) (remoteSessionId : Option String) (fileId token : String) :
    readParameter (Call.upload target remoteSessionId fileId token).read "sessionId" =
        remoteSessionId.map reread ∧
      readParameter (Call.upload target remoteSessionId fileId token).read "fileId" =
        some (reread fileId) ∧
      readParameter (Call.upload target remoteSessionId fileId token).read "token" =
        some (reread token) := by
  cases remoteSessionId <;> exact ⟨rfl, rfl, rfl⟩

/-- A call of a transfer to a port that is none is not handled. -/
theorem delivered_none (call : Call) {ip : String} (hcall : call.ip = some ip)
    (hip : isIPv4 ip.toList = true ∨ isIPv6 ip.toList = true)
    (hport : ¬(0 ≤ call.port ∧ call.port ≤ 65535)) (hraw : call.raw = false) :
    delivered client c call = none := by
  rw [delivered, parseUrl_none client hcall hip hport fun h => by simp [hraw] at h,
    Option.bind_none]

/-- **What a handler reads of a call of a transfer** is `received`, exactly if the port has 16 bits
    and that is what the handler makes of its parameters. -/
theorem delivered_iff (call : Call) {ip : String} (hcall : call.ip = some ip)
    (hip : isIPv4 ip.toList = true ∨ isIPv6 ip.toList = true) (hraw : call.raw = false)
    (received : Received) :
    delivered client c call = some received ↔
      (0 ≤ call.port ∧ call.port ≤ 65535) ∧ receive c call.read call.handler = some received := by
  by_cases hport : 0 ≤ call.port ∧ call.port ≤ 65535
  · rw [delivered_eq call hcall hip hport hraw, and_iff_right hport]
  · rw [delivered_none call hcall hip hport hraw]
    exact iff_of_false (by simp) fun h => hport h.1

/-- **The requests of a transfer are those the receiver acts on**, exactly if the port of the target
    has 16 bits and nothing in them begins with a byte order mark. -/
theorem transfer_read_iff (client : HttpClient) (c : Transfer.Ends)
    (submission : SendSession.Submission) (action : SendSession.IsolateHttpUploadAction)
    (sessionId : Option String) {ip : String} (htarget : c.target.ip = some ip)
    (hip : isIPv4 ip.toList = true ∨ isIPv6 ip.toList = true) :
    (delivered client c (.prepareUpload c.target submission.pin) =
        some (.prepareUpload (c.prepareRequest submission)) ↔
      (0 ≤ c.target.port ∧ c.target.port ≤ 65535) ∧ ∀ pin ∈ submission.pin, unmarked pin) ∧
    (delivered client c (.upload c.target action.remoteSessionId action.fileId
          action.remoteFileToken) = some (.upload (c.uploadRequest action)) ↔
      (0 ≤ c.target.port ∧ c.target.port ≤ 65535) ∧
        (∀ id ∈ action.remoteSessionId, unmarked id) ∧ unmarked action.fileId ∧
        unmarked action.remoteFileToken) ∧
    (delivered client c (.cancel c.target sessionId) =
        some (.cancel ⟨c.senderIp, c.v2, sessionId⟩) ↔
      (0 ≤ c.target.port ∧ c.target.port ≤ 65535) ∧ ∀ id ∈ sessionId, unmarked id) := by
  refine ⟨?_, ?_, ?_⟩
  · rw [delivered_iff (.prepareUpload c.target submission.pin) htarget hip rfl]
    refine and_congr_right fun _ => ?_
    rw [Call.handler, receive, read_prepareUpload, ← map_reread_eq]
    simp [Transfer.Ends.prepareRequest, Transfer.Ends.v2]
  · obtain ⟨hid, hfile, htoken⟩ := read_upload c.target action.remoteSessionId action.fileId
      action.remoteFileToken
    rw [delivered_iff (.upload c.target action.remoteSessionId action.fileId action.remoteFileToken)
      htarget hip rfl]
    refine and_congr_right fun _ => ?_
    rw [Call.handler, receive, hid, hfile, htoken, ← map_reread_eq, ← reread_eq, ← reread_eq]
    simp [Transfer.Ends.uploadRequest, Transfer.Ends.v2, and_comm, and_assoc]
  · rw [delivered_iff (.cancel c.target sessionId) htarget hip rfl]
    refine and_congr_right fun _ => ?_
    rw [Call.handler, receive, read_cancel, ← map_reread_eq]
    simp [Transfer.Ends.v2]

def demoEnds : Transfer.Ends where
  sessionId := "s"
  target := demoPeer
  info := ⟨"a", none, none, none, none, none, none, none⟩
  senderIp := "fe80::2"
  receiverIp := "fe80::1"
  platform := ⟨false, false, false⟩
  port := 53317
  https := true

def demoAction : SendSession.IsolateHttpUploadAction :=
  ⟨0, some "r", "t=&", "\uFEFFf", none, none, 0, demoPeer⟩

theorem transfer_read_demo :
    delivered formClient demoEnds (.prepareUpload demoPeer (some "1 2")) =
        some (.prepareUpload (demoEnds.prepareRequest ⟨demoPeer, [], some "1 2"⟩)) ∧
      delivered formClient demoEnds (.upload demoPeer (some "r") "\uFEFFf" "t=&") ≠
        some (.upload (demoEnds.uploadRequest demoAction)) := by
  obtain ⟨hprepare, hupload, -⟩ := transfer_read_iff formClient demoEnds
    ⟨demoPeer, [], some "1 2"⟩ demoAction none rfl (by decide)
  refine ⟨hprepare.mpr ⟨by decide, fun pin h => ?_⟩, fun h => ?_⟩
  · obtain rfl := Option.some.inj h
    decide
  · exact absurd (hupload.mp h).2.2.1 (by decide)

end Transfer

end LocalSend.Api
