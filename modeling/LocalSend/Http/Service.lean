/-
  File:      LocalSend/Http/Service.lean
  Subject:   THE REQUESTS BETWEEN THE CLIENT AND THE SERVER OF THE CORE (`core/src/http`).

  * `RegisterDto`, `RegisterResponseDto`, `PrepareUploadResponseDto` -- the bodies, as `serde` writes
    and reads them;
  * `handleRequest` -- the server: which handler a method and a path belong to, and what an error
    becomes (`ServerError.intoResponse`);
  * `Client.register`, `Client.prepareUpload`, `Client.upload` -- the calls, from the response on;
    `statusCodeError` -- what the client makes of a refusal;
  * **`register_agrees`** -- who registers with a server learns what this server says of itself;
    **`refusal_reported`** -- whatever the server refuses, the client reports in its words;
    **`legacy_register_refused`** -- the server has never a device of the app register with it.

  `serde_json` and `base64` are those of `Crates`. TLS is left out: certificates are those of a
  parameter (`publicKey`).
-/
import LocalSend.Discovery.Multicast
import LocalSend.Http.Nonce
import LocalSend.Http.Url
import LocalSend.Lib.Percent
import LocalSend.Signaling.JsonWire

namespace LocalSend.Http

open Lib Json
open WebRtc (Bytes)
open Uri (Text)

/-! ## 1. The bodies -/

/-- `ClientInfo` of `state.rs`. -/
structure ClientInfo where
  aliasName : String
  version : String
  deviceModel : Option String
  deviceType : Option DeviceType
  token : String
  deriving DecidableEq, Repr

structure RegisterDto where
  aliasName : String
  version : String
  deviceModel : Option String
  deviceType : Option DeviceType
  token : String
  port : UInt16
  protocol : ProtocolType
  hasWebInterface : Bool
  deriving DecidableEq, Repr

structure RegisterResponseDto where
  aliasName : String
  version : String
  deviceModel : Option String
  deviceType : Option DeviceType
  token : String
  hasWebInterface : Bool
  deriving DecidableEq, Repr

/-- The names of the variants, in capitals. -/
def ProtocolType.toJson : ProtocolType → Json
  | .http => .str "HTTP"
  | .https => .str "HTTPS"

def ProtocolType.ofJson (j : Json) : Option ProtocolType := do
  match ← variant j with
  | "HTTP" => return .http
  | "HTTPS" => return .https
  | _ => none

/-- `#[serde(default, skip_serializing_if = "is_default")]`. -/
def skipFalse (name : String) (b : Bool) : List (String × Json) :=
  if b then [(name, .bool true)] else []

def defaultFalse (name : String) (fs : List (String × Json)) : Option Bool :=
  match fs.filter (fun f => f.1 = name) with
  | [] => some false
  | [f] => flag f.2
  | _ => none

def RegisterDto.toJson (dto : RegisterDto) : Json :=
  .obj ([("alias", .str dto.aliasName), ("version", .str dto.version)] ++
    skipNone "deviceModel" (dto.deviceModel.map .str) ++
    skipNone "deviceType" (dto.deviceType.map Signaling.DeviceType.toJson) ++
    [("token", .str dto.token), ("port", .num dto.port.toNat),
      ("protocol", dto.protocol.toJson)] ++ skipFalse "hasWebInterface" dto.hasWebInterface)

def RegisterDto.ofJson (j : Json) : Option RegisterDto := do
  let fs ← j.record ["alias", "version", "deviceModel", "deviceType", "token", "port", "protocol"]
    ["hasWebInterface"]
  return ⟨← field "alias" text fs, ← field "version" text fs,
    ← optionalField "deviceModel" text fs,
    ← optionalField "deviceType" Signaling.DeviceType.ofJson fs, ← field "token" text fs,
    UInt16.ofNat (← field "port" u16 fs), ← field "protocol" ProtocolType.ofJson fs,
    ← defaultFalse "hasWebInterface" fs⟩

def RegisterResponseDto.toJson (dto : RegisterResponseDto) : Json :=
  .obj ([("alias", .str dto.aliasName), ("version", .str dto.version)] ++
    skipNone "deviceModel" (dto.deviceModel.map .str) ++
    skipNone "deviceType" (dto.deviceType.map Signaling.DeviceType.toJson) ++
    [("token", .str dto.token)] ++ skipFalse "hasWebInterface" dto.hasWebInterface)

def RegisterResponseDto.ofJson (j : Json) : Option RegisterResponseDto := do
  let fs ← j.record ["alias", "version", "deviceModel", "deviceType", "token"] ["hasWebInterface"]
  return ⟨← field "alias" text fs, ← field "version" text fs,
    ← optionalField "deviceModel" text fs,
    ← optionalField "deviceType" Signaling.DeviceType.ofJson fs, ← field "token" text fs,
    ← defaultFalse "hasWebInterface" fs⟩

def ErrorResponse.ofJson (j : Json) : Option ErrorResponse := do
  let fs ← j.record ["message"] []
  return ⟨← field "message" text fs⟩

theorem orNull_deviceType (t : DeviceType) :
    orNull Signaling.DeviceType.ofJson (Signaling.DeviceType.toJson t) = some (some t) := by
  cases t <;> rfl

theorem isScalar_deviceType (t : DeviceType) :
    isScalar (Signaling.DeviceType.toJson t) = true := by
  cases t <;> rfl

/-- **A registration is read as it was sent.** -/
theorem RegisterDto.ofJson_toJson (dto : RegisterDto) : ofJson dto.toJson = some dto := by
  obtain ⟨aliasName, version, deviceModel, deviceType, token, port, protocol, web⟩ := dto
  have hport : u16 (.num port.toNat) = some port.toNat := u16_num port.toNat_lt
  cases deviceModel <;> cases deviceType <;> cases protocol <;> cases web <;>
    simp only [toJson, ofJson, field, optionalField, skipNone, skipFalse, defaultFalse,
      orNull_deviceType, orNull_str, hport, ProtocolType.toJson, ProtocolType.ofJson, record_obj,
      variant_str, text_str, flag_bool, Option.map_none, Option.map_some, Option.bind_some,
      Option.pure_def, Option.bind_eq_bind, List.append_nil, List.nil_append, List.cons_append,
      List.filter_nil, List.filter_cons_of_pos, List.filter_cons_of_neg, String.reduceEq,
      decide_true, decide_false, Bool.false_eq_true, not_false_eq_true, if_true, if_false,
      UInt16.ofNat_toNat]

theorem RegisterResponseDto.ofJson_toJson (dto : RegisterResponseDto) :
    ofJson dto.toJson = some dto := by
  obtain ⟨aliasName, version, deviceModel, deviceType, token, web⟩ := dto
  cases deviceModel <;> cases deviceType <;> cases web <;>
    simp [toJson, ofJson, field, optionalField, skipNone, skipFalse, defaultFalse, orNull_deviceType]

theorem RegisterDto.isFlat_toJson (dto : RegisterDto) : isFlat dto.toJson = true := by
  obtain ⟨aliasName, version, deviceModel, deviceType, token, port, protocol, web⟩ := dto
  have hport : isScalar (.num port.toNat) = true :=
    decide_eq_true (port.toNat_lt.trans (by decide))
  cases deviceModel <;> cases deviceType <;> cases protocol <;> cases web <;>
    simp [toJson, isFlat, skipNone, skipFalse, ProtocolType.toJson, isScalar_deviceType, hport]

theorem RegisterResponseDto.isFlat_toJson (dto : RegisterResponseDto) :
    isFlat dto.toJson = true := by
  obtain ⟨aliasName, version, deviceModel, deviceType, token, web⟩ := dto
  cases deviceModel <;> cases deviceType <;> cases web <;>
    simp [toJson, isFlat, skipNone, skipFalse, isScalar_deviceType]

theorem ErrorResponse.ofJson_toJson (r : ErrorResponse) : ofJson r.toJson = some r := by
  simp [toJson, ofJson, field]

/-! ## 2. The server -/

inductive Method where
  | post | other
  deriving DecidableEq, Repr

/-- `AppError`, with the status codes the server sends by it. -/
inductive ServerError where
  | notFound
  | app (error : AppError)
  deriving DecidableEq, Repr

def ServerError.message : ServerError → String
  | .notFound => "Status code: 404 Not Found"
  | .app .hyper => "Internal server error"
  | .app (.badRequest message) => message

def ServerError.intoResponse (w : Crates) : ServerError → Response
  | .notFound => ⟨404, w.encode (ErrorResponse.toJson ⟨ServerError.notFound.message⟩)⟩
  | .app error => error.intoResponse w

/-- What the server knows of itself. -/
structure Config where
  info : ClientInfo
  /-- a web page is served -/
  web : Bool
  legacyEnabled : Bool

/-- `body.collect_to_json::<RegisterDto>()`; no body if reading it fails. -/
def collectRegisterDto (w : Crates) (body : Option Bytes) : Except ServerError RegisterDto :=
  match body with
  | none => .error (.app .hyper)
  | some bytes =>
    match (w.decode bytes).bind RegisterDto.ofJson with
    | none => .error (.app (.badRequest "Invalid JSON body"))
    | some payload => .ok payload

/-- What a server says of itself. -/
def Config.response (c : Config) : RegisterResponseDto :=
  ⟨c.info.aliasName, c.info.version, c.info.deviceModel, c.info.deviceType, c.info.token, c.web⟩

/-- `controller::v2::register`. -/
def V2.register (w : Crates) (c : Config) (body : Option Bytes) :
    Except ServerError Response := do
  let _payload ← collectRegisterDto w body
  return ⟨200, w.encode c.response.toJson⟩

/-- `controller::v3::register`. -/
def V3.register (w : Crates) (c : Config) (body : Option Bytes) :
    Except ServerError Response := do
  let _payload ← collectRegisterDto w body
  return ⟨200, w.encode c.response.toJson⟩

/-- What a request leads to: a response, or a task of `nonce_exchange`. -/
inductive Handled where
  | responded (res : Response)
  | exchanging (task : Server.Task)
  deriving DecidableEq, Repr

/-- `handle_request_inner`, for the client with this identifier. -/
def handleRequestInner (w : Crates) (c : Config) (method : Method) (path remoteKey : String)
    (body : Option Bytes) : Except ServerError Handled :=
  match method, path with
  | .post, "/api/localsend/v2/register" =>
    if c.legacyEnabled then (V2.register w c body).map .responded else .error .notFound
  | .post, "/api/localsend/v2/prepare-upload" =>
    if c.legacyEnabled then (V2.register w c body).map .responded else .error .notFound
  | .post, "/api/localsend/v2/upload" =>
    if c.legacyEnabled then (V2.register w c body).map .responded else .error .notFound
  | .post, "/api/localsend/v2/cancel" =>
    if c.legacyEnabled then (V2.register w c body).map .responded else .error .notFound
  | .post, "/api/localsend/v3/nonce" => .ok (.exchanging (Server.nonceExchange w remoteKey body))
  | .post, "/api/localsend/v3/register" => (V3.register w c body).map .responded
  | _, _ => .ok (.responded ⟨404, []⟩)

/-- `unwrap_or_else(|err| err.into_response())`. -/
def Handled.ofResult (w : Crates) : Except ServerError Handled → Handled
  | .ok handled => handled
  | .error e => .responded (e.intoResponse w)

/-- **`handle_request`.** -/
def handleRequest (w : Crates) (c : Config) (method : Method) (path remoteKey : String)
    (body : Option Bytes) : Handled :=
  .ofResult w (handleRequestInner w c method path remoteKey body)

/-- What is answered without storing nonces. -/
def Handled.response (w : Crates) : Handled → Option Response
  | .responded res => some res
  | .exchanging task => task.response w

/-! ## 3. The calls of the client -/

structure StatusCodeError where
  status : Nat
  message : Option String
  deriving DecidableEq, Repr

/-- `status_code_error_from_res`; `lossy` is what a text without a message is read as, where it is
    no UTF-8. -/
def statusCodeError (w : Crates) (lossy : Bytes → String) (res : Response) : StatusCodeError :=
  let message :=
    match (w.decode res.body).bind ErrorResponse.ofJson with
    | some error => error.message
    | none => ((Percent.utf8Text res.body).map String.ofList).getD (lossy res.body)
  ⟨res.status, if message = "" then none else some message⟩

inductive CallError where
  /-- the request failed -/
  | request
  /-- no certificate, or not a valid one -/
  | certificate
  | statusCode (error : StatusCodeError)
  | json
  deriving DecidableEq, Repr

structure RegisterResult where
  publicKey : Option String
  body : RegisterResponseDto
  deriving DecidableEq, Repr

structure PrepareUploadResponseDto where
  sessionId : String
  files : List (String × String)
  deriving DecidableEq, Repr

def PrepareUploadResponseDto.ofJson (j : Json) : Option PrepareUploadResponseDto := do
  let fs ← j.record ["sessionId", "files"] []
  let files ← field "files" Json.fields fs
  return ⟨← field "sessionId" text fs,
    ← files.mapM fun f => (text f.2).map fun token => (f.1, token)⟩

/-- `register`, with the public key of the certificate, if there is a valid one. -/
def Client.register (w : Crates) (protocol : ProtocolType) (publicKey : Option String)
    (res : Option Response) : Except CallError RegisterResult :=
  match res with
  | none => .error .request
  | some res =>
    if protocol = .https ∧ publicKey = none then .error .certificate
    else
      match (w.decode res.body).bind RegisterResponseDto.ofJson with
      | none => .error .json
      | some body => .ok ⟨if protocol = .https then publicKey else none, body⟩

/-- `prepare_upload`; `verified` says whether the certificate is that of the expected key, if one is
    expected. -/
def Client.prepareUpload (w : Crates) (lossy : Bytes → String) (verified : Bool)
    (res : Option Response) : Except CallError PrepareUploadResponseDto :=
  match res with
  | none => .error .request
  | some res =>
    if verified = false then .error .certificate
    else if res.status ≠ 200 then .error (.statusCode (statusCodeError w lossy res))
    else
      match (w.decode res.body).bind PrepareUploadResponseDto.ofJson with
      | none => .error .json
      | some body => .ok body

/-- `upload`. -/
def Client.upload (w : Crates) (lossy : Bytes → String) (res : Option Response) :
    Except CallError Unit :=
  match res with
  | none => .error .request
  | some res =>
    if res.status ≠ 200 then .error (.statusCode (statusCodeError w lossy res)) else .ok ()

/-- The path of a URL. -/
def urlPath (url : Text) : Option String :=
  (Uri.parse url).map fun u =>
    String.ofList (u.rest.takeWhile fun c => !Uri.endsAuthority c || c = '/')

/-! ## 4. Client and server -/

section Agreement

variable {w : Crates} {ip : Text} {port : UInt16} {protocol : ProtocolType}

/-- The path of a formatted URL, for an IPv4 address. -/
theorem urlPath_formatUrl (hip : Uri.isIPv4 ip = true) (tail : Text) :
    urlPath (formatUrl protocol ip port tail) =
      some (String.ofList ((basePath ++ tail).takeWhile fun c =>
        !Uri.endsAuthority c || c = '/')) := by
  have htext : formatUrl protocol ip port tail = protocol.asStr ++ ':' :: '/' :: '/' ::
      ((ip ++ ':' :: portText port) ++ '/' :: ("api/localsend/v3".toList ++ tail)) := by
    have hbase : basePath = '/' :: "api/localsend/v3".toList := rfl
    have hslashes : "://".toList = [':', '/', '/'] := rfl
    have hcolon : ":".toList = [':'] := rfl
    rw [formatUrl, hbase, hslashes, hcolon]
    simp only [List.append_assoc, List.cons_append, List.nil_append]
  have hscheme : Uri.isScheme protocol.asStr = true := by cases protocol <;> decide
  have hall : protocol.asStr.all (fun c => Uri.endsScheme c = false) = true := by
    cases protocol <;> decide
  have hends : ∀ c ∈ protocol.asStr, Uri.endsScheme c = false := fun c hc =>
    of_decide_eq_true (List.all_eq_true.mp hall c hc)
  rw [urlPath, htext, Uri.parse_authority hscheme hends
    (endsAuthority_port port (Uri.isIPv4_addressChar hip)),
    Uri.authority_plain hip portText_digits]
  rfl

/-- **Who registers with a server learns what this server says of itself**: with any server and any
    registration, the call of the client ends with the alias, version, device, token and web
    interface of the server, as they are. -/
theorem register_agrees (w : Crates) (c : Config) (payload : RegisterDto) (protocol : ProtocolType)
    (ip : Text) (port : UInt16) (hip : Uri.isIPv4 ip = true) (remoteKey key : String) :
    ∃ path, urlPath (registerUrl protocol ip port) = some path ∧
      Client.register w protocol (some key) ((handleRequest w c .post path remoteKey
        (some (w.encode payload.toJson))).response w) =
          .ok ⟨if protocol = .https then some key else none, c.response⟩ := by
  have hpath : urlPath (registerUrl protocol ip port) = some "/api/localsend/v3/register" := by
    rw [registerUrl, urlPath_formatUrl hip]
    rfl
  have hpayload : collectRegisterDto w (some (w.encode payload.toJson)) = .ok payload := by
    simp [collectRegisterDto, w.decode_encode _ payload.isFlat_toJson,
      RegisterDto.ofJson_toJson]
  have hhandled : handleRequest w c .post "/api/localsend/v3/register" remoteKey
      (some (w.encode payload.toJson)) = .responded ⟨200, w.encode c.response.toJson⟩ := by
    simp only [handleRequest, handleRequestInner, V3.register, hpayload]
    rfl
  refine ⟨_, hpath, ?_⟩
  rw [hhandled]
  simp [Handled.response, Client.register, w.decode_encode _ c.response.isFlat_toJson,
    RegisterResponseDto.ofJson_toJson]

theorem register_agrees_phone :
    ∃ path, urlPath (registerUrl .https "10.0.0.2".toList 53317) = some path ∧
      Client.register jsonCrates .https (some "key") ((handleRequest jsonCrates
        ⟨⟨"Phone", "2.3", none, some .mobile, "token"⟩, false, true⟩ .post path "10.0.0.3"
        (some (jsonCrates.encode (RegisterDto.toJson
          ⟨"Laptop", "2.3", some "Linux", none, "other", 53317, .https, true⟩)))).response
            jsonCrates) =
          .ok ⟨some "key", ⟨"Phone", "2.3", none, some .mobile, "token", false⟩⟩ :=
  register_agrees jsonCrates ⟨⟨"Phone", "2.3", none, some .mobile, "token"⟩, false, true⟩
    ⟨"Laptop", "2.3", some "Linux", none, "other", 53317, .https, true⟩ .https "10.0.0.2".toList
    53317 (by decide +kernel) "10.0.0.3" "key"

/-! ## 5. Refusals -/

/-- What a refusal says: nothing, where no route has the path, or the message of an error. -/
def Refuses (w : Crates) (res : Response) (message : Option String) : Prop :=
  (res = ⟨404, []⟩ ∧ message = none) ∨
    ∃ e : ServerError, res = e.intoResponse w ∧ e.message ≠ "" ∧ message = some e.message

theorem intoResponse_eq (w : Crates) (e : ServerError) :
    ∃ status, e.intoResponse w = ⟨status, w.encode (ErrorResponse.toJson ⟨e.message⟩)⟩ := by
  rcases e with _ | _ | message <;> exact ⟨_, rfl⟩

/-- A refusal is read as what it says. -/
theorem statusCodeError_refuses {lossy : Bytes → String} {res : Response} {message : Option String}
    (h : Refuses w res message) : statusCodeError w lossy res = ⟨res.status, message⟩ := by
  rcases h with ⟨rfl, rfl⟩ | ⟨e, rfl, hmessage, rfl⟩
  · simp only [statusCodeError, w.decode_nil]
    rfl
  · obtain ⟨status, hres⟩ := intoResponse_eq w e
    rw [hres]
    simp [statusCodeError, w.decode_encode _ (ErrorResponse.isFlat_toJson _),
      ErrorResponse.ofJson_toJson, hmessage]

theorem refuses_intoResponse {e : ServerError} (h : e.message ≠ "") :
    Refuses w (e.intoResponse w) (some e.message) := .inr ⟨e, rfl, h, rfl⟩

theorem collectRegisterDto_error {body : Option Bytes} {e : ServerError}
    (h : collectRegisterDto w body = .error e) : e.message ≠ "" := by
  unfold collectRegisterDto at h
  split at h
  · cases h
    decide
  · split at h
    · cases h
      decide
    · cases h

theorem nonceExchange_refused {remoteKey : String} {body : Option Bytes} {e : AppError}
    (h : Server.nonceExchange w remoteKey body = .refused e) : (ServerError.app e).message ≠ "" := by
  unfold Server.nonceExchange Server.collectToJson at h
  split at h
  · rename_i e' he
    obtain rfl := Server.Task.refused.inj h
    split at he
    · cases he
      decide
    · split at he
      · cases he
        decide
      · cases he
  · split at h
    · obtain rfl := Server.Task.refused.inj h
      decide
    · split at h
      · cases h
      · obtain rfl := Server.Task.refused.inj h
        decide

/-- A registration is answered with the server's info, or refused. -/
theorem register_cases (w : Crates) (c : Config) (body : Option Bytes) :
    V3.register w c body = .ok ⟨200, w.encode c.response.toJson⟩ ∨
      ∃ e, V3.register w c body = .error e ∧ e.message ≠ "" := by
  unfold V3.register
  cases h : collectRegisterDto w body with
  | ok payload => exact .inl rfl
  | error e => exact .inr ⟨e, rfl, collectRegisterDto_error h⟩

/-- **What a request leads to**: the info of the server, an error with a message, nothing, or an
    exchange of nonces. -/
theorem handleRequestInner_cases (w : Crates) (c : Config) (method : Method)
    (path remoteKey : String) (body : Option Bytes) :
    handleRequestInner w c method path remoteKey body =
        .ok (.responded ⟨200, w.encode c.response.toJson⟩) ∨
      (∃ e, handleRequestInner w c method path remoteKey body = .error e ∧ e.message ≠ "") ∨
      handleRequestInner w c method path remoteKey body = .ok (.responded ⟨404, []⟩) ∨
      handleRequestInner w c method path remoteKey body =
        .ok (.exchanging (Server.nonceExchange w remoteKey body)) := by
  have hregister : (V3.register w c body).map Handled.responded =
        .ok (.responded ⟨200, w.encode c.response.toJson⟩) ∨
      ∃ e, (V3.register w c body).map Handled.responded = .error e ∧ e.message ≠ "" := by
    rcases register_cases w c body with hok | ⟨e, herror, hmessage⟩
    · exact .inl (by rw [hok]; rfl)
    · exact .inr ⟨e, by rw [herror]; rfl, hmessage⟩
  have hlegacy : (if c.legacyEnabled then (V2.register w c body).map Handled.responded
        else .error .notFound) = .ok (.responded ⟨200, w.encode c.response.toJson⟩) ∨
      ∃ e, (if c.legacyEnabled then (V2.register w c body).map Handled.responded
        else .error .notFound) = .error e ∧ e.message ≠ "" := by
    split
    · exact hregister
    · exact .inr ⟨_, rfl, by decide⟩
  unfold handleRequestInner
  split
  · exact hlegacy.imp_right .inl
  · exact hlegacy.imp_right .inl
  · exact hlegacy.imp_right .inl
  · exact hlegacy.imp_right .inl
  · exact .inr (.inr (.inr rfl))
  · exact hregister.imp_right .inl
  · exact .inr (.inr (.inl rfl))

/-- **What the server answers** without storing nonces: its own info, or a refusal. -/
theorem response_cases (w : Crates) (c : Config) (method : Method) (path remoteKey : String)
    (body : Option Bytes) {res : Response}
    (h : (handleRequest w c method path remoteKey body).response w = some res) :
    res = ⟨200, w.encode c.response.toJson⟩ ∨ ∃ message, Refuses w res message := by
  unfold handleRequest at h
  rcases handleRequestInner_cases w c method path remoteKey body with
    hinner | ⟨e, hinner, hmessage⟩ | hinner | hinner
  · rw [hinner] at h
    exact .inl (Option.some.inj h).symm
  · rw [hinner] at h
    obtain rfl := Option.some.inj h
    exact .inr ⟨_, refuses_intoResponse hmessage⟩
  · rw [hinner] at h
    exact .inr ⟨none, .inl ⟨(Option.some.inj h).symm, rfl⟩⟩
  · rw [hinner] at h
    cases htask : Server.nonceExchange w remoteKey body with
    | refused e =>
        rw [htask] at h
        obtain rfl := Option.some.inj h
        exact .inr ⟨_, refuses_intoResponse (e := .app e) (nonceExchange_refused htask)⟩
    | waiting _ _ =>
        rw [htask] at h
        cases h
    | storing stage x =>
        -- a new task stores nothing yet
        unfold Server.nonceExchange at htask
        split at htask
        · cases htask
        · split at htask
          · cases htask
          · split at htask <;> cases htask

/-- **A refusal reaches the caller in the server's words.** Whatever request the server refuses,
    at once or for its nonce, `nonce` and `upload` fail with its status and exactly its message, or
    with none where no route has the path; and so does `prepare_upload`, unless it has failed for
    the certificate before. Only `register` looks at no status: it fails for the certificate, or
    because it cannot read the body. -/
theorem refusal_reported (w : Crates) (c : Config) (method : Method) (path remoteKey : String)
    (body : Option Bytes) (res : Response)
    (h : (handleRequest w c method path remoteKey body).response w = some res)
    (hrefused : res.status ≠ 200) (lossy : Bytes → String) (nonce : WebRtc.Nonce)
    (protocol : ProtocolType) (key : Option String) (verified : Bool) :
    ∃ message, Refuses w res message ∧
      statusCodeError w lossy res = ⟨res.status, message⟩ ∧
      Client.onResponse w nonce (some res) key = .failed (.statusCode res.status res.body) ∧
      Client.prepareUpload w lossy verified (some res) =
        .error (if verified then .statusCode ⟨res.status, message⟩ else .certificate) ∧
      Client.upload w lossy (some res) = .error (.statusCode ⟨res.status, message⟩) ∧
      Client.register w protocol key (some res) =
        .error (if protocol = .https ∧ key = none then .certificate else .json) := by
  rcases response_cases w c method path remoteKey body h with rfl | ⟨message, hrefuses⟩
  · exact absurd rfl hrefused
  · have hread : statusCodeError w lossy res = ⟨res.status, message⟩ :=
      statusCodeError_refuses hrefuses
    have hbody : (w.decode res.body).bind RegisterResponseDto.ofJson = none := by
      rcases hrefuses with ⟨rfl, -⟩ | ⟨e, rfl, -, -⟩
      · rw [w.decode_nil, Option.bind_none]
      · obtain ⟨status, hres⟩ := intoResponse_eq w e
        rw [hres, w.decode_encode _ (ErrorResponse.isFlat_toJson _)]
        simp [RegisterResponseDto.ofJson, ErrorResponse.toJson, field]
    refine ⟨message, hrefuses, hread, ?_, ?_, ?_, ?_⟩
    · simp [Client.onResponse, hrefused]
    · cases verified <;> simp [Client.prepareUpload, hrefused, hread]
    · simp [Client.upload, hrefused, hread]
    · simp only [Client.register, hbody]
      split <;> rfl

/-- A registration without its fields, which every call would report as it stands in the server. -/
theorem refusal_reported_malformed :
    ∃ res, (handleRequest jsonCrates ⟨⟨"Phone", "2.3", none, none, "token"⟩, false, true⟩ .post
        "/api/localsend/v3/register" "10.0.0.3"
        (some (jsonCrates.encode (.obj [])))).response jsonCrates = some res ∧
      Client.onResponse jsonCrates ⟨List.replicate 32 0, rfl⟩ (some res) (some "key") =
        .failed (.statusCode res.status res.body) ∧
      Client.prepareUpload jsonCrates (fun _ => "") true (some res) =
        .error (.statusCode ⟨res.status, some "Invalid JSON body"⟩) ∧
      Client.upload jsonCrates (fun _ => "") (some res) =
        .error (.statusCode ⟨res.status, some "Invalid JSON body"⟩) ∧
      Client.register jsonCrates .https (some "key") (some res) = .error .json := by
  obtain ⟨res, hres⟩ : ∃ res, res =
      (ServerError.app (.badRequest "Invalid JSON body")).intoResponse jsonCrates := ⟨_, rfl⟩
  have hbody : (handleRequest jsonCrates ⟨⟨"Phone", "2.3", none, none, "token"⟩, false, true⟩ .post
      "/api/localsend/v3/register" "10.0.0.3"
      (some (jsonCrates.encode (.obj [])))).response jsonCrates = some res := by
    have hcollect : collectRegisterDto jsonCrates (some (jsonCrates.encode (.obj []))) =
        .error (.app (.badRequest "Invalid JSON body")) := by
      simp [collectRegisterDto, jsonCrates.decode_encode (.obj []) rfl, RegisterDto.ofJson, field]
    rw [handleRequest, handleRequestInner, V3.register, hcollect, hres]
    rfl
  have hstatus : res.status ≠ 200 := by
    rw [hres]
    decide
  have hsays : statusCodeError jsonCrates (fun _ => "") res =
      ⟨res.status, some "Invalid JSON body"⟩ :=
    statusCodeError_refuses (hres ▸ refuses_intoResponse (by decide))
  obtain ⟨message, -, hread, hnonce, hprepare, hupload, hregister⟩ := refusal_reported jsonCrates
    ⟨⟨"Phone", "2.3", none, none, "token"⟩, false, true⟩ .post "/api/localsend/v3/register"
    "10.0.0.3" (some (jsonCrates.encode (.obj []))) res hbody hstatus (fun _ => "")
    ⟨List.replicate 32 0, rfl⟩ .https (some "key") true
  obtain ⟨-, rfl⟩ := StatusCodeError.mk.inj (hread.symm.trans hsays)
  exact ⟨res, hbody, hnonce, hprepare, hupload, hregister⟩

end Agreement

/-! ## 6. The app -/

/-- A value that is written also if there is none, as `dart_mappable` does. -/
def orNullJson : Option Json → Json
  | none => .null
  | some j => j

/-- `RegisterDtoMappable.toJson` of the app; a port is not negative. -/
def appRegisterJson (dto : Multicast.RegisterDto) : Json :=
  .obj [("alias", .str dto.aliasName), ("version", orNullJson (dto.version.map .str)),
    ("deviceModel", orNullJson (dto.deviceModel.map .str)),
    ("deviceType", orNullJson (dto.deviceType.map Signaling.DeviceType.toJson)),
    ("fingerprint", .str dto.fingerprint),
    ("port", orNullJson (dto.port.map fun port => .num port.toNat)),
    ("protocol", orNullJson (dto.protocol.map fun
      | .http => .str "http"
      | .https => .str "https")),
    ("download", orNullJson (dto.download.map .bool))]

/-- **No device of the app registers with a server of the core**: what the app posts to its v2 route
    has a fingerprint and no token, so the server refuses it as malformed, whatever the device is,
    and as unknown where it does not serve that version. The text is written in Dart: any that
    `serde_json` reads as the value. -/
theorem legacy_register_refused (w : Crates) (c : Config) (remoteKey : String)
    (syncState : Isolates.SyncState) (body : Bytes)
    (hbody : w.decode body = some (appRegisterJson (Multicast.getRegisterDto syncState))) :
    handleRequestInner w c .post "/api/localsend/v2/register" remoteKey (some body) =
      .error (if c.legacyEnabled then .app (.badRequest "Invalid JSON body") else .notFound) := by
  have hread : RegisterDto.ofJson (appRegisterJson (Multicast.getRegisterDto syncState)) = none := by
    simp [RegisterDto.ofJson, appRegisterJson, Multicast.getRegisterDto, field]
  have hcollect : collectRegisterDto w (some body) =
      .error (.app (.badRequest "Invalid JSON body")) := by
    simp only [collectRegisterDto, hbody, Option.bind_some, hread]
  simp only [handleRequestInner, V2.register, hcollect]
  split <;> rfl

theorem legacy_register_refused_demo :
    handleRequestInner jsonCrates ⟨⟨"Phone", "2.3", none, none, "token"⟩, false, true⟩ .post
        "/api/localsend/v2/register" "10.0.0.3"
        (some (jsonCrates.encode
          (appRegisterJson (Multicast.getRegisterDto Isolates.demoState)))) =
      .error (.app (.badRequest "Invalid JSON body")) := by
  have hread := jsonCrates.decode_encode
    (appRegisterJson (Multicast.getRegisterDto Isolates.demoState)) (by decide)
  exact legacy_register_refused jsonCrates ⟨⟨"Phone", "2.3", none, none, "token"⟩, false, true⟩
    "10.0.0.3" Isolates.demoState _ hread

end LocalSend.Http
