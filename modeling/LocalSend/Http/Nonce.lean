/-
  File:      LocalSend/Http/Nonce.lean
  Subject:   THE NONCE MAPS OF THE CLIENT AND THE SERVER (`LsHttpClient::nonce` in
             `core/src/http/client/mod.rs`, `nonce_exchange` in
             `core/src/http/server/controller/v3.rs`).

  Each side has two LRU maps, each behind its own lock. A task takes the lock of the received
  nonces, writes, takes the lock of the generated ones, writes, and drops both locks when it
  returns. Between two locks any other task may go on.

  * `Crates` -- `serde_json`, `base64` and `lru` are library code: a parameter, with what the two
    sides rely on; `jsonCrates`;
  * `NonceMaps` -- the maps and who holds their locks;
  * `NonceRequest`, `NonceResponse` -- the bodies, as JSON;
  * `Server.step`, `Client.step` -- any number of requests and calls, from and to any peers.
-/
import LocalSend.Lib.Base64
import LocalSend.Lib.Json
import LocalSend.Lib.Lru
import LocalSend.Lib.Machine
import LocalSend.WebRtc.Messages

namespace LocalSend.Http

open Lib Json
open WebRtc (Bytes Nonce validateNonce)

/-! ## 1. The crates -/

/-- The capacity of a nonce map. -/
abbrev nonceCapacity : Nat := 200

/-- A value without parts, of 64 bits if it is a number. -/
def isScalar : Json → Bool
  | .null | .bool _ | .str _ => true
  | .num n => n < UInt64.size
  | _ => false

@[simp] theorem isScalar_str (s : String) : isScalar (.str s) = true := rfl
@[simp] theorem isScalar_bool (b : Bool) : isScalar (.bool b) = true := rfl

/-- An object of such values, as all bodies are. -/
def isFlat : Json → Bool
  | .obj fs => fs.all fun f => isScalar f.2
  | _ => false

/-- **The crates of both sides**: the texts of JSON values, base64, and a cache. -/
structure Crates where
  encode : Json → Bytes
  decode : Bytes → Option Json
  -- not of every value: a number may be too long, an array too deep
  decode_encode : ∀ j, isFlat j = true → decode (encode j) = some j
  decode_nil : decode [] = none
  base64Encode : Bytes → String
  base64Decode : String → Option Bytes
  base64_decode_encode : ∀ b, base64Decode (base64Encode b) = some b
  lru : LruCache String Bytes nonceCapacity

attribute [simp] Crates.decode_nil Crates.base64_decode_encode

abbrev Crates.NonceMap (w : Crates) : Type := w.lru.Cache

/-- The crates as the libraries of this development have them. -/
def jsonCrates : Crates where
  encode := Json.encode
  decode := Json.decode
  decode_encode := fun j _ => Json.decode_encode j
  decode_nil := rfl
  base64Encode := Base64.encode
  base64Decode := Base64.decode
  base64_decode_encode := Base64.decode_encode
  lru := Lru.lruCache (by decide)

/-! ## 2. The maps -/

abbrev TaskId := Nat

/-- The two nonces of one exchange, as one side stores them. -/
structure Exchange where
  remoteKey : String
  received : Bytes
  generated : Bytes
  deriving DecidableEq, Repr

/-- `received_nonce_map` and `generated_nonce_map`, and the tasks that hold their locks. -/
structure NonceMaps (w : Crates) where
  received : w.NonceMap
  generated : w.NonceMap
  receivedLock : Option TaskId
  generatedLock : Option TaskId

namespace NonceMaps

variable {w : Crates}

def empty : NonceMaps w := ⟨w.lru.new, w.lru.new, none, none⟩

/-- Takes the first lock and writes. -/
def lockReceived (m : NonceMaps w) (i : TaskId) (remoteKey : String) (nonce : Bytes) :
    Option (NonceMaps w) :=
  match m.receivedLock with
  | none => some { m with
      received := w.lru.put m.received remoteKey nonce
      receivedLock := some i }
  | some _ => none

/-- Takes the second lock and writes. -/
def lockGenerated (m : NonceMaps w) (i : TaskId) (remoteKey : String) (nonce : Bytes) :
    Option (NonceMaps w) :=
  match m.generatedLock with
  | none => some { m with
      generated := w.lru.put m.generated remoteKey nonce
      generatedLock := some i }
  | some _ => none

/-- The reads of the debug log, which bring the entries to the front. -/
def readBack (m : NonceMaps w) (remoteKey : String) : NonceMaps w :=
  { m with
    received := (w.lru.get m.received remoteKey).2
    generated := (w.lru.get m.generated remoteKey).2 }

/-- The guards are dropped. -/
def release (m : NonceMaps w) : NonceMaps w := { m with receivedLock := none, generatedLock := none }

/-- No task holds a lock. -/
def unlocked (m : NonceMaps w) : Prop := m.receivedLock = none ∧ m.generatedLock = none

instance (m : NonceMaps w) : Decidable m.unlocked := inferInstanceAs (Decidable (_ ∧ _))

/-- Every received nonce is valid. -/
def Valid (m : NonceMaps w) : Prop :=
  ∀ k nonce, w.lru.peek m.received k = some nonce → validateNonce nonce = true

end NonceMaps

/-- How far a task is with storing. -/
inductive Stage where
  | holdsReceived
  | holdsBoth
  | stored
  deriving DecidableEq, Repr

/-! ## 3. The bodies -/

structure NonceRequest where
  nonce : String
  deriving DecidableEq, Repr

structure NonceResponse where
  nonce : String
  deriving DecidableEq, Repr

structure ErrorResponse where
  message : String
  deriving DecidableEq, Repr

def NonceRequest.toJson (r : NonceRequest) : Json := .obj [("nonce", .str r.nonce)]

def NonceRequest.ofJson (j : Json) : Option NonceRequest := do
  let fs ← j.record ["nonce"] []
  return ⟨← field "nonce" text fs⟩

def NonceResponse.toJson (r : NonceResponse) : Json := .obj [("nonce", .str r.nonce)]

def NonceResponse.ofJson (j : Json) : Option NonceResponse := do
  let fs ← j.record ["nonce"] []
  return ⟨← field "nonce" text fs⟩

def ErrorResponse.toJson (r : ErrorResponse) : Json := .obj [("message", .str r.message)]

theorem NonceRequest.isFlat_toJson (r : NonceRequest) : isFlat r.toJson = true := rfl

theorem NonceResponse.isFlat_toJson (r : NonceResponse) : isFlat r.toJson = true := rfl

theorem ErrorResponse.isFlat_toJson (r : ErrorResponse) : isFlat r.toJson = true := rfl

theorem NonceRequest.ofJson_toJson (r : NonceRequest) : ofJson r.toJson = some r := by
  simp [toJson, ofJson, field]

theorem NonceResponse.ofJson_toJson (r : NonceResponse) : ofJson r.toJson = some r := by
  simp [toJson, ofJson, field]

/-- The errors of `nonce_exchange`. -/
inductive AppError where
  | hyper
  | badRequest (message : String)
  deriving DecidableEq, Repr

/-- A response of the server. -/
structure Response where
  status : Nat
  body : Bytes
  deriving DecidableEq, Repr

def AppError.intoResponse (w : Crates) : AppError → Response
  | .hyper => ⟨500, w.encode (ErrorResponse.toJson ⟨"Internal server error"⟩)⟩
  | .badRequest message => ⟨400, w.encode (ErrorResponse.toJson ⟨message⟩)⟩

/-! ## 4. The server -/

namespace Server

/-- A task of `nonce_exchange`, at its await or at its end. -/
inductive Task where
  /-- waits for the lock of the received nonces -/
  | waiting (remoteKey : String) (nonce : Bytes)
  | storing (stage : Stage) (x : Exchange)
  | refused (error : AppError)
  deriving DecidableEq, Repr

def Task.held : Task → Option (Stage × Exchange)
  | .storing stage x => some (stage, x)
  | _ => none

structure State (w : Crates) where
  maps : NonceMaps w
  tasks : List Task

variable {w : Crates}

def start (w : Crates) : State w := ⟨.empty, []⟩

inductive Event where
  /-- a request of the client with this identifier; no body if reading it fails -/
  | request (remoteKey : String) (body : Option Bytes)
  /-- with the nonce that is drawn after the first write -/
  | lockReceived (i : TaskId) (newNonce : Nonce)
  | lockGenerated (i : TaskId)
  | release (i : TaskId)
  deriving DecidableEq, Repr

/-- `body.collect_to_json::<NonceRequest>()`. -/
def collectToJson (w : Crates) (body : Option Bytes) : Except AppError NonceRequest :=
  match body with
  | none => .error .hyper
  | some bytes =>
    match (w.decode bytes).bind NonceRequest.ofJson with
    | none => .error (.badRequest "Invalid JSON body")
    | some payload => .ok payload

/-- `nonce_exchange` up to the first lock. -/
def nonceExchange (w : Crates) (remoteKey : String) (body : Option Bytes) : Task :=
  match collectToJson w body with
  | .error e => .refused e
  | .ok payload =>
    match w.base64Decode payload.nonce with
    | none => .refused (.badRequest "Invalid nonce format")
    | some nonce =>
      if validateNonce nonce then .waiting remoteKey nonce
      else .refused (.badRequest "Invalid nonce")

def step (s : State w) : Event → Option (State w)
  | .request remoteKey body => some { s with tasks := s.tasks ++ [nonceExchange w remoteKey body] }
  | .lockReceived i newNonce =>
    match s.tasks[i]? with
    | some (.waiting remoteKey nonce) =>
      (s.maps.lockReceived i remoteKey nonce).map fun maps =>
        ⟨maps, s.tasks.set i (.storing .holdsReceived ⟨remoteKey, nonce, newNonce.1⟩)⟩
    | _ => none
  | .lockGenerated i =>
    match s.tasks[i]? with
    | some (.storing .holdsReceived x) =>
      (s.maps.lockGenerated i x.remoteKey x.generated).map fun maps =>
        ⟨maps, s.tasks.set i (.storing .holdsBoth x)⟩
    | _ => none
  | .release i =>
    match s.tasks[i]? with
    | some (.storing .holdsBoth x) => some ⟨s.maps.release, s.tasks.set i (.storing .stored x)⟩
    | _ => none

/-- What the task answers, once it has returned. -/
def Task.response (w : Crates) : Task → Option Response
  | .storing .stored x =>
    some ⟨200, w.encode (NonceResponse.toJson ⟨w.base64Encode x.generated⟩)⟩
  | .refused e => some (e.intoResponse w)
  | _ => none

/-- **The server's side.** -/
def machine (w : Crates) : Machine (State w) Event := ⟨step⟩

def State.held (s : State w) (i : TaskId) : Option (Stage × Exchange) := s.tasks[i]?.bind Task.held

/-- **What a step of the server does.** -/
inductive Step (s : State w) : Event → State w → Prop where
  | request (remoteKey : String) (body : Option Bytes) :
      Step s (.request remoteKey body)
        { s with tasks := s.tasks ++ [nonceExchange w remoteKey body] }
  | lockReceived (i : TaskId) (newNonce : Nonce) (remoteKey : String) (nonce : Bytes)
      (maps : NonceMaps w) (hi : s.tasks[i]? = some (.waiting remoteKey nonce))
      (hmaps : s.maps.lockReceived i remoteKey nonce = some maps) :
      Step s (.lockReceived i newNonce)
        ⟨maps, s.tasks.set i (.storing .holdsReceived ⟨remoteKey, nonce, newNonce.1⟩)⟩
  | lockGenerated (i : TaskId) (x : Exchange) (maps : NonceMaps w)
      (hi : s.tasks[i]? = some (.storing .holdsReceived x))
      (hmaps : s.maps.lockGenerated i x.remoteKey x.generated = some maps) :
      Step s (.lockGenerated i) ⟨maps, s.tasks.set i (.storing .holdsBoth x)⟩
  | release (i : TaskId) (x : Exchange) (hi : s.tasks[i]? = some (.storing .holdsBoth x)) :
      Step s (.release i) ⟨s.maps.release, s.tasks.set i (.storing .stored x)⟩

theorem step_inv {s t : State w} {e : Event} (hs : step s e = some t) : Step s e t := by
  cases e with
  | request remoteKey body =>
      obtain rfl := Option.some.inj hs
      exact .request remoteKey body
  | lockReceived i newNonce =>
      simp only [step] at hs
      split at hs
      · rename_i remoteKey nonce hi
        obtain ⟨maps, hmaps, rfl⟩ := Option.map_eq_some_iff.mp hs
        exact .lockReceived i newNonce remoteKey nonce maps hi hmaps
      · cases hs
  | lockGenerated i =>
      simp only [step] at hs
      split at hs
      · rename_i x hi
        obtain ⟨maps, hmaps, rfl⟩ := Option.map_eq_some_iff.mp hs
        exact .lockGenerated i x maps hi hmaps
      · cases hs
  | release i =>
      simp only [step] at hs
      split at hs
      · rename_i x hi
        obtain rfl := Option.some.inj hs
        exact .release i x hi
      · cases hs

end Server

/-! ## 5. The client -/

namespace Client

inductive NonceError where
  /-- the request failed -/
  | request
  /-- `StatusCodeError`; its message is read from the body -/
  | statusCode (status : Nat) (body : Bytes)
  /-- no certificate, or not a valid one, or no address -/
  | identifier
  | json
  | base64
  deriving DecidableEq, Repr

/-- A call of `nonce`, at its await or at its end. -/
inductive Task where
  | requesting (generatedNonce : Nonce)
  /-- waits for the lock of the received nonces -/
  | waiting (x : Exchange) (body : NonceResponse)
  | storing (stage : Stage) (x : Exchange) (body : NonceResponse)
  | failed (error : NonceError)
  deriving DecidableEq, Repr

def Task.held : Task → Option (Stage × Exchange)
  | .storing stage x _ => some (stage, x)
  | _ => none

structure State (w : Crates) where
  maps : NonceMaps w
  tasks : List Task

variable {w : Crates}

def start (w : Crates) : State w := ⟨.empty, []⟩

inductive Event where
  /-- `nonce` is called and draws its nonce -/
  | call (generatedNonce : Nonce)
  /-- what the request gives, with the identifier of the remote -/
  | response (i : TaskId) (res : Option Response) (remoteKey : Option String)
  | lockReceived (i : TaskId)
  /-- with debug messages logged or not -/
  | lockGenerated (i : TaskId) (debug : Bool)
  | release (i : TaskId)
  deriving DecidableEq, Repr

/-- The body of the request. -/
def requestBody (w : Crates) (generatedNonce : Nonce) : Bytes :=
  w.encode (NonceRequest.toJson ⟨w.base64Encode generatedNonce.1⟩)

/-- `nonce` from the response up to the first lock. -/
def onResponse (w : Crates) (generatedNonce : Nonce) (res : Option Response)
    (remoteKey : Option String) : Task :=
  match res with
  | none => .failed .request
  | some res =>
    if res.status ≠ 200 then .failed (.statusCode res.status res.body)
    else
      match remoteKey with
      | none => .failed .identifier
      | some remoteKey =>
        match (w.decode res.body).bind NonceResponse.ofJson with
        | none => .failed .json
        | some body =>
          match w.base64Decode body.nonce with
          | none => .failed .base64
          | some responseNonce => .waiting ⟨remoteKey, responseNonce, generatedNonce.1⟩ body

def step (s : State w) : Event → Option (State w)
  | .call generatedNonce => some { s with tasks := s.tasks ++ [.requesting generatedNonce] }
  | .response i res remoteKey =>
    match s.tasks[i]? with
    | some (.requesting generatedNonce) =>
      some { s with tasks := s.tasks.set i (onResponse w generatedNonce res remoteKey) }
    | _ => none
  | .lockReceived i =>
    match s.tasks[i]? with
    | some (.waiting x body) =>
      (s.maps.lockReceived i x.remoteKey x.received).map fun maps =>
        ⟨maps, s.tasks.set i (.storing .holdsReceived x body)⟩
    | _ => none
  | .lockGenerated i debug =>
    match s.tasks[i]? with
    | some (.storing .holdsReceived x body) =>
      (s.maps.lockGenerated i x.remoteKey x.generated).map fun maps =>
        ⟨if debug then maps.readBack x.remoteKey else maps,
          s.tasks.set i (.storing .holdsBoth x body)⟩
    | _ => none
  | .release i =>
    match s.tasks[i]? with
    | some (.storing .holdsBoth x body) =>
      some ⟨s.maps.release, s.tasks.set i (.storing .stored x body)⟩
    | _ => none

/-- What the call returns, once it has. -/
def Task.result : Task → Option (Except NonceError String)
  | .storing .stored _ body => some (.ok body.nonce)
  | .failed e => some (.error e)
  | _ => none

/-- **The client's side.** -/
def machine (w : Crates) : Machine (State w) Event := ⟨step⟩

def State.held (s : State w) (i : TaskId) : Option (Stage × Exchange) := s.tasks[i]?.bind Task.held

/-- **What a step of the client does.** -/
inductive Step (s : State w) : Event → State w → Prop where
  | call (generatedNonce : Nonce) :
      Step s (.call generatedNonce) { s with tasks := s.tasks ++ [.requesting generatedNonce] }
  | response (i : TaskId) (generatedNonce : Nonce) (res : Option Response)
      (remoteKey : Option String) (hi : s.tasks[i]? = some (.requesting generatedNonce)) :
      Step s (.response i res remoteKey)
        { s with tasks := s.tasks.set i (onResponse w generatedNonce res remoteKey) }
  | lockReceived (i : TaskId) (x : Exchange) (body : NonceResponse) (maps : NonceMaps w)
      (hi : s.tasks[i]? = some (.waiting x body))
      (hmaps : s.maps.lockReceived i x.remoteKey x.received = some maps) :
      Step s (.lockReceived i) ⟨maps, s.tasks.set i (.storing .holdsReceived x body)⟩
  | lockGenerated (i : TaskId) (debug : Bool) (x : Exchange) (body : NonceResponse)
      (maps : NonceMaps w) (hi : s.tasks[i]? = some (.storing .holdsReceived x body))
      (hmaps : s.maps.lockGenerated i x.remoteKey x.generated = some maps) :
      Step s (.lockGenerated i debug)
        ⟨if debug then maps.readBack x.remoteKey else maps,
          s.tasks.set i (.storing .holdsBoth x body)⟩
  | release (i : TaskId) (x : Exchange) (body : NonceResponse)
      (hi : s.tasks[i]? = some (.storing .holdsBoth x body)) :
      Step s (.release i) ⟨s.maps.release, s.tasks.set i (.storing .stored x body)⟩

theorem step_inv {s t : State w} {e : Event} (hs : step s e = some t) : Step s e t := by
  cases e with
  | call generatedNonce =>
      obtain rfl := Option.some.inj hs
      exact .call generatedNonce
  | response i res remoteKey =>
      simp only [step] at hs
      split at hs
      · rename_i generatedNonce hi
        obtain rfl := Option.some.inj hs
        exact .response i generatedNonce res remoteKey hi
      · cases hs
  | lockReceived i =>
      simp only [step] at hs
      split at hs
      · rename_i x body hi
        obtain ⟨maps, hmaps, rfl⟩ := Option.map_eq_some_iff.mp hs
        exact .lockReceived i x body maps hi hmaps
      · cases hs
  | lockGenerated i debug =>
      simp only [step] at hs
      split at hs
      · rename_i x body hi
        obtain ⟨maps, hmaps, rfl⟩ := Option.map_eq_some_iff.mp hs
        exact .lockGenerated i debug x body maps hi hmaps
      · cases hs
  | release i =>
      simp only [step] at hs
      split at hs
      · rename_i x body hi
        obtain rfl := Option.some.inj hs
        exact .release i x body hi
      · cases hs

end Client

end LocalSend.Http
