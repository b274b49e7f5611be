/-
  File:      LocalSend/Server/WebSend.lean
  Subject:   SHARING OVER A LINK (`send_controller.dart`): a browser asks for the files, the user
             decides, and the browser downloads them.

  A handler runs up to its next await in one go. After a correct pin, and after the user's decision,
  its continuation is ready at once. The event loop runs the continuations that are ready before the
  next event; here they run in any order, and also after later requests and decisions, but before
  the server is started, stopped or given new files.

  * `Task`, `State`, `Event`, `step` -- the machine (`webSend`);
  * `Mark`, `marks` -- what happens to the sessions: installed, checked, stored, accepted,
    activated; `sinceInstalled` -- the marks since the current files were installed;
  * `Granted` -- an address was checked, accepted and activated, and has asked for nothing since;
  * `Authorised` -- so it was since the last installation;
  * `Justified` -- active sessions belong to granted addresses, waiting ones to checked requests;
    `justified_step`, `justified_run`;
  * **`download_authorised`** -- a download gets past its session check only then.
-/
import LocalSend.Lib.Percent
import LocalSend.Receive.Controller
import Mathlib.Data.List.DropRight

namespace LocalSend.WebSend

open Lib
open LocalSend.Receive (RequestId checkPin)

/-! ## 1. Sessions and requests -/

structure WebSendFile where
  file : FileDto
  path : Option String
  /-- the content of a text message or of the clipboard -/
  bytes : Option (List UInt8)
  deriving DecidableEq, Repr

structure WebSendSession where
  sessionId : String
  /-- the stream controller, named by the request that created it; an active session has none -/
  responseHandler : Option RequestId
  ip : String
  deviceInfo : String
  deriving DecidableEq, Repr

structure WebSendState where
  sessions : LinkedMap String WebSendSession
  /-- keyed by the id of the file -/
  files : LinkedMap String WebSendFile
  autoAccept : Bool
  pin : Option String
  /-- the number of its map of attempts -/
  pinAttempts : Nat
  deriving DecidableEq

structure ServerState where
  webSendState : Option WebSendState
  deriving DecidableEq

structure InfoDto where
  aliasName : String
  version : Option String
  deviceModel : Option String
  deviceType : Option DeviceType
  fingerprint : Option String
  download : Option Bool
  deriving DecidableEq, Repr

structure PrepareDownload where
  ip : String
  sessionId : Option String
  pin : Option String
  deviceInfo : String
  deriving DecidableEq, Repr

structure DownloadRequest where
  ip : String
  sessionId : Option String
  fileId : Option String
  deriving DecidableEq, Repr

inductive Response where
  | plain (response : Receive.Response)
  | receiveRequest (info : InfoDto) (sessionId : String) (files : List (String × FileDto))
  /-- an attachment, with its `content-disposition` -/
  | inlineContent (disposition : String) (bytes : List UInt8)
  | fileContent (disposition : String) (path : String)
  deriving DecidableEq, Repr

/-- Where a handler is: it keeps the state in which it began. -/
inductive Task where
  /-- the pin is correct, and the continuation is ready -/
  | pinChecked (req : PrepareDownload) (state : WebSendState)
  /-- waiting for the user's decision -/
  | deciding (req : PrepareDownload) (state : WebSendState)
  /-- the decision is on the stream, which is closed; the continuation is ready -/
  | decided (req : PrepareDownload) (state : WebSendState) (accepted : Bool)
  | returned (response : Response)
  /-- an exception left the handler -/
  | crashed
  deriving DecidableEq

def Task.respond (code : Nat) (text : String) : Task := .returned (.plain (.message code text))

/-- The continuation of the handler is ready. -/
def Task.ready : Task → Bool
  | .pinChecked _ _ | .decided _ _ _ => true
  | _ => false

structure State where
  server : Option ServerState
  /-- the maps of attempts, by number -/
  pinAttempts : Nat → String → Nat
  /-- the number of the next map -/
  nextMap : Nat
  tasks : LinkedMap RequestId Task

def State.initial : State := ⟨none, fun _ _ => 0, 0, .empty⟩

def State.webSend (s : State) : Option WebSendState := s.server.bind ServerState.webSendState

def State.setTask (s : State) (r : RequestId) (task : Task) : State :=
  { s with tasks := s.tasks.insert r task }

def State.setWebSend (s : State) (state : Option WebSendState) : State :=
  { s with server := s.server.map fun _ => ⟨state⟩ }

/-- No continuation is ready. -/
def State.idle (s : State) : Bool := s.tasks.values.all fun task => !task.ready

/-! ## 2. The handlers -/

/-- The session of the query, if it is active and of the same address. -/
def WebSendState.activeSession (state : WebSendState) (sessionId : Option String) (ip : String) :
    Option WebSendSession :=
  (sessionId.bind state.sessions.get?).filter fun session =>
    session.responseHandler = none ∧ session.ip = ip

def WebSendState.fileDtos (state : WebSendState) : List (String × FileDto) :=
  state.files.entries.map fun entry => (entry.1, entry.2.file)

/-- The route `prepare-download` up to its first await. -/
def prepareDownload (info : InfoDto) (s : State) (r : RequestId) (req : PrepareDownload) : State :=
  match s.server with
  | none => s.setTask r .crashed
  | some ⟨none⟩ => s.setTask r (.respond 403 "Web send not initialized.")
  | some ⟨some state⟩ =>
    match state.activeSession req.sessionId req.ip with
    | some session =>
      s.setTask r (.returned (.receiveRequest info session.sessionId state.fileDtos))
    | none =>
      match checkPin (s.pinAttempts state.pinAttempts) req.ip state.pin req.pin with
      | (pinAttempts, response) =>
        { s with
          pinAttempts := Function.update s.pinAttempts state.pinAttempts pinAttempts }.setTask r
          (match response with
          | none => .pinChecked req state
          | some response => .returned (.plain response))

/-- The session becomes active. -/
def activate (info : InfoDto) (s : State) (r : RequestId) (req : PrepareDownload)
    (state : WebSendState) : State :=
  match s.webSend with
  | none => s.setTask r .crashed
  | some current =>
    match current.sessions.update req.ip fun session => { session with responseHandler := none } with
    | none => s.setTask r .crashed
    | some sessions => (s.setWebSend (some { current with sessions := sessions })).setTask r
      (.returned (.receiveRequest info req.ip state.fileDtos))

/-- The session is removed. -/
def reject (s : State) (r : RequestId) (req : PrepareDownload) : State :=
  match s.webSend with
  | none => s.setTask r .crashed
  | some current =>
    (s.setWebSend (some { current with sessions := current.sessions.erase req.ip })).setTask r
      (.respond 403 "File transfer rejected.")

/-- After the pin: the session is stored under the address of the request. -/
def store (info : InfoDto) (s : State) (r : RequestId) (req : PrepareDownload)
    (state : WebSendState) : State :=
  match s.webSend with
  | none => s.setTask r .crashed
  | some current =>
    let s' := s.setWebSend (some { current with
      sessions := current.sessions.insert req.ip ⟨req.ip, some r, req.ip, req.deviceInfo⟩ })
    if state.autoAccept then activate info s' r req state
    else s'.setTask r (.deciding req state)

/-- The handler whose stream a decision goes to. -/
def State.handlerOf (s : State) (sessionId : String) : Option RequestId :=
  s.webSend.bind fun state => (state.sessions.get? sessionId).bind WebSendSession.responseHandler

/-- `_respondRequest`: a stream that is closed throws, and nothing changes. -/
def respondRequest (s : State) (sessionId : String) (accepted : Bool) : State :=
  match s.handlerOf sessionId with
  | none => s
  | some r =>
    match s.tasks.get? r with
    | some (.deciding req state) => s.setTask r (.decided req state accepted)
    | _ => s

/-- The session check of the route `download`. -/
def State.passes (s : State) (req : DownloadRequest) : Bool :=
  (s.webSend.bind fun state => state.activeSession req.sessionId req.ip).isSome

def disposition (fileName : String) : String :=
  "attachment; filename=\"" ++
    String.ofList (Percent.encodeComponent (fileName.toList.map fun c => if c = '/' then '-' else c))
    ++ "\""

/-- The route `download`; the null check of the path may throw. -/
def download (s : State) (req : DownloadRequest) : Task :=
  if req.sessionId = none then .respond 400 "Missing sessionId." else
  if s.server = none then .crashed else
  if !s.passes req then .respond 403 "Invalid sessionId." else
  match req.fileId with
  | none => .respond 400 "Missing fileId."
  | some fileId =>
    match s.webSend.bind fun state => state.files.get? fileId with
    | none => .respond 403 "Invalid fileId."
    | some file =>
      match file.bytes, file.path with
      | some bytes, _ => .returned (.inlineContent (disposition file.file.fileName) bytes)
      | none, some path => .returned (.fileContent (disposition file.file.fileName) path)
      | none, none => .crashed

/-! ## 3. Steps -/

inductive Event where
  | prepareDownload (r : RequestId) (req : PrepareDownload)
  /-- `prepare-download` goes on after `checkPin` -/
  | pinChecked (r : RequestId)
  /-- `acceptRequest` and `declineRequest` -/
  | respondRequest (sessionId : String) (accepted : Bool)
  /-- `prepare-download` goes on after the decision -/
  | decided (r : RequestId)
  | download (r : RequestId) (req : DownloadRequest)
  | setWebSendPin (pin : Option String)
  | setWebSendAutoAccept (autoAccept : Bool)
  /-- the files under their new ids; none of its awaits waits for an event -/
  | initializeWebSend (files : LinkedMap String WebSendFile) (autoAccept : Bool)
  | started
  | stopped
  deriving DecidableEq

def step (info : InfoDto) (s : State) : Event → Option State
  | .prepareDownload r req =>
    if r ∈ s.tasks.keys then none else some (prepareDownload info s r req)
  | .pinChecked r =>
    match s.tasks.get? r with
    | some (.pinChecked req state) => some (store info s r req state)
    | _ => none
  | .respondRequest sessionId accepted => some (respondRequest s sessionId accepted)
  | .decided r =>
    match s.tasks.get? r with
    | some (.decided req state true) => some (activate info s r req state)
    | some (.decided req _ false) => some (reject s r req)
    | _ => none
  | .download r req =>
    if r ∈ s.tasks.keys then none else some (s.setTask r (download s req))
  | .setWebSendPin pin =>
    some (s.setWebSend (s.webSend.map fun state => { state with pin := pin }))
  | .setWebSendAutoAccept autoAccept =>
    some (s.setWebSend (s.webSend.map fun state => { state with autoAccept := autoAccept }))
  | .initializeWebSend files autoAccept =>
    if s.idle then some ({ s with
      pinAttempts := Function.update s.pinAttempts s.nextMap fun _ => 0
      nextMap := s.nextMap + 1 }.setWebSend (some ⟨.empty, files, autoAccept, none, s.nextMap⟩))
    else none
  | .started => if s.idle then some { s with server := some ⟨none⟩ } else none
  | .stopped => if s.idle then some { s with server := none } else none

/-- **Sharing over a link**, for any requests, decisions and changes of the server. -/
def webSend (info : InfoDto) : Machine State Event := ⟨step info⟩

/-! ## 4. What happens to the sessions -/

inductive Mark where
  | installed
  /-- the request passed `checkPin` -/
  | checked (r : RequestId) (ip : String)
  /-- its session was stored -/
  | stored (r : RequestId) (ip : String)
  /-- it was accepted, by the user or at once -/
  | accepted (r : RequestId)
  /-- the acceptance took effect -/
  | activated (r : RequestId) (ip : String)
  deriving DecidableEq, Repr

/-- What a step does to the sessions. -/
def marks (s : State) : Event → List Mark
  | .prepareDownload r req =>
    match s.webSend with
    | none => []
    | some state =>
      if (state.activeSession req.sessionId req.ip).isNone &&
          (checkPin (s.pinAttempts state.pinAttempts) req.ip state.pin req.pin).2.isNone then
        [.checked r req.ip]
      else []
  | .pinChecked r =>
    match s.tasks.get? r, s.webSend with
    | some (.pinChecked req state), some _ =>
      .stored r req.ip ::
        if state.autoAccept then [.accepted r, .activated r req.ip] else []
    | _, _ => []
  | .respondRequest sessionId true =>
    match s.handlerOf sessionId with
    | none => []
    | some r =>
      match s.tasks.get? r with
      | some (.deciding _ _) => [.accepted r]
      | _ => []
  | .decided r =>
    match s.tasks.get? r, s.webSend with
    | some (.decided req _ true), some current =>
      if req.ip ∈ current.sessions.keys then [.activated r req.ip] else []
    | _, _ => []
  | .initializeWebSend _ _ => if s.server.isSome then [.installed] else []
  | _ => []

/-- The marks since the current files were installed. -/
def sinceInstalled (ms : List Mark) : List Mark := ms.rtakeWhile fun m => m ≠ .installed

/-- **The address was granted access**: one of its requests was checked, accepted and activated,
    and it has stored no other request since. -/
def Granted (ms : List Mark) (a : String) : Prop :=
  ∃ r before after, ms = before ++ .activated r a :: after ∧ .checked r a ∈ before ∧
    .accepted r ∈ before ∧ ∀ r', .stored r' a ∉ after

/-- **The address was granted access since the last installation.** -/
def Authorised (ms : List Mark) (a : String) : Prop :=
  ∃ before since, ms = before ++ .installed :: since ∧ .installed ∉ since ∧ Granted since a

/-- The request of a handler that has not ended. -/
def Task.request : Task → Option PrepareDownload
  | .pinChecked req _ | .deciding req _ | .decided req _ _ => some req
  | _ => none

/-- **The sessions are justified** by the marks `ms`. -/
structure Justified (ms : List Mark) (s : State) : Prop where
  installed : ∀ state, s.webSend = some state → .installed ∈ ms
  own : ∀ state k session, s.webSend = some state → state.sessions.get? k = some session →
    session.ip = k
  active : ∀ state k session, s.webSend = some state → state.sessions.get? k = some session →
    session.responseHandler = none → Granted (sinceInstalled ms) k
  waiting : ∀ state k session r, s.webSend = some state → state.sessions.get? k = some session →
    session.responseHandler = some r → .checked r k ∈ sinceInstalled ms
  known : ∀ r a, .checked r a ∈ sinceInstalled ms → ∃ task, s.tasks.get? r = some task ∧
    ∀ req, task.request = some req → req.ip = a
  pinChecked : ∀ r req state, s.tasks.get? r = some (.pinChecked req state) →
    .checked r req.ip ∈ sinceInstalled ms
  decided : ∀ r req state, s.tasks.get? r = some (.decided req state true) →
    .checked r req.ip ∈ sinceInstalled ms ∧ .accepted r ∈ sinceInstalled ms

variable {info : InfoDto} {ms : List Mark} {m : Mark} {s t : State} {e : Event} {r : RequestId}
  {a : String} {task : Task} {req : PrepareDownload} {current state : WebSendState}

theorem sinceInstalled_mark (h : m ≠ .installed) :
    sinceInstalled (ms ++ [m]) = sinceInstalled ms ++ [m] :=
  List.rtakeWhile_concat_pos _ _ _ (by simpa using h)

theorem sinceInstalled_installed : sinceInstalled (ms ++ [.installed]) = [] :=
  List.rtakeWhile_concat_neg _ _ _ (by simp)

/-- The marks split at the last installation. -/
theorem sinceInstalled_split (h : .installed ∈ ms) :
    .installed ∉ sinceInstalled ms ∧ ∃ before, ms = before ++ .installed :: sinceInstalled ms := by
  refine ⟨fun hmem => ?_, ?_⟩
  · have := List.mem_rtakeWhile_imp hmem
    simp at this
  · induction ms using List.reverseRecOn with
    | nil => cases h
    | append_singleton ms m ih =>
        by_cases hm : m = .installed
        · subst hm
          rw [sinceInstalled_installed]
          exact ⟨ms, rfl⟩
        · rcases List.mem_append.mp h with h | h
          · obtain ⟨before, hsplit⟩ := ih h
            refine ⟨before, ?_⟩
            rw [sinceInstalled_mark hm, ← List.cons_append, ← List.append_assoc, ← hsplit]
          · exact absurd (List.mem_singleton.mp h).symm hm

theorem Granted.mark (h : Granted ms a) (hm : ∀ r, m ≠ .stored r a) : Granted (ms ++ [m]) a := by
  obtain ⟨r, before, after, rfl, hchecked, haccepted, hstored⟩ := h
  refine ⟨r, before, after ++ [m], by simp, hchecked, haccepted, fun r' hmem => ?_⟩
  rcases List.mem_append.mp hmem with hmem | hmem
  · exact hstored r' hmem
  · exact hm r' (List.mem_singleton.mp hmem).symm

theorem webSend_setWebSend (h : s.webSend = some current) (w : Option WebSendState) :
    (s.setWebSend w).webSend = w := by
  unfold State.webSend at h
  cases hserver : s.server with
  | none => simp [hserver] at h
  | some server => simp [State.setWebSend, State.webSend, hserver]

/-! ## 5. What keeps the sessions justified -/

/-- A handler goes on. -/
theorem Justified.setTask (h : Justified ms s)
    (hknown : ∀ a req, .checked r a ∈ sinceInstalled ms → task.request = some req → req.ip = a)
    (hchecked : ∀ req state, task = .pinChecked req state → .checked r req.ip ∈ sinceInstalled ms)
    (hdecided : ∀ req state, task = .decided req state true →
      .checked r req.ip ∈ sinceInstalled ms ∧ .accepted r ∈ sinceInstalled ms) :
    Justified ms (s.setTask r task) where
  installed := h.installed
  own := h.own
  active := h.active
  waiting := h.waiting
  known r' a hmem := by
    by_cases hr : r' = r
    · subst hr
      exact ⟨task, LinkedMap.get?_insert_self, fun req hreq => hknown a req hmem hreq⟩
    · obtain ⟨task', htask, hip⟩ := h.known r' a hmem
      exact ⟨task', (LinkedMap.get?_insert_ne hr).trans htask, hip⟩
  pinChecked r' req state htask := by
    change (s.tasks.insert r task).get? r' = _ at htask
    rw [LinkedMap.get?_insert] at htask
    split at htask
    · rename_i hr
      subst hr
      exact hchecked req state (Option.some.inj htask)
    · exact h.pinChecked r' req state htask
  decided r' req state htask := by
    change (s.tasks.insert r task).get? r' = _ at htask
    rw [LinkedMap.get?_insert] at htask
    split at htask
    · rename_i hr
      subst hr
      exact hdecided req state (Option.some.inj htask)
    · exact h.decided r' req state htask

/-- A handler ends. -/
theorem Justified.finish (h : Justified ms s) (htask : task.request = none) :
    Justified ms (s.setTask r task) := by
  refine h.setTask (fun a req _ hreq => ?_) (fun req state heq => ?_) fun req state heq => ?_
  · rw [htask] at hreq
    cases hreq
  · rw [heq] at htask
    cases htask
  · rw [heq] at htask
    cases htask

/-- A mark that neither installs nor stores. -/
theorem Justified.mark (h : Justified ms s) (hinstalled : m ≠ .installed)
    (hstored : ∀ r a, m ≠ .stored r a)
    (hknown : ∀ r a, m = .checked r a → ∃ task, s.tasks.get? r = some task ∧
      ∀ req, task.request = some req → req.ip = a) : Justified (ms ++ [m]) s := by
  have hsince : sinceInstalled (ms ++ [m]) = sinceInstalled ms ++ [m] :=
    sinceInstalled_mark hinstalled
  have hkept : ∀ {m'}, m' ∈ sinceInstalled ms → m' ∈ sinceInstalled (ms ++ [m]) := by
    intro m' hmem
    rw [hsince]
    exact List.mem_append_left _ hmem
  refine ⟨fun state hstate => List.mem_append_left _ (h.installed state hstate), h.own,
    fun state k session hstate hk hnone => ?_,
    fun state k session r hstate hk hr => hkept (h.waiting state k session r hstate hk hr),
    fun r a hmem => ?_, fun r req state htask => hkept (h.pinChecked r req state htask),
    fun r req state htask => (h.decided r req state htask).imp hkept hkept⟩
  · rw [hsince]
    exact (h.active state k session hstate hk hnone).mark fun r => hstored r k
  · rw [hsince] at hmem
    rcases List.mem_append.mp hmem with hmem | hmem
    · exact h.known r a hmem
    · exact hknown r a (List.mem_singleton.mp hmem).symm

/-- The sessions change: each one afterwards is justified by the marks. -/
theorem Justified.sessions {ms' : List Mark} {sessions : LinkedMap String WebSendSession}
    (h : Justified ms s) (hstate : s.webSend = some current)
    (hms : ∀ m, m ∈ ms → m ∈ ms')
    (hsince : ∀ m, m ∈ sinceInstalled ms → m ∈ sinceInstalled ms')
    (hchecked : ∀ r a, .checked r a ∈ sinceInstalled ms' → .checked r a ∈ sinceInstalled ms)
    (hown : ∀ k session, sessions.get? k = some session → session.ip = k)
    (hactive : ∀ k session, sessions.get? k = some session → session.responseHandler = none →
      Granted (sinceInstalled ms') k)
    (hwaiting : ∀ k session r, sessions.get? k = some session →
      session.responseHandler = some r → .checked r k ∈ sinceInstalled ms) :
    Justified ms' (s.setWebSend (some { current with sessions := sessions })) := by
  have hnew : (s.setWebSend (some { current with sessions := sessions })).webSend =
      some { current with sessions := sessions } := webSend_setWebSend hstate _
  refine ⟨fun _ _ => hms _ (h.installed current hstate), fun state k session hsome hk => ?_,
    fun state k session hsome hk hnone => ?_, fun state k session r hsome hk hr => ?_,
    fun r a hmem => h.known r a (hchecked r a hmem),
    fun r req state htask => hsince _ (h.pinChecked r req state htask),
    fun r req state htask => (h.decided r req state htask).imp (hsince _) (hsince _)⟩
  · cases hnew.symm.trans hsome
    exact hown k session hk
  · cases hnew.symm.trans hsome
    exact hactive k session hk hnone
  · cases hnew.symm.trans hsome
    exact hsince _ (hwaiting k session r hk hr)

/-- **The session becomes active**: the request was checked and accepted. -/
theorem Justified.activate (h : Justified ms s) (hchecked : .checked r req.ip ∈ sinceInstalled ms)
    (haccepted : .accepted r ∈ sinceInstalled ms) (hstate : s.webSend = some current) :
    Justified (ms ++ if req.ip ∈ current.sessions.keys then [.activated r req.ip] else [])
      (activate info s r req state) := by
  unfold WebSend.activate
  rw [hstate]
  dsimp only
  cases hupdate : current.sessions.update req.ip fun session =>
      { session with responseHandler := none } with
  | none =>
      rw [if_neg (LinkedMap.update_eq_none.mp hupdate), List.append_nil]
      exact h.finish rfl
  | some sessions =>
      obtain ⟨hkeys, ⟨old, hold, hnew⟩, hother⟩ := LinkedMap.update_spec hupdate
      rw [if_pos (LinkedMap.mem_keys.mpr ⟨old, hold⟩)]
      have hsince : sinceInstalled (ms ++ [.activated r req.ip]) =
          sinceInstalled ms ++ [.activated r req.ip] :=
        sinceInstalled_mark fun h => by cases h
      refine Justified.finish (h.sessions hstate (fun m hm => List.mem_append_left _ hm)
        (fun m hm => ?_) (fun r' a hmem => ?_) (fun k session hk => ?_)
        (fun k session hk hnone => ?_) fun k session r' hk hr => ?_) rfl
      · rw [hsince]
        exact List.mem_append_left _ hm
      · rw [hsince] at hmem
        rcases List.mem_append.mp hmem with hmem | hmem
        · exact hmem
        · cases List.mem_singleton.mp hmem
      · by_cases hip : k = req.ip
        · subst hip
          cases hnew.symm.trans hk
          exact h.own current _ old hstate hold
        · exact h.own current k session hstate ((hother k hip).symm.trans hk)
      · rw [hsince]
        by_cases hip : k = req.ip
        · subst hip
          exact ⟨r, sinceInstalled ms, [], rfl, hchecked, haccepted, fun _ h => by cases h⟩
        · refine (h.active current k session hstate ((hother k hip).symm.trans hk) hnone).mark ?_
          exact fun _ h => by cases h
      · by_cases hip : k = req.ip
        · subst hip
          cases hnew.symm.trans hk
          cases hr
        · exact h.waiting current k session r' hstate ((hother k hip).symm.trans hk) hr

/-- **The session is stored**: it waits for a checked request. -/
theorem Justified.store (h : Justified ms s) (hstate : s.webSend = some current)
    (hchecked : .checked r req.ip ∈ sinceInstalled ms) :
    Justified (ms ++ [.stored r req.ip]) (s.setWebSend (some { current with
      sessions := current.sessions.insert req.ip
        ⟨req.ip, some r, req.ip, req.deviceInfo⟩ })) := by
  have hsince : sinceInstalled (ms ++ [.stored r req.ip]) =
      sinceInstalled ms ++ [.stored r req.ip] :=
    sinceInstalled_mark fun h => by cases h
  refine h.sessions hstate (fun m hm => List.mem_append_left _ hm) (fun m hm => ?_)
    (fun r' a hmem => ?_) (fun k session hk => ?_) (fun k session hk hnone => ?_)
    fun k session r' hk hr => ?_
  · rw [hsince]
    exact List.mem_append_left _ hm
  · rw [hsince] at hmem
    rcases List.mem_append.mp hmem with hmem | hmem
    · exact hmem
    · cases List.mem_singleton.mp hmem
  · rw [LinkedMap.get?_insert] at hk
    split at hk
    · rename_i hip
      cases hk
      exact hip.symm
    · exact h.own current k session hstate hk
  · rw [LinkedMap.get?_insert] at hk
    split at hk
    · cases hk
      cases hnone
    · rename_i hip
      rw [hsince]
      refine (h.active current k session hstate hk hnone).mark fun r' heq => ?_
      cases heq
      exact hip rfl
  · rw [LinkedMap.get?_insert] at hk
    split at hk
    · rename_i hip
      cases hk
      cases hr
      rw [hip]
      exact hchecked
    · exact h.waiting current k session r' hstate hk hr

/-- The session is removed. -/
theorem Justified.reject (h : Justified ms s) : Justified ms (reject s r req) := by
  unfold WebSend.reject
  cases hstate : s.webSend with
  | none => exact h.finish rfl
  | some current =>
      refine Justified.finish (h.sessions hstate (fun m hm => hm) (fun m hm => hm)
        (fun r a hmem => hmem) (fun k session hk => ?_) (fun k session hk hnone => ?_)
        fun k session r' hk hr => ?_) rfl
      · exact h.own current k session hstate (LinkedMap.get?_of_erase hk)
      · exact h.active current k session hstate (LinkedMap.get?_of_erase hk) hnone
      · exact h.waiting current k session r' hstate (LinkedMap.get?_of_erase hk) hr

/-- The request passed `checkPin`. -/
theorem Justified.checked (h : Justified ms s) (hnew : r ∉ s.tasks.keys) :
    Justified (ms ++ [.checked r req.ip]) (s.setTask r (.pinChecked req state)) := by
  have hfresh : ∀ a, .checked r a ∉ sinceInstalled ms := by
    intro a hmem
    obtain ⟨task, htask, _⟩ := h.known r a hmem
    exact hnew (LinkedMap.mem_keys.mpr ⟨task, htask⟩)
  have hend : Justified ms (s.setTask r .crashed) := h.finish rfl
  have hmark : Justified (ms ++ [.checked r req.ip]) (s.setTask r .crashed) := by
    refine hend.mark (fun h => by cases h) (fun _ _ h => by cases h) fun r' a heq => ?_
    cases heq
    exact ⟨.crashed, LinkedMap.get?_insert_self, fun _ h => by cases h⟩
  have hsince : sinceInstalled (ms ++ [.checked r req.ip]) =
      sinceInstalled ms ++ [.checked r req.ip] :=
    sinceInstalled_mark fun h => by cases h
  have htasks : ∀ r', (s.setTask r (.pinChecked req state)).tasks.get? r' =
      if r' = r then some (.pinChecked req state) else (s.setTask r .crashed).tasks.get? r' := by
    intro r'
    change (s.tasks.insert r _).get? r' = if _ then _ else (s.tasks.insert r _).get? r'
    rw [LinkedMap.get?_insert, LinkedMap.get?_insert]
    split <;> rfl
  refine ⟨hmark.installed, hmark.own, hmark.active, hmark.waiting, fun r' a hmem => ?_,
    fun r' req' state' htask => ?_, fun r' req' state' htask => ?_⟩
  · by_cases hr : r' = r
    · subst hr
      refine ⟨_, (htasks r').trans (if_pos rfl), fun req' hreq' => ?_⟩
      cases hreq'
      rw [hsince] at hmem
      rcases List.mem_append.mp hmem with hmem | hmem
      · exact absurd hmem (hfresh a)
      · cases List.mem_singleton.mp hmem
        rfl
    · rw [htasks, if_neg hr]
      exact hmark.known r' a hmem
  · rw [htasks] at htask
    split at htask
    · rename_i hr
      cases htask
      rw [hr, hsince]
      exact List.mem_append_right _ List.mem_cons_self
    · exact hmark.pinChecked r' req' state' htask
  · rw [htasks] at htask
    split at htask
    · cases htask
    · exact hmark.decided r' req' state' htask

/-- Settings of the current state. -/
theorem Justified.settings (h : Justified ms s) {f : WebSendState → WebSendState}
    (hf : ∀ state, (f state).sessions = state.sessions) :
    Justified ms (s.setWebSend (s.webSend.map f)) := by
  cases hstate : s.webSend with
  | none =>
      have hnone : (s.setWebSend none).webSend = none := by
        cases hserver : s.server <;> simp [State.setWebSend, State.webSend, hserver]
      refine ⟨fun state hsome => ?_, fun state _ _ hsome => ?_, fun state _ _ hsome => ?_,
        fun state _ _ _ hsome => ?_, h.known, h.pinChecked, h.decided⟩
      all_goals
        rw [Option.map_none, hnone] at hsome
        cases hsome
  | some current =>
      have hnew : (s.setWebSend (some (f current))).webSend = some (f current) :=
        webSend_setWebSend hstate _
      refine ⟨fun _ _ => h.installed current hstate, fun state k session hsome hk => ?_,
        fun state k session hsome hk => ?_, fun state k session r hsome hk => ?_,
        h.known, h.pinChecked, h.decided⟩
      all_goals
        cases hnew.symm.trans hsome
        rw [hf] at hk
      · exact h.own current k session hstate hk
      · exact h.active current k session hstate hk
      · exact h.waiting current k session r hstate hk

/-- The attempts make no difference. -/
theorem Justified.frame (h : Justified ms s) (hserver : t.server = s.server)
    (htasks : t.tasks = s.tasks) : Justified ms t := by
  have hstate : t.webSend = s.webSend := by
    rw [State.webSend, hserver]
    rfl
  exact ⟨hstate ▸ h.installed, hstate ▸ h.own, hstate ▸ h.active, hstate ▸ h.waiting,
    htasks ▸ h.known, htasks ▸ h.pinChecked, htasks ▸ h.decided⟩

/-- The server has no files to share. -/
theorem Justified.offline (h : Justified ms s) (hnone : t.webSend = none)
    (htasks : t.tasks = s.tasks) : Justified ms t := by
  refine ⟨fun state hsome => ?_, fun state _ _ hsome => ?_, fun state _ _ hsome => ?_,
    fun state _ _ _ hsome => ?_, htasks ▸ h.known, htasks ▸ h.pinChecked, htasks ▸ h.decided⟩
  all_goals
    rw [hnone] at hsome
    cases hsome

theorem ready_idle (h : s.idle = true) (htask : s.tasks.get? r = some task) :
    task.ready = false := by
  have hall := List.all_eq_true.mp h task (LinkedMap.mem_values.mpr ⟨r, htask⟩)
  simpa using hall

/-- **New files**: no session, and no handler about to store one. -/
theorem Justified.installed_idle (hidle : s.idle = true) (htasks : t.tasks = s.tasks)
    (hstate : t.webSend = some current) (hempty : current.sessions = .empty) :
    Justified (ms ++ [.installed]) t := by
  have hnone : ∀ state k session, t.webSend = some state →
      state.sessions.get? k ≠ some session := by
    intro state k session hsome hk
    cases hstate.symm.trans hsome
    rw [hempty] at hk
    cases hk
  refine ⟨fun _ _ => List.mem_append_right _ List.mem_cons_self,
    fun state k session hsome hk => absurd hk (hnone state k session hsome),
    fun state k session hsome hk => absurd hk (hnone state k session hsome),
    fun state k session r hsome hk => absurd hk (hnone state k session hsome),
    fun r a hmem => ?_, fun r req state htask => ?_, fun r req state htask => ?_⟩
  · rw [sinceInstalled_installed] at hmem
    cases hmem
  · rw [htasks] at htask
    cases ready_idle hidle htask
  · rw [htasks] at htask
    cases ready_idle hidle htask

/-! ## 6. Runs -/

theorem download_request (req : DownloadRequest) : (download s req).request = none := by
  unfold download
  repeat' split
  all_goals rfl

theorem justified_prepareDownload (h : Justified ms s) (hnew : r ∉ s.tasks.keys) :
    Justified (ms ++ marks s (.prepareDownload r req)) (prepareDownload info s r req) := by
  unfold prepareDownload
  cases hserver : s.server with
  | none =>
      have hstate : s.webSend = none := by simp [State.webSend, hserver]
      simp only [marks, hstate, List.append_nil]
      exact h.finish rfl
  | some server =>
      obtain ⟨webSendState⟩ := server
      cases webSendState with
      | none =>
          have hstate : s.webSend = none := by simp [State.webSend, hserver]
          simp only [marks, hstate, List.append_nil]
          exact h.finish rfl
      | some state =>
          have hstate : s.webSend = some state := by simp [State.webSend, hserver]
          simp only [marks, hstate]
          cases hactive : state.activeSession req.sessionId req.ip with
          | some session =>
              simp only [Option.isNone_some, Bool.false_and, Bool.false_eq_true, if_false,
                List.append_nil]
              exact h.finish rfl
          | none =>
              cases hpin : checkPin (s.pinAttempts state.pinAttempts) req.ip state.pin req.pin with
              | mk pinAttempts response =>
                  have hattempts : Justified ms { s with
                      server := some ⟨some state⟩
                      pinAttempts :=
                        Function.update s.pinAttempts state.pinAttempts pinAttempts } :=
                    h.frame hserver.symm rfl
                  cases response with
                  | none =>
                      simp only [Option.isNone_none, Bool.and_self, if_true]
                      exact hattempts.checked hnew
                  | some response =>
                      simp only [Option.isNone_none, Option.isNone_some, Bool.and_false,
                        Bool.false_eq_true, if_false, List.append_nil]
                      exact hattempts.finish rfl

theorem justified_pinChecked (h : Justified ms s)
    (htask : s.tasks.get? r = some (.pinChecked req state)) :
    Justified (ms ++ marks s (.pinChecked r)) (store info s r req state) := by
  have hchecked := h.pinChecked r req state htask
  unfold WebSend.store
  simp only [marks, htask]
  cases hstate : s.webSend with
  | none =>
      rw [List.append_nil]
      exact h.finish rfl
  | some current =>
      have hstored := h.store hstate hchecked
      have hnew := webSend_setWebSend hstate (some { current with
        sessions := current.sessions.insert req.ip ⟨req.ip, some r, req.ip, req.deviceInfo⟩ })
      have hchecked' : .checked r req.ip ∈ sinceInstalled (ms ++ [.stored r req.ip]) := by
        rw [sinceInstalled_mark fun h => by cases h]
        exact List.mem_append_left _ hchecked
      dsimp only
      split
      · -- accepted at once
        have haccepted := hstored.mark (m := .accepted r) (fun h => by cases h)
          (fun _ _ h => by cases h) fun _ _ h => by cases h
        have hactivated := @Justified.activate info _ _ r req { current with
            sessions := current.sessions.insert req.ip ⟨req.ip, some r, req.ip, req.deviceInfo⟩ }
          state haccepted
          (by
            rw [sinceInstalled_mark fun h => by cases h]
            exact List.mem_append_left _ hchecked')
          (by
            rw [sinceInstalled_mark fun h => by cases h]
            exact List.mem_append_right _ List.mem_cons_self) hnew
        rw [if_pos (LinkedMap.mem_keys.mpr ⟨_, LinkedMap.get?_insert_self⟩)] at hactivated
        simpa using hactivated
      · refine hstored.setTask (fun a req' hmem hreq' => ?_) (fun _ _ h => by cases h)
          fun _ _ h => by cases h
        cases hreq'
        obtain ⟨task, htask', hip⟩ := hstored.known r a hmem
        cases htask.symm.trans htask'
        exact hip req rfl

theorem justified_respondRequest (h : Justified ms s) (sessionId : String) (accepted : Bool) :
    Justified (ms ++ marks s (.respondRequest sessionId accepted))
      (respondRequest s sessionId accepted) := by
  unfold respondRequest
  cases hhandler : s.handlerOf sessionId with
  | none => cases accepted <;> simpa [marks, hhandler] using h
  | some r =>
      dsimp only
      split
      · rename_i req state htask
        have hknown : ∀ {ms} (_ : Justified ms s) (a : String) (req' : PrepareDownload),
            .checked r a ∈ sinceInstalled ms → some req = some req' → req'.ip = a := by
          intro ms hms a req' hmem heq
          obtain ⟨task, htask', hip⟩ := hms.known r a hmem
          cases htask.symm.trans htask'
          exact hip req' heq
        cases accepted with
        | false =>
            simp only [marks, List.append_nil]
            exact h.setTask (hknown h) (fun _ _ h => by cases h) fun _ _ h => by cases h
        | true =>
            simp only [marks, hhandler, htask]
            have hmark := h.mark (m := .accepted r) (fun h => by cases h)
              (fun _ _ h => by cases h) fun _ _ h => by cases h
            refine hmark.setTask (hknown hmark) (fun _ _ h => by cases h) fun req' state' heq => ?_
            cases heq
            rw [sinceInstalled_mark fun h => by cases h]
            refine ⟨List.mem_append_left _ ?_, List.mem_append_right _ List.mem_cons_self⟩
            -- the session under `sessionId` waits for `r`, which was checked
            obtain ⟨current, hstate, hsession⟩ := Option.bind_eq_some_iff.mp hhandler
            obtain ⟨session, hk, hr⟩ := Option.bind_eq_some_iff.mp hsession
            have hchecked := h.waiting current sessionId session r hstate hk hr
            rw [hknown h sessionId req hchecked rfl]
            exact hchecked
      · rename_i hother
        cases accepted with
        | false => simpa [marks] using h
        | true =>
            have hnone : marks s (.respondRequest sessionId true) = [] := by
              simp only [marks, hhandler]
            rw [hnone, List.append_nil]
            exact h

/-- **One step** keeps the sessions justified. -/
theorem justified_step (h : Justified ms s) (hs : (webSend info).step s e = some t) :
    Justified (ms ++ marks s e) t := by
  change step info s e = some t at hs
  cases e with
  | prepareDownload r req =>
      simp only [step] at hs
      split at hs
      · cases hs
      · rename_i hnew
        cases hs
        exact justified_prepareDownload h hnew
  | pinChecked r =>
      simp only [step] at hs
      split at hs
      · rename_i req state htask
        cases hs
        exact justified_pinChecked h htask
      · cases hs
  | respondRequest sessionId accepted =>
      cases hs
      exact justified_respondRequest h sessionId accepted
  | decided r =>
      simp only [step] at hs
      split at hs
      · rename_i req state htask
        cases hs
        obtain ⟨hchecked, haccepted⟩ := h.decided r req state htask
        cases hstate : s.webSend with
        | none =>
            simp only [marks, htask, hstate, List.append_nil, WebSend.activate]
            exact h.finish rfl
        | some current =>
            simp only [marks, htask, hstate]
            exact h.activate hchecked haccepted hstate
      · rename_i req state htask
        cases hs
        simp only [marks, htask, List.append_nil]
        exact h.reject
      · cases hs
  | download r req =>
      simp only [step] at hs
      split at hs
      · cases hs
      · cases hs
        simp only [marks, List.append_nil]
        exact h.finish (download_request req)
  | setWebSendPin pin =>
      cases hs
      simp only [marks, List.append_nil]
      exact h.settings fun _ => rfl
  | setWebSendAutoAccept autoAccept =>
      cases hs
      simp only [marks, List.append_nil]
      exact h.settings fun _ => rfl
  | initializeWebSend files autoAccept =>
      simp only [step] at hs
      split at hs
      · rename_i hidle
        cases hs
        cases hserver : s.server with
        | none =>
            simp only [marks, hserver, Option.isSome_none, Bool.false_eq_true, if_false,
              List.append_nil]
            exact h.offline (by simp [State.setWebSend, State.webSend]) rfl
        | some server =>
            simp only [marks, hserver, Option.isSome_some, if_true]
            exact Justified.installed_idle hidle rfl
              (by simp [State.setWebSend, State.webSend]; rfl) rfl
      · cases hs
  | started =>
      simp only [step] at hs
      split at hs
      · cases hs
        simp only [marks, List.append_nil]
        exact h.offline rfl rfl
      · cases hs
  | stopped =>
      simp only [step] at hs
      split at hs
      · cases hs
        simp only [marks, List.append_nil]
        exact h.offline rfl rfl
      · cases hs

/-- **The sessions of every run are justified** by what happened to them. -/
theorem justified_run {es : List Event}
    (h : (webSend info).Run Machine.anyStep .initial es s) :
    Justified ((webSend info).trace marks .initial es) s := by
  refine h.shownInvariant (I := Justified) ?_ fun _ _ _ _ ht _ hs => justified_step ht hs
  refine ⟨fun _ hstate => ?_, fun _ _ _ hstate => ?_, fun _ _ _ hstate => ?_,
    fun _ _ _ _ hstate => ?_, fun _ _ hmem => ?_, fun _ _ _ htask => ?_, fun _ _ _ htask => ?_⟩
  all_goals first | cases hstate | cases hmem | cases htask

/-- Only a request that passes its session check gets content. -/
theorem download_passes {req : DownloadRequest} {response : Response}
    (h : download s req = .returned response) (hcontent : ∀ plain, response ≠ .plain plain) :
    s.passes req = true := by
  unfold download at h
  split at h
  · cases h
    exact absurd rfl (hcontent _)
  · split at h
    · cases h
    · split at h
      · cases h
        exact absurd rfl (hcontent _)
      · rename_i hpasses
        simpa using hpasses

/-- **A download is authorised**: where a request passes its session check, then since the current
    files were installed a prepare-download request of its address passed `checkPin`, was accepted
    and took effect, and none was stored after that. -/
theorem download_authorised (info : InfoDto) (es : List Event) (s : State)
    (h : (webSend info).Run Machine.anyStep .initial es s) (req : DownloadRequest)
    (hpasses : s.passes req = true) :
    Authorised ((webSend info).trace marks .initial es) req.ip := by
  have hjustified := justified_run h
  obtain ⟨session, hsession⟩ := Option.isSome_iff_exists.mp hpasses
  obtain ⟨state, hstate, hactive⟩ := Option.bind_eq_some_iff.mp hsession
  obtain ⟨hfound, hguard⟩ := Option.filter_eq_some_iff.mp hactive
  obtain ⟨sessionId, _, hk⟩ := Option.bind_eq_some_iff.mp hfound
  obtain ⟨hnone, hip⟩ := of_decide_eq_true hguard
  have hgranted := hjustified.active state sessionId session hstate hk hnone
  obtain ⟨hlast, before, hsplit⟩ := sinceInstalled_split (hjustified.installed state hstate)
  rw [← hip, hjustified.own state sessionId session hstate hk]
  exact ⟨before, _, hsplit, hlast, hgranted⟩

def demoInfo : InfoDto := ⟨"Potato", some "2.1", none, some .desktop, some "print", some true⟩

def demoRequest (ip : String) (pin : Option String) : PrepareDownload := ⟨ip, none, pin, "browser"⟩

def demoDownload : DownloadRequest := ⟨"10.0.0.2", some "10.0.0.2", some "f"⟩

/-- Two addresses ask; one has a wrong pin first, and asks twice before it is accepted. -/
def shareRun : List Event :=
  [.started, .initializeWebSend .empty false, .setWebSendPin (some "1234"),
    .prepareDownload 0 (demoRequest "10.0.0.2" (some "1")),
    .prepareDownload 1 (demoRequest "10.0.0.2" (some "1234")), .pinChecked 1,
    .prepareDownload 2 (demoRequest "10.0.0.3" (some "1234")), .pinChecked 2,
    .prepareDownload 3 (demoRequest "10.0.0.2" (some "1234")), .pinChecked 3,
    .respondRequest "10.0.0.2" true, .respondRequest "10.0.0.3" false, .decided 3, .decided 2]

theorem download_authorised_shareRun :
    ∃ s, (webSend demoInfo).Run Machine.anyStep .initial shareRun s ∧
      s.passes demoDownload = true ∧ s.passes { demoDownload with ip := "10.0.0.3" } = false ∧
      Authorised ((webSend demoInfo).trace marks .initial shareRun) "10.0.0.2" := by
  have hrun : ((webSend demoInfo).run .initial shareRun).map
      (fun s => (s.passes demoDownload, s.passes { demoDownload with ip := "10.0.0.3" })) =
      some (true, false) := by
    decide
  obtain ⟨s, hs, hend⟩ := Machine.run_observe hrun
  obtain ⟨hpasses, hother⟩ := Prod.mk.inj hend
  exact ⟨s, hs, hpasses, hother, download_authorised demoInfo shareRun s hs demoDownload hpasses⟩

end LocalSend.WebSend
