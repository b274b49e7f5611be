/-
  File:      LocalSend/Server/Cancel.lean
  Subject:   CANCEL REQUESTS (`_cancelHandler` of `receive_controller.dart`) at an app that may be
             receiving and sending at once.

  A request is routed by the receive session: if there is one, it is about that session, and the
  send sessions are not looked at.

  * `ServerState` -- the receive session and the send sessions, these stored under their own ids;
  * `cancelHandler` -- the handler; `Handled` -- the three things it can do with a v2 request;
  * `CancelAuthorised` -- a session only changes for its own peer, which names it;
  * **`cancel_authorised_iff`** -- this holds exactly where no request without a session id meets a
    send session without a remote id;
  * **`cancel_honoured_iff`** -- the receiver of a send session can cancel it exactly while there
    is no receive session.
-/
import LocalSend.Send.Tasks
import LocalSend.Transfer.Network

namespace LocalSend.Cancel

open Lib

open Receive (CancelRequest RequestId Response ReceiveSessionState)
open SendSession (SendSessionState)

/-! ## 1. The handler -/

structure ServerState where
  receive : Receive.State
  send : SendSession.State
  keyed : ∀ k session, send.sessions.get? k = some session → session.sessionId = k

namespace ServerState

def setTask (s : ServerState) (r : RequestId) (task : Receive.Task) : ServerState :=
  { s with receive := s.receive.setTask r task }

def respond (s : ServerState) (r : RequestId) (code : Nat) (text : String) : ServerState :=
  { s with receive := s.receive.respond r code text }

/-- The session keeps its id. -/
theorem keyed_cancelSessionByReceiver (s : ServerState) (k : String) (now : Int) :
    ∀ j session, (SendSession.cancelSessionByReceiver s.send k now).sessions.get? j = some session →
      session.sessionId = j := by
  intro j session hj
  unfold SendSession.cancelSessionByReceiver at hj
  split at hj
  · exact s.keyed j session hj
  · rename_i old hold
    simp only [SendSession.State.setSession, SendSession.cancelRunningRequests,
      LinkedMap.get?_insert] at hj
    split at hj
    · rename_i hjk
      cases hj
      exact hjk ▸ s.keyed k old hold
    · exact s.keyed j session hj

def cancelSessionByReceiver (s : ServerState) (k : String) (now : Int) : ServerState where
  receive := s.receive
  send := SendSession.cancelSessionByReceiver s.send k now
  keyed := s.keyed_cancelSessionByReceiver k now

end ServerState

/-- The send session of a request: in v2 the first one with its session id, in v1 the only one. -/
def selectedSession (sendSessions : LinkedMap String SendSessionState) (req : CancelRequest) :
    Option SendSessionState :=
  if req.v2 then sendSessions.values.find? fun s => s.remoteSessionId = req.sessionId
  else
    match sendSessions.values with
    | [onlySession] => some onlySession
    | _ => none

/-- `_cancelHandler`. -/
def cancelHandler (s : ServerState) (r : RequestId) (req : CancelRequest) (now : Int) :
    ServerState :=
  match s.receive.session with
  | some _ => { s with receive := Receive.cancelHandler s.receive r req now }
  | none =>
    match selectedSession s.send.sessions req with
    | none => s.respond r 403 "No permission"
    | some sendState =>
      if sendState.target.ip ≠ some req.ip then s.respond r 403 "No permission"
      else if sendState.status ≠ .sending then s.respond r 403 "No permission"
      else (s.cancelSessionByReceiver sendState.sessionId now).setTask r (.returned (.empty 200))

/-- A request on the route of v2. -/
def v2Request (ip : String) (sessionId : Option String) : CancelRequest := ⟨ip, true, sessionId⟩

/-! ## 2. What it does -/

section Handler

variable {s t : ServerState} {r : RequestId} {ip k : String} {sessionId : Option String}
  {now : Int} {session : SendSessionState}

/-- **What becomes of a v2 request.** -/
inductive Handled (s : ServerState) (r : RequestId) (ip : String) (sessionId : Option String)
    (now : Int) : ServerState → Prop where
  | refused : Handled s r ip sessionId now (s.respond r 403 "No permission")
  | receive (session : ReceiveSessionState) (hs : s.receive.session = some session)
      (hip : session.sender.ip = some ip)
      (hid : session.status = .waiting ∨
        sessionId = some session.sessionId ∧ session.status = .sending) :
      Handled s r ip sessionId now { s with
        receive := { s.receive with session := some (session.cancelBySender now) }.setTask r
          (.returned (.empty 200)) }
  | send (session : SendSessionState) (hnone : s.receive.session = none)
      (hsel : selectedSession s.send.sessions (v2Request ip sessionId) = some session)
      (hip : session.target.ip = some ip) (hstatus : session.status = .sending) :
      Handled s r ip sessionId now
        ((s.cancelSessionByReceiver session.sessionId now).setTask r (.returned (.empty 200)))

theorem selectedSession_v2 (sendSessions : LinkedMap String SendSessionState) :
    selectedSession sendSessions (v2Request ip sessionId) =
      sendSessions.values.find? fun s => s.remoteSessionId = sessionId := rfl

/-- A selected session is stored under its id, and has the remote id of the request. -/
theorem selectedSession_some
    (h : selectedSession s.send.sessions (v2Request ip sessionId) = some session) :
    s.send.sessions.get? session.sessionId = some session ∧
      session.remoteSessionId = sessionId := by
  rw [selectedSession_v2] at h
  obtain ⟨k, hk⟩ := LinkedMap.mem_values.mp (List.mem_of_find?_eq_some h)
  refine ⟨?_, by simpa using List.find?_some h⟩
  rw [s.keyed k session hk]
  exact hk

/-- **The selected session**, for a request from its target. -/
theorem cancelHandler_send (hnone : s.receive.session = none)
    (hsel : selectedSession s.send.sessions (v2Request ip sessionId) = some session)
    (hip : session.target.ip = some ip) (hstatus : session.status = .sending) :
    cancelHandler s r (v2Request ip sessionId) now =
      (s.cancelSessionByReceiver session.sessionId now).setTask r (.returned (.empty 200)) := by
  have hip' : session.target.ip = some (v2Request ip sessionId).ip := hip
  simp only [cancelHandler, hnone, hsel]
  rw [if_neg (not_not.mpr hip'), if_neg (not_not.mpr hstatus)]

theorem handled (s : ServerState) (r : RequestId) (ip : String) (sessionId : Option String)
    (now : Int) :
    Handled s r ip sessionId now (cancelHandler s r (v2Request ip sessionId) now) := by
  unfold cancelHandler
  split
  · rename_i receiveSession hs
    simp only [Receive.cancelHandler, hs, v2Request, Bool.not_true, Bool.false_and,
      Bool.false_eq_true, if_false, Bool.true_and]
    split
    · exact .refused
    · rename_i hip
      split
      · exact .refused
      · rename_i hid
        split
        · exact .refused
        · rename_i hstatus
          refine .receive receiveSession hs (not_not.mp hip) ?_
          simp only [Bool.and_eq_true, decide_eq_true_eq, not_and, not_not] at hid hstatus
          by_cases hw : receiveSession.status = .waiting
          · exact Or.inl hw
          · refine Or.inr ⟨?_, hstatus hw⟩
            by_contra hne
            exact hid hw (decide_eq_true hne)
  · rename_i hnone
    split
    · exact .refused
    · rename_i sendState hsel
      split
      · exact .refused
      · rename_i hip
        split
        · exact .refused
        · rename_i hstatus
          exact .send sendState hnone hsel (not_not.mp hip) (not_not.mp hstatus)

/-- The handler is `Transfer.hears` where the transfer is the only send session. -/
theorem cancelHandler_hears {c : Transfer.Ends} (hv2 : c.answersV2 = true)
    (hnone : s.receive.session = none) (honly : s.send.sessions.entries = [(c.sessionId, session)]) :
    (cancelHandler s r (v2Request c.receiverIp sessionId) now).send =
      if Transfer.hears c sessionId session then
        SendSession.cancelSessionByReceiver s.send c.sessionId now
      else s.send := by
  have hvalues : s.send.sessions.values = [session] := by simp [LinkedMap.values, honly]
  have hkey : session.sessionId = c.sessionId :=
    s.keyed c.sessionId session (LinkedMap.get?_of_mem (by simp [honly]))
  by_cases hid : session.remoteSessionId = sessionId
  · have hsel : selectedSession s.send.sessions (v2Request c.receiverIp sessionId) =
        some session := by
      simp [selectedSession_v2, hvalues, hid]
    by_cases hip : session.target.ip = some c.receiverIp
    · by_cases hstatus : session.status = .sending
      · rw [cancelHandler_send hnone hsel hip hstatus, if_pos (by simp [Transfer.hears, *]), hkey]
        rfl
      · rw [if_neg (by simp [Transfer.hears, hstatus]), cancelHandler, hnone]
        simp only [hsel, if_pos hstatus, ite_self]
        rfl
    · have hip' : session.target.ip ≠ some (v2Request c.receiverIp sessionId).ip := hip
      rw [if_neg (by simp [Transfer.hears, hip]), cancelHandler, hnone]
      simp only [hsel, if_pos hip']
      rfl
  · have hsel : selectedSession s.send.sessions (v2Request c.receiverIp sessionId) = none := by
      simp [selectedSession_v2, hvalues, hid]
    rw [if_neg (by simp [Transfer.hears, hv2, hid]), cancelHandler, hnone]
    simp only [hsel]
    rfl

end Handler

/-! ## 3. Reached states -/

section Reached

open SendSession

variable {n : TaskId} {k : String} {v w : View} {e : SendSession.Event} {s : SendSession.State}

/-- A session keeps its id. -/
theorem keyed_turn (h : Turn n k v e w)
    (hv : ∀ x, v.session = some x → x.sessionId = k) :
    ∀ x, w.session = some x → x.sessionId = k := by
  have hfinish : ∀ (x y : SendSessionState) now, x.finish now = some y →
      y.sessionId = x.sessionId := by
    intro x y now hy
    unfold SendSessionState.finish at hy
    split at hy
    · cases hy
      rfl
    · split at hy
      · cases hy
      · cases hy
        rfl
  cases h with
  | other => exact hv
  | created target files background preview ids x hx =>
      intro y hy
      cases hy
      rw [hx]
      rfl
  | passed => exact hv
  | refused | sent | retried | canceled | background =>
      have hx := hv _ rfl
      intro y hy
      cases hy
      exact hx
  | empty | closed =>
      intro y hy
      cases hy
  | opened reply now x y ups submission remoteSessionId fileMap hy =>
      intro z hz
      cases hz
      rw [hy]
      exact hv x rfl
  | left | skipped => exact hv
  | uploaded id error now x flow ups u =>
      intro y hy
      obtain ⟨x', hx', hy⟩ := Option.bind_eq_some_iff.mp hy
      unfold SendSessionState.afterUpload at hy
      dsimp only at hy
      split at hy
      · exact (hfinish _ y now hy).trans (hv x' hx')
      · cases hy
        exact hv x' hx'
  | ended now x =>
      intro y hy
      obtain ⟨x', hx', hy⟩ := Option.bind_eq_some_iff.mp hy
      exact (hfinish x' y now hy).trans (hv x' hx')

/-- **The send sessions of every run are stored under their ids.** -/
theorem keyed_run {es : List SendSession.Event} (h : service.Run Machine.anyStep .initial es s) :
    ∀ k session, s.sessions.get? k = some session → session.sessionId = k := by
  have hI : Known s ∧ ∀ k x, (s.view k).session = some x → x.sessionId = k := by
    refine h.invariant (I := fun s => Known s ∧ ∀ k x, (s.view k).session = some x →
      x.sessionId = k) ⟨known_initial, fun k x hx => by cases hx⟩ fun s e t hs _ hstep => ?_
    exact ⟨known_step hs.1 hstep, fun k => keyed_turn (step_turn hs.1 hstep k) (hs.2 k)⟩
  exact hI.2

end Reached

/-! ## 4. Who may cancel -/

section Authorised

variable {s t : ServerState} {r : RequestId} {ip : String} {sessionId : Option String} {now : Int}

/-- **A session only changes for its own peer, which names it**; else nothing changes and the
    answer is 403. -/
structure CancelAuthorised (s : ServerState) (r : RequestId) (ip : String)
    (sessionId : Option String) (t : ServerState) : Prop where
  send : ∀ k, t.send.sessions.get? k ≠ s.send.sessions.get? k → ∃ session remoteSessionId,
    s.send.sessions.get? k = some session ∧ session.target.ip = some ip ∧
      session.remoteSessionId = some remoteSessionId ∧ sessionId = some remoteSessionId
  receive : t.receive.session ≠ s.receive.session → ∃ session,
    s.receive.session = some session ∧ session.sender.ip = some ip ∧
      (session.status = .waiting ∨ sessionId = some session.sessionId)
  otherwise : t.send.sessions = s.send.sessions → t.receive.session = s.receive.session →
    t = s.respond r 403 "No permission"

/-- **A request without a session id meets a session without a remote id**: there is no receive
    session, and the first such send session is sending to the address of the request. -/
def Unidentified (s : ServerState) (ip : String) (sessionId : Option String) : Prop :=
  s.receive.session = none ∧ sessionId = none ∧ ∃ session,
    (s.send.sessions.values.find? fun x => x.remoteSessionId = none) = some session ∧
      session.target.ip = some ip ∧ session.status = .sending

/-- What becomes of the sessions. -/
theorem sessions_cancelSessionByReceiver {k : String} {session : SendSessionState}
    (hk : s.send.sessions.get? k = some session) :
    (s.cancelSessionByReceiver k now).send.sessions =
      s.send.sessions.insert k { session with status := .canceledByReceiver, endTime := some now } := by
  simp only [ServerState.cancelSessionByReceiver, SendSession.cancelSessionByReceiver, hk]
  rfl

/-- **Cancel authorisation**, exactly where the request is no `Unidentified` one. -/
theorem cancel_authorised_iff (s : ServerState) (r : RequestId) (ip : String)
    (sessionId : Option String) (now : Int) :
    CancelAuthorised s r ip sessionId (cancelHandler s r (v2Request ip sessionId) now) ↔
      ¬ Unidentified s ip sessionId := by
  constructor
  · rintro h ⟨hnone, rfl, session, hfind, hip, hstatus⟩
    have hsel : selectedSession s.send.sessions (v2Request ip none) = some session := hfind
    obtain ⟨hk, hid⟩ := selectedSession_some hsel
    rw [cancelHandler_send hnone hfind hip hstatus] at h
    have hnew : ((s.cancelSessionByReceiver session.sessionId now).setTask r
        (.returned (.empty 200))).send.sessions.get? session.sessionId =
          some { session with status := .canceledByReceiver, endTime := some now } := by
      change (s.cancelSessionByReceiver session.sessionId now).send.sessions.get? _ = _
      rw [sessions_cancelSessionByReceiver hk, LinkedMap.get?_insert_self]
    obtain ⟨_, remoteSessionId, _, _, _, hsome⟩ := h.send session.sessionId (by
      rw [hnew, hk]
      intro heq
      have hstatus' := congrArg SendSessionState.status (Option.some.inj heq)
      rw [hstatus] at hstatus'
      cases hstatus')
    cases hsome
  · intro hnamed
    have h := handled s r ip sessionId now
    generalize cancelHandler s r (v2Request ip sessionId) now = t at h ⊢
    cases h with
    | refused => exact ⟨fun _ h => absurd rfl h, fun h => absurd rfl h, fun _ _ => rfl⟩
    | receive session hs hip hid =>
        refine ⟨fun _ h => absurd rfl h, fun _ => ⟨session, hs, hip, hid.imp_right And.left⟩, ?_⟩
        intro _ hsame
        have hcancelled : some (session.cancelBySender now) = s.receive.session := hsame
        rw [hs] at hcancelled
        have hstatus := congrArg ReceiveSessionState.status (Option.some.inj hcancelled)
        rcases hid with hw | ⟨_, hw⟩ <;>
          · rw [hw] at hstatus
            cases hstatus
    | send session hnone hsel hip hstatus =>
        obtain ⟨hk, hid⟩ := selectedSession_some hsel
        have hsessions : ((s.cancelSessionByReceiver session.sessionId now).setTask r
            (.returned (.empty 200))).send.sessions = s.send.sessions.insert session.sessionId
              { session with status := .canceledByReceiver, endTime := some now } :=
          sessions_cancelSessionByReceiver hk
        refine ⟨fun j hj => ?_, fun h => absurd rfl h, fun hsame _ => ?_⟩
        · rw [hsessions, LinkedMap.get?_insert] at hj
          split at hj
          · rename_i hjk
            rw [hjk]
            cases hsome : sessionId with
            | none =>
                subst hsome
                exact absurd ⟨hnone, rfl, session, hsel, hip, hstatus⟩ hnamed
            | some remoteSessionId =>
                exact ⟨session, remoteSessionId, hk, hip, hid.trans hsome, rfl⟩
          · exact absurd rfl hj
        · have hget := congrArg (LinkedMap.get? · session.sessionId) hsame
          rw [hsessions, LinkedMap.get?_insert_self, hk] at hget
          have hstatus' := congrArg SendSessionState.status (Option.some.inj hget)
          rw [hstatus] at hstatus'
          cases hstatus'

/-! ## 5. Who can cancel -/

/-- **The session is cancelled, and its running tasks**, each by an action with an id of its own;
    nothing else changes. -/
structure CancelHonoured (s : ServerState) (r : RequestId) (session : SendSessionState) (now : Int)
    (t : ServerState) : Prop where
  send : t.send = { s.send with
    sessions := s.send.sessions.insert session.sessionId
      { session with status := .canceledByReceiver, endTime := some now }
    cancelled := session.sendingTasks ++ s.send.cancelled
    nextId := s.send.nextId + session.sendingTasks.length }
  receive : t.receive = s.receive.setTask r (.returned (.empty 200))

/-- The remote ids of distinct send sessions are distinct. -/
def DistinctRemotes (s : ServerState) : Prop :=
  ∀ k k' x x' remoteSessionId, s.send.sessions.get? k = some x →
    s.send.sessions.get? k' = some x' → x.remoteSessionId = some remoteSessionId →
    x'.remoteSessionId = some remoteSessionId → k = k'

/-- The session with the remote id of the request is the one that is selected. -/
theorem selectedSession_of_remote (hdistinct : DistinctRemotes s) {k remoteSessionId : String}
    {session : SendSessionState} (hk : s.send.sessions.get? k = some session)
    (hremote : session.remoteSessionId = some remoteSessionId) :
    selectedSession s.send.sessions (v2Request ip (some remoteSessionId)) = some session := by
  cases hsel : selectedSession s.send.sessions (v2Request ip (some remoteSessionId)) with
  | none =>
      rw [selectedSession_v2, List.find?_eq_none] at hsel
      exact absurd (decide_eq_true hremote) (hsel session (LinkedMap.mem_values.mpr ⟨k, hk⟩))
  | some x =>
      obtain ⟨hx, hid⟩ := selectedSession_some hsel
      have hkeys := hdistinct k x.sessionId session x remoteSessionId hk hx hremote hid
      rw [hkeys, hx] at hk
      exact hk

/-- **A legitimate cancel is honoured** exactly while there is no receive session. -/
theorem cancel_honoured_iff (s : ServerState) (hdistinct : DistinctRemotes s) (r : RequestId)
    (ip k remoteSessionId : String) (now : Int) (session : SendSessionState)
    (hk : s.send.sessions.get? k = some session) (hstatus : session.status = .sending)
    (hremote : session.remoteSessionId = some remoteSessionId)
    (hip : session.target.ip = some ip) :
    CancelHonoured s r session now
        (cancelHandler s r (v2Request ip (some remoteSessionId)) now) ↔
      s.receive.session = none := by
  have hkey : s.send.sessions.get? session.sessionId = some session := by
    rw [s.keyed k session hk]
    exact hk
  constructor
  · intro h
    by_contra hsome
    obtain ⟨receiveSession, hs⟩ := Option.ne_none_iff_exists'.mp hsome
    have hget := congrArg (fun send => send.sessions.get? session.sessionId) h.send
    simp only [cancelHandler, hs, hkey, LinkedMap.get?_insert_self] at hget
    have hstatus' := congrArg SendSessionState.status (Option.some.inj hget)
    rw [hstatus] at hstatus'
    cases hstatus'
  · intro hnone
    rw [cancelHandler_send hnone (selectedSession_of_remote hdistinct hk hremote) hip hstatus]
    refine ⟨?_, rfl⟩
    simp only [ServerState.setTask, ServerState.cancelSessionByReceiver,
      SendSession.cancelSessionByReceiver, hkey]
    rfl

end Authorised

/-! ## 6. Two requests -/

/-- A device at the other end. -/
def otherDevice (ip version : String) : Device where
  signalingId := none
  ip := some ip
  version := version
  port := 53317
  https := true
  fingerprint := "fingerprint"
  aliasName := "other"
  deviceModel := none
  deviceType := .mobile
  download := false
  discoveryMethods := []

/-- A session that is sending, with one task running. -/
def sendingSession (version : String) (remoteSessionId : Option String) : SendSessionState where
  sessionId := "send"
  remoteSessionId := remoteSessionId
  background := true
  status := .sending
  target := otherDevice "192.168.1.7" version
  files := .empty
  startTime := some 0
  endTime := none
  sendingTasks := [⟨0, 0⟩]
  errorMessage := none

/-- A session of another sender, whose files are all here. -/
def receivedSession : ReceiveSessionState where
  sessionId := "receive"
  status := .finished
  sender := otherDevice "192.168.1.9" "2.1"
  senderAlias := "other"
  files := .empty
  startTime := some 0
  endTime := some 1
  destinationDirectory := "/downloads"
  cacheDirectory := "/cache"
  saveToGallery := false
  responseHandler := none

/-- The app while it has one send session. -/
def oneSending (receiveSession : Option ReceiveSessionState) (session : SendSessionState) :
    ServerState where
  receive := { Receive.State.initial with session := receiveSession }
  send := { SendSession.State.initial with
    sessions := LinkedMap.empty.insert session.sessionId session }
  keyed := by
    intro k x hx
    rw [LinkedMap.get?_insert] at hx
    split at hx
    · rename_i hk
      cases hx
      exact hk.symm
    · cases hx

theorem distinct_oneSending (receiveSession : Option ReceiveSessionState)
    (session : SendSessionState) : DistinctRemotes (oneSending receiveSession session) := by
  have hall : ∀ k x, (oneSending receiveSession session).send.sessions.get? k = some x →
      k = session.sessionId := by
    intro k x hx
    change (LinkedMap.empty.insert session.sessionId session).get? k = some x at hx
    rw [LinkedMap.get?_insert] at hx
    split at hx
    · assumption
    · cases hx
  exact fun k k' x x' _ hk hk' _ _ => (hall k x hk).trans (hall k' x' hk').symm

/-- **A request without a session id cancels the session with a v1 device.** -/
theorem unidentified_cancel :
    ¬ CancelAuthorised (oneSending none (sendingSession "1.0" none)) 0 "192.168.1.7" none
      (cancelHandler (oneSending none (sendingSession "1.0" none)) 0
        (v2Request "192.168.1.7" none) 1) := by
  intro h
  obtain ⟨_, _, _, _, _, hsome⟩ := h.send "send" (by
    intro hsame
    exact absurd (congrArg (Option.map SendSessionState.status) hsame) (by decide))
  cases hsome

/-- **The receiver cannot cancel**, because a finished receive session is still there. -/
theorem cancel_refused :
    let s := oneSending (some receivedSession) (sendingSession "2.1" (some "remote"))
    let t := cancelHandler s 0 (v2Request "192.168.1.7" (some "remote")) 1
    t = s.respond 0 403 "No permission" ∧
      ¬ CancelHonoured s 0 (sendingSession "2.1" (some "remote")) 1 t := by
  refine ⟨rfl, fun h => ?_⟩
  have hget := congrArg (fun send => (send.sessions.get? "send").map SendSessionState.status) h.send
  exact absurd hget (by decide)

/-- Without it the session and its task are cancelled. -/
theorem cancel_honoured_iff_oneSending :
    CancelHonoured (oneSending none (sendingSession "2.1" (some "remote"))) 0
      (sendingSession "2.1" (some "remote")) 1
      (cancelHandler (oneSending none (sendingSession "2.1" (some "remote"))) 0
        (v2Request "192.168.1.7" (some "remote")) 1) :=
  (cancel_honoured_iff _ (distinct_oneSending none _) 0 "192.168.1.7" "send" "remote" 1
    (sendingSession "2.1" (some "remote")) rfl rfl rfl rfl).mpr rfl

end LocalSend.Cancel
