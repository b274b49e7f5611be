/-
  File:      LocalSend/Send/Sessions.lean
  Subject:   WHAT A STEP DOES TO ONE SESSION. The service runs many sessions over one state; each
             of them sees its own record, its own `startSession` call and its own uploads.

  * `View` -- what belongs to one session; `State.view`;
  * `Turn` -- everything a step can do to a view, with the event that does it;
  * `Known` -- ids that were never given out have no view; `known_step`;
  * `step_turn` -- **every step is a turn of every session** (most of them do nothing).
-/
import LocalSend.Send.Service

namespace LocalSend.SendSession

open Lib

/-! ## 1. Views -/

/-- What belongs to one session. -/
structure View where
  session : Option SendSessionState
  flow : Option Flow
  uploads : TaskId → Option Upload

/-- Nothing belongs to an id that was never given out. -/
def View.blank : View := ⟨none, none, fun _ => none⟩

/-- The uploads in flight of a session. -/
def uploadsOf (uploads : LinkedMap TaskId Upload) (k : String) (id : TaskId) : Option Upload :=
  (uploads.get? id).filter fun u => u.sessionId = k

def State.view (s : State) (k : String) : View :=
  ⟨s.sessions.get? k, s.flows.get? k, uploadsOf s.uploads k⟩

theorem uploadsOf_eq_some {uploads : LinkedMap TaskId Upload} {k : String} {id : TaskId}
    {u : Upload} : uploadsOf uploads k id = some u ↔ uploads.get? id = some u ∧ u.sessionId = k := by
  rw [uploadsOf, Option.filter_eq_some_iff]
  simp only [decide_eq_true_eq]

/-- Before the answer of the receiver. -/
def Flow.isHandshake : Flow → Bool
  | .submitting _ | .asking => true
  | _ => false

/-- After `startUpload`. -/
def Flow.isBegun : Flow → Bool
  | .sending _ _ | .finished => true
  | _ => false

/-- The files the workers have not taken yet. -/
def Flow.queue : Flow → List SendingFile
  | .sending queue _ => queue
  | _ => []

/-! ## 2. Turns -/

namespace SendSessionState

variable (x : SendSessionState)

/-- `_finish`, on the record of the session (`none`: it is closed). -/
def finish (now : Int) : Option SendSessionState :=
  if x.status ≠ .sending then some x
  else if !x.hasError && x.background then none
  else some { x with
    status := if x.hasError then .finishedWithErrors else .finished
    endTime := some now }

/-- The record once `startUpload` has the tokens. -/
def opened (remoteSessionId : Option String) (fileMap : LinkedMap String String) (now : Int) :
    SendSessionState :=
  { x with
    remoteSessionId := remoteSessionId
    status := .sending
    files := .ofList (x.files.values.map fun file => (file.file.id, file.answered fileMap))
    startTime := some now }

/-- The record after an upload: the last one of a retry may end the session. -/
def afterUpload (u : Upload) (id : TaskId) (error : Option String) (now : Int) :
    Option SendSessionState :=
  let y := x.uploaded u.action.fileId (u.task id) error
  if u.isRetry && y.isFinishedOrError then y.finish now else some y

end SendSessionState

/-- The flow after an upload: the worker that waited for it goes on. -/
def Flow.afterUpload (u : Upload) : Flow → Flow
  | .sending queue workers =>
    if u.isRetry then .sending queue workers
    else .sending queue (workers.set u.action.isolateIndex .next)
  | flow => flow

/-- Whether `sendFile` sends: the file has a token and the session is in an allowed state. -/
def sends (session : Option SendSessionState) (file : SendingFile) : Bool :=
  file.token.isSome && session.any fun x => allowedStates x.status

/-- The statuses a failed handshake leaves. -/
def isRefusal : SessionStatus → Bool
  | .declined | .recipientBusy | .tooManyAttempts | .finishedWithErrors | .canceledBySender => true
  | _ => false

/-- **What a step can do to the view of a session**; `n` is the next task id, `k` the session. -/
inductive Turn (n : TaskId) (k : String) : View → Event → View → Prop where
  | other (v : View) (e : Event) : Turn n k v e v
  /-- `startSession` -/
  | created (target : Device) (files : List CrossFile) (background : Bool)
      (preview : Option String) (ids : List String) (x : SendSessionState)
      (hx : x = newSession k target files background preview ids) (hids : ids.Nodup) :
      Turn n k .blank (.startSession k target files background ids) ⟨some x, some (.submitting (x.submission none)), fun _ => none⟩
  /-- the pin is asked for or entered, or the flow ends without a change of the session -/
  | passed (e : Event) (x : Option SendSessionState) (ups : TaskId → Option Upload)
      (flow flow' : Flow) (h : flow.isHandshake = true) (h' : flow'.isBegun = false) :
      Turn n k ⟨x, some flow, ups⟩ e ⟨x, some flow', ups⟩
  /-- the handshake failed -/
  | refused (e : Event) (x : SendSessionState) (ups : TaskId → Option Upload) (flow : Flow)
      (status : SessionStatus) (message : Option String) (h : flow.isHandshake = true)
      (hstatus : isRefusal status = true) :
      Turn n k ⟨some x, some flow, ups⟩ e
        ⟨some { x with status := status, errorMessage := message }, some .stopped, ups⟩
  /-- the receiver has nothing selected -/
  | empty (e : Event) (x : SendSessionState) (ups : TaskId → Option Upload) (flow : Flow)
      (h : flow.isHandshake = true) :
      Turn n k ⟨some x, some flow, ups⟩ e ⟨none, some .stopped, ups⟩
  /-- `startUpload` -/
  | opened (reply : Reply) (now : Int) (x y : SendSessionState) (ups : TaskId → Option Upload)
      (submission : Submission) (remoteSessionId : Option String)
      (fileMap : LinkedMap String String) (hy : y = x.opened remoteSessionId fileMap now) :
      Turn n k ⟨some x, some (.submitting submission), ups⟩ (.submitted k reply now)
        ⟨some y, some (.sending y.files.values (List.replicate uploadIsolateCount .next)), ups⟩
  /-- a worker finds the queue empty -/
  | left (index : Nat) (x : Option SendSessionState) (ups : TaskId → Option Upload)
      (workers : List Worker) (h : workers[index]? = some .next) :
      Turn n k ⟨x, some (.sending [] workers), ups⟩ (.work k index)
        ⟨x, some (.sending [] (workers.set index .done)), ups⟩
  /-- a worker takes a file that is not sent -/
  | skipped (index : Nat) (x : Option SendSessionState) (ups : TaskId → Option Upload)
      (file : SendingFile) (queue : List SendingFile) (workers : List Worker)
      (h : workers[index]? = some .next) (hsends : sends x file = false) :
      Turn n k ⟨x, some (.sending (file :: queue) workers), ups⟩ (.work k index)
        ⟨x, some (.sending queue workers), ups⟩
  /-- a worker sends the next file -/
  | sent (index : Nat) (x : SendSessionState) (ups : TaskId → Option Upload)
      (file : SendingFile) (queue : List SendingFile) (workers : List Worker) (token : String)
      (h : workers[index]? = some .next) (hallowed : allowedStates x.status = true)
      (htoken : file.token = some token) :
      Turn n k ⟨some x, some (.sending (file :: queue) workers), ups⟩ (.work k index)
        ⟨some (x.dispatched false file.file.id ⟨index, n⟩),
          some (.sending queue (workers.set index (.uploading n))),
          Function.update ups n (some ⟨k, false, x.uploadAction index file token⟩)⟩
  /-- the user sends a failed file again -/
  | retried (x : SendSessionState) (flow : Option Flow) (ups : TaskId → Option Upload)
      (file : SendingFile) (token : String) (hallowed : allowedStates x.status = true)
      (htoken : file.token = some token) (hfile : x.files.get? file.file.id = some file)
      (hfailed : file.status = .failed) :
      Turn n k ⟨some x, flow, ups⟩ (.retry k file)
        ⟨some (x.dispatched true file.file.id ⟨0, n⟩), flow,
          Function.update ups n (some ⟨k, true, x.uploadAction 0 file token⟩)⟩
  /-- an upload is over -/
  | uploaded (id : TaskId) (error : Option String) (now : Int) (x : Option SendSessionState)
      (flow : Option Flow) (ups : TaskId → Option Upload) (u : Upload) (hu : ups id = some u) :
      Turn n k ⟨x, flow, ups⟩ (.uploadEnded id error now)
        ⟨x.bind fun x => x.afterUpload u id error now, flow.map (Flow.afterUpload u),
          Function.update ups id none⟩
  /-- all workers are done -/
  | ended (now : Int) (x : Option SendSessionState) (ups : TaskId → Option Upload)
      (queue : List SendingFile) (workers : List Worker) (h : workers.all (· = .done) = true) :
      Turn n k ⟨x, some (.sending queue workers), ups⟩ (.loopEnded k now)
        ⟨x.bind fun x => x.finish now, some .finished, ups⟩
  /-- the session is closed -/
  | closed (e : Event) (x : Option SendSessionState) (flow : Option Flow)
      (ups : TaskId → Option Upload) (he : e = .closeSession k ∨ e = .cancelSession k ∨
        e = .clearAllSessions) : Turn n k ⟨x, flow, ups⟩ e ⟨none, flow, ups⟩
  | canceled (now : Int) (x : SendSessionState) (flow : Option Flow)
      (ups : TaskId → Option Upload) (hstatus : x.status = .sending) :
      Turn n k ⟨some x, flow, ups⟩ (.cancelSessionByReceiver k now)
        ⟨some { x with status := .canceledByReceiver, endTime := some now }, flow, ups⟩
  | background (background : Bool) (x : SendSessionState) (flow : Option Flow)
      (ups : TaskId → Option Upload) :
      Turn n k ⟨some x, flow, ups⟩ (.setBackground k background)
        ⟨some { x with background := background }, flow, ups⟩

/-! ## 3. Every step is a turn of every session -/

section Step

variable {s t : State} {k j : String} {e : Event}

@[simp] theorem view_setFlow_self (flow : Flow) :
    (s.setFlow k flow).view k = { s.view k with flow := some flow } := by
  simp [State.view, State.setFlow, LinkedMap.get?_insert_self]

theorem view_setFlow_ne (flow : Flow) (h : j ≠ k) : (s.setFlow k flow).view j = s.view j := by
  simp [State.view, State.setFlow, LinkedMap.get?_insert_ne h]

@[simp] theorem view_setSession_self (x : SendSessionState) :
    (s.setSession k x).view k = { s.view k with session := some x } := by
  simp [State.view, State.setSession, LinkedMap.get?_insert_self]

theorem view_setSession_ne (x : SendSessionState) (h : j ≠ k) :
    (s.setSession k x).view j = s.view j := by
  simp [State.view, State.setSession, LinkedMap.get?_insert_ne h]

@[simp] theorem view_closeSession_self :
    (s.closeSession k).view k = { s.view k with session := none } := by
  simp [State.view, State.closeSession, LinkedMap.get?_erase]

theorem view_closeSession_ne (h : j ≠ k) : (s.closeSession k).view j = s.view j := by
  simp [State.view, State.closeSession, LinkedMap.get?_erase, h]

@[simp] theorem view_updateSession_self (f : SendSessionState → SendSessionState) :
    (s.updateSession k f).view k = { s.view k with session := (s.view k).session.map f } := by
  unfold State.updateSession
  cases h : s.sessions.get? k with
  | none => simp [State.view, h]
  | some x => simp [State.view, State.setSession, LinkedMap.get?_insert_self, h]

theorem view_updateSession_ne (f : SendSessionState → SendSessionState) (h : j ≠ k) :
    (s.updateSession k f).view j = s.view j := by
  unfold State.updateSession
  split
  · rfl
  · exact view_setSession_ne _ h

theorem uploadsOf_insert (uploads : LinkedMap TaskId Upload) (n : TaskId) (u : Upload) :
    uploadsOf (uploads.insert n u) u.sessionId =
      Function.update (uploadsOf uploads u.sessionId) n (some u) := by
  funext id
  by_cases h : id = n
  · subst h
    simp [uploadsOf, LinkedMap.get?_insert_self]
  · simp [uploadsOf, LinkedMap.get?_insert_ne h, h]

theorem uploadsOf_insert_ne (uploads : LinkedMap TaskId Upload) {n : TaskId} {u : Upload}
    (hn : uploads.get? n = none) (h : k ≠ u.sessionId) :
    uploadsOf (uploads.insert n u) k = uploadsOf uploads k := by
  funext id
  by_cases hid : id = n
  · subst hid
    simp [uploadsOf, LinkedMap.get?_insert_self, hn, h.symm]
  · simp [uploadsOf, LinkedMap.get?_insert_ne hid]

theorem uploadsOf_erase (uploads : LinkedMap TaskId Upload) (n : TaskId) (k : String) :
    uploadsOf (uploads.erase n) k = Function.update (uploadsOf uploads k) n none := by
  funext id
  by_cases h : id = n
  · subst h
    simp [uploadsOf, LinkedMap.get?_erase]
  · simp [uploadsOf, LinkedMap.get?_erase, h]

theorem uploadsOf_erase_ne (uploads : LinkedMap TaskId Upload) {n : TaskId} {u : Upload}
    (hn : uploads.get? n = some u) (h : k ≠ u.sessionId) :
    uploadsOf (uploads.erase n) k = uploadsOf uploads k := by
  rw [uploadsOf_erase]
  refine Function.update_eq_self_iff.mpr ?_
  rw [uploadsOf, hn, Option.filter_some]
  simp [h.symm]

/-- `_finish` on the view of its session. -/
theorem view_finish_self (now : Int) : (finish s k now).view k =
    { s.view k with session := (s.view k).session.bind fun x => x.finish now } := by
  unfold finish SendSessionState.finish
  cases h : s.sessions.get? k with
  | none => simp [State.view, h]
  | some x =>
      simp only
      split
      · simp_all [State.view]
      · split
        · simp_all [State.view, State.closeSession, LinkedMap.get?_erase]
        · simp_all [State.view, State.setSession, LinkedMap.get?_insert_self]

theorem view_finish_ne (now : Int) (h : j ≠ k) : (finish s k now).view j = s.view j := by
  unfold finish
  split
  · rfl
  · split
    · rfl
    · split
      · exact view_closeSession_ne h
      · exact view_setSession_ne _ h

/-- `sendFile` sends, or does nothing. -/
theorem sendFile_cases (s : State) (k : String) (index : Nat) (file : SendingFile)
    (isRetry : Bool) :
    (sends (s.sessions.get? k) file = false ∧ sendFile s k index file isRetry = (s, none)) ∨
    ∃ token x, file.token = some token ∧ s.sessions.get? k = some x ∧
      allowedStates x.status = true ∧
      sendFile s k index file isRetry = ({ s with
        nextId := s.nextId + 1
        uploads := s.uploads.insert s.nextId ⟨k, isRetry, x.uploadAction index file token⟩
          }.setSession k (x.dispatched isRetry file.file.id ⟨index, s.nextId⟩), some s.nextId) := by
  unfold sendFile sends
  cases htoken : file.token with
  | none => exact Or.inl ⟨rfl, rfl⟩
  | some token =>
      cases hx : s.sessions.get? k with
      | none => exact Or.inl ⟨rfl, rfl⟩
      | some x =>
          cases hallowed : allowedStates x.status with
          | false => exact Or.inl ⟨by simp [hallowed], by simp [hallowed]⟩
          | true => exact Or.inr ⟨token, x, rfl, rfl, hallowed, by simp [hallowed]⟩

/-- What is known of ids: those that were not given out have no view, and the task ids in use are
    below the next one. -/
structure Known (s : State) : Prop where
  blank : ∀ k, s.flows.get? k = none → s.view k = .blank
  uuid : ∀ k, k ∉ s.uuids → s.flows.get? k = none
  taskId : ∀ id, s.nextId ≤ id → s.uploads.get? id = none

theorem known_initial : Known State.initial where
  blank _ _ := rfl
  uuid _ _ := rfl
  taskId _ _ := rfl

theorem Known.view_blank (hK : Known s) (h : k ∉ s.uuids) : s.view k = .blank :=
  hK.blank k (hK.uuid k h)

theorem fresh_iff {ids : List String} :
    s.fresh ids = true ↔ ids.Nodup ∧ ∀ i ∈ ids, i ∉ s.uuids := by
  simp [State.fresh]

theorem startSession_turn (hK : Known s) {target : Device} {files : List CrossFile}
    {background : Bool} {ids : List String}
    (hs : startSession s j target files background ids = some t) (k : String) :
    Turn s.nextId k (s.view k) (.startSession j target files background ids) (t.view k) := by
  unfold startSession at hs
  split at hs
  · rename_i hfresh
    obtain ⟨hnodup, hnew⟩ := fresh_iff.mp hfresh.1
    simp only at hs
    split at hs
    · cases hs
      exact .other _ _
    · rename_i preview _
      have hblank := hK.view_blank (hnew j List.mem_cons_self)
      simp only [submitRequest, State.setSession, LinkedMap.get?_insert_self,
        Option.some.injEq] at hs
      subst hs
      by_cases hk : k = j
      · subst hk
        have hview := Turn.created (n := s.nextId) (k := k) target files background preview ids _
          rfl (List.nodup_cons.mp hnodup).2
        have hups : uploadsOf s.uploads k = fun _ => none := congrArg View.uploads hblank
        rw [hblank]
        simpa [State.view, State.setFlow, LinkedMap.get?_insert_self, hups] using hview
      · rw [view_setFlow_ne _ hk]
        have hother := Turn.other (n := s.nextId) (k := k) (s.view k)
          (.startSession j target files background ids)
        simpa [State.view, LinkedMap.get?_insert_ne hk] using hother
  · cases hs

/-- The results of `startSession`'s request that are neither a success nor a demand for a pin. -/
def PrepareUploadResult.isFailure : PrepareUploadResult → Bool
  | .success _ | .pinRequired => false
  | _ => true

/-- What the answer to the request does to the session, with the result it gives. -/
inductive Submitted (v : View) : View → PrepareUploadResult → Prop where
  | pinRequired : Submitted v v .pinRequired
  | success (f : Option String → Option String) (files : LinkedMap String String) :
      Submitted v { v with session := v.session.map fun x =>
        { x with remoteSessionId := f x.remoteSessionId } } (.success files)
  | failure (status : SessionStatus) (f : Option String → Option String)
      (result : PrepareUploadResult) (hstatus : isRefusal status = true)
      (hresult : result.isFailure = true) :
      Submitted v { v with session := v.session.map fun x =>
        { x with status := status, errorMessage := f x.errorMessage } } result

theorem submitted_self (s : State) (k : String) (target : Device) (reply : Reply) :
    Submitted (s.view k) ((submitted s k target reply).1.view k)
      (submitted s k target reply).2 := by
  have hfailed : ∀ error, Submitted (s.view k) ((submitFailed s k error).1.view k)
      (submitFailed s k error).2 := by
    intro error
    simp only [submitFailed, view_updateSession_self]
    exact .failure .finishedWithErrors (fun _ => some error) _ rfl rfl
  have hkept : ∀ files, Submitted (s.view k) (s.view k) (.success files) := by
    intro files
    have hid := Submitted.success (v := s.view k) id files
    simpa using hid
  have hrefused : ∀ status result, isRefusal status = true → result.isFailure = true →
      Submitted (s.view k) ((s.updateSession k fun x => { x with status := status }).view k)
        result := by
    intro status result hstatus hresult
    rw [view_updateSession_self]
    exact .failure status id result hstatus hresult
  unfold submitted
  cases reply with
  | response statusCode fileMap responseDto =>
      simp only
      split
      · cases fileMap with
        | error e => exact hfailed e
        | ok fileMap => exact hkept fileMap
      · split
        · exact hkept .empty
        · cases responseDto with
          | error e => exact hfailed e
          | ok dto =>
              simp only [view_updateSession_self]
              exact .success (fun _ => some dto.sessionId) dto.files
  | statusCodeException statusCode e =>
      simp only
      split
      · exact .pinRequired
      · split
        · exact hrefused .declined _ rfl rfl
        · split
          · exact hrefused .recipientBusy _ rfl rfl
          · split
            · exact hrefused .tooManyAttempts _ rfl rfl
            · exact hfailed e
  | exception e => exact hfailed e

theorem submitted_ne (s : State) {j k : String} (h : j ≠ k) (target : Device) (reply : Reply) :
    (submitted s k target reply).1.view j = s.view j := by
  unfold submitted submitFailed
  cases reply with
  | response statusCode fileMap responseDto =>
      simp only
      split
      · cases fileMap <;> simp [view_updateSession_ne _ h]
      · split
        · rfl
        · cases responseDto <;> simp [view_updateSession_ne _ h]
  | statusCodeException statusCode e =>
      simp only
      repeat' split
      all_goals simp [view_updateSession_ne _ h]
  | exception e => simp [view_updateSession_ne _ h]

/-- `startSession` from the answer on. -/
theorem handleResult_turn {v : View} {submission : Submission} {result : PrepareUploadResult}
    (hflow : v.flow = some (.submitting submission)) (hr : Submitted v (s.view k) result)
    {reply : Reply} {now : Int} {n : TaskId} :
    Turn n k v (.submitted k reply now) ((handleResult s k result now).view k) := by
  obtain ⟨x, flow, ups⟩ := v
  obtain rfl : flow = some (.submitting submission) := hflow
  generalize hw : s.view k = w at hr
  cases hr with
  | pinRequired =>
      simp only [handleResult, view_setFlow_self, hw]
      exact .passed _ _ _ _ _ rfl rfl
  | success f files =>
      have hx : s.sessions.get? k = x.map fun x => { x with remoteSessionId := f x.remoteSessionId } :=
        congrArg View.session hw
      simp only [handleResult, startUpload, hx]
      cases x with
      | none =>
          simp only [Option.map_none, view_setFlow_self, hw]
          exact .passed _ _ _ _ _ rfl rfl
      | some x =>
          simp only [Option.map_some]
          split
          · simp only [view_setFlow_self, view_closeSession_self, hw]
            exact .empty _ _ _ _ rfl
          · simp only [view_setFlow_self, view_setSession_self, hw]
            exact .opened reply now x _ _ submission (f x.remoteSessionId) files rfl
  | failure status f result hstatus hresult =>
      have hstop : handleResult s k result now = s.setFlow k .stopped := by
        cases result <;> first | rfl | cases hresult
      simp only [hstop, view_setFlow_self, hw]
      cases x with
      | none => exact .passed _ _ _ _ _ rfl rfl
      | some x => exact .refused _ _ _ _ _ _ rfl hstatus

theorem handleResult_ne (h : j ≠ k) (result : PrepareUploadResult) (now : Int) :
    (handleResult s k result now).view j = s.view j := by
  unfold handleResult startUpload
  cases result with
  | success files =>
      simp only
      split
      · exact view_setFlow_ne _ h
      · split
        · rw [view_setFlow_ne _ h, view_closeSession_ne h]
        · rw [view_setFlow_ne _ h, view_setSession_ne _ h]
  | _ => exact view_setFlow_ne _ h

theorem pinEntered_turn (hflow : s.flows.get? j = some .asking) (pin : Option String) (k : String)
    {n : TaskId} : Turn n k (s.view k) e ((pinEntered s j pin).view k) := by
  have hview : s.view j = ⟨s.sessions.get? j, some .asking, uploadsOf s.uploads j⟩ := by
    rw [State.view, hflow]
  unfold pinEntered submitRequest
  by_cases hk : k = j
  · subst hk
    cases pin with
    | none =>
        simp only [view_setFlow_self, view_updateSession_self]
        cases hx : s.sessions.get? k with
        | none =>
            rw [hview, hx]
            exact .passed _ _ _ _ _ rfl rfl
        | some x =>
            rw [hview, hx]
            exact .refused _ _ _ _ .canceledBySender x.errorMessage rfl rfl
    | some pin =>
        simp only
        split
        · rw [view_setFlow_self, hview]
          exact .passed _ _ _ _ _ rfl rfl
        · rw [view_setFlow_self, hview]
          exact .passed _ _ _ _ _ rfl rfl
  · have hsame : (pinEntered s j pin).view k = s.view k := by
      unfold pinEntered submitRequest
      cases pin with
      | none => rw [view_setFlow_ne _ hk, view_updateSession_ne _ hk]
      | some pin =>
          simp only
          split
          · exact view_setFlow_ne _ hk
          · exact view_setFlow_ne _ hk
    unfold pinEntered submitRequest at hsame
    rw [hsame]
    exact .other _ _

/-- The view of the session for which `sendFile` dispatched a task. -/
theorem view_dispatch_self (x : SendSessionState) (u : Upload) (hu : u.sessionId = k) :
    ({ s with nextId := s.nextId + 1, uploads := s.uploads.insert s.nextId u }.setSession k
      x).view k =
    ⟨some x, s.flows.get? k, Function.update (uploadsOf s.uploads k) s.nextId (some u)⟩ := by
  subst hu
  rw [view_setSession_self]
  simp only [State.view, uploadsOf_insert]

theorem view_dispatch_ne (hK : Known s) (x : SendSessionState) (u : Upload) (hu : u.sessionId = j)
    (h : k ≠ j) :
    ({ s with nextId := s.nextId + 1, uploads := s.uploads.insert s.nextId u }.setSession j
      x).view k = s.view k := by
  subst hu
  rw [view_setSession_ne _ h]
  simp only [State.view, uploadsOf_insert_ne _ (hK.taskId _ (Nat.le_refl _)) h]

theorem work_turn (hK : Known s) {index : Nat} {queue : List SendingFile} {workers : List Worker}
    (hflow : s.flows.get? j = some (.sending queue workers))
    (hnext : workers[index]? = some .next) (k : String) :
    Turn s.nextId k (s.view k) (.work j index) ((work s j index queue workers).view k) := by
  have hview : s.view j = ⟨s.sessions.get? j, some (.sending queue workers),
      uploadsOf s.uploads j⟩ := by
    rw [State.view, hflow]
  unfold work
  cases queue with
  | nil =>
      simp only
      by_cases hk : k = j
      · subst hk
        rw [view_setFlow_self, hview]
        exact .left _ _ _ _ hnext
      · rw [view_setFlow_ne _ hk]
        exact .other _ _
  | cons file queue =>
      rcases sendFile_cases s j index file false with ⟨hsends, heq⟩ | ⟨token, x, htoken, hx,
        hallowed, heq⟩
      · simp only [heq]
        by_cases hk : k = j
        · subst hk
          rw [view_setFlow_self, hview]
          exact .skipped _ _ _ _ _ _ hnext hsends
        · rw [view_setFlow_ne _ hk]
          exact .other _ _
      · simp only [heq]
        by_cases hk : k = j
        · subst hk
          rw [view_setFlow_self, view_dispatch_self _ _ rfl, hview, hx]
          exact .sent _ _ _ _ _ _ _ hnext hallowed htoken
        · rw [view_setFlow_ne _ hk, view_dispatch_ne hK _ _ rfl hk]
          exact .other _ _

theorem retry_turn (hK : Known s) {file : SendingFile}
    (hs : service.step s (.retry j file) = some t) (k : String) :
    Turn s.nextId k (s.view k) (.retry j file) (t.view k) := by
  have hsent : (sendFile s j 0 file true).1 = t ∧ ∀ x, s.sessions.get? j = some x →
      x.files.get? file.file.id = some file ∧ file.status = .failed := by
    simp only [service, step] at hs
    split at hs
    · rename_i x hx
      split at hs
      · rename_i hfile
        refine ⟨Option.some.inj hs, fun y hy => ?_⟩
        obtain rfl := Option.some.inj (hx.symm.trans hy)
        exact hfile
      · cases hs
    · rename_i hx
      refine ⟨Option.some.inj hs, fun y hy => ?_⟩
      rw [hx] at hy
      cases hy
  obtain ⟨rfl, hfile⟩ := hsent
  rcases sendFile_cases s j 0 file true with ⟨hsends, heq⟩ | ⟨token, x, htoken, hx, hallowed, heq⟩
  · rw [heq]
    exact .other _ _
  · rw [heq]
    by_cases hk : k = j
    · subst hk
      rw [view_dispatch_self _ _ rfl, State.view, hx]
      exact .retried _ _ _ _ _ hallowed htoken (hfile x hx).1 (hfile x hx).2
    · rw [view_dispatch_ne hK _ _ rfl hk]
      exact .other _ _

@[simp] theorem view_setWorker_self (index : Nat) (worker : Worker) :
    (s.setWorker k index worker).view k = { s.view k with flow := (s.view k).flow.map fun
      | .sending queue workers => .sending queue (workers.set index worker)
      | flow => flow } := by
  unfold State.setWorker
  cases h : s.flows.get? k with
  | none => simp [State.view, h]
  | some flow =>
      cases flow <;> simp [State.view, State.setFlow, LinkedMap.get?_insert_self, h]

theorem view_setWorker_ne (index : Nat) (worker : Worker) (h : j ≠ k) :
    (s.setWorker k index worker).view j = s.view j := by
  unfold State.setWorker
  split
  · exact view_setFlow_ne _ h
  · rfl

/-- The end of an upload, on the view of its session. -/
theorem view_uploadEnded_self (s : State) (id : TaskId) (u : Upload) (error : Option String)
    (now : Int) : (uploadEnded s id u error now).view u.sessionId =
      ⟨(s.sessions.get? u.sessionId).bind fun x => x.afterUpload u id error now,
        (s.flows.get? u.sessionId).map (Flow.afterUpload u),
        Function.update (uploadsOf s.uploads u.sessionId) id none⟩ := by
  unfold uploadEnded
  simp only
  generalize hs1 : ({ s with uploads := s.uploads.erase id }.updateSession u.sessionId fun x =>
    x.uploaded u.action.fileId (u.task id) error) = s1
  have hview1 : s1.view u.sessionId = ⟨(s.sessions.get? u.sessionId).map fun x =>
      x.uploaded u.action.fileId (u.task id) error, s.flows.get? u.sessionId,
      Function.update (uploadsOf s.uploads u.sessionId) id none⟩ := by
    rw [← hs1, view_updateSession_self]
    simp only [State.view, uploadsOf_erase]
  have hx1 := congrArg View.session hview1
  cases hretry : u.isRetry with
  | true =>
      have hkeep : (s.flows.get? u.sessionId).map (Flow.afterUpload u) =
          s.flows.get? u.sessionId := by
        cases s.flows.get? u.sessionId with
        | none => rfl
        | some flow => cases flow <;> simp [Flow.afterUpload, hretry]
      rw [hkeep]
      simp only [SendSessionState.afterUpload, hretry, Bool.true_and, if_true]
      cases hx : s.sessions.get? u.sessionId with
      | none =>
          rw [hx] at hx1 hview1
          simp only [State.view, Option.map_none] at hx1
          simp only [hx1, hview1, Option.map_none, Option.bind_none]
      | some x =>
          rw [hx] at hx1 hview1
          simp only [State.view, Option.map_some] at hx1
          simp only [hx1, Option.bind_some]
          split
          · rw [view_finish_self, hview1]
            rfl
          · rw [hview1]
            rfl
  | false =>
      simp only [Bool.false_eq_true, if_false, view_setWorker_self, hview1, View.mk.injEq,
        and_true]
      constructor
      · cases s.sessions.get? u.sessionId <;> simp [SendSessionState.afterUpload, hretry]
      · cases s.flows.get? u.sessionId with
        | none => rfl
        | some flow => cases flow <;> simp [Flow.afterUpload, hretry]

theorem uploadEnded_turn {id : TaskId} {u : Upload} (hu : s.uploads.get? id = some u)
    (error : Option String) (now : Int) (k : String) {n : TaskId} :
    Turn n k (s.view k) (.uploadEnded id error now) ((uploadEnded s id u error now).view k) := by
  by_cases hk : k = u.sessionId
  · subst hk
    have hmem : uploadsOf s.uploads u.sessionId id = some u := uploadsOf_eq_some.mpr ⟨hu, rfl⟩
    have hturn := Turn.uploaded (n := n) (k := u.sessionId) id error now
      (s.sessions.get? u.sessionId) (s.flows.get? u.sessionId) _ u hmem
    rw [view_uploadEnded_self]
    exact hturn
  · have hbase : { s with uploads := s.uploads.erase id }.view k = s.view k := by
      simp only [State.view, uploadsOf_erase_ne _ hu hk]
    have hsame : (uploadEnded s id u error now).view k = s.view k := by
      unfold uploadEnded
      simp only
      repeat' split
      all_goals simp [view_finish_ne _ hk, view_setWorker_ne _ _ hk, view_updateSession_ne _ hk,
        hbase]
    rw [hsame]
    exact .other _ _

/-- **Every step is a turn of every session.** -/
theorem step_turn (hK : Known s) (hs : service.step s e = some t) (k : String) :
    Turn s.nextId k (s.view k) e (t.view k) := by
  cases e with
  | startSession j target files background ids => exact startSession_turn hK hs k
  | submitted j reply now =>
      simp only [service, step] at hs
      split at hs
      · rename_i submission hflow
        cases hs
        by_cases hk : k = j
        · subst hk
          exact handleResult_turn hflow (submitted_self s k submission.target reply)
        · rw [handleResult_ne hk, submitted_ne s hk]
          exact .other _ _
      · cases hs
  | pinEntered j pin =>
      simp only [service, step] at hs
      split at hs
      · rename_i hflow
        cases hs
        exact pinEntered_turn hflow pin k
      · cases hs
  | work j index =>
      simp only [service, step] at hs
      split at hs
      · rename_i queue workers hflow
        split at hs
        · rename_i hnext
          cases hs
          exact work_turn hK hflow hnext k
        · cases hs
      · cases hs
  | uploadEnded id error now =>
      simp only [service, step] at hs
      split at hs
      · rename_i u hu
        cases hs
        exact uploadEnded_turn hu error now k
      · cases hs
  | loopEnded j now =>
      simp only [service, step] at hs
      split at hs
      · rename_i queue workers hflow
        split at hs
        · rename_i hdone
          cases hs
          by_cases hk : k = j
          · subst hk
            rw [view_setFlow_self, view_finish_self, State.view, hflow]
            exact .ended _ _ _ _ _ hdone
          · rw [view_setFlow_ne _ hk, view_finish_ne _ hk]
            exact .other _ _
        · cases hs
      · cases hs
  | retry j file => exact retry_turn hK hs k
  | cancelSession j =>
      simp only [service, step, cancelSession] at hs
      split at hs
      · rename_i x hx
        simp only [hx] at hs
        cases hs
        by_cases hk : k = j
        · subst hk
          rw [view_closeSession_self]
          exact .closed _ _ _ _ (Or.inr (Or.inl rfl))
        · rw [view_closeSession_ne hk]
          exact .other _ _
      · cases hs
  | cancelSessionByReceiver j now =>
      simp only [service, step, cancelSessionByReceiver] at hs
      split at hs
      · rename_i x hx
        split at hs
        · rename_i hstatus
          simp only [hx] at hs
          cases hs
          by_cases hk : k = j
          · subst hk
            have hturn := Turn.canceled (n := s.nextId) (k := k) now x (s.flows.get? k)
              (uploadsOf s.uploads k) hstatus
            rw [view_setSession_self, State.view, hx]
            exact hturn
          · rw [view_setSession_ne _ hk]
            exact .other _ _
        · cases hs
      · cases hs
  | closeSession j =>
      simp only [service, step, Option.some.injEq] at hs
      subst hs
      by_cases hk : k = j
      · subst hk
        rw [view_closeSession_self]
        exact .closed _ _ _ _ (Or.inl rfl)
      · rw [view_closeSession_ne hk]
        exact .other _ _
  | clearAllSessions =>
      simp only [service, step, Option.some.injEq] at hs
      subst hs
      exact .closed _ _ _ _ (Or.inr (Or.inr rfl))
  | setBackground j background =>
      simp only [service, step, Option.some.injEq] at hs
      subst hs
      by_cases hk : k = j
      · subst hk
        rw [view_updateSession_self]
        cases hx : s.sessions.get? k with
        | none =>
            have hother := Turn.other (n := s.nextId) (k := k) (s.view k)
              (.setBackground k background)
            simpa [State.view, hx] using hother
        | some x =>
            simp only [State.view, hx]
            exact .background _ _ _ _
      · rw [view_updateSession_ne _ hk]
        exact .other _ _

end Step

end LocalSend.SendSession
