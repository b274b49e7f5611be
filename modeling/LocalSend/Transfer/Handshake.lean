/-
  File:      LocalSend/Transfer/Handshake.lean
  Subject:   WHERE BOTH ENDS OF A TRANSFER STAND. The receiver stores one session at most, and the
             sender hears of it before it uploads.

  * `Stage` -- the call of the sender, the handler that has it, and the session of the receiver
    move through the handshake together;
  * `Linked` -- the invariant: the stage, the invariants of both services, and which handlers and
    uploads there are;
  * `linked_sends`, `linked_answered`, `linked_receives` -- the steps of the two services;
    `linked_step` -- **every step of the network keeps both ends linked**.
-/
import LocalSend.Receive.Endgame
import LocalSend.Send.Progress
import LocalSend.Transfer.Network

namespace LocalSend.Transfer

open Lib
open SendSession (TaskId)
open Receive (RequestId)

variable {c : Ends} {s t : State} {e : Event}

/-! ## 1. Stages -/

/-- A session of the sender that waits for the receiving user, or was cancelled meanwhile. -/
structure Undecided (c : Ends) (r : RequestId) (id : String)
    (session : Receive.ReceiveSessionState) : Prop where
  sessionId : session.sessionId = id
  sender : session.sender.ip = some c.senderIp
  handler : session.responseHandler = some r
  status : session.status = .waiting ∨ session.status = .canceledBySender

/-- A session of the sender whose files were accepted. -/
structure Accepted (c : Ends) (session : Receive.ReceiveSessionState) : Prop where
  sender : session.sender.ip = some c.senderIp
  handler : session.responseHandler = none
  status : session.status ≠ .waiting

/-- Whose session it is stays, and it does not wait again. -/
theorem Accepted.follow {session session' : Receive.ReceiveSessionState} (h : Accepted c session)
    (horigin : session'.sender = session.sender ∧
      session'.responseHandler = session.responseHandler)
    (hstatus : session'.status = .waiting → session.status = .waiting) : Accepted c session' where
  sender := by
    rw [horigin.1]
    exact h.sender
  handler := horigin.2.trans h.handler
  status hwaiting := h.status (hstatus hwaiting)

/-- **The stages of a handshake.** -/
inductive Stage (c : Ends) :
    Option SendSession.Flow → Option RequestId → Receive.State → Prop where
  /-- the request is on its way, or the pin is asked for -/
  | asked (flow : SendSession.Flow) (receiver : Receive.State) (hflow : flow.isHandshake = true)
      (hs : receiver.session = none) : Stage c (some flow) none receiver
  /-- the body is read, the directories are looked up -/
  | reading (submission : SendSession.Submission) (r : RequestId) (receiver : Receive.State)
      (req : Receive.PrepareRequest) (task : Receive.Task)
      (htask : receiver.tasks.get? r = some task)
      (h : task = .reading req ∨ ∃ dto settings, task = .locating req dto settings)
      (hreq : req.ip = c.senderIp) (hs : receiver.session = none) :
      Stage c (some (.submitting submission)) (some r) receiver
  /-- the session is stored, and the handler waits for the user -/
  | deciding (submission : SendSession.Submission) (r : RequestId) (receiver : Receive.State)
      (task : Receive.Task) (id : String) (htask : receiver.tasks.get? r = some task)
      (h : task.sessionId? = some id)
      (hs : ∀ session, receiver.session = some session → Undecided c r id session) :
      Stage c (some (.submitting submission)) (some r) receiver
  /-- the files are accepted, and the response is on its way -/
  | accepted (submission : SendSession.Submission) (r : RequestId) (receiver : Receive.State)
      (task : Receive.Task) (id : Option String) (files : List (String × String))
      (htask : receiver.tasks.get? r = some task)
      (h : task = .permitting (.prepared id files) ∨ task = .returned (.prepared id files))
      (hs : ∀ session, receiver.session = some session →
        Accepted c session ∧ ∀ i, id = some i → session.sessionId = i) :
      Stage c (some (.submitting submission)) (some r) receiver
  /-- a refusal is on its way -/
  | refused (submission : SendSession.Submission) (r : RequestId) (receiver : Receive.State)
      (response : Receive.Response) (htask : receiver.tasks.get? r = some (.returned response))
      (h : ∀ id files, response ≠ .prepared id files) (hs : receiver.session = none) :
      Stage c (some (.submitting submission)) (some r) receiver
  /-- the sender has the response -/
  | past (flow : SendSession.Flow) (receiver : Receive.State) (hflow : flow.isHandshake = false)
      (hs : ∀ session, receiver.session = some session → Accepted c session) :
      Stage c (some flow) none receiver

/-- **Both ends are linked.** -/
structure Linked (c : Ends) (s : State) : Prop where
  sound : SendSession.Sound s.sender
  driven : (s.sender.view c.sessionId).Driven
  /-- the sender has this session only -/
  alone : ∀ k, k ≠ c.sessionId → s.sender.view k = .blank
  served : Receive.Served s.receiver
  stage : Stage c (s.flow c) s.prepare s.receiver
  /-- besides the prepare-upload handler there are uploads, and handlers that have returned -/
  handlers : ∀ r task, s.receiver.tasks.get? r = some task →
    s.prepare = some r ∨ task.upload?.isSome = true ∨ ∃ response, task = .returned response
  /-- nothing is uploaded before the handshake is over -/
  early : ∀ flow, s.flow c = some flow → flow.isHandshake = true →
    Receive.NoUpload s.receiver ∧ s.strays = []
  calls : ∀ taskId r, s.uploads.get? taskId = some r → r ∈ s.receiver.tasks.keys
  /-- the sender knows the receiver's session by its id -/
  remote : ∀ session id, s.session c = some session → session.remoteSessionId = some id →
    (∀ flow, s.flow c = some flow → flow.isHandshake = false) ∧
    ∀ session', s.receiver.session = some session' → session'.sessionId = id

theorem Stage.flow_some {flow : Option SendSession.Flow} {call : Option RequestId}
    {receiver : Receive.State} (h : Stage c flow call receiver) : ∃ fl, flow = some fl := by
  cases h <;> exact ⟨_, rfl⟩

/-- After the handshake no request is with a handler. -/
theorem Stage.of_past {flow : SendSession.Flow} {call : Option RequestId}
    {receiver : Receive.State} (h : Stage c (some flow) call receiver)
    (hflow : flow.isHandshake = false) :
    call = none ∧ ∀ session, receiver.session = some session → Accepted c session := by
  cases h with
  | asked _ _ hhand =>
      rw [hflow] at hhand
      cases hhand
  | past _ _ _ hs => exact ⟨rfl, hs⟩
  | _ => cases hflow

/-! ## 2. Steps of the sender -/

/-- **The steps of the sender that leave its request alone.** -/
theorem linked_sends (h : Linked c s) {ev : SendSession.Event} {sender : SendSession.State}
    (hs : SendSession.service.step s.sender ev = some sender) (hev : ev.steers = false)
    (hsender : t.sender = sender) (hreceiver : t.receiver = s.receiver)
    (hprepare : t.prepare = s.prepare)
    (huploads : ∀ taskId r, t.uploads.get? taskId = some r → s.uploads.get? taskId = some r)
    (hstrays : ∀ flow, s.flow c = some flow → flow.isHandshake = true → s.strays = [] →
      t.strays = []) : Linked c t := by
  subst hsender
  obtain ⟨flow, hflow⟩ := h.stage.flow_some
  obtain ⟨hdriven, ⟨flow', hflow', hmove⟩, hsession⟩ :=
    SendSession.unsteered_step h.sound h.driven hs hev hflow
  have hflow' : t.flow c = some flow' := hflow'
  refine ⟨SendSession.sound_step h.sound hs, hdriven, fun k hk => ?_, hreceiver ▸ h.served, ?_,
    hreceiver ▸ hprepare ▸ h.handlers, fun fl hfl hhand => ?_,
    fun taskId r hr => hreceiver ▸ h.calls taskId r (huploads taskId r hr), fun y id hy hid => ?_⟩
  · exact SendSession.blank_step h.sound hs (SendSession.starts_of_steers hev) (h.alone k hk)
  · rw [hflow', hreceiver, hprepare]
    rcases hmove with rfl | ⟨hold, hnew⟩
    · exact hflow ▸ h.stage
    · obtain ⟨hcall, hs'⟩ := (hflow ▸ h.stage).of_past hold
      rw [hcall]
      exact .past flow' _ hnew hs'
  · obtain rfl := Option.some.inj (hflow'.symm.trans hfl)
    rcases hmove with rfl | ⟨_, hnew⟩
    · obtain ⟨hno, hnil⟩ := h.early _ hflow hhand
      exact ⟨hreceiver ▸ hno, hstrays _ hflow hhand hnil⟩
    · rw [hnew] at hhand
      cases hhand
  · obtain ⟨x, hx, hremote⟩ := hsession y hy
    obtain ⟨hover, hnamed⟩ := h.remote x id hx (hremote ▸ hid)
    refine ⟨fun fl hfl => ?_, hreceiver ▸ hnamed⟩
    obtain rfl := Option.some.inj (hflow'.symm.trans hfl)
    rcases hmove with rfl | ⟨_, hnew⟩
    · exact hover _ hflow
    · exact hnew

/-- An upload of the sender belongs to its session, which is past the handshake. -/
theorem Linked.upload_begun (h : Linked c s) {taskId : TaskId} {u : SendSession.Upload}
    (hu : s.sender.uploads.get? taskId = some u) :
    u.sessionId = c.sessionId ∧ ∃ flow, s.flow c = some flow ∧ flow.isBegun = true := by
  have hview : (s.sender.view u.sessionId).uploads taskId = some u :=
    SendSession.uploadsOf_eq_some.mpr ⟨hu, rfl⟩
  have hid : u.sessionId = c.sessionId := by
    by_contra hne
    rw [h.alone _ hne] at hview
    cases hview
  rw [hid] at hview
  exact ⟨hid, (h.sound.sound c.sessionId).loop.begun taskId u hview⟩

/-- No upload belongs to a handshake. -/
theorem Linked.upload_over (h : Linked c s) {taskId : TaskId} {u : SendSession.Upload}
    (hu : s.sender.uploads.get? taskId = some u) :
    ∀ flow, s.flow c = some flow → flow.isHandshake = false := by
  obtain ⟨_, flow, hflow, hbegun⟩ := h.upload_begun hu
  intro flow' hflow'
  obtain rfl := Option.some.inj (hflow.symm.trans hflow')
  cases flow <;> first | rfl | cases hbegun

theorem replyOf_ok {response : Receive.Response} {code : Nat}
    {fileMap : Except String (LinkedMap String String)} {dto : SendSession.PrepareUploadResponseDto}
    (h : replyOf response = .response code fileMap (.ok dto)) :
    ∃ files, response = .prepared (some dto.sessionId) files ∧ dto.files = .ofList files := by
  cases response with
  | prepared sessionId files =>
      cases sessionId with
      | none => cases h
      | some sessionId =>
          cases h
          exact ⟨files, rfl, rfl⟩
  | _ => cases h

theorem replyOf_statusCode {response : Receive.Response} {code : Nat} {e : String}
    (h : replyOf response = .statusCodeException code e) : ∃ text, response = .message code text := by
  cases response with
  | message code' text =>
      cases h
      exact ⟨text, rfl⟩
  | prepared sessionId files => cases sessionId <;> cases h
  | empty _ => cases h

/-- The sender's session during the handshake has no partner yet. -/
theorem Linked.no_remote (h : Linked c s) {flow : SendSession.Flow} (hflow : s.flow c = some flow)
    (hhand : flow.isHandshake = true) {session : SendSession.SendSessionState}
    (hs : s.session c = some session) : session.remoteSessionId = none := by
  cases hid : session.remoteSessionId with
  | none => rfl
  | some id =>
      have hover := (h.remote session id hs hid).1 flow hflow
      rw [hhand] at hover
      cases hover

/-- **The stage of a handler that has returned**: the files are accepted, or there is no
    session. -/
theorem Stage.of_returned {flow : Option SendSession.Flow} {r : RequestId}
    {receiver : Receive.State} {response : Receive.Response}
    (h : Stage c flow (some r) receiver)
    (hr : receiver.tasks.get? r = some (.returned response)) :
    (∃ submission, flow = some (.submitting submission)) ∧
    ((∃ id files, response = .prepared id files ∧ ∀ session, receiver.session = some session →
      Accepted c session ∧ ∀ i, id = some i → session.sessionId = i) ∨
    (receiver.session = none ∧ ∀ id files, response ≠ .prepared id files)) := by
  cases h with
  | reading submission _ _ req task htask h =>
      obtain rfl := Option.some.inj (hr.symm.trans htask)
      rcases h with h | ⟨_, _, h⟩ <;> cases h
  | deciding submission _ _ task id htask h =>
      obtain rfl := Option.some.inj (hr.symm.trans htask)
      cases h
  | accepted submission _ _ task id files htask h hs =>
      obtain rfl := Option.some.inj (hr.symm.trans htask)
      rcases h with h | h
      · cases h
      · cases h
        exact ⟨⟨submission, rfl⟩, Or.inl ⟨id, files, rfl, hs⟩⟩
  | refused submission _ _ response' htask h hs =>
      cases hr.symm.trans htask
      exact ⟨⟨submission, rfl⟩, Or.inr ⟨hs, h⟩⟩

/-- What the response makes of the sender. -/
theorem answered_outcome {submission : SendSession.Submission} {response : Receive.Response}
    {now : Int} {sender : SendSession.State} (hflow : s.flow c = some (.submitting submission))
    (hs : SendSession.service.step s.sender (.submitted c.sessionId (replyOf response) now) =
      some sender) :
    SendSession.Outcome (s.sender.view c.sessionId) submission.target (replyOf response) now
      (sender.view c.sessionId) := by
  have hsubmitted := SendSession.submitted_outcome s.sender c.sessionId submission.target
    (replyOf response) now
  simp only [SendSession.service, SendSession.step,
    show s.sender.flows.get? c.sessionId = some (.submitting submission) from hflow,
    Option.some.injEq] at hs
  rwa [hs] at hsubmitted

/-- **The response to prepare-upload reaches the sender.** -/
theorem linked_answered (h : Linked c s) {r : RequestId} {response : Receive.Response} {now : Int}
    {sender : SendSession.State} (hr : s.prepare = some r)
    (hresponse : s.receiver.tasks.get? r = some (.returned response))
    (hs : SendSession.service.step s.sender (.submitted c.sessionId (replyOf response) now) =
      some sender) : Linked c { s with prepare := none, sender := sender } := by
  obtain ⟨⟨submission, hflow⟩, hstage⟩ := (hr ▸ h.stage).of_returned hresponse
  have hearly := h.early _ hflow rfl
  have hsound := SendSession.sound_step h.sound hs
  have halone : ∀ k, k ≠ c.sessionId → sender.view k = .blank := fun k hk =>
    SendSession.blank_step h.sound hs rfl (h.alone k hk)
  have hhandlers : ∀ q task, s.receiver.tasks.get? q = some task →
      (none : Option RequestId) = some q ∨ task.upload?.isSome = true ∨
        ∃ response, task = .returned response := by
    intro q task hq
    rcases h.handlers q task hq with hcall | hother
    · rw [hr] at hcall
      obtain rfl := Option.some.inj hcall
      exact Or.inr (Or.inr ⟨response, Option.some.inj (hq.symm.trans hresponse)⟩)
    · exact Or.inr hother
  have houtcome := answered_outcome hflow hs
  have hdriven := SendSession.driven_outcome houtcome
  generalize hw : sender.view c.sessionId = w at houtcome
  have hwflow : sender.flows.get? c.sessionId = w.flow := congrArg SendSession.View.flow hw
  have hwsession : sender.sessions.get? c.sessionId = w.session :=
    congrArg SendSession.View.session hw
  have hover : ∀ session, s.receiver.session = some session → Accepted c session := by
    intro session hses
    rcases hstage with ⟨_, _, _, hs'⟩ | ⟨hnone, _⟩
    · exact (hs' session hses).1
    · rw [hnone] at hses
      cases hses
  cases houtcome with
  | asked e hreply =>
      refine ⟨hsound, hdriven, halone, h.served, ?_, hhandlers, fun _ _ _ => hearly, h.calls,
        fun session id hses hid => ?_⟩
      · obtain ⟨text, rfl⟩ := replyOf_statusCode hreply
        rcases hstage with ⟨_, _, hprepared, _⟩ | ⟨hnone, _⟩
        · cases hprepared
        · rw [State.flow, hwflow]
          exact .asked .asking _ rfl hnone
      · rw [h.no_remote hflow rfl (hwsession.symm.trans hses)] at hid
        cases hid
  | ended x hx =>
      refine ⟨hsound, hdriven, halone, h.served, ?_, hhandlers, fun flow hfl hhand => ?_, h.calls,
        fun session id hses hid => ?_⟩
      · rw [State.flow, hwflow]
        exact .past .stopped _ rfl hover
      · obtain rfl := Option.some.inj ((hwflow.symm.trans hfl))
        cases hhand
      · obtain ⟨old, message, status, hold, rfl, _⟩ := hx session (hwsession.symm.trans hses)
        rw [show old.remoteSessionId = none from h.no_remote hflow rfl hold] at hid
        cases hid
  | opened x y remote fileMap hx hgrants hne hy =>
      refine ⟨hsound, hdriven, halone, h.served, ?_, hhandlers, fun flow hfl hhand => ?_, h.calls,
        fun session id hses hid => ⟨fun flow hfl => ?_, fun session' hs' => ?_⟩⟩
      · rw [State.flow, hwflow]
        exact .past _ _ rfl hover
      · obtain rfl := Option.some.inj ((hwflow.symm.trans hfl))
        cases hhand
      · obtain rfl := Option.some.inj ((hwflow.symm.trans hfl))
        rfl
      · obtain rfl := Option.some.inj (hwsession.symm.trans hses)
        rw [hy] at hid
        change remote = some id at hid
        generalize hreply : replyOf response = reply at hgrants
        cases hgrants with
        | v1 =>
            rw [h.no_remote hflow rfl hx] at hid
            cases hid
        | v2 code fileMap dto hv hcode =>
            obtain ⟨files, rfl, _⟩ := replyOf_ok hreply
            rcases hstage with ⟨id', files', hprepared, hs''⟩ | ⟨_, hno⟩
            · cases hprepared
              exact (hs'' session' hs').2 id hid
            · exact absurd rfl (hno _ _)

/-- **The pin dialog is closed**, while no request is on its way. -/
theorem linked_pin (h : Linked c s) {pin : Option String} {sender : SendSession.State}
    (hs : SendSession.service.step s.sender (.pinEntered c.sessionId pin) = some sender) :
    Linked c { s with sender := sender } := by
  have hsound := SendSession.sound_step h.sound hs
  have halone : ∀ k, k ≠ c.sessionId → sender.view k = .blank := fun k hk =>
    SendSession.blank_step h.sound hs rfl (h.alone k hk)
  simp only [SendSession.service, SendSession.step] at hs
  split at hs
  · rename_i hasking
    have hflow : s.flow c = some .asking := hasking
    cases hs
    obtain ⟨hprepare, hnone⟩ : s.prepare = none ∧ s.receiver.session = none := by
      have hstage := h.stage
      rw [hflow] at hstage
      generalize s.prepare = call at hstage
      cases hstage with
      | asked _ _ _ hs => exact ⟨rfl, hs⟩
      | past _ _ hflow => cases hflow
    have hearly := h.early _ hflow rfl
    rcases SendSession.pinEntered_view s.sender c.sessionId pin with
      ⟨x, submission, hx, _, _, hview⟩ | ⟨x, hview, hx⟩
    · have hflow' : State.flow { s with
          sender := SendSession.pinEntered s.sender c.sessionId pin } c =
          some (.submitting submission) := congrArg SendSession.View.flow hview
      have hsession' := congrArg SendSession.View.session hview
      refine ⟨hsound, SendSession.driven_handshake hflow' rfl, halone, h.served, ?_, h.handlers,
        fun _ _ _ => hearly, h.calls, fun session id hses hid => ?_⟩
      · rw [hflow', hprepare]
        exact .asked _ _ rfl hnone
      · rw [h.no_remote hflow rfl (hsession'.symm.trans hses)] at hid
        cases hid
    · have hflow' : State.flow { s with
          sender := SendSession.pinEntered s.sender c.sessionId pin } c = some .stopped :=
        congrArg SendSession.View.flow hview
      have hsession' := congrArg SendSession.View.session hview
      refine ⟨hsound, SendSession.driven_stopped hflow' fun y hy => ?_, halone, h.served, ?_,
        h.handlers, fun flow hfl hhand => ?_, h.calls, fun session id hses hid => ?_⟩
      · obtain ⟨old, _, rfl⟩ := hx y (hsession'.symm.trans hy)
        rfl
      · rw [hflow', hprepare]
        refine .past .stopped _ rfl fun session hses => ?_
        rw [show s.receiver.session = some session from hses] at hnone
        cases hnone
      · obtain rfl := Option.some.inj (hflow'.symm.trans hfl)
        cases hhand
      · obtain ⟨old, hold, rfl⟩ := hx session (hsession'.symm.trans hses)
        rw [show old.remoteSessionId = none from h.no_remote hflow rfl hold] at hid
        cases hid
  · cases hs

/-! ## 3. Steps of the receiver -/

section Receiver

variable {ev : Receive.Event} {receiver : Receive.State}

/-- Only the prepare-upload handler gives the session its files. -/
theorem Linked.opens_prepare (h : Linked c s)
    (hs : (Receive.controller c.platform).step s.receiver ev = some receiver)
    (hev : ev.opens = true) :
    ∃ r task, ev.request = some r ∧ s.prepare = some r ∧ s.receiver.tasks.get? r = some task ∧
      ((∃ req dto settings, task = .locating req dto settings) ∨
        ∃ req id, task = .deciding req id) := by
  change Receive.step c.platform s.receiver ev = some receiver at hs
  cases ev with
  | createSession r favorites defaultDir cacheDir sessionId tokens =>
      simp only [Receive.step] at hs
      split at hs
      · rename_i req dto settings hr
        rcases h.handlers r _ hr with hcall | hup | ⟨_, hret⟩
        · exact ⟨r, _, rfl, hcall, hr, Or.inl ⟨req, dto, settings, rfl⟩⟩
        · cases hup
        · cases hret
      · cases hs
  | decided r tokens =>
      simp only [Receive.step] at hs
      split at hs
      · rename_i req id selection hr _
        rcases h.handlers r _ hr with hcall | hup | ⟨_, hret⟩
        · exact ⟨r, _, rfl, hcall, hr, Or.inr ⟨req, id, rfl⟩⟩
        · cases hup
        · cases hret
      · cases hs
  | _ => cases hev

/-- The prepare-upload handler is there only during the handshake. -/
theorem Stage.of_call {flow : Option SendSession.Flow} {r : RequestId} {receiver : Receive.State}
    (h : Stage c flow (some r) receiver) :
    ∃ submission task, flow = some (.submitting submission) ∧
      receiver.tasks.get? r = some task ∧ task.upload? = none := by
  cases h with
  | reading submission _ _ req task htask h =>
      rcases h with rfl | ⟨_, _, rfl⟩ <;> exact ⟨submission, _, rfl, htask, rfl⟩
  | deciding submission _ _ task id htask h =>
      refine ⟨submission, task, rfl, htask, ?_⟩
      cases task <;> first | rfl | cases h
  | accepted submission _ _ task id files htask h =>
      rcases h with rfl | rfl <;> exact ⟨submission, _, rfl, htask, rfl⟩
  | refused submission _ _ response htask => exact ⟨submission, _, rfl, htask, rfl⟩

/-- No session comes from nowhere. -/
theorem no_session_step (hs : (Receive.controller c.platform).step s.receiver ev = some receiver)
    (hev : ev.opens = false) (hnone : s.receiver.session = none) : receiver.session = none := by
  cases hses : receiver.session with
  | none => rfl
  | some session' =>
      rcases Receive.step_follows hs hev hses with ⟨session, hold, _⟩ | ⟨_, session, _, _, _, hbegins⟩
      · rw [hnone] at hold
        cases hold
      · cases hnone.symm.trans hbegins.found

/-- The task of the prepare-upload handler after a step. -/
theorem next_prepare (hs : (Receive.controller c.platform).step s.receiver ev = some receiver)
    {r : RequestId} {task : Receive.Task} (hr : s.receiver.tasks.get? r = some task) :
    receiver.tasks.get? r = some task ∨
      ∃ task', receiver.tasks.get? r = some task' ∧ Receive.NextTask s.receiver ev r task' := by
  obtain ⟨task', htask'⟩ := LinkedMap.mem_keys.mp
    (Receive.step_known hs (LinkedMap.mem_keys.mpr ⟨task, hr⟩))
  rcases Receive.step_task hs htask' with hold | hnext
  · exact Or.inl (htask'.trans (hold.symm.trans hr))
  · exact Or.inr ⟨task', htask', hnext⟩

/-- What reading the body leads to. -/
theorem readBody_tasks {r : RequestId} (rs : Receive.State) (req : Receive.PrepareRequest)
    (dto : Option Receive.PrepareUploadRequestDto) (settings : Receive.Settings) :
    ∃ task, (Receive.readBody rs r req dto settings).tasks = rs.tasks.insert r task ∧
      ((∃ d, task = .locating req d settings) ∨ ∃ text, task = .returned (.message 400 text)) := by
  unfold Receive.readBody
  cases dto with
  | none => exact ⟨_, rfl, Or.inr ⟨_, rfl⟩⟩
  | some dto =>
      dsimp only
      split
      · exact ⟨_, rfl, Or.inr ⟨_, rfl⟩⟩
      · exact ⟨_, rfl, Or.inl ⟨_, rfl⟩⟩

/-- **A decision**: the stage it leads to, from a session of the sender. -/
theorem stage_resumed {rs rt : Receive.State} {r : RequestId} {v2 : Bool} {id : String}
    {selection : Option Receive.Selection} {tokens : List String}
    {submission : SendSession.Submission}
    (h : Receive.resumeSelection c.platform rs r v2 id selection tokens = some rt)
    (hs : ∀ session, rs.session = some session →
      session.sessionId = id ∧ session.sender.ip = some c.senderIp) :
    Stage c (some (.submitting submission)) (some r) rt := by
  rcases Receive.resumeSelection_response h with ⟨hnone, response, htasks, hresponse⟩ |
    ⟨session, chosen, task, response, hses, _, _, hsession', rfl, htasks, htask⟩
  · refine .refused submission r rt response ?_ ?_ hnone
    · rw [htasks, LinkedMap.get?_insert_self]
    · rcases hresponse with rfl | ⟨_, _, _, rfl⟩ <;>
        exact fun _ _ h => by cases h
  · obtain ⟨hid, hip⟩ := hs session hses
    refine .accepted submission r rt task _ _ ?_ htask fun session' hs' => ?_
    · rw [htasks, LinkedMap.get?_insert_self]
    · obtain rfl := Option.some.inj (hs'.symm.trans hsession')
      refine ⟨⟨hip, rfl, fun h => by cases h⟩, fun i hi => ?_⟩
      split at hi
      · exact hid.trans (Option.some.inj hi)
      · cases hi

/-- **The session is stored**: the stage it leads to. -/
theorem stage_created {rs rt : Receive.State} {r : RequestId} {req : Receive.PrepareRequest}
    {dto : Receive.PrepareUploadRequestDto} {settings : Receive.Settings}
    {favorites : List Receive.Favorite} {defaultDir cacheDir id : String} {tokens : List String}
    {submission : SendSession.Submission} (hip : req.ip = c.senderIp)
    (h : Receive.createSession c.platform rs r req dto settings favorites defaultDir cacheDir id
      tokens = some rt) :
    Stage c (some (.submitting submission)) (some r) rt := by
  obtain ⟨_, session, hsession, ⟨_, hresume⟩ | ⟨_, hses, _, task, htasks, hid⟩⟩ :=
    Receive.createSession_cases h
  · refine stage_resumed hresume fun x hx => ?_
    obtain rfl := Option.some.inj hx
    rw [hsession, ← hip]
    exact ⟨rfl, rfl⟩
  · refine .deciding submission r rt task id ?_ hid fun x hx => ?_
    · rw [htasks, LinkedMap.get?_insert_self]
    · obtain rfl := Option.some.inj (hses.symm.trans hx)
      rw [hsession]
      exact ⟨rfl, congrArg some hip, rfl, Or.inl rfl⟩

/-- During the handshake, besides what the prepare-upload handler does, a session is only closed,
    cancelled or given another destination. -/
theorem session_handshake (hs : (Receive.controller c.platform).step s.receiver ev = some receiver)
    (hno : Receive.NoUpload s.receiver) (hev : ev.opens = false)
    (hupload : ∀ r req env, ev ≠ .upload r req env) {session' : Receive.ReceiveSessionState}
    (hs' : receiver.session = some session') :
    ∃ session, s.receiver.session = some session ∧ session'.origin = session.origin ∧
      (session'.status = session.status ∨ session'.status = .canceledBySender) := by
  have hafter := Receive.step_session hs
  have hsame : receiver.session = s.receiver.session → ∃ session, s.receiver.session = some session ∧
      session'.origin = session.origin ∧
      (session'.status = session.status ∨ session'.status = .canceledBySender) :=
    fun h => ⟨session', h.symm.trans hs', rfl, Or.inl rfl⟩
  cases ev with
  | createSession _ _ _ _ _ _ | decided _ _ => cases hev
  | upload r req env => exact absurd rfl (hupload r req env)
  | delayedClose _ | closeSession | cancelSession =>
      rw [show receiver.session = none from hafter] at hs'
      cases hs'
  | saved r result env | recorded r result env =>
      obtain ⟨u, hr, _⟩ := hafter
      cases hno.uploads r _ hr
  | cancel r req now =>
      rcases hafter with h | h
      · exact hsame h
      · rw [h] at hs'
        obtain ⟨session, hses, rfl⟩ := Option.map_eq_some_iff.mp hs'
        exact ⟨session, hses, rfl, Or.inr rfl⟩
  | setSessionDestinationDir _ | setSessionSaveToGallery _ =>
      rw [show receiver.session = _ from hafter] at hs'
      obtain ⟨session, hses, rfl⟩ := Option.map_eq_some_iff.mp hs'
      exact ⟨session, hses, rfl, Or.inl rfl⟩
  | _ => exact hsame hafter

/-- **A step of the receiver keeps the stage**, apart from the arrival of the request. -/
theorem stage_step (h : Linked c s)
    (hs : (Receive.controller c.platform).step s.receiver ev = some receiver)
    (hprepare : ∀ r req pin, ev ≠ .prepareUpload r req pin)
    (hupload : ∀ r req env, ev = .upload r req env →
      ∀ flow, s.flow c = some flow → flow.isHandshake = false) :
    Stage c (s.flow c) s.prepare receiver := by
  have hstage := h.stage
  have hopens : ev.opens = true → ∃ r task, ev.request = some r ∧ s.prepare = some r ∧
      s.receiver.tasks.get? r = some task ∧
      ((∃ req dto settings, task = .locating req dto settings) ∨
        ∃ req id, task = .deciding req id) := h.opens_prepare hs
  have hnoUpload : ∀ flow, s.flow c = some flow → flow.isHandshake = true →
      Receive.NoUpload s.receiver ∧ ∀ r req env, ev ≠ .upload r req env := by
    intro flow hflow hhand
    refine ⟨(h.early flow hflow hhand).1, fun r req env he => ?_⟩
    have hover := hupload r req env he flow hflow
    rw [hhand] at hover
    cases hover
  generalize s.flow c = flow, s.prepare = call at hstage hopens hnoUpload ⊢
  cases hstage with
  | asked fl _ hhand hnone =>
      cases hev : ev.opens with
      | true =>
          obtain ⟨_, _, _, hcall, _⟩ := hopens hev
          cases hcall
      | false => exact .asked fl _ hhand (no_session_step hs hev hnone)
  | reading submission r _ req task htask htasks hip hnone =>
      cases hev : ev.opens with
      | true =>
          obtain ⟨q, task', hreq, hcall, hq, hlocating⟩ := hopens hev
          obtain rfl := Option.some.inj hcall
          obtain rfl := Option.some.inj (hq.symm.trans htask)
          rcases htasks with rfl | ⟨dto, settings, rfl⟩
          · rcases hlocating with ⟨_, _, _, hl⟩ | ⟨_, _, hl⟩ <;> cases hl
          · change Receive.step c.platform s.receiver ev = some receiver at hs
            cases ev with
            | createSession _ favorites defaultDir cacheDir sessionId tokens =>
                obtain rfl := Option.some.inj hreq
                simp only [Receive.step, htask] at hs
                exact stage_created hip hs
            | decided _ _ =>
                obtain rfl := Option.some.inj hreq
                simp [Receive.step, htask] at hs
            | _ => cases hev
      | false =>
          have hnone' := no_session_step hs hev hnone
          rcases next_prepare hs htask with hsame | ⟨task', htask', hnext⟩
          · exact .reading submission r receiver req task hsame htasks hip hnone'
          · have hkey : r ∈ s.receiver.tasks.keys := LinkedMap.mem_keys.mpr ⟨_, htask⟩
            cases hnext with
            | prepareUpload => exact absurd rfl (hprepare _ _ _)
            | refused hnew | begun hnew | cancel hnew => exact absurd hkey hnew
            | createSession | decided => cases hev
            | @readBody _ dto settings req' _ hr _ =>
                change Receive.step c.platform s.receiver (.readBody r dto settings) =
                  some receiver at hs
                rw [Receive.step, hr, Option.some.injEq] at hs
                subst hs
                have hreq : req' = req := by
                  rcases htasks with rfl | ⟨_, _, rfl⟩
                  · cases hr.symm.trans htask
                    rfl
                  · cases hr.symm.trans htask
                obtain ⟨new, hnew, hform⟩ := readBody_tasks (r := r) s.receiver req' dto settings
                rw [hnew, LinkedMap.get?_insert_self] at htask'
                obtain rfl := Option.some.inj htask'
                have hget : (Receive.readBody s.receiver r req' dto settings).tasks.get? r =
                    some new := by
                  rw [hnew, LinkedMap.get?_insert_self]
                rcases hform with ⟨d, rfl⟩ | ⟨text, rfl⟩
                · exact .reading submission r _ req' _ hget (Or.inr ⟨d, settings, rfl⟩)
                    (hreq ▸ hip) hnone'
                · exact .refused submission r _ _ hget (fun _ _ h => by cases h) hnone'
            | shown hr | messageRecorded hr | permitted hr | saved hr | recorded hr =>
                rcases htasks with rfl | ⟨_, _, rfl⟩ <;> cases hr.symm.trans htask
  | deciding submission r _ task id htask hid hsession =>
      cases hev : ev.opens with
      | true =>
          obtain ⟨q, task', hreq, hcall, hq, hdeciding⟩ := hopens hev
          obtain rfl := Option.some.inj hcall
          obtain rfl := Option.some.inj (hq.symm.trans htask)
          rcases hdeciding with ⟨_, _, _, rfl⟩ | ⟨req, id', rfl⟩
          · cases hid
          · obtain rfl := Option.some.inj hid
            change Receive.step c.platform s.receiver ev = some receiver at hs
            cases ev with
            | createSession _ favorites defaultDir cacheDir sessionId tokens =>
                obtain rfl := Option.some.inj hreq
                simp [Receive.step, htask] at hs
            | decided _ tokens =>
                obtain rfl := Option.some.inj hreq
                simp only [Receive.step, htask] at hs
                split at hs
                · rename_i selection hd hanswer
                  cases hd
                  exact stage_resumed hs fun x hx =>
                    ⟨(hsession x hx).sessionId, (hsession x hx).sender⟩
                · cases hs
            | _ => cases hev
      | false =>
          obtain ⟨hno, hnotUpload⟩ := hnoUpload _ rfl rfl
          have hsession' : ∀ session, receiver.session = some session →
              Undecided c r id session := by
            intro session' hs'
            obtain ⟨session, hses, horigin, hstatus⟩ := session_handshake hs hno hev hnotUpload hs'
            obtain ⟨hid', hsender, hhandler, hold⟩ := hsession session hses
            simp only [Receive.ReceiveSessionState.origin, Prod.mk.injEq] at horigin
            refine ⟨horigin.1.trans hid', ?_, horigin.2.2.trans hhandler, ?_⟩
            · rw [horigin.2.1]
              exact hsender
            · rcases hstatus with hstatus | hstatus
              · rw [hstatus]
                exact hold
              · exact Or.inr hstatus
          rcases next_prepare hs htask with hsame | ⟨task', htask', hnext⟩
          · exact .deciding submission r receiver task id hsame hid hsession'
          · have hkey : r ∈ s.receiver.tasks.keys := LinkedMap.mem_keys.mpr ⟨_, htask⟩
            have hform : ∀ {old : Receive.Task}, s.receiver.tasks.get? r = some old →
                old.sessionId? = some id := by
              intro old hold
              obtain rfl := Option.some.inj (hold.symm.trans htask)
              exact hid
            cases hnext with
            | prepareUpload => exact absurd rfl (hprepare _ _ _)
            | refused hnew | begun hnew | cancel hnew => exact absurd hkey hnew
            | createSession | decided => cases hev
            | readBody hr | permitted hr | saved hr | recorded hr => cases hform hr
            | shown hr h' =>
                obtain rfl := Option.some.inj (hform hr)
                rcases h' with rfl | rfl <;>
                  exact .deciding submission r receiver _ _ htask' rfl hsession'
            | messageRecorded hr =>
                obtain rfl := Option.some.inj (hform hr)
                exact .deciding submission r receiver _ _ htask' rfl hsession'
  | accepted submission r _ task id files htask htasks hsession =>
      cases hev : ev.opens with
      | true =>
          obtain ⟨q, task', _, hcall, hq, hopening⟩ := hopens hev
          obtain rfl := Option.some.inj hcall
          obtain rfl := Option.some.inj (hq.symm.trans htask)
          rcases hopening with ⟨_, _, _, rfl⟩ | ⟨_, _, rfl⟩ <;>
            rcases htasks with h' | h' <;> cases h'
      | false =>
          obtain ⟨hno, hnotUpload⟩ := hnoUpload _ rfl rfl
          have hsession' : ∀ session, receiver.session = some session →
              Accepted c session ∧ ∀ i, id = some i → session.sessionId = i := by
            intro session' hs'
            obtain ⟨session, hses, horigin, hstatus⟩ := session_handshake hs hno hev hnotUpload hs'
            obtain ⟨haccepted, hid⟩ := hsession session hses
            simp only [Receive.ReceiveSessionState.origin, Prod.mk.injEq] at horigin
            refine ⟨haccepted.follow horigin.2 fun hwaiting => ?_,
              fun i hi => horigin.1.trans (hid i hi)⟩
            rcases hstatus with hstatus | hstatus
            · exact hstatus.symm.trans hwaiting
            · cases hstatus.symm.trans hwaiting
          rcases next_prepare hs htask with hsame | ⟨task', htask', hnext⟩
          · exact .accepted submission r receiver task id files hsame htasks hsession'
          · have hkey : r ∈ s.receiver.tasks.keys := LinkedMap.mem_keys.mpr ⟨_, htask⟩
            have hform : ∀ {old : Receive.Task}, s.receiver.tasks.get? r = some old →
                old = .permitting (.prepared id files) ∨ old = .returned (.prepared id files) := by
              intro old hold
              obtain rfl := Option.some.inj (hold.symm.trans htask)
              exact htasks
            cases hnext with
            | prepareUpload => exact absurd rfl (hprepare _ _ _)
            | refused hnew | begun hnew | cancel hnew => exact absurd hkey hnew
            | createSession | decided => cases hev
            | permitted hr =>
                rcases hform hr with h' | h' <;> cases h'
                exact .accepted submission r receiver _ id files htask' (Or.inr rfl) hsession'
            | readBody hr | shown hr | messageRecorded hr | saved hr | recorded hr =>
                rcases hform hr with h' | h' <;> cases h'
  | refused submission r _ response htask hresponse hnone =>
      cases hev : ev.opens with
      | true =>
          obtain ⟨q, task', _, hcall, hq, hopening⟩ := hopens hev
          obtain rfl := Option.some.inj hcall
          obtain rfl := Option.some.inj (hq.symm.trans htask)
          rcases hopening with ⟨_, _, _, h'⟩ | ⟨_, _, h'⟩ <;> cases h'
      | false =>
          refine .refused submission r receiver response ?_ hresponse (no_session_step hs hev hnone)
          rw [Receive.step_other hs (Receive.step_returned hs htask), htask]
  | past fl _ hhand hsession =>
      cases hev : ev.opens with
      | true =>
          obtain ⟨_, _, _, hcall, _⟩ := hopens hev
          cases hcall
      | false =>
          refine .past fl receiver hhand fun session' hs' => ?_
          rcases Receive.step_follows hs hev hs' with ⟨session, hses, hfollows⟩ |
            ⟨_, session, _, _, _, hbegins⟩
          · have horigin := hfollows.origin
            simp only [Receive.ReceiveSessionState.origin, Prod.mk.injEq] at horigin
            exact (hsession session hses).follow horigin.2 hfollows.waiting
          · obtain rfl := Option.some.inj (hs'.symm.trans hbegins.begun)
            exact (hsession session hbegins.found).follow ⟨rfl, rfl⟩ fun h => by cases h

/-- `checkPin` answers with a message. -/
theorem checkPin_refusal {pinAttempts pinAttempts' : String → Nat} {ip : String}
    {pin requestPin : Option String} {response : Receive.Response}
    (h : Receive.checkPin pinAttempts ip pin requestPin = (pinAttempts', some response)) :
    ∃ code text, response = .message code text := by
  cases pin with
  | none => cases h
  | some pin =>
      simp only [Receive.checkPin] at h
      repeat' split at h
      all_goals first
        | (cases h; exact ⟨_, _, rfl⟩)
        | cases h

/-- **The request arrives.** -/
theorem stage_prepared (h : Linked c s) {submission : SendSession.Submission} {r : RequestId}
    {pin : Option String} (hflow : s.flow c = some (.submitting submission))
    (hcall : s.prepare = none)
    (hs : (Receive.controller c.platform).step s.receiver
      (.prepareUpload r (c.prepareRequest submission) pin) = some receiver) :
    Stage c (s.flow c) (some r) receiver := by
  have hnone : s.receiver.session = none := by
    have hstage := h.stage
    rw [hflow, hcall] at hstage
    cases hstage with
    | asked _ _ _ hs => exact hs
    | past _ _ hhand => cases hhand
  change Receive.step c.platform s.receiver (.prepareUpload r (c.prepareRequest submission) pin) =
    some receiver at hs
  simp only [Receive.step] at hs
  split at hs
  · cases hs
  · cases hs
    rw [hflow]
    unfold Receive.prepareUpload
    rw [hnone]
    dsimp only
    split
    · rename_i pinAttempts response hpin
      obtain ⟨code, text, rfl⟩ := checkPin_refusal hpin
      exact .refused submission r _ _ LinkedMap.get?_insert_self (fun _ _ h => by cases h) rfl
    · exact .reading submission r _ _ _ LinkedMap.get?_insert_self (Or.inl rfl) rfl rfl

theorem Linked.served_step (h : Linked c s)
    (hs : (Receive.controller c.platform).step s.receiver ev = some receiver) :
    Receive.Served receiver := by
  refine Receive.served_step h.served hs fun hopens => ?_
  obtain ⟨r, _, _, hcall, _⟩ := h.opens_prepare hs hopens
  obtain ⟨submission, _, hflow, _⟩ := (hcall ▸ h.stage).of_call
  exact (h.early _ hflow rfl).1

/-- **The handlers after a step of the receiver.** -/
theorem handlers_step (h : Linked c s)
    (hs : (Receive.controller c.platform).step s.receiver ev = some receiver) {r : RequestId}
    {task : Receive.Task} (hr : receiver.tasks.get? r = some task) :
    s.prepare = some r ∨ (∃ req pin, ev = .prepareUpload r req pin) ∨ task.upload?.isSome = true ∨
      ∃ response, task = .returned response := by
  have halive := (h.served_step hs).inside.alive r
  have hmoved : ∀ {old : Receive.Task}, s.receiver.tasks.get? r = some old → old.upload? = none →
      (∀ response, old ≠ .returned response) → s.prepare = some r := by
    intro old hold hup hret
    rcases h.handlers r old hold with hcall | hold' | ⟨response, hold'⟩
    · exact hcall
    · rw [hup] at hold'
      cases hold'
    · exact absurd hold' (hret response)
  rcases Receive.step_task hs hr with hold | hnext
  · rcases h.handlers r task hold with hcall | hother
    · exact Or.inl hcall
    · exact Or.inr (Or.inr hother)
  · cases hnext with
    | prepareUpload => exact Or.inr (Or.inl ⟨_, _, rfl⟩)
    | readBody hold | createSession hold | shown hold | messageRecorded hold | decided hold
    | permitted hold => exact Or.inl (hmoved hold rfl fun _ h => by cases h)
    | refused | cancel => exact Or.inr (Or.inr (Or.inr ⟨_, rfl⟩))
    | begun _ _ h' =>
        rcases h' with ⟨_, rfl⟩ | ⟨_, ⟨text, rfl⟩ | rfl⟩
        · exact Or.inr (Or.inr (Or.inl rfl))
        · exact Or.inr (Or.inr (Or.inr ⟨_, rfl⟩))
        · exact absurd hr halive
    | saved _ h' =>
        rcases h' with ⟨text, rfl⟩ | rfl | ⟨_, rfl⟩
        · exact Or.inr (Or.inr (Or.inr ⟨_, rfl⟩))
        · exact absurd hr halive
        · exact Or.inr (Or.inr (Or.inl rfl))
    | recorded _ h' =>
        rcases h' with ⟨response, rfl⟩ | rfl
        · exact Or.inr (Or.inr (Or.inr ⟨_, rfl⟩))
        · exact absurd hr halive

/-- **The steps of the receiver.** -/
theorem linked_receives (h : Linked c s)
    (hs : (Receive.controller c.platform).step s.receiver ev = some receiver)
    (hsender : t.sender = s.sender) (hreceiver : t.receiver = receiver)
    (hstage : Stage c (s.flow c) t.prepare receiver)
    (hprepare : ∀ r, s.prepare = some r → t.prepare = some r)
    (hnew : ∀ r req pin, ev = .prepareUpload r req pin → t.prepare = some r)
    (hupload : ∀ r req env, ev = .upload r req env →
      ∀ flow, s.flow c = some flow → flow.isHandshake = false)
    (hcalls : ∀ taskId r, t.uploads.get? taskId = some r →
      s.uploads.get? taskId = some r ∨ r ∈ receiver.tasks.keys)
    (hstrays : s.strays = [] → t.strays = []) : Linked c t := by
  subst hreceiver
  have hflow : t.flow c = s.flow c := by
    rw [State.flow, hsender]
    rfl
  refine ⟨hsender ▸ h.sound, hsender ▸ h.driven, hsender ▸ h.alone, h.served_step hs,
    hflow ▸ hstage, fun r task hr => ?_, fun flow hfl hhand => ?_, fun taskId r hr => ?_,
    fun session id hses hid => ?_⟩
  · rcases handlers_step h hs hr with hcall | ⟨req, pin, he⟩ | hother
    · exact Or.inl (hprepare r hcall)
    · exact Or.inl (hnew r req pin he)
    · exact Or.inr hother
  · rw [hflow] at hfl
    obtain ⟨hno, hnil⟩ := h.early flow hfl hhand
    refine ⟨Receive.noUpload_step hno hs fun r req env he => ?_, hstrays hnil⟩
    rw [hupload r req env he flow hfl] at hhand
    cases hhand
  · rcases hcalls taskId r hr with hold | hkey
    · exact Receive.step_known hs (h.calls taskId r hold)
    · exact hkey
  · have hses' : s.session c = some session := by
      rw [← hses, State.session, State.session, hsender]
    obtain ⟨hover, hnamed⟩ := h.remote session id hses' hid
    refine ⟨hflow ▸ hover, fun session' hs' => ?_⟩
    have hopens : ev.opens = false := by
      cases hopens : ev.opens with
      | false => rfl
      | true =>
          obtain ⟨r, _, _, hcall, _⟩ := h.opens_prepare hs hopens
          obtain ⟨submission, _, hsubmitting, _⟩ := (hcall ▸ h.stage).of_call
          cases hover _ hsubmitting
    rcases Receive.step_follows hs hopens hs' with ⟨old, hold, hfollows⟩ |
      ⟨_, old, _, _, _, hbegins⟩
    · have horigin := hfollows.origin
      simp only [Receive.ReceiveSessionState.origin, Prod.mk.injEq] at horigin
      exact horigin.1.trans (hnamed old hold)
    · obtain rfl := Option.some.inj (hs'.symm.trans hbegins.begun)
      exact hnamed old hbegins.found

end Receiver

/-! ## 4. Steps of the network -/

/-- A request that arrives has a handler. -/
theorem upload_known {r : RequestId} {req : Receive.UploadRequest} {env : Receive.UploadEnv}
    {receiver : Receive.State}
    (hs : (Receive.controller c.platform).step s.receiver (.upload r req env) = some receiver) :
    r ∈ receiver.tasks.keys := by
  have hnew : r ∉ s.receiver.tasks.keys := by
    intro hkey
    change Receive.step c.platform s.receiver (.upload r req env) = some receiver at hs
    simp [Receive.step, hkey] at hs
  change Receive.step c.platform s.receiver (.upload r req env) = some receiver at hs
  simp only [Receive.step, hnew, if_false, Option.some.injEq] at hs
  subst hs
  obtain ⟨task, htasks, _⟩ := Receive.startUpload_next hnew req env
  rw [htasks]
  exact LinkedMap.mem_keys.mpr ⟨_, LinkedMap.get?_insert_self⟩

/-- The response of a handler is there once it has returned. -/
theorem response_some {r : RequestId} {response : Receive.Response}
    (h : s.response r = some response) : s.receiver.tasks.get? r = some (.returned response) := by
  unfold State.response at h
  split at h
  · rename_i htask
    rw [htask, Option.some.inj h]
  · cases h

/-- **Every step of the network keeps both ends linked.** -/
theorem linked_step (h : Linked c s) (hs : (network c).step s e = some t) : Linked c t := by
  change step c s e = some t at hs
  cases e with
  | send ev =>
      simp only [step] at hs
      split at hs
      · rename_i hof
        obtain ⟨sender, hsender, rfl⟩ := Option.map_eq_some_iff.mp hs
        cases ev with
        | pinEntered k pin =>
            obtain rfl : k = c.sessionId := by simpa [ofSender] using hof
            exact linked_pin h hsender
        | work k i | loopEnded k now | retry k file | setBackground k b =>
            exact linked_sends h hsender rfl rfl rfl rfl (fun _ _ hr => hr) fun _ _ _ hnil => hnil
        | _ => cases hof
      · cases hs
  | receive ev =>
      simp only [step] at hs
      split at hs
      · rename_i hof
        obtain ⟨receiver, hreceiver, rfl⟩ := Option.map_eq_some_iff.mp hs
        have hprepare : ∀ r req pin, ev ≠ .prepareUpload r req pin := by
          intro r req pin he
          rw [he] at hof
          cases hof
        have hupload : ∀ r req env, ev ≠ .upload r req env := by
          intro r req env he
          rw [he] at hof
          cases hof
        exact linked_receives h hreceiver rfl rfl
          (stage_step h hreceiver hprepare fun r req env he => absurd he (hupload r req env))
          (fun _ hr => hr) (fun r req pin he => absurd he (hprepare r req pin))
          (fun r req env he => absurd he (hupload r req env)) (fun _ _ hr => Or.inl hr) id
      · cases hs
  | prepareArrives r pin =>
      simp only [step] at hs
      split at hs
      · rename_i submission hcall hflow
        obtain ⟨receiver, hreceiver, rfl⟩ := Option.map_eq_some_iff.mp hs
        refine linked_receives h hreceiver rfl rfl (stage_prepared h hflow hcall hreceiver)
          (fun q hq => ?_) (fun q req p he => ?_) (fun _ _ _ h => by cases h)
          (fun _ _ hr => Or.inl hr) id
        · rw [hcall] at hq
          cases hq
        · cases he
          rfl
      · cases hs
  | prepareAnswered now =>
      simp only [step] at hs
      split at hs
      · rename_i response hresponse
        obtain ⟨r, hr, htask⟩ := Option.bind_eq_some_iff.mp hresponse
        obtain ⟨sender, hsender, rfl⟩ := Option.map_eq_some_iff.mp hs
        exact linked_answered h hr (response_some htask) hsender
      · cases hs
  | uploadArrives taskId r env =>
      simp only [step] at hs
      split at hs
      · rename_i u _ hu
        obtain ⟨receiver, hreceiver, rfl⟩ := Option.map_eq_some_iff.mp hs
        have hover := h.upload_over hu
        refine linked_receives h hreceiver rfl rfl
          (stage_step h hreceiver (fun _ _ _ h => by cases h) fun _ _ _ _ => hover)
          (fun _ hr => hr) (fun _ _ _ h => by cases h)
          (fun _ _ _ _ => hover) (fun id q hq => ?_) id
        rw [LinkedMap.get?_insert] at hq
        split at hq
        · obtain rfl := Option.some.inj hq
          exact Or.inr (upload_known hreceiver)
        · exact Or.inl hq
      · cases hs
  | uploadAnswered taskId error now =>
      simp only [step] at hs
      split at hs
      · obtain ⟨sender, hsender, rfl⟩ := Option.map_eq_some_iff.mp hs
        exact linked_sends h hsender rfl rfl rfl rfl (fun _ _ hr => LinkedMap.get?_of_erase hr)
          fun _ _ _ hnil => hnil
      · cases hs
  | uploadAborted taskId error stray now =>
      simp only [step] at hs
      split at hs
      · rename_i u hu
        split at hs
        · obtain ⟨sender, hsender, rfl⟩ := Option.map_eq_some_iff.mp hs
          refine linked_sends h hsender rfl rfl rfl rfl (fun _ _ hr => LinkedMap.get?_of_erase hr)
            fun flow hflow hhand _ => ?_
          rw [h.upload_over hu flow hflow] at hhand
          cases hhand
        · cases hs
      · cases hs
  | strayArrives action r env =>
      simp only [step] at hs
      split at hs
      · rename_i hstray
        obtain ⟨receiver, hreceiver, rfl⟩ := Option.map_eq_some_iff.mp hs
        have hover : ∀ flow, s.flow c = some flow → flow.isHandshake = false := by
          intro flow hflow
          cases hhand : flow.isHandshake with
          | false => rfl
          | true =>
              rw [(h.early flow hflow hhand).2] at hstray
              cases hstray
        refine linked_receives h hreceiver rfl rfl
          (stage_step h hreceiver (fun _ _ _ h => by cases h) fun _ _ _ _ => hover)
          (fun _ hr => hr) (fun _ _ _ h => by cases h)
          (fun _ _ _ _ => hover) (fun _ _ hr => Or.inl hr) fun hnil => ?_
        rw [hnil] at hstray
        cases hstray
      · cases hs
  | cancelSending =>
      simp only [step] at hs
      split at hs
      · obtain ⟨sender, hsender, rfl⟩ := Option.map_eq_some_iff.mp hs
        exact linked_sends h hsender rfl rfl rfl rfl (fun _ _ hr => hr) fun _ _ _ hnil => hnil
      · cases hs
  | cancelArrives r now =>
      simp only [step] at hs
      split at hs
      · obtain ⟨receiver, hreceiver, rfl⟩ := Option.map_eq_some_iff.mp hs
        exact linked_receives h hreceiver rfl rfl
          (stage_step h hreceiver (fun _ _ _ h => by cases h) fun _ _ _ h => by cases h)
          (fun _ hr => hr) (fun _ _ _ h => by cases h) (fun _ _ _ h => by cases h)
          (fun _ _ hr => Or.inl hr) id
      · cases hs
  | cancelReceiving =>
      simp only [step] at hs
      split at hs
      · obtain ⟨receiver, hreceiver, rfl⟩ := Option.map_eq_some_iff.mp hs
        exact linked_receives h hreceiver rfl rfl
          (stage_step h hreceiver (fun _ _ _ h => by cases h) fun _ _ _ h => by cases h)
          (fun _ hr => hr) (fun _ _ _ h => by cases h) (fun _ _ _ h => by cases h)
          (fun _ _ hr => Or.inl hr) id
      · cases hs
  | cancelHeard now =>
      simp only [step] at hs
      split at hs
      · split at hs
        · obtain ⟨sender, hsender, rfl⟩ := Option.map_eq_some_iff.mp hs
          exact linked_sends h hsender rfl rfl rfl rfl (fun _ _ hr => hr) fun _ _ _ hnil => hnil
        · cases hs
          exact ⟨h.sound, h.driven, h.alone, h.served, h.stage, h.handlers, h.early, h.calls,
            h.remote⟩
      · cases hs

/-- **Both ends are linked from the start.** -/
theorem linked_start (h : Started c s) : Linked c s := by
  obtain ⟨files, background, ids, sender, hstart, hkey, rfl⟩ := h
  have hs : SendSession.service.step .initial
    (.startSession c.sessionId c.target files background ids) = some sender := hstart
  have hsound := SendSession.sound_step SendSession.sound_initial hs
  have halone : ∀ k, k ≠ c.sessionId → sender.view k = .blank := by
    intro k hk
    have hturn := SendSession.step_turn SendSession.known_initial hs k
    rcases hturn.of_blank with hblank | ⟨⟨_, _, _, _, he⟩, _⟩
    · exact hblank
    · cases he
      exact absurd rfl hk
  obtain ⟨submission, hflow, hremote⟩ : ∃ submission,
      sender.flows.get? c.sessionId = some (.submitting submission) ∧
      ∀ x, sender.sessions.get? c.sessionId = some x → x.remoteSessionId = none := by
    unfold SendSession.startSession at hstart
    split at hstart
    · dsimp only at hstart
      split at hstart
      · cases hstart
        cases hkey
      · rename_i preview _
        cases hstart
        unfold SendSession.submitRequest
        simp only [SendSession.State.setSession, LinkedMap.get?_insert_self]
        refine ⟨_, LinkedMap.get?_insert_self, fun x hx => ?_⟩
        obtain rfl := Option.some.inj (LinkedMap.get?_insert_self.symm.trans hx)
        rfl
    · cases hstart
  have hflow' : (State.start sender).flow c = some (.submitting submission) := hflow
  refine ⟨hsound, SendSession.driven_handshake hflow rfl, halone, Receive.served_initial, ?_,
    fun r task hr => ?_, fun _ _ _ => ⟨⟨fun r task hr => ?_, rfl⟩, rfl⟩, fun _ _ hr => ?_,
    fun x id hx hid => ?_⟩
  · rw [hflow']
    exact .asked _ _ rfl rfl
  · cases hr
  · cases hr
  · cases hr
  · rw [hremote x hx] at hid
    cases hid

end LocalSend.Transfer
