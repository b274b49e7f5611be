/-
  File:      LocalSend/Transfer/Cancellation.lean
  Subject:   A CANCEL AND WHAT IT CROSSES. Once a user has cancelled and nothing is on its way any
             more, neither end has the session waiting or sending, as long as the cancel does not
             cross a decision.

  The sender knows the id of the session only from the response to prepare-upload. A cancel it
  sends before is without an id, and the receiver takes it only while it waits for its user. The
  receiver, in turn, does not look at the status when its user has decided, and tells the sender
  nothing when its user closes the session without a decision.

  * `uncrossed` -- the steps at which the cancel crosses nothing;
  * `Cut` -- what holds once the sending user has cancelled, `Withdrawn` -- the receiving one;
  * `cancelled_ended` -- **the agreement**; `cancelled_not_ended` -- a cancel that crosses the
    acceptance, after which the receiver sends for ever.
-/
import LocalSend.Transfer.Handshake

namespace LocalSend.Transfer

open Lib
open SendSession (TaskId)
open Receive (RequestId)

variable {c : Ends} {s t : State} {e : Event}

/-! ## 1. Crossings -/

/-- **The cancel crosses nothing at this step**: no session is stored after the cancel request, a
    decision finds the session as it was asked for, a cancel without an id finds no session that
    already sends, and the receiving user cancels after a decision only. -/
def uncrossed (s : State) : Event → Bool
  | .receive (.createSession _ _ _ _ _ _) => s.fromSender ≠ .arrived
  | .receive (.decided r _) =>
    (s.receiver.answers.get? r).all Receive.refused ||
      s.receiver.session.all fun session => session.status = .waiting
  | .cancelArrives _ _ =>
    s.fromSender ≠ .travelling none ||
      s.receiver.session.all fun session => session.status ≠ .sending
  | .cancelReceiving =>
    s.fromSender ≠ .unsent ||
      (s.receiver.session.bind Receive.ReceiveSessionState.responseHandler).all fun r =>
        r ∈ s.receiver.answers.keys
  | _ => true

/-- Neither end has the session waiting or sending. -/
structure Ended (c : Ends) (s : State) : Prop where
  sender : ∀ session, s.session c = some session →
    session.status ≠ .waiting ∧ session.status ≠ .sending
  receiver : ∀ session, s.receiver.session = some session →
    session.status ≠ .waiting ∧ session.status ≠ .sending

/-! ## 2. The sending user -/

/-- **The sending user has cancelled**: the session is closed here; the request that names the
    receiver's session finds that one; once it is there, the receiver's session ends. -/
structure Cut (c : Ends) (s : State) : Prop where
  gone : s.fromSender ≠ .unsent → s.session c = none
  named : ∀ id, s.fromSender = .travelling (some id) →
    (∀ flow, s.flow c = some flow → flow.isHandshake = false) ∧
    ∀ session, s.receiver.session = some session → session.sessionId = id
  ending : s.fromSender = .arrived → Receive.Ending s.receiver

/-- A step of the sender brings no session back, and no handshake. -/
theorem sender_forward (h : Linked c s) {ev : SendSession.Event} {sender : SendSession.State}
    (hs : SendSession.service.step s.sender ev = some sender)
    (hev : ev.starts = false) :
    (s.session c = none → sender.sessions.get? c.sessionId = none) ∧
    ((∀ flow, s.flow c = some flow → flow.isHandshake = false) →
      ∀ flow, sender.flows.get? c.sessionId = some flow → flow.isHandshake = false) := by
  have hturn := SendSession.step_turn h.sound.known hs c.sessionId
  constructor
  · intro hnone
    exact hturn.no_session hev hnone
  · intro hover flow hflow
    obtain ⟨old, hold⟩ := h.stage.flow_some
    obtain ⟨⟨flow', hflow', hhand, _⟩, _⟩ := SendSession.later_turn hturn hold (hover old hold)
    obtain rfl := Option.some.inj (hflow'.symm.trans hflow)
    exact hhand

/-- **The steps of the sender.** -/
theorem cut_sends (h : Linked c s) (hC : Cut c s) {ev : SendSession.Event}
    {sender : SendSession.State} (hs : SendSession.service.step s.sender ev = some sender)
    (hev : ev.starts = false) (hsender : t.sender = sender) (hreceiver : t.receiver = s.receiver)
    (hnotice : t.fromSender = s.fromSender) : Cut c t := by
  obtain ⟨hgone, hover⟩ := sender_forward h hs hev
  subst hsender
  refine ⟨fun hsent => hgone (hC.gone (hnotice ▸ hsent)), fun id hid => ?_, fun hthere => ?_⟩
  · obtain ⟨hover', hnamed⟩ := hC.named id (hnotice ▸ hid)
    exact ⟨hover hover', hreceiver ▸ hnamed⟩
  · exact hreceiver ▸ hC.ending (hnotice ▸ hthere)

/-- Past the handshake the receiver's session keeps its id. -/
theorem sessionId_kept (h : Linked c s) {ev : Receive.Event} {receiver : Receive.State}
    (hs : (Receive.controller c.platform).step s.receiver ev = some receiver)
    (hover : ∀ flow, s.flow c = some flow → flow.isHandshake = false) {id : String}
    (hid : ∀ session, s.receiver.session = some session → session.sessionId = id) :
    ∀ session, receiver.session = some session → session.sessionId = id := by
  intro session' hs'
  have hopens : ev.opens = false := by
    cases hopens : ev.opens with
    | false => rfl
    | true =>
        obtain ⟨r, _, _, hcall, _⟩ := h.opens_prepare hs hopens
        obtain ⟨submission, _, hsubmitting, _⟩ := (hcall ▸ h.stage).of_call
        cases hover _ hsubmitting
  rcases Receive.step_follows hs hopens hs' with ⟨old, hold, hfollows⟩ |
    ⟨_, old, _, _, _, hbegins⟩
  · have horigin := hfollows.origin
    simp only [Receive.ReceiveSessionState.origin, Prod.mk.injEq] at horigin
    exact horigin.1.trans (hid old hold)
  · obtain rfl := Option.some.inj (hs'.symm.trans hbegins.begun)
    exact hid old hbegins.found

/-- **The steps of the receiver**: once the cancel request is there, they store nothing and accept
    nothing. -/
theorem cut_receives (h : Linked c s) (hC : Cut c s) {ev : Receive.Event}
    {receiver : Receive.State}
    (hs : (Receive.controller c.platform).step s.receiver ev = some receiver)
    (hopens : s.fromSender = .arrived → ev.opens = true → receiver.session = none)
    (hsender : t.sender = s.sender) (hreceiver : t.receiver = receiver)
    (hnotice : t.fromSender = s.fromSender) : Cut c t := by
  subst hreceiver
  have hflow : t.flow c = s.flow c := by
    rw [State.flow, hsender]
    rfl
  refine ⟨fun hsent => ?_, fun id hid => ?_, fun hthere => ?_⟩
  · rw [State.session, hsender]
    exact hC.gone (hnotice ▸ hsent)
  · obtain ⟨hover, hnamed⟩ := hC.named id (hnotice ▸ hid)
    exact ⟨hflow ▸ hover, sessionId_kept h hs hover hnamed⟩
  · rw [hnotice] at hthere
    exact Receive.ending_step h.served (hC.ending hthere) hs (hopens hthere)

/-- Once the cancel request is there, a decision closes the session or finds none. -/
theorem decided_closed (hC : Cut c s) (hthere : s.fromSender = .arrived) {r : RequestId}
    {tokens : List String} {receiver : Receive.State}
    (hs : (Receive.controller c.platform).step s.receiver (.decided r tokens) = some receiver)
    (hG : uncrossed s (.receive (.decided r tokens)) = true) : receiver.session = none := by
  change Receive.step c.platform s.receiver (.decided r tokens) = some receiver at hs
  simp only [Receive.step] at hs
  split at hs
  · rename_i req id selection _ hanswer
    rcases (Receive.resumeSelection_cases hs).2.2 with ⟨_, hnone⟩ | ⟨_, hnone⟩ |
      ⟨session, chosen, hses, _, hno, _⟩
    · exact hnone
    · exact hnone
    · simp only [uncrossed, hanswer, Option.all_some, hno, hses, Bool.false_or,
        decide_eq_true_eq] at hG
      exact absurd hG (hC.ending hthere session hses).1
  · cases hs

/-- **The sending user cancels**: the request names the session as far as the sender knows it. -/
theorem cut_sending (h : Linked c s) {session : SendSession.SendSessionState}
    (hses : s.session c = some session) {sender : SendSession.State}
    (hs : SendSession.service.step s.sender (.cancelSession c.sessionId) = some sender)
    (hsender : t.sender = sender) (hreceiver : t.receiver = s.receiver)
    (hnotice : t.fromSender = .travelling session.remoteSessionId) : Cut c t := by
  obtain ⟨_, hover⟩ := sender_forward h hs rfl
  subst hsender
  refine ⟨fun _ => ?_, fun id hid => ?_, fun hthere => ?_⟩
  · have hget : s.sender.sessions.get? c.sessionId = some session := hses
    simp only [SendSession.service, SendSession.step, SendSession.cancelSession, hget,
      Option.some.injEq] at hs
    rw [State.session, ← hs]
    simp [SendSession.State.closeSession, LinkedMap.get?_erase]
  · have hremote := Notice.travelling.inj (hnotice.symm.trans hid)
    obtain ⟨hover', hnamed⟩ := h.remote session id hses hremote
    exact ⟨hover hover', hreceiver ▸ hnamed⟩
  · cases hnotice.symm.trans hthere

/-- The session of the receiver comes from the sender. -/
theorem Stage.sender_ip {flow : Option SendSession.Flow} {call : Option RequestId}
    {receiver : Receive.State} (h : Stage c flow call receiver)
    {session : Receive.ReceiveSessionState} (hs : receiver.session = some session) :
    session.sender.ip = some c.senderIp := by
  cases h with
  | asked _ _ _ hnone | reading _ _ _ _ _ _ _ _ hnone | refused _ _ _ _ _ _ hnone =>
      rw [hs] at hnone
      cases hnone
  | deciding _ _ _ _ _ _ _ hsession => exact (hsession session hs).sender
  | accepted _ _ _ _ _ _ _ _ hsession => exact (hsession session hs).1.sender
  | past _ _ _ hsession => exact (hsession session hs).sender

/-- What the handler of a cancel request does to a session of its sender. -/
theorem cancelHandler_cases {rs : Receive.State} {session : Receive.ReceiveSessionState}
    (r : RequestId) (req : Receive.CancelRequest) (now : Int) (hs : rs.session = some session)
    (hip : session.sender.ip = some req.ip) (hv2 : req.v2 = true) :
    (Receive.cancelHandler rs r req now).session = some (session.cancelBySender now) ∨
    (Receive.cancelHandler rs r req now).session = some session ∧ session.status ≠ .waiting ∧
      (req.sessionId ≠ some session.sessionId ∨ session.status ≠ .sending) := by
  simp only [Receive.cancelHandler, hs, hv2, hip]
  by_cases hw : session.status = .waiting
  · left
    simp [hw, Receive.State.setTask]
  · by_cases hid : req.sessionId = some session.sessionId
    · by_cases hsend : session.status = .sending
      · left
        simp [hid, hsend, Receive.State.setTask]
      · right
        simp [hw, hid, hsend, hs, Receive.State.setTask, Receive.State.respond]
    · right
      simp [hw, hid, hs, Receive.State.setTask, Receive.State.respond]

/-- **The cancel request arrives.** -/
theorem ending_cancelled (h : Linked c s) (hv2 : c.v2 = true) {r : RequestId} {now : Int}
    {id : Option String} {receiver : Receive.State}
    (hs : (Receive.controller c.platform).step s.receiver
      (.cancel r ⟨c.senderIp, c.v2, id⟩ now) = some receiver)
    (hid : ∀ i, id = some i → ∀ session, s.receiver.session = some session →
      session.sessionId = i)
    (hnone : id = none → ∀ session, s.receiver.session = some session →
      session.status ≠ .sending) : Receive.Ending receiver := by
  simp only [Receive.controller, Receive.step] at hs
  split at hs
  · cases hs
  · cases hs
    intro session' hs'
    cases hses : s.receiver.session with
    | none =>
        simp only [Receive.cancelHandler, hses] at hs'
        cases hs'
    | some session =>
        rcases cancelHandler_cases r ⟨c.senderIp, c.v2, id⟩ now hses (h.stage.sender_ip hses) hv2
          with hcancelled | ⟨hkept, hw, hreason⟩
        · obtain rfl := Option.some.inj (hs'.symm.trans hcancelled)
          exact ⟨fun h => (by cases h), fun h => by cases h⟩
        · obtain rfl := Option.some.inj (hs'.symm.trans hkept)
          refine ⟨hw, fun hsending => ?_⟩
          rcases hreason with hother | hnot
          · cases id with
            | none => exact absurd hsending (hnone rfl session' hses)
            | some i => exact absurd (congrArg some (hid i rfl session' hses)).symm hother
          · exact absurd hsending hnot

/-! ## 3. The receiving user -/

/-- A prepare-upload handler whose session is gone: it has stored one and got past the pin, and
    is not left waiting for its user while the sender waits for it. -/
structure Leaving (c : Ends) (s : State) (r : RequestId) (task : Receive.Task) : Prop where
  stored : task.beforeStore = false
  pin : ∀ text, task ≠ .permitting (.message 401 text) ∧ task ≠ .returned (.message 401 text)
  answered : s.session c = none ∨
    ∀ id, task.sessionId? = some id → r ∈ s.receiver.answers.keys

/-- **The receiving user has cancelled.** -/
structure Withdrawn (c : Ends) (s : State) : Prop where
  gone : s.fromReceiver ≠ .unsent → s.receiver.session = none
  leaving : s.fromReceiver ≠ .unsent → ∀ flow, s.flow c = some flow → flow.isHandshake = true →
    ∃ r task, s.prepare = some r ∧ s.receiver.tasks.get? r = some task ∧ Leaving c s r task

/-- A step of the receiver that finds no session leaves none, once the handler of the request has
    stored one. -/
theorem still_gone (h : Linked c s) {ev : Receive.Event} {receiver : Receive.State}
    (hs : (Receive.controller c.platform).step s.receiver ev = some receiver)
    (hnone : s.receiver.session = none)
    (hstored : ∀ r task, s.prepare = some r → s.receiver.tasks.get? r = some task →
      task.beforeStore = false) : receiver.session = none := by
  cases hopens : ev.opens with
  | false => exact no_session_step hs hopens hnone
  | true =>
      obtain ⟨r, task, hreq, hcall, hr, hform⟩ := h.opens_prepare hs hopens
      have hlater := hstored r task hcall hr
      rcases hform with ⟨_, _, _, rfl⟩ | ⟨req, id, rfl⟩
      · cases hlater
      · change Receive.step c.platform s.receiver ev = some receiver at hs
        cases ev with
        | decided q tokens =>
            simp only [Receive.step] at hs
            split at hs
            · rcases (Receive.resumeSelection_cases hs).2.2 with ⟨_, h'⟩ | ⟨_, h'⟩ |
                ⟨session, _, hses, _⟩
              · exact h'
              · exact h'
              · cases hnone.symm.trans hses
            · cases hs
        | createSession q favorites defaultDir cacheDir sessionId tokens =>
            obtain rfl := Option.some.inj hreq
            simp [Receive.step, hr] at hs
        | _ => cases hopens

/-- The answers of the user stay. -/
theorem answers_kept {ev : Receive.Event} {receiver : Receive.State}
    (hs : (Receive.controller c.platform).step s.receiver ev = some receiver) {r : RequestId}
    (hr : r ∈ s.receiver.answers.keys) : r ∈ receiver.answers.keys := by
  rcases Receive.step_answers hs with hsame | ⟨q, selection, ⟨_, hinsert, _⟩, _⟩
  · rw [hsame]
    exact hr
  · obtain ⟨answer, hanswer⟩ := LinkedMap.mem_keys.mp hr
    rw [hinsert]
    refine LinkedMap.mem_keys.mpr ?_
    by_cases hq : r = q
    · exact ⟨selection, hq ▸ LinkedMap.get?_insert_self⟩
    · exact ⟨answer, by rw [LinkedMap.get?_insert_ne hq, hanswer]⟩

/-- **The handler of the request goes on**, with its session gone. -/
theorem leaving_step (h : Linked c s) {ev : Receive.Event} {receiver : Receive.State}
    (hs : (Receive.controller c.platform).step s.receiver ev = some receiver)
    (hprepare : ∀ r req pin, ev ≠ .prepareUpload r req pin) (hnone : s.receiver.session = none)
    {r : RequestId} {task : Receive.Task} (hcall : s.prepare = some r)
    (hr : s.receiver.tasks.get? r = some task)
    (hL : Leaving c s r task) (hsender : t.sender = s.sender) (hreceiver : t.receiver = receiver) :
    ∃ task', t.receiver.tasks.get? r = some task' ∧ Leaving c t r task' := by
  subst hreceiver
  have hanswered : ∀ {task' : Receive.Task},
      (∀ id, task'.sessionId? = some id → ∃ id', task.sessionId? = some id') →
      t.session c = none ∨ ∀ id, task'.sessionId? = some id → r ∈ t.receiver.answers.keys := by
    intro task' hid
    rcases hL.answered with hgone | hanswers
    · left
      rw [State.session, hsender]
      exact hgone
    · right
      intro id hid'
      obtain ⟨id', hold⟩ := hid id hid'
      exact answers_kept hs (hanswers id' hold)
  have hkey : r ∈ s.receiver.tasks.keys := LinkedMap.mem_keys.mpr ⟨_, hr⟩
  rcases next_prepare hs hr with hsame | ⟨task', htask', hnext⟩
  · exact ⟨task, hsame, hL.stored, hL.pin, hanswered fun id hid => ⟨id, hid⟩⟩
  · refine ⟨task', htask', ?_⟩
    have hold : ∀ {old : Receive.Task}, s.receiver.tasks.get? r = some old → old = task :=
      fun h' => Option.some.inj (h'.symm.trans hr)
    cases hnext with
    | prepareUpload => exact absurd rfl (hprepare _ _ _)
    | refused hnew | begun hnew | cancel hnew => exact absurd hkey hnew
    | readBody hq | createSession hq =>
        have hstored := hL.stored
        rw [← hold hq] at hstored
        cases hstored
    | @shown _ req sessionId _ hq h' =>
        have hform : ∀ id, (Receive.Task.showing req sessionId).sessionId? = some id →
            ∃ id', task.sessionId? = some id' := fun id _ => ⟨sessionId, by rw [← hold hq]; rfl⟩
        rcases h' with rfl | rfl <;>
          exact ⟨rfl, fun _ => ⟨fun h => (by cases h), fun h => by cases h⟩, hanswered hform⟩
    | @messageRecorded _ req sessionId hq =>
        refine ⟨rfl, fun _ => ⟨fun h => (by cases h), fun h => by cases h⟩,
          hanswered fun id _ => ⟨sessionId, ?_⟩⟩
        rw [← hold hq]
        rfl
    | decided hq =>
        simp only [Receive.controller, Receive.step, hq] at hs
        split at hs
        · rename_i hdeciding _
          cases hdeciding
          rcases Receive.resumeSelection_response hs with ⟨_, response, htasks, hresponse⟩ |
            ⟨session, _, _, _, hses, _⟩
          · rw [htasks, LinkedMap.get?_insert_self] at htask'
            obtain rfl := Option.some.inj htask'
            refine ⟨rfl, fun text => ⟨fun h => (by cases h), fun h' => ?_⟩,
              Or.inr fun _ h => by cases h⟩
            rcases hresponse with rfl | ⟨code, _, hcode, rfl⟩
            · cases h'
            · cases h'
              exact hcode rfl
          · cases hnone.symm.trans hses
        · cases hs
    | permitted hq =>
        have hpin := hL.pin
        rw [← hold hq] at hpin
        refine ⟨rfl, fun text => ⟨fun h => (by cases h), fun h' => (hpin text).1 ?_⟩,
          Or.inr fun _ h => by cases h⟩
        cases h'
        rfl
    | saved hq | recorded hq =>
        -- the handler of the request is no upload
        obtain ⟨_, old, _, hr', hup⟩ := (hcall ▸ h.stage).of_call
        obtain rfl := Option.some.inj (hr'.symm.trans hq)
        cases hup

/-- **The steps of the sender that leave its request alone.** -/
theorem withdrawn_sends (h : Linked c s) (hW : Withdrawn c s) {ev : SendSession.Event}
    {sender : SendSession.State} (hs : SendSession.service.step s.sender ev = some sender)
    (hev : ev.steers = false) (hsender : t.sender = sender) (hreceiver : t.receiver = s.receiver)
    (hprepare : t.prepare = s.prepare)
    (hnotice : t.fromReceiver ≠ .unsent → s.fromReceiver ≠ .unsent) : Withdrawn c t := by
  subst hsender
  refine ⟨fun hsent => hreceiver ▸ hW.gone (hnotice hsent), fun hsent flow hflow hhand => ?_⟩
  obtain ⟨old, hold⟩ := h.stage.flow_some
  obtain ⟨_, ⟨flow', hflow', hmove⟩, hsession⟩ :=
    SendSession.unsteered_step h.sound h.driven hs hev hold
  obtain rfl := Option.some.inj (hflow'.symm.trans hflow)
  rcases hmove with rfl | ⟨_, hover⟩
  · obtain ⟨r, task, hcall, hr, hL⟩ := hW.leaving (hnotice hsent) _ hold hhand
    refine ⟨r, task, hprepare.trans hcall, hreceiver ▸ hr, hL.stored, hL.pin, ?_⟩
    rcases hL.answered with hgone | hanswers
    · left
      cases hses : t.session c with
      | none => rfl
      | some y =>
          obtain ⟨x, hx, _⟩ := hsession y hses
          cases hgone.symm.trans hx
    · exact Or.inr (hreceiver ▸ hanswers)
  · rw [hover] at hhand
    cases hhand

/-- **The steps of the receiver.** -/
theorem withdrawn_receives (h : Linked c s) (hW : Withdrawn c s) {ev : Receive.Event}
    {receiver : Receive.State}
    (hs : (Receive.controller c.platform).step s.receiver ev = some receiver)
    (hev : ∀ r req pin, ev ≠ .prepareUpload r req pin) (hsender : t.sender = s.sender)
    (hreceiver : t.receiver = receiver) (hprepare : t.prepare = s.prepare)
    (hnotice : t.fromReceiver = s.fromReceiver) : Withdrawn c t := by
  have hflow : t.flow c = s.flow c := by
    rw [State.flow, hsender]
    rfl
  refine ⟨fun hsent => ?_, fun hsent flow hfl hhand => ?_⟩
  · rw [hnotice] at hsent
    rw [hreceiver]
    refine still_gone h hs (hW.gone hsent) fun r task hcall hr => ?_
    obtain ⟨submission, _, hsubmitting, _⟩ := (hcall ▸ h.stage).of_call
    obtain ⟨q, task', hcall', hq, hL⟩ := hW.leaving hsent _ hsubmitting rfl
    obtain rfl := Option.some.inj (hcall.symm.trans hcall')
    obtain rfl := Option.some.inj (hr.symm.trans hq)
    exact hL.stored
  · rw [hnotice] at hsent
    obtain ⟨r, task, hcall, hr, hL⟩ := hW.leaving hsent flow (hflow ▸ hfl) hhand
    obtain ⟨task', hr', hL'⟩ := leaving_step h hs hev (hW.gone hsent) hcall hr hL hsender hreceiver
    exact ⟨r, task', hprepare.trans hcall, hr', hL'⟩

/-- No request of the sender is on its way without a handler, and no pin is asked for. -/
theorem Withdrawn.called (hW : Withdrawn c s) (h : Linked c s) (hsent : s.fromReceiver ≠ .unsent)
    {flow : SendSession.Flow} (hflow : s.flow c = some flow) (hhand : flow.isHandshake = true) :
    ∃ r submission, s.prepare = some r ∧ flow = .submitting submission := by
  obtain ⟨r, _, hcall, _⟩ := hW.leaving hsent flow hflow hhand
  obtain ⟨submission, _, hsubmitting, _⟩ := (hcall ▸ h.stage).of_call
  exact ⟨r, submission, hcall, Option.some.inj (hflow.symm.trans hsubmitting)⟩

/-- Nothing is to be shown before the receiving user cancels. -/
theorem withdrawn_unsent (h : s.fromReceiver = .unsent) : Withdrawn c s :=
  ⟨fun hsent => absurd h hsent, fun hsent => absurd h hsent⟩

/-- The sender is asked for the pin only before. -/
theorem withdrawn_pin (h : Linked c s) (hW : Withdrawn c s) {pin : Option String}
    {sender : SendSession.State}
    (hs : SendSession.service.step s.sender (.pinEntered c.sessionId pin) = some sender) :
    s.fromReceiver = .unsent := by
  by_contra hsent
  simp only [SendSession.service, SendSession.step] at hs
  split at hs
  · rename_i hasking
    obtain ⟨_, _, _, hsubmitting⟩ := hW.called h hsent hasking rfl
    cases hsubmitting
  · cases hs

/-- **The response reaches the sender**: its handshake is over. -/
theorem withdrawn_answered (h : Linked c s) (hW : Withdrawn c s) {r : RequestId}
    {response : Receive.Response} {now : Int} {sender : SendSession.State}
    (hr : s.prepare = some r) (hresponse : s.receiver.tasks.get? r = some (.returned response))
    (hs : SendSession.service.step s.sender (.submitted c.sessionId (replyOf response) now) =
      some sender) : Withdrawn c { s with prepare := none, sender := sender } := by
  refine ⟨hW.gone, fun hsent flow hflow hhand => ?_⟩
  obtain ⟨submission, _, hsubmitting, _⟩ := (hr ▸ h.stage).of_call
  obtain ⟨q, task, hcall, hq, hL⟩ := hW.leaving hsent _ hsubmitting rfl
  obtain rfl := Option.some.inj (hr.symm.trans hcall)
  obtain rfl := Option.some.inj (hresponse.symm.trans hq)
  have houtcome := answered_outcome hsubmitting hs
  generalize hw : sender.view c.sessionId = w at houtcome
  have hwflow : w.flow = some flow := (congrArg SendSession.View.flow hw).symm.trans hflow
  cases houtcome with
  | asked e hreply =>
      obtain ⟨text, rfl⟩ := replyOf_statusCode hreply
      exact absurd rfl (hL.pin text).2
  | ended | opened =>
      obtain rfl := Option.some.inj hwflow
      cases hhand

/-- **The receiving user cancels**, after a decision or after the sending user. -/
theorem withdrawn_cancelling (h : Linked c s) (hC : Cut c s) {receiver : Receive.State}
    (hs : (Receive.controller c.platform).step s.receiver .cancelSession = some receiver)
    {session : Receive.ReceiveSessionState} (hses : s.receiver.session = some session)
    (hG : uncrossed s .cancelReceiving = true) (hsender : t.sender = s.sender)
    (hreceiver : t.receiver = receiver) (hprepare : t.prepare = s.prepare) : Withdrawn c t := by
  obtain rfl : s.receiver.closeSession = receiver := Option.some.inj hs
  have htasks : t.receiver.tasks = s.receiver.tasks := by rw [hreceiver]; rfl
  have hanswers : t.receiver.answers = s.receiver.answers := by rw [hreceiver]; rfl
  have hsession : t.session c = s.session c := by rw [State.session, hsender]; rfl
  refine ⟨fun _ => by rw [hreceiver]; rfl, fun _ flow hfl hhand => ?_⟩
  have hfl' : s.flow c = some flow := by rw [← hfl, State.flow, State.flow, hsender]
  have hstage := h.stage
  rw [hfl'] at hstage
  generalize hcall : s.prepare = call at hstage
  cases hstage with
  | asked _ _ _ hnone | reading _ _ _ _ _ _ _ _ hnone | refused _ _ _ _ _ _ hnone =>
      cases hnone.symm.trans hses
  | past _ _ hover =>
      rw [hover] at hhand
      cases hhand
  | deciding submission r _ task id htask hid hform =>
      refine ⟨r, task, hprepare.trans hcall, htasks ▸ htask, ?_, fun text => ?_, ?_⟩
      · cases task <;> first | rfl | cases hid
      · cases task <;> first | (cases hid; done) |
          exact ⟨fun h => (by cases h), fun h => by cases h⟩
      · rw [hsession, hanswers]
        simp only [uncrossed, hses, Option.bind_some, (hform session hses).handler,
          Option.all_some, Bool.or_eq_true, decide_eq_true_eq] at hG
        rcases hG with hsent | hanswered
        · exact Or.inl (hC.gone hsent)
        · exact Or.inr fun _ _ => hanswered
  | accepted submission r _ task id files htask hform =>
      refine ⟨r, task, hprepare.trans hcall, htasks ▸ htask, ?_, fun text => ?_,
        Or.inr fun i hi => ?_⟩
      · rcases hform with rfl | rfl <;> rfl
      · rcases hform with rfl | rfl <;>
          exact ⟨fun h => (by cases h), fun h => by cases h⟩
      · rcases hform with rfl | rfl <;> cases hi

/-! ## 4. Runs -/

/-- **What holds whoever has cancelled.** -/
structure Cancelling (c : Ends) (s : State) : Prop where
  linked : Linked c s
  cut : Cut c s
  withdrawn : Withdrawn c s

theorem cancelling_start (h : Started c s) : Cancelling c s := by
  have hlinked := linked_start h
  obtain ⟨_, _, _, sender, _, _, rfl⟩ := h
  exact ⟨hlinked, ⟨fun h => absurd rfl h, fun _ h => (by cases h), fun h => by cases h⟩,
    withdrawn_unsent rfl⟩

/-- **A step that crosses nothing.** -/
theorem cancelling_step (h : Cancelling c s) (hv2 : c.v2 = true) (hG : uncrossed s e = true)
    (hs : (network c).step s e = some t) : Cancelling c t := by
  obtain ⟨hL, hC, hW⟩ := h
  suffices h : Cut c t ∧ Withdrawn c t from ⟨linked_step hL hs, h.1, h.2⟩
  change step c s e = some t at hs
  cases e with
  | send ev =>
      simp only [step] at hs
      split at hs
      · rename_i hof
        obtain ⟨sender, hsender, rfl⟩ := Option.map_eq_some_iff.mp hs
        cases ev with
        | pinEntered k pin =>
            obtain rfl : k = c.sessionId := by simpa [ofSender] using hof
            have hunsent := withdrawn_pin hL hW hsender
            exact ⟨cut_sends hL hC hsender rfl rfl rfl rfl, withdrawn_unsent hunsent⟩
        | work k i | loopEnded k now | retry k file | setBackground k b =>
            exact ⟨cut_sends hL hC hsender rfl rfl rfl rfl,
              withdrawn_sends hL hW hsender rfl rfl rfl rfl id⟩
        | _ => cases hof
      · cases hs
  | receive ev =>
      simp only [step] at hs
      split at hs
      · rename_i hof
        obtain ⟨receiver, hreceiver, rfl⟩ := Option.map_eq_some_iff.mp hs
        refine ⟨cut_receives hL hC hreceiver (fun hthere hopens => ?_) rfl rfl rfl,
          withdrawn_receives hL hW hreceiver (fun r req pin he => ?_) rfl rfl rfl rfl⟩
        · cases ev with
          | createSession r favorites defaultDir cacheDir sessionId tokens =>
              simp [uncrossed, hthere] at hG
          | decided r tokens => exact decided_closed hC hthere hreceiver hG
          | _ => cases hopens
        · rw [he] at hof
          cases hof
      · cases hs
  | prepareArrives r pin =>
      simp only [step] at hs
      split at hs
      · rename_i submission hcall hflow
        obtain ⟨receiver, hreceiver, rfl⟩ := Option.map_eq_some_iff.mp hs
        refine ⟨cut_receives hL hC hreceiver (fun _ h => by cases h) rfl rfl rfl,
          withdrawn_unsent ?_⟩
        by_contra hsent
        obtain ⟨_, _, hcalled, _⟩ := hW.called hL hsent hflow rfl
        cases hcall.symm.trans hcalled
      · cases hs
  | prepareAnswered now =>
      simp only [step] at hs
      split at hs
      · rename_i response hresponse
        obtain ⟨r, hr, htask⟩ := Option.bind_eq_some_iff.mp hresponse
        obtain ⟨sender, hsender, rfl⟩ := Option.map_eq_some_iff.mp hs
        exact ⟨cut_sends hL hC hsender rfl rfl rfl rfl,
          withdrawn_answered hL hW hr (response_some htask) hsender⟩
      · cases hs
  | uploadArrives taskId r env =>
      simp only [step] at hs
      split at hs
      · obtain ⟨receiver, hreceiver, rfl⟩ := Option.map_eq_some_iff.mp hs
        exact ⟨cut_receives hL hC hreceiver (fun _ h => by cases h) rfl rfl rfl,
          withdrawn_receives hL hW hreceiver (fun _ _ _ h => by cases h) rfl rfl rfl rfl⟩
      · cases hs
  | uploadAnswered taskId error now =>
      simp only [step] at hs
      split at hs
      · obtain ⟨sender, hsender, rfl⟩ := Option.map_eq_some_iff.mp hs
        exact ⟨cut_sends hL hC hsender rfl rfl rfl rfl,
          withdrawn_sends hL hW hsender rfl rfl rfl rfl id⟩
      · cases hs
  | uploadAborted taskId error stray now =>
      simp only [step] at hs
      split at hs
      · split at hs
        · obtain ⟨sender, hsender, rfl⟩ := Option.map_eq_some_iff.mp hs
          exact ⟨cut_sends hL hC hsender rfl rfl rfl rfl,
            withdrawn_sends hL hW hsender rfl rfl rfl rfl id⟩
        · cases hs
      · cases hs
  | strayArrives action r env =>
      simp only [step] at hs
      split at hs
      · obtain ⟨receiver, hreceiver, rfl⟩ := Option.map_eq_some_iff.mp hs
        exact ⟨cut_receives hL hC hreceiver (fun _ h => by cases h) rfl rfl rfl,
          withdrawn_receives hL hW hreceiver (fun _ _ _ h => by cases h) rfl rfl rfl rfl⟩
      · cases hs
  | cancelSending =>
      simp only [step] at hs
      split at hs
      · rename_i session hses
        obtain ⟨sender, hsender, rfl⟩ := Option.map_eq_some_iff.mp hs
        refine ⟨cut_sending hL hses hsender rfl rfl rfl,
          withdrawn_sends hL hW hsender rfl rfl rfl rfl id⟩
      · cases hs
  | cancelArrives r now =>
      simp only [step] at hs
      split at hs
      · rename_i id hnotice
        obtain ⟨receiver, hreceiver, rfl⟩ := Option.map_eq_some_iff.mp hs
        refine ⟨⟨fun _ => ?_, fun _ h => (by cases h), fun _ => ?_⟩,
          withdrawn_receives hL hW hreceiver (fun _ _ _ h => by cases h) rfl rfl rfl rfl⟩
        · exact hC.gone (by rw [hnotice]; exact fun h => by cases h)
        · refine ending_cancelled hL hv2 hreceiver (fun i hi => ?_) fun hnone session hses => ?_
          · exact (hC.named i (hi ▸ hnotice)).2
          · subst hnone
            simpa [uncrossed, hnotice, hses] using hG
      · cases hs
  | cancelReceiving =>
      simp only [step] at hs
      split at hs
      · rename_i session hses
        obtain ⟨receiver, hreceiver, rfl⟩ := Option.map_eq_some_iff.mp hs
        exact ⟨cut_receives hL hC hreceiver (fun _ h => by cases h) rfl rfl rfl,
          withdrawn_cancelling hL hC hreceiver hses hG rfl rfl rfl⟩
      · cases hs
  | cancelHeard now =>
      simp only [step] at hs
      split at hs
      · rename_i id hnotice
        have hsent : s.fromReceiver ≠ .unsent := by
          rw [hnotice]
          exact fun h => by cases h
        split at hs
        · obtain ⟨sender, hsender, rfl⟩ := Option.map_eq_some_iff.mp hs
          exact ⟨cut_sends hL hC hsender rfl rfl rfl rfl,
            withdrawn_sends hL hW hsender rfl rfl rfl rfl fun _ => hsent⟩
        · cases hs
          refine ⟨⟨hC.gone, hC.named, hC.ending⟩, fun _ => hW.gone hsent, ?_⟩
          intro _ flow hflow hhand
          obtain ⟨r, task, hcall, hr, hleave⟩ := hW.leaving hsent flow hflow hhand
          exact ⟨r, task, hcall, hr, hleave.stored, hleave.pin, hleave.answered⟩
      · cases hs

/-! ## 5. Quiescence -/

/-- No handler of an upload is left. -/
theorem Quiet.no_upload (hQ : Quiet c s) {r : RequestId} {task : Receive.Task}
    {u : Receive.Upload} (hr : s.receiver.tasks.get? r = some task)
    (hu : task.upload? = some u) : False := by
  have hidle := hQ.handlers (r, task) (LinkedMap.mem_entries.mpr hr)
  cases task with
  | saving _ | recording _ => cases hidle
  | _ => cases hu

/-- The sender waits for no upload. -/
theorem Quiet.no_call (hQ : Quiet c s) (h : Linked c s) {taskId : TaskId}
    {u : SendSession.Upload} (hu : s.sender.uploads.get? taskId = some u) : False := by
  have hheld := hQ.uploads (taskId, u) (LinkedMap.mem_entries.mpr hu)
  cases hcall : s.uploads.get? taskId with
  | none => simp [State.held, hcall] at hheld
  | some r =>
      obtain ⟨task, htask⟩ := LinkedMap.mem_keys.mp (h.calls taskId r hcall)
      rcases h.handlers r task htask with hprepare | hup | ⟨response, rfl⟩
      · obtain ⟨_, _, hflow, _⟩ := (hprepare ▸ h.stage).of_call
        cases h.upload_over hu _ hflow
      · obtain ⟨u', hu'⟩ := Option.isSome_iff_exists.mp hup
        exact hQ.no_upload htask hu'
      · simp [State.held, State.response, hcall, htask] at hheld

/-- **A handshake at rest**: the handler waits for the receiving user. -/
theorem Quiet.deciding (hQ : Quiet c s) (h : Linked c s) {submission : SendSession.Submission}
    (hflow : s.flow c = some (.submitting submission)) :
    ∃ r task id, s.prepare = some r ∧ s.receiver.tasks.get? r = some task ∧
      task.sessionId? = some id ∧ r ∉ s.receiver.answers.keys := by
  have hidle := hQ.flow
  rw [hflow] at hidle
  have hstage := h.stage
  rw [hflow] at hstage
  cases hcall : s.prepare with
  | none => simp [State.flowIdle, State.held, hcall] at hidle
  | some r =>
      have hresponse : s.response r = none := by
        simpa [State.flowIdle, State.held, hcall] using hidle
      have htasks : ∀ {task : Receive.Task}, s.receiver.tasks.get? r = some task →
          idle s.receiver r task = true :=
        fun hr => hQ.handlers (r, _) (LinkedMap.mem_entries.mpr hr)
      rw [hcall] at hstage
      cases hstage with
      | reading _ _ _ req task htask hform =>
          have hno := htasks htask
          rcases hform with rfl | ⟨_, _, rfl⟩ <;> cases hno
      | deciding _ _ _ task id htask hid =>
          refine ⟨r, task, id, rfl, htask, hid, ?_⟩
          have hno := htasks htask
          cases task with
          | deciding req id' => simpa [idle] using hno
          | showing _ _ | recordingMessage _ _ => cases hno
          | _ => cases hid
      | accepted _ _ _ task id files htask hform =>
          have hno := htasks htask
          rcases hform with rfl | rfl
          · cases hno
          · simp [State.response, htask] at hresponse
      | refused _ _ _ response htask => simp [State.response, htask] at hresponse

/-- **The sender at rest**: it waits only for the user, asked for the pin or at the receiver. -/
theorem Quiet.session_status (hQ : Quiet c s) (h : Linked c s)
    {session : SendSession.SendSessionState} (hses : s.session c = some session)
    (hover : ∀ flow, s.flow c = some flow → flow.isHandshake = false) :
    session.status ≠ .waiting ∧ session.status ≠ .sending := by
  obtain ⟨flow, hflow⟩ := h.stage.flow_some
  have hhand := hover flow hflow
  have hidle := hQ.flow
  rw [hflow] at hidle
  cases flow with
  | submitting _ | asking => cases hhand
  | stopped =>
      have hrefusal := h.driven.stopped session hses hflow
      constructor <;> intro hstatus <;> rw [hstatus] at hrefusal <;> cases hrefusal
  | sending queue workers =>
      -- a worker that is not done would wait for an upload
      simp only [State.flowIdle, Bool.and_eq_true, Bool.not_eq_true', List.all_eq_true,
        decide_eq_true_eq, List.all_eq_false] at hidle
      obtain ⟨hnext, worker, hworker, hdone⟩ := hidle
      obtain ⟨i, hi⟩ := List.getElem?_of_mem hworker
      cases worker with
      | next => exact absurd rfl (hnext _ hworker)
      | done => exact absurd rfl hdone
      | uploading taskId =>
          obtain ⟨u, hu, _⟩ := h.driven.worker queue workers i taskId hflow hi
          exact (hQ.no_call h (SendSession.uploadsOf_eq_some.mp hu).1).elim
  | finished =>
      refine ⟨h.driven.waiting session _ hses hflow rfl, fun hsending => ?_⟩
      obtain ⟨taskId, u, hu⟩ := h.driven.finished session hses hflow hsending
      exact hQ.no_call h (SendSession.uploadsOf_eq_some.mp hu).1

/-- **Cancellation**: after a run in which the cancel crossed nothing, once nothing is on its way,
    neither end has the session waiting or sending. -/
theorem cancelled_ended (c : Ends) (s t : State) (es : List Event) (hv2 : c.v2 = true)
    (hstart : Started c s) (h : (network c).Run (fun s e => uncrossed s e = true) s es t)
    (hcancelled : t.cancelled = true) (hquiet : Quiet c t) : Ended c t := by
  obtain ⟨hL, hC, hW⟩ : Cancelling c t :=
    h.invariant (cancelling_start hstart) fun _ _ _ h hG hs => cancelling_step h hv2 hG hs
  by_cases hsent : t.fromSender = .unsent
  · -- the receiving user has cancelled
    have hreceived : t.fromReceiver ≠ .unsent := by simpa [State.cancelled, hsent] using hcancelled
    refine ⟨fun session hses => hquiet.session_status hL hses fun flow hflow => ?_,
      fun session hses => ?_⟩
    · cases hhand : flow.isHandshake with
      | false => rfl
      | true =>
          obtain ⟨r, submission, hcall, rfl⟩ := hW.called hL hreceived hflow hhand
          obtain ⟨q, task, id, hcall', hq, hid, hno⟩ := hquiet.deciding hL hflow
          obtain ⟨r', task', hcall'', hr', hleaving⟩ := hW.leaving hreceived _ hflow hhand
          obtain rfl := Option.some.inj (hcall'.symm.trans hcall'')
          obtain rfl := Option.some.inj (hq.symm.trans hr')
          rcases hleaving.answered with hgone | hanswers
          · cases hgone.symm.trans hses
          · exact absurd (hanswers id hid) hno
    · cases (hW.gone hreceived).symm.trans hses
  · -- the sending user has cancelled
    have harrived : t.fromSender = .arrived := by
      cases hnotice : t.fromSender with
      | unsent => exact absurd hnotice hsent
      | travelling id => exact absurd hnotice (hquiet.fromSender id)
      | arrived => rfl
    refine ⟨fun session hses => ?_, fun session hses => ?_⟩
    · cases (hC.gone hsent).symm.trans hses
    · obtain ⟨hwaiting, hsending⟩ := hC.ending harrived session hses
      refine ⟨hwaiting, fun hstatus => ?_⟩
      obtain ⟨_, r, task, u, hr, hu⟩ := hsending hstatus
      exact hquiet.no_upload hr hu

/-- A laptop sends to a phone; both speak v2. -/
def laptopToPhone : Ends where
  sessionId := "send"
  target := ⟨none, some "10.0.0.2", "2.1", 53317, true, "B", "Phone", none, .mobile, false, []⟩
  info := ⟨"Laptop", some "2.1", none, some .desktop, some "A", some 53317, some true, some false⟩
  senderIp := "10.0.0.1"
  receiverIp := "10.0.0.2"
  platform := ⟨false, false, false⟩
  port := 53317
  https := true

def picture : SendSession.CrossFile := ⟨"a.png", .image, 1, some "/a.png", none⟩

/-- The request goes out for one picture. -/
def pictureOffered : Option SendSession.State :=
  SendSession.startSession .initial "send" laptopToPhone.target [picture] false ["file"]

/-- The request arrives and is accepted; the response is not there yet. -/
def acceptance : List Event :=
  [.prepareArrives 0 none,
    .receive (.readBody 0 (some (laptopToPhone.requestDto ⟨laptopToPhone.target,
      [("file", (picture.queued none "file").file)], none⟩)) ⟨none, false, false, false⟩),
    .receive (.createSession 0 [] "/dl" "/cache" "receive" []),
    .receive (.acceptFileRequest (.ofList [("file", "a.png")])), .receive (.decided 0 ["token"])]

/-- The sending user cancels after the response. -/
def cancelAfterResponse : List Event :=
  acceptance ++ [.prepareAnswered 1, .cancelSending, .cancelArrives 1 2, .send (.work "send" 0),
    .send (.work "send" 0), .send (.work "send" 1), .send (.loopEnded "send" 3)]

/-- The sending user cancels before the response. -/
def cancelBeforeResponse : List Event :=
  acceptance ++ [.cancelSending, .cancelArrives 1 2, .prepareAnswered 3]

theorem cancelled_ended_laptopToPhone :
    ∃ s t, Started laptopToPhone s ∧
      (network laptopToPhone).Run (fun s e => uncrossed s e = true) s cancelAfterResponse t ∧
      Ended laptopToPhone t := by
  have hrun : (pictureOffered.bind fun sender =>
      (((network laptopToPhone).guarded fun s e => uncrossed s e = true).run (.start sender)
        cancelAfterResponse).map fun t => (decide ("send" ∈ sender.flows.keys), t.cancelled,
          decide (Quiet laptopToPhone t))) = some (true, true, true) := by
    decide
  obtain ⟨sender, hsender, hrun⟩ := Option.bind_eq_some_iff.mp hrun
  obtain ⟨t, ht, hobs⟩ := Machine.run_observe_guarded hrun
  simp only [Prod.mk.injEq, decide_eq_true_eq] at hobs
  have hstart : Started laptopToPhone (.start sender) :=
    ⟨[picture], false, ["file"], sender, hsender, hobs.1, rfl⟩
  exact ⟨_, t, hstart, ht, cancelled_ended _ _ t _ (by decide) hstart ht hobs.2.1 hobs.2.2⟩

/-- **A cancel that crosses the acceptance**: the receiver refuses it, since it carries no id, and
    its session stays as it is, sending. -/
theorem cancelled_not_ended :
    ¬ ∀ (c : Ends) (s t : State) (es : List Event), c.v2 = true → Started c s →
      (network c).Run Machine.anyStep s es t → t.cancelled = true → Quiet c t → Ended c t := by
  intro hall
  have hrun : (pictureOffered.bind fun sender =>
      ((network laptopToPhone).run (.start sender) cancelBeforeResponse).map fun t =>
        (decide ("send" ∈ sender.flows.keys), t.cancelled, decide (Quiet laptopToPhone t),
          t.receiver.session.map Receive.ReceiveSessionState.status)) =
      some (true, true, true, some .sending) := by
    decide
  obtain ⟨sender, hsender, hrun⟩ := Option.bind_eq_some_iff.mp hrun
  obtain ⟨t, ht, hobs⟩ := Machine.run_observe hrun
  simp only [Prod.mk.injEq, decide_eq_true_eq] at hobs
  have hended := hall laptopToPhone (.start sender) t cancelBeforeResponse (by decide)
    ⟨[picture], false, ["file"], sender, hsender, hobs.1, rfl⟩ ht hobs.2.1 hobs.2.2.1
  obtain ⟨session, hses, hstatus⟩ := Option.map_eq_some_iff.mp hobs.2.2.2
  exact (hended.receiver session hses).2 hstatus

end LocalSend.Transfer
