/-
  File:      LocalSend/Signaling/PeerInfo.lean
  Subject:   THE INFO THAT GOES WITH A FORWARDED OFFER OR ANSWER.

  The info of a peer lives twice: in `tx_map`, where an `Update` changes it, and in the copy that
  the receive task of its connection owns since the connection began. Offers and answers are
  forwarded with the copy.

  * `lastUpdate` -- the last `Update` a run has processed for a peer, read off the events;
  * `Infos` -- the invariant: the registered info is the last `Update`, and without one the info of
    the connection;
  * **`forwarded_info_iff`** -- a forwarded message carries the registered info exactly if the last
    `Update` repeats the info of the connection; `forwarded_stale`: after any other one it does not.
-/
import LocalSend.Signaling.Rooms

namespace LocalSend.Signaling

open Lib

variable {l : Limits} {s t s1 : State} {e : Event} {es : List Event} {c p : Uuid}
  {m : WsServerMessage}

/-! ## 1. The last update -/

/-- One event, for what is known about `p`: the message its receive task has counted and not handled,
    and the last `Update` handled. -/
def hearFrom (p : Uuid) (x : Option WsClientMessage × Option ClientInfoWithoutId) :
    Event → Option WsClientMessage × Option ClientInfoWithoutId
  | .task _ q (.receive msg) => if q = p then (some msg, x.2) else x
  | .task _ q .handleMessage =>
    if q = p then
      match x.1 with
      | some (.update info) => (none, some info)
      | _ => (none, x.2)
    else x
  | _ => x

def heardFrom (p : Uuid) (es : List Event) : Option WsClientMessage × Option ClientInfoWithoutId :=
  es.foldl (hearFrom p) (none, none)

/-- **The last `Update` of `p` that was processed.** -/
def lastUpdate (p : Uuid) (es : List Event) : Option ClientInfoWithoutId := (heardFrom p es).2

theorem heardFrom_snoc (p : Uuid) (es : List Event) (e : Event) :
    heardFrom p (es ++ [e]) = hearFrom p (heardFrom p es) e := by
  rw [heardFrom, List.foldl_append]
  rfl

/-- Neither a message nor its handling. -/
def Action.silent : Action → Bool
  | .receive _ | .handleMessage => false
  | _ => true

theorem hearFrom_silent {g : String} {q : Uuid} {a : Action} (h : a.silent = true) (p : Uuid)
    (x : Option WsClientMessage × Option ClientInfoWithoutId) :
    hearFrom p x (.task g q a) = x := by
  cases a <;> first | rfl | cases h

theorem hearFrom_other {g : String} {q : Uuid} {a : Action} (h : p ≠ q)
    (x : Option WsClientMessage × Option ClientInfoWithoutId) :
    hearFrom p x (.task g q a) = x := by
  cases a <;> first | rfl | exact if_neg h.symm

theorem hearFrom_receive (g : String) (p : Uuid) (msg : WsClientMessage)
    (x : Option WsClientMessage × Option ClientInfoWithoutId) :
    hearFrom p x (.task g p (.receive msg)) = (some msg, x.2) := if_pos rfl

theorem hearFrom_handleMessage (g : String) (p : Uuid)
    (x : Option WsClientMessage × Option ClientInfoWithoutId) :
    hearFrom p x (.task g p .handleMessage) =
      match x.1 with
      | some (.update info) => (none, some info)
      | _ => (none, x.2) := if_pos rfl

/-- The handling of an offer or answer. -/
theorem hearFrom_sdp {g : String} {x : Option WsClientMessage × Option ClientInfoWithoutId}
    {msg : WsClientMessage} {peer : ClientInfo} {target : Uuid} {out : WsServerMessage}
    (hx : x.1 = some msg) (hmsg : toServerMessage peer msg = some (target, out)) :
    hearFrom p x (.task g p .handleMessage) = (none, x.2) := by
  rw [hearFrom_handleMessage, hx]
  cases msg with
  | update info => cases hmsg
  | offer sdp => rfl
  | answer sdp => rfl

theorem afterUpdate_ne_counted (peersTx : List Uuid) (peer : ClientInfo) (msg : WsClientMessage) :
    Phase.running (.afterUpdate peersTx peer) ≠ .running (.counted msg) := by
  unfold RecvTask.afterUpdate
  split <;> simp

/-! ## 2. The registered info -/

/-- **The invariant**: the registered info is the last `Update`, or the info of the connection. -/
structure Infos (es : List Event) (s : State) : Prop where
  unknown : ∀ p, s.handler p = none → heardFrom p es = (none, none)
  counted : ∀ p h msg, s.handler p = some h → h.phase = .running (.counted msg) →
    (heardFrom p es).1 = some msg
  current : ∀ p h, s.handler p = some h → h.phase.registered = true →
    s.current h.group p = some ((lastUpdate p es).getD h.peer.toClientInfoWithoutId)
  connected : ∀ p h, s.handler p = some h →
    ∃ info, .task h.group p (.connect info) ∈ es ∧ h.peer = ClientInfo.from info p

theorem infos_empty : Infos [] State.empty where
  unknown _ _ := rfl
  counted _ _ _ h := by cases h
  current _ _ h := by cases h
  connected _ _ h := by cases h

/-- One connection goes on. -/
theorem infos_move (hI : Infos es s) {h : Handler} {ph : Phase} {a : Action}
    (hp : s.handler p = some h)
    (ht : t.handler = Function.update s.handler p (some { h with phase := ph }))
    (hcounted : ∀ msg, ph = .running (.counted msg) →
      (hearFrom p (heardFrom p es) (.task h.group p a)).1 = some msg)
    (hself : ph.registered = true → t.current h.group p =
      some ((hearFrom p (heardFrom p es) (.task h.group p a)).2.getD h.peer.toClientInfoWithoutId))
    (hothers : ∀ g q, q ≠ p → t.current g q = s.current g q) :
    Infos (es ++ [.task h.group p a]) t := by
  have hsame : ∀ q, q ≠ p → heardFrom q (es ++ [.task h.group p a]) = heardFrom q es := by
    intro q hq
    rw [heardFrom_snoc, hearFrom_other hq]
  have hback : ∀ q, q ≠ p → t.handler q = s.handler q := by
    intro q hq
    rw [ht, Function.update_of_ne hq]
  have hat : t.handler p = some { h with phase := ph } := by rw [ht, Function.update_self]
  refine ⟨fun q hq => ?_, fun q k msg hq hk => ?_, fun q k hq hk => ?_, fun q k hq => ?_⟩
  · have hqp : q ≠ p := by
      intro hqp
      rw [hqp, hat] at hq
      cases hq
    rw [hsame q hqp]
    exact hI.unknown q (hback q hqp ▸ hq)
  · by_cases hqp : q = p
    · rw [hqp, hat] at hq
      cases hq
      rw [hqp, heardFrom_snoc]
      exact hcounted msg hk
    · rw [hsame q hqp]
      exact hI.counted q k msg (hback q hqp ▸ hq) hk
  · by_cases hqp : q = p
    · rw [hqp, hat] at hq
      cases hq
      rw [hqp, lastUpdate, heardFrom_snoc]
      exact hself hk
    · rw [lastUpdate, hsame q hqp, hothers _ q hqp]
      exact hI.current q k (hback q hqp ▸ hq) hk
  · have hold : ∃ j, s.handler q = some j ∧ j.group = k.group ∧ j.peer = k.peer := by
      by_cases hqp : q = p
      · rw [hqp, hat] at hq
        cases hq
        exact ⟨h, hqp ▸ hp, rfl, rfl⟩
      · exact ⟨k, hback q hqp ▸ hq, rfl, rfl⟩
    obtain ⟨j, hj, hgroup, hpeer⟩ := hold
    obtain ⟨info, hmem, hinfo⟩ := hI.connected q j hj
    exact ⟨info, List.mem_append_left _ (hgroup ▸ hmem), hpeer ▸ hinfo⟩

/-- A connection goes on without a message, and keeps its registration. -/
theorem infos_silent (hI : Infos es s) {h : Handler} {ph : Phase} {a : Action}
    (hp : s.handler p = some h)
    (ht : t.handler = Function.update s.handler p (some { h with phase := ph }))
    (ha : a.silent = true) (hcounted : ∀ msg, ph ≠ .running (.counted msg))
    (hregistered : ph.registered = true → h.phase.registered = true)
    (hcurrent : ph.registered = true → t.current h.group p = s.current h.group p)
    (hothers : ∀ g q, q ≠ p → t.current g q = s.current g q) :
    Infos (es ++ [.task h.group p a]) t := by
  refine infos_move hI hp ht (fun msg hph => absurd hph (hcounted msg)) (fun hph => ?_) hothers
  rw [hcurrent hph, hearFrom_silent ha]
  exact hI.current p h hp (hregistered hph)

/-- A send goes with a connection that goes on. -/
theorem infos_send (hI : Infos es s) {h : Handler} {ph : Phase} {a : Action}
    (hp : s.handler p = some h) (hs : s.send c m = some s1) (ha : a.silent = true)
    (hcounted : ∀ msg, ph ≠ .running (.counted msg))
    (hregistered : ph.registered = true → h.phase.registered = true) :
    Infos (es ++ [.task h.group p a]) (s1.setPhase p h ph) := by
  have hcurrent : (s1.setPhase p h ph).current = s.current := current_congr (send_members hs)
  exact infos_silent hI hp (send_setPhase hs p h ph) ha hcounted hregistered
    (fun _ => by rw [hcurrent]) (fun g q _ => by rw [hcurrent])

/-- A new connection. -/
theorem infos_new (hI : Infos es s) {h : Handler} {info : ClientInfoWithoutId}
    (hp : s.handler p = none) (ht : t.handler = Function.update s.handler p (some h))
    (hpeer : h.peer = ClientInfo.from info p) (hcounted : ∀ msg, h.phase ≠ .running (.counted msg))
    (hself : h.phase.registered = true → t.current h.group p = some info)
    (hothers : ∀ g q, q ≠ p → t.current g q = s.current g q) :
    Infos (es ++ [.task h.group p (.connect info)]) t := by
  have hsame : ∀ q, heardFrom q (es ++ [.task h.group p (.connect info)]) = heardFrom q es := by
    intro q
    rw [heardFrom_snoc, hearFrom_silent rfl]
  have hback : ∀ q, q ≠ p → t.handler q = s.handler q := by
    intro q hq
    rw [ht, Function.update_of_ne hq]
  have hat : t.handler p = some h := by rw [ht, Function.update_self]
  refine ⟨fun q hq => ?_, fun q k msg hq hk => ?_, fun q k hq hk => ?_, fun q k hq => ?_⟩
  · have hqp : q ≠ p := by
      intro hqp
      rw [hqp, hat] at hq
      cases hq
    rw [hsame q]
    exact hI.unknown q (hback q hqp ▸ hq)
  · by_cases hqp : q = p
    · rw [hqp, hat] at hq
      cases hq
      exact absurd hk (hcounted msg)
    · rw [hsame q]
      exact hI.counted q k msg (hback q hqp ▸ hq) hk
  · rw [lastUpdate, hsame q]
    by_cases hqp : q = p
    · rw [hqp, hat] at hq
      cases hq
      rw [hqp, hself hk, hI.unknown p hp, hpeer]
      rfl
    · rw [hothers _ q hqp]
      exact hI.current q k (hback q hqp ▸ hq) hk
  · by_cases hqp : q = p
    · rw [hqp, hat] at hq
      cases hq
      exact ⟨info, by rw [hqp]; exact List.mem_append_right _ (List.mem_singleton_self _),
        hqp ▸ hpeer⟩
    · obtain ⟨info', hmem, hinfo⟩ := hI.connected q k (hback q hqp ▸ hq)
      exact ⟨info', List.mem_append_left _ hmem, hinfo⟩

/-- The registered infos after an `Update`. -/
theorem current_updated {h : Handler} {info : ClientInfoWithoutId} {m : TxLocalMap} {ph : Phase}
    (hm : s.txMap h.group = some m) (hreg : (m.get p).isSome = true) :
    let t := { s with
      txMap := Function.update s.txMap h.group (some (m.setClient p info)) }.setPhase p h ph
    t.current h.group p = some info ∧ ∀ g q, q ≠ p → t.current g q = s.current g q := by
  obtain ⟨cs, hcs⟩ := Option.isSome_iff_exists.mp hreg
  obtain ⟨hself, hother⟩ := get_setClient info hcs
  refine ⟨?_, fun g q hq => ?_⟩
  · simpa [State.current, State.members, State.setPhase, State.setHandler] using hself
  · by_cases hg : g = h.group
    · rw [hg]
      simp [State.current, State.members, State.setPhase, State.setHandler, hm, hother q hq]
    · simp [State.current, State.members, State.setPhase, State.setHandler, hg]

/-- The registered infos after a removal. -/
theorem current_removed {g : String}
    (hm : t.members = Function.update s.members g (TxLocalMap.erase (s.members g) p)) :
    ∀ g' q, q ≠ p → t.current g' q = s.current g' q := by
  obtain ⟨_, hother⟩ := get_erase (s.members g) p
  intro g' q hq
  by_cases hg : g' = g
  · rw [hg]
    simp [State.current, hm, hother q hq]
  · simp [State.current, hm, hg]

/-- **Every step keeps the invariant.** -/
theorem infos_step (hT : Tables s) (hI : Infos es s) (hs : Step l s e t) :
    Infos (es ++ [e]) t := by
  cases hs with
  | clear =>
      have hsame : ∀ q, heardFrom q (es ++ [.clearCounts]) = heardFrom q es :=
        fun q => heardFrom_snoc q es _
      refine ⟨fun q hq => ?_, fun q k msg hq hk => ?_, fun q k hq hk => ?_, fun q k hq => ?_⟩
      · rw [hsame q]
        exact hI.unknown q hq
      · rw [hsame q]
        exact hI.counted q k msg hq hk
      · rw [lastUpdate, hsame q]
        exact hI.current q k hq hk
      · obtain ⟨info, hmem, hinfo⟩ := hI.connected q k hq
        exact ⟨info, List.mem_append_left _ hmem, hinfo⟩
  | refusedFull g p info hp hfull =>
      refine infos_new (h := ⟨g, ClientInfo.from info p, .refused⟩) hI hp rfl rfl ?_ ?_ ?_
      · intro msg hmsg
        cases hmsg
      · intro hregistered
        cases hregistered
      · intro g' q _
        exact congrFun (congrFun (current_congr (members_update_self rfl)) g') q
  | refusedCount g p info hp hroom hcount =>
      refine infos_new (h := ⟨g, ClientInfo.from info p, .refused⟩) hI hp rfl rfl ?_ ?_ ?_
      · intro msg hmsg
        cases hmsg
      · intro hregistered
        cases hregistered
      · intro g' q _
        exact congrFun (congrFun (current_congr (members_update_self rfl)) g') q
  | admitted g p info hp hroom hcount =>
      have hm : State.members { s with
          txMap := Function.update s.txMap g (some (s.members g ++ [(p, ClientState.mk info p)])) } =
          Function.update s.members g (s.members g ++ [(p, ClientState.mk info p)]) :=
        members_update (v := some _) rfl
      obtain ⟨hself, hothers⟩ := current_admitted hT hp hm
      refine infos_new (h := ⟨g, ClientInfo.from info p, .joining _ _⟩) hI hp rfl rfl ?_ ?_ ?_
      · intro msg hmsg
        cases hmsg
      · intro _
        exact hself
      · intro g' q hq
        exact hothers g' q (.inr hq)
  | join p h peersTx peers c s1 hp hph hc hs =>
      exact infos_send hI hp hs rfl (fun msg h => by cases h) (fun _ => by rw [hph]; rfl)
  | hello p h peers s1 hp hph hs =>
      exact infos_send hI hp hs rfl (fun msg h => by cases h) (fun _ => by rw [hph]; rfl)
  | tooMany p h msg hp hph hcount =>
      refine infos_move hI hp rfl (fun msg' h => by cases h) (fun _ => ?_) (fun g q _ => rfl)
      rw [hearFrom_receive]
      exact hI.current p h hp (by rw [hph]; rfl)
  | counted p h msg hp hph hcount =>
      refine infos_move hI hp rfl (fun msg' hmsg => ?_) (fun _ => ?_) (fun g q _ => rfl)
      · cases hmsg
        rw [hearFrom_receive]
      · rw [hearFrom_receive]
        exact hI.current p h hp (by rw [hph]; rfl)
  | update p h info m hp hph hm hreg =>
      have hheard : hearFrom p (heardFrom p es) (.task h.group p .handleMessage) =
          (none, some info) := by
        rw [hearFrom_handleMessage, hI.counted p h _ hp hph]
      refine infos_move hI hp rfl (fun msg' hmsg => absurd hmsg (afterUpdate_ne_counted _ _ _))
        (fun _ => ?_) (current_updated hm hreg).2
      rw [hheard]
      exact (current_updated hm hreg).1
  | updateLost p h info hp hph hreg =>
      -- a connection that handles a message is registered
      have hcurrent := hI.current p h hp (by rw [hph]; rfl)
      rw [State.current, hreg] at hcurrent
      cases hcurrent
  | sdp p h msg target tx out hp hph hmsg htx =>
      refine infos_move hI hp rfl (fun msg' h => by cases h) (fun _ => ?_) (fun g q _ => rfl)
      rw [hearFrom_sdp (hI.counted p h msg hp hph) hmsg]
      exact hI.current p h hp (by rw [hph]; rfl)
  | sdpLost p h msg target out hp hph hmsg htx =>
      refine infos_move hI hp rfl (fun msg' h => by cases h) (fun _ => ?_) (fun g q _ => rfl)
      rw [hearFrom_sdp (hI.counted p h msg hp hph) hmsg]
      exact hI.current p h hp (by rw [hph]; rfl)
  | sendUpdate p h peersTx peer c s1 hp hph hc hs =>
      exact infos_send hI hp hs rfl (fun msg => afterUpdate_ne_counted _ _ _)
        (fun _ => by rw [hph]; rfl)
  | forward p h tx msg s1 hp hph hs =>
      exact infos_send hI hp hs rfl (fun msg h => by cases h) (fun _ => by rw [hph]; rfl)
  | sendError p h s1 hp hph hs =>
      exact infos_send hI hp hs rfl (fun msg h => by cases h) (fun _ => by rw [hph]; rfl)
  | take p h r m rest hp hph hq =>
      have hsame : s.handler = Function.update s.handler p (some { h with phase := h.phase }) := by
        rw [← hp, Function.update_eq_self]
      refine infos_move hI hp hsame (fun msg hmsg => ?_) (fun hregistered => ?_) (fun g q _ => rfl)
      · exact hI.counted p h msg hp hmsg
      · exact hI.current p h hp hregistered
  | disconnect p h r hp hph =>
      exact infos_silent hI hp rfl rfl (fun msg h => by cases h) (fun _ => by rw [hph]; rfl)
        (fun _ => rfl) (fun g q _ => rfl)
  | removeLast p h hp hph hm =>
      refine infos_silent hI hp rfl rfl (fun msg h => by cases h) (fun h => by cases h)
        (fun h => by cases h) (current_removed (g := h.group) ?_)
      exact (members_update rfl).trans (by rw [hm]; rfl)
  | remove p h hp hph hm =>
      exact infos_silent hI hp rfl rfl (fun msg h => by cases h) (fun h => by cases h)
        (fun h => by cases h) (current_removed (members_update (v := some _) rfl))
  | sendLeft p h remainingTx c s1 hp hph hc hs =>
      have hregistered := afterLeft_registered (remainingTx.erase c)
      refine infos_send hI hp hs rfl (fun msg hmsg => ?_) (fun hph' => ?_)
      · rw [hmsg] at hregistered
        cases hregistered
      · rw [hregistered] at hph'
        cases hph'

/-! ## 3. Forwarded messages -/

/-- **A forwarded offer or answer carries the registered info** exactly if the last `Update` that
    was processed for its peer repeats the info the peer connected with. -/
theorem forwarded_info_iff (l : Limits) (es : List Event) (s : State)
    (hr : (server l).Run Machine.anyStep State.empty es s) (p : Uuid) (h : Handler)
    (hp : s.handler p = some h) (tx : Uuid) (out : WsServerMessage)
    (hph : h.phase = .running (.forwarding tx out)) :
    ∃ connectInfo registered, .task h.group p (.connect connectInfo) ∈ es ∧
      s.current h.group p = some registered ∧
      (out.sdpPeer = some (ClientInfo.from registered p) ↔
        ∀ info, lastUpdate p es = some info → info = connectInfo) := by
  have hall : Tables s ∧ SdpOrigin s ∧ Infos es s := by
    refine hr.traceInvariant (I := fun es s => Tables s ∧ SdpOrigin s ∧ Infos es s)
      ⟨tables_empty, sdpOrigin_empty, infos_empty⟩ fun es t e u ht _ hs => ?_
    obtain ⟨hT, hO, hI⟩ := ht
    have hstep := step_inv hs
    exact ⟨tables_step hT hstep, sdpOrigin_step hT hO hstep, infos_step hT hI hstep⟩
  obtain ⟨hT, hO, hI⟩ := hall
  obtain ⟨connectInfo, hmem, hpeer⟩ := hI.connected p h hp
  have hcurrent := hI.current p h hp (by rw [hph]; rfl)
  refine ⟨connectInfo, _, hmem, hcurrent, ?_⟩
  rw [hO.signed p h tx out hp hph, hpeer, Option.some.injEq]
  have hinj : ∀ a b : ClientInfoWithoutId, ClientInfo.from a p = ClientInfo.from b p ↔ a = b := by
    intro a b
    constructor
    · intro hab
      exact congrArg ClientInfo.toClientInfoWithoutId hab
    · intro hab
      rw [hab]
  rw [hinj]
  cases lastUpdate p es with
  | none => simp [ClientInfo.from]
  | some info => simp [eq_comm]

/-- Two peers meet. -/
def meetingRun : List Event :=
  [.task "g" 0 (.connect demoInfo), .task "g" 0 .sendHello, .task "g" 1 (.connect demoInfo),
    .task "g" 1 (.sendJoin 0), .task "g" 1 .sendHello]

/-- Peer 0 offers 1 a session. -/
def offering : List Event :=
  [.task "g" 0 (.receive (.offer ⟨"s", 1, "sdp"⟩)), .task "g" 0 .handleMessage]

def renamedInfo : ClientInfoWithoutId := { demoInfo with aliasName := "b" }

theorem forwarded_info_iff_meetingRun :
    ∃ s h registered, (server ⟨10, 10⟩).Run Machine.anyStep State.empty (meetingRun ++ offering) s ∧
      s.handler 0 = some h ∧
      h.phase = .running (.forwarding 1 (.offer ⟨ClientInfo.from demoInfo 0, "s", "sdp"⟩)) ∧
      s.current "g" 0 = some registered ∧
      WsServerMessage.sdpPeer (.offer ⟨ClientInfo.from demoInfo 0, "s", "sdp"⟩) =
        some (ClientInfo.from registered 0) := by
  have hrun : ((server ⟨10, 10⟩).run State.empty (meetingRun ++ offering)).map
      (fun s => s.handler 0) = some (some ⟨"g", ClientInfo.from demoInfo 0,
        .running (.forwarding 1 (.offer ⟨ClientInfo.from demoInfo 0, "s", "sdp"⟩))⟩) := rfl
  obtain ⟨s, hs, hhandler⟩ := Machine.run_observe hrun
  obtain ⟨connectInfo, registered, _, hcurrent, hiff⟩ :=
    forwarded_info_iff ⟨10, 10⟩ _ s hs 0 _ hhandler 1 _ rfl
  have hnone : lastUpdate 0 (meetingRun ++ offering) = none := by decide
  refine ⟨s, _, registered, hs, hhandler, rfl, hcurrent, hiff.mpr fun info hinfo => ?_⟩
  rw [hnone] at hinfo
  cases hinfo

/-- **A peer that has changed its name offers with the old one.** -/
theorem forwarded_stale :
    ∃ s h, (server ⟨10, 10⟩).Run Machine.anyStep State.empty
        (meetingRun ++ [.task "g" 0 (.receive (.update renamedInfo)), .task "g" 0 .handleMessage,
          .task "g" 0 (.sendUpdate 1)] ++ offering) s ∧
      s.handler 0 = some h ∧
      h.phase = .running (.forwarding 1 (.offer ⟨ClientInfo.from demoInfo 0, "s", "sdp"⟩)) ∧
      s.current "g" 0 = some renamedInfo ∧
      WsServerMessage.sdpPeer (.offer ⟨ClientInfo.from demoInfo 0, "s", "sdp"⟩) ≠
        some (ClientInfo.from renamedInfo 0) := by
  have hrun : ((server ⟨10, 10⟩).run State.empty
      (meetingRun ++ [.task "g" 0 (.receive (.update renamedInfo)), .task "g" 0 .handleMessage,
        .task "g" 0 (.sendUpdate 1)] ++ offering)).map
      (fun s => (s.handler 0, s.current "g" 0)) = some (some ⟨"g", ClientInfo.from demoInfo 0,
        .running (.forwarding 1 (.offer ⟨ClientInfo.from demoInfo 0, "s", "sdp"⟩))⟩,
        some renamedInfo) := rfl
  obtain ⟨s, hs, hobs⟩ := Machine.run_observe hrun
  simp only [Prod.mk.injEq] at hobs
  exact ⟨s, _, hs, hobs.1, rfl, hobs.2, by decide⟩

end LocalSend.Signaling
