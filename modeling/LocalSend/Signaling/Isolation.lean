/-
  File:      LocalSend/Signaling/Isolation.lean
  Subject:   SENDER AUTHENTICITY AND ISOLATION OF THE IP GROUPS.

  * `sdp_flow` -- along every run, the offers and answers a peer `p` got into the channel of `c`
    are, in order, some of the client messages `p` sent with target `c` (so the correspondence is
    one-to-one: nothing is made up, nothing is delivered twice);
  * `SdpOrigin` -- each of them names its sender by the id and info the server gave it, and the
    sender was admitted in the group of the channel's owner;
  * `Same g` -- two states that agree on everything a member of group `g` can see: the map entry
    and the request count of `g`, the handlers of `g` and their channels;
  * `same_of_visible` -- two runs with the same events in `g` end in states that are `Same g`,
    whatever the other groups do (`Machine.run_unwind` with the two unwinding lemmas
    `same_invisible`, `same_visible`); `run_alone` -- the events of `g` alone are a run;
  * `signaling_isolation` -- the three together.
-/
import LocalSend.Signaling.Invariant

namespace LocalSend.Signaling

open Lib

variable {l : Limits} {s t s1 : State} {e : Event} {c p : Uuid} {m : WsServerMessage}

/-! ## 1. Where offers and answers come from -/

/-- The client message that an offer or answer of peer `p` in the channel of `c` stands for. -/
def sdpFrom (p c : Uuid) : WsServerMessage → Option WsClientMessage
  | .offer m => if m.peer.id = p then some (.offer ⟨m.sessionId, c, m.sdp⟩) else none
  | .answer m => if m.peer.id = p then some (.answer ⟨m.sessionId, c, m.sdp⟩) else none
  | _ => none

/-- The peer an offer or answer names as its sender. -/
def WsServerMessage.sdpPeer : WsServerMessage → Option ClientInfo
  | .offer m | .answer m => some m.peer
  | _ => none

def WsClientMessage.target : WsClientMessage → Option Uuid
  | .update _ => none
  | .offer sdp | .answer sdp => some sdp.target

/-- The offers and answers for `c` among the messages `p` sent during the events `es`. -/
def sentTo (p c : Uuid) (es : List Event) : List WsClientMessage :=
  es.filterMap fun
    | .task _ q (.receive msg) => if q = p ∧ msg.target = some c then some msg else none
    | _ => none

/-- The offers and answers of `p` in the channel of `c`, taken or not. -/
def State.placedFrom (s : State) (p c : Uuid) : List WsClientMessage :=
  (s.placed c).filterMap (sdpFrom p c)

/-- The offer or answer for `c` that the task of `p` holds in this phase: counted and not yet
    handled, or about to be sent. -/
def Phase.inFlight (p c : Uuid) : Phase → List WsClientMessage
  | .running (.counted msg) => if msg.target = some c then [msg] else []
  | .running (.forwarding tx msg) => if tx = c then (sdpFrom p c msg).toList else []
  | _ => []

def State.inFlight (s : State) (p c : Uuid) : List WsClientMessage :=
  match s.handler p with
  | some h => h.phase.inFlight p c
  | none => []

/-- The offers and answers of `p` in the channel of `c` or on their way there. -/
def State.flow (s : State) (p c : Uuid) : List WsClientMessage :=
  s.placedFrom p c ++ s.inFlight p c

theorem inFlight_of_update {q : Uuid} {h : Handler}
    (ht : t.handler = Function.update s.handler q (some h))
    (hf : ∀ c, h.phase.inFlight q c = []) : (t.inFlight p c).Sublist (s.inFlight p c) := by
  unfold State.inFlight
  rw [ht]
  by_cases hq : p = q
  · subst hq
    rw [Function.update_self]
    simp [hf]
  · rw [Function.update_of_ne hq]

/-- A message that is no offer or answer leaves the flow alone. -/
theorem send_placedFrom (hs : s.send c m = some t) (hm : m.sdpPeer = none) (p d : Uuid) :
    t.placedFrom p d = s.placedFrom p d := by
  have hnone : sdpFrom p d m = none := by
    cases m <;> first | rfl | cases hm
  unfold State.placedFrom
  rcases send_placed hs with h | ⟨_, h⟩
  · rw [h]
  · rw [h]
    by_cases hd : d = c
    · subst hd
      rw [Function.update_self, List.filterMap_append]
      simp [hnone]
    · rw [Function.update_of_ne hd]

/-- Nothing new is placed and nothing new is on its way: the flow does not grow. -/
theorem flow_quiet (hpl : t.placedFrom p c = s.placedFrom p c)
    (hf : (t.inFlight p c).Sublist (s.inFlight p c)) :
    (t.flow p c).Sublist (s.flow p c ++ sentTo p c [e]) := by
  refine List.Sublist.trans ?_ (List.sublist_append_left _ _)
  unfold State.flow
  rw [hpl]
  exact List.Sublist.append_left hf _

theorem toServerMessage_sdpFrom {h : Handler} {msg : WsClientMessage} {target : Uuid}
    {out : WsServerMessage} (hid : h.peer.id = p)
    (hmsg : toServerMessage h.peer msg = some (target, out)) :
    sdpFrom p target out = some msg ∧ msg.target = some target ∧ out.sdpPeer = some h.peer := by
  cases msg with
  | update info => cases hmsg
  | offer sdp =>
      simp only [toServerMessage, Option.some.injEq, Prod.mk.injEq] at hmsg
      obtain ⟨rfl, rfl⟩ := hmsg
      simp [sdpFrom, hid, WsClientMessage.target, WsServerMessage.sdpPeer]
  | answer sdp =>
      simp only [toServerMessage, Option.some.injEq, Prod.mk.injEq] at hmsg
      obtain ⟨rfl, rfl⟩ := hmsg
      simp [sdpFrom, hid, WsClientMessage.target, WsServerMessage.sdpPeer]

theorem sdpFrom_of_other {peer : ClientInfo} (hm : m.sdpPeer = some peer) (hne : peer.id ≠ p) :
    sdpFrom p c m = none := by
  cases m <;> simp only [WsServerMessage.sdpPeer, Option.some.injEq, reduceCtorEq] at hm
  all_goals
    subst hm
    simp [sdpFrom, hne]

/-- What a step adds to the channels: nothing, or one message that is no offer or answer, or the
    offer or answer a receive task was about to forward. -/
theorem step_placed (hs : Step l s e t) :
    t.placed = s.placed ∨
    ∃ c m, t.placed = Function.update s.placed c (s.placed c ++ [m]) ∧
      (m.sdpPeer = none ∨ ∃ q h, s.handler q = some h ∧ h.phase = .running (.forwarding c m)) := by
  have hsend : ∀ {c : Uuid} {m : WsServerMessage} {s1 : State}, s.send c m = some s1 →
      t.placed = s1.placed →
      (m.sdpPeer = none ∨ ∃ q h, s.handler q = some h ∧ h.phase = .running (.forwarding c m)) →
      t.placed = s.placed ∨
      ∃ c m, t.placed = Function.update s.placed c (s.placed c ++ [m]) ∧
        (m.sdpPeer = none ∨ ∃ q h, s.handler q = some h ∧ h.phase = .running (.forwarding c m)) := by
    intro c m s1 hs ht hm
    rw [ht]
    rcases send_placed hs with h | ⟨_, h⟩
    · exact Or.inl h
    · exact Or.inr ⟨c, m, h, hm⟩
  cases hs with
  | clear => exact Or.inl rfl
  | refusedFull g q info hq hfull => exact Or.inl rfl
  | refusedCount g q info hq hroom hcount => exact Or.inl rfl
  | admitted g q info hq hroom hcount => exact Or.inl rfl
  | join q h peersTx peers d s1 hq hph hd hs => exact hsend hs rfl (Or.inl rfl)
  | hello q h peers s1 hq hph hs => exact hsend hs rfl (Or.inl rfl)
  | tooMany q h msg hq hph hcount => exact Or.inl rfl
  | counted q h msg hq hph hcount => exact Or.inl rfl
  | update q h info m hq hph hm hreg => exact Or.inl rfl
  | updateLost q h info hq hph hreg => exact Or.inl rfl
  | sdp q h msg target tx out hq hph hmsg htx => exact Or.inl rfl
  | sdpLost q h msg target out hq hph hmsg htx => exact Or.inl rfl
  | sendUpdate q h peersTx peer d s1 hq hph hd hs => exact hsend hs rfl (Or.inl rfl)
  | forward q h tx msg s1 hq hph hs => exact hsend hs rfl (Or.inr ⟨q, h, hq, hph⟩)
  | sendError q h s1 hq hph hs => exact hsend hs rfl (Or.inl rfl)
  | take q h r m rest hq hph hqu => exact Or.inl (take_placed hqu)
  | disconnect q h r hq hph => exact Or.inl rfl
  | removeLast q h hq hph hm => exact Or.inl rfl
  | remove q h hq hph hm => exact Or.inl rfl
  | sendLeft q h remainingTx d s1 hq hph hd hs => exact hsend hs rfl (Or.inl rfl)

/-- **The invariant of offers and answers**: the one a task is about to forward names that task's
    peer, and each one in a channel names an admitted peer of the owner's group. -/
structure SdpOrigin (s : State) : Prop where
  signed : ∀ q h tx msg, s.handler q = some h → h.phase = .running (.forwarding tx msg) →
    msg.sdpPeer = some h.peer
  origin : ∀ c m peer, m ∈ s.placed c → m.sdpPeer = some peer →
    ∃ h k, s.handler peer.id = some h ∧ h.peer = peer ∧ h.phase ≠ .refused ∧
      s.handler c = some k ∧ k.group = h.group

/-- Only the receipt of an offer or answer starts a forward. -/
theorem step_forwarding (hT : Tables s) (hs : Step l s e t) {r : Uuid} {k : Handler} {d : Uuid}
    {out : WsServerMessage} (hr : t.handler r = some k)
    (hk : k.phase = .running (.forwarding d out)) :
    s.handler r = some k ∨ out.sdpPeer = some k.peer := by
  have hupd : ∀ {q : Uuid} {h : Handler}, t.handler = Function.update s.handler q (some h) →
      (h.phase = .running (.forwarding d out) → out.sdpPeer = some h.peer) →
      s.handler r = some k ∨ out.sdpPeer = some k.peer := by
    intro q h ht hf
    rw [ht] at hr
    by_cases hrq : r = q
    · subst hrq
      rw [Function.update_self] at hr
      cases hr
      exact Or.inr (hf hk)
    · rw [Function.update_of_ne hrq] at hr
      exact Or.inl hr
  cases hs with
  | clear => exact Or.inl hr
  | refusedFull g q info hq hfull => exact hupd rfl nofun
  | refusedCount g q info hq hroom hcount => exact hupd rfl nofun
  | admitted g q info hq hroom hcount => exact hupd rfl nofun
  | join q h peersTx peers d' s1 hq hph hd hs => exact hupd (send_setPhase hs q h _) nofun
  | hello q h peers s1 hq hph hs => exact hupd (send_setPhase hs q h _) nofun
  | tooMany q h msg hq hph hcount => exact hupd rfl nofun
  | counted q h msg hq hph hcount => exact hupd rfl nofun
  | update q h info m hq hph hm hreg =>
      refine hupd rfl fun hf => ?_
      dsimp only at hf
      unfold RecvTask.afterUpdate at hf
      split at hf <;> cases hf
  | updateLost q h info hq hph hreg => exact hupd rfl nofun
  | sdp q h msg target tx out' hq hph hmsg htx =>
      refine hupd rfl fun hf => ?_
      cases hf
      exact (toServerMessage_sdpFrom (hT.peerId q h hq) hmsg).2.2
  | sdpLost q h msg target out hq hph hmsg htx => exact hupd rfl nofun
  | sendUpdate q h peersTx peer d' s1 hq hph hd hs =>
      refine hupd (send_setPhase hs q h _) fun hf => ?_
      dsimp only at hf
      unfold RecvTask.afterUpdate at hf
      split at hf <;> cases hf
  | forward q h tx msg s1 hq hph hs => exact hupd (send_setPhase hs q h _) nofun
  | sendError q h s1 hq hph hs => exact hupd (send_setPhase hs q h _) nofun
  | take q h r' m rest hq hph hqu => exact Or.inl hr
  | disconnect q h r' hq hph => exact hupd rfl nofun
  | removeLast q h hq hph hm => exact hupd rfl nofun
  | remove q h hq hph hm => exact hupd rfl nofun
  | sendLeft q h remainingTx d' s1 hq hph hd hs =>
      refine hupd (send_setPhase hs q h _) fun hf => ?_
      dsimp only at hf
      unfold Phase.afterLeft at hf
      split at hf <;> cases hf

theorem sdpOrigin_empty : SdpOrigin State.empty where
  signed _ _ _ _ h := by cases h
  origin _ _ _ h := absurd h List.not_mem_nil

/-- **Every step keeps the origin of offers and answers.** -/
theorem sdpOrigin_step (hT : Tables s) (hO : SdpOrigin s) (hs : Step l s e t) : SdpOrigin t where
  signed q h tx msg hq hph := by
    rcases step_forwarding hT hs hq hph with hq' | h'
    · exact hO.signed q h tx msg hq' hph
    · exact h'
  origin c m peer hm hpeer := by
    -- the facts about the tasks of the state before, carried over the step
    have hkeep : ∀ {a b : Uuid} {h k : Handler}, s.handler a = some h → h.peer = peer →
        h.phase ≠ .refused → s.handler b = some k → k.group = h.group → a = peer.id →
        ∃ h k, t.handler peer.id = some h ∧ h.peer = peer ∧ h.phase ≠ .refused ∧
          t.handler b = some k ∧ k.group = h.group := by
      intro a b h k ha hpe hph hb hg hap
      obtain ⟨h', hh', hg', hp', hr'⟩ := step_handler_keeps hs ha
      obtain ⟨k', hk', hgk', _, _⟩ := step_handler_keeps hs hb
      exact ⟨h', k', hap ▸ hh', hp'.trans hpe, hr' hph, hk', hgk'.trans (hg.trans hg'.symm)⟩
    have hold : m ∈ s.placed c → ∃ h k, t.handler peer.id = some h ∧ h.peer = peer ∧
        h.phase ≠ .refused ∧ t.handler c = some k ∧ k.group = h.group := by
      intro hm'
      obtain ⟨h, k, hh, hpe, hph, hk, hg⟩ := hO.origin c m peer hm' hpeer
      exact hkeep hh hpe hph hk hg rfl
    rcases step_placed hs with h' | ⟨d, m', h', hm'⟩
    · rw [h'] at hm
      exact hold hm
    · rw [h'] at hm
      by_cases hcd : c = d
      · subst hcd
        rw [Function.update_self] at hm
        rcases List.mem_append.mp hm with hm | hm
        · exact hold hm
        · obtain rfl := List.mem_singleton.mp hm
          rcases hm' with hm' | ⟨q, h, hq, hph⟩
          · rw [hm'] at hpeer
            cases hpeer
          · have hsig := hO.signed q h c m hq hph
            rw [hpeer, Option.some.injEq] at hsig
            obtain ⟨k, hk, hg⟩ := hT.targets q h c hq (by rw [hph]; exact List.mem_singleton_self c)
            refine hkeep hq hsig.symm (by rw [hph]; nofun) hk hg ?_
            rw [hsig]
            exact (hT.peerId q h hq).symm
      · rw [Function.update_of_ne hcd] at hm
        exact hold hm

/-- **One step of the flow**: it grows by the client message the step receives, at most. -/
theorem flow_step (hT : Tables s) (hO : SdpOrigin s) (hs : Step l s e t) (p c : Uuid) :
    (t.flow p c).Sublist (s.flow p c ++ sentTo p c [e]) := by
  cases hs with
  | clear => exact flow_quiet rfl (List.Sublist.refl _)
  | refusedFull g q info hq hfull => exact flow_quiet rfl (inFlight_of_update rfl fun _ => rfl)
  | refusedCount g q info hq hroom hcount =>
      exact flow_quiet rfl (inFlight_of_update rfl fun _ => rfl)
  | admitted g q info hq hroom hcount => exact flow_quiet rfl (inFlight_of_update rfl fun _ => rfl)
  | join q h peersTx peers d s1 hq hph hd hs =>
      exact flow_quiet (send_placedFrom hs rfl p c)
        (inFlight_of_update (send_setPhase hs q h _) fun _ => rfl)
  | hello q h peers s1 hq hph hs =>
      exact flow_quiet (send_placedFrom hs rfl p c)
        (inFlight_of_update (send_setPhase hs q h _) fun _ => rfl)
  | tooMany q h msg hq hph hcount => exact flow_quiet rfl (inFlight_of_update rfl fun _ => rfl)
  | counted q h msg hq hph hcount =>
      by_cases hpq : p = q
      · subst hpq
        have hidle : s.inFlight p c = [] := by simp [State.inFlight, hq, hph, Phase.inFlight]
        simp only [State.flow, hidle, List.append_nil]
        refine List.Sublist.append_left ?_ _
        rw [State.inFlight, setPhase_handler_self]
        by_cases htc : msg.target = some c <;> simp [Phase.inFlight, sentTo, htc]
      · refine flow_quiet rfl ?_
        rw [State.inFlight, setPhase_handler_ne _ _ _ _ hpq]
        exact List.Sublist.refl _
  | update q h info m hq hph hm hreg =>
      refine flow_quiet rfl (inFlight_of_update rfl fun d => ?_)
      unfold RecvTask.afterUpdate
      split <;> rfl
  | updateLost q h info hq hph hreg =>
      exact flow_quiet rfl (inFlight_of_update rfl fun _ => rfl)
  | sdp q h msg target tx out hq hph hmsg htx =>
      obtain ⟨rfl, _⟩ := tables_forward hT htx
      refine flow_quiet rfl ?_
      by_cases hpq : p = q
      · subst hpq
        obtain ⟨hfrom, htarget, _⟩ := toServerMessage_sdpFrom (hT.peerId p h hq) hmsg
        simp only [State.inFlight, setPhase_handler_self, hq, hph, Phase.inFlight, htarget]
        by_cases htc : tx = c
        · subst htc
          simp [hfrom]
        · simp [htc]
      · rw [State.inFlight, setPhase_handler_ne _ _ _ _ hpq]
        exact List.Sublist.refl _
  | sdpLost q h msg target out hq hph hmsg htx =>
      exact flow_quiet rfl (inFlight_of_update rfl fun _ => rfl)
  | sendUpdate q h peersTx peer d s1 hq hph hd hs =>
      refine flow_quiet (send_placedFrom hs rfl p c)
        (inFlight_of_update (send_setPhase hs q h _) fun d => ?_)
      unfold RecvTask.afterUpdate
      split <;> rfl
  | forward q h tx msg s1 hq hph hs =>
      refine List.Sublist.trans ?_ (List.sublist_append_left _ _)
      by_cases hpq : p = q
      · subst hpq
        have hidle : (s1.setPhase p h (.running .idle)).inFlight p c = [] := by
          simp [State.inFlight, setPhase_handler_self, Phase.inFlight]
        have hbusy : s.inFlight p c = if tx = c then (sdpFrom p c msg).toList else [] := by
          simp [State.inFlight, hq, hph, Phase.inFlight]
        have hpl : (s1.setPhase p h (.running .idle)).placedFrom p c = s1.placedFrom p c := rfl
        simp only [State.flow, hidle, hbusy, hpl, List.append_nil]
        unfold State.placedFrom
        rcases send_placed hs with h' | ⟨_, h'⟩
        · rw [h']
          exact List.sublist_append_left _ _
        · rw [h']
          by_cases htc : tx = c
          · subst htc
            rw [Function.update_self, List.filterMap_append]
            cases hf : sdpFrom p tx msg <;> simp [hf]
          · rw [Function.update_of_ne (Ne.symm htc)]
            exact List.sublist_append_left _ _
      · -- another peer's message is not one of `p`
        have hnone : sdpFrom p c msg = none := by
          have hsig := hO.signed q h tx msg hq hph
          have hne : h.peer.id ≠ p := fun e => hpq (e.symm.trans (hT.peerId q h hq))
          exact sdpFrom_of_other hsig hne
        have hpl : s1.placedFrom p c = s.placedFrom p c := by
          unfold State.placedFrom
          rcases send_placed hs with h' | ⟨_, h'⟩
          · rw [h']
          · rw [h']
            by_cases htc : c = tx
            · subst htc
              rw [Function.update_self, List.filterMap_append]
              simp [hnone]
            · rw [Function.update_of_ne htc]
        have hf : (s1.setPhase q h (.running .idle)).inFlight p c = s.inFlight p c := by
          rw [State.inFlight, setPhase_handler_ne _ _ _ _ hpq, send_handler hs]
          rfl
        unfold State.flow
        rw [hf, show (s1.setPhase q h (.running .idle)).placedFrom p c = s1.placedFrom p c from rfl,
          hpl]
  | sendError q h s1 hq hph hs =>
      exact flow_quiet (send_placedFrom hs rfl p c)
        (inFlight_of_update (send_setPhase hs q h _) fun _ => rfl)
  | take q h r m rest hq hph hqu =>
      refine flow_quiet ?_ (List.Sublist.refl _)
      unfold State.placedFrom
      rw [take_placed hqu]
  | disconnect q h r hq hph => exact flow_quiet rfl (inFlight_of_update rfl fun _ => rfl)
  | removeLast q h hq hph hm => exact flow_quiet rfl (inFlight_of_update rfl fun _ => rfl)
  | remove q h hq hph hm => exact flow_quiet rfl (inFlight_of_update rfl fun _ => rfl)
  | sendLeft q h remainingTx d s1 hq hph hd hs =>
      refine flow_quiet (send_placedFrom hs rfl p c)
        (inFlight_of_update (send_setPhase hs q h _) fun d => ?_)
      unfold Phase.afterLeft
      split <;> rfl

/-- **The flow of offers and answers on every run**: in order, some of what was sent. -/
theorem sdp_flow {es : List Event} (h : (server l).Run Machine.anyStep State.empty es s) :
    SdpOrigin s ∧ ∀ p c, (s.flow p c).Sublist (sentTo p c es) := by
  have hinv : Tables s ∧ SdpOrigin s ∧ ∀ p c, (s.flow p c).Sublist (sentTo p c es) := by
    refine h.traceInvariant (I := fun es s => Tables s ∧ SdpOrigin s ∧
      ∀ p c, (s.flow p c).Sublist (sentTo p c es)) ?_ ?_
    · exact ⟨tables_empty, sdpOrigin_empty, fun _ _ => List.Sublist.refl _⟩
    · rintro es s e t ⟨hT, hO, hF⟩ _ hs
      have hs' := step_inv hs
      refine ⟨tables_step hT hs', sdpOrigin_step hT hO hs', fun p c => ?_⟩
      have happ : sentTo p c (es ++ [e]) = sentTo p c es ++ sentTo p c [e] :=
        List.filterMap_append
      rw [happ]
      exact (flow_step hT hO hs' p c).trans (List.Sublist.append_right (hF p c) _)
  exact hinv.2

/-! ## 2. What a group sees -/

/-- `q` is a connection of group `g`, refused or not. -/
def State.inGroup (s : State) (g : String) (q : Uuid) : Prop :=
  ∃ h, s.handler q = some h ∧ h.group = g

/-- **Agreement on group `g`**: its map entry, its request count, its connections (with where
    each of them stands) and their channels. -/
structure Same (g : String) (s t : State) : Prop where
  txMap : s.txMap g = t.txMap g
  requests : s.requestCountMap g = t.requestCountMap g
  connection : ∀ q, s.inGroup g q ∨ t.inGroup g q →
    s.handler q = t.handler q ∧ s.queue q = t.queue q ∧ s.taken q = t.taken q

variable {g : String} {s' t' : State}

theorem Same.refl (g : String) (s : State) : Same g s s := ⟨rfl, rfl, fun _ _ => ⟨rfl, rfl, rfl⟩⟩

theorem Same.symm (h : Same g s t) : Same g t s where
  txMap := h.txMap.symm
  requests := h.requests.symm
  connection q hq := by
    obtain ⟨h1, h2, h3⟩ := h.connection q hq.symm
    exact ⟨h1.symm, h2.symm, h3.symm⟩

theorem Same.trans (h : Same g s t) (h' : Same g t t') : Same g s t' where
  txMap := h.txMap.trans h'.txMap
  requests := h.requests.trans h'.requests
  connection q hq := by
    have hmid : t.inGroup g q := by
      rcases hq with ⟨k, hk, hg⟩ | ⟨k, hk, hg⟩
      · exact ⟨k, (h.connection q (Or.inl ⟨k, hk, hg⟩)).1 ▸ hk, hg⟩
      · exact ⟨k, (h'.connection q (Or.inr ⟨k, hk, hg⟩)).1 ▸ hk, hg⟩
    obtain ⟨h1, h2, h3⟩ := h.connection q (Or.inr hmid)
    obtain ⟨h1', h2', h3'⟩ := h'.connection q (Or.inl hmid)
    exact ⟨h1.trans h1', h2.trans h2', h3.trans h3'⟩

theorem Same.members (h : Same g s t) : s.members g = t.members g := by
  simp [State.members, h.txMap]

theorem Same.count (h : Same g s t) : s.requests g = t.requests g := by
  simp [State.requests, h.requests]

/-- A send to a connection of `g` is enabled in both states or in none, with the same effect. -/
theorem same_send (h : Same g s s') (hc : s.inGroup g c) (hs : s.send c m = some s1) :
    ∃ s1', s'.send c m = some s1' ∧ Same g s1 s1' := by
  obtain ⟨hh, hq, ht⟩ := h.connection c (Or.inl hc)
  obtain ⟨k, hk, _⟩ := hc
  unfold State.send at hs ⊢
  rw [hk] at hs
  rw [← hh, hk, ← hq]
  dsimp only at hs ⊢
  split at hs
  · rename_i ho
    split at hs
    · rename_i hlen
      cases hs
      simp only [ho, hlen, if_true]
      refine ⟨_, rfl, h.txMap, h.requests, fun q hq' => ?_⟩
      obtain ⟨h1, h2, h3⟩ := h.connection q hq'
      refine ⟨h1, ?_, h3⟩
      by_cases hqc : q = c
      · subst hqc
        simp [State.push, h2]
      · simp [State.push, hqc, h2]
    · cases hs
  · rename_i ho
    cases hs
    simp only [ho, Bool.false_eq_true, if_false]
    exact ⟨_, rfl, h⟩

/-- Moving one handler in both states keeps the agreement. -/
theorem same_handler (h : Same g s s') {k : Handler} (htx : t.txMap g = t'.txMap g)
    (hcount : t.requestCountMap g = t'.requestCountMap g)
    (hh : t.handler = Function.update s.handler p (some k))
    (hh' : t'.handler = Function.update s'.handler p (some k))
    (hq : t.queue = s.queue ∧ t.taken = s.taken) (hq' : t'.queue = s'.queue ∧ t'.taken = s'.taken)
    (hp : s.queue p = s'.queue p ∧ s.taken p = s'.taken p) : Same g t t' := by
  refine ⟨htx, hcount, fun q hin => ?_⟩
  rw [hq.1, hq.2, hq'.1, hq'.2]
  by_cases hqp : q = p
  · subst hqp
    exact ⟨by rw [hh, hh', Function.update_self, Function.update_self], hp.1, hp.2⟩
  · have hin' : s.inGroup g q ∨ s'.inGroup g q := by
      unfold State.inGroup at hin ⊢
      rwa [hh, hh', Function.update_of_ne hqp, Function.update_of_ne hqp] at hin
    rw [hh, hh', Function.update_of_ne hqp, Function.update_of_ne hqp]
    exact h.connection q hin'

/-- The move of a task after its send, in both states. -/
theorem same_setPhase (h : Same g s s') {k : Handler} {ph : Phase} (hp : s.handler p = some k)
    (hg : k.group = g) : Same g (s.setPhase p k ph) (s'.setPhase p k ph) :=
  same_handler h h.txMap h.requests rfl rfl ⟨rfl, rfl⟩ ⟨rfl, rfl⟩
    (h.connection p (Or.inl ⟨k, hp, hg⟩)).2

/-- Both states find the same target for an offer or answer. -/
theorem same_forwardTo {h : Handler} (hS : Same h.group s s') (hp : s.handler p = some h)
    (target : Uuid) (out : WsServerMessage) :
    Same h.group (s.forwardTo p h target out) (s'.forwardTo p h target out) := by
  have hsame : sendToPeerWithLock s'.txMap h.group target =
      sendToPeerWithLock s.txMap h.group target := by
    simp [sendToPeerWithLock, hS.txMap]
  unfold State.forwardTo
  rw [hsame]
  cases sendToPeerWithLock s.txMap h.group target with
  | none => exact same_setPhase hS hp rfl
  | some tx => exact same_setPhase hS hp rfl

/-- The request count decides the same way in both states. -/
theorem same_receive (hS : Same g s s') {h : Handler} {msg : WsClientMessage}
    (hp : s.handler p = some h) (hg : h.group = g) :
    Same g (receive l s p h msg) (receive l s' p h msg) := by
  subst hg
  have hch := (hS.connection p (Or.inl ⟨h, hp, rfl⟩)).2
  unfold receive protectDdosRequestCount
  dsimp only
  rw [← hS.requests]
  by_cases hc : (s.requestCountMap h.group).getD 0 ≥ l.maxRequests
  all_goals
    simp only [hc, if_true, if_false]
    exact same_handler hS hS.txMap (by simp [State.setPhase, State.setHandler]) rfl rfl
      ⟨rfl, rfl⟩ ⟨rfl, rfl⟩ hch

/-- A counted message is handled the same way in both states. -/
theorem same_handleMessage {h : Handler} (hS : Same h.group s s') (hp : s.handler p = some h)
    (msg : WsClientMessage) : Same h.group (handleMessage s p h msg) (handleMessage s' p h msg) := by
  have hch := (hS.connection p (Or.inl ⟨h, hp, rfl⟩)).2
  unfold handleMessage
  cases msg with
  | update info =>
      unfold sendUpdateToOtherPeersWithLock
      dsimp only
      rw [← hS.txMap]
      cases hm : s.txMap h.group with
      | none => exact same_setPhase hS hp rfl
      | some m =>
          dsimp only
          cases hget : m.get p with
          | none => exact same_setPhase hS hp rfl
          | some cs =>
              exact same_handler hS (by simp [State.setPhase, State.setHandler]) hS.requests
                rfl rfl ⟨rfl, rfl⟩ ⟨rfl, rfl⟩ hch
  | offer sdp => exact same_forwardTo hS hp sdp.target _
  | answer sdp => exact same_forwardTo hS hp sdp.target _

/-- The admission decides the same way in both states. -/
theorem same_connect (hT : Tables s) (hT' : Tables s') (hS : Same g s s')
    {info : ClientInfoWithoutId} (hp' : s'.handler p = none)
    (h : connect l s g p info = some t) : ∃ t', connect l s' g p info = some t' ∧ Same g t t' := by
  unfold connect protectDdosRequestCount at h ⊢
  split at h
  · cases h
  rename_i hp
  have hp : s.handler p = none := by simpa using hp
  have hchan : s.queue p = s'.queue p ∧ s.taken p = s'.taken p := by
    obtain ⟨h1, h2⟩ := hT.unused p hp
    obtain ⟨h1', h2'⟩ := hT'.unused p hp'
    exact ⟨h1.trans h1'.symm, h2.trans h2'.symm⟩
  rw [if_neg (by simp [hp'])]
  dsimp only at h ⊢
  rw [← hS.txMap, ← hS.requests]
  split at h
  · rename_i hfull
    cases h
    rw [if_pos hfull]
    exact ⟨_, rfl, same_handler hS (by simp [State.setHandler]) hS.requests rfl rfl
      ⟨rfl, rfl⟩ ⟨rfl, rfl⟩ hchan⟩
  · rename_i hroom
    rw [if_neg hroom]
    by_cases hc : (s.requestCountMap g).getD 0 ≥ l.maxRequests
    all_goals
      simp only [hc, if_true, if_false, Option.some.injEq] at h ⊢
      subst h
      exact ⟨_, rfl, same_handler hS (by simp [State.setHandler]) (by simp [State.setHandler])
        rfl rfl ⟨rfl, rfl⟩ ⟨rfl, rfl⟩ hchan⟩

/-- The removal leaves the same members and the same targets in both states. -/
theorem same_remove {h : Handler} (hS : Same h.group s s') (hp : s.handler p = some h) :
    Same h.group (remove s p h) (remove s' p h) := by
  have hch := (hS.connection p (Or.inl ⟨h, hp, rfl⟩)).2
  unfold remove
  rw [← hS.txMap]
  cases hm : s.txMap h.group with
  | none => exact same_setPhase hS hp rfl
  | some m =>
      dsimp only
      split
      all_goals
        exact same_handler hS (by simp [State.setPhase, State.setHandler]) hS.requests rfl rfl
          ⟨rfl, rfl⟩ ⟨rfl, rfl⟩ hch

/-- **A step of a task of group `g`** is enabled in both states or in none, and keeps the
    agreement. -/
theorem same_task {h : Handler} {a : Action} (hT : Tables s) (hS : Same h.group s s')
    (hp : s.handler p = some h) (hs : taskStep l s p h h.phase a = some t) :
    ∃ t', taskStep l s' p h h.phase a = some t' ∧ Same h.group t t' := by
  have hself : s.inGroup h.group p := ⟨h, hp, rfl⟩
  have htarget : ∀ {c : Uuid}, c ∈ h.phase.targets → s.inGroup h.group c :=
    fun {c} hc => hT.targets p h c hp hc
  -- a send and the move of the task after it, in both states
  have hsend : ∀ {c : Uuid} {m : WsServerMessage} {ph : Phase}, s.inGroup h.group c →
      ((s.send c m).map fun s' => s'.setPhase p h ph) = some t →
      ∃ t', ((s'.send c m).map fun s' => s'.setPhase p h ph) = some t' ∧ Same h.group t t' := by
    intro c m ph hc hs
    obtain ⟨s1, hs1, rfl⟩ := Option.map_eq_some_iff.mp hs
    obtain ⟨s1', hs1', hS1⟩ := same_send hS hc hs1
    exact ⟨_, by rw [hs1']; rfl, same_setPhase hS1 ((send_handler hs1).symm ▸ hp) rfl⟩
  unfold taskStep at hs ⊢
  split at hs
  · rename_i peersTx peers c hph
    split at hs
    · rename_i hc
      simp only [if_pos hc]
      exact hsend (htarget (by rw [hph]; exact hc)) hs
    · cases hs
  · exact hsend hself hs
  · rename_i msg hph
    cases hs
    exact ⟨_, rfl, same_receive hS hp rfl⟩
  · rename_i msg hph
    cases hs
    exact ⟨_, rfl, same_handleMessage hS hp msg⟩
  · rename_i peersTx peer c hph
    split at hs
    · rename_i hc
      simp only [if_pos hc]
      exact hsend (htarget (by rw [hph]; exact hc)) hs
    · cases hs
  · rename_i tx msg hph
    exact hsend (htarget (by rw [hph]; exact List.mem_singleton_self tx)) hs
  · exact hsend hself hs
  · obtain ⟨h1, h2, h3⟩ := hS.connection p (Or.inl hself)
    rw [← h2]
    split at hs
    · rename_i m rest hq
      cases hs
      refine ⟨_, rfl, hS.txMap, hS.requests, fun q hq' => ?_⟩
      obtain ⟨k1, k2, k3⟩ := hS.connection q hq'
      refine ⟨k1, ?_⟩
      by_cases hqp : q = p
      · subst hqp
        simp [k3]
      · simp [hqp, k2, k3]
    · cases hs
  · cases hs
    exact ⟨_, rfl, same_setPhase hS hp rfl⟩
  · cases hs
    exact ⟨_, rfl, same_remove hS hp⟩
  · rename_i remainingTx c hph
    split at hs
    · rename_i hc
      simp only [if_pos hc]
      exact hsend (htarget (by rw [hph]; exact hc)) hs
    · cases hs
  · cases hs

/-! ## 3. Isolation -/

/-- The events a group takes part in: the actions of its own connections, and the reset of the
    counters. -/
def Event.visible (g : String) : Event → Bool
  | .task g' _ _ => decide (g' = g)
  | .clearCounts => true

/-- A step of a connection outside `g` that leaves the entry, the count and the channels of `g`
    alone. -/
theorem same_foreign {k : Handler} (hh : t.handler = Function.update s.handler p (some k))
    (hk : k.group ≠ g) (hp : ∀ h, s.handler p = some h → h.group ≠ g)
    (htx : t.txMap g = s.txMap g) (hcount : t.requestCountMap g = s.requestCountMap g)
    (hq : ∀ q, s.inGroup g q → t.queue q = s.queue q ∧ t.taken q = s.taken q) : Same g s t := by
  have hin : ∀ q, s.inGroup g q ∨ t.inGroup g q → q ≠ p ∧ s.inGroup g q := by
    rintro q (⟨h, hh', hg⟩ | ⟨h, hh', hg⟩)
    · refine ⟨?_, h, hh', hg⟩
      rintro rfl
      exact hp h hh' hg
    · have hne : q ≠ p := by
        rintro rfl
        rw [hh, Function.update_self] at hh'
        cases hh'
        exact hk hg
      rw [hh, Function.update_of_ne hne] at hh'
      exact ⟨hne, h, hh', hg⟩
  refine ⟨htx.symm, hcount.symm, fun q hq' => ?_⟩
  obtain ⟨hne, hin'⟩ := hin q hq'
  obtain ⟨h1, h2⟩ := hq q hin'
  exact ⟨by rw [hh, Function.update_of_ne hne], h1.symm, h2.symm⟩

/-- A send of a connection outside `g`, and its move after it. -/
theorem same_foreign_send {h : Handler} {ph : Phase} (hp : s.handler p = some h)
    (hg : h.group ≠ g) (hc : s.inGroup h.group c) (hs : s.send c m = some s1) :
    Same g s (s1.setPhase p h ph) := by
  refine same_foreign (send_setPhase hs p h ph) hg (fun h' hh' => ?_)
    (by simp [State.setPhase, State.setHandler, send_txMap hs])
    (by simp [State.setPhase, State.setHandler, send_count hs]) (fun q hq => ?_)
  · rw [hp] at hh'
    cases hh'
    exact hg
  · have hne : q ≠ c := by
      rintro rfl
      obtain ⟨k, hk, hkg⟩ := hc
      obtain ⟨k', hk', hkg'⟩ := hq
      rw [hk] at hk'
      cases hk'
      exact hg (hkg.symm.trans hkg')
    exact ⟨send_queue_ne hs hne, by
      rw [show (s1.setPhase p h ph).taken = s1.taken from rfl, send_taken hs]⟩

/-- **First unwinding lemma**: a step of another group changes nothing `g` can see. -/
theorem same_invisible (hT : Tables s) (hv : e.visible g = false) (hs : Step l s e t) :
    Same g s t := by
  have hgrp : ∀ {h : Handler} {a : Action} {p : Uuid},
      Event.visible g (.task h.group p a) = false → h.group ≠ g := by
    intro h a p hv
    simpa [Event.visible] using hv
  have hself : ∀ {p : Uuid} {h : Handler}, s.handler p = some h → h.group ≠ g →
      ∀ h', s.handler p = some h' → h'.group ≠ g := by
    intro p h hp hg h' hh'
    rw [hp] at hh'
    cases hh'
    exact hg
  have hnew : ∀ {p : Uuid}, s.handler p = none → ∀ h', s.handler p = some h' → h'.group ≠ g := by
    intro p hp h' hh'
    rw [hp] at hh'
    cases hh'
  cases hs with
  | clear => cases hv
  | refusedFull g' p info hp hfull =>
      have hg : g' ≠ g := by simpa [Event.visible] using hv
      exact same_foreign rfl hg (hnew hp) (by simp [State.setHandler, Ne.symm hg]) rfl
        fun q _ => ⟨rfl, rfl⟩
  | refusedCount g' p info hp hroom hcount =>
      have hg : g' ≠ g := by simpa [Event.visible] using hv
      exact same_foreign rfl hg (hnew hp) (by simp [State.setHandler, Ne.symm hg])
        (by simp [State.setHandler, Ne.symm hg]) fun q _ => ⟨rfl, rfl⟩
  | admitted g' p info hp hroom hcount =>
      have hg : g' ≠ g := by simpa [Event.visible] using hv
      exact same_foreign rfl hg (hnew hp) (by simp [State.setHandler, Ne.symm hg])
        (by simp [State.setHandler, Ne.symm hg]) fun q _ => ⟨rfl, rfl⟩
  | join p h peersTx peers c s1 hp hph hc hs =>
      exact same_foreign_send hp (hgrp hv) (hT.targets p h c hp (by rw [hph]; exact hc)) hs
  | hello p h peers s1 hp hph hs =>
      exact same_foreign_send hp (hgrp hv) ⟨h, hp, rfl⟩ hs
  | tooMany p h msg hp hph hcount =>
      have hg := hgrp hv
      exact same_foreign rfl hg (hself hp hg) rfl
        (by simp [State.setPhase, State.setHandler, Ne.symm hg]) fun q _ => ⟨rfl, rfl⟩
  | counted p h msg hp hph hcount =>
      have hg := hgrp hv
      exact same_foreign rfl hg (hself hp hg) rfl
        (by simp [State.setPhase, State.setHandler, Ne.symm hg]) fun q _ => ⟨rfl, rfl⟩
  | update p h info m hp hph hm hreg =>
      have hg := hgrp hv
      exact same_foreign rfl hg (hself hp hg)
        (by simp [State.setPhase, State.setHandler, Ne.symm hg]) rfl fun q _ => ⟨rfl, rfl⟩
  | updateLost p h info hp hph hreg =>
      exact same_foreign rfl (hgrp hv) (hself hp (hgrp hv)) rfl rfl fun q _ => ⟨rfl, rfl⟩
  | sdp p h msg target tx out hp hph hmsg htx =>
      exact same_foreign rfl (hgrp hv) (hself hp (hgrp hv)) rfl rfl fun q _ => ⟨rfl, rfl⟩
  | sdpLost p h msg target out hp hph hmsg htx =>
      exact same_foreign rfl (hgrp hv) (hself hp (hgrp hv)) rfl rfl fun q _ => ⟨rfl, rfl⟩
  | sendUpdate p h peersTx peer c s1 hp hph hc hs =>
      exact same_foreign_send hp (hgrp hv) (hT.targets p h c hp (by rw [hph]; exact hc)) hs
  | forward p h tx msg s1 hp hph hs =>
      exact same_foreign_send hp (hgrp hv)
        (hT.targets p h tx hp (by rw [hph]; exact List.mem_singleton_self tx)) hs
  | sendError p h s1 hp hph hs =>
      exact same_foreign_send hp (hgrp hv) ⟨h, hp, rfl⟩ hs
  | take p h r m rest hp hph hq =>
      refine ⟨rfl, rfl, fun q hin => ?_⟩
      have hne : q ≠ p := by
        rintro rfl
        rcases hin with ⟨k, hk, hkg⟩ | ⟨k, hk, hkg⟩
        · exact hself hp (hgrp hv) k hk hkg
        · exact hself hp (hgrp hv) k hk hkg
      simp [hne]
  | disconnect p h r hp hph =>
      exact same_foreign rfl (hgrp hv) (hself hp (hgrp hv)) rfl rfl fun q _ => ⟨rfl, rfl⟩
  | removeLast p h hp hph hm =>
      have hg := hgrp hv
      exact same_foreign rfl hg (hself hp hg)
        (by simp [State.setPhase, State.setHandler, Ne.symm hg]) rfl fun q _ => ⟨rfl, rfl⟩
  | remove p h hp hph hm =>
      have hg := hgrp hv
      exact same_foreign rfl hg (hself hp hg)
        (by simp [State.setPhase, State.setHandler, Ne.symm hg]) rfl fun q _ => ⟨rfl, rfl⟩
  | sendLeft p h remainingTx c s1 hp hph hc hs =>
      exact same_foreign_send hp (hgrp hv) (hT.targets p h c hp (by rw [hph]; exact hc)) hs

/-- A step of `g` is enabled in two states that agree on `g` or in none (an admission needs a
    fresh id in both), and leads to states that agree. -/
theorem same_enabled (hT : Tables s) (hT' : Tables s') (hS : Same g s s')
    (hv : e.visible g = true)
    (hfresh : ∀ p info, e = .task g p (.connect info) → s'.handler p = none)
    (hs : step l s e = some t) : ∃ t', step l s' e = some t' ∧ Same g t t' := by
  cases e with
  | clearCounts =>
      cases hs
      exact ⟨_, rfl, hS.txMap, rfl, hS.connection⟩
  | task g' p a =>
      obtain rfl : g' = g := by simpa [Event.visible] using hv
      by_cases ha : ∃ info, a = .connect info
      · obtain ⟨info, rfl⟩ := ha
        exact same_connect hT hT' hS (hfresh p info rfl) hs
      · have htask : ∀ {s : State}, step l s (.task g' p a) = match s.handler p with
            | some h => if h.group = g' then taskStep l s p h h.phase a else none
            | none => none := by
          intro s
          cases a with
          | connect info => exact absurd ⟨info, rfl⟩ ha
          | _ => rfl
        rw [htask] at hs ⊢
        split at hs
        · rename_i h hp
          split at hs
          · rename_i hg
            subst hg
            have hp' : s'.handler p = some h :=
              (hS.connection p (Or.inl ⟨h, hp, rfl⟩)).1 ▸ hp
            obtain ⟨t', ht', hS'⟩ := same_task hT hS hp hs
            exact ⟨t', by simp only [hp', if_true, ht'], hS'⟩
          · cases hs
        · cases hs

/-- **Second unwinding lemma**: a step of `g` leads states that agree on `g` to such states. -/
theorem same_visible (hT : Tables s) (hT' : Tables s') (hS : Same g s s')
    (hv : e.visible g = true) (hs : step l s e = some t) (hs' : step l s' e = some t') :
    Same g t t' := by
  have hfresh : ∀ p info, e = .task g p (.connect info) → s'.handler p = none := by
    rintro p info rfl
    by_contra hne
    simp [step, connect, hne] at hs'
  obtain ⟨t2, ht2, hS2⟩ := same_enabled hT hT' hS hv hfresh hs
  rw [hs', Option.some.injEq] at ht2
  exact ht2 ▸ hS2

/-- Two runs with the same events in `g` agree on `g`. -/
theorem same_of_visible {es fs : List Event} (h : (server l).Run Machine.anyStep State.empty es s)
    (h' : (server l).Run Machine.anyStep State.empty fs s')
    (hes : es.filter (Event.visible g) = fs.filter (Event.visible g)) : Same g s s' :=
  Machine.run_unwind (Same g) Tables (Event.visible g) (fun _ _ => Same.symm) (fun _ _ _ => Same.trans)
    (fun _ _ _ hT hs => tables_step hT (step_inv hs))
    (fun _ _ _ hT hv hs => same_invisible hT hv (step_inv hs))
    (fun _ _ _ _ _ hT hT' hS hv hs hs' => same_visible hT hT' hS hv hs hs')
    tables_empty (Same.refl g _) h h' hes

/-- A step of a task of group `g` adds no connection of another group. -/
theorem step_group (hv : e.visible g = true) (hs : Step l s e t)
    (hall : ∀ q k, s.handler q = some k → k.group = g) {q : Uuid} {k : Handler}
    (hk : t.handler q = some k) : k.group = g := by
  rcases step_handler hs with h | ⟨p, h, ph, hp, ht, _⟩ | ⟨p, h, hp, ht, info, he⟩
  · exact hall q k (h ▸ hk)
  · rw [ht] at hk
    by_cases hqp : q = p
    · subst hqp
      rw [Function.update_self] at hk
      cases hk
      exact hall q h hp
    · rw [Function.update_of_ne hqp] at hk
      exact hall q k hk
  · rw [ht] at hk
    by_cases hqp : q = p
    · subst hqp
      rw [Function.update_self] at hk
      cases hk
      rw [he] at hv
      simpa [Event.visible] using hv
    · rw [Function.update_of_ne hqp] at hk
      exact hall q k hk

/-- **The other groups are not needed**: the events of `g` alone are a run too, and it ends in a
    state that agrees on `g`. -/
theorem run_alone {es : List Event} (g : String)
    (h : (server l).Run Machine.anyStep State.empty es s) :
    ∃ s', (server l).Run Machine.anyStep State.empty (es.filter (Event.visible g)) s' ∧
      Same g s s' ∧ ∀ q k, s'.handler q = some k → k.group = g := by
  induction h with
  | start => exact ⟨_, .start, Same.refl g _, fun _ _ hk => by cases hk⟩
  | step es e t u hr _ hs ih =>
      obtain ⟨s', hr', hS, hall⟩ := ih
      have hT := tables_run hr
      have hT' := tables_run hr'
      rw [List.filter_append]
      by_cases hv : e.visible g = true
      · have hfresh : ∀ p info, e = .task g p (.connect info) → s'.handler p = none := by
          rintro p info rfl
          by_contra hne
          obtain ⟨k, hk⟩ := Option.ne_none_iff_exists'.mp hne
          have hsame := (hS.connection p (Or.inr ⟨k, hk, hall p k hk⟩)).1
          simp [server, step, connect, hsame, hk] at hs
        obtain ⟨t', ht', hS'⟩ := same_enabled hT hT' hS hv hfresh hs
        refine ⟨t', ?_, hS', fun q k => step_group hv (step_inv ht') hall⟩
        simpa [hv] using hr'.step _ e _ _ trivial ht'
      · have hv' : e.visible g = false := by simpa using hv
        refine ⟨s', by simpa [hv'] using hr', ?_, hall⟩
        exact (same_invisible hT hv' (step_inv hs)).symm.trans hS

/-- **Sender authenticity and isolation of the groups**, on every run. (1) An offer or answer in
    the channel of `c` names a peer that was admitted in the group of `c`, by the id and info the
    server gave it; and the offers and answers of `p` in the channel of `c` are, in order, some
    of the client messages `p` sent with target `c`. (2) Two runs with the same events in `g` have
    the same connections of `g`, admitted or refused, and the same messages in their channels.
    (3) The events of `g` alone are such a run. -/
theorem signaling_isolation (l : Limits) :
    (∀ es s, (server l).Run Machine.anyStep State.empty es s →
      (∀ c m peer, m ∈ s.placed c → m.sdpPeer = some peer →
        ∃ h k, s.handler peer.id = some h ∧ h.peer = peer ∧ h.phase ≠ .refused ∧
          s.handler c = some k ∧ k.group = h.group) ∧
      ∀ p c, (s.placedFrom p c).Sublist (sentTo p c es)) ∧
    (∀ g es fs s s', (server l).Run Machine.anyStep State.empty es s →
      (server l).Run Machine.anyStep State.empty fs s' →
      es.filter (Event.visible g) = fs.filter (Event.visible g) →
      ∀ q, s.inGroup g q ∨ s'.inGroup g q →
        s.handler q = s'.handler q ∧ s.placed q = s'.placed q) ∧
    ∀ g es s, (server l).Run Machine.anyStep State.empty es s →
      ∃ s', (server l).Run Machine.anyStep State.empty (es.filter (Event.visible g)) s' := by
  refine ⟨fun es s h => ?_, fun g es fs s s' h h' hes q hq => ?_, fun g es s h => ?_⟩
  · obtain ⟨hO, hF⟩ := sdp_flow h
    exact ⟨hO.origin, fun p c => (List.sublist_append_left _ _).trans (hF p c)⟩
  · obtain ⟨h1, h2, h3⟩ := (same_of_visible h h' hes).connection q hq
    exact ⟨h1, by rw [State.placed, State.placed, h2, h3]⟩
  · obtain ⟨s', h', _⟩ := run_alone g h
    exact ⟨s', h'⟩

/-- A run with a foreign group: peer 1 joins peer 0 in one group and sends it an offer, while
    peer 2 connects from elsewhere. -/
def offerRun : List Event :=
  let info : ClientInfoWithoutId := ⟨"a", "2.3", none, none, "t"⟩
  [.task "g" 0 (.connect info), .task "g" 0 .sendHello, .task "x" 2 (.connect info),
    .task "g" 1 (.connect info), .task "g" 1 (.sendJoin 0), .task "x" 2 .sendHello,
    .task "g" 1 .sendHello, .task "g" 1 (.receive (.offer ⟨"s", 0, "sdp"⟩)),
    .task "g" 1 .handleMessage, .task "g" 1 .forward]

theorem signaling_isolation_offerRun :
    ∃ s s', (server ⟨10, 10⟩).Run Machine.anyStep State.empty offerRun s ∧
      (server ⟨10, 10⟩).Run Machine.anyStep State.empty
        (offerRun.filter (Event.visible "g")) s' ∧
      s.placedFrom 1 0 = [.offer ⟨"s", 0, "sdp"⟩] ∧ (s.placedFrom 1 0).Sublist (sentTo 1 0 offerRun) ∧
      s.placed 0 = s'.placed 0 := by
  have hrun : ((server ⟨10, 10⟩).run State.empty offerRun).map
      (fun s => (s.placedFrom 1 0, (s.handler 0).map Handler.group)) =
      some ([.offer ⟨"s", 0, "sdp"⟩], some "g") := by decide
  obtain ⟨s, hs, hobs⟩ := Machine.run_observe hrun
  obtain ⟨h1, h2, h3⟩ := signaling_isolation ⟨10, 10⟩
  obtain ⟨s', hs'⟩ := h3 "g" offerRun s hs
  obtain ⟨hpl, hg⟩ := Prod.mk.inj hobs
  obtain ⟨h, hh, hgrp⟩ := Option.map_eq_some_iff.mp hg
  refine ⟨s, s', hs, hs', hpl, (h1 offerRun s hs).2 1 0, ?_⟩
  exact (h2 "g" offerRun _ s s' hs hs' (by decide) 0 (Or.inl ⟨h, hh, hgrp⟩)).2

end LocalSend.Signaling
