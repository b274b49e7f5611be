/-
  File:      LocalSend/Signaling/Invariant.lean
  Subject:   What one step of the signaling server can do, and the invariant of its tables.

  * `Step` -- every transition of `step`, one constructor each, with its guard and its successor
    (`step_inv`: the machine does nothing else);
  * `Tables` -- the invariant of the shared maps: a peer is registered exactly while its handler
    is between admission and removal, under the handler's own group and with its own channel; the
    targets of every loop are connections of the same group (`tables_run`: on every run).
-/
import LocalSend.Lib.Assoc
import LocalSend.Signaling.Server
import Mathlib.Data.List.Nodup

namespace LocalSend.Signaling

open Lib

variable {l : Limits} {s t s1 : State} {e : Event} {c p : Uuid} {m : WsServerMessage}

/-! ## 1. Sends -/

/-- The receiving half of the channel of `c` is alive. -/
def State.isOpen (s : State) (c : Uuid) : Prop := ∃ h, s.handler c = some h ∧ h.phase.isOpen = true

/-- **What a send can do**: append to an open channel with room, or nothing at a closed one. -/
theorem send_inv (h : s.send c m = some t) :
    (s.isOpen c ∧ (s.queue c).length < channelCapacity ∧ t = s.push c m) ∨
    (¬ s.isOpen c ∧ t = s) := by
  unfold State.send at h
  split at h
  · rename_i hc
    refine Or.inr ⟨?_, by simpa using h.symm⟩
    intro h
    obtain ⟨h', hh', _⟩ := h
    rw [hc] at hh'
    cases hh'
  · rename_i h' hc
    split at h
    · rename_i ho
      split at h
      · rename_i hl
        exact Or.inl ⟨⟨h', hc, ho⟩, hl, by simpa using h.symm⟩
      · cases h
    · rename_i ho
      refine Or.inr ⟨?_, by simpa using h.symm⟩
      intro h
      obtain ⟨h2, hh2, ho2⟩ := h
      rw [hc] at hh2
      cases hh2
      exact ho ho2

theorem send_handler (h : s.send c m = some t) : t.handler = s.handler := by
  rcases send_inv h with ⟨_, _, rfl⟩ | ⟨_, rfl⟩ <;> rfl

theorem send_txMap (h : s.send c m = some t) : t.txMap = s.txMap := by
  rcases send_inv h with ⟨_, _, rfl⟩ | ⟨_, rfl⟩ <;> rfl

theorem send_taken (h : s.send c m = some t) : t.taken = s.taken := by
  rcases send_inv h with ⟨_, _, rfl⟩ | ⟨_, rfl⟩ <;> rfl

theorem send_count (h : s.send c m = some t) : t.requestCountMap = s.requestCountMap := by
  rcases send_inv h with ⟨_, _, rfl⟩ | ⟨_, rfl⟩ <;> rfl

/-- A send touches one queue only. -/
theorem send_queue_ne (h : s.send c m = some t) {d : Uuid} (hd : d ≠ c) :
    t.queue d = s.queue d := by
  rcases send_inv h with ⟨_, _, rfl⟩ | ⟨_, rfl⟩
  · exact Function.update_of_ne hd _ _
  · rfl

/-! ## 2. The steps -/

/-- The members of a group, empty if the map has no entry for it. -/
def State.members (s : State) (g : String) : TxLocalMap := (s.txMap g).getD []

/-- The requests counted for a group since the last reset. -/
def State.requests (s : State) (g : String) : Nat := (s.requestCountMap g).getD 0

/-- **Every transition of the server**, with its guard and its successor. -/
inductive Step (l : Limits) (s : State) : Event → State → Prop where
  | clear : Step l s .clearCounts { s with requestCountMap := fun _ => none }
  | refusedFull (g : String) (p : Uuid) (info : ClientInfoWithoutId) (hp : s.handler p = none)
      (hfull : l.maxConnections ≤ (s.members g).length) :
      Step l s (.task g p (.connect info))
        ({ s with txMap := Function.update s.txMap g (some (s.members g)) }.setHandler p
          ⟨g, ClientInfo.from info p, .refused⟩)
  | refusedCount (g : String) (p : Uuid) (info : ClientInfoWithoutId) (hp : s.handler p = none)
      (hroom : (s.members g).length < l.maxConnections) (hcount : l.maxRequests ≤ s.requests g) :
      Step l s (.task g p (.connect info))
        ({ s with
            txMap := Function.update s.txMap g (some (s.members g))
            requestCountMap := Function.update s.requestCountMap g (some (s.requests g)) }.setHandler
          p ⟨g, ClientInfo.from info p, .refused⟩)
  | admitted (g : String) (p : Uuid) (info : ClientInfoWithoutId) (hp : s.handler p = none)
      (hroom : (s.members g).length < l.maxConnections) (hcount : s.requests g < l.maxRequests) :
      Step l s (.task g p (.connect info))
        ({ s with
            txMap := Function.update s.txMap g (some (s.members g ++ [(p, ClientState.mk info p)]))
            requestCountMap :=
              Function.update s.requestCountMap g (some (s.requests g + 1)) }.setHandler
          p ⟨g, ClientInfo.from info p, .joining (s.members g).txs (s.members g).infos⟩)
  | join (p : Uuid) (h : Handler) (peersTx : List Uuid) (peers : List ClientInfo) (c : Uuid)
      (s1 : State) (hp : s.handler p = some h) (hph : h.phase = .joining peersTx peers)
      (hc : c ∈ peersTx) (hs : s.send c (.join h.peer) = some s1) :
      Step l s (.task h.group p (.sendJoin c)) (s1.setPhase p h (.joining (peersTx.erase c) peers))
  | hello (p : Uuid) (h : Handler) (peers : List ClientInfo) (s1 : State)
      (hp : s.handler p = some h) (hph : h.phase = .joining [] peers)
      (hs : s.send p (.hello h.peer peers) = some s1) :
      Step l s (.task h.group p .sendHello) (s1.setPhase p h (.running .idle))
  | tooMany (p : Uuid) (h : Handler) (msg : WsClientMessage) (hp : s.handler p = some h)
      (hph : h.phase = .running .idle) (hcount : l.maxRequests ≤ s.requests h.group) :
      Step l s (.task h.group p (.receive msg))
        ({ s with
            requestCountMap :=
              Function.update s.requestCountMap h.group (some (s.requests h.group)) }.setPhase p h
          (.running .erring))
  | counted (p : Uuid) (h : Handler) (msg : WsClientMessage) (hp : s.handler p = some h)
      (hph : h.phase = .running .idle) (hcount : s.requests h.group < l.maxRequests) :
      Step l s (.task h.group p (.receive msg))
        ({ s with
            requestCountMap :=
              Function.update s.requestCountMap h.group (some (s.requests h.group + 1)) }.setPhase
          p h (.running (.counted msg)))
  | update (p : Uuid) (h : Handler) (info : ClientInfoWithoutId) (m : TxLocalMap)
      (hp : s.handler p = some h) (hph : h.phase = .running (.counted (.update info)))
      (hm : s.txMap h.group = some m) (hreg : (m.get p).isSome = true) :
      Step l s (.task h.group p .handleMessage)
        ({ s with
            txMap := Function.update s.txMap h.group (some (m.setClient p info)) }.setPhase
          p h (.running (.afterUpdate (TxLocalMap.txs (m.erase p)) (ClientInfo.from info p))))
  | updateLost (p : Uuid) (h : Handler) (info : ClientInfoWithoutId) (hp : s.handler p = some h)
      (hph : h.phase = .running (.counted (.update info)))
      (hreg : TxLocalMap.get (s.members h.group) p = none) :
      Step l s (.task h.group p .handleMessage) (s.setPhase p h (.running .idle))
  | sdp (p : Uuid) (h : Handler) (msg : WsClientMessage) (target tx : Uuid)
      (out : WsServerMessage) (hp : s.handler p = some h)
      (hph : h.phase = .running (.counted msg))
      (hmsg : toServerMessage h.peer msg = some (target, out))
      (htx : sendToPeerWithLock s.txMap h.group target = some tx) :
      Step l s (.task h.group p .handleMessage)
        (s.setPhase p h (.running (.forwarding tx out)))
  | sdpLost (p : Uuid) (h : Handler) (msg : WsClientMessage) (target : Uuid)
      (out : WsServerMessage) (hp : s.handler p = some h)
      (hph : h.phase = .running (.counted msg))
      (hmsg : toServerMessage h.peer msg = some (target, out))
      (htx : sendToPeerWithLock s.txMap h.group target = none) :
      Step l s (.task h.group p .handleMessage) (s.setPhase p h (.running .idle))
  | sendUpdate (p : Uuid) (h : Handler) (peersTx : List Uuid) (peer : ClientInfo) (c : Uuid)
      (s1 : State) (hp : s.handler p = some h) (hph : h.phase = .running (.updating peersTx peer))
      (hc : c ∈ peersTx) (hs : s.send c (.update peer) = some s1) :
      Step l s (.task h.group p (.sendUpdate c))
        (s1.setPhase p h (.running (.afterUpdate (peersTx.erase c) peer)))
  | forward (p : Uuid) (h : Handler) (tx : Uuid) (msg : WsServerMessage) (s1 : State)
      (hp : s.handler p = some h) (hph : h.phase = .running (.forwarding tx msg))
      (hs : s.send tx msg = some s1) :
      Step l s (.task h.group p .forward) (s1.setPhase p h (.running .idle))
  | sendError (p : Uuid) (h : Handler) (s1 : State) (hp : s.handler p = some h)
      (hph : h.phase = .running .erring) (hs : s.send p (.error 429) = some s1) :
      Step l s (.task h.group p .sendError) (s1.setPhase p h (.running .returned))
  | take (p : Uuid) (h : Handler) (r : RecvTask) (m : WsServerMessage)
      (rest : List WsServerMessage) (hp : s.handler p = some h) (hph : h.phase = .running r)
      (hq : s.queue p = m :: rest) :
      Step l s (.task h.group p .take)
        { s with
          queue := Function.update s.queue p rest
          taken := Function.update s.taken p (s.taken p ++ [m]) }
  | disconnect (p : Uuid) (h : Handler) (r : RecvTask) (hp : s.handler p = some h)
      (hph : h.phase = .running r) :
      Step l s (.task h.group p .disconnect) (s.setPhase p h .ended)
  | removeLast (p : Uuid) (h : Handler) (hp : s.handler p = some h) (hph : h.phase = .ended)
      (hm : TxLocalMap.erase (s.members h.group) p = []) :
      Step l s (.task h.group p .remove)
        ({ s with txMap := Function.update s.txMap h.group none }.setPhase p h .finished)
  | remove (p : Uuid) (h : Handler) (hp : s.handler p = some h) (hph : h.phase = .ended)
      (hm : TxLocalMap.erase (s.members h.group) p ≠ []) :
      Step l s (.task h.group p .remove)
        ({ s with
            txMap := Function.update s.txMap h.group
              (some (TxLocalMap.erase (s.members h.group) p)) }.setPhase p h
          (.leaving (TxLocalMap.txs (TxLocalMap.erase (s.members h.group) p))))
  | sendLeft (p : Uuid) (h : Handler) (remainingTx : List Uuid) (c : Uuid) (s1 : State)
      (hp : s.handler p = some h) (hph : h.phase = .leaving remainingTx) (hc : c ∈ remainingTx)
      (hs : s.send c (.left p) = some s1) :
      Step l s (.task h.group p (.sendLeft c)) (s1.setPhase p h (.afterLeft (remainingTx.erase c)))

/-- The admission block does one of three things. -/
theorem connect_inv {g : String} {info : ClientInfoWithoutId}
    (h : connect l s g p info = some t) : Step l s (.task g p (.connect info)) t := by
  unfold connect at h
  split at h
  · cases h
  rename_i hp
  have hp' : s.handler p = none := by simpa using hp
  dsimp only at h
  split at h
  · rename_i hfull
    cases h
    exact .refusedFull g p info hp' hfull
  rename_i hroom
  have hroom' : (s.members g).length < l.maxConnections := Nat.lt_of_not_le hroom
  unfold protectDdosRequestCount at h
  dsimp only at h
  by_cases hcount : l.maxRequests ≤ s.requests g
  · have hc : (s.requestCountMap g).getD 0 ≥ l.maxRequests := hcount
    simp only [hc, if_true, Option.some.injEq] at h
    subst h
    exact .refusedCount g p info hp' hroom' hcount
  · have hc : ¬ (s.requestCountMap g).getD 0 ≥ l.maxRequests := hcount
    simp only [hc, if_false, Option.some.injEq] at h
    subst h
    exact .admitted g p info hp' hroom' (Nat.lt_of_not_le hcount)

/-- An offer or answer is about to be sent, or its target is not in the group. -/
theorem forwardTo_inv (msg : WsClientMessage) {h : Handler} {target : Uuid} {out : WsServerMessage}
    (hp : s.handler p = some h) (hph : h.phase = .running (.counted msg))
    (hmsg : toServerMessage h.peer msg = some (target, out)) :
    Step l s (.task h.group p .handleMessage) (s.forwardTo p h target out) := by
  unfold State.forwardTo
  cases htx : sendToPeerWithLock s.txMap h.group target with
  | none => exact .sdpLost p h msg target out hp hph hmsg htx
  | some tx => exact .sdp p h msg target tx out hp hph hmsg htx

/-- A client message is counted, or the limit is reached. -/
theorem receive_inv {h : Handler} {msg : WsClientMessage} (hp : s.handler p = some h)
    (hph : h.phase = .running .idle) :
    Step l s (.task h.group p (.receive msg)) (receive l s p h msg) := by
  unfold receive protectDdosRequestCount
  by_cases hcount : l.maxRequests ≤ s.requests h.group
  · have hc : (s.requestCountMap h.group).getD 0 ≥ l.maxRequests := hcount
    simp only [hc, if_true]
    exact .tooMany p h msg hp hph hcount
  · have hc : ¬ (s.requestCountMap h.group).getD 0 ≥ l.maxRequests := hcount
    simp only [hc, if_false]
    exact .counted p h msg hp hph (Nat.lt_of_not_le hcount)

/-- A counted message does one of four things. -/
theorem handleMessage_inv {h : Handler} {msg : WsClientMessage} (hp : s.handler p = some h)
    (hph : h.phase = .running (.counted msg)) :
    Step l s (.task h.group p .handleMessage) (handleMessage s p h msg) := by
  unfold handleMessage
  cases msg with
  | update info =>
      simp only [sendUpdateToOtherPeersWithLock]
      cases hm : s.txMap h.group with
      | none =>
          simp only [RecvTask.afterUpdate, if_true]
          exact .updateLost p h info hp hph (by simp [State.members, hm, TxLocalMap.get])
      | some m =>
          dsimp only
          cases hg : m.get p with
          | none =>
              simp only [RecvTask.afterUpdate, if_true]
              exact .updateLost p h info hp hph (by simp [State.members, hm, hg])
          | some cs => exact .update p h info m hp hph hm (by rw [hg]; rfl)
  | offer sdp => exact forwardTo_inv (.offer sdp) hp hph rfl
  | answer sdp => exact forwardTo_inv (.answer sdp) hp hph rfl

/-- The removal block does one of two things. -/
theorem remove_inv {h : Handler} (hp : s.handler p = some h) (hph : h.phase = .ended) :
    Step l s (.task h.group p .remove) (remove s p h) := by
  unfold remove
  cases hm : s.txMap h.group with
  | none =>
      have hm' : TxLocalMap.erase (s.members h.group) p = [] := by
        simp [State.members, hm, TxLocalMap.erase]
      have := Step.removeLast (l := l) p h hp hph hm'
      rwa [show Function.update s.txMap h.group none = s.txMap by
        rw [← hm, Function.update_eq_self]] at this
  | some m =>
      have hmem : s.members h.group = m := by simp [State.members, hm]
      dsimp only
      split
      · rename_i he
        exact .removeLast p h hp hph (by rw [hmem]; simpa using he)
      · rename_i he
        have := Step.remove (l := l) p h hp hph (by rw [hmem]; simpa using he)
        rwa [hmem] at this

/-- **Inversion**: whatever the machine does is one of the listed transitions. -/
theorem step_inv (hs : (server l).step s e = some t) : Step l s e t := by
  change step l s e = some t at hs
  unfold step at hs
  split at hs
  · cases hs
    exact .clear
  · exact connect_inv hs
  · rename_i g p a hne
    split at hs
    · rename_i h hp
      split at hs
      · rename_i hg
        subst hg
        unfold taskStep at hs
        split at hs
        · rename_i peersTx peers c hph
          split at hs
          · rename_i hc
            obtain ⟨s1, hs1, rfl⟩ := Option.map_eq_some_iff.mp hs
            exact .join p h peersTx peers c s1 hp hph hc hs1
          · cases hs
        · rename_i peers hph
          obtain ⟨s1, hs1, rfl⟩ := Option.map_eq_some_iff.mp hs
          exact .hello p h peers s1 hp hph hs1
        · rename_i msg hph
          cases hs
          exact receive_inv hp hph
        · rename_i msg hph
          cases hs
          exact handleMessage_inv hp hph
        · rename_i peersTx peer c hph
          split at hs
          · rename_i hc
            obtain ⟨s1, hs1, rfl⟩ := Option.map_eq_some_iff.mp hs
            exact .sendUpdate p h peersTx peer c s1 hp hph hc hs1
          · cases hs
        · rename_i tx msg hph
          obtain ⟨s1, hs1, rfl⟩ := Option.map_eq_some_iff.mp hs
          exact .forward p h tx msg s1 hp hph hs1
        · rename_i hph
          obtain ⟨s1, hs1, rfl⟩ := Option.map_eq_some_iff.mp hs
          exact .sendError p h s1 hp hph hs1
        · rename_i r hph
          split at hs
          · rename_i m rest hq
            cases hs
            exact .take p h r m rest hp hph hq
          · cases hs
        · rename_i r hph
          cases hs
          exact .disconnect p h r hp hph
        · rename_i hph
          cases hs
          exact remove_inv hp hph
        · rename_i remainingTx c hph
          split at hs
          · rename_i hc
            obtain ⟨s1, hs1, rfl⟩ := Option.map_eq_some_iff.mp hs
            exact .sendLeft p h remainingTx c s1 hp hph hc hs1
          · cases hs
        · cases hs
      · cases hs
    · cases hs

/-! ## 3. The invariant of the tables -/

/-- Between admission and removal. -/
def Phase.registered : Phase → Bool
  | .joining _ _ | .running _ | .ended => true
  | _ => false

/-- The channels the task is about to send into. -/
def Phase.targets : Phase → List Uuid
  | .joining peersTx _ => peersTx
  | .running (.updating peersTx _) => peersTx
  | .running (.forwarding tx _) => [tx]
  | .leaving remainingTx => remainingTx
  | _ => []

/-- **The invariant of the shared tables.** -/
structure Tables (s : State) : Prop where
  peerId : ∀ p h, s.handler p = some h → h.peer.id = p
  entry : ∀ g k cs, (k, cs) ∈ s.members g →
    cs.tx = k ∧ ∃ h, s.handler k = some h ∧ h.group = g ∧ h.phase.registered = true
  present : ∀ p h, s.handler p = some h → h.phase.registered = true →
    ∃ cs, (p, cs) ∈ s.members h.group
  keys : ∀ g, ((s.members g).map Prod.fst).Nodup
  targets : ∀ p h c, s.handler p = some h → c ∈ h.phase.targets →
    ∃ k, s.handler c = some k ∧ k.group = h.group
  unused : ∀ c, s.handler c = none → s.queue c = [] ∧ s.taken c = []

theorem tables_empty : Tables State.empty where
  peerId _ _ h := by cases h
  entry _ _ _ h := absurd h List.not_mem_nil
  present _ _ h := by cases h
  keys _ := List.nodup_nil
  targets _ _ _ h := by cases h
  unused _ _ := ⟨rfl, rfl⟩

theorem setPhase_handler_self (s : State) (p : Uuid) (h : Handler) (ph : Phase) :
    (s.setPhase p h ph).handler p = some { h with phase := ph } := Function.update_self _ _ _

theorem setPhase_handler_ne (s : State) (p : Uuid) (h : Handler) (ph : Phase) {q : Uuid}
    (hq : q ≠ p) : (s.setPhase p h ph).handler q = s.handler q := Function.update_of_ne hq _ _

/-- A send keeps unused channels empty. -/
theorem send_unused (hT : Tables s) (hs : s.send c m = some t) {d : Uuid}
    (hd : s.handler d = none) : t.queue d = [] ∧ t.taken d = [] := by
  obtain ⟨h1, h2⟩ := hT.unused d hd
  rcases send_inv hs with ⟨⟨h, hh, _⟩, _, rfl⟩ | ⟨_, rfl⟩
  · have hne : d ≠ c := by
      rintro rfl
      rw [hd] at hh
      cases hh
    exact ⟨by rw [show (s.push c m).queue d = s.queue d from Function.update_of_ne hne _ _, h1], h2⟩
  · exact ⟨h1, h2⟩

/-- The registered ids of a group with their channels: what an update of an info leaves alone. -/
def State.channels (s : State) (g : String) : List (Uuid × Uuid) :=
  (s.members g).map fun kv => (kv.1, kv.2.tx)

theorem mem_channels {g : String} {k tx : Uuid} :
    (k, tx) ∈ s.channels g ↔ ∃ cs, (k, cs) ∈ s.members g ∧ cs.tx = tx := by
  simp only [State.channels, List.mem_map, Prod.mk.injEq, Prod.exists]
  constructor
  · intro h
    obtain ⟨k', cs, hmem, rfl, rfl⟩ := h
    exact ⟨cs, hmem, rfl⟩
  · intro h
    obtain ⟨cs, hmem, rfl⟩ := h
    exact ⟨k, cs, hmem, rfl, rfl⟩

theorem channels_keys (s : State) (g : String) :
    (s.channels g).map Prod.fst = (s.members g).map Prod.fst := by
  simp [State.channels, Function.comp_def]

/-- **A step inside one task** keeps the tables: the registered channels and the registration of
    the task stay, every new target is a connection of the group. -/
theorem tables_phase (hT : Tables s) {h : Handler} {ph : Phase} (hp : s.handler p = some h)
    (hm : t.channels = s.channels)
    (hh : t.handler = Function.update s.handler p (some { h with phase := ph }))
    (hr : ph.registered = h.phase.registered)
    (ht : ∀ c ∈ ph.targets, ∃ k, s.handler c = some k ∧ k.group = h.group)
    (hu : ∀ d, s.handler d = none → t.queue d = [] ∧ t.taken d = []) : Tables t := by
  -- every connection keeps its group and its registration
  have hkeep : ∀ q k, s.handler q = some k →
      ∃ k', t.handler q = some k' ∧ k'.group = k.group ∧
        k'.phase.registered = k.phase.registered := by
    intro q k hq
    by_cases hqp : q = p
    · subst hqp
      rw [hp] at hq
      cases hq
      exact ⟨{ h with phase := ph }, by rw [hh, Function.update_self], rfl, hr⟩
    · exact ⟨k, by rw [hh, Function.update_of_ne hqp]; exact hq, rfl, rfl⟩
  have hback : ∀ q k', t.handler q = some k' →
      ∃ k, s.handler q = some k ∧ k'.peer = k.peer ∧ k'.group = k.group ∧
        k'.phase.registered = k.phase.registered ∧ (q = p ∧ k'.phase = ph ∧ k = h ∨ k' = k) := by
    intro q k' hq
    by_cases hqp : q = p
    · subst hqp
      rw [hh, Function.update_self] at hq
      cases hq
      exact ⟨h, hp, rfl, rfl, hr, Or.inl ⟨rfl, rfl, rfl⟩⟩
    · rw [hh, Function.update_of_ne hqp] at hq
      exact ⟨k', hq, rfl, rfl, rfl, Or.inr rfl⟩
  refine ⟨fun q k' hq => ?_, fun g k cs hk => ?_, fun q k' hq hreg => ?_, fun g => ?_,
    fun q k' c hq hc => ?_, fun d hd => ?_⟩
  · obtain ⟨k, hk, hpe, _⟩ := hback q k' hq
    rw [hpe]
    exact hT.peerId q k hk
  · have hk' := mem_channels.mpr ⟨cs, hk, rfl⟩
    rw [hm] at hk'
    obtain ⟨cs', hcs', htx'⟩ := mem_channels.mp hk'
    obtain ⟨htx, h0, hh0, hg0, hr0⟩ := hT.entry g k cs' hcs'
    obtain ⟨k', hk', hg', hr'⟩ := hkeep k h0 hh0
    exact ⟨htx'.symm.trans htx, k', hk', hg'.trans hg0, hr'.trans hr0⟩
  · obtain ⟨k, hk, _, hg, hr', _⟩ := hback q k' hq
    obtain ⟨cs, hcs⟩ := hT.present q k hk (hr' ▸ hreg)
    have hk' := mem_channels.mpr ⟨cs, hcs, rfl⟩
    rw [← hm] at hk'
    obtain ⟨cs', hcs', _⟩ := mem_channels.mp hk'
    exact ⟨cs', hg ▸ hcs'⟩
  · rw [← channels_keys, hm, channels_keys]
    exact hT.keys g
  · obtain ⟨k, hk, _, hg, _, hor⟩ := hback q k' hq
    have hex : ∃ j, s.handler c = some j ∧ j.group = k.group := by
      rcases hor with ⟨_, hph', rfl⟩ | rfl
      · exact ht c (hph' ▸ hc)
      · exact hT.targets q _ c hk hc
    obtain ⟨j, hj, hjg⟩ := hex
    obtain ⟨j', hj', hjg', _⟩ := hkeep c j hj
    exact ⟨j', hj', hjg'.trans (hjg.trans hg.symm)⟩
  · have hd' : s.handler d = none := by
      by_contra hne
      obtain ⟨k, hk⟩ := Option.ne_none_iff_exists'.mp hne
      obtain ⟨k', hk', _⟩ := hkeep d k hk
      rw [hd] at hk'
      cases hk'
    exact hu d hd'

theorem members_update {g : String} {v : Option TxLocalMap}
    (h : t.txMap = Function.update s.txMap g v) :
    t.members = Function.update s.members g (v.getD []) := by
  funext g'
  by_cases hg : g' = g
  · subst hg
    simp [State.members, h]
  · simp [State.members, h, hg]

theorem members_update_self {g : String}
    (h : t.txMap = Function.update s.txMap g (some (s.members g))) : t.members = s.members :=
  (members_update h).trans (Function.update_eq_self g s.members)

/-- **A new connection** keeps the tables, refused or admitted. -/
theorem tables_new (hT : Tables s) {h : Handler} (hp : s.handler p = none) (hid : h.peer.id = p)
    (hh : t.handler = Function.update s.handler p (some h))
    (hq : t.queue = s.queue ∧ t.taken = s.taken)
    (ht : ∀ c ∈ h.phase.targets, ∃ cs, (c, cs) ∈ s.members h.group)
    (hm : (h.phase.registered = false ∧ t.members = s.members) ∨
      (h.phase.registered = true ∧ ∃ info, t.members = Function.update s.members h.group
        (s.members h.group ++ [(p, ClientState.mk info p)]))) : Tables t := by
  have hold : ∀ q k, s.handler q = some k → t.handler q = some k := by
    intro q k hk
    have hne : q ≠ p := by
      rintro rfl
      rw [hp] at hk
      cases hk
    rw [hh, Function.update_of_ne hne]
    exact hk
  have hself : t.handler p = some h := by rw [hh, Function.update_self]
  have hback : ∀ q k, t.handler q = some k → (q = p ∧ k = h) ∨ s.handler q = some k := by
    intro q k hk
    by_cases hqp : q = p
    · subst hqp
      rw [hself] at hk
      cases hk
      exact Or.inl ⟨rfl, rfl⟩
    · rw [hh, Function.update_of_ne hqp] at hk
      exact Or.inr hk
  -- the members grow by the new peer at most
  have hmem : ∀ g x, x ∈ s.members g → x ∈ t.members g := by
    intro g x hx
    rcases hm with ⟨_, hm⟩ | ⟨_, info, hm⟩
    · rwa [hm]
    · rw [hm]
      by_cases hg : g = h.group
      · subst hg
        rw [Function.update_self]
        exact List.mem_append_left _ hx
      · rwa [Function.update_of_ne hg]
  have hnew : ∀ g x, x ∈ t.members g → x ∈ s.members g ∨
      (h.phase.registered = true ∧ g = h.group ∧ x.1 = p ∧ x.2.tx = p) := by
    intro g x hx
    rcases hm with ⟨_, hm⟩ | ⟨hr, info, hm⟩
    · rw [hm] at hx
      exact Or.inl hx
    · rw [hm] at hx
      by_cases hg : g = h.group
      · subst hg
        rw [Function.update_self] at hx
        rcases List.mem_append.mp hx with hx | hx
        · exact Or.inl hx
        · rw [List.mem_singleton] at hx
          subst hx
          exact Or.inr ⟨hr, rfl, rfl, rfl⟩
      · rw [Function.update_of_ne hg] at hx
        exact Or.inl hx
  refine ⟨fun q k hk => ?_, fun g k cs hk => ?_, fun q k hk hreg => ?_, fun g => ?_,
    fun q k c hk hc => ?_, fun d hd => ?_⟩
  · rcases hback q k hk with ⟨rfl, rfl⟩ | hk
    · exact hid
    · exact hT.peerId q k hk
  · rcases hnew g _ hk with hk | ⟨hr, rfl, hkp, htx⟩
    · obtain ⟨htx, h0, hh0, hg0, hr0⟩ := hT.entry g k cs hk
      exact ⟨htx, h0, hold k h0 hh0, hg0, hr0⟩
    · dsimp only at hkp htx
      subst hkp
      exact ⟨htx, h, hself, rfl, hr⟩
  · rcases hback q k hk with ⟨rfl, rfl⟩ | hk
    · rcases hm with ⟨hr, _⟩ | ⟨_, info, hm⟩
      · rw [hr] at hreg
        cases hreg
      · refine ⟨ClientState.mk info q, ?_⟩
        rw [hm, Function.update_self]
        exact List.mem_append_right _ (List.mem_singleton_self _)
    · obtain ⟨cs, hcs⟩ := hT.present q k hk hreg
      exact ⟨cs, hmem _ _ hcs⟩
  · rcases hm with ⟨_, hm⟩ | ⟨_, info, hm⟩
    · rw [hm]
      exact hT.keys g
    · rw [hm]
      by_cases hg : g = h.group
      · subst hg
        rw [Function.update_self, List.map_append]
        refine List.Nodup.append (hT.keys _) (List.nodup_singleton _) ?_
        intro k hk1 hk2
        obtain ⟨⟨k', cs⟩, hcs, rfl⟩ := List.mem_map.mp hk1
        obtain ⟨_, h0, hh0, _⟩ := hT.entry _ k' cs hcs
        simp only [List.map_cons, List.map_nil, List.mem_singleton] at hk2
        rw [hk2, hp] at hh0
        cases hh0
      · rw [Function.update_of_ne hg]
        exact hT.keys g
  · rcases hback q k hk with ⟨rfl, rfl⟩ | hk
    · obtain ⟨cs, hcs⟩ := ht c hc
      obtain ⟨_, h0, hh0, hg0, _⟩ := hT.entry _ c cs hcs
      exact ⟨h0, hold c h0 hh0, hg0⟩
    · obtain ⟨j, hj, hjg⟩ := hT.targets q k c hk hc
      exact ⟨j, hold c j hj, hjg⟩
  · have hd' : s.handler d = none := by
      by_contra hne
      obtain ⟨k, hk⟩ := Option.ne_none_iff_exists'.mp hne
      rw [hold d k hk] at hd
      cases hd
    rw [hq.1, hq.2]
    exact hT.unused d hd'

theorem mem_erase {m : TxLocalMap} {x : Uuid × ClientState} :
    x ∈ m.erase p ↔ x ∈ m ∧ x.1 ≠ p := by
  simp [TxLocalMap.erase, List.mem_filter]

theorem mem_txs {m : TxLocalMap} {tx : Uuid} : tx ∈ m.txs ↔ ∃ k cs, (k, cs) ∈ m ∧ cs.tx = tx := by
  simp [TxLocalMap.txs]

/-- **The removal** keeps the tables. -/
theorem tables_remove (hT : Tables s) {h : Handler} {ph : Phase} (hp : s.handler p = some h)
    (hm : t.members = Function.update s.members h.group (TxLocalMap.erase (s.members h.group) p))
    (hh : t.handler = Function.update s.handler p (some { h with phase := ph }))
    (hr : ph.registered = false)
    (ht : ∀ c ∈ ph.targets, c ∈ TxLocalMap.txs (TxLocalMap.erase (s.members h.group) p))
    (hq : t.queue = s.queue ∧ t.taken = s.taken) : Tables t := by
  have hself : t.handler p = some { h with phase := ph } := by rw [hh, Function.update_self]
  have hne : ∀ q, q ≠ p → t.handler q = s.handler q := fun q hqp => by
    rw [hh, Function.update_of_ne hqp]
  have hmem : ∀ g x, x ∈ t.members g ↔ x ∈ s.members g ∧ x.1 ≠ p := by
    intro g x
    by_cases hg : g = h.group
    · subst hg
      rw [hm, Function.update_self, mem_erase]
    · rw [hm, Function.update_of_ne hg]
      refine ⟨fun hx => ⟨hx, ?_⟩, fun hx => hx.1⟩
      rintro rfl
      obtain ⟨_, h0, hh0, hg0, _⟩ := hT.entry g x.1 x.2 hx
      rw [hp] at hh0
      cases hh0
      exact hg hg0.symm
  have hgrp : ∀ q k, s.handler q = some k → ∃ k', t.handler q = some k' ∧ k'.group = k.group := by
    intro q k hk
    by_cases hqp : q = p
    · subst hqp
      rw [hp] at hk
      cases hk
      exact ⟨_, hself, rfl⟩
    · exact ⟨k, by rw [hne q hqp, hk], rfl⟩
  refine ⟨fun q k hk => ?_, fun g k cs hk => ?_, fun q k hk hreg => ?_, fun g => ?_,
    fun q k c hk hc => ?_, fun d hd => ?_⟩
  · by_cases hqp : q = p
    · subst hqp
      rw [hself] at hk
      cases hk
      exact hT.peerId q h hp
    · rw [hne q hqp] at hk
      exact hT.peerId q k hk
  · obtain ⟨hk, hkp⟩ := (hmem g _).mp hk
    obtain ⟨htx, h0, hh0, hg0, hr0⟩ := hT.entry g k cs hk
    exact ⟨htx, h0, by rw [hne k hkp, hh0], hg0, hr0⟩
  · by_cases hqp : q = p
    · subst hqp
      rw [hself] at hk
      cases hk
      rw [hr] at hreg
      cases hreg
    · rw [hne q hqp] at hk
      obtain ⟨cs, hcs⟩ := hT.present q k hk hreg
      exact ⟨cs, (hmem _ _).mpr ⟨hcs, hqp⟩⟩
  · by_cases hg : g = h.group
    · subst hg
      rw [hm, Function.update_self]
      exact (hT.keys _).sublist (List.filter_sublist.map _)
    · rw [hm, Function.update_of_ne hg]
      exact hT.keys g
  · by_cases hqp : q = p
    · subst hqp
      rw [hself] at hk
      cases hk
      obtain ⟨k', cs, hcs, htx⟩ := mem_txs.mp (ht c hc)
      obtain ⟨hcs, _⟩ := mem_erase.mp hcs
      obtain ⟨htx', h0, hh0, hg0, _⟩ := hT.entry _ k' cs hcs
      obtain rfl : k' = c := htx'.symm.trans htx
      obtain ⟨j, hj, hjg⟩ := hgrp k' h0 hh0
      exact ⟨j, hj, hjg.trans hg0⟩
    · rw [hne q hqp] at hk
      obtain ⟨j, hj, hjg⟩ := hT.targets q k c hk hc
      obtain ⟨j', hj', hjg'⟩ := hgrp c j hj
      exact ⟨j', hj', hjg'.trans hjg⟩
  · have hd' : s.handler d = none := by
      by_contra hnone
      obtain ⟨k, hk⟩ := Option.ne_none_iff_exists'.mp hnone
      obtain ⟨k', hk', _⟩ := hgrp d k hk
      rw [hd] at hk'
      cases hk'
    rw [hq.1, hq.2]
    exact hT.unused d hd'

/-- A send followed by the task's own move keeps the tables. -/
theorem tables_send (hT : Tables s) {h : Handler} {ph : Phase} (hp : s.handler p = some h)
    (hs : s.send c m = some s1) (hr : ph.registered = h.phase.registered)
    (ht : ∀ c ∈ ph.targets, c ∈ h.phase.targets) : Tables (s1.setPhase p h ph) :=
  tables_phase hT hp
    (by funext g; simp [State.channels, State.members, State.setPhase, State.setHandler,
      send_txMap hs])
    (by simp [State.setPhase, State.setHandler, send_handler hs]) hr
    (fun c hc => hT.targets p h c hp (ht c hc)) (fun _ hd => send_unused hT hs hd)

theorem afterUpdate_targets {peersTx : List Uuid} {peer : ClientInfo} :
    (Phase.running (.afterUpdate peersTx peer)).targets = peersTx := by
  unfold RecvTask.afterUpdate
  split
  · rename_i h
    rw [h]
    rfl
  · rfl

theorem afterLeft_targets {remainingTx : List Uuid} :
    (Phase.afterLeft remainingTx).targets = remainingTx := by
  unfold Phase.afterLeft
  split
  · rename_i h
    rw [h]
    rfl
  · rfl

theorem afterLeft_registered (remainingTx : List Uuid) :
    (Phase.afterLeft remainingTx).registered = false := by
  unfold Phase.afterLeft
  split <;> rfl

theorem setClient_channels (m : TxLocalMap) (p : Uuid) (info : ClientInfoWithoutId) :
    (m.setClient p info).map (fun kv => (kv.1, kv.2.tx)) = m.map fun kv => (kv.1, kv.2.tx) := by
  simp only [TxLocalMap.setClient, List.map_map]
  refine List.map_congr_left fun kv _ => ?_
  by_cases h : kv.1 = p <;> simp [h]

/-- The group's connections stand behind the sender halves of its map. -/
theorem tables_txs (hT : Tables s) {g : String} (hc : c ∈ (s.members g).txs) :
    ∃ k, s.handler c = some k ∧ k.group = g := by
  obtain ⟨k, cs, hcs, htx⟩ := mem_txs.mp hc
  obtain ⟨htx', h0, hh0, hg0, _⟩ := hT.entry g k cs hcs
  obtain rfl : k = c := htx'.symm.trans htx
  exact ⟨h0, hh0, hg0⟩

/-- The target of a forwarded message is a connection of the group. -/
theorem tables_forward (hT : Tables s) {g : String} {target tx : Uuid}
    (h : sendToPeerWithLock s.txMap g target = some tx) :
    tx = target ∧ ∃ k, s.handler tx = some k ∧ k.group = g := by
  unfold sendToPeerWithLock at h
  split at h
  · rename_i m hm
    obtain ⟨cs, hcs, htx⟩ := Option.map_eq_some_iff.mp h
    have hmem : (target, cs) ∈ s.members g := by
      simp only [State.members, hm, Option.getD_some]
      exact Assoc.mem_of_lookup hcs
    obtain ⟨htx', h0, hh0, hg0, _⟩ := hT.entry g target cs hmem
    obtain rfl : tx = target := htx.symm.trans htx'
    exact ⟨rfl, h0, hh0, hg0⟩
  · cases h

/-- **Every step keeps the tables.** -/
theorem tables_step (hT : Tables s) (hs : Step l s e t) : Tables t := by
  cases hs with
  | clear => exact ⟨hT.peerId, hT.entry, hT.present, hT.keys, hT.targets, hT.unused⟩
  | refusedFull g p info hp hfull =>
      exact tables_new hT hp rfl rfl ⟨rfl, rfl⟩ (fun c hc => absurd hc List.not_mem_nil)
        (Or.inl ⟨rfl, members_update_self rfl⟩)
  | refusedCount g p info hp hroom hcount =>
      exact tables_new hT hp rfl rfl ⟨rfl, rfl⟩ (fun c hc => absurd hc List.not_mem_nil)
        (Or.inl ⟨rfl, members_update_self rfl⟩)
  | admitted g p info hp hroom hcount =>
      refine tables_new hT hp rfl rfl ⟨rfl, rfl⟩ (fun c hc => ?_)
        (Or.inr ⟨rfl, info, members_update (v := some _) rfl⟩)
      obtain ⟨k, cs, hcs, htx⟩ := mem_txs.mp hc
      obtain rfl : k = c := (hT.entry g k cs hcs).1.symm.trans htx
      exact ⟨cs, hcs⟩
  | join p h peersTx peers c s1 hp hph hc hs =>
      exact tables_send hT hp hs (by rw [hph]; rfl) (fun d hd => by
        rw [hph]
        exact List.mem_of_mem_erase hd)
  | hello p h peers s1 hp hph hs =>
      exact tables_send hT hp hs (by rw [hph]; rfl) (fun d hd => absurd hd List.not_mem_nil)
  | tooMany p h msg hp hph hcount =>
      exact tables_phase hT hp rfl rfl (by rw [hph]; rfl)
        (fun c hc => absurd hc List.not_mem_nil) hT.unused
  | counted p h msg hp hph hcount =>
      exact tables_phase hT hp rfl rfl (by rw [hph]; rfl)
        (fun c hc => absurd hc List.not_mem_nil) hT.unused
  | update p h info m hp hph hm hreg =>
      have hmem : s.members h.group = m := by simp [State.members, hm]
      refine tables_phase hT hp ?_ rfl (by rw [hph]; rfl) (fun c hc => ?_) hT.unused
      · funext g
        by_cases hg : g = h.group
        · subst hg
          simp [State.channels, State.members, State.setPhase, State.setHandler, hm,
            setClient_channels]
        · simp [State.channels, State.members, State.setPhase, State.setHandler, hg]
      · rw [afterUpdate_targets] at hc
        obtain ⟨k, cs, hcs, htx⟩ := mem_txs.mp hc
        refine tables_txs hT (hmem ▸ mem_txs.mpr ⟨k, cs, (mem_erase.mp hcs).1, htx⟩)
  | updateLost p h info hp hph hreg =>
      exact tables_phase hT hp rfl rfl (by rw [hph]; rfl)
        (fun c hc => absurd hc List.not_mem_nil) hT.unused
  | sdp p h msg target tx out hp hph hmsg htx =>
      refine tables_phase hT hp rfl rfl (by rw [hph]; rfl) (fun c hc => ?_) hT.unused
      rw [List.mem_singleton.mp hc]
      exact (tables_forward hT htx).2
  | sdpLost p h msg target out hp hph hmsg htx =>
      exact tables_phase hT hp rfl rfl (by rw [hph]; rfl)
        (fun c hc => absurd hc List.not_mem_nil) hT.unused
  | sendUpdate p h peersTx peer c s1 hp hph hc hs =>
      refine tables_send hT hp hs (by rw [hph]; rfl) (fun d hd => ?_)
      rw [afterUpdate_targets] at hd
      rw [hph]
      exact List.mem_of_mem_erase hd
  | forward p h tx msg s1 hp hph hs =>
      exact tables_send hT hp hs (by rw [hph]; rfl) (fun d hd => absurd hd List.not_mem_nil)
  | sendError p h s1 hp hph hs =>
      exact tables_send hT hp hs (by rw [hph]; rfl) (fun d hd => absurd hd List.not_mem_nil)
  | take p h r m rest hp hph hq =>
      refine ⟨hT.peerId, hT.entry, hT.present, hT.keys, hT.targets, fun d hd => ?_⟩
      have hne : d ≠ p := by
        rintro rfl
        have hd' : s.handler d = none := hd
        rw [hp] at hd'
        cases hd'
      dsimp only
      rw [Function.update_of_ne hne, Function.update_of_ne hne]
      exact hT.unused d hd
  | disconnect p h r hp hph =>
      exact tables_phase hT hp rfl rfl (by rw [hph]; rfl)
        (fun c hc => absurd hc List.not_mem_nil) hT.unused
  | removeLast p h hp hph hm =>
      refine tables_remove hT hp ?_ rfl rfl (fun c hc => absurd hc List.not_mem_nil) ⟨rfl, rfl⟩
      exact (members_update rfl).trans (by rw [hm]; rfl)
  | remove p h hp hph hm =>
      exact tables_remove hT hp (members_update (v := some _) rfl) rfl rfl
        (fun c hc => hc) ⟨rfl, rfl⟩
  | sendLeft p h remainingTx c s1 hp hph hc hs =>
      refine tables_send hT hp hs (by rw [afterLeft_registered, hph]; rfl) (fun d hd => ?_)
      rw [afterLeft_targets] at hd
      rw [hph]
      exact List.mem_of_mem_erase hd

/-- **The tables on every run.** -/
theorem tables_run {G : State → Event → Prop} {es : List Event}
    (h : (server l).Run G State.empty es s) : Tables s :=
  h.invariant tables_empty fun _ _ _ hT _ hs => tables_step hT (step_inv hs)

/-! ## 4. What a step does to the handlers and to the channels -/

theorem send_setPhase (hs : s.send c m = some s1) (p : Uuid) (h : Handler) (ph : Phase) :
    (s1.setPhase p h ph).handler = Function.update s.handler p (some { h with phase := ph }) := by
  rw [← send_handler hs]
  rfl

/-- **A step moves at most one handler**: none, one that is not refused to a phase that is not
    refused, or a new one. -/
theorem step_handler (hs : Step l s e t) :
    t.handler = s.handler ∨
    (∃ p h ph, s.handler p = some h ∧
      t.handler = Function.update s.handler p (some { h with phase := ph }) ∧
      h.phase ≠ .refused ∧ ph ≠ .refused) ∨
    (∃ p h, s.handler p = none ∧ t.handler = Function.update s.handler p (some h) ∧
      ∃ info, e = .task h.group p (.connect info)) := by
  cases hs with
  | clear => exact Or.inl rfl
  | refusedFull g p info hp hfull => exact Or.inr (Or.inr ⟨p, _, hp, rfl, info, rfl⟩)
  | refusedCount g p info hp hroom hcount => exact Or.inr (Or.inr ⟨p, _, hp, rfl, info, rfl⟩)
  | admitted g p info hp hroom hcount => exact Or.inr (Or.inr ⟨p, _, hp, rfl, info, rfl⟩)
  | join p h peersTx peers c s1 hp hph hc hs =>
      exact Or.inr (Or.inl ⟨p, h, _, hp, send_setPhase hs p h _, by rw [hph]; nofun, nofun⟩)
  | hello p h peers s1 hp hph hs =>
      exact Or.inr (Or.inl ⟨p, h, _, hp, send_setPhase hs p h _, by rw [hph]; nofun, nofun⟩)
  | tooMany p h msg hp hph hcount =>
      exact Or.inr (Or.inl ⟨p, h, _, hp, rfl, by rw [hph]; nofun, nofun⟩)
  | counted p h msg hp hph hcount =>
      exact Or.inr (Or.inl ⟨p, h, _, hp, rfl, by rw [hph]; nofun, nofun⟩)
  | update p h info m hp hph hm hreg =>
      exact Or.inr (Or.inl ⟨p, h, _, hp, rfl, by rw [hph]; nofun, nofun⟩)
  | updateLost p h info hp hph hreg =>
      exact Or.inr (Or.inl ⟨p, h, _, hp, rfl, by rw [hph]; nofun, nofun⟩)
  | sdp p h msg target tx out hp hph hmsg htx =>
      exact Or.inr (Or.inl ⟨p, h, _, hp, rfl, by rw [hph]; nofun, nofun⟩)
  | sdpLost p h msg target out hp hph hmsg htx =>
      exact Or.inr (Or.inl ⟨p, h, _, hp, rfl, by rw [hph]; nofun, nofun⟩)
  | sendUpdate p h peersTx peer c s1 hp hph hc hs =>
      exact Or.inr (Or.inl ⟨p, h, _, hp, send_setPhase hs p h _, by rw [hph]; nofun, nofun⟩)
  | forward p h tx msg s1 hp hph hs =>
      exact Or.inr (Or.inl ⟨p, h, _, hp, send_setPhase hs p h _, by rw [hph]; nofun, nofun⟩)
  | sendError p h s1 hp hph hs =>
      exact Or.inr (Or.inl ⟨p, h, _, hp, send_setPhase hs p h _, by rw [hph]; nofun, nofun⟩)
  | take p h r m rest hp hph hq => exact Or.inl rfl
  | disconnect p h r hp hph =>
      exact Or.inr (Or.inl ⟨p, h, _, hp, rfl, by rw [hph]; nofun, nofun⟩)
  | removeLast p h hp hph hm =>
      exact Or.inr (Or.inl ⟨p, h, _, hp, rfl, by rw [hph]; nofun, nofun⟩)
  | remove p h hp hph hm =>
      exact Or.inr (Or.inl ⟨p, h, _, hp, rfl, by rw [hph]; nofun, nofun⟩)
  | sendLeft p h remainingTx c s1 hp hph hc hs =>
      refine Or.inr (Or.inl ⟨p, h, _, hp, send_setPhase hs p h _, by rw [hph]; nofun, ?_⟩)
      unfold Phase.afterLeft
      split <;> nofun

/-- A connection keeps its group and its info for ever, and stays admitted. -/
theorem step_handler_keeps (hs : Step l s e t) {q : Uuid} {k : Handler}
    (hq : s.handler q = some k) :
    ∃ k', t.handler q = some k' ∧ k'.group = k.group ∧ k'.peer = k.peer ∧
      (k.phase ≠ .refused → k'.phase ≠ .refused) := by
  rcases step_handler hs with h | ⟨p, h, ph, hp, ht, _, hph⟩ | ⟨p, h, hp, ht, _⟩
  · exact ⟨k, by rw [h, hq], rfl, rfl, id⟩
  · by_cases hqp : q = p
    · subst hqp
      rw [hp] at hq
      cases hq
      exact ⟨{ k with phase := ph }, by rw [ht, Function.update_self], rfl, rfl, fun _ => hph⟩
    · exact ⟨k, by rw [ht, Function.update_of_ne hqp, hq], rfl, rfl, id⟩
  · have hqp : q ≠ p := by
      rintro rfl
      rw [hp] at hq
      cases hq
    exact ⟨k, by rw [ht, Function.update_of_ne hqp, hq], rfl, rfl, id⟩

/-- What a send adds to the channels. -/
theorem send_placed (h : s.send c m = some t) :
    t.placed = s.placed ∨
    (s.isOpen c ∧ t.placed = Function.update s.placed c (s.placed c ++ [m])) := by
  rcases send_inv h with ⟨ho, _, rfl⟩ | ⟨_, rfl⟩
  · refine Or.inr ⟨ho, ?_⟩
    funext d
    by_cases hd : d = c
    · subst hd
      simp [State.placed, State.push]
    · simp [State.placed, State.push, hd]
  · exact Or.inl rfl

/-- Taking a message moves it inside the channel's record. -/
theorem take_placed {rest : List WsServerMessage} (hq : s.queue p = m :: rest) :
    State.placed { s with
      queue := Function.update s.queue p rest
      taken := Function.update s.taken p (s.taken p ++ [m]) } = s.placed := by
  funext d
  by_cases hd : d = p
  · subst hd
    simp [State.placed, hq]
  · simp [State.placed, hd]

end LocalSend.Signaling
