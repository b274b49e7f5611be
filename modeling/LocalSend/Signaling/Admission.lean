/-
  File:      LocalSend/Signaling/Admission.lean
  Subject:   ADMISSION AND REMOVAL, over whole runs of the signaling server.

  * `step_moves` -- a step moves at most one connection, and forward only: joining, running, ended,
    then (by the removal) leaving and finished;
  * `Sizes` -- no group is larger than the limit; `Admitted` -- a peer is registered exactly from
    its admission to its removal; `LeftTold` -- how far the `Left` loop of a removal has come;
  * **`admission_invariant`** -- the three together, on every run;
  * `keepsNoEmpty` -- the guard of a step: no first connection of a group is refused;
    **`no_empty_groups`** -- runs of such steps keep no empty group, and a refused connection leaves
    the map as it was. `refused_leaves_empty`: otherwise the empty group stays.
-/
import LocalSend.Signaling.Rooms

namespace LocalSend.Signaling

open Lib

variable {l : Limits} {s t s1 : State} {e : Event} {c p : Uuid} {m : WsServerMessage}

/-! ## 1. Connections only move forward -/

/-- How far `handle_socket` has come. -/
def Phase.rank : Phase → Nat
  | .joining _ _ => 0
  | .running _ => 1
  | .ended => 2
  | .leaving _ => 3
  | .finished => 4
  | .refused => 5

/-- After the removal. -/
def Phase.gone : Phase → Bool
  | .leaving _ | .finished => true
  | _ => false

/-- The removal of `p`. -/
def Event.removes (p : Uuid) : Event → Bool
  | .task _ q .remove => q = p
  | _ => false

/-- The connection of `p` begins. -/
def Event.connects (p : Uuid) : Event → Bool
  | .task _ q (.connect _) => q = p
  | _ => false

theorem afterLeft_gone (remainingTx : List Uuid) : (Phase.afterLeft remainingTx).gone = true := by
  unfold Phase.afterLeft
  split <;> rfl

theorem afterLeft_rank (remainingTx : List Uuid) : 3 ≤ (Phase.afterLeft remainingTx).rank := by
  unfold Phase.afterLeft
  split
  · exact Nat.le_succ 3
  · exact Nat.le_refl 3

/-- The first three phases are those of a registered connection. -/
theorem rank_le_two {ph : Phase} (h : ph.rank ≤ 2) : ph.gone = false ∧ ph ≠ .refused := by
  cases ph with
  | refused => exact absurd h (by decide)
  | joining peersTx peers => exact ⟨rfl, by simp⟩
  | running r => exact ⟨rfl, by simp⟩
  | ended => exact ⟨rfl, by simp⟩
  | leaving remainingTx => exact absurd h (Nat.not_succ_le_self 2)
  | finished => exact absurd h (by decide)

/-- A refused connection goes nowhere, and one that is gone stays gone. -/
theorem rank_forward {a b : Phase} (h : a.rank ≤ b.rank) (hb : b ≠ .refused) :
    a ≠ .refused ∧ (a.gone = true → b.gone = true) := by
  constructor
  · intro ha
    rw [ha] at h
    cases b with
    | refused => exact hb rfl
    | finished => exact absurd h (by decide)
    | _ => exact absurd h (by simp [Phase.rank])
  · intro ha
    have hrank : 3 ≤ a.rank := by
      cases a with
      | leaving remainingTx => exact Nat.le_refl 3
      | finished => exact Nat.le_succ 3
      | _ => cases ha
    cases b with
    | refused => exact absurd rfl hb
    | leaving remainingTx => rfl
    | finished => rfl
    | _ => exact absurd (Nat.le_trans hrank h) (by simp [Phase.rank])

/-- A channel is open while its connection is joining or running. -/
theorem isOpen_iff_rank {ph : Phase} : ph.isOpen = true ↔ ph.rank ≤ 1 := by
  cases ph <;> simp [Phase.isOpen, Phase.rank]

/-- The send with which a `Left` loop goes on. -/
def SendsLeft (s : State) (p : Uuid) (h : Handler) (t : State) : Prop :=
  ∃ remainingTx c s1, h.phase = .leaving remainingTx ∧ c ∈ remainingTx ∧
    s.send c (.left p) = some s1 ∧ t = s1.setPhase p h (.afterLeft (remainingTx.erase c))

/-- One connection goes on. -/
structure Moves (s : State) (e : Event) (t : State) (p : Uuid) (h : Handler) (ph : Phase) :
    Prop where
  before : s.handler p = some h
  after : t.handler = Function.update s.handler p (some { h with phase := ph })
  rank : h.phase.rank ≤ ph.rank
  refused : ph ≠ .refused
  left : h.phase.gone = true → SendsLeft s p h t
  removes : ∀ q, e.removes q = true ↔ q = p ∧ h.phase.gone = false ∧ ph.gone = true
  connects : ∀ q, e.connects q = false

/-- **What a step does to the connections.** -/
theorem step_moves (hs : Step l s e t) :
    (t.handler = s.handler ∧ ∀ q, e.removes q = false ∧ e.connects q = false) ∨
    (∃ p h ph, Moves s e t p h ph) ∨
    (∃ p h, s.handler p = none ∧ t.handler = Function.update s.handler p (some h) ∧
      (∀ q, e.removes q = false ∧ (e.connects q = true ↔ q = p)) ∧ h.phase.gone = false ∧
      (h.phase = .refused ∨ h.phase.registered = true)) := by
  -- a connection that goes on before its removal
  have hmove : ∀ {p : Uuid} {h : Handler} {ph : Phase}, s.handler p = some h →
      t.handler = Function.update s.handler p (some { h with phase := ph }) →
      h.phase.rank ≤ ph.rank → ph.rank ≤ 2 → (∀ q, e.removes q = false ∧ e.connects q = false) →
      ∃ p h ph, Moves s e t p h ph := by
    intro p h ph hp ht hrank hlast he
    have hbefore : h.phase.gone = false := (rank_le_two (Nat.le_trans hrank hlast)).1
    have hafter := rank_le_two hlast
    refine ⟨p, h, ph, hp, ht, hrank, hafter.2, fun hg => ?_, fun q => ?_, fun q => (he q).2⟩
    · rw [hbefore] at hg
      cases hg
    · simp [(he q).1, hafter.1]
  have hquiet : ∀ {g : String} {q : Uuid} {a : Action}, e = .task g q a →
      (∀ info, a ≠ .connect info) → a ≠ .remove →
      ∀ r, e.removes r = false ∧ e.connects r = false := by
    intro g q a he hconnect hremove r
    rw [he]
    cases a <;> first | exact ⟨rfl, rfl⟩ | exact absurd rfl hremove | exact absurd rfl (hconnect _)
  have hnew : ∀ {g : String} {q : Uuid} {info : ClientInfoWithoutId},
      e = .task g q (.connect info) →
      ∀ r, e.removes r = false ∧ (e.connects r = true ↔ r = q) := by
    intro g q info he r
    rw [he]
    exact ⟨rfl, by simp [Event.connects, eq_comm]⟩
  cases hs with
  | clear => exact .inl ⟨rfl, fun q => ⟨rfl, rfl⟩⟩
  | refusedFull g p info hp hfull =>
      exact .inr (.inr ⟨p, _, hp, rfl, hnew rfl, rfl, .inl rfl⟩)
  | refusedCount g p info hp hroom hcount =>
      exact .inr (.inr ⟨p, _, hp, rfl, hnew rfl, rfl, .inl rfl⟩)
  | admitted g p info hp hroom hcount =>
      exact .inr (.inr ⟨p, _, hp, rfl, hnew rfl, rfl, .inr rfl⟩)
  | join p h peersTx peers c s1 hp hph hc hs =>
      exact .inr (.inl (hmove hp (send_setPhase hs p h _) (by rw [hph]; exact Nat.le_refl 0)
        (Nat.zero_le 2) (hquiet rfl (by simp) (by simp))))
  | hello p h peers s1 hp hph hs =>
      exact .inr (.inl (hmove hp (send_setPhase hs p h _) (by rw [hph]; exact Nat.zero_le 1)
        (Nat.le_succ 1) (hquiet rfl (by simp) (by simp))))
  | tooMany p h msg hp hph hcount =>
      exact .inr (.inl (hmove hp rfl (by rw [hph]; exact Nat.le_refl 1)
        (Nat.le_succ 1) (hquiet rfl (by simp) (by simp))))
  | counted p h msg hp hph hcount =>
      exact .inr (.inl (hmove hp rfl (by rw [hph]; exact Nat.le_refl 1)
        (Nat.le_succ 1) (hquiet rfl (by simp) (by simp))))
  | update p h info m hp hph hm hreg =>
      exact .inr (.inl (hmove hp rfl (by rw [hph]; exact Nat.le_refl 1)
        (Nat.le_succ 1) (hquiet rfl (by simp) (by simp))))
  | updateLost p h info hp hph hreg =>
      exact .inr (.inl (hmove hp rfl (by rw [hph]; exact Nat.le_refl 1)
        (Nat.le_succ 1) (hquiet rfl (by simp) (by simp))))
  | sdp p h msg target tx out hp hph hmsg htx =>
      exact .inr (.inl (hmove hp rfl (by rw [hph]; exact Nat.le_refl 1)
        (Nat.le_succ 1) (hquiet rfl (by simp) (by simp))))
  | sdpLost p h msg target out hp hph hmsg htx =>
      exact .inr (.inl (hmove hp rfl (by rw [hph]; exact Nat.le_refl 1)
        (Nat.le_succ 1) (hquiet rfl (by simp) (by simp))))
  | sendUpdate p h peersTx peer c s1 hp hph hc hs =>
      exact .inr (.inl (hmove hp (send_setPhase hs p h _) (by rw [hph]; exact Nat.le_refl 1)
        (Nat.le_succ 1) (hquiet rfl (by simp) (by simp))))
  | forward p h tx msg s1 hp hph hs =>
      exact .inr (.inl (hmove hp (send_setPhase hs p h _) (by rw [hph]; exact Nat.le_refl 1)
        (Nat.le_succ 1) (hquiet rfl (by simp) (by simp))))
  | sendError p h s1 hp hph hs =>
      exact .inr (.inl (hmove hp (send_setPhase hs p h _) (by rw [hph]; exact Nat.le_refl 1)
        (Nat.le_succ 1) (hquiet rfl (by simp) (by simp))))
  | take p h r m rest hp hph hq => exact .inl ⟨rfl, hquiet rfl (by simp) (by simp)⟩
  | disconnect p h r hp hph =>
      exact .inr (.inl (hmove hp rfl (by rw [hph]; exact Nat.le_succ 1)
        (Nat.le_refl 2) (hquiet rfl (by simp) (by simp))))
  | removeLast p h hp hph hm =>
      refine .inr (.inl ⟨p, h, .finished, hp, rfl, by rw [hph]; decide, by simp, fun hg => ?_,
        fun q => ?_, fun q => rfl⟩)
      · rw [hph] at hg
        cases hg
      · simp [Event.removes, Phase.gone, hph, eq_comm]
  | remove p h hp hph hm =>
      refine .inr (.inl ⟨p, h, .leaving _, hp, rfl, by rw [hph]; exact Nat.le_succ 2, by simp,
        fun hg => ?_, fun q => ?_, fun q => rfl⟩)
      · rw [hph] at hg
        cases hg
      · simp [Event.removes, Phase.gone, hph, eq_comm]
  | sendLeft p h remainingTx c s1 hp hph hc hs =>
      refine .inr (.inl ⟨p, h, .afterLeft (remainingTx.erase c), hp, send_setPhase hs p h _,
        by rw [hph]; exact afterLeft_rank _, ?_, fun _ => ⟨remainingTx, c, s1, hph, hc, hs, rfl⟩,
        fun q => ?_, fun q => rfl⟩)
      · intro hrefused
        have hgone := afterLeft_gone (remainingTx.erase c)
        rw [hrefused] at hgone
        cases hgone
      · simp [Event.removes, Phase.gone, hph]

/-! ## 2. Sizes and registrations -/

/-- No group is larger than the limit. -/
def Sizes (l : Limits) (s : State) : Prop := ∀ g, (s.members g).length ≤ l.maxConnections

theorem sizes_update {g : String} {v : TxLocalMap} (h : Sizes l s)
    (ht : t.members = Function.update s.members g v) (hv : v.length ≤ l.maxConnections) :
    Sizes l t := by
  intro g'
  rw [ht]
  by_cases hg : g' = g
  · rw [hg, Function.update_self]
    exact hv
  · rw [Function.update_of_ne hg]
    exact h g'

theorem sizes_step (h : Sizes l s) (hs : Step l s e t) : Sizes l t := by
  have hsame : t.members = s.members → Sizes l t := by
    intro ht g
    rw [ht]
    exact h g
  cases hs with
  | refusedFull g p info hp hfull => exact hsame (members_update_self rfl)
  | refusedCount g p info hp hroom hcount => exact hsame (members_update_self rfl)
  | admitted g p info hp hroom hcount =>
      refine sizes_update h (members_update rfl) ?_
      rw [Option.getD_some, List.length_append, List.length_singleton]
      exact hroom
  | update p h' info m hp hph hm hreg =>
      have hlength : (s.members h'.group).length ≤ l.maxConnections := h h'.group
      refine sizes_update h (members_update rfl) ?_
      rw [Option.getD_some, TxLocalMap.setClient, List.length_map]
      rwa [State.members, hm] at hlength
  | removeLast p h' hp hph hm =>
      exact sizes_update h (members_update rfl) (Nat.zero_le _)
  | remove p h' hp hph hm =>
      exact sizes_update h (members_update rfl)
        (Nat.le_trans (List.length_filter_le _ _) (h h'.group))
  | join p h' peersTx peers c s1 hp hph hc hs => exact hsame (send_members hs)
  | hello p h' peers s1 hp hph hs => exact hsame (send_members hs)
  | sendUpdate p h' peersTx peer c s1 hp hph hc hs => exact hsame (send_members hs)
  | forward p h' tx msg s1 hp hph hs => exact hsame (send_members hs)
  | sendError p h' s1 hp hph hs => exact hsame (send_members hs)
  | sendLeft p h' remainingTx c s1 hp hph hc hs => exact hsame (send_members hs)
  | _ => exact hsame rfl

/-- The admission of `p` to a group: its connection begins and is not refused. -/
def admits (g : String) (p : Uuid) (_ : State) (e : Event) (t : State) : Prop :=
  e.connects p = true ∧ ∃ h, t.handler p = some h ∧ h.group = g ∧ h.phase ≠ .refused

def removal (p : Uuid) (_ : State) (e : Event) (_ : State) : Prop := e.removes p = true

/-- **What happened to a connection**, read off its handler. -/
structure Admitted (H : (State → Event → State → Prop) → Prop) (s : State) : Prop where
  absent : ∀ p, s.handler p = none → (∀ g, ¬H (admits g p)) ∧ ¬H (removal p)
  admitted : ∀ p h g, s.handler p = some h →
    (H (admits g p) ↔ h.group = g ∧ h.phase ≠ .refused)
  removed : ∀ p h, s.handler p = some h → (H (removal p) ↔ h.phase.gone = true)

theorem admitted_empty : Admitted (fun _ => False) State.empty where
  absent _ _ := ⟨fun _ h => h, fun h => h⟩
  admitted _ _ _ h := by cases h
  removed _ _ h := by cases h

theorem admitted_step {H : (State → Event → State → Prop) → Prop} (hA : Admitted H s)
    (hs : Step l s e t) : Admitted (fun q => H q ∨ q s e t) t := by
  -- a connection that the step does not touch
  have hkeep : ∀ q k, s.handler q = some k → t.handler q = some k → e.removes q = false →
      e.connects q = false →
      (∀ g, (H (admits g q) ∨ admits g q s e t ↔ k.group = g ∧ k.phase ≠ .refused)) ∧
      (H (removal q) ∨ removal q s e t ↔ k.phase.gone = true) := by
    intro q k hq ht hremoves hconnects
    constructor
    · intro g
      rw [hA.admitted q k g hq, admits, hconnects]
      simp
    · rw [hA.removed q k hq, removal, hremoves]
      simp
  have hnone : ∀ q, s.handler q = none → e.removes q = false → e.connects q = false →
      (∀ g, ¬(H (admits g q) ∨ admits g q s e t)) ∧ ¬(H (removal q) ∨ removal q s e t) := by
    intro q hq hremoves hconnects
    obtain ⟨hadmits, hremoval⟩ := hA.absent q hq
    constructor
    · intro g
      simp [hadmits g, admits, hconnects]
    · simp [hremoval, removal, hremoves]
  rcases step_moves hs with ⟨ht, he⟩ | ⟨p, h, ph, hmoves⟩ | ⟨p, h, hp, ht, he, hgone, hphase⟩
  · exact ⟨fun q hq => hnone q (ht ▸ hq) (he q).1 (he q).2,
      fun q k g hq => (hkeep q k (ht ▸ hq) hq (he q).1 (he q).2).1 g,
      fun q k hq => (hkeep q k (ht ▸ hq) hq (he q).1 (he q).2).2⟩
  · obtain ⟨hrefused, hforward⟩ := rank_forward hmoves.rank hmoves.refused
    have hself : t.handler p = some { h with phase := ph } := by
      rw [hmoves.after, Function.update_self]
    have hother : ∀ q, q ≠ p → t.handler q = s.handler q ∧ e.removes q = false := by
      intro q hq
      refine ⟨by rw [hmoves.after, Function.update_of_ne hq], ?_⟩
      cases hremoves : e.removes q with
      | false => rfl
      | true => exact absurd ((hmoves.removes q).mp hremoves).1 hq
    refine ⟨fun q hq => ?_, fun q k g hq => ?_, fun q k hq => ?_⟩
    · have hqp : q ≠ p := by
        intro hqp
        rw [hqp, hself] at hq
        cases hq
      exact hnone q ((hother q hqp).1 ▸ hq) (hother q hqp).2 (hmoves.connects q)
    · by_cases hqp : q = p
      · rw [hqp, hself] at hq
        cases hq
        rw [hqp, hA.admitted p h g hmoves.before, admits, hmoves.connects p]
        simp [hrefused, hmoves.refused]
      · exact (hkeep q k ((hother q hqp).1 ▸ hq) hq (hother q hqp).2 (hmoves.connects q)).1 g
    · by_cases hqp : q = p
      · rw [hqp, hself] at hq
        cases hq
        rw [hqp, hA.removed p h hmoves.before, removal, hmoves.removes p]
        constructor
        · intro hor
          exact hor.elim hforward fun hnow => hnow.2.2
        · intro hph
          cases hbefore : h.phase.gone with
          | true => exact .inl rfl
          | false => exact .inr ⟨rfl, rfl, hph⟩
      · exact (hkeep q k ((hother q hqp).1 ▸ hq) hq (hother q hqp).2 (hmoves.connects q)).2
  · have hself : t.handler p = some h := by rw [ht, Function.update_self]
    have hother : ∀ q, q ≠ p → t.handler q = s.handler q ∧ e.connects q = false := by
      intro q hq
      refine ⟨by rw [ht, Function.update_of_ne hq], ?_⟩
      cases hconnects : e.connects q with
      | false => rfl
      | true => exact absurd ((he q).2.mp hconnects) hq
    obtain ⟨hadmits, hremoval⟩ := hA.absent p hp
    refine ⟨fun q hq => ?_, fun q k g hq => ?_, fun q k hq => ?_⟩
    · have hqp : q ≠ p := by
        intro hqp
        rw [hqp, hself] at hq
        cases hq
      exact hnone q ((hother q hqp).1 ▸ hq) (he q).1 (hother q hqp).2
    · by_cases hqp : q = p
      · rw [hqp, hself] at hq
        cases hq
        rw [hqp, admits, (he p).2]
        simp [hadmits g, hself]
      · exact (hkeep q k ((hother q hqp).1 ▸ hq) hq (he q).1 (hother q hqp).2).1 g
    · by_cases hqp : q = p
      · rw [hqp, hself] at hq
        cases hq
        rw [hqp, removal, (he p).1]
        simp [hremoval, hgone]
      · exact (hkeep q k ((hother q hqp).1 ▸ hq) hq (he q).1 (hother q hqp).2).2

/-! ## 3. The `Left` loop -/

/-- A send of something else places no `Left` of `p`. -/
theorem send_lefts (hs : s.send c m = some s1) (hm : m ≠ .left p) (d : Uuid) :
    (s1.placed d).count (.left p) = (s.placed d).count (.left p) := by
  rcases send_placed hs with h | ⟨_, h⟩
  · rw [h]
  · rw [h]
    by_cases hd : d = c
    · rw [hd, Function.update_self, List.count_append, List.count_singleton]
      simp [hm]
    · rw [Function.update_of_ne hd]

/-- **Only its own loop places a `Left`.** -/
theorem step_lefts (hO : SdpOrigin s) (hs : Step l s e t) (p : Uuid) :
    (∀ d, (t.placed d).count (.left p) = (s.placed d).count (.left p)) ∨
    ∃ h, s.handler p = some h ∧ SendsLeft s p h t := by
  have hsend : ∀ {d : Uuid} {m : WsServerMessage} {s1 : State}, s.send d m = some s1 →
      t.placed = s1.placed → m ≠ .left p →
      (∀ d, (t.placed d).count (.left p) = (s.placed d).count (.left p)) ∨
      ∃ h, s.handler p = some h ∧ SendsLeft s p h t := by
    intro d m s1 hs ht hm
    refine .inl fun d => ?_
    rw [ht]
    exact send_lefts hs hm d
  cases hs with
  | join q h peersTx peers d s1 hq hph hd hs => exact hsend hs rfl (by simp)
  | hello q h peers s1 hq hph hs => exact hsend hs rfl (by simp)
  | sendUpdate q h peersTx peer d s1 hq hph hd hs => exact hsend hs rfl (by simp)
  | forward q h tx msg s1 hq hph hs =>
      refine hsend hs rfl fun hleft => ?_
      have hsigned := hO.signed q h tx msg hq hph
      rw [hleft] at hsigned
      cases hsigned
  | sendError q h s1 hq hph hs => exact hsend hs rfl (by simp)
  | take q h r m rest hq hph hqu =>
      refine .inl fun d => ?_
      rw [take_placed hqu]
  | sendLeft q h remainingTx d s1 hq hph hd hs =>
      by_cases hqp : q = p
      · rw [hqp] at hq hs ⊢
        exact .inr ⟨h, hq, remainingTx, d, s1, hph, hd, hs, rfl⟩
      · exact hsend hs rfl (by simpa using hqp)
  | _ => exact .inl fun d => rfl

/-- A `Left` comes after the removal. -/
def LeftAfter (s : State) : Prop :=
  ∀ p c, .left p ∈ s.placed c → ∃ h, s.handler p = some h ∧ h.phase.gone = true

theorem gone_step {h : Handler} (hp : s.handler p = some h) (hgone : h.phase.gone = true)
    (hs : Step l s e t) : ∃ k, t.handler p = some k ∧ k.phase.gone = true ∧
      (k = h ∨ SendsLeft s p h t) := by
  rcases step_moves hs with ⟨ht, _⟩ | ⟨q, k, ph, hmoves⟩ | ⟨q, k, hq, ht, _⟩
  · exact ⟨h, by rw [ht, hp], hgone, .inl rfl⟩
  · by_cases hpq : p = q
    · have hbefore := hmoves.before
      rw [← hpq, hp] at hbefore
      cases hbefore
      have hforward := rank_forward hmoves.rank hmoves.refused
      refine ⟨{ h with phase := ph }, by rw [hmoves.after, hpq, Function.update_self],
        hforward.2 hgone, .inr ?_⟩
      rw [hpq]
      exact hmoves.left hgone
    · exact ⟨h, by rw [hmoves.after, Function.update_of_ne hpq, hp], hgone, .inl rfl⟩
  · have hpq : p ≠ q := by
      intro hpq
      rw [hpq, hq] at hp
      cases hp
    exact ⟨h, by rw [ht, Function.update_of_ne hpq, hp], hgone, .inl rfl⟩

/-- A closed channel stays closed. -/
theorem closed_step {k : Handler} (hc : s.handler c = some k) (hclosed : ¬s.isOpen c)
    (hs : Step l s e t) : ¬t.isOpen c := by
  intro hopen
  obtain ⟨k', hk', hk'open⟩ := hopen
  rcases step_moves hs with ⟨ht, _⟩ | ⟨q, h, ph, hmoves⟩ | ⟨q, h, hq, ht, _⟩
  · exact hclosed ⟨k', ht ▸ hk', hk'open⟩
  · by_cases hcq : c = q
    · have hafter := hmoves.after
      rw [hafter, hcq, Function.update_self] at hk'
      cases hk'
      exact hclosed ⟨h, hcq ▸ hmoves.before,
        isOpen_iff_rank.mpr (Nat.le_trans hmoves.rank (isOpen_iff_rank.mp hk'open))⟩
    · rw [hmoves.after, Function.update_of_ne hcq] at hk'
      exact hclosed ⟨k', hk', hk'open⟩
  · have hcq : c ≠ q := by
      intro hcq
      rw [hcq, hq] at hc
      cases hc
    rw [ht, Function.update_of_ne hcq] at hk'
    exact hclosed ⟨k', hk', hk'open⟩

theorem leftAfter_step (hO : SdpOrigin s) (hL : LeftAfter s) (hs : Step l s e t) :
    LeftAfter t := by
  intro p c hmem
  rcases step_lefts hO hs p with hcount | ⟨h, hp, hsends⟩
  · have hbefore : .left p ∈ s.placed c := by
      rw [← List.count_pos_iff, ← hcount c]
      exact List.count_pos_iff.mpr hmem
    obtain ⟨h, hp, hgone⟩ := hL p c hbefore
    obtain ⟨k, hk, hkgone, _⟩ := gone_step hp hgone hs
    exact ⟨k, hk, hkgone⟩
  · obtain ⟨remainingTx, d, s1, hph, _⟩ := hsends
    have hgone : h.phase.gone = true := by rw [hph]; rfl
    obtain ⟨k, hk, hkgone, _⟩ := gone_step hp hgone hs
    exact ⟨k, hk, hkgone⟩

/-- **How far the `Left` loop of `p` has come**, with the members at its removal: each of them is
    still to be told, or was told once, or has no channel any more. -/
structure LeftTold (members : List Uuid) (p : Uuid) (h : Handler) (s : State) : Prop where
  handler : s.handler p = some h
  gone : h.phase.gone = true
  pending : ∀ c ∈ h.phase.targets, c ∈ members
  nodup : h.phase.targets.Nodup
  known : ∀ c ∈ members, s.handler c ≠ none
  told : ∀ c, .left p ∈ s.placed c → c ∈ members ∧ c ∉ h.phase.targets
  once : ∀ c, (s.placed c).count (.left p) ≤ 1
  served : ∀ c ∈ members, c ∉ h.phase.targets → .left p ∈ s.placed c ∨ ¬s.isOpen c

/-- One round of the loop. -/
theorem leftTold_send {members : List Uuid} {h : Handler} (hL : LeftTold members p h s)
    (hsends : SendsLeft s p h t) (hs : Step l s e t) : ∃ k, LeftTold members p k t := by
  obtain ⟨remainingTx, c, s1, hph, hc, hsend, rfl⟩ := hsends
  have htargets : h.phase.targets = remainingTx := by rw [hph]; rfl
  have hafter : (Phase.afterLeft (remainingTx.erase c)).targets = remainingTx.erase c :=
    afterLeft_targets
  have hnodup : remainingTx.Nodup := htargets ▸ hL.nodup
  have hmember : c ∈ members := hL.pending c (htargets ▸ hc)
  have herased : c ∉ remainingTx.erase c := hnodup.not_mem_erase
  have hplaced : (s1.setPhase p h (.afterLeft (remainingTx.erase c))).placed = s1.placed := rfl
  -- the `Left` goes into the channel, if it is open, and nowhere else
  have hnew : s1.placed = s.placed ∧ ¬s.isOpen c ∨
      s1.placed = Function.update s.placed c (s.placed c ++ [.left p]) := by
    rcases send_inv hsend with ⟨hopen, _, rfl⟩ | ⟨hclosed, rfl⟩
    · refine .inr ?_
      funext d
      by_cases hd : d = c
      · simp [hd, State.placed, State.push]
      · simp [State.placed, State.push, hd]
    · exact .inl ⟨rfl, hclosed⟩
  have hkeeps : ∀ d, .left p ∈ s.placed d → .left p ∈ s1.placed d := by
    intro d hd
    rcases hnew with ⟨hsame, _⟩ | hmore
    · rwa [hsame]
    · rw [hmore]
      by_cases hdc : d = c
      · rw [hdc, Function.update_self, List.mem_append]
        exact .inl (hdc ▸ hd)
      · rwa [Function.update_of_ne hdc]
  refine ⟨{ h with phase := .afterLeft (remainingTx.erase c) }, setPhase_handler_self _ _ _ _,
    afterLeft_gone _, ?_, ?_, fun d hd => ?_, fun d hd => ?_, fun d => ?_, fun d hd hnot => ?_⟩
  · intro d hd
    rw [hafter] at hd
    exact hL.pending d (htargets ▸ List.mem_of_mem_erase hd)
  · rw [hafter]
    exact hnodup.erase c
  · obtain ⟨k, hk⟩ := Option.ne_none_iff_exists'.mp (hL.known d hd)
    obtain ⟨k', hk', _⟩ := step_handler_keeps hs hk
    rw [hk']
    exact Option.some_ne_none _
  · rw [hafter]
    rw [hplaced] at hd
    by_cases hdc : d = c
    · rw [hdc]
      exact ⟨hmember, herased⟩
    · have hbefore : .left p ∈ s.placed d := by
        rcases hnew with ⟨hsame, _⟩ | hmore
        · rwa [hsame] at hd
        · rwa [hmore, Function.update_of_ne hdc] at hd
      obtain ⟨hin, hout⟩ := hL.told d hbefore
      exact ⟨hin, fun hmem => hout (htargets ▸ List.mem_of_mem_erase hmem)⟩
  · rw [hplaced]
    rcases hnew with ⟨hsame, _⟩ | hmore
    · rw [hsame]
      exact hL.once d
    · rw [hmore]
      by_cases hdc : d = c
      · have hnone : (s.placed c).count (.left p) = 0 := by
          rw [List.count_eq_zero]
          intro hmem
          exact (hL.told c hmem).2 (htargets ▸ hc)
        rw [hdc, Function.update_self, List.count_append, hnone, List.count_singleton]
        simp
      · rw [Function.update_of_ne hdc]
        exact hL.once d
  · rw [hafter] at hnot
    rw [hplaced]
    obtain ⟨k, hk⟩ := Option.ne_none_iff_exists'.mp (hL.known d hd)
    by_cases hdc : d = c
    · rcases hnew with ⟨_, hclosed⟩ | hmore
      · exact .inr (closed_step hk (hdc ▸ hclosed) hs)
      · rw [hmore, hdc, Function.update_self]
        exact .inl (List.mem_append_right _ (List.mem_singleton_self _))
    · have hserved := hL.served d hd fun hmem =>
        hnot ((List.mem_erase_of_ne hdc).mpr (htargets ▸ hmem))
      exact hserved.imp (hkeeps d) fun hclosed => closed_step hk hclosed hs

/-- **A step keeps track of the loop.** -/
theorem leftTold_step {members : List Uuid} {h : Handler} (hO : SdpOrigin s)
    (hL : LeftTold members p h s) (hs : Step l s e t) : ∃ k, LeftTold members p k t := by
  obtain ⟨k, hk, hkgone, hcase⟩ := gone_step hL.handler hL.gone hs
  rcases hcase with rfl | hsends
  · rcases step_lefts hO hs p with hcount | ⟨h', hh', hsends⟩
    · have hmem : ∀ c, .left p ∈ t.placed c ↔ .left p ∈ s.placed c := by
        intro c
        rw [← List.count_pos_iff, ← List.count_pos_iff, hcount c]
      refine ⟨k, hk, hkgone, hL.pending, hL.nodup, fun c hc => ?_, fun c hc => ?_, fun c => ?_,
        fun c hc hnot => ?_⟩
      · obtain ⟨j, hj⟩ := Option.ne_none_iff_exists'.mp (hL.known c hc)
        obtain ⟨j', hj', _⟩ := step_handler_keeps hs hj
        rw [hj']
        exact Option.some_ne_none _
      · exact hL.told c ((hmem c).mp hc)
      · rw [hcount c]
        exact hL.once c
      · obtain ⟨j, hj⟩ := Option.ne_none_iff_exists'.mp (hL.known c hc)
        exact (hL.served c hc hnot).imp (hmem c).mpr fun hclosed => closed_step hj hclosed hs
    · have hsame := hL.handler
      rw [hh'] at hsame
      cases hsame
      exact leftTold_send hL hsends hs
  · exact leftTold_send hL hsends hs

/-- The removal is the only thing to do once the tasks have ended. -/
theorem remove_enabled {h : Handler} (hp : s.handler p = some h)
    (hs : (server l).step s (.task h.group p .remove) = some t) :
    h.phase = .ended ∧ t = remove s p h := by
  change step l s (.task h.group p .remove) = some t at hs
  simp only [step, hp, if_true] at hs
  cases hph : h.phase with
  | ended =>
      rw [hph] at hs
      simp only [taskStep, Option.some.injEq] at hs
      exact ⟨rfl, hs.symm⟩
  | running r =>
      rw [hph] at hs
      cases r <;> simp [taskStep] at hs
  | joining peersTx peers =>
      rw [hph] at hs
      cases peersTx <;> simp [taskStep] at hs
  | _ =>
      rw [hph] at hs
      simp [taskStep] at hs

/-- The members of a group other than `p`. -/
def State.others (s : State) (g : String) (p : Uuid) : List Uuid :=
  ((s.members g).erase p).map Prod.fst

/-- **The removal starts a loop over the members it leaves.** -/
theorem remove_spec (s : State) (p : Uuid) (h : Handler) :
    ∃ ph, (remove s p h).handler = Function.update s.handler p (some { h with phase := ph }) ∧
      ph.gone = true ∧ ph.targets = TxLocalMap.txs (TxLocalMap.erase (s.members h.group) p) ∧
      (remove s p h).placed = s.placed := by
  unfold remove
  cases hm : s.txMap h.group with
  | none =>
      have hmembers : s.members h.group = [] := by simp [State.members, hm]
      refine ⟨.finished, rfl, rfl, ?_, rfl⟩
      rw [hmembers]
      rfl
  | some m =>
      have hmembers : s.members h.group = m := by simp [State.members, hm]
      rw [hmembers]
      dsimp only
      split
      · rename_i hempty
        refine ⟨.finished, rfl, rfl, ?_, rfl⟩
        rw [List.isEmpty_iff.mp hempty]
        rfl
      · exact ⟨.leaving _, rfl, rfl, rfl, rfl⟩

theorem erase_txs (hT : Tables s) (g : String) (p : Uuid) :
    TxLocalMap.txs (TxLocalMap.erase (s.members g) p) = s.others g p :=
  List.map_congr_left fun kv hkv => (hT.entry g kv.1 kv.2 (mem_erase.mp hkv).1).1

theorem leftTold_removed {h : Handler} (hT : Tables s) (hL : LeftAfter s)
    (hp : s.handler p = some h) (hph : h.phase = .ended) :
    ∃ k, LeftTold (s.others h.group p) p k (remove s p h) := by
  obtain ⟨ph, hhandler, hgone, htargets, hplaced⟩ := remove_spec s p h
  rw [erase_txs hT] at htargets
  have hnone : ∀ c, .left p ∉ s.placed c := by
    intro c hmem
    obtain ⟨k, hk, hkgone⟩ := hL p c hmem
    rw [hp] at hk
    cases hk
    rw [hph] at hkgone
    cases hkgone
  refine ⟨{ h with phase := ph }, by rw [hhandler, Function.update_self], hgone, ?_, ?_, ?_, ?_,
    ?_, ?_⟩
  · intro c hc
    exact htargets ▸ hc
  · have hkeys : (s.others h.group p).Nodup :=
      (List.Sublist.map _ List.filter_sublist).nodup (hT.keys h.group)
    exact htargets ▸ hkeys
  · intro c hc
    obtain ⟨kv, hkv, rfl⟩ := List.mem_map.mp hc
    obtain ⟨hmem, hne⟩ := mem_erase.mp hkv
    obtain ⟨_, k, hk, _⟩ := hT.entry h.group kv.1 kv.2 hmem
    rw [hhandler, Function.update_of_ne hne, hk]
    exact Option.some_ne_none _
  · intro c hc
    rw [hplaced] at hc
    exact absurd hc (hnone c)
  · intro c
    rw [hplaced, List.count_eq_zero.mpr (hnone c)]
    exact Nat.zero_le 1
  · intro c hc hnot
    exact absurd (htargets ▸ hc) hnot

/-! ## 4. The invariant -/

/-- What holds of the tables, the origins and the loops on every run. -/
theorem standing_run {G : State → Event → Prop} {es : List Event}
    (h : (server l).Run G State.empty es s) :
    Tables s ∧ SdpOrigin s ∧ LeftAfter s ∧ Sizes l s := by
  have hstart : Tables State.empty ∧ SdpOrigin State.empty ∧ LeftAfter State.empty ∧
      Sizes l State.empty :=
    ⟨tables_empty, sdpOrigin_empty, fun p c hmem => absurd hmem List.not_mem_nil,
      fun g => Nat.zero_le _⟩
  refine h.invariant (I := fun s => Tables s ∧ SdpOrigin s ∧ LeftAfter s ∧ Sizes l s) hstart
    fun t e u ht _ hs => ?_
  obtain ⟨hT, hO, hL, hsizes⟩ := ht
  have hstep := step_inv hs
  exact ⟨tables_step hT hstep, sdpOrigin_step hT hO hstep, leftAfter_step hO hL hstep,
    sizes_step hsizes hstep⟩

/-- Registered means admitted and not removed. -/
theorem registered_iff {ph : Phase} : ph.registered = true ↔ ph ≠ .refused ∧ ph.gone = false := by
  cases ph <;> simp [Phase.registered, Phase.gone]

/-- **The admission invariant**: no group is larger than the limit; a peer is in a group of
    `tx_map` exactly from its admission to that group to its removal; and from a removal on, its
    `Left` goes to exactly the members it leaves, once to each. -/
theorem admission_invariant (l : Limits) (es : List Event) (s : State)
    (hr : (server l).Run Machine.anyStep State.empty es s) :
    (∀ g m, s.txMap g = some m → m.length ≤ l.maxConnections ∧ (m.map Prod.fst).Nodup) ∧
    (∀ g p, (∃ m, s.txMap g = some m ∧ p ∈ m.map Prod.fst) ↔
      (server l).Past (admits g p) State.empty es ∧ ¬(server l).Past (removal p) State.empty es) ∧
    (∀ p h t fs u, s.handler p = some h →
      (server l).step s (.task h.group p .remove) = some t →
      (server l).Run Machine.anyStep t fs u →
      ∃ k, LeftTold (s.others h.group p) p k u) := by
  obtain ⟨hT, hO, hL, hsizes⟩ := standing_run hr
  refine ⟨fun g m hm => ?_, fun g p => ?_, fun p h t fs u hp hs hrun => ?_⟩
  · have hmembers : s.members g = m := by simp [State.members, hm]
    exact ⟨hmembers ▸ hsizes g, hmembers ▸ hT.keys g⟩
  · have hA : Admitted (fun q => (server l).Past q State.empty es) s :=
      hr.pastInvariant (I := Admitted) admitted_empty
        fun H t e u hA _ hs => admitted_step hA (step_inv hs)
    have hmem : (∃ m, s.txMap g = some m ∧ p ∈ m.map Prod.fst) ↔ p ∈ (s.members g).map Prod.fst := by
      unfold State.members
      cases s.txMap g <;> simp
    rw [hmem]
    constructor
    · intro hin
      obtain ⟨kv, hkv, rfl⟩ := List.mem_map.mp hin
      obtain ⟨_, h, hh, hgroup, hregistered⟩ := hT.entry g kv.1 kv.2 hkv
      obtain ⟨hrefused, hgone⟩ := registered_iff.mp hregistered
      refine ⟨(hA.admitted kv.1 h g hh).mpr ⟨hgroup, hrefused⟩, fun hpast => ?_⟩
      rw [(hA.removed kv.1 h hh).mp hpast] at hgone
      cases hgone
    · intro hpast
      obtain ⟨hadmits, hremoval⟩ := hpast
      cases hp : s.handler p with
      | none => exact absurd hadmits ((hA.absent p hp).1 g)
      | some h =>
          obtain ⟨hgroup, hrefused⟩ := (hA.admitted p h g hp).mp hadmits
          have hgone : h.phase.gone = false := by
            rw [hA.removed p h hp] at hremoval
            simpa using hremoval
          obtain ⟨cs, hcs⟩ := hT.present p h hp (registered_iff.mpr ⟨hrefused, hgone⟩)
          rw [← hgroup]
          exact List.mem_map.mpr ⟨(p, cs), hcs, rfl⟩
  · obtain ⟨hph, ht⟩ := remove_enabled hp hs
    obtain ⟨k, hk⟩ := leftTold_removed hT hL hp hph
    have hstart : Tables t ∧ SdpOrigin t ∧ ∃ k, LeftTold (s.others h.group p) p k t :=
      ⟨tables_step hT (step_inv hs), sdpOrigin_step hT hO (step_inv hs), k, ht ▸ hk⟩
    refine (hrun.invariant
      (I := fun v => Tables v ∧ SdpOrigin v ∧ ∃ k, LeftTold (s.others h.group p) p k v)
      hstart fun v e w hv _ hstep => ?_).2.2
    obtain ⟨hTv, hOv, j, hj⟩ := hv
    have hinv := step_inv hstep
    exact ⟨tables_step hTv hinv, sdpOrigin_step hTv hOv hinv, leftTold_step hOv hj hinv⟩

/-- Two peers meet, and the first one's tasks end. -/
def departureRun : List Event :=
  [.task "g" 0 (.connect demoInfo), .task "g" 0 .sendHello, .task "g" 1 (.connect demoInfo),
    .task "g" 1 (.sendJoin 0), .task "g" 1 .sendHello, .task "g" 0 .disconnect]

theorem admission_invariant_departureRun :
    ∃ s t u, (server ⟨2, 10⟩).Run Machine.anyStep State.empty departureRun s ∧
      (server ⟨2, 10⟩).step s (.task "g" 0 .remove) = some t ∧
      (server ⟨2, 10⟩).Run Machine.anyStep t [.task "g" 0 (.sendLeft 1)] u ∧
      u.queue 1 = [.hello (ClientInfo.from demoInfo 1) [ClientInfo.from demoInfo 0], .left 0] ∧
      ∃ k, LeftTold [1] 0 k u := by
  have hrun : ((server ⟨2, 10⟩).run State.empty departureRun).map
      (fun s => (s.handler 0, s.others "g" 0,
        ((server ⟨2, 10⟩).run s [.task "g" 0 .remove, .task "g" 0 (.sendLeft 1)]).map
          fun u => u.queue 1)) =
      some (some ⟨"g", ClientInfo.from demoInfo 0, .ended⟩, [1],
        some [.hello (ClientInfo.from demoInfo 1) [ClientInfo.from demoInfo 0], .left 0]) := rfl
  obtain ⟨s, hs, hobs⟩ := Machine.run_observe hrun
  simp only [Prod.mk.injEq] at hobs
  obtain ⟨hhandler, hothers, hmore⟩ := hobs
  obtain ⟨u, hu, hqueue⟩ := Option.map_eq_some_iff.mp hmore
  simp only [Machine.run, Option.bind_eq_some_iff] at hu
  obtain ⟨t, ht, v, hv, hvu⟩ := hu
  obtain rfl : v = u := Option.some.inj hvu
  have htail : (server ⟨2, 10⟩).Run Machine.anyStep t [.task "g" 0 (.sendLeft 1)] v :=
    .step [] _ t v .start trivial hv
  obtain ⟨k, hk⟩ := (admission_invariant ⟨2, 10⟩ departureRun s hs).2.2 0 _ t _ v hhandler ht htail
  exact ⟨s, t, v, hs, ht, htail, hqueue, k, hothers ▸ hk⟩

/-! ## 5. Empty groups -/

/-- **No first connection of a group is refused**: the group is there already, or both limits leave
    room. -/
def keepsNoEmpty (l : Limits) (s : State) : Event → Prop
  | .task g _ (.connect _) =>
    s.txMap g ≠ none ∨ 0 < l.maxConnections ∧ s.requests g < l.maxRequests
  | _ => True

/-- Every group in the map has a member. -/
def NoEmpty (s : State) : Prop := ∀ g m, s.txMap g = some m → m ≠ []

theorem setHandler_handler_self (s : State) (p : Uuid) (h : Handler) :
    (s.setHandler p h).handler p = some h := Function.update_self _ _ _

theorem noEmpty_update {g : String} {v : Option TxLocalMap} (h : NoEmpty s)
    (ht : t.txMap = Function.update s.txMap g v) (hv : ∀ m, v = some m → m ≠ []) : NoEmpty t := by
  intro g' m hm
  rw [ht] at hm
  by_cases hg : g' = g
  · rw [hg, Function.update_self] at hm
    exact hv m hm
  · rw [Function.update_of_ne hg] at hm
    exact h g' m hm

theorem members_of_absent {g : String} (h : s.txMap g = none) : s.members g = [] := by
  simp [State.members, h]

/-- **A refused connection that keeps the guard** leaves the map as it was: the group is there. -/
theorem refused_same {g : String} {info : ClientInfoWithoutId}
    (hg : keepsNoEmpty l s (.task g p (.connect info)))
    (hlimit : l.maxConnections ≤ (s.members g).length ∨ l.maxRequests ≤ s.requests g) :
    Function.update s.txMap g (some (s.members g)) = s.txMap := by
  cases hm : s.txMap g with
  | none =>
      rw [members_of_absent hm] at hlimit
      obtain ⟨hroom, hcount⟩ := hg.resolve_left fun hpresent => hpresent hm
      rcases hlimit with hfull | hmany
      · exact absurd hfull (Nat.not_le_of_lt hroom)
      · exact absurd hmany (Nat.not_le_of_lt hcount)
  | some m =>
      have hmembers : some (s.members g) = s.txMap g := by simp [State.members, hm]
      rw [hmembers, Function.update_eq_self]

theorem noEmpty_step (h : NoEmpty s) (hg : keepsNoEmpty l s e) (hs : Step l s e t) : NoEmpty t := by
  have hsame : t.txMap = s.txMap → NoEmpty t := by
    intro ht g m hm
    exact h g m (ht ▸ hm)
  have hsend : ∀ {d : Uuid} {m : WsServerMessage} {s1 : State}, s.send d m = some s1 →
      t.txMap = s1.txMap → NoEmpty t := fun hs ht => hsame (ht.trans (send_txMap hs))
  cases hs with
  | refusedFull g p info hp hfull => exact hsame (refused_same hg (.inl hfull))
  | refusedCount g p info hp hroom hcount => exact hsame (refused_same hg (.inr hcount))
  | admitted g p info hp hroom hcount =>
      refine noEmpty_update h rfl fun m hm => ?_
      cases hm
      exact List.append_ne_nil_of_right_ne_nil _ (List.cons_ne_nil _ _)
  | update p h' info m hp hph hm hreg =>
      refine noEmpty_update h rfl fun m' hm' => ?_
      cases hm'
      simpa [TxLocalMap.setClient] using h h'.group m hm
  | removeLast p h' hp hph hm =>
      refine noEmpty_update h rfl fun m' hm' => ?_
      cases hm'
  | remove p h' hp hph hm =>
      refine noEmpty_update h rfl fun m' hm' => ?_
      cases hm'
      exact hm
  | join p h' peersTx peers c s1 hp hph hc hs => exact hsend hs rfl
  | hello p h' peers s1 hp hph hs => exact hsend hs rfl
  | sendUpdate p h' peersTx peer c s1 hp hph hc hs => exact hsend hs rfl
  | forward p h' tx msg s1 hp hph hs => exact hsend hs rfl
  | sendError p h' s1 hp hph hs => exact hsend hs rfl
  | sendLeft p h' remainingTx c s1 hp hph hc hs => exact hsend hs rfl
  | _ => exact hsame rfl

/-- A connection that breaks the guard leaves an empty group. -/
theorem refused_first {g : String} {info : ClientInfoWithoutId}
    (hg : ¬keepsNoEmpty l s (.task g p (.connect info)))
    (hs : (server l).step s (.task g p (.connect info)) = some t) : t.txMap g = some [] := by
  have habsent : s.txMap g = none := by
    by_contra hne
    exact hg (.inl hne)
  have hmembers := members_of_absent habsent
  generalize he : Event.task g p (.connect info) = e at hs
  cases step_inv hs with
  | refusedFull g' p' info' hp hfull =>
      cases he
      rw [hmembers]
      exact Function.update_self _ _ _
  | refusedCount g' p' info' hp hroom hcount =>
      cases he
      rw [hmembers]
      exact Function.update_self _ _ _
  | admitted g' p' info' hp hroom hcount =>
      cases he
      rw [hmembers] at hroom
      exact absurd (.inr ⟨hroom, hcount⟩) hg
  | _ => cases he

/-- **No empty group is kept** on runs in which no first connection of a group is refused: every
    group has a connected peer, and a refused connection leaves the map as it was. -/
theorem no_empty_groups (l : Limits) (es : List Event) (s : State)
    (hr : (server l).Run (keepsNoEmpty l) State.empty es s) :
    (∀ g m, s.txMap g = some m → ∃ p h, p ∈ m.map Prod.fst ∧ s.handler p = some h ∧
      h.group = g ∧ h.phase.registered = true) ∧
    (∀ g p info t h, keepsNoEmpty l s (.task g p (.connect info)) →
      (server l).step s (.task g p (.connect info)) = some t → t.handler p = some h →
      h.phase = .refused → t.txMap = s.txMap) := by
  obtain ⟨hT, -⟩ := standing_run hr
  have hstart : NoEmpty State.empty := by
    intro g m hm
    cases hm
  have hne : NoEmpty s := hr.invariant hstart fun t e u ht hg hs => noEmpty_step ht hg (step_inv hs)
  refine ⟨fun g m hm => ?_, fun g p info t h hg hs ht hph => ?_⟩
  · obtain ⟨kv, rest, hcons⟩ := List.exists_cons_of_ne_nil (hne g m hm)
    have hkv : (kv.1, kv.2) ∈ s.members g := by
      simp [State.members, hm, hcons]
    obtain ⟨_, h, hh, hgroup, hregistered⟩ := hT.entry g kv.1 kv.2 hkv
    exact ⟨kv.1, h, by simp [hcons], hh, hgroup, hregistered⟩
  · generalize he : Event.task g p (.connect info) = e at hs hg
    cases step_inv hs with
    | refusedFull g' p' info' hp hfull =>
        cases he
        exact refused_same hg (.inl hfull)
    | refusedCount g' p' info' hp hroom hcount =>
        cases he
        exact refused_same hg (.inr hcount)
    | admitted g' p' info' hp hroom hcount =>
        cases he
        rw [setHandler_handler_self] at ht
        cases ht
        cases hph
    | _ => cases he

/-- Peer 1 is refused while 0 is in the group. -/
def crowdedRun : List Event :=
  [.task "g" 0 (.connect demoInfo), .task "g" 0 .sendHello, .task "g" 1 (.connect demoInfo)]

instance (l : Limits) (s : State) (e : Event) : Decidable (keepsNoEmpty l s e) :=
  match e with
  | .task g _ (.connect _) =>
    inferInstanceAs (Decidable (s.txMap g ≠ none ∨
      0 < l.maxConnections ∧ s.requests g < l.maxRequests))
  | .task _ _ (.sendJoin _) | .task _ _ .sendHello | .task _ _ (.receive _)
  | .task _ _ .handleMessage | .task _ _ (.sendUpdate _) | .task _ _ .forward
  | .task _ _ .sendError | .task _ _ .take | .task _ _ .disconnect | .task _ _ .remove
  | .task _ _ (.sendLeft _) | .clearCounts => inferInstanceAs (Decidable True)

theorem no_empty_groups_crowdedRun :
    ∃ s, (server ⟨1, 10⟩).Run (keepsNoEmpty ⟨1, 10⟩) State.empty crowdedRun s ∧
      (s.handler 1).map Handler.phase = some .refused ∧ s.txMap "g" = some [(0, ⟨demoInfo, 0⟩)] ∧
      ∀ g m, s.txMap g = some m → ∃ p h, p ∈ m.map Prod.fst ∧ s.handler p = some h ∧
        h.group = g ∧ h.phase.registered = true := by
  have hrun : (((server ⟨1, 10⟩).guarded (keepsNoEmpty ⟨1, 10⟩)).run State.empty crowdedRun).map
      (fun s => ((s.handler 1).map Handler.phase, s.txMap "g")) =
      some (some .refused, some [(0, ⟨demoInfo, 0⟩)]) := rfl
  obtain ⟨s, hs, hobs⟩ := Machine.run_observe_guarded hrun
  simp only [Prod.mk.injEq] at hobs
  exact ⟨s, hs, hobs.1, hobs.2, (no_empty_groups ⟨1, 10⟩ crowdedRun s hs).1⟩

/-- Peer 0 comes and goes; its request is the last one of the hour. Peer 1 is refused. -/
def refusedRun : List Event :=
  [.task "g" 0 (.connect demoInfo), .task "g" 0 .sendHello, .task "g" 0 .disconnect,
    .task "g" 0 .remove, .task "g" 1 (.connect demoInfo)]

/-- **A refused first connection leaves an empty group** where there was none. -/
theorem refused_leaves_empty :
    ∃ s t, (server ⟨10, 1⟩).Run Machine.anyStep State.empty (refusedRun.take 4) s ∧
      (server ⟨10, 1⟩).step s (.task "g" 1 (.connect demoInfo)) = some t ∧
      (t.handler 1).map Handler.phase = some .refused ∧
      s.txMap "g" = none ∧ t.txMap "g" = some [] := by
  have hrun : ((server ⟨10, 1⟩).run State.empty (refusedRun.take 4)).map
      (fun s => (s.txMap "g", ((server ⟨10, 1⟩).step s (.task "g" 1 (.connect demoInfo))).map
        fun t => ((t.handler 1).map Handler.phase, t.txMap "g"))) =
      some (none, some (some .refused, some [])) := rfl
  obtain ⟨s, hs, hobs⟩ := Machine.run_observe hrun
  simp only [Prod.mk.injEq] at hobs
  obtain ⟨t, ht, hobs'⟩ := Option.map_eq_some_iff.mp hobs.2
  simp only [Prod.mk.injEq] at hobs'
  exact ⟨s, t, hs, ht, hobs'.1, hobs.1, hobs'.2⟩

end LocalSend.Signaling
