/-
  File:      LocalSend/Signaling/Greeting.lean
  Subject:   THE HELLO OF A NEW CONNECTION.

  A connection is in `tx_map` from its admission on, but the only consumer of its channel is
  spawned after its own `Hello`. What the other tasks put into the channel before that stays
  there, and four messages are enough for the `Hello` to wait for a consumer that will not come.

  * `State.blocked` -- at `Hello`, the channel full; `blocked_forever`: no step ends it;
  * `hello_blocks` -- a run of six connections that reaches such a state;
  * `leavesRoom` -- the guard of a step: a message goes into the channel of a connection that is
    still joining only as its third or earlier one; `hello_never_blocks`: runs of such steps never
    block a `Hello`.
-/
import LocalSend.Signaling.Invariant

namespace LocalSend.Signaling

open Lib

variable {l : Limits} {s t s1 : State} {e : Event} {c p : Uuid} {m : WsServerMessage}

/-! ## 1. Blocked connections -/

def Phase.isJoining : Phase → Bool
  | .joining _ _ => true
  | _ => false

/-- The connection is admitted and its send task is not spawned yet. -/
def State.isJoining (s : State) (c : Uuid) : Bool :=
  match s.handler c with
  | some h => h.phase.isJoining
  | none => false

/-- **Blocked on its own queue**: about to send `Hello` into a full channel without a consumer. -/
def State.blocked (s : State) (p : Uuid) : Prop :=
  ∃ h peers, s.handler p = some h ∧ h.phase = .joining [] peers ∧
    channelCapacity ≤ (s.queue p).length

/-- The channel of another connection that the action sends into. -/
def Action.channel (s : State) (p : Uuid) : Action → Option Uuid
  | .sendJoin c | .sendUpdate c | .sendLeft c => some c
  | .forward =>
    match (s.handler p).map Handler.phase with
    | some (.running (.forwarding tx _)) => some tx
    | _ => none
  | _ => none

def Event.channel (s : State) : Event → Option Uuid
  | .task _ p a => a.channel s p
  | .clearCounts => none

/-- What a step does to the queue of a joining connection: nothing, or one message at its end,
    while there is room. The message is its own `Hello` or goes into the step's channel. -/
theorem step_queue_joining (hs : Step l s e t) (hj : s.isJoining c = true) :
    t.queue c = s.queue c ∨
    ((s.queue c).length < channelCapacity ∧ (∃ m, t.queue c = s.queue c ++ [m]) ∧
      (e.channel s = some c ∨ t.isJoining c = false)) := by
  have hsend : ∀ {d : Uuid} {m : WsServerMessage} {s1 : State}, s.send d m = some s1 →
      t.queue = s1.queue → (c = d → e.channel s = some c ∨ t.isJoining c = false) →
      t.queue c = s.queue c ∨
      ((s.queue c).length < channelCapacity ∧ (∃ m, t.queue c = s.queue c ++ [m]) ∧
        (e.channel s = some c ∨ t.isJoining c = false)) := by
    intro d m s1 hs ht he
    rw [ht]
    by_cases hcd : c = d
    · subst hcd
      rcases send_inv hs with ⟨_, hlen, rfl⟩ | ⟨_, rfl⟩
      · exact Or.inr ⟨hlen, ⟨m, Function.update_self _ _ _⟩, he rfl⟩
      · exact Or.inl rfl
    · exact Or.inl (send_queue_ne hs hcd)
  cases hs with
  | join p h peersTx peers d s1 hp hph hd hs =>
      exact hsend hs rfl fun hcd => Or.inl (by rw [hcd]; rfl)
  | hello p h peers s1 hp hph hs =>
      refine hsend hs rfl fun hcp => Or.inr ?_
      rw [hcp, State.isJoining, setPhase_handler_self]
      rfl
  | sendUpdate p h peersTx peer d s1 hp hph hd hs =>
      exact hsend hs rfl fun hcd => Or.inl (by rw [hcd]; rfl)
  | forward p h tx msg s1 hp hph hs =>
      refine hsend hs rfl fun hcd => Or.inl ?_
      simp [Event.channel, Action.channel, hp, hph, hcd]
  | sendError p h s1 hp hph hs =>
      refine hsend hs rfl fun hcp => Or.inr ?_
      rw [hcp, State.isJoining, setPhase_handler_self]
      rfl
  | sendLeft p h remainingTx d s1 hp hph hd hs =>
      exact hsend hs rfl fun hcd => Or.inl (by rw [hcd]; rfl)
  | take p h r m rest hp hph hq =>
      -- the send task of `p` runs, so `p` is not `c`
      have hne : c ≠ p := by
        rintro rfl
        simp [State.isJoining, hp, hph, Phase.isJoining] at hj
      exact Or.inl (Function.update_of_ne hne _ _)
  | _ => exact Or.inl rfl

/-- The handler of a connection that waits at `Hello` moves only by the `Hello`. -/
theorem step_hello_handler {h : Handler} {peers : List ClientInfo} (hs : Step l s e t)
    (hp : s.handler p = some h) (hph : h.phase = .joining [] peers) :
    t.handler p = some h ∨ (s.queue p).length < channelCapacity := by
  have hother : ∀ {q : Uuid} {k : Handler} {k' : Handler}, s.handler q = some k →
      t.handler = Function.update s.handler q (some k') → k.phase ≠ .joining [] peers →
      t.handler p = some h ∨ (s.queue p).length < channelCapacity := by
    intro q k k' hq ht hk
    have hne : p ≠ q := by
      rintro rfl
      rw [hp] at hq
      cases hq
      exact hk hph
    exact Or.inl (by rw [ht, Function.update_of_ne hne, hp])
  have hnew : ∀ {q : Uuid} {k : Handler}, s.handler q = none →
      t.handler = Function.update s.handler q (some k) →
      t.handler p = some h ∨ (s.queue p).length < channelCapacity := by
    intro q k hq ht
    have hne : p ≠ q := by
      rintro rfl
      rw [hp] at hq
      cases hq
    exact Or.inl (by rw [ht, Function.update_of_ne hne, hp])
  cases hs with
  | clear => exact Or.inl hp
  | refusedFull g q info hq hfull => exact hnew hq rfl
  | refusedCount g q info hq hroom hcount => exact hnew hq rfl
  | admitted g q info hq hroom hcount => exact hnew hq rfl
  | join q k peersTx peers' d s1 hq hk hd hs =>
      refine hother hq (send_setPhase hs q k _) ?_
      rw [hk]
      rintro h'
      cases h'
      exact absurd hd List.not_mem_nil
  | hello q k peers' s1 hq hk hs =>
      by_cases hpq : p = q
      · subst hpq
        rcases send_inv hs with ⟨_, hlen, _⟩ | ⟨hclosed, _⟩
        · exact Or.inr hlen
        · exact absurd ⟨k, hq, by rw [hk]; rfl⟩ hclosed
      · exact Or.inl (by rw [send_setPhase hs q k _, Function.update_of_ne hpq, hp])
  | tooMany q k msg hq hk hcount => exact hother hq rfl (by rw [hk]; nofun)
  | counted q k msg hq hk hcount => exact hother hq rfl (by rw [hk]; nofun)
  | update q k info m hq hk hm hreg => exact hother hq rfl (by rw [hk]; nofun)
  | updateLost q k info hq hk hreg => exact hother hq rfl (by rw [hk]; nofun)
  | sdp q k msg target tx out hq hk hmsg htx => exact hother hq rfl (by rw [hk]; nofun)
  | sdpLost q k msg target out hq hk hmsg htx => exact hother hq rfl (by rw [hk]; nofun)
  | sendUpdate q k peersTx peer d s1 hq hk hd hs =>
      exact hother hq (send_setPhase hs q k _) (by rw [hk]; nofun)
  | forward q k tx msg s1 hq hk hs =>
      exact hother hq (send_setPhase hs q k _) (by rw [hk]; nofun)
  | sendError q k s1 hq hk hs => exact hother hq (send_setPhase hs q k _) (by rw [hk]; nofun)
  | take q k r m rest hq hk hqu => exact Or.inl hp
  | disconnect q k r hq hk => exact hother hq rfl (by rw [hk]; nofun)
  | removeLast q k hq hk hm => exact hother hq rfl (by rw [hk]; nofun)
  | remove q k hq hk hm => exact hother hq rfl (by rw [hk]; nofun)
  | sendLeft q k remainingTx d s1 hq hk hd hs =>
      exact hother hq (send_setPhase hs q k _) (by rw [hk]; nofun)

theorem blocked_step (hb : s.blocked p) (hs : Step l s e t) : t.blocked p := by
  obtain ⟨h, peers, hp, hph, hlen⟩ := hb
  have hj : s.isJoining p = true := by simp [State.isJoining, hp, hph, Phase.isJoining]
  have hq : t.queue p = s.queue p := by
    rcases step_queue_joining hs hj with hq | ⟨hlt, _⟩
    · exact hq
    · exact absurd hlt (Nat.not_lt.mpr hlen)
  rcases step_hello_handler hs hp hph with hh | hlt
  · exact ⟨h, peers, hh, hph, by rw [hq]; exact hlen⟩
  · exact absurd hlt (Nat.not_lt.mpr hlen)

/-- **A blocked connection stays blocked**, whatever happens after it. -/
theorem blocked_forever {G : State → Event → Prop} {es : List Event} (hb : s.blocked p)
    (h : (server l).Run G s es t) : t.blocked p :=
  h.invariant (I := fun t => t.blocked p) hb fun _ _ _ hb _ hs => blocked_step hb (step_inv hs)

/-! ## 2. A blocked `Hello` -/

/-- Peer 0 is alone and idle when 1 is admitted; 2 to 5 are admitted before 1 has sent its `Join`
    to 0, and their `Join`s fill the channel of 1. -/
def crowdRun : List Event :=
  let info : ClientInfoWithoutId := ⟨"a", "2.3", none, none, "t"⟩
  [.task "g" 0 (.connect info), .task "g" 0 .sendHello, .task "g" 1 (.connect info),
    .task "g" 2 (.connect info), .task "g" 2 (.sendJoin 1),
    .task "g" 3 (.connect info), .task "g" 3 (.sendJoin 1),
    .task "g" 4 (.connect info), .task "g" 4 (.sendJoin 1),
    .task "g" 5 (.connect info), .task "g" 5 (.sendJoin 1),
    .task "g" 1 (.sendJoin 0)]

/-- **A `Hello` can block**: the run ends with peer 1 at its `Hello` and four messages before
    it. -/
theorem hello_blocks :
    ∃ s, (server ⟨10, 10⟩).Run Machine.anyStep State.empty crowdRun s ∧ s.blocked 1 := by
  have hrun : ((server ⟨10, 10⟩).run State.empty crowdRun).map
      (fun s => ((s.handler 1).map Handler.phase, (s.queue 1).length)) =
      some (some (.joining [] [ClientInfo.from ⟨"a", "2.3", none, none, "t"⟩ 0]), 4) := by decide
  obtain ⟨s, hs, hobs⟩ := Machine.run_observe hrun
  obtain ⟨hph, hlen⟩ := Prod.mk.inj hobs
  obtain ⟨h, hh, hph⟩ := Option.map_eq_some_iff.mp hph
  exact ⟨s, hs, h, _, hh, hph, by rw [hlen]; exact Nat.le_refl 4⟩

/-! ## 3. When it does not -/

/-- **The guard**: what goes into the channel of a joining connection leaves room for its
    `Hello`. -/
def leavesRoom (s : State) (e : Event) : Prop :=
  ∀ c ∈ e.channel s, s.isJoining c = true → (s.queue c).length + 1 < channelCapacity

instance (s : State) (e : Event) : Decidable (leavesRoom s e) :=
  inferInstanceAs (Decidable (∀ c ∈ e.channel s, _ → _))

/-- Room for the `Hello` of every joining connection. -/
def Room (s : State) : Prop := ∀ c, s.isJoining c = true → (s.queue c).length < channelCapacity

/-- Only an admission makes a connection joining. -/
theorem step_isJoining (hs : Step l s e t) (hj : t.isJoining c = true) :
    s.isJoining c = true ∨ (s.handler c = none ∧ t.queue c = s.queue c) := by
  have hupd : ∀ {q : Uuid} {h : Handler}, t.handler = Function.update s.handler q (some h) →
      (c = q → h.phase.isJoining = true →
        s.isJoining c = true ∨ (s.handler c = none ∧ t.queue c = s.queue c)) →
      s.isJoining c = true ∨ (s.handler c = none ∧ t.queue c = s.queue c) := by
    intro q h ht hq
    unfold State.isJoining at hj
    rw [ht] at hj
    by_cases hcq : c = q
    · rw [hcq, Function.update_self] at hj
      exact hq hcq hj
    · rw [Function.update_of_ne hcq] at hj
      exact Or.inl hj
  cases hs with
  | clear => exact Or.inl hj
  | refusedFull g q info hq hfull => exact hupd rfl nofun
  | refusedCount g q info hq hroom hcount => exact hupd rfl nofun
  | admitted g q info hq hroom hcount => exact hupd rfl fun hcq _ => Or.inr ⟨hcq ▸ hq, rfl⟩
  | join q h peersTx peers d s1 hq hph hd hs =>
      refine hupd (send_setPhase hs q h _) fun hcq _ => Or.inl ?_
      rw [hcq, State.isJoining, hq]
      simp [hph, Phase.isJoining]
  | hello q h peers s1 hq hph hs => exact hupd (send_setPhase hs q h _) nofun
  | tooMany q h msg hq hph hcount => exact hupd rfl nofun
  | counted q h msg hq hph hcount => exact hupd rfl nofun
  | update q h info m hq hph hm hreg => exact hupd rfl nofun
  | updateLost q h info hq hph hreg => exact hupd rfl nofun
  | sdp q h msg target tx out hq hph hmsg htx => exact hupd rfl nofun
  | sdpLost q h msg target out hq hph hmsg htx => exact hupd rfl nofun
  | sendUpdate q h peersTx peer d s1 hq hph hd hs => exact hupd (send_setPhase hs q h _) nofun
  | forward q h tx msg s1 hq hph hs => exact hupd (send_setPhase hs q h _) nofun
  | sendError q h s1 hq hph hs => exact hupd (send_setPhase hs q h _) nofun
  | take q h r m rest hq hph hqu => exact Or.inl hj
  | disconnect q h r hq hph => exact hupd rfl nofun
  | removeLast q h hq hph hm => exact hupd rfl nofun
  | remove q h hq hph hm => exact hupd rfl nofun
  | sendLeft q h remainingTx d s1 hq hph hd hs =>
      refine hupd (send_setPhase hs q h _) fun _ hj => ?_
      unfold Phase.afterLeft at hj
      split at hj <;> cases hj

theorem room_step (hT : Tables s) (hR : Room s) (hg : leavesRoom s e) (hs : Step l s e t) :
    Room t := by
  intro c hj
  rcases step_isJoining hs hj with hj' | ⟨hnew, hq⟩
  · rcases step_queue_joining hs hj' with hq | ⟨_, ⟨m, hq⟩, hch | hno⟩
    · rw [hq]
      exact hR c hj'
    · rw [hq, List.length_append]
      exact hg c hch hj'
    · rw [hno] at hj
      cases hj
  · rw [hq, (hT.unused c hnew).1]
    decide

/-- **No `Hello` blocks** in a run whose steps leave room for it. -/
theorem hello_never_blocks (l : Limits) (es : List Event) (s : State)
    (h : (server l).Run leavesRoom State.empty es s) (p : Uuid) : ¬ s.blocked p := by
  have hinv : Tables s ∧ Room s := by
    refine h.invariant (I := fun s => Tables s ∧ Room s) ⟨tables_empty, fun _ hj => by cases hj⟩ ?_
    rintro t e u ⟨hT, hR⟩ hg hs
    have hs' := step_inv hs
    exact ⟨tables_step hT hs', room_step hT hR hg hs'⟩
  intro h
  obtain ⟨k, peers, hp, hph, hlen⟩ := h
  have hj : s.isJoining p = true := by simp [State.isJoining, hp, hph, Phase.isJoining]
  exact absurd (hinv.2 p hj) (Nat.not_lt.mpr hlen)

/-- The crowd with one member less. -/
def smallCrowdRun : List Event := (crowdRun.take 9) ++ [.task "g" 1 (.sendJoin 0)]

theorem hello_never_blocks_smallCrowdRun :
    ∃ s, (server ⟨10, 10⟩).Run leavesRoom State.empty smallCrowdRun s ∧
      (s.queue 1).length = 3 ∧ ¬ s.blocked 1 := by
  have hrun : (((server ⟨10, 10⟩).guarded leavesRoom).run State.empty smallCrowdRun).map
      (fun s => (s.queue 1).length) = some 3 := by decide
  obtain ⟨s, hs, hlen⟩ := Machine.run_observe_guarded hrun
  exact ⟨s, hs, hlen, hello_never_blocks ⟨10, 10⟩ smallCrowdRun s hs 1⟩

end LocalSend.Signaling
