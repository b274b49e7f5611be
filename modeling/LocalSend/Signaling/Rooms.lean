/-
  File:      LocalSend/Signaling/Rooms.lean
  Subject:   WHAT THE MEMBERS OF A GROUP KNOW OF EACH OTHER.

  Membership changes under the lock; `Join`, `Hello`, `Update` and `Left` are sent after it is
  released, one peer at a time. What client `c` has heard, or is bound to hear from its own
  `Hello`, is `State.heard`; the invariant `Rooms` says what it knows about a peer `p` from it:
  nothing while the `Join` of `p` to `c` is pending, and the registered info of `p` once nothing
  of `p` to `c` is pending.

  * `orderly` -- the guard of a step: an `Update` or `Left` of `p` is not put before the `Hello`
    that lists `p`, an `Update` in company keeps the token, a connection does not end inside its
    `Update` loop;
  * `rooms_step`, `rooms_run` -- the invariant, on every run of orderly steps;
  * `room_view_converges` -- in a state without pending sends a client that drained its queue
    knows exactly the other members, each with its registered info;
  * `room_view_diverges` -- a run in which a `Left` overtakes the `Hello`.
-/
import LocalSend.Signaling.Isolation
import LocalSend.Signaling.NearbyDevices

namespace LocalSend.Signaling

open Lib

variable {l : Limits} {s t s1 : State} {e : Event} {c p : Uuid} {m : WsServerMessage}

/-! ## 1. Heard, registered, pending -/

/-- What the `Hello` that is still to be sent lists. -/
def Phase.listed : Phase → List (Uuid × Option ClientInfoWithoutId)
  | .joining _ peers => peers.map fun d => (d.id, some d.toClientInfoWithoutId)
  | _ => []

def State.listed (s : State) (c : Uuid) : List (Uuid × Option ClientInfoWithoutId) :=
  match s.handler c with
  | some h => h.phase.listed
  | none => []

/-- **What `c` has heard**, taken or not, and what its `Hello` will add. -/
def State.heard (s : State) (c : Uuid) : List (Uuid × Option ClientInfoWithoutId) :=
  (s.placed c).flatMap changes ++ s.listed c

/-- The info `tx_map` has for a member of the group. -/
def State.current (s : State) (g : String) (p : Uuid) : Option ClientInfoWithoutId :=
  (TxLocalMap.get (s.members g) p).map ClientState.client

/-- The channels that still miss the message the task broadcasts. -/
def Phase.broadcast : Phase → List Uuid
  | .joining peersTx _ => peersTx
  | .running (.updating peersTx _) => peersTx
  | .leaving remainingTx => remainingTx
  | _ => []

/-- Neither joining nor inside a broadcast. -/
def Phase.plain : Phase → Bool
  | .joining _ _ | .running (.updating _ _) | .leaving _ => false
  | _ => true

theorem plain_broadcast {ph : Phase} (h : ph.plain = true) : ph.broadcast = [] := by
  cases ph with
  | running r => cases r <;> first | rfl | cases h
  | _ => first | rfl | cases h

theorem broadcast_targets {ph : Phase} (h : c ∈ ph.broadcast) : c ∈ ph.targets := by
  unfold Phase.broadcast at h
  split at h <;> first | exact h | exact absurd h List.not_mem_nil

/-- **The invariant**: what a client with a living channel has heard about every peer. -/
structure Rooms (s : State) : Prop where
  nodup : ∀ p h, s.handler p = some h → h.phase.broadcast.Nodup
  others : ∀ p h, s.handler p = some h → p ∉ h.phase.broadcast
  joinInfo : ∀ p h peersTx peers, s.handler p = some h → h.phase = .joining peersTx peers →
    s.current h.group p = some h.peer.toClientInfoWithoutId
  updateInfo : ∀ p h peersTx peer, s.handler p = some h →
    h.phase = .running (.updating peersTx peer) →
    peer.id = p ∧ s.current h.group p = some peer.toClientInfoWithoutId
  about : ∀ c x, x ∈ s.heard c → x.1 ≠ c ∧ s.handler x.1 ≠ none
  untold : ∀ c k p h peersTx peers, s.handler c = some k → k.phase.isOpen = true →
    s.handler p = some h → h.phase = .joining peersTx peers → c ∈ peersTx →
    known p (s.heard c) = none
  settled : ∀ c k p, s.handler c = some k → k.phase.isOpen = true → p ≠ c →
    (∀ h, s.handler p = some h → c ∉ h.phase.broadcast) →
    known p (s.heard c) = s.current k.group p
  tokens : ∀ c k, s.handler c = some k → k.phase.isOpen = true →
    ∃ τ, TokensAre τ (s.heard c) ∧
      ∀ p info, p ≠ c → s.current k.group p = some info → info.token = τ p

theorem rooms_empty : Rooms State.empty where
  nodup _ _ h := by cases h
  others _ _ h := by cases h
  joinInfo _ _ _ _ h := by cases h
  updateInfo _ _ _ _ h := by cases h
  about _ _ h := absurd h List.not_mem_nil
  untold _ _ _ _ _ _ h := by cases h
  settled _ _ _ h := by cases h
  tokens _ _ h := by cases h

/-! ## 2. What the steps do to what is heard -/

theorem listed_of_update {h : Handler} {ph : Phase} (hp : s.handler p = some h)
    (ht : t.handler = Function.update s.handler p (some { h with phase := ph }))
    (hl : ph.listed = h.phase.listed) : t.listed = s.listed := by
  funext d
  unfold State.listed
  rw [ht]
  by_cases hd : d = p
  · subst hd
    rw [Function.update_self, hp]
    exact hl
  · rw [Function.update_of_ne hd]

theorem heard_congr (hpl : t.placed = s.placed) (hl : t.listed = s.listed) : t.heard = s.heard := by
  funext d
  unfold State.heard
  rw [hpl, hl]

/-- What a send adds to what is heard. -/
theorem send_heard (hs : s.send c m = some s1) (hl : t.listed = s.listed)
    (hpl : t.placed = s1.placed) :
    (t.heard = s.heard ∧ ¬ s.isOpen c) ∨
    (s.isOpen c ∧ t.heard = Function.update s.heard c
      ((s.placed c).flatMap changes ++ changes m ++ s.listed c)) := by
  rcases send_inv hs with ⟨ho, _, rfl⟩ | ⟨ho, rfl⟩
  · refine Or.inr ⟨ho, ?_⟩
    funext d
    unfold State.heard
    rw [hl, hpl]
    by_cases hd : d = c
    · subst hd
      simp [State.placed, State.push]
    · simp [State.placed, State.push, hd]
  · exact Or.inl ⟨heard_congr hpl hl, ho⟩

/-- A send of a message that says nothing about the peers. -/
theorem send_heard_nil (hs : s.send c m = some s1) (hm : changes m = []) (hl : t.listed = s.listed)
    (hpl : t.placed = s1.placed) : t.heard = s.heard := by
  rcases send_heard hs hl hpl with ⟨h, _⟩ | ⟨_, h⟩
  · exact h
  · rw [h, hm, List.append_nil]
    exact Function.update_eq_self c s.heard

theorem current_congr (hm : t.members = s.members) : t.current = s.current := by
  funext g q
  unfold State.current
  rw [hm]

/-! ## 3. The registered infos -/

theorem current_eq_some (hT : Tables s) {g : String} {info : ClientInfoWithoutId} :
    s.current g p = some info ↔ ∃ cs, (p, cs) ∈ s.members g ∧ cs.client = info := by
  unfold State.current TxLocalMap.get
  rw [Option.map_eq_some_iff]
  constructor
  · intro h
    obtain ⟨cs, hcs, hi⟩ := h
    exact ⟨cs, Assoc.mem_of_lookup hcs, hi⟩
  · intro h
    obtain ⟨cs, hcs, hi⟩ := h
    exact ⟨cs, Assoc.lookup_of_mem (hT.keys g) hcs, hi⟩

/-- Only a registered connection of the group has an info there. -/
theorem current_handler (hT : Tables s) {g : String} {info : ClientInfoWithoutId}
    (h : s.current g p = some info) :
    ∃ k, s.handler p = some k ∧ k.group = g ∧ k.phase.registered = true := by
  obtain ⟨cs, hcs, _⟩ := (current_eq_some hT).mp h
  exact (hT.entry g p cs hcs).2

theorem current_eq_none (hT : Tables s) {g : String}
    (h : ∀ k, s.handler p = some k → k.group = g → k.phase.registered = false) :
    s.current g p = none := by
  cases hc : s.current g p with
  | none => rfl
  | some info =>
      obtain ⟨k, hk, hg, hr⟩ := current_handler hT hc
      rw [h k hk hg] at hr
      cases hr

/-- A connection sends into the channel it is registered with. -/
theorem txs_eq (hT : Tables s) (g : String) :
    (s.members g).txs = (s.members g).map Prod.fst :=
  List.map_congr_left fun kv hkv => (hT.entry g kv.1 kv.2 hkv).1

theorem mem_txs_iff (hT : Tables s) {g : String} :
    c ∈ (s.members g).txs ↔ ∃ cs, (c, cs) ∈ s.members g := by
  rw [txs_eq hT, List.mem_map]
  constructor
  · intro h
    obtain ⟨⟨k, cs⟩, hmem, rfl⟩ := h
    exact ⟨cs, hmem⟩
  · intro h
    obtain ⟨cs, hcs⟩ := h
    exact ⟨(c, cs), hcs, rfl⟩

/-- A living channel belongs to a registered connection. -/
theorem open_registered {ph : Phase} (h : ph.isOpen = true) : ph.registered = true := by
  cases ph <;> first | rfl | cases h

theorem infos_changes (m : TxLocalMap) :
    (m.infos.map fun d => (d.id, some d.toClientInfoWithoutId)) =
      m.map fun kv => (kv.1, some kv.2.client) := by
  simp [TxLocalMap.infos, ClientInfo.from, Function.comp_def]

/-- What a `Hello` says about a peer is what the map had for it. -/
theorem known_infos {m : TxLocalMap} (hnd : (m.map Prod.fst).Nodup) (q : Uuid) :
    known q (m.map fun kv => (kv.1, some kv.2.client)) = (m.get q).map ClientState.client := by
  induction m with
  | nil => rfl
  | cons kv m ih =>
      rw [List.map_cons, List.nodup_cons] at hnd
      rw [List.map_cons, ← List.singleton_append]
      by_cases hq : q = kv.1
      · have hnone : words q (m.map fun kv => (kv.1, some kv.2.client)) = [] := by
          refine words_eq_nil fun x hx => ?_
          obtain ⟨y, hy, rfl⟩ := List.mem_map.mp hx
          rintro rfl
          exact hnd.1 (hq ▸ List.mem_map_of_mem hy)
        rw [known_append_nil hnone, hq, known_singleton]
        simp [TxLocalMap.get, Assoc.lookup_cons]
      · have hget : TxLocalMap.get (kv :: m) q = TxLocalMap.get m q := by
          simp [TxLocalMap.get, Assoc.lookup_cons, hq]
        rw [hget, ← ih hnd.2]
        exact known_insert_nil [] (words_eq_nil fun x hx => by
          rw [List.mem_singleton.mp hx]
          exact Ne.symm hq)

/-! ## 4. The steps keep the invariant -/

/-- **A move to a plain phase**, of a task with no broadcast left, that adds nothing to what is
    heard. -/
theorem rooms_plain (hR : Rooms s) {h : Handler} {ph : Phase} (hp : s.handler p = some h)
    (ht : t.handler = Function.update s.handler p (some { h with phase := ph }))
    (hplain : ph.plain = true) (hb : h.phase.broadcast = [])
    (ho : ph.isOpen = true → h.phase.isOpen = true) (hm : t.members = s.members)
    (hheard : t.heard = s.heard) : Rooms t := by
  have hcur := current_congr hm
  -- every handler after the step has one before it, with the same broadcast
  have hback : ∀ q k', t.handler q = some k' → ∃ k, s.handler q = some k ∧ k'.group = k.group ∧
      k'.phase.broadcast = k.phase.broadcast ∧ (k'.phase.isOpen = true → k.phase.isOpen = true) ∧
      (k'.phase.plain = false → k' = k) := by
    intro q k' hq
    rw [ht] at hq
    by_cases hqp : q = p
    · subst hqp
      rw [Function.update_self] at hq
      cases hq
      refine ⟨h, hp, rfl, ?_, ho, fun hno => ?_⟩
      · rw [plain_broadcast hplain, hb]
      · dsimp only at hno
        rw [hplain] at hno
        cases hno
    · rw [Function.update_of_ne hqp] at hq
      exact ⟨k', hq, rfl, rfl, id, fun _ => rfl⟩
  have hforth : ∀ q k, s.handler q = some k → ∃ k', t.handler q = some k' ∧
      k'.phase.broadcast = k.phase.broadcast := by
    intro q k hq
    rw [ht]
    by_cases hqp : q = p
    · subst hqp
      rw [hp] at hq
      cases hq
      exact ⟨_, Function.update_self _ _ _, by rw [plain_broadcast hplain, hb]⟩
    · exact ⟨k, by rw [Function.update_of_ne hqp, hq], rfl⟩
  refine ⟨fun q k' hq => ?_, fun q k' hq => ?_, fun q k' peersTx peers hq hph => ?_,
    fun q k' peersTx peer hq hph => ?_, fun d x hx => ?_,
    fun d k' q h' peersTx peers hd ho' hq hph hmem => ?_, fun d k' q hd ho' hne hpend => ?_,
    fun d k' hd ho' => ?_⟩
  · obtain ⟨k, hk, _, hbr, _⟩ := hback q k' hq
    rw [hbr]
    exact hR.nodup q k hk
  · obtain ⟨k, hk, _, hbr, _⟩ := hback q k' hq
    rw [hbr]
    exact hR.others q k hk
  · obtain ⟨k, hk, _, _, _, hsame⟩ := hback q k' hq
    obtain rfl := hsame (by rw [hph]; rfl)
    rw [hcur]
    exact hR.joinInfo q k' peersTx peers hk hph
  · obtain ⟨k, hk, _, _, _, hsame⟩ := hback q k' hq
    obtain rfl := hsame (by rw [hph]; rfl)
    rw [hcur]
    exact hR.updateInfo q k' peersTx peer hk hph
  · rw [hheard] at hx
    obtain ⟨h1, h2⟩ := hR.about d x hx
    obtain ⟨k, hk⟩ := Option.ne_none_iff_exists'.mp h2
    obtain ⟨k', hk', _⟩ := hforth x.1 k hk
    exact ⟨h1, by rw [hk']; nofun⟩
  · obtain ⟨k, hk, _, _, hop, _⟩ := hback d k' hd
    obtain ⟨j, hj, _, _, _, hsame⟩ := hback q h' hq
    obtain rfl := hsame (by rw [hph]; rfl)
    rw [hheard]
    exact hR.untold d k q h' peersTx peers hk (hop ho') hj hph hmem
  · obtain ⟨k, hk, hg, _, hop, _⟩ := hback d k' hd
    rw [hheard, hcur, hg]
    refine hR.settled d k q hk (hop ho') hne fun h' hh' => ?_
    obtain ⟨j, hj, hbr⟩ := hforth q h' hh'
    rw [← hbr]
    exact hpend j hj
  · obtain ⟨k, hk, hg, _, hop, _⟩ := hback d k' hd
    rw [hheard, hcur, hg]
    exact hR.tokens d k hk (hop ho')

/-- The words about another peer than the one that speaks. -/
theorem known_told {q : Uuid} {w : Option ClientInfoWithoutId} (hq : q ≠ p) :
    known q ((s.placed c).flatMap changes ++ [(p, w)] ++ s.listed c) = known q (s.heard c) :=
  known_insert_nil _ (words_eq_nil fun x hx => by
    rw [List.mem_singleton.mp hx]
    exact Ne.symm hq)

/-- **One message of a broadcast**: `p` tells `c` its registered state, and the `Hello` of `c`,
    if it is still to come, does not list `p`. -/
theorem rooms_tell (hT : Tables s) (hR : Rooms s) {h : Handler} {ph : Phase}
    {w : Option ClientInfoWithoutId} (hp : s.handler p = some h)
    (ht : t.handler = Function.update s.handler p (some { h with phase := ph }))
    (hm : t.members = s.members) (hs : s.send c m = some s1) (hpl : t.placed = s1.placed)
    (hc : c ∈ h.phase.broadcast) (hb : ph.broadcast = h.phase.broadcast.erase c)
    (hl : ph.listed = h.phase.listed) (ho : ph.isOpen = true → h.phase.isOpen = true)
    (hjoin : ∀ peersTx peers, ph = .joining peersTx peers →
      ∃ peersTx', h.phase = .joining peersTx' peers)
    (hupd : ∀ peersTx peer, ph = .running (.updating peersTx peer) →
      ∃ peersTx', h.phase = .running (.updating peersTx' peer))
    (hspoken : changes m = [(p, w)]) (hw : w = s.current h.group p)
    (hfirst : s.isOpen c → words p (s.listed c) = []) : Rooms t := by
  have hcur := current_congr hm
  have hnd := hR.nodup p h hp
  have hcp : c ≠ p := fun hcp => hR.others p h hp (hcp ▸ hc)
  obtain ⟨kc, hkc, hgc⟩ := hT.targets p h c hp (broadcast_targets hc)
  have hself : t.handler p = some { h with phase := ph } := by rw [ht, Function.update_self]
  have hne : ∀ q, q ≠ p → t.handler q = s.handler q := fun q hq => by
    rw [ht, Function.update_of_ne hq]
  -- the channels: `c` hears one word about `p` more, if it still listens
  have hother : ∀ d, d ≠ c → t.heard d = s.heard d := by
    intro d hd
    rcases send_heard hs (listed_of_update hp ht hl) hpl with ⟨h', _⟩ | ⟨_, h'⟩
    · rw [h']
    · rw [h', Function.update_of_ne hd]
  have hopen : kc.phase.isOpen = true →
      t.heard c = (s.placed c).flatMap changes ++ [(p, w)] ++ s.listed c := by
    intro hop
    rcases send_heard hs (listed_of_update hp ht hl) hpl with ⟨_, hno⟩ | ⟨_, h'⟩
    · exact absurd ⟨kc, hkc, hop⟩ hno
    · rw [h', Function.update_self, hspoken]
  have hback : ∀ q k', t.handler q = some k' → ∃ k, s.handler q = some k ∧ k'.group = k.group ∧
      (k'.phase.isOpen = true → k.phase.isOpen = true) := by
    intro q k' hq
    by_cases hqp : q = p
    · subst hqp
      rw [hself] at hq
      cases hq
      exact ⟨h, hp, rfl, ho⟩
    · rw [hne q hqp] at hq
      exact ⟨k', hq, rfl, id⟩
  refine ⟨fun q k' hq => ?_, fun q k' hq => ?_, fun q k' peersTx peers hq hph => ?_,
    fun q k' peersTx peer hq hph => ?_, fun d x hx => ?_,
    fun d k' q h' peersTx peers hd ho' hq hph hmem => ?_, fun d k' q hd ho' hqd hpend => ?_,
    fun d k' hd ho' => ?_⟩
  · by_cases hqp : q = p
    · subst hqp
      rw [hself] at hq
      cases hq
      dsimp only
      rw [hb]
      exact hnd.erase c
    · rw [hne q hqp] at hq
      exact hR.nodup q k' hq
  · by_cases hqp : q = p
    · subst hqp
      rw [hself] at hq
      cases hq
      dsimp only
      rw [hb]
      exact fun hmem => hR.others q h hp (List.mem_of_mem_erase hmem)
    · rw [hne q hqp] at hq
      exact hR.others q k' hq
  · rw [hcur]
    by_cases hqp : q = p
    · subst hqp
      rw [hself] at hq
      cases hq
      obtain ⟨peersTx', hph'⟩ := hjoin peersTx peers hph
      exact hR.joinInfo q h peersTx' peers hp hph'
    · rw [hne q hqp] at hq
      exact hR.joinInfo q k' peersTx peers hq hph
  · rw [hcur]
    by_cases hqp : q = p
    · subst hqp
      rw [hself] at hq
      cases hq
      obtain ⟨peersTx', hph'⟩ := hupd peersTx peer hph
      exact hR.updateInfo q h peersTx' peer hp hph'
    · rw [hne q hqp] at hq
      exact hR.updateInfo q k' peersTx peer hq hph
  · have hkeep : ∀ {q : Uuid}, s.handler q ≠ none → t.handler q ≠ none := by
      intro q hq
      by_cases hqp : q = p
      · subst hqp
        rw [hself]
        nofun
      · rw [hne q hqp]
        exact hq
    by_cases hdc : d = c
    · subst hdc
      rcases send_heard hs (listed_of_update hp ht hl) hpl with ⟨h', _⟩ | ⟨_, h'⟩
      · rw [h'] at hx
        obtain ⟨h1, h2⟩ := hR.about d x hx
        exact ⟨h1, hkeep h2⟩
      · rw [h', Function.update_self, hspoken] at hx
        have hx' : x ∈ s.heard d ∨ x = (p, w) := by
          simp only [List.mem_append, List.mem_singleton] at hx
          unfold State.heard
          rw [List.mem_append]
          rcases hx with (hx | hx) | hx
          · exact Or.inl (Or.inl hx)
          · exact Or.inr hx
          · exact Or.inl (Or.inr hx)
        rcases hx' with hx | rfl
        · obtain ⟨h1, h2⟩ := hR.about d x hx
          exact ⟨h1, hkeep h2⟩
        · exact ⟨Ne.symm hcp, by rw [hself]; nofun⟩
    · rw [hother d hdc] at hx
      obtain ⟨h1, h2⟩ := hR.about d x hx
      exact ⟨h1, hkeep h2⟩
  · obtain ⟨k, hk, _, hop⟩ := hback d k' hd
    by_cases hqp : q = p
    · subst hqp
      rw [hself] at hq
      cases hq
      obtain ⟨peersTx', hph'⟩ := hjoin peersTx peers hph
      dsimp only at hph
      have hpend : d ∈ peersTx'.erase c := by
        rw [hph, hph'] at hb
        exact (show peersTx = peersTx'.erase c from hb) ▸ hmem
      have hnd' : peersTx'.Nodup := by
        rw [hph'] at hnd
        exact hnd
      obtain ⟨hdc, hmem'⟩ := hnd'.mem_erase_iff.mp hpend
      rw [hother d hdc]
      exact hR.untold d k q h peersTx' peers hk (hop ho') hp hph' hmem'
    · rw [hne q hqp] at hq
      have hs' := hR.untold d k q h' peersTx peers hk (hop ho') hq hph hmem
      by_cases hdc : d = c
      · subst hdc
        rw [hkc] at hk
        cases hk
        rw [hopen (hop ho'), known_told hqp]
        exact hs'
      · rw [hother d hdc]
        exact hs'
  · obtain ⟨k, hk, hg, hop⟩ := hback d k' hd
    rw [hcur, hg]
    by_cases hqp : q = p
    · subst hqp
      by_cases hdc : d = c
      · -- the word just said is the last one
        subst hdc
        rw [hkc] at hk
        cases hk
        rw [hopen (hop ho'), known_append_nil (hfirst ⟨kc, hkc, hop ho'⟩),
          known_append_of (by simp [words]), known_singleton, hw, hgc]
      · rw [hother d hdc]
        refine hR.settled d k q hk (hop ho') hqd fun h' hh' hmem => ?_
        rw [hp] at hh'
        cases hh'
        refine hpend _ hself ?_
        dsimp only
        rw [hb]
        exact (List.mem_erase_of_ne hdc).mpr hmem
    · have hs' := hR.settled d k q hk (hop ho') hqd fun h' hh' =>
        hpend h' (by rw [hne q hqp, hh'])
      by_cases hdc : d = c
      · subst hdc
        rw [hkc] at hk
        cases hk
        rw [hopen (hop ho'), known_told hqp]
        exact hs'
      · rw [hother d hdc]
        exact hs'
  · obtain ⟨k, hk, hg, hop⟩ := hback d k' hd
    obtain ⟨τ, hτ, hreg⟩ := hR.tokens d k hk (hop ho')
    rw [hcur, hg]
    refine ⟨τ, ?_, hreg⟩
    by_cases hdc : d = c
    · subst hdc
      rw [hkc] at hk
      cases hk
      rw [hopen (hop ho')]
      intro x hx info hinfo
      simp only [List.mem_append, List.mem_singleton] at hx
      rcases hx with (hx | rfl) | hx
      · exact hτ x (List.mem_append_left _ hx) info hinfo
      · refine hreg p info (Ne.symm hcp) ?_
        rw [hgc, ← hw]
        exact hinfo
      · exact hτ x (List.mem_append_right _ hx) info hinfo
    · rw [hother d hdc]
      exact hτ

/-- Nobody has heard of a connection that does not exist yet. -/
theorem words_new (hR : Rooms s) (hp : s.handler p = none) (d : Uuid) :
    words p (s.heard d) = [] :=
  words_eq_nil fun x hx hxp => (hR.about d x hx).2 (hxp ▸ hp)

/-- **A refused connection** changes nothing for the others. -/
theorem rooms_refused (hR : Rooms s) {k0 : Handler} (hp : s.handler p = none)
    (ht : t.handler = Function.update s.handler p (some k0)) (hk0 : k0.phase = .refused)
    (hm : t.members = s.members) (hpl : t.placed = s.placed) : Rooms t := by
  have hcur := current_congr hm
  have hlisted : t.listed = s.listed := by
    funext d
    unfold State.listed
    rw [ht]
    by_cases hd : d = p
    · subst hd
      rw [Function.update_self, hp]
      dsimp only
      rw [hk0]
      rfl
    · rw [Function.update_of_ne hd]
  have hheard := heard_congr hpl hlisted
  have hback : ∀ q k, t.handler q = some k → s.handler q = some k ∨ (q = p ∧ k = k0) := by
    intro q k hq
    rw [ht] at hq
    by_cases hqp : q = p
    · subst hqp
      rw [Function.update_self] at hq
      exact Or.inr ⟨rfl, (Option.some.inj hq).symm⟩
    · rw [Function.update_of_ne hqp] at hq
      exact Or.inl hq
  have hforth : ∀ q k, s.handler q = some k → t.handler q = some k := by
    intro q k hq
    have hne : q ≠ p := by
      rintro rfl
      rw [hp] at hq
      cases hq
    rw [ht, Function.update_of_ne hne, hq]
  have hopen : ∀ d k, t.handler d = some k → k.phase.isOpen = true → s.handler d = some k := by
    intro d k hd ho
    rcases hback d k hd with hd | ⟨_, rfl⟩
    · exact hd
    · rw [hk0] at ho
      cases ho
  have hjoining : ∀ q k peersTx peers, t.handler q = some k → k.phase = .joining peersTx peers →
      s.handler q = some k := by
    intro q k peersTx peers hq hph
    rcases hback q k hq with hq | ⟨_, rfl⟩
    · exact hq
    · rw [hk0] at hph
      cases hph
  refine ⟨fun q k hq => ?_, fun q k hq => ?_, fun q k peersTx peers hq hph => ?_,
    fun q k peersTx peer hq hph => ?_, fun d x hx => ?_,
    fun d k q h' peersTx peers hd ho hq hph hmem => ?_, fun d k q hd ho hne hpend => ?_,
    fun d k hd ho => ?_⟩
  · rcases hback q k hq with hq | ⟨_, rfl⟩
    · exact hR.nodup q k hq
    · rw [hk0]
      exact List.nodup_nil
  · rcases hback q k hq with hq | ⟨_, rfl⟩
    · exact hR.others q k hq
    · rw [hk0]
      exact List.not_mem_nil
  · rw [hcur]
    exact hR.joinInfo q k peersTx peers (hjoining q k peersTx peers hq hph) hph
  · rw [hcur]
    rcases hback q k hq with hq | ⟨_, rfl⟩
    · exact hR.updateInfo q k peersTx peer hq hph
    · rw [hk0] at hph
      cases hph
  · rw [hheard] at hx
    obtain ⟨h1, h2⟩ := hR.about d x hx
    obtain ⟨k, hk⟩ := Option.ne_none_iff_exists'.mp h2
    exact ⟨h1, by rw [hforth x.1 k hk]; nofun⟩
  · rw [hheard]
    exact hR.untold d k q h' peersTx peers (hopen d k hd ho) ho
      (hjoining q h' peersTx peers hq hph) hph hmem
  · rw [hheard, hcur]
    exact hR.settled d k q (hopen d k hd ho) ho hne fun h' hh' => hpend h' (hforth q h' hh')
  · rw [hheard, hcur]
    exact hR.tokens d k (hopen d k hd ho) ho

/-- The registered infos after an admission. -/
theorem current_admitted (hT : Tables s) {g : String} {info : ClientInfoWithoutId}
    (hp : s.handler p = none)
    (hm : t.members = Function.update s.members g (s.members g ++ [(p, ClientState.mk info p)])) :
    t.current g p = some info ∧ ∀ g' q, g' ≠ g ∨ q ≠ p → t.current g' q = s.current g' q := by
  have hout : List.lookup p (s.members g) = none := by
    refine Assoc.lookup_eq_none.mpr fun hmem => ?_
    obtain ⟨⟨k, cs⟩, hk, rfl⟩ := List.mem_map.mp hmem
    obtain ⟨_, h, hh, _⟩ := hT.entry g k cs hk
    rw [show s.handler k = none from hp] at hh
    cases hh
  constructor
  · simp [State.current, TxLocalMap.get, hm, List.lookup_append, hout]
  · intro g' q hne
    unfold State.current TxLocalMap.get
    rw [hm]
    by_cases hg : g' = g
    · subst hg
      have hq : q ≠ p := hne.resolve_left (fun h => h rfl)
      rw [Function.update_self, List.lookup_append]
      simp [Assoc.lookup_cons, hq]
    · rw [Function.update_of_ne hg]

/-- **An admission**: the newcomer's `Hello` lists what is registered, and nobody has heard of
    it. -/
theorem rooms_admitted (hT : Tables s) (hR : Rooms s) {g : String} {info : ClientInfoWithoutId}
    (hp : s.handler p = none)
    (ht : t.handler = Function.update s.handler p
      (some ⟨g, ClientInfo.from info p, .joining (s.members g).txs (s.members g).infos⟩))
    (hm : t.members = Function.update s.members g (s.members g ++ [(p, ClientState.mk info p)]))
    (hpl : t.placed = s.placed) : Rooms t := by
  obtain ⟨hcurp, hcur⟩ := current_admitted hT hp hm
  have hself : t.handler p =
      some ⟨g, ClientInfo.from info p, .joining (s.members g).txs (s.members g).infos⟩ := by
    rw [ht, Function.update_self]
  have hne : ∀ q, q ≠ p → t.handler q = s.handler q := fun q hq => by
    rw [ht, Function.update_of_ne hq]
  have hforth : ∀ q k, s.handler q = some k → q ≠ p := by
    rintro q k hq rfl
    rw [hp] at hq
    cases hq
  have hheardp : t.heard p = (s.members g).map fun kv => (kv.1, some kv.2.client) := by
    obtain ⟨h1, h2⟩ := hT.unused p hp
    have hnil : s.placed p = [] := by rw [State.placed, h1, h2, List.append_nil]
    unfold State.heard State.listed
    rw [hpl, hnil, hself]
    exact infos_changes _
  have hheard : ∀ d, d ≠ p → t.heard d = s.heard d := by
    intro d hd
    unfold State.heard State.listed
    rw [hpl, hne d hd]
  have hmemtx : ∀ q, q ∈ (s.members g).txs → ∃ k, s.handler q = some k := by
    intro q hq
    obtain ⟨cs, hcs⟩ := (mem_txs_iff hT).mp hq
    obtain ⟨_, k, hk, _⟩ := hT.entry g q cs hcs
    exact ⟨k, hk⟩
  refine ⟨fun q k hq => ?_, fun q k hq => ?_, fun q k peersTx peers hq hph => ?_,
    fun q k peersTx peer hq hph => ?_, fun d x hx => ?_,
    fun d k q h' peersTx peers hd ho hq hph hmem => ?_, fun d k q hd ho hqd hpend => ?_,
    fun d k hd ho => ?_⟩
  · by_cases hqp : q = p
    · subst hqp
      rw [hself] at hq
      cases hq
      show (s.members g).txs.Nodup
      rw [txs_eq hT]
      exact hT.keys g
    · rw [hne q hqp] at hq
      exact hR.nodup q k hq
  · by_cases hqp : q = p
    · subst hqp
      rw [hself] at hq
      cases hq
      intro hmem
      obtain ⟨k', hk'⟩ := hmemtx q hmem
      exact hforth q k' hk' rfl
    · rw [hne q hqp] at hq
      exact hR.others q k hq
  · by_cases hqp : q = p
    · subst hqp
      rw [hself] at hq
      cases hq
      exact hcurp
    · rw [hne q hqp] at hq
      rw [hcur _ q (Or.inr hqp)]
      exact hR.joinInfo q k peersTx peers hq hph
  · have hqp : q ≠ p := by
      rintro rfl
      rw [hself] at hq
      cases hq
      cases hph
    rw [hne q hqp] at hq
    rw [hcur _ q (Or.inr hqp)]
    exact hR.updateInfo q k peersTx peer hq hph
  · have hkeep : ∀ {q : Uuid}, s.handler q ≠ none → t.handler q ≠ none := by
      intro q hq
      obtain ⟨k, hk⟩ := Option.ne_none_iff_exists'.mp hq
      rw [hne q (hforth q k hk)]
      exact hq
    by_cases hdp : d = p
    · subst hdp
      rw [hheardp] at hx
      obtain ⟨⟨k, cs⟩, hkv, rfl⟩ := List.mem_map.mp hx
      obtain ⟨_, h0, hh0, _⟩ := hT.entry g k cs hkv
      exact ⟨hforth k h0 hh0, hkeep (by rw [hh0]; exact Option.some_ne_none _)⟩
    · rw [hheard d hdp] at hx
      obtain ⟨h1, h2⟩ := hR.about d x hx
      exact ⟨h1, hkeep h2⟩
  · by_cases hqp : q = p
    · subst hqp
      rw [hself] at hq
      cases hq
      cases hph
      obtain ⟨k', hk'⟩ := hmemtx d hmem
      rw [hheard d (hforth d k' hk')]
      exact known_of_words_nil (words_new hR hp d)
    · rw [hne q hqp] at hq
      obtain ⟨k', hk', _⟩ := hT.targets q h' d hq (by rw [hph]; exact hmem)
      have hdp := hforth d k' hk'
      rw [hne d hdp] at hd
      rw [hheard d hdp]
      exact hR.untold d k q h' peersTx peers hd ho hq hph hmem
  · by_cases hdp : d = p
    · subst hdp
      rw [hself] at hd
      cases hd
      dsimp only
      rw [hheardp, known_infos (hT.keys g), hcur g q (Or.inr hqd)]
      rfl
    · rw [hne d hdp] at hd
      rw [hheard d hdp]
      by_cases hqp : q = p
      · -- a channel the newcomer does not have belongs to another group
        subst hqp
        have hg : k.group ≠ g := by
          rintro rfl
          obtain ⟨cs, hcs⟩ := hT.present d k hd (open_registered ho)
          exact hpend _ hself ((mem_txs_iff hT).mpr ⟨cs, hcs⟩)
        rw [known_of_words_nil (words_new hR hp d), hcur _ q (Or.inl hg)]
        exact (current_eq_none hT fun k' hk' => by rw [hp] at hk'; cases hk').symm
      · rw [hcur _ q (Or.inr hqp)]
        exact hR.settled d k q hd ho hqd fun h' hh' => hpend h' (by rw [hne q hqp, hh'])
  · by_cases hdp : d = p
    · subst hdp
      rw [hself] at hd
      cases hd
      refine ⟨fun q => ((s.current g q).map ClientInfoWithoutId.token).getD "", ?_, ?_⟩
      · intro x hx info' hinfo
        rw [hheardp] at hx
        obtain ⟨⟨k, cs⟩, hkv, rfl⟩ := List.mem_map.mp hx
        obtain rfl := Option.some.inj hinfo
        have hc : s.current g k = some cs.client := (current_eq_some hT).mpr ⟨cs, hkv, rfl⟩
        simp [hc]
      · intro q info' hq hc
        rw [hcur g q (Or.inr hq)] at hc
        simp [hc]
    · rw [hne d hdp] at hd
      obtain ⟨τ, hτ, hreg⟩ := hR.tokens d k hd ho
      refine ⟨Function.update τ p info.token, ?_, ?_⟩
      · intro x hx info' hinfo
        rw [hheard d hdp] at hx
        have hxp : x.1 ≠ p := fun h => (hR.about d x hx).2 (h ▸ hp)
        rw [Function.update_of_ne hxp]
        exact hτ x hx info' hinfo
      · intro q info' hq hc
        by_cases hqp : q = p
        · subst hqp
          rw [Function.update_self]
          by_cases hg : k.group = g
          · rw [hg, hcurp] at hc
            rw [Option.some.inj hc]
          · rw [hcur _ q (Or.inl hg)] at hc
            obtain ⟨k', hk', _⟩ := current_handler hT hc
            exact absurd rfl (hforth q k' hk')
        · rw [Function.update_of_ne hqp]
          rw [hcur _ q (Or.inr hqp)] at hc
          exact hreg q info' hq hc

/-- **The start of a broadcast**: the registered state of `p` becomes `w`, and everybody else in
    the group is still to be told. -/
theorem rooms_broadcast (hT : Tables s) (hR : Rooms s) {h : Handler} {ph : Phase}
    {w : Option ClientInfoWithoutId} (hp : s.handler p = some h)
    (ht : t.handler = Function.update s.handler p (some { h with phase := ph }))
    (hpl : t.placed = s.placed) (hb : h.phase.broadcast = [])
    (hb' : ph.broadcast = TxLocalMap.txs (TxLocalMap.erase (s.members h.group) p))
    (hl : ph.listed = h.phase.listed) (ho : ph.isOpen = true → h.phase.isOpen = true)
    (hjoin : ∀ peersTx peers, ph ≠ .joining peersTx peers)
    (hupd : ∀ peersTx peer, ph = .running (.updating peersTx peer) →
      peer.id = p ∧ w = some peer.toClientInfoWithoutId)
    (hw : t.current h.group p = w)
    (hcur : ∀ g q, g ≠ h.group ∨ q ≠ p → t.current g q = s.current g q)
    (htok : ∀ info, w = some info → TxLocalMap.erase (s.members h.group) p ≠ [] →
      ∃ old, s.current h.group p = some old ∧ old.token = info.token) : Rooms t := by
  have hheard := heard_congr hpl (listed_of_update hp ht hl)
  have hself : t.handler p = some { h with phase := ph } := by rw [ht, Function.update_self]
  have hne : ∀ q, q ≠ p → t.handler q = s.handler q := fun q hq => by
    rw [ht, Function.update_of_ne hq]
  have hmemtx : ∀ q, q ∈ TxLocalMap.txs (TxLocalMap.erase (s.members h.group) p) ↔
      q ≠ p ∧ ∃ cs, (q, cs) ∈ s.members h.group := by
    intro q
    rw [mem_txs]
    constructor
    · intro h
      obtain ⟨k, cs, hkv, htx⟩ := h
      obtain ⟨hkv, hkp⟩ := mem_erase.mp hkv
      obtain rfl : k = q := (hT.entry h.group k cs hkv).1.symm.trans htx
      exact ⟨hkp, cs, hkv⟩
    · intro h
      obtain ⟨hqp, cs, hkv⟩ := h
      exact ⟨q, cs, mem_erase.mpr ⟨hkv, hqp⟩, (hT.entry h.group q cs hkv).1⟩
  have hback : ∀ q k', t.handler q = some k' → ∃ k, s.handler q = some k ∧ k'.group = k.group ∧
      (k'.phase.isOpen = true → k.phase.isOpen = true) ∧ (q ≠ p → k' = k) := by
    intro q k' hq
    by_cases hqp : q = p
    · subst hqp
      rw [hself] at hq
      cases hq
      exact ⟨h, hp, rfl, ho, fun hne => absurd rfl hne⟩
    · rw [hne q hqp] at hq
      exact ⟨k', hq, rfl, id, fun _ => rfl⟩
  -- another living channel of the group is one of the targets
  have hcompany : ∀ d k, s.handler d = some k → k.phase.isOpen = true → d ≠ p →
      k.group = h.group → d ∈ ph.broadcast := by
    intro d k hd hop hdp hg
    obtain ⟨cs, hcs⟩ := hT.present d k hd (open_registered hop)
    rw [hb', hmemtx]
    exact ⟨hdp, cs, hg ▸ hcs⟩
  refine ⟨fun q k' hq => ?_, fun q k' hq => ?_, fun q k' peersTx peers hq hph => ?_,
    fun q k' peersTx peer hq hph => ?_, fun d x hx => ?_,
    fun d k' q h' peersTx peers hd ho' hq hph hmem => ?_, fun d k' q hd ho' hqd hpend => ?_,
    fun d k' hd ho' => ?_⟩
  · by_cases hqp : q = p
    · subst hqp
      rw [hself] at hq
      cases hq
      dsimp only
      rw [hb']
      have hsub : (TxLocalMap.txs (TxLocalMap.erase (s.members h.group) q)).Sublist
          (s.members h.group).txs := List.filter_sublist.map _
      rw [txs_eq hT] at hsub
      exact (hT.keys h.group).sublist hsub
    · rw [hne q hqp] at hq
      exact hR.nodup q k' hq
  · by_cases hqp : q = p
    · subst hqp
      rw [hself] at hq
      cases hq
      dsimp only
      rw [hb', hmemtx]
      exact fun hmem => hmem.1 rfl
    · rw [hne q hqp] at hq
      exact hR.others q k' hq
  · by_cases hqp : q = p
    · subst hqp
      rw [hself] at hq
      cases hq
      exact absurd hph (hjoin peersTx peers)
    · rw [hne q hqp] at hq
      rw [hcur _ q (Or.inr hqp)]
      exact hR.joinInfo q k' peersTx peers hq hph
  · by_cases hqp : q = p
    · subst hqp
      rw [hself] at hq
      cases hq
      obtain ⟨hid, hinfo⟩ := hupd peersTx peer hph
      exact ⟨hid, hw.trans hinfo⟩
    · rw [hne q hqp] at hq
      rw [hcur _ q (Or.inr hqp)]
      exact hR.updateInfo q k' peersTx peer hq hph
  · rw [hheard] at hx
    obtain ⟨h1, h2⟩ := hR.about d x hx
    refine ⟨h1, ?_⟩
    by_cases hxp : x.1 = p
    · rw [hxp, hself]
      nofun
    · rw [hne _ hxp]
      exact h2
  · obtain ⟨k, hk, _, hop, _⟩ := hback d k' hd
    have hqp : q ≠ p := by
      rintro rfl
      rw [hself] at hq
      cases hq
      exact absurd hph (hjoin peersTx peers)
    rw [hne q hqp] at hq
    rw [hheard]
    exact hR.untold d k q h' peersTx peers hk (hop ho') hq hph hmem
  · obtain ⟨k, hk, hg, hop, _⟩ := hback d k' hd
    rw [hheard, hg]
    by_cases hqp : q = p
    · subst hqp
      have hdg : k.group ≠ h.group := fun hdg =>
        hpend _ hself (hcompany d k hk (hop ho') (Ne.symm hqd) hdg)
      rw [hcur _ q (Or.inl hdg)]
      refine hR.settled d k q hk (hop ho') hqd fun h' hh' => ?_
      rw [hp] at hh'
      cases hh'
      rw [hb]
      exact List.not_mem_nil
    · rw [hcur _ q (Or.inr hqp)]
      exact hR.settled d k q hk (hop ho') hqd fun h' hh' => hpend h' (by rw [hne q hqp, hh'])
  · obtain ⟨k, hk, hg, hop, _⟩ := hback d k' hd
    obtain ⟨τ, hτ, hreg⟩ := hR.tokens d k hk (hop ho')
    rw [hheard, hg]
    refine ⟨τ, hτ, fun q info hqd hc => ?_⟩
    by_cases hqp : q = p
    · subst hqp
      by_cases hdg : k.group = h.group
      · rw [hdg, hw] at hc
        have hd' := hcompany d k hk (hop ho') (Ne.symm hqd) hdg
        have hne' : TxLocalMap.erase (s.members h.group) q ≠ [] := by
          rintro hnil
          rw [hb', hnil] at hd'
          exact absurd hd' List.not_mem_nil
        obtain ⟨old, hold, htk⟩ := htok info hc hne'
        rw [← htk]
        exact hreg q old hqd (by rw [hdg, hold])
      · rw [hcur _ q (Or.inl hdg)] at hc
        exact hreg q info hqd hc
    · rw [hcur _ q (Or.inr hqp)] at hc
      exact hreg q info hqd hc

theorem get_setClient {m : TxLocalMap} {cs : ClientState} (info : ClientInfoWithoutId)
    (hget : m.get p = some cs) :
    ((m.setClient p info).get p).map ClientState.client = some info ∧
    ∀ q, q ≠ p → (m.setClient p info).get q = m.get q := by
  unfold TxLocalMap.get at hget ⊢
  unfold TxLocalMap.setClient
  constructor
  · induction m with
    | nil => cases hget
    | cons kv m ih =>
        by_cases hk : p = kv.1
        · simp [hk]
        · rw [Assoc.lookup_cons, if_neg hk] at hget
          rw [List.map_cons, Assoc.lookup_cons, if_neg (Ne.symm hk), if_neg hk]
          exact ih hget
  · intro q hq
    clear hget
    induction m with
    | nil => rfl
    | cons kv m ih =>
        by_cases hk : kv.1 = p
        · have hk' : q ≠ kv.1 := hk ▸ hq
          rw [List.map_cons, if_pos hk, Assoc.lookup_cons, if_neg hk', Assoc.lookup_cons,
            if_neg hk']
          exact ih
        · rw [List.map_cons, if_neg hk, Assoc.lookup_cons, Assoc.lookup_cons, ih]

theorem get_erase (m : TxLocalMap) (p : Uuid) :
    (m.erase p).get p = none ∧ ∀ q, q ≠ p → (m.erase p).get q = m.get q := by
  unfold TxLocalMap.get TxLocalMap.erase
  constructor
  · refine Assoc.lookup_eq_none.mpr fun hmem => ?_
    obtain ⟨kv, hkv, hk⟩ := List.mem_map.mp hmem
    exact absurd hk (by simpa using (List.mem_filter.mp hkv).2)
  · intro q hq
    induction m with
    | nil => rfl
    | cons kv m ih =>
        by_cases hk : kv.1 = p
        · have hk' : q ≠ kv.1 := hk ▸ hq
          simp only [List.filter_cons, hk, ne_eq, not_true_eq_false, decide_false,
            Bool.false_eq_true, if_false]
          rw [Assoc.lookup_cons, if_neg hk']
          exact ih
        · simp only [List.filter_cons, ne_eq, hk, not_false_eq_true, decide_true, if_true]
          rw [Assoc.lookup_cons, Assoc.lookup_cons, ih]

/-- What a `Hello` lists is an info. -/
theorem listed_known {ph : Phase} (h : words p ph.listed ≠ []) : known p ph.listed ≠ none := by
  unfold known
  obtain ⟨w, hw⟩ := Option.ne_none_iff_exists'.mp (mt List.getLast?_eq_none_iff.mp h)
  rw [hw]
  obtain ⟨x, hx, rfl⟩ := List.mem_map.mp (List.mem_of_getLast? hw)
  have hx := (List.mem_filter.mp hx).1
  unfold Phase.listed at hx
  split at hx
  · obtain ⟨d, _, rfl⟩ := List.mem_map.mp hx
    nofun
  · exact absurd hx List.not_mem_nil

/-! ## 5. Orderly runs -/

/-- The update a counted message stands for. -/
def Phase.update? : Phase → Option ClientInfoWithoutId
  | .running (.counted (.update info)) => some info
  | _ => none

def Phase.isUpdating : Phase → Bool
  | .running (.updating _ _) => true
  | _ => false

/-- **The guard**: an `Update` or `Left` of `p` goes to a client only if no `Hello` that lists `p`
    is still to come there; an `Update` keeps the registered token, unless `p` is alone in its
    group; a connection does not end inside its `Update` loop. -/
def orderly (s : State) : Event → Prop
  | .task _ p (.sendUpdate c) | .task _ p (.sendLeft c) => ∀ x ∈ s.listed c, x.1 ≠ p
  | .task g p .handleMessage =>
    ∀ h ∈ s.handler p, ∀ info ∈ h.phase.update?, ∀ cs ∈ TxLocalMap.get (s.members g) p,
      TxLocalMap.erase (s.members g) p = [] ∨ cs.client.token = info.token
  | .task _ p .disconnect => ∀ h ∈ s.handler p, h.phase.isUpdating = false
  | _ => True

instance (s : State) : (e : Event) → Decidable (orderly s e)
  | .task _ p (.sendUpdate c) => inferInstanceAs (Decidable (∀ x ∈ s.listed c, x.1 ≠ p))
  | .task _ p (.sendLeft c) => inferInstanceAs (Decidable (∀ x ∈ s.listed c, x.1 ≠ p))
  | .task g p .handleMessage =>
    inferInstanceAs (Decidable (∀ h ∈ s.handler p, ∀ info ∈ h.phase.update?,
      ∀ cs ∈ TxLocalMap.get (s.members g) p,
        TxLocalMap.erase (s.members g) p = [] ∨ cs.client.token = info.token))
  | .task _ p .disconnect =>
    inferInstanceAs (Decidable (∀ h ∈ s.handler p, h.phase.isUpdating = false))
  | .task _ _ (.connect _) | .task _ _ (.sendJoin _) | .task _ _ .sendHello
  | .task _ _ (.receive _) | .task _ _ .forward | .task _ _ .sendError | .task _ _ .take
  | .task _ _ .remove | .clearCounts => inferInstanceAs (Decidable True)

theorem send_members (hs : s.send c m = some s1) {h : Handler} {ph : Phase} :
    (s1.setPhase p h ph).members = s.members := by
  funext g
  simp [State.members, State.setPhase, State.setHandler, send_txMap hs]

theorem afterUpdate_broadcast {peersTx : List Uuid} {peer : ClientInfo} :
    (Phase.running (.afterUpdate peersTx peer)).broadcast = peersTx := by
  unfold RecvTask.afterUpdate
  split
  · rename_i h
    rw [h]
    rfl
  · rfl

theorem afterLeft_broadcast {remainingTx : List Uuid} :
    (Phase.afterLeft remainingTx).broadcast = remainingTx := by
  unfold Phase.afterLeft
  split
  · rename_i h
    rw [h]
    rfl
  · rfl

theorem afterLeft_listed {remainingTx : List Uuid} :
    (Phase.afterLeft remainingTx).listed = [] := by
  unfold Phase.afterLeft
  split <;> rfl

/-- **A removal** starts the broadcast of `Left`. -/
theorem rooms_removed (hT : Tables s) (hR : Rooms s) {h : Handler} {ph : Phase}
    (hp : s.handler p = some h) (hph : h.phase = .ended)
    (ht : t.handler = Function.update s.handler p (some { h with phase := ph }))
    (hpl : t.placed = s.placed) (hopen : ph.isOpen = false)
    (hb : ph.broadcast = TxLocalMap.txs (TxLocalMap.erase (s.members h.group) p))
    (hm : t.members = Function.update s.members h.group (TxLocalMap.erase (s.members h.group) p)) :
    Rooms t := by
  obtain ⟨hself, hother⟩ := get_erase (s.members h.group) p
  refine rooms_broadcast hT hR hp ht hpl (by rw [hph]; rfl) hb ?_ (fun ho => ?_)
    (fun a b hab => ?_) (w := none) (fun a b hab => ?_) ?_ (fun g q hne => ?_) (fun _ h => by cases h)
  · rw [hph]
    cases ph <;> first | rfl | cases hopen
  · rw [hopen] at ho
    cases ho
  · rw [hab] at hopen
    cases hopen
  · rw [hab] at hopen
    cases hopen
  · simp [State.current, hm, hself]
  · by_cases hgg : g = h.group
    · subst hgg
      have hq : q ≠ p := hne.resolve_left fun h => h rfl
      simp [State.current, hm, hother q hq]
    · simp [State.current, hm, hgg]

/-- **Every orderly step keeps the invariant.** -/
theorem rooms_step (hT : Tables s) (hO : SdpOrigin s) (hR : Rooms s) (hg : orderly s e)
    (hs : Step l s e t) : Rooms t := by
  cases hs with
  | clear =>
      exact ⟨hR.nodup, hR.others, hR.joinInfo, hR.updateInfo, hR.about, hR.untold, hR.settled,
        hR.tokens⟩
  | refusedFull g p info hp hfull => exact rooms_refused hR hp rfl rfl (members_update_self rfl) rfl
  | refusedCount g p info hp hroom hcount =>
      exact rooms_refused hR hp rfl rfl (members_update_self rfl) rfl
  | admitted g p info hp hroom hcount =>
      exact rooms_admitted hT hR hp rfl (members_update (v := some _) rfl) rfl
  | join p h peersTx peers c s1 hp hph hc hs =>
      have hc' : c ∈ h.phase.broadcast := by rw [hph]; exact hc
      refine rooms_tell hT hR hp (send_setPhase hs p h _) (send_members hs) hs rfl hc'
        (by rw [hph]; rfl) (by rw [hph]; rfl) (fun _ => by rw [hph]; rfl) (fun a b hab => ?_)
        (fun _ _ h => by cases h) (w := some h.peer.toClientInfoWithoutId)
        (by rw [← hT.peerId p h hp]; rfl) (hR.joinInfo p h peersTx peers hp hph).symm ?_
      · cases hab
        exact ⟨peersTx, hph⟩
      · -- a `Hello` of `c` that lists `p` would have told `c` about `p`
        intro h
        obtain ⟨k, hk, hop⟩ := h
        by_contra hne
        have hun := hR.untold c k p h peersTx peers hk hop hp hph hc
        have hlist : s.listed c = k.phase.listed := by simp [State.listed, hk]
        rw [State.heard, known_append_of hne, hlist] at hun
        exact listed_known (hlist ▸ hne) hun
  | hello p h peers s1 hp hph hs =>
      refine rooms_plain hR hp (send_setPhase hs p h _) rfl (by rw [hph]; rfl)
        (fun _ => by rw [hph]; rfl) (send_members hs) ?_
      rcases send_inv hs with ⟨_, _, rfl⟩ | ⟨hno, _⟩
      · funext d
        by_cases hd : d = p
        · subst hd
          simp [State.heard, State.listed, State.placed, State.push, State.setPhase,
            State.setHandler, hp, hph, Phase.listed, changes]
        · simp [State.heard, State.listed, State.placed, State.push, State.setPhase,
            State.setHandler, hd]
      · exact absurd ⟨h, hp, by rw [hph]; rfl⟩ hno
  | tooMany p h msg hp hph hcount =>
      exact rooms_plain hR hp rfl rfl (by rw [hph]; rfl) (fun _ => by rw [hph]; rfl) rfl
        (heard_congr rfl (listed_of_update hp rfl (by rw [hph]; rfl)))
  | counted p h msg hp hph hcount =>
      exact rooms_plain hR hp rfl rfl (by rw [hph]; rfl) (fun _ => by rw [hph]; rfl) rfl
        (heard_congr rfl (listed_of_update hp rfl (by rw [hph]; rfl)))
  | update p h info m hp hph hm hreg =>
      obtain ⟨cs, hcs⟩ := Option.isSome_iff_exists.mp hreg
      have hmem : s.members h.group = m := by simp [State.members, hm]
      obtain ⟨hself, hother⟩ := get_setClient info hcs
      have hcur : s.current h.group p = some cs.client := by simp [State.current, hmem, hcs]
      refine rooms_broadcast hT hR hp rfl rfl (by rw [hph]; rfl)
        (by rw [afterUpdate_broadcast, hmem]) (by rw [hph]; rfl) (fun _ => by rw [hph]; rfl) (fun _ _ h => by cases h)
        (w := some info) (fun a b hab => ?_) ?_ (fun g q hne => ?_) (fun info' hinfo hcomp => ?_)
      · unfold RecvTask.afterUpdate at hab
        split at hab
        · cases hab
        · cases hab
          exact ⟨rfl, rfl⟩
      · simpa [State.current, State.members, State.setPhase, State.setHandler] using hself
      · by_cases hgg : g = h.group
        · subst hgg
          have hq : q ≠ p := hne.resolve_left fun h => h rfl
          simp [State.current, State.members, State.setPhase, State.setHandler, hm, hother q hq]
        · simp [State.current, State.members, State.setPhase, State.setHandler, hgg]
      · obtain rfl := Option.some.inj hinfo
        have hupd : h.phase.update? = some info := by rw [hph]; rfl
        refine ⟨cs.client, hcur, ?_⟩
        exact (hg h hp info hupd cs (by rw [hmem, hcs]; rfl)).resolve_left hcomp
  | updateLost p h info hp hph hreg =>
      exact rooms_plain hR hp rfl rfl (by rw [hph]; rfl) (fun _ => by rw [hph]; rfl) rfl
        (heard_congr rfl (listed_of_update hp rfl (by rw [hph]; rfl)))
  | sdp p h msg target tx out hp hph hmsg htx =>
      exact rooms_plain hR hp rfl rfl (by rw [hph]; rfl) (fun _ => by rw [hph]; rfl) rfl
        (heard_congr rfl (listed_of_update hp rfl (by rw [hph]; rfl)))
  | sdpLost p h msg target out hp hph hmsg htx =>
      exact rooms_plain hR hp rfl rfl (by rw [hph]; rfl) (fun _ => by rw [hph]; rfl) rfl
        (heard_congr rfl (listed_of_update hp rfl (by rw [hph]; rfl)))
  | sendUpdate p h peersTx peer c s1 hp hph hc hs =>
      obtain ⟨hid, hinfo⟩ := hR.updateInfo p h peersTx peer hp hph
      refine rooms_tell hT hR hp (send_setPhase hs p h _) (send_members hs) hs rfl
        (by rw [hph]; exact hc) (by rw [afterUpdate_broadcast, hph]; rfl) (by rw [hph]; rfl)
        (fun _ => by rw [hph]; rfl) (fun _ _ h => by cases h) (fun a b hab => ?_)
        (w := some peer.toClientInfoWithoutId) (by rw [← hid]; rfl) hinfo.symm
        (fun _ => words_eq_nil hg)
      unfold RecvTask.afterUpdate at hab
      split at hab
      · cases hab
      · cases hab
        exact ⟨peersTx, hph⟩
  | forward p h tx msg s1 hp hph hs =>
      have hnil : changes msg = [] := by
        have hsig := hO.signed p h tx msg hp hph
        cases msg <;> first | rfl | cases hsig
      exact rooms_plain hR hp (send_setPhase hs p h _) rfl (by rw [hph]; rfl)
        (fun _ => by rw [hph]; rfl) (send_members hs)
        (send_heard_nil hs hnil (listed_of_update hp (send_setPhase hs p h _) (by rw [hph]; rfl)) rfl)
  | sendError p h s1 hp hph hs =>
      exact rooms_plain hR hp (send_setPhase hs p h _) rfl (by rw [hph]; rfl)
        (fun _ => by rw [hph]; rfl) (send_members hs)
        (send_heard_nil hs rfl (listed_of_update hp (send_setPhase hs p h _) (by rw [hph]; rfl)) rfl)
  | take p h r m rest hp hph hq =>
      have hheard := heard_congr (take_placed hq) (rfl : _ = s.listed)
      refine ⟨hR.nodup, hR.others, hR.joinInfo, hR.updateInfo, ?_, ?_, ?_, ?_⟩
      · rw [hheard]
        exact hR.about
      · rw [hheard]
        exact hR.untold
      · rw [hheard]
        exact hR.settled
      · rw [hheard]
        exact hR.tokens
  | disconnect p h r hp hph =>
      have hb : h.phase.broadcast = [] := by
        have hno := hg h hp
        rw [hph] at hno ⊢
        cases r <;> first | rfl | cases hno
      exact rooms_plain hR hp rfl rfl hb (fun h => by cases h) rfl
        (heard_congr rfl (listed_of_update hp rfl (by rw [hph]; rfl)))
  | removeLast p h hp hph hm =>
      refine rooms_removed hT hR hp hph rfl rfl rfl (by rw [hm]; rfl) ?_
      exact (members_update rfl).trans (by rw [hm]; rfl)
  | remove p h hp hph hm =>
      exact rooms_removed hT hR hp hph rfl rfl rfl rfl (members_update (v := some _) rfl)
  | sendLeft p h remainingTx c s1 hp hph hc hs =>
      have hnone : s.current h.group p = none := current_eq_none hT fun k hk _ => by
        rw [hp] at hk
        cases hk
        rw [hph]
        rfl
      refine rooms_tell hT hR hp (send_setPhase hs p h _) (send_members hs) hs rfl
        (by rw [hph]; exact hc) (by rw [afterLeft_broadcast, hph]; rfl)
        (by rw [afterLeft_listed, hph]; rfl) (fun ho => ?_) (fun a b hab => ?_) (fun a b hab => ?_)
        (w := none) rfl hnone.symm (fun _ => words_eq_nil hg)
      all_goals
        unfold Phase.afterLeft at *
        split at * <;> first | cases ho | cases hab

/-- **The invariant on every orderly run.** -/
theorem rooms_run {es : List Event} (h : (server l).Run orderly State.empty es s) :
    Tables s ∧ Rooms s := by
  have hinv : Tables s ∧ SdpOrigin s ∧ Rooms s := by
    refine h.invariant (I := fun s => Tables s ∧ SdpOrigin s ∧ Rooms s)
      ⟨tables_empty, sdpOrigin_empty, rooms_empty⟩ ?_
    rintro t e u ⟨hT, hO, hR⟩ hg hs
    have hs' := step_inv hs
    exact ⟨tables_step hT hs', sdpOrigin_step hT hO hs', rooms_step hT hO hR hg hs'⟩
  exact ⟨hinv.1, hinv.2.2⟩

/-! ## 6. Convergence -/

/-- The task stands before a send. -/
def Phase.pendingSend : Phase → Bool
  | .joining _ _ | .running (.updating _ _) | .running (.forwarding _ _) | .running .erring
  | .leaving _ => true
  | _ => false

/-- No handler has a pending send. -/
def State.quiet (s : State) : Prop := ∀ p h, s.handler p = some h → h.phase.pendingSend = false

theorem quiet_broadcast {ph : Phase} (h : ph.pendingSend = false) : ph.broadcast = [] := by
  cases ph with
  | running r => cases r <;> first | rfl | cases h
  | _ => first | rfl | cases h

/-- A client knows a device: it stands in the set of some fingerprint. -/
def SignalingDevices.knows (v : SignalingDevices) (d : Device) : Prop := ∃ fp, d ∈ v fp

/-- Only connections of the run have a handler. -/
theorem handler_connected {G : State → Event → Prop} {es : List Event}
    (h : (server l).Run G State.empty es s) :
    ∀ p, s.handler p ≠ none → ∃ g info, .task g p (.connect info) ∈ es := by
  refine h.traceInvariant
    (I := fun es s => ∀ p, s.handler p ≠ none → ∃ g info, .task g p (.connect info) ∈ es)
    (fun p hp => absurd rfl hp) ?_
  intro es s e t ih _ hs p hp
  have hold : s.handler p ≠ none → ∃ g info, .task g p (.connect info) ∈ es ++ [e] := by
    intro hp
    obtain ⟨g, info, hmem⟩ := ih p hp
    exact ⟨g, info, List.mem_append_left _ hmem⟩
  rcases step_handler (step_inv hs) with heq | ⟨q, h, ph, hq, ht, _⟩ | ⟨q, h, hq, ht, info, he⟩
  · exact hold (heq ▸ hp)
  · by_cases hpq : p = q
    · subst hpq
      exact hold (by rw [hq]; nofun)
    · rw [ht, Function.update_of_ne hpq] at hp
      exact hold hp
  · by_cases hpq : p = q
    · subst hpq
      exact ⟨h.group, info, by rw [he]; simp⟩
    · rw [ht, Function.update_of_ne hpq] at hp
      exact hold hp

/-- The connections that events are about. -/
def connections (es : List Event) : List Uuid :=
  es.filterMap fun
    | .task _ p (.connect _) => some p
    | _ => none

/-- Quietness is decided by the connections of the run. -/
theorem quiet_of_connections {G : State → Event → Prop} {es : List Event}
    (h : (server l).Run G State.empty es s)
    (hq : (connections es).all (fun p => (s.handler p).all fun h => !h.phase.pendingSend) = true) :
    s.quiet := by
  intro p k hp
  obtain ⟨g, info, hmem⟩ := handler_connected h p (by rw [hp]; nofun)
  have hin : p ∈ connections es := List.mem_filterMap.mpr ⟨_, hmem, rfl⟩
  simpa [hp] using List.all_eq_true.mp hq p hin

def demoInfo : ClientInfoWithoutId := ⟨"a", "2.3", none, none, "t"⟩

/-- Peer 1 joins 0 in good order, 0 changes its alias, and both take everything. -/
def orderlyRun : List Event :=
  [.task "g" 0 (.connect demoInfo), .task "g" 0 .sendHello, .task "g" 1 (.connect demoInfo),
    .task "g" 1 (.sendJoin 0), .task "g" 1 .sendHello,
    .task "g" 0 (.receive (.update { demoInfo with aliasName := "b" })),
    .task "g" 0 .handleMessage, .task "g" 0 (.sendUpdate 1), .task "g" 1 .take,
    .task "g" 1 .take]

/-- Peer 1 is admitted while 0 is there; 0 leaves, and its `Left` reaches 1 before the `Hello`
    that lists 0. -/
def overtakenRun : List Event :=
  [.task "g" 0 (.connect demoInfo), .task "g" 0 .sendHello, .task "g" 1 (.connect demoInfo),
    .task "g" 0 .disconnect, .task "g" 0 .remove, .task "g" 0 (.sendLeft 1),
    .task "g" 1 (.sendJoin 0), .task "g" 1 .sendHello, .task "g" 1 .take, .task "g" 1 .take]

end LocalSend.Signaling
