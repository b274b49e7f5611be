/-
  File:      LocalSend/Signaling/OneEntry.lean
  Subject:   ONE ENTRY FOR EACH PEER. A device is filed under the token of its peer and looked for
             there only, so a peer that changes its token keeps the old entry beside the new one.

  * `registered` -- the app's state after some of the dispatched actions;
  * `OneEntry` -- in all the sets together a signaling id has one device, with the last info;
  * `KeepsTokens` -- every info of a peer has the token of the info before, unless the peer left;
  * **`one_entry_iff`** -- the states a run of messages reaches have one entry for each peer,
    exactly if the peers keep their tokens; `one_entry_twice`: a peer in two sets.
-/
import LocalSend.Signaling.NearbyDevices

namespace LocalSend.Signaling

/-! ## 1. The states of a run -/

/-- The state after these actions, one for each registration or removal. -/
def registered (signalingServer : String) (xs : List (Uuid × Option ClientInfoWithoutId)) :
    SignalingDevices :=
  xs.foldl (applyChange signalingServer) fun _ => []

/-- The last info about `p`. -/
def lastInfo (p : Uuid) (xs : List (Uuid × Option ClientInfoWithoutId)) :
    Option ClientInfoWithoutId :=
  ((words p xs).filterMap id).getLast?

/-- **One entry for each signaling id**, with the last info received for it. -/
structure OneEntry (signalingServer : String) (v : SignalingDevices)
    (xs : List (Uuid × Option ClientInfoWithoutId)) : Prop where
  once : ∀ fingerprint, ((v fingerprint).map Device.signalingId).Nodup
  one : ∀ fingerprint fingerprint' d d', d ∈ v fingerprint → d' ∈ v fingerprint' →
    d.signalingId = d'.signalingId → fingerprint = fingerprint'
  last : ∀ fingerprint d, d ∈ v fingerprint → ∃ p info, lastInfo p xs = some info ∧
    d = (ClientInfo.from info p).toDevice signalingServer

/-- **The peers keep their tokens**, each until it leaves. -/
def KeepsTokens (xs : List (Uuid × Option ClientInfoWithoutId)) : Prop :=
  ∀ ys p info, ys ++ [(p, some info)] <+: xs → ∀ old, known p ys = some old →
    old.token = info.token

section Entries

variable {signalingServer : String} {v : SignalingDevices} {p : Uuid}
  {xs : List (Uuid × Option ClientInfoWithoutId)} {info : ClientInfoWithoutId}

theorem registered_snoc (x : Uuid × Option ClientInfoWithoutId) :
    registered signalingServer (xs ++ [x]) =
      applyChange signalingServer (registered signalingServer xs) x := by
  simp [registered]

/-- The last word of a peer that is there is its last info. -/
theorem lastInfo_of_known (h : known p xs = some info) : lastInfo p xs = some info := by
  unfold known at h
  cases hl : (words p xs).getLast? with
  | none => simp [hl] at h
  | some w =>
      rw [hl] at h
      obtain rfl : w = some info := h
      obtain ⟨front, hfront⟩ := List.getLast?_eq_some_iff.mp hl
      simp [lastInfo, hfront]

/-- **A state that shows the last words has one entry for each peer.** -/
theorem Shows.oneEntry (h : Shows signalingServer v xs) : OneEntry signalingServer v xs where
  once := h.once
  one fingerprint fingerprint' d d' hd hd' hid := by
    obtain ⟨p, info, hk, ht, rfl⟩ := (h.mem fingerprint d).mp hd
    obtain ⟨q, info', hk', ht', rfl⟩ := (h.mem fingerprint' d').mp hd'
    obtain rfl : p = q := Option.some.inj hid
    rw [hk] at hk'
    obtain rfl := Option.some.inj hk'
    exact ht.symm.trans ht'
  last fingerprint d hd := by
    obtain ⟨p, info, hk, _, rfl⟩ := (h.mem fingerprint d).mp hd
    exact ⟨p, info, lastInfo_of_known hk, rfl⟩

theorem Shows.nil : Shows signalingServer (registered signalingServer []) [] where
  once _ := List.nodup_nil
  mem fingerprint d := by
    constructor
    · exact fun h => absurd h List.not_mem_nil
    · intro h
      obtain ⟨p, info, hk, _⟩ := h
      cases hk

theorem KeepsTokens.of_prefix {ys : List (Uuid × Option ClientInfoWithoutId)}
    (h : KeepsTokens xs) (hys : ys <+: xs) : KeepsTokens ys :=
  fun zs p info hzs => h zs p info (hzs.trans hys)

/-- **Peers that keep their tokens are shown.** -/
theorem shows_registered (h : KeepsTokens xs) :
    Shows signalingServer (registered signalingServer xs) xs := by
  induction xs using List.reverseRecOn with
  | nil => exact .nil
  | append_singleton xs x ih =>
      obtain ⟨p, w⟩ := x
      rw [registered_snoc]
      refine shows_change (ih (h.of_prefix (List.prefix_append xs _))) p w fun info old hw hold => ?_
      subst hw
      exact h xs p info List.prefix_rfl old hold

/-! ## 2. A token that changes -/

/-- An info with another token leaves the old device where it is. -/
theorem token_of_oneEntry (hshows : Shows signalingServer (registered signalingServer xs) xs)
    (hentry : OneEntry signalingServer (registered signalingServer (xs ++ [(p, some info)]))
      (xs ++ [(p, some info)])) {old : ClientInfoWithoutId} (hold : known p xs = some old) :
    old.token = info.token := by
  by_contra hne
  let before := (ClientInfo.from old p).toDevice signalingServer
  let device := (ClientInfo.from info p).toDevice signalingServer
  have hmem : ∀ fingerprint d,
      d ∈ registered signalingServer (xs ++ [(p, some info)]) fingerprint ↔
        (fingerprint = info.token ∧ d = device) ∨ (d ∈ registered signalingServer xs fingerprint ∧
          (fingerprint = info.token → d.signalingId ≠ device.signalingId)) := by
    intro fingerprint d
    rw [registered_snoc]
    exact mem_registerSignalingDevice (hshows.once info.token)
  have hbefore : before ∈ registered signalingServer (xs ++ [(p, some info)]) old.token := by
    refine (hmem _ _).mpr (Or.inr ⟨?_, fun h => absurd h hne⟩)
    exact (hshows.mem old.token before).mpr ⟨p, old, hold, rfl, rfl⟩
  have hdevice : device ∈ registered signalingServer (xs ++ [(p, some info)]) info.token :=
    (hmem _ _).mpr (Or.inl ⟨rfl, rfl⟩)
  exact hne (hentry.one _ _ before device hbefore hdevice rfl)

/-- **One entry for each signaling peer**, in every state that a run of messages reaches, exactly
    if the peers keep their tokens. -/
theorem one_entry_iff (signalingServer : String) (ms : List WsServerMessage) :
    (∀ xs, xs <+: ms.flatMap changes →
      OneEntry signalingServer (registered signalingServer xs) xs) ↔
    KeepsTokens (ms.flatMap changes) := by
  constructor
  · generalize ms.flatMap changes = all
    intro hall
    induction all using List.reverseRecOn with
    | nil =>
        intro ys p info hys
        exact absurd (List.prefix_nil.mp hys) (List.append_ne_nil_of_right_ne_nil _ (by simp))
    | append_singleton all x ih =>
        have hkeeps := ih fun xs hxs => hall xs (hxs.trans (List.prefix_append all [x]))
        intro ys p info hys old hold
        rcases List.prefix_concat_iff.mp hys with heq | hys
        · obtain ⟨rfl, hx⟩ := List.append_inj' heq rfl
          obtain rfl := List.singleton_inj.mp hx
          exact token_of_oneEntry (shows_registered hkeeps) (hall _ List.prefix_rfl) hold
        · exact hkeeps ys p info hys old hold
  · intro hkeeps xs hxs
    exact (shows_registered (hkeeps.of_prefix hxs)).oneEntry

end Entries

/-- A peer that joins with one token and takes another. -/
def retoken : List WsServerMessage :=
  [.join (ClientInfo.from ⟨"peer", "2.3", none, none, "first"⟩ 7),
    .update (ClientInfo.from ⟨"peer", "2.3", none, none, "second"⟩ 7)]

/-- **A peer in two sets**, the older device with the alias and token of before. -/
theorem one_entry_twice :
    ¬ OneEntry "server" (signalingDevices "server" retoken) (retoken.flatMap changes) := by
  intro h
  have heq := h.one "first" "second" _ _ (List.mem_singleton_self _) (List.mem_singleton_self _) rfl
  exact absurd heq (by decide)

end LocalSend.Signaling
