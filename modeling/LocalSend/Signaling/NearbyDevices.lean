/-
  File:      LocalSend/Signaling/NearbyDevices.lean
  Subject:   WHAT A CLIENT KNOWS: the app's fold over the server's messages.

  * `ClientInfo.toDevice` -- `signaling_provider.dart`;
  * `registerSignalingDevice`, `unregisterSignalingDevice` -- the two actions of
    `nearby_devices_provider.dart`: devices sit in one set per fingerprint, and a device replaces
    the one with its signaling id in the set of its own fingerprint only;
  * `signalingDevices` -- the state after a list of messages;
  * `known` -- the abstract view: the last word about every peer;
  * `signalingDevices_known` -- while every peer keeps one token, the app's state is exactly the
    abstract view.
-/
import LocalSend.Signaling.Server
import Mathlib.Data.List.Induction
import Mathlib.Data.List.Nodup

namespace LocalSend.Signaling

/-! ## 1. Devices -/

/-- `ClientInfoExt.toDevice`. -/
def ClientInfo.toDevice (signalingServer : String) (info : ClientInfo) : Device where
  signalingId := some info.id
  ip := none
  version := info.version
  port := -1
  https := false
  fingerprint := info.token
  aliasName := info.aliasName
  deviceModel := info.deviceModel
  deviceType := info.deviceType.getD .desktop
  download := false
  discoveryMethods := [.signaling signalingServer]

/-- `signalingDevices`: the set of devices of every fingerprint. -/
abbrev SignalingDevices := String → List Device

/-- The set with the device in the place of the one with its signaling id. -/
def replaceDevice (existingDevices : List Device) (device : Device) : List Device :=
  let rest := match existingDevices.find? fun e => e.signalingId = device.signalingId with
    | some existingDevice => existingDevices.erase existingDevice
    | none => existingDevices
  if device ∈ rest then rest else rest ++ [device]

/-- `RegisterSignalingDeviceAction.reduce`. -/
def registerSignalingDevice (v : SignalingDevices) (device : Device) : SignalingDevices :=
  Function.update v device.fingerprint (replaceDevice (v device.fingerprint) device)

/-- `UnregisterSignalingDeviceAction.reduce`. -/
def unregisterSignalingDevice (v : SignalingDevices) (signalingId : Uuid) : SignalingDevices :=
  fun fingerprint => (v fingerprint).filter fun e => e.signalingId ≠ some signalingId

/-- The loop of `_SetupSignalingConnection.reduce` for one message, as far as it changes the
    nearby devices. -/
def reduceMessage (signalingServer : String) (v : SignalingDevices) :
    WsServerMessage → SignalingDevices
  | .hello _ peers =>
    peers.foldl (fun v d => registerSignalingDevice v (d.toDevice signalingServer)) v
  | .join peer | .update peer => registerSignalingDevice v (peer.toDevice signalingServer)
  | .left peerId => unregisterSignalingDevice v peerId
  | .offer _ | .answer _ | .error _ => v

/-- **The app's state after the messages of one connection.** -/
def signalingDevices (signalingServer : String) (ms : List WsServerMessage) : SignalingDevices :=
  ms.foldl (reduceMessage signalingServer) fun _ => []

/-! ## 2. The last word -/

/-- What one message says, peer by peer: its info, or that it left. -/
def changes : WsServerMessage → List (Uuid × Option ClientInfoWithoutId)
  | .hello _ peers => peers.map fun d => (d.id, some d.toClientInfoWithoutId)
  | .join peer | .update peer => [(peer.id, some peer.toClientInfoWithoutId)]
  | .left peerId => [(peerId, none)]
  | .offer _ | .answer _ | .error _ => []

/-- Everything the messages say about `p`, oldest first. -/
def words (p : Uuid) (xs : List (Uuid × Option ClientInfoWithoutId)) :
    List (Option ClientInfoWithoutId) :=
  (xs.filter fun x => x.1 = p).map Prod.snd

/-- **The last word about `p`.** -/
def known (p : Uuid) (xs : List (Uuid × Option ClientInfoWithoutId)) :
    Option ClientInfoWithoutId :=
  ((words p xs).getLast?).getD none

section Words

variable {p : Uuid} {xs ys : List (Uuid × Option ClientInfoWithoutId)}

theorem words_append : words p (xs ++ ys) = words p xs ++ words p ys := by
  simp [words]

theorem words_eq_nil (h : ∀ x ∈ xs, x.1 ≠ p) : words p xs = [] := by
  unfold words
  rw [List.map_eq_nil_iff, List.filter_eq_nil_iff]
  intro x hx
  simpa using h x hx

theorem known_append_nil (h : words p ys = []) : known p (xs ++ ys) = known p xs := by
  simp [known, words_append, h]

theorem known_append_of (h : words p ys ≠ []) : known p (xs ++ ys) = known p ys := by
  unfold known
  rw [words_append, List.getLast?_append_of_ne_nil _ h]

theorem known_of_words_nil (h : words p xs = []) : known p xs = none := by
  simp [known, h]

/-- Words about others change nothing, wherever they stand. -/
theorem known_insert_nil (xs : List (Uuid × Option ClientInfoWithoutId))
    {zs : List (Uuid × Option ClientInfoWithoutId)} (h : words p ys = []) :
    known p (xs ++ ys ++ zs) = known p (xs ++ zs) := by
  simp [known, words_append, h]

/-- A single word. -/
theorem known_singleton (w : Option ClientInfoWithoutId) : known p [(p, w)] = w := by
  simp [known, words]

end Words

/-! ## 3. The app's state and the last word -/

/-- One registration or removal, as the app does it. -/
def applyChange (signalingServer : String) (v : SignalingDevices)
    (x : Uuid × Option ClientInfoWithoutId) : SignalingDevices :=
  match x.2 with
  | some info => registerSignalingDevice v ((ClientInfo.from info x.1).toDevice signalingServer)
  | none => unregisterSignalingDevice v x.1

theorem reduceMessage_changes (signalingServer : String) (v : SignalingDevices)
    (m : WsServerMessage) :
    reduceMessage signalingServer v m = (changes m).foldl (applyChange signalingServer) v := by
  cases m with
  | hello client peers =>
      simp only [reduceMessage, changes, List.foldl_map]
      rfl
  | _ => rfl

theorem signalingDevices_changes (signalingServer : String) (ms : List WsServerMessage) :
    signalingDevices signalingServer ms =
      (ms.flatMap changes).foldl (applyChange signalingServer) fun _ => [] := by
  unfold signalingDevices
  rw [List.foldl_flatMap]
  congr 1
  funext v m
  exact reduceMessage_changes signalingServer v m

/-- Replacing keeps one device per signaling id, and the rest of the set. -/
theorem mem_replaceDevice {ds : List Device} (device : Device)
    (hnd : (ds.map Device.signalingId).Nodup) :
    ((replaceDevice ds device).map Device.signalingId).Nodup ∧
    ∀ d, d ∈ replaceDevice ds device ↔
      d = device ∨ (d ∈ ds ∧ d.signalingId ≠ device.signalingId) := by
  -- the set without the old device
  obtain ⟨rest, hrest, hsub, hmem⟩ : ∃ rest : List Device,
      replaceDevice ds device = (if device ∈ rest then rest else rest ++ [device]) ∧
      rest.Sublist ds ∧ ∀ d, d ∈ rest ↔ d ∈ ds ∧ d.signalingId ≠ device.signalingId := by
    unfold replaceDevice
    cases hf : ds.find? fun e => e.signalingId = device.signalingId with
    | none =>
        refine ⟨ds, rfl, List.Sublist.refl _, fun d => ⟨fun hd => ⟨hd, ?_⟩, fun hd => hd.1⟩⟩
        simpa using List.find?_eq_none.mp hf d hd
    | some old =>
        have hold : old.signalingId = device.signalingId := by simpa using List.find?_some hf
        have hin : old ∈ ds := List.mem_of_find?_eq_some hf
        refine ⟨ds.erase old, rfl, List.erase_sublist, fun d => ?_⟩
        rw [(List.Nodup.of_map _ hnd).mem_erase_iff]
        refine ⟨fun ⟨hne, hd⟩ => ⟨hd, fun hid => hne ?_⟩, fun ⟨hd, hid⟩ => ⟨?_, hd⟩⟩
        · exact List.inj_on_of_nodup_map hnd hd hin (hid.trans hold.symm)
        · rintro rfl
          exact hid hold
  have hout : device ∉ rest := fun h => ((hmem device).mp h).2 rfl
  rw [hrest, if_neg hout]
  constructor
  · rw [List.map_append, List.nodup_append]
    refine ⟨hnd.sublist (hsub.map _), by simp, ?_⟩
    intro a ha b hb
    obtain ⟨d, hd, rfl⟩ := List.mem_map.mp ha
    obtain rfl : b = device.signalingId := by simpa using hb
    exact ((hmem d).mp hd).2
  · intro d
    rw [List.mem_append, hmem, List.mem_singleton]
    exact or_comm

section Registered

variable {v : SignalingDevices} {device d : Device} {fingerprint : String}

/-- What is filed after a registration: the device, and what has another signaling id or another
    fingerprint. -/
theorem mem_registerSignalingDevice
    (hnd : ((v device.fingerprint).map Device.signalingId).Nodup) :
    d ∈ registerSignalingDevice v device fingerprint ↔
      (fingerprint = device.fingerprint ∧ d = device) ∨
        (d ∈ v fingerprint ∧
          (fingerprint = device.fingerprint → d.signalingId ≠ device.signalingId)) := by
  rw [registerSignalingDevice]
  by_cases h : fingerprint = device.fingerprint
  · subst h
    rw [Function.update_self, (mem_replaceDevice device hnd).2]
    simp
  · rw [Function.update_of_ne h]
    simp [h]

theorem once_registerSignalingDevice
    (hnd : ∀ fingerprint, ((v fingerprint).map Device.signalingId).Nodup) (fingerprint : String) :
    ((registerSignalingDevice v device fingerprint).map Device.signalingId).Nodup := by
  rw [registerSignalingDevice]
  by_cases h : fingerprint = device.fingerprint
  · subst h
    rw [Function.update_self]
    exact (mem_replaceDevice device (hnd _)).1
  · rw [Function.update_of_ne h]
    exact hnd fingerprint

theorem mem_unregisterSignalingDevice {signalingId : Uuid} :
    d ∈ unregisterSignalingDevice v signalingId fingerprint ↔
      d ∈ v fingerprint ∧ d.signalingId ≠ some signalingId := by
  simp [unregisterSignalingDevice]

theorem once_unregisterSignalingDevice
    (hnd : ∀ fingerprint, ((v fingerprint).map Device.signalingId).Nodup) (signalingId : Uuid)
    (fingerprint : String) :
    ((unregisterSignalingDevice v signalingId fingerprint).map Device.signalingId).Nodup :=
  (hnd fingerprint).sublist (List.filter_sublist.map _)

end Registered

/-- **The app's state shows the view `known`**: in the set of a fingerprint stand the devices of
    the known peers with this token, once each. -/
structure Shows (signalingServer : String) (v : SignalingDevices)
    (xs : List (Uuid × Option ClientInfoWithoutId)) : Prop where
  once : ∀ fingerprint, ((v fingerprint).map Device.signalingId).Nodup
  mem : ∀ fingerprint d, d ∈ v fingerprint ↔ ∃ p info, known p xs = some info ∧
    info.token = fingerprint ∧ d = (ClientInfo.from info p).toDevice signalingServer

/-- One change, by a peer that keeps its token. -/
theorem shows_change {signalingServer : String} {v : SignalingDevices}
    {xs : List (Uuid × Option ClientInfoWithoutId)} (hv : Shows signalingServer v xs) (p : Uuid)
    (w : Option ClientInfoWithoutId)
    (htok : ∀ info old, w = some info → known p xs = some old → old.token = info.token) :
    Shows signalingServer (applyChange signalingServer v (p, w)) (xs ++ [(p, w)]) := by
  have hself : known p (xs ++ [(p, w)]) = w := by
    rw [known_append_of (by simp [words]), known_singleton]
  have hother : ∀ q, q ≠ p → known q (xs ++ [(p, w)]) = known q xs := fun q hq =>
    known_append_nil (words_eq_nil fun x hx => by
      rw [List.mem_singleton.mp hx]
      exact Ne.symm hq)
  cases w with
  | none =>
      refine ⟨once_unregisterSignalingDevice hv.once p, fun fp d => ?_⟩
      simp only [applyChange, mem_unregisterSignalingDevice, hv.mem]
      constructor
      · intro h
        obtain ⟨⟨q, info, hk, ht, rfl⟩, hne⟩ := h
        have hq : q ≠ p := fun h => hne (by rw [h]; rfl)
        exact ⟨q, info, by rw [hother q hq, hk], ht, rfl⟩
      · intro h
        obtain ⟨q, info, hk, ht, rfl⟩ := h
        have hq : q ≠ p := by
          rintro rfl
          rw [hself] at hk
          cases hk
        rw [hother q hq] at hk
        refine ⟨⟨q, info, hk, ht, rfl⟩, fun h => hq ?_⟩
        exact Option.some.inj h
  | some info =>
      refine ⟨once_registerSignalingDevice hv.once, fun fp d => ?_⟩
      simp only [applyChange, mem_registerSignalingDevice (hv.once _), hv.mem]
      constructor
      · rintro (⟨hfp, rfl⟩ | ⟨⟨q, i, hk, ht, rfl⟩, hne⟩)
        · exact ⟨p, info, hself, hfp.symm, rfl⟩
        · -- the peer itself would stand under its token, which it keeps
          have hq : q ≠ p := by
            rintro rfl
            exact hne (ht.symm.trans (htok info i rfl hk)) rfl
          exact ⟨q, i, by rw [hother q hq, hk], ht, rfl⟩
      · intro h
        obtain ⟨q, i, hk, ht, rfl⟩ := h
        by_cases hq : q = p
        · subst hq
          rw [hself] at hk
          cases hk
          exact Or.inl ⟨ht.symm, rfl⟩
        · rw [hother q hq] at hk
          exact Or.inr ⟨⟨q, i, hk, ht, rfl⟩, fun _ h => hq (Option.some.inj h)⟩

/-- Every info the messages give for a peer has the token `τ` of that peer. -/
def TokensAre (τ : Uuid → String) (xs : List (Uuid × Option ClientInfoWithoutId)) : Prop :=
  ∀ x ∈ xs, ∀ info, x.2 = some info → info.token = τ x.1

theorem known_mem {p : Uuid} {xs : List (Uuid × Option ClientInfoWithoutId)}
    {info : ClientInfoWithoutId} (h : known p xs = some info) : (p, some info) ∈ xs := by
  unfold known at h
  cases hl : (words p xs).getLast? with
  | none => simp [hl] at h
  | some w =>
      rw [hl] at h
      obtain rfl : w = some info := h
      obtain ⟨x, hx, hw⟩ := List.mem_map.mp (List.mem_of_getLast? hl)
      have hin : x ∈ xs := (List.mem_filter.mp hx).1
      have hp : x.1 = p := by simpa using (List.mem_filter.mp hx).2
      rw [← hp, ← hw]
      exact hin

/-- **The app's state is the last word about every peer**, while every peer keeps its token. -/
theorem signalingDevices_known (signalingServer : String) {τ : Uuid → String}
    {ms : List WsServerMessage} (hτ : TokensAre τ (ms.flatMap changes)) :
    Shows signalingServer (signalingDevices signalingServer ms) (ms.flatMap changes) := by
  rw [signalingDevices_changes]
  generalize ms.flatMap changes = xs at hτ
  induction xs using List.reverseRecOn with
  | nil =>
      refine ⟨fun _ => List.nodup_nil, fun _ d => ⟨fun h => absurd h List.not_mem_nil, ?_⟩⟩
      intro h
      obtain ⟨p, info, hk, _⟩ := h
      cases hk
  | append_singleton xs x ih =>
      have hxs : TokensAre τ xs := fun y hy => hτ y (List.mem_append_left _ hy)
      rw [List.foldl_append]
      refine shows_change (ih hxs) x.1 x.2 fun info old hinfo hold => ?_
      rw [hxs _ (known_mem hold) old rfl, hτ x (by simp) info hinfo]

end LocalSend.Signaling
