/-
  File:      LocalSend/Discovery/Acquaintance.lean
  Subject:   WHAT HOSTS KNOW OF EACH OTHER after announcements and answers, in any order.

  * `deviceOf` -- a host as others see it, from what its child isolate knew at some time (`Had`);
  * `Truthful`, `truthful_step` -- everything that is under way or registered is such a view;
    **`entries_truthful`** -- so is every found device;
  * `Acquainted`, `acquainted_step` -- who answers has heard the other one, and who has accepted an
    answer knows its sender; **`answered_mutual`** -- after the response both know each other.
-/
import LocalSend.Discovery.Multicast

namespace LocalSend.Multicast

open Lib
open Isolates (SyncState ProtocolType)
open Signaling (LanDevice NearbyDevicesState)

/-! ## 1. True entries -/

/-- A host, as it says it is. -/
def deviceOf (ip : String) (syncState : SyncState) (method : DiscoveryMethod) : LanDevice where
  device := {
    signalingId := none
    ip := some ip
    version := protocolVersion
    port := syncState.port
    https := decide (syncState.protocol = .https)
    fingerprint := syncState.securityContext.certificateHash
    aliasName := syncState.aliasName
    deviceModel := syncState.deviceInfo.deviceModel
    deviceType := syncState.deviceInfo.deviceType
    download := syncState.download
    discoveryMethods := [method] }
  ip := ip
  ip_eq := rfl
  signalingId_eq := rfl

theorem toDevice_getMulticastDto (syncState : SyncState) (announcement : Bool) (ip : String)
    (ownPort : Int) (ownHttps : Bool) :
    (getMulticastDto syncState announcement).toDevice ip ownPort ownHttps =
      deviceOf ip syncState .multicast := rfl

theorem toDevice_getRegisterDto (syncState : SyncState) (ip : String) (ownPort : Int)
    (ownHttps : Bool) (method : DiscoveryMethod) :
    (getRegisterDto syncState).toDevice ip ownPort ownHttps method =
      deviceOf ip syncState method := rfl

/-- **The host was in that state** at the start or after an update. -/
def Had (syncStates : String → SyncState) (es : List Event) (ip : String) (syncState : SyncState) :
    Prop :=
  syncState = syncStates ip ∨ .sync ip syncState ∈ es

/-- **Everything is as its host said**, if `H` are the states the hosts had. -/
structure Truthful (H : String → SyncState → Prop) (s : State) : Prop where
  current : ∀ ip, H ip (s.peers ip).syncState
  sendings : ∀ x ∈ s.sendings, ∀ said, x.said = some said → H x.ip said
  datagrams : ∀ d ∈ s.datagrams, ∃ said announcement, H d.source said ∧
    d.dto = getMulticastDto said announcement
  found : ∀ x ∈ s.found, ∃ said, H x.2.ip said ∧ x.2 = deviceOf x.2.ip said .multicast
  answers : ∀ a ∈ s.answers, ∀ dto, a.stage = .posting dto →
    ∃ said, H a.ip said ∧ dto = getRegisterDto said
  devices : ∀ ip other d, (s.peers ip).nearby.devices.get? other = some d →
    ∃ said method, H other said ∧ (method = .multicast ∨ method = .http other) ∧
      d = (deviceOf other said method).device

section Truth

variable {H H' : String → SyncState → Prop} {fanout : Nat} {s t : State} {e : Event}

theorem Truthful.mono (h : Truthful H s) (hH : ∀ ip said, H ip said → H' ip said) :
    Truthful H' s where
  current ip := hH ip _ (h.current ip)
  sendings x hx said hsaid := hH x.ip said (h.sendings x hx said hsaid)
  datagrams d hd := by
    obtain ⟨said, announcement, hhad, hdto⟩ := h.datagrams d hd
    exact ⟨said, announcement, hH _ _ hhad, hdto⟩
  found x hx := by
    obtain ⟨said, hhad, hdevice⟩ := h.found x hx
    exact ⟨said, hH _ _ hhad, hdevice⟩
  answers a ha dto hstage := by
    obtain ⟨said, hhad, hdto⟩ := h.answers a ha dto hstage
    exact ⟨said, hH _ _ hhad, hdto⟩
  devices ip other d hd := by
    obtain ⟨said, method, hhad, hrest⟩ := h.devices ip other d hd
    exact ⟨said, method, hH _ _ hhad, hrest⟩

/-- Another state of one host: its child knew it, its devices are true. -/
theorem Truthful.setPeer (h : Truthful H s) {ip : String} {peer : Peer}
    (hstate : H ip peer.syncState)
    (hdevices : ∀ other d, peer.nearby.devices.get? other = some d →
      ∃ said method, H other said ∧ (method = .multicast ∨ method = .http other) ∧
        d = (deviceOf other said method).device) : Truthful H (s.setPeer ip peer) where
  current ip' := by
    simp only [State.setPeer, Function.update_apply]
    split
    · rename_i hip
      exact hip ▸ hstate
    · exact h.current ip'
  sendings := h.sendings
  datagrams := h.datagrams
  found := h.found
  answers := h.answers
  devices ip' other d hd := by
    simp only [State.setPeer, Function.update_apply] at hd
    split at hd
    · exact hdevices other d hd
    · exact h.devices ip' other d hd

/-- A true device is registered. -/
theorem Truthful.register (h : Truthful H s) {ip : String} {device : LanDevice} {said : SyncState}
    {method : DiscoveryMethod} (hhad : H device.ip said)
    (hmethod : method = .multicast ∨ method = .http device.ip)
    (hdevice : device = deviceOf device.ip said method) : Truthful H (s.register ip device) := by
  refine h.setPeer (h.current ip) fun other d hd => ?_
  rw [NearbyDevicesState.registerDevice, LinkedMap.get?_insert] at hd
  split at hd
  · rename_i hother
    obtain rfl := Option.some.inj hd
    subst hother
    exact ⟨said, method, hhad, hmethod, congrArg LanDevice.device hdevice⟩
  · exact h.devices ip other d hd

theorem mem_attended {α : Type} {attending : Bool} {found : List α} {entry x : α}
    (h : x ∈ if attending then found ++ [entry] else found) : x ∈ found ∨ x = entry := by
  split at h
  · simpa using h
  · exact .inl h

/-- A true datagram arrives. -/
theorem Truthful.deliver (h : Truthful H s) {d : Datagram} {said : SyncState} {announcement : Bool}
    (hhad : H d.source said) (hdto : d.dto = getMulticastDto said announcement) :
    Truthful H (deliver s d) := by
  unfold Multicast.deliver
  split
  · split
    · unfold hear
      split
      · exact h
      · refine ⟨h.current, h.sendings, h.datagrams, fun x hx => ?_, fun a ha dto hstage => ?_,
          h.devices⟩
        · rcases mem_attended hx with hx | rfl
          · exact h.found x hx
          · refine ⟨said, hhad, ?_⟩
            rw [hdto, toDevice_getMulticastDto]
            rfl
        · dsimp only at ha
          split at ha
          · rcases List.mem_append.mp ha with ha | ha
            · exact h.answers a ha dto hstage
            · obtain rfl := List.mem_singleton.mp ha
              obtain rfl := Stage.posting.inj hstage
              exact ⟨_, h.current d.target, rfl⟩
          · exact h.answers a ha dto hstage
    · exact h
  · exact h

/-- **Every step keeps the truth.** -/
theorem truthful_step (h : Truthful H s) (hsync : ∀ ip said, e = .sync ip said → H ip said)
    (hs : (network fanout).step s e = some t) : Truthful H t := by
  have hsending : ∀ ip announcement rounds, ∀ x ∈ s.sendings ++ [s.sending ip announcement rounds],
      ∀ said, x.said = some said → H x.ip said := by
    intro ip announcement rounds x hx said hsaid
    rcases List.mem_append.mp hx with hx | hx
    · exact h.sendings x hx said hsaid
    · obtain rfl := List.mem_singleton.mp hx
      cases hsaid
  have hhandled : ∀ k (a : Answer) accepted,
      ∀ b ∈ s.answers.set k { a with stage := .handled accepted }, ∀ dto, b.stage = .posting dto →
        ∃ said, H b.ip said ∧ dto = getRegisterDto said := by
    intro k a accepted b hb dto hstage
    rcases List.mem_or_eq_of_mem_set hb with hb | rfl
    · exact h.answers b hb dto hstage
    · cases hstage
  have hrest : ∀ k, ∀ a ∈ s.answers.eraseIdx k, ∀ dto, a.stage = .posting dto →
      ∃ said, H a.ip said ∧ dto = getRegisterDto said :=
    fun k a ha => h.answers a (List.mem_of_mem_eraseIdx ha)
  have herased : ∀ k, Truthful H { s with datagrams := s.datagrams.eraseIdx k } := fun k =>
    ⟨h.current, h.sendings, fun d hd => h.datagrams d (List.mem_of_mem_eraseIdx hd), h.found,
      h.answers, h.devices⟩
  cases step_inv hs with
  | announce ip =>
      exact ⟨h.current, hsending ip true 3, h.datagrams, h.found, h.answers, h.devices⟩
  | prepare k sending hk hsaid =>
      refine ⟨h.current, fun x hx said hsaid => ?_, h.datagrams, h.found, h.answers, h.devices⟩
      rcases List.mem_or_eq_of_mem_set hx with hx | rfl
      · exact h.sendings x hx said hsaid
      · obtain rfl := Option.some.inj hsaid
        exact h.current sending.ip
  | send k targets sending said hk hsaid =>
      have hmem : sending ∈ s.sendings := List.mem_of_getElem? hk
      refine ⟨h.current, fun x hx said' hsaid' => ?_, fun d hd => ?_, h.found, h.answers,
        h.devices⟩
      · rcases List.mem_or_eq_of_mem_set hx with hx | rfl
        · exact h.sendings x hx said' hsaid'
        · exact h.sendings sending hmem said' hsaid'
      · rcases List.mem_append.mp hd with hd | hd
        · exact h.datagrams d hd
        · obtain ⟨target, -, rfl⟩ := List.mem_map.mp hd
          exact ⟨said, sending.announcement, h.sendings sending hmem said hsaid, rfl⟩
  | deliver k d hk =>
      obtain ⟨said, announcement, hhad, hdto⟩ := h.datagrams d (List.mem_of_getElem? hk)
      exact (herased k).deliver hhad hdto
  | lose k => exact herased k
  | handleOwn k a | handleFails k a =>
      exact ⟨h.current, h.sendings, h.datagrams, h.found, hhandled k a false, h.devices⟩
  | handle k a dto server hk hstage =>
      obtain ⟨said, hhad, hdto⟩ := h.answers a (List.mem_of_getElem? hk) dto hstage
      rw [hdto, toDevice_getRegisterDto]
      have hregister : Truthful H (s.register a.peer.ip (deviceOf a.ip said (.http a.ip))) :=
        h.register hhad (.inr rfl) rfl
      exact ⟨hregister.current, h.sendings, h.datagrams, h.found, hhandled k a true,
        hregister.devices⟩
  | respond k => exact ⟨h.current, h.sendings, h.datagrams, h.found, hrest k, h.devices⟩
  | giveUp k a => exact ⟨h.current, hsending a.ip false 1, h.datagrams, h.found, hrest k, h.devices⟩
  | register ip k x _ hk =>
      obtain ⟨said, hhad, hdevice⟩ := h.found x (List.mem_of_getElem? hk)
      have hregister : Truthful H (s.register ip x.2) := h.register hhad (.inl rfl) hdevice
      exact ⟨hregister.current, h.sendings, h.datagrams,
        fun x hx => h.found x (List.mem_of_mem_eraseIdx hx), h.answers, hregister.devices⟩
  | registerFails ip =>
      have hpeer : Truthful H (s.setPeer ip { s.peers ip with attending := false }) :=
        h.setPeer (h.current ip) (h.devices ip)
      exact ⟨hpeer.current, h.sendings, h.datagrams, fun x hx => h.found x (List.mem_filter.mp hx).1,
        h.answers, hpeer.devices⟩
  | sync ip said => exact h.setPeer (hsync ip said rfl) (h.devices ip)
  | listen ip | unlisten ip | serve ip => exact h.setPeer (h.current ip) (h.devices ip)
  | clearFoundDevices ip =>
      exact h.setPeer (h.current ip) fun other d hd => by
        cases hd

theorem truthful_run {syncStates : String → SyncState} {es : List Event}
    (h : (network fanout).Run Machine.anyStep (.initial syncStates) es s) :
    Truthful (Had syncStates es) s := by
  refine h.traceInvariant (I := fun es s => Truthful (Had syncStates es) s) ?_ ?_
  · refine ⟨fun _ => .inl rfl, ?_, ?_, ?_, ?_, fun ip other d hd => ?_⟩
    case refine_5 => cases hd
    all_goals simp [State.initial]
  · intro es t e u ht _ hs
    refine truthful_step (ht.mono fun ip said hhad => ?_) (fun ip said he => ?_) hs
    · exact hhad.imp_right fun hmem => List.mem_append_left _ hmem
    · exact .inr (he ▸ List.mem_append_right _ (List.mem_singleton_self _))

/-- **Whom a host shows, there was**: in every reachable state of the network each found device of
    each host is the view of the host with that address, in a state this host really was in, heard
    by multicast or asked for by `/register`; nothing is mixed from two states or two hosts. -/
theorem entries_truthful (fanout : Nat) (syncStates : String → SyncState) (es : List Event)
    (s : State) (h : (network fanout).Run Machine.anyStep (.initial syncStates) es s)
    (ip other : String) (d : Device)
    (hd : (s.peers ip).nearby.devices.get? other = some d) :
    ∃ said method, Had syncStates es other said ∧
      (method = .multicast ∨ method = .http other) ∧ d = (deviceOf other said method).device :=
  (truthful_run h).devices ip other d hd

theorem entries_truthful_answeredRun :
    ∃ said method, Had twoHosts answeredRun "10.0.0.3" said ∧
      (method = .multicast ∨ method = .http "10.0.0.3") ∧
        (deviceOf "10.0.0.3" (twoHosts "10.0.0.3") (.http "10.0.0.3")).device =
          (deviceOf "10.0.0.3" said method).device := by
  obtain ⟨s, hs, hd⟩ := Machine.run_observe (M := network 1)
    (f := fun s => (s.peers "10.0.0.2").nearby.devices.get? "10.0.0.3")
    (show ((network 1).run (.initial twoHosts) answeredRun).map _ =
      some (some (deviceOf "10.0.0.3" (twoHosts "10.0.0.3") (.http "10.0.0.3")).device) from rfl)
  exact entries_truthful 1 twoHosts answeredRun s hs "10.0.0.2" "10.0.0.3" _ hd

end Truth

/-! ## 2. Both know each other -/

/-- The host has heard or registered that address. -/
def State.KnowsOf (s : State) (ip other : String) : Prop :=
  other ∈ (s.peers ip).nearby.devices.keys ∨ ∃ d : LanDevice, d.ip = other ∧ (ip, d) ∈ s.found

def Cleared (es : List Event) (ip : String) : Prop := .clearFoundDevices ip ∈ es

/-- A registration of what the host has heard has failed. -/
def Failed (es : List Event) (ip : String) : Prop := .registerFails ip ∈ es

/-- **What the answers on their way stand for.** -/
structure Acquainted (es : List Event) (s : State) : Prop where
  attending : ∀ ip, ¬ Failed es ip → (s.peers ip).attending = true
  /-- who answers has heard whom he answers -/
  heard : ∀ a ∈ s.answers, ¬ Cleared es a.ip → ¬ Failed es a.ip → s.KnowsOf a.ip a.peer.ip
  /-- who has accepted an answer knows its sender -/
  accepted : ∀ a ∈ s.answers, a.stage = .handled true → ¬ Cleared es a.peer.ip →
    a.ip ∈ (s.peers a.peer.ip).nearby.devices.keys

section Mutual

variable {fanout : Nat} {s t : State} {e : Event} {es : List Event} {ip other : String}

theorem keys_registerDevice {nearby : NearbyDevicesState} (device : LanDevice) :
    other ∈ (nearby.registerDevice device).devices.keys ↔
      other = device.ip ∨ other ∈ nearby.devices.keys := by
  simp only [LinkedMap.mem_keys, NearbyDevicesState.registerDevice, LinkedMap.get?_insert]
  by_cases hother : other = device.ip
  · simp [hother]
  · simp [hother]

theorem nearby_register (s : State) (ip ip' : String) (device : LanDevice) :
    ((s.register ip' device).peers ip).nearby =
      if ip = ip' then (s.peers ip).nearby.registerDevice device else (s.peers ip).nearby := by
  simp only [State.register, State.setPeer, Function.update_apply]
  split
  · rename_i hip
    rw [hip]
  · rfl

theorem keys_setPeer {ip' : String} {peer : Peer} (hpeer : peer.nearby = (s.peers ip').nearby)
    (h : other ∈ (s.peers ip).nearby.devices.keys) :
    other ∈ ((s.setPeer ip' peer).peers ip).nearby.devices.keys := by
  simp only [State.setPeer, Function.update_apply]
  split
  · rename_i hip
    rw [hpeer, ← hip]
    exact h
  · exact h

theorem keys_register (ip' : String) (device : LanDevice)
    (h : other ∈ (s.peers ip).nearby.devices.keys) :
    other ∈ ((s.register ip' device).peers ip).nearby.devices.keys := by
  rw [nearby_register]
  split
  · exact (keys_registerDevice device).mpr (.inr h)
  · exact h

theorem keys_register_self (ip : String) (device : LanDevice) :
    device.ip ∈ ((s.register ip device).peers ip).nearby.devices.keys := by
  rw [nearby_register, if_pos rfl]
  exact (keys_registerDevice device).mpr (.inl rfl)

theorem peers_deliver (s : State) (d : Datagram) : (deliver s d).peers = s.peers := by
  unfold deliver hear
  repeat' split
  all_goals rfl

theorem found_deliver (s : State) (d : Datagram) {x : String × LanDevice} (hx : x ∈ s.found) :
    x ∈ (deliver s d).found := by
  unfold deliver hear
  repeat' split
  all_goals first | exact hx | exact List.mem_append_left _ hx

theorem attending_setPeer {ip' : String} {peer : Peer}
    (hpeer : ip = ip' → peer.attending = (s.peers ip').attending)
    (h : (s.peers ip).attending = true) : ((s.setPeer ip' peer).peers ip).attending = true := by
  simp only [State.setPeer, Function.update_apply]
  split
  · rename_i hip
    rw [hpeer hip, ← hip]
    exact h
  · exact h

/-- A parent attends to its child until a registration fails. -/
theorem attending_step (hs : (network fanout).step s e = some t) (he : e ≠ .registerFails ip)
    (h : (s.peers ip).attending = true) : (t.peers ip).attending = true := by
  cases step_inv hs with
  | deliver k d =>
      rw [peers_deliver]
      exact h
  | sync | listen | unlisten | serve | clearFoundDevices | handle | register =>
      exact attending_setPeer (fun _ => rfl) h
  | registerFails ip' =>
      have hne : ip ≠ ip' := fun heq => he (heq ▸ rfl)
      exact attending_setPeer (fun heq => absurd heq hne) h
  | announce | prepare | send | lose | handleOwn | handleFails | respond | giveUp => exact h

/-- A host forgets whom it knows only when it clears its devices. -/
theorem keys_step (hs : (network fanout).step s e = some t) (he : e ≠ .clearFoundDevices ip)
    (h : other ∈ (s.peers ip).nearby.devices.keys) :
    other ∈ (t.peers ip).nearby.devices.keys := by
  cases step_inv hs with
  | deliver k d =>
      rw [peers_deliver]
      exact h
  | handle | register => exact keys_register _ _ h
  | sync | listen | unlisten | serve | registerFails => exact keys_setPeer rfl h
  | clearFoundDevices ip' =>
      have hne : ip ≠ ip' := fun heq => he (heq ▸ rfl)
      simp only [State.setPeer, Function.update_of_ne hne]
      exact h
  | announce | prepare | send | lose | handleOwn | handleFails | respond | giveUp => exact h

/-- What a host has heard is registered or still waits, unless the registration fails. -/
theorem found_step (hs : (network fanout).step s e = some t) (hfails : e ≠ .registerFails ip)
    {d : LanDevice} (h : (ip, d) ∈ s.found) :
    (ip, d) ∈ t.found ∨ d.ip ∈ (t.peers ip).nearby.devices.keys := by
  cases step_inv hs with
  | deliver k d' => exact .inl (found_deliver _ d' h)
  | registerFails ip' =>
      have hne : ip ≠ ip' := fun heq => hfails (heq ▸ rfl)
      exact .inl (List.mem_filter.mpr ⟨h, by simpa using hne⟩)
  | register ip' k x hfirst hk =>
      obtain ⟨i, hi⟩ := List.mem_iff_getElem?.mp h
      by_cases hik : i = k
      · -- it is the one that is registered
        obtain rfl := hik
        obtain rfl := Option.some.inj (hk.symm.trans hi)
        obtain ⟨hlt, hown, -⟩ := List.findIdx?_eq_some_iff_getElem.mp hfirst
        obtain ⟨_, hget⟩ := List.getElem?_eq_some_iff.mp hi
        rw [hget] at hown
        obtain rfl : ip = ip' := by simpa using hown
        exact .inr (keys_register_self ip d)
      · exact .inl (List.mem_eraseIdx_iff_getElem?.mpr ⟨i, hik, hi⟩)
  | _ => exact .inl h

theorem knowsOf_step (hs : (network fanout).step s e = some t) (he : e ≠ .clearFoundDevices ip)
    (hfails : e ≠ .registerFails ip) (h : s.KnowsOf ip other) : t.KnowsOf ip other := by
  rcases h with hkey | ⟨d, rfl, hfound⟩
  · exact .inl (keys_step hs he hkey)
  · rcases found_step hs hfails hfound with hfound | hkey
    · exact .inr ⟨d, rfl, hfound⟩
    · exact .inl hkey

/-- Who answers has heard whom he answers, and his parent hears of it if it attends. -/
theorem answers_deliver {d : Datagram} {a : Answer} (ha : a ∈ (deliver s d).answers) :
    a ∈ s.answers ∨ (((s.peers a.ip).attending = true → (a.ip, a.peer) ∈ (deliver s d).found) ∧
      ∃ dto, a.stage = .posting dto) := by
  unfold deliver at ha ⊢
  split at ha
  · split at ha
    · rename_i hreaches
      simp only [hreaches, if_true]
      unfold hear at ha ⊢
      split at ha
      · exact .inl ha
      · rename_i hother
        simp only [hother, if_false]
        dsimp only at ha
        split at ha
        · rcases List.mem_append.mp ha with ha | ha
          · exact .inl ha
          · obtain rfl := List.mem_singleton.mp ha
            refine .inr ⟨fun hattending => ?_, _, rfl⟩
            rw [if_pos hattending]
            exact List.mem_append_right _ (List.mem_singleton_self _)
        · exact .inl ha
    · exact .inl ha
  · exact .inl ha

/-- Where the answers of the next state come from. -/
theorem answers_step (hs : (network fanout).step s e = some t) {a : Answer} (ha : a ∈ t.answers) :
    (∃ b ∈ s.answers, b.ip = a.ip ∧ b.peer = a.peer ∧
      (a.stage = .handled true → b.stage = .handled true ∨
        a.ip ∈ (t.peers a.peer.ip).nearby.devices.keys)) ∨
    (((t.peers a.ip).attending = true → (a.ip, a.peer) ∈ t.found) ∧
      ∃ dto, a.stage = .posting dto) := by
  have hold : a ∈ s.answers → (∃ b ∈ s.answers, b.ip = a.ip ∧ b.peer = a.peer ∧
      (a.stage = .handled true → b.stage = .handled true ∨
        a.ip ∈ (t.peers a.peer.ip).nearby.devices.keys)) ∨
      (((t.peers a.ip).attending = true → (a.ip, a.peer) ∈ t.found) ∧
        ∃ dto, a.stage = .posting dto) :=
    fun ha => .inl ⟨a, ha, rfl, rfl, .inl⟩
  cases step_inv hs with
  | deliver k d =>
      rcases answers_deliver ha with ha | hnew
      · exact hold ha
      · rw [peers_deliver]
        exact .inr hnew
  | handleOwn k b dto hk | handleFails k b dto hk =>
      rcases List.mem_or_eq_of_mem_set ha with ha | rfl
      · exact hold ha
      · exact .inl ⟨b, List.mem_of_getElem? hk, rfl, rfl, fun hstage => by cases hstage⟩
  | handle k b dto server hk =>
      rcases List.mem_or_eq_of_mem_set ha with ha | rfl
      · exact hold ha
      · exact .inl ⟨b, List.mem_of_getElem? hk, rfl, rfl,
          fun _ => .inr (keys_register_self b.peer.ip _)⟩
  | respond | giveUp => exact hold (List.mem_of_mem_eraseIdx ha)
  | _ => exact hold ha

theorem acquainted_step (h : Acquainted es s) (hs : (network fanout).step s e = some t) :
    Acquainted (es ++ [e]) t := by
  have hnew : ∀ {e' : Event}, e' ∉ es ++ [e] → e' ∉ es ∧ e ≠ e' :=
    fun hn => ⟨fun he => hn (List.mem_append_left _ he),
      fun he => hn (he ▸ List.mem_append_right _ (List.mem_singleton_self _))⟩
  have hattending : ∀ ip, ¬ Failed (es ++ [e]) ip → (t.peers ip).attending = true :=
    fun ip hn => attending_step hs (hnew hn).2 (h.attending ip (hnew hn).1)
  refine ⟨hattending, fun a ha hn hfails => ?_, fun a ha hstage hn => ?_⟩
  · rcases answers_step hs ha with ⟨b, hb, hip, hpeer, -⟩ | ⟨hfound, -⟩
    · rw [← hip] at hn hfails
      rw [← hip, ← hpeer]
      exact knowsOf_step hs (hnew hn).2 (hnew hfails).2 (h.heard b hb (hnew hn).1 (hnew hfails).1)
    · exact .inr ⟨a.peer, rfl, hfound (hattending a.ip hfails)⟩
  · rcases answers_step hs ha with ⟨b, hb, hip, hpeer, hhandled⟩ | ⟨-, dto, hposting⟩
    · rcases hhandled hstage with hbefore | hnow
      · rw [← hpeer] at hn
        rw [← hip, ← hpeer]
        exact keys_step hs (hnew hn).2 (h.accepted b hb hbefore (hnew hn).1)
      · exact hnow
    · rw [hposting] at hstage
      cases hstage

theorem acquainted_run {syncStates : String → SyncState}
    (h : (network fanout).Run Machine.anyStep (.initial syncStates) es s) : Acquainted es s := by
  refine h.traceInvariant (I := Acquainted) ?_ fun es t e u ht _ hs => acquainted_step ht hs
  constructor <;> simp [State.initial]

/-- **An answered announcement makes both known to each other.** When the response to an answer
    arrives, the host that was answered shows the answering one, and this one shows the other or
    has still to register it, unless one of them has cleared its devices, or a registration of what
    the answering one has heard has failed. -/
theorem answered_mutual (fanout : Nat) (syncStates : String → SyncState) (es : List Event)
    (s t : State) (k : Nat) (a : Answer)
    (h : (network fanout).Run Machine.anyStep (.initial syncStates) es s)
    (ha : s.answers[k]? = some a) (hrespond : (network fanout).step s (.respond k) = some t)
    (hself : .clearFoundDevices a.ip ∉ es) (hpeer : .clearFoundDevices a.peer.ip ∉ es)
    (hregistered : .registerFails a.ip ∉ es) :
    a.ip ∈ (t.peers a.peer.ip).nearby.devices.keys ∧
      (a.peer.ip ∈ (t.peers a.ip).nearby.devices.keys ∨
        ∃ d : LanDevice, d.ip = a.peer.ip ∧ (a.ip, d) ∈ t.found) := by
  have hacquainted := acquainted_run h
  have hmem := List.mem_of_getElem? ha
  cases step_inv hrespond with
  | respond k b hk hstage =>
      obtain rfl := Option.some.inj (hk.symm.trans ha)
      exact ⟨hacquainted.accepted b hmem hstage hpeer, hacquainted.heard b hmem hself hregistered⟩

theorem answered_mutual_answeredRun :
    ∃ t : State, "10.0.0.3" ∈ (t.peers "10.0.0.2").nearby.devices.keys ∧
      ("10.0.0.2" ∈ (t.peers "10.0.0.3").nearby.devices.keys ∨
        ∃ d : LanDevice, d.ip = "10.0.0.2" ∧ ("10.0.0.3", d) ∈ t.found) := by
  obtain ⟨s, hs, hview⟩ := Machine.run_observe (M := network 1)
    (f := fun s => s.answers.map fun (a : Answer) =>
      (a.ip, a.peer.ip, decide (a.stage = .handled true)))
    (show ((network 1).run (.initial twoHosts) answeredRun).map _ =
      some [("10.0.0.3", "10.0.0.2", true)] from rfl)
  obtain ⟨a, ha, hview⟩ := List.map_eq_singleton_iff.mp hview
  obtain ⟨hip, hrest⟩ := Prod.mk.inj hview
  obtain ⟨hpeer, hstage⟩ := Prod.mk.inj hrest
  have hget : s.answers[0]? = some a := by rw [ha]; rfl
  have hstep : (network 1).step s (.respond 0) =
      some { s with answers := s.answers.eraseIdx 0 } := by
    change step 1 s (.respond 0) = _
    simp only [step, Option.bind_eq_bind, hget, Option.bind_some, of_decide_eq_true hstage, if_true]
  have hmutual := answered_mutual 1 twoHosts answeredRun s _ 0 a hs hget hstep
    (by simp [answeredRun]) (by simp [answeredRun]) (by simp [answeredRun])
  rw [hip, hpeer] at hmutual
  exact ⟨_, hmutual⟩

end Mutual

end LocalSend.Multicast
