/-
  File:      LocalSend/Signaling/AllDevices.lean
  Subject:   THE LIST OF NEARBY DEVICES: `NearbyDevicesState` with its actions, and `allDevices`,
             which folds the two sources into one map.

  * `NearbyDevicesState.after` -- the state after some actions. Devices of the local network are
    keyed by IP, the sets of signaling devices by fingerprint;
  * `allDevices` -- every signaling device is put under its fingerprint: merged with the entry
    there if the aliases agree, else in its place. The entries there at first are keyed by IP;
  * `NearbyDevicesState.Sound`, `sound_after` -- what all states of a run have;
  * `allDevices_get?` -- a key sees its own device and the set filed under it, nothing else;
  * `Leads` -- the device whose signaling id the entry of a set carries;
  * **`none_lost_iff`** -- exactly when every device is represented; `lost_peer`: two peers with
    one fingerprint;
  * **`merged_iff`** -- exactly when the two entries of one device become one; `two_entries`: an
    ordinary device found both ways (`not_mergeable`: nobody's fingerprint is its IP).
-/
import LocalSend.Signaling.NearbyDevices
import LocalSend.Lib.LinkedMap

namespace LocalSend.Signaling

open LocalSend.Lib

/-! ## 1. The state and its actions -/

/-- A device found in the local network: every `toDevice` of the DTOs gives it the IP it was found
    under, and no signaling id. -/
structure LanDevice where
  device : Device
  ip : String
  ip_eq : device.ip = some ip
  signalingId_eq : device.signalingId = none

/-- `NearbyDevicesState`, without what is known of the scans that run. -/
structure NearbyDevicesState where
  devices : LinkedMap String Device
  signalingDevices : LinkedMap String (List Device)

inductive NearbyDevicesAction where
  | clearFoundDevices
  | registerDevice (device : LanDevice)
  | registerSignalingDevice (signalingServer : String) (info : ClientInfo)
  | unregisterSignalingDevice (signalingId : Uuid)

namespace NearbyDevicesState

/-- `NearbyDevicesService.init`. -/
def init : NearbyDevicesState := ⟨.empty, .empty⟩

/-- `ClearFoundDevicesAction.reduce`. -/
def clearFoundDevices (s : NearbyDevicesState) : NearbyDevicesState := { s with devices := .empty }

/-- `RegisterDeviceAction.reduce`, its last line; before it the alias of a favorite is updated. -/
def registerDevice (s : NearbyDevicesState) (d : LanDevice) : NearbyDevicesState :=
  { s with devices := s.devices.insert d.ip d.device }

/-- `RegisterSignalingDeviceAction.reduce`. -/
def registerSignalingDevice (s : NearbyDevicesState) (device : Device) : NearbyDevicesState :=
  let existingDevices := (s.signalingDevices.get? device.fingerprint).getD []
  { s with signalingDevices :=
      s.signalingDevices.insert device.fingerprint (replaceDevice existingDevices device) }

/-- `UnregisterSignalingDeviceAction.reduce`. -/
def unregisterSignalingDevice (s : NearbyDevicesState) (signalingId : Uuid) :
    NearbyDevicesState :=
  { s with signalingDevices := s.signalingDevices.mapValues fun _ value =>
      value.filter fun e => e.signalingId ≠ some signalingId }

def reduce (s : NearbyDevicesState) : NearbyDevicesAction → NearbyDevicesState
  | .clearFoundDevices => s.clearFoundDevices
  | .registerDevice device => s.registerDevice device
  | .registerSignalingDevice signalingServer info =>
    s.registerSignalingDevice (info.toDevice signalingServer)
  | .unregisterSignalingDevice signalingId => s.unregisterSignalingDevice signalingId

/-- **The state after the actions.** -/
def after (as : List NearbyDevicesAction) : NearbyDevicesState := as.foldl reduce init

end NearbyDevicesState

/-! ## 2. One map of all devices -/

/-- `merge`. -/
def Device.merge (device other : Device) : Device :=
  { device with
    signalingId := device.signalingId.or other.signalingId
    ip := device.ip.or other.ip
    discoveryMethods := device.discoveryMethods ++
      other.discoveryMethods.filter fun m => m ∉ device.discoveryMethods }

/-- What the key of `device` holds after its turn in the loop. -/
def entry (currentDevice : Option Device) (device : Device) : Device :=
  match currentDevice with
  | some currentDevice =>
    if currentDevice.aliasName = device.aliasName then Device.merge currentDevice device
    else device
  | none => device

/-- The body of the loop. -/
def addDevice (allDevices : LinkedMap String Device) (device : Device) :
    LinkedMap String Device :=
  allDevices.insert device.fingerprint (entry (allDevices.get? device.fingerprint) device)

/-- **`allDevices`.** -/
def allDevices (s : NearbyDevicesState) : LinkedMap String Device :=
  s.signalingDevices.values.foldl (fun allDevices devices => devices.foldl addDevice allDevices)
    (LinkedMap.ofList s.devices.entries)

/-! ## 3. What the states of a run look like -/

/-- The set filed under a fingerprint; empty where there is none. -/
def NearbyDevicesState.filed (s : NearbyDevicesState) : SignalingDevices :=
  fun fingerprint => (s.signalingDevices.get? fingerprint).getD []

theorem filed_registerSignalingDevice (s : NearbyDevicesState) (device : Device) :
    (s.registerSignalingDevice device).filed = registerSignalingDevice s.filed device := by
  funext fp
  simp only [NearbyDevicesState.filed, NearbyDevicesState.registerSignalingDevice,
    registerSignalingDevice, LinkedMap.get?_insert]
  by_cases h : fp = device.fingerprint
  · subst h
    simp
  · rw [if_neg h, Function.update_of_ne h]
    rfl

theorem filed_unregisterSignalingDevice (s : NearbyDevicesState) (signalingId : Uuid) :
    (s.unregisterSignalingDevice signalingId).filed =
      unregisterSignalingDevice s.filed signalingId := by
  funext fp
  simp only [NearbyDevicesState.filed, NearbyDevicesState.unregisterSignalingDevice,
    unregisterSignalingDevice, LinkedMap.get?_mapValues]
  cases s.signalingDevices.get? fp <;> rfl

/-- A signaling device filed under `fp`. -/
structure Filed (fp : String) (d : Device) : Prop where
  fingerprint : d.fingerprint = fp
  ip : d.ip = none
  signalingId : d.signalingId ≠ none

/-- **The invariant**: a device of the local network stands under its IP, a signaling device under
    its fingerprint, once for its id. -/
structure NearbyDevicesState.Sound (s : NearbyDevicesState) : Prop where
  lan : ∀ ip l, s.devices.get? ip = some l → l.ip = some ip ∧ l.signalingId = none
  filed : ∀ fp, ∀ d ∈ s.filed fp, Filed fp d
  once : ∀ fp, ((s.filed fp).map Device.signalingId).Nodup

theorem sound_init : NearbyDevicesState.init.Sound where
  lan _ _ h := nomatch h
  filed _ _ h := nomatch h
  once _ := List.nodup_nil

theorem sound_registerDevice {s : NearbyDevicesState} (hs : s.Sound) (d : LanDevice) :
    (s.registerDevice d).Sound := by
  refine ⟨fun ip l hl => ?_, hs.filed, hs.once⟩
  rw [NearbyDevicesState.registerDevice, LinkedMap.get?_insert] at hl
  split at hl
  · rename_i h
    obtain rfl := Option.some.inj hl
    exact ⟨h ▸ d.ip_eq, d.signalingId_eq⟩
  · exact hs.lan ip l hl

theorem sound_registerSignalingDevice {s : NearbyDevicesState} (hs : s.Sound) {device : Device}
    (hdevice : Filed device.fingerprint device) : (s.registerSignalingDevice device).Sound where
  lan := hs.lan
  filed fp d hd := by
    rw [filed_registerSignalingDevice, mem_registerSignalingDevice (hs.once _)] at hd
    rcases hd with ⟨rfl, rfl⟩ | ⟨hd, _⟩
    · exact hdevice
    · exact hs.filed fp d hd
  once fp := by
    rw [filed_registerSignalingDevice]
    exact once_registerSignalingDevice hs.once fp

theorem sound_unregisterSignalingDevice {s : NearbyDevicesState} (hs : s.Sound)
    (signalingId : Uuid) : (s.unregisterSignalingDevice signalingId).Sound where
  lan := hs.lan
  filed fp d hd := by
    rw [filed_unregisterSignalingDevice, mem_unregisterSignalingDevice] at hd
    exact hs.filed fp d hd.1
  once fp := by
    rw [filed_unregisterSignalingDevice]
    exact once_unregisterSignalingDevice hs.once signalingId fp

/-- One action. -/
theorem sound_reduce {s : NearbyDevicesState} (hs : s.Sound) (a : NearbyDevicesAction) :
    (s.reduce a).Sound := by
  cases a with
  | clearFoundDevices =>
      refine ⟨fun ip l hl => ?_, hs.filed, hs.once⟩
      cases hl
  | registerDevice d => exact sound_registerDevice hs d
  | registerSignalingDevice signalingServer info =>
      exact sound_registerSignalingDevice hs ⟨rfl, rfl, Option.some_ne_none _⟩
  | unregisterSignalingDevice signalingId => exact sound_unregisterSignalingDevice hs signalingId

/-- **Every state of a run is sound.** -/
theorem sound_after (as : List NearbyDevicesAction) : (NearbyDevicesState.after as).Sound := by
  induction as using List.reverseRecOn with
  | nil => exact sound_init
  | append_singleton as a ih =>
      rw [NearbyDevicesState.after, List.foldl_append]
      exact sound_reduce ih a

/-! ## 4. What stands under a key -/

/-- The entry of a key that held `o`, after the turns of `ds`. -/
def stacked (o : Option Device) (ds : List Device) : Option Device :=
  ds.foldl (fun v d => some (entry v d)) o

@[simp] theorem stacked_nil (o : Option Device) : stacked o [] = o := rfl

theorem stacked_snoc (o : Option Device) (ds : List Device) (d : Device) :
    stacked o (ds ++ [d]) = some (entry (stacked o ds) d) := by
  simp [stacked]

/-- **A key sees its own device and the set filed under it, nothing else.** -/
theorem allDevices_get? {s : NearbyDevicesState} (hs : s.Sound) (k : String) :
    (allDevices s).get? k = stacked (s.devices.get? k) (s.filed k) := by
  have hkey : ∀ fp ds, s.signalingDevices.get? fp = some ds → ∀ d ∈ ds, d.fingerprint = fp := by
    intro fp ds hds d hd
    exact (hs.filed fp d (by rw [NearbyDevicesState.filed, hds]; exact hd)).fingerprint
  calc (allDevices s).get? k
      = (s.signalingDevices.values.flatten.foldl addDevice s.devices).get? k := by
        rw [allDevices, LinkedMap.ofList_entries, List.foldl_flatten]
    _ = stacked (s.devices.get? k)
          (s.signalingDevices.values.flatten.filter fun d => d.fingerprint = k) :=
        LinkedMap.get?_foldl_upsert Device.fingerprint entry _
    _ = stacked (s.devices.get? k) (s.filed k) := by
        rw [LinkedMap.filter_flatten_values hkey]
        rfl

section Stacked

variable {o : Option Device} {ds : List Device} {c d e l x : Device} {k : String}

theorem entry_aliasName : (entry o d).aliasName = d.aliasName := by
  cases o with
  | none => rfl
  | some c =>
      by_cases h : c.aliasName = d.aliasName
      · simp [entry, h, Device.merge]
      · simp [entry, h]

theorem entry_of_eq (h : c.aliasName = d.aliasName) : entry (some c) d = Device.merge c d :=
  if_pos h

theorem entry_of_ne (h : ∀ c, o = some c → c.aliasName ≠ d.aliasName) : entry o d = d := by
  cases o with
  | none => rfl
  | some c => exact if_neg (h c rfl)

/-- Where something is filed, something stands. -/
theorem stacked_isSome (h : ds ≠ []) : ∃ e, stacked o ds = some e := by
  rw [← List.dropLast_append_getLast h]
  exact ⟨_, stacked_snoc o _ _⟩

/-- The entry has the last alias. -/
theorem stacked_aliasName (h : stacked o ds = some e) (hd : ds.getLast? = some d) :
    e.aliasName = d.aliasName := by
  obtain ⟨front, rfl⟩ := List.getLast?_eq_some_iff.mp hd
  rw [stacked_snoc] at h
  rw [← Option.some.inj h]
  exact entry_aliasName

/-- **All of the key's alias**: the device of the key takes in the others. -/
structure Merges (l : Device) (ds : List Device) (e : Device) : Prop where
  ip : e.ip = l.ip
  port : e.port = l.port
  fingerprint : e.fingerprint = l.fingerprint
  aliasName : e.aliasName = l.aliasName
  methods : ∀ m, m ∈ e.discoveryMethods ↔
    m ∈ l.discoveryMethods ∨ ∃ d ∈ ds, m ∈ d.discoveryMethods

theorem stacked_merges (hl : l.ip ≠ none) (h : ∀ d ∈ ds, d.aliasName = l.aliasName) :
    ∃ e, stacked (some l) ds = some e ∧ Merges l ds e := by
  induction ds using List.reverseRecOn with
  | nil => exact ⟨l, rfl, rfl, rfl, rfl, rfl, by simp⟩
  | append_singleton ds d ih =>
      obtain ⟨e, he, hm⟩ := ih fun d' hd' => h d' (List.mem_append_left _ hd')
      have halias : e.aliasName = d.aliasName := hm.aliasName.trans (h d (by simp)).symm
      have hip : e.ip.or d.ip = l.ip := by
        rw [hm.ip]
        cases hl' : l.ip with
        | none => exact absurd hl' hl
        | some ip => rfl
      refine ⟨Device.merge e d, by rw [stacked_snoc, he, entry_of_eq halias], hip, hm.port,
        hm.fingerprint, hm.aliasName, fun m => ?_⟩
      simp only [Device.merge, List.mem_append, List.mem_filter, decide_eq_true_eq, hm.methods,
        List.mem_singleton]
      grind

/-- **Another alias, or no device of the key**: what stands there is one of the others. -/
theorem stacked_filed (hds : ∀ d ∈ ds, Filed k d)
    (ho : ∀ l, o = some l → ∃ d ∈ ds, d.aliasName ≠ l.aliasName) (h : stacked o ds = some e) :
    Filed k e := by
  induction ds using List.reverseRecOn generalizing e with
  | nil =>
      obtain ⟨d, hd, _⟩ := ho e h
      cases hd
  | append_singleton ds d ih =>
      have hd : Filed k d := hds d (by simp)
      rw [stacked_snoc] at h
      obtain rfl := Option.some.inj h
      by_cases halias : ∀ c, stacked o ds = some c → c.aliasName ≠ d.aliasName
      · rw [entry_of_ne halias]
        exact hd
      push Not at halias
      obtain ⟨c, hc, hcd⟩ := halias
      -- the entry before was one of the others too
      have hbefore : ∀ l, o = some l → ∃ d' ∈ ds, d'.aliasName ≠ l.aliasName := by
        intro l hl
        obtain ⟨d', hd', hne⟩ := ho l hl
        rcases List.mem_append.mp hd' with hd' | hd'
        · exact ⟨d', hd', hne⟩
        obtain rfl := List.mem_singleton.mp hd'
        cases hlast : ds.getLast? with
        | none =>
            rw [List.getLast?_eq_none_iff.mp hlast, hl] at hc
            obtain rfl := Option.some.inj hc
            exact absurd hcd.symm hne
        | some y =>
            refine ⟨y, List.mem_of_getLast? hlast, ?_⟩
            rw [← stacked_aliasName hc hlast, hcd]
            exact hne
      have hfc := ih (fun d' hd' => hds d' (List.mem_append_left _ hd')) hbefore hc
      rw [hc, entry_of_eq hcd]
      refine ⟨hfc.fingerprint, ?_, ?_⟩
      · simp [Device.merge, hfc.ip, hd.ip]
      · simp [Device.merge, hfc.signalingId]

/-! ## 5. Whose signaling id it carries -/

/-- **`x` leads the set**: from it on all have its alias, the one before it has another. -/
def Leads (ds : List Device) (x : Device) : Prop :=
  ∃ pre post, ds = pre ++ x :: post ∧ (∀ y ∈ post, y.aliasName = x.aliasName) ∧
    ∀ y, pre.getLast? = some y → y.aliasName ≠ x.aliasName

theorem leads_mem (h : Leads ds x) : x ∈ ds := by
  obtain ⟨pre, post, rfl, _⟩ := h
  simp

/-- The last one has the alias of the leader. -/
theorem exists_getLast? (pre : List Device) {post : List Device}
    (hpost : ∀ y ∈ post, y.aliasName = x.aliasName) :
    ∃ y, (pre ++ x :: post).getLast? = some y ∧ y.aliasName = x.aliasName := by
  induction post using List.reverseRecOn with
  | nil => exact ⟨x, by simp, rfl⟩
  | append_singleton post d _ =>
      exact ⟨d, by rw [← List.cons_append, ← List.append_assoc, List.getLast?_concat],
        hpost d (by simp)⟩

theorem exists_leads (h : ds ≠ []) : ∃ x, Leads ds x := by
  induction ds using List.reverseRecOn with
  | nil => exact absurd rfl h
  | append_singleton ds d ih =>
      by_cases hlast : ∀ y, ds.getLast? = some y → y.aliasName ≠ d.aliasName
      · exact ⟨d, ds, [], rfl, by simp, hlast⟩
      push Not at hlast
      obtain ⟨y, hy, hyd⟩ := hlast
      obtain ⟨x, pre, post, rfl, hpost, hpre⟩ := ih fun h => by simp [h] at hy
      obtain ⟨z, hz, hzx⟩ := exists_getLast? pre hpost
      obtain rfl : z = y := Option.some.inj (hz.symm.trans hy)
      refine ⟨x, pre, post ++ [d], by simp, fun z hz => ?_, hpre⟩
      rcases List.mem_append.mp hz with hz | hz
      · exact hpost z hz
      · rw [List.mem_singleton.mp hz, ← hyd, hzx]

/-- **The entry carries the signaling id of the leader**, whatever stood under the key. -/
theorem stacked_signalingId (hds : ∀ d ∈ ds, Filed k d)
    (ho : ∀ l, o = some l → l.signalingId = none) (hx : Leads ds x) :
    ∃ e, stacked o ds = some e ∧ e.signalingId = x.signalingId := by
  obtain ⟨pre, post, rfl, hpost, hpre⟩ := hx
  induction post using List.reverseRecOn with
  | nil =>
      refine ⟨_, stacked_snoc o pre x, ?_⟩
      cases hlast : pre.getLast? with
      | none =>
          rw [List.getLast?_eq_none_iff.mp hlast, stacked_nil]
          cases o with
          | none => rfl
          | some l =>
              by_cases h : l.aliasName = x.aliasName
              · simp [entry_of_eq h, Device.merge, ho l rfl]
              · simp [entry, h]
      | some y =>
          rw [entry_of_ne fun c hc => by
            rw [stacked_aliasName hc hlast]
            exact hpre y hlast]
  | append_singleton post d ih =>
      have hsplit : pre ++ x :: (post ++ [d]) = (pre ++ x :: post) ++ [d] := by simp
      rw [hsplit] at hds ⊢
      obtain ⟨e, he, hid⟩ := ih (fun d' hd' => hds d' (List.mem_append_left _ hd'))
        fun y hy => hpost y (List.mem_append_left _ hy)
      have hx : x.signalingId ≠ none := (hds x (by simp)).signalingId
      have hxd : d.aliasName = x.aliasName := hpost d (by simp)
      obtain ⟨y, hy, hyx⟩ := exists_getLast? pre fun y hy =>
        hpost y (List.mem_append_left _ hy)
      have hex : e.aliasName = x.aliasName := (stacked_aliasName he hy).trans hyx
      refine ⟨_, stacked_snoc o _ d, ?_⟩
      rw [he, entry_of_eq (hex.trans hxd.symm)]
      cases hp : e.signalingId with
      | none => exact absurd (hid.symm.trans hp) hx
      | some p => simp [Device.merge, hp, ← hid]

/-- Two leaders carry one signaling id. -/
theorem leads_signalingId {y : Device} (hds : ∀ d ∈ ds, Filed k d) (hx : Leads ds x)
    (hy : Leads ds y) : x.signalingId = y.signalingId := by
  obtain ⟨e, he, hex⟩ := stacked_signalingId hds (o := none) (fun _ h => nomatch h) hx
  obtain ⟨e', he', hey⟩ := stacked_signalingId (o := none) hds (fun _ h => nomatch h) hy
  obtain rfl := Option.some.inj (he.symm.trans he')
  exact hex.symm.trans hey

end Stacked

/-! ## 6. No device is lost -/

/-- **Every device is represented**: some entry has its IP, or its signaling id. -/
def NoneLost (s : NearbyDevicesState) : Prop :=
  (∀ l ∈ s.devices.values, ∃ e ∈ (allDevices s).values, e.ip = l.ip) ∧
  ∀ devices ∈ s.signalingDevices.values, ∀ d ∈ devices,
    ∃ e ∈ (allDevices s).values, e.signalingId = d.signalingId

instance (s : NearbyDevicesState) : Decidable (NoneLost s) := by
  unfold NoneLost
  infer_instance

/-- **The device keeps its key**: all that is filed under its IP has its alias. -/
def Owns (s : NearbyDevicesState) (ip : String) (l : Device) : Prop :=
  s.devices.get? ip = some l ∧ ∀ d ∈ s.filed ip, d.aliasName = l.aliasName

/-- **No device stands before another one**: those of the local network keep their keys, and the
    signaling id of every other device is that of the leader of a set. -/
structure Unhidden (s : NearbyDevicesState) : Prop where
  address : ∀ ip l, s.devices.get? ip = some l → Owns s ip l
  leader : ∀ fp, ∀ d ∈ s.filed fp,
    ∃ fp' x, Leads (s.filed fp') x ∧ x.signalingId = d.signalingId

section Represented

variable {s : NearbyDevicesState} {ip k : String} {e l : Device}

theorem mem_filed {d : Device} :
    (∃ devices ∈ s.signalingDevices.values, d ∈ devices) ↔ ∃ fp, d ∈ s.filed fp := by
  simp only [LinkedMap.mem_values, NearbyDevicesState.filed]
  constructor
  · intro h
    obtain ⟨devices, ⟨fp, hfp⟩, hd⟩ := h
    exact ⟨fp, by rwa [hfp]⟩
  · intro h
    obtain ⟨fp, hd⟩ := h
    cases hfp : s.signalingDevices.get? fp with
    | none => simp [hfp] at hd
    | some devices => exact ⟨devices, ⟨fp, hfp⟩, by rwa [hfp] at hd⟩

/-- The entry of a device that keeps its key. -/
theorem owns_get? (hs : s.Sound) (h : Owns s k l) :
    ∃ e, (allDevices s).get? k = some e ∧ Merges l (s.filed k) e := by
  obtain ⟨hl, hall⟩ := h
  rw [allDevices_get? hs, hl]
  exact stacked_merges (by simp [(hs.lan k l hl).1]) hall

/-- **What an entry is**: the device of its key, or one filed under the key. -/
theorem entry_cases (hs : s.Sound) (h : (allDevices s).get? k = some e) :
    (∃ l, Owns s k l ∧ Merges l (s.filed k) e) ∨ ((∀ l, ¬ Owns s k l) ∧ Filed k e) := by
  by_cases hown : ∃ l, Owns s k l
  · obtain ⟨l, hown⟩ := hown
    obtain ⟨e', he', hm⟩ := owns_get? hs hown
    rw [h] at he'
    obtain rfl := Option.some.inj he'
    exact Or.inl ⟨l, hown, hm⟩
  · push Not at hown
    rw [allDevices_get? hs] at h
    refine Or.inr ⟨hown, stacked_filed (hs.filed k) (fun l hl => ?_) h⟩
    by_contra hno
    push Not at hno
    exact hown l ⟨hl, hno⟩

/-- The IP of a device stands at its own key or nowhere. -/
theorem ip_represented (hs : s.Sound) (hl : s.devices.get? ip = some l) :
    (∃ e ∈ (allDevices s).values, e.ip = some ip) ↔ Owns s ip l := by
  simp only [LinkedMap.mem_values]
  constructor
  · intro h
    obtain ⟨e, ⟨k, he⟩, hip⟩ := h
    rcases entry_cases hs he with ⟨l', hown, hm⟩ | ⟨_, hfiled⟩
    · obtain rfl : k = ip := by
        rw [hm.ip, (hs.lan k l' hown.1).1] at hip
        exact Option.some.inj hip
      obtain rfl := Option.some.inj (hl.symm.trans hown.1)
      exact hown
    · rw [hfiled.ip] at hip
      cases hip
  · intro hown
    obtain ⟨e, he, hm⟩ := owns_get? hs hown
    exact ⟨e, ⟨ip, he⟩, hm.ip.trans (hs.lan ip l hl).1⟩

/-- The signaling ids that stand somewhere are those of the leaders. -/
theorem signalingId_represented (hs : s.Sound) {i : Option Uuid} (hi : i ≠ none) :
    (∃ e ∈ (allDevices s).values, e.signalingId = i) ↔
      ∃ fp x, Leads (s.filed fp) x ∧ x.signalingId = i := by
  simp only [LinkedMap.mem_values, allDevices_get? hs]
  have hlan : ∀ fp l, s.devices.get? fp = some l → l.signalingId = none := fun fp l hl =>
    (hs.lan fp l hl).2
  constructor
  · intro h
    obtain ⟨e, ⟨k, he⟩, rfl⟩ := h
    by_cases hk : s.filed k = []
    · rw [hk, stacked_nil] at he
      exact absurd (hlan k e he) hi
    · obtain ⟨x, hx⟩ := exists_leads hk
      obtain ⟨e', he', hid⟩ := stacked_signalingId (hs.filed k) (hlan k) hx
      obtain rfl := Option.some.inj (he.symm.trans he')
      exact ⟨k, x, hx, hid.symm⟩
  · intro h
    obtain ⟨fp, x, hx, rfl⟩ := h
    obtain ⟨e, he, hid⟩ := stacked_signalingId (hs.filed fp) (hlan fp) hx
    exact ⟨e, ⟨fp, he⟩, hid⟩

/-- Where a signaling id stands in one set only, every set has one device at most. -/
theorem leader_iff_alone (hs : s.Sound)
    (hone : ∀ fp fp' d d', d ∈ s.filed fp → d' ∈ s.filed fp' → d.signalingId = d'.signalingId →
      fp = fp') :
    (∀ fp, ∀ d ∈ s.filed fp, ∃ fp' x, Leads (s.filed fp') x ∧ x.signalingId = d.signalingId) ↔
      ∀ fp, (s.filed fp).length ≤ 1 := by
  constructor
  · intro h fp
    have hlead : ∀ d ∈ s.filed fp, Leads (s.filed fp) d := by
      intro d hd
      obtain ⟨fp', x, hx, hid⟩ := h fp d hd
      obtain rfl := hone fp' fp x d (leads_mem hx) hd hid
      obtain rfl := List.inj_on_of_nodup_map (hs.once fp') (leads_mem hx) hd hid
      exact hx
    have hsame : ∀ d ∈ s.filed fp, ∀ d' ∈ s.filed fp, d.signalingId = d'.signalingId :=
      fun d hd d' hd' => leads_signalingId (hs.filed fp) (hlead d hd) (hlead d' hd')
    have hnd := hs.once fp
    match hf : s.filed fp with
    | [] => exact Nat.zero_le 1
    | [_] => exact Nat.le_refl 1
    | d :: d' :: rest =>
        have hdd' := hsame d (by simp [hf]) d' (by simp [hf])
        rw [hf] at hnd
        simp [hdd'] at hnd
  · intro h fp d hd
    obtain ⟨x, hx⟩ := List.length_eq_one_iff.mp
      (Nat.le_antisymm (h fp) (List.length_pos_of_mem hd))
    rw [hx] at hd
    obtain rfl := List.mem_singleton.mp hd
    refine ⟨fp, d, ⟨[], [], hx, ?_, ?_⟩, rfl⟩ <;> intro y hy <;> cases hy

end Represented

/-- **`allDevices` loses no device exactly if none stands before another one.** -/
theorem none_lost_iff (as : List NearbyDevicesAction) :
    NoneLost (NearbyDevicesState.after as) ↔ Unhidden (NearbyDevicesState.after as) := by
  have hs := sound_after as
  generalize NearbyDevicesState.after as = s at hs
  have haddress : (∀ l ∈ s.devices.values, ∃ e ∈ (allDevices s).values, e.ip = l.ip) ↔
      ∀ ip l, s.devices.get? ip = some l → Owns s ip l := by
    constructor
    · intro h ip l hl
      rw [← ip_represented hs hl, ← (hs.lan ip l hl).1]
      exact h l (LinkedMap.mem_values.mpr ⟨ip, hl⟩)
    · intro h l hl
      obtain ⟨ip, hl⟩ := LinkedMap.mem_values.mp hl
      rw [(hs.lan ip l hl).1, ip_represented hs hl]
      exact h ip l hl
  have hleader : (∀ devices ∈ s.signalingDevices.values, ∀ d ∈ devices,
        ∃ e ∈ (allDevices s).values, e.signalingId = d.signalingId) ↔
      ∀ fp, ∀ d ∈ s.filed fp, ∃ fp' x, Leads (s.filed fp') x ∧ x.signalingId = d.signalingId := by
    constructor
    · intro h fp d hd
      obtain ⟨devices, hdevices, hin⟩ := mem_filed.mpr ⟨fp, hd⟩
      rw [← signalingId_represented hs (hs.filed fp d hd).signalingId]
      exact h devices hdevices d hin
    · intro h devices hdevices d hin
      obtain ⟨fp, hd⟩ := mem_filed.mp ⟨devices, hdevices, hin⟩
      rw [signalingId_represented hs (hs.filed fp d hd).signalingId]
      exact h fp d hd
  rw [NoneLost, haddress, hleader]
  exact ⟨fun h => ⟨h.1, h.2⟩, fun h => ⟨h.address, h.leader⟩⟩

/-- Two peers that give one token. -/
def twoPeers : List NearbyDevicesAction :=
  [.registerSignalingDevice "server" (ClientInfo.from ⟨"phone", "2.3", none, none, "token"⟩ 7),
    .registerSignalingDevice "server" (ClientInfo.from ⟨"laptop", "2.3", none, none, "token"⟩ 8)]

/-- **The first of them is in no entry.** -/
theorem lost_peer : ¬ NoneLost (NearbyDevicesState.after twoPeers) := by decide

/-! ## 7. One entry for a device found both ways -/

/-- **One entry for the fingerprint and the alias**, that of both channels. -/
def Merged (s : NearbyDevicesState) (l d : Device) : Prop :=
  ∃ e, ((allDevices s).values.filter fun e =>
      e.fingerprint = l.fingerprint ∧ e.aliasName = l.aliasName) = [e] ∧
    e.ip = l.ip ∧ e.port = l.port ∧ e.signalingId = d.signalingId ∧
    ∀ m, m ∈ e.discoveryMethods ↔ m ∈ l.discoveryMethods ∨ m ∈ d.discoveryMethods

/-- **The state lets the two become one entry**: the set filed under the IP of `l`, as if it were a
    fingerprint, is led by `d`, and no other key shows the fingerprint with the alias. -/
structure Mergeable (s : NearbyDevicesState) (ip : String) (l d : Device) : Prop where
  owns : Owns s ip l
  leader : ∃ x, Leads (s.filed ip) x ∧ x.signalingId = d.signalingId
  methods : ∀ m, (m ∈ l.discoveryMethods ∨ ∃ d' ∈ s.filed ip, m ∈ d'.discoveryMethods) ↔
    m ∈ l.discoveryMethods ∨ m ∈ d.discoveryMethods
  lan : ∀ k l', Owns s k l' → l'.fingerprint = l.fingerprint → l'.aliasName = l.aliasName → k = ip
  signaling : ip = l.fingerprint ∨ (∃ l', Owns s l.fingerprint l') ∨
    ∀ y, (s.filed l.fingerprint).getLast? = some y → y.aliasName ≠ l.aliasName

/-- **A device found both ways has one entry exactly if the state lets the two become one.** -/
theorem merged_iff (as : List NearbyDevicesAction) {ip : String} {l d : Device}
    (hl : (NearbyDevicesState.after as).devices.get? ip = some l)
    (hd : d ∈ (NearbyDevicesState.after as).filed l.fingerprint) :
    Merged (NearbyDevicesState.after as) l d ↔ Mergeable (NearbyDevicesState.after as) ip l d := by
  have hs := sound_after as
  generalize NearbyDevicesState.after as = s at hs hl hd
  obtain ⟨hip, hid⟩ := hs.lan ip l hl
  have hlan : ∀ fp l, s.devices.get? fp = some l → l.signalingId = none := fun fp l hl =>
    (hs.lan fp l hl).2
  simp only [Merged, LinkedMap.filter_values_eq_singleton, decide_eq_true_eq]
  constructor
  · rintro ⟨e, ⟨k, hk, ⟨hfp, hal⟩, hone⟩, heip, -, heid, hem⟩
    have hown : Owns s ip l := (ip_represented hs hl).mp
      ⟨e, LinkedMap.mem_values.mpr ⟨k, hk⟩, heip.trans hip⟩
    obtain ⟨e', he', hm⟩ := owns_get? hs hown
    obtain rfl := hone ip e' he' ⟨hm.fingerprint, hm.aliasName⟩
    obtain rfl := Option.some.inj (hk.symm.trans he')
    refine ⟨hown, ?_, fun m => (hm.methods m).symm.trans (hem m), fun k' l' hown' hfp' hal' => ?_,
      ?_⟩
    · have hset : s.filed ip ≠ [] := by
        intro hnil
        rw [allDevices_get? hs, hl, hnil, stacked_nil] at hk
        obtain rfl := Option.some.inj hk
        exact (hs.filed _ d hd).signalingId (heid.symm.trans hid)
      obtain ⟨x, hx⟩ := exists_leads hset
      obtain ⟨e', he', hid'⟩ := stacked_signalingId (hs.filed ip) (hlan ip) hx
      rw [← allDevices_get? hs, hk] at he'
      obtain rfl := Option.some.inj he'
      exact ⟨x, hx, hid'.symm.trans heid⟩
    · obtain ⟨e', he', hm'⟩ := owns_get? hs hown'
      exact hone k' e' he' ⟨hm'.fingerprint.trans hfp', hm'.aliasName.trans hal'⟩
    · by_contra hno
      push Not at hno
      obtain ⟨hne, hnone, y, hy, hyl⟩ := hno
      obtain ⟨e', he'⟩ := stacked_isSome (o := s.devices.get? l.fingerprint)
        (List.ne_nil_of_mem hd)
      have hlast := stacked_aliasName he' hy
      rw [← allDevices_get? hs] at he'
      rcases entry_cases hs he' with ⟨l', hown', _⟩ | ⟨_, hfiled⟩
      · exact hnone l' hown'
      · exact hne (hone _ e' he' ⟨hfiled.fingerprint, hlast.trans hyl⟩).symm
  · intro h
    obtain ⟨e, he, hm⟩ := owns_get? hs h.owns
    obtain ⟨x, hx, hxid⟩ := h.leader
    obtain ⟨e', he', hid'⟩ := stacked_signalingId (hs.filed ip) (hlan ip) hx
    rw [← allDevices_get? hs, he] at he'
    obtain rfl := Option.some.inj he'
    refine ⟨e, ⟨ip, he, ⟨hm.fingerprint, hm.aliasName⟩, fun k e' hk hshows => ?_⟩, hm.ip,
      hm.port, hid'.trans hxid, fun m => (hm.methods m).trans (h.methods m)⟩
    obtain ⟨hfp, hal⟩ := hshows
    rcases entry_cases hs hk with ⟨l', hown', hm'⟩ | ⟨hnone, hfiled⟩
    · exact h.lan k l' hown' (hm'.fingerprint.symm.trans hfp) (hm'.aliasName.symm.trans hal)
    · obtain rfl : k = l.fingerprint := hfiled.fingerprint.symm.trans hfp
      rcases h.signaling with hip | ⟨l', hown'⟩ | hlast
      · exact hip.symm
      · exact absurd hown' (hnone l')
      · obtain ⟨y, hy⟩ := Option.isSome_iff_exists.mp
          (List.getLast?_isSome.mpr (List.ne_nil_of_mem hd))
        rw [allDevices_get? hs] at hk
        exact absurd ((stacked_aliasName hk hy).symm.trans hal) (hlast y hy)

/-- A phone that answers in the local network and joins the signaling server. -/
def phone : LanDevice where
  device := ⟨none, some "10.0.0.7", "2.1", 53317, true, "token", "phone", none, .mobile, false,
    [.multicast]⟩
  ip := "10.0.0.7"
  ip_eq := rfl
  signalingId_eq := rfl

def phoneInfo (token : String) : ClientInfo :=
  ClientInfo.from ⟨"phone", "2.3", none, some .mobile, token⟩ 7

/-- A phone whose fingerprint is its IP has one entry. -/
theorem merged_iff_ownAddress :
    let l : LanDevice := ⟨{ phone.device with fingerprint := "10.0.0.7" }, "10.0.0.7", rfl, rfl⟩
    let d := (phoneInfo "10.0.0.7").toDevice "server"
    let s := NearbyDevicesState.after
      [.registerDevice l, .registerSignalingDevice "server" (phoneInfo "10.0.0.7")]
    Merged s l.device d := by
  intro l d s
  have hfiled : s.filed "10.0.0.7" = [d] := by decide
  have hdevices : s.devices = LinkedMap.empty.insert "10.0.0.7" l.device := rfl
  have hmergeable : Mergeable s "10.0.0.7" l.device d → Merged s l.device d :=
    (merged_iff _ (by decide) (by decide)).mpr
  refine hmergeable ⟨?_, ?_, ?_, ?_, ?_⟩
  · refine ⟨by decide, ?_⟩
    rw [hfiled, List.forall_mem_singleton]
    rfl
  · exact ⟨d, ⟨[], [], hfiled, by simp, by simp⟩, rfl⟩
  · rw [hfiled]
    simp
  · intro k l' hown _ _
    have hget := hown.1
    rw [hdevices, LinkedMap.get?_insert] at hget
    split at hget
    · assumption
    · cases hget
  · exact .inl rfl

/-- **An ordinary device**: nobody's fingerprint is its IP. -/
theorem not_mergeable {s : NearbyDevicesState} {ip : String} {l d : Device}
    (h : s.filed ip = []) : ¬ Mergeable s ip l d := by
  intro h
  obtain ⟨-, ⟨x, hx, -⟩, -⟩ := h
  rw [h] at hx
  exact List.not_mem_nil (leads_mem hx)

/-- **It has two entries**, one with its IP, one with its signaling id. -/
theorem two_entries :
    let s := NearbyDevicesState.after
      [.registerDevice phone, .registerSignalingDevice "server" (phoneInfo "token")]
    let d := (phoneInfo "token").toDevice "server"
    s.devices.get? "10.0.0.7" = some phone.device ∧ d ∈ s.filed phone.device.fingerprint ∧
      d.aliasName = phone.device.aliasName ∧ ¬ Merged s phone.device d := by
  refine ⟨by decide, by decide, by decide, ?_⟩
  intro h
  obtain ⟨e, he, _⟩ := h
  have hlen := congrArg List.length he
  rw [List.length_singleton] at hlen
  exact absurd hlen (by decide)

end LocalSend.Signaling
