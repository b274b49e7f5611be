/-
  File:      LocalSend/Persistence/Favorites.lean
  Subject:   THE FAVORITE DEVICES (`favorites_provider.dart`), with the updates a discovery
             dispatches (`RegisterDeviceAction` of `nearby_devices_provider.dart`).

  Additions, updates and removals are reducers over a list kept in memory and in the storage. A
  discovered device that is a favorite without an alias of the user's dispatches an update,
  computed from the list as it is at the discovery.

  * `favoriteReducer` -- the actions; `favorites` -- the provider, its suspended actions and the
    updates on their way;
  * `step_store` -- each step is one of the reducers' store, or leaves the store alone;
  * `ids_advance` -- what one action does to the ids in the list;
  * **`no_lost_favorite`** -- if no action starts while another one is suspended, a favorite stays
    until it is removed, stays away afterwards, and the storage holds the same list;
  * **`overlapping_update`** -- of an addition and an update that overlap, one is lost
    (`added_favorite_lost`: a favorite added while a discovery updates another one is gone).
-/
import Mathlib.Data.List.InsertIdx
import LocalSend.Common.Device
import LocalSend.Lib.Reducers

namespace LocalSend.Persistence

open Lib Lib.Reducer

/-! ## 1. The actions -/

structure FavoriteDevice where
  id : String
  fingerprint : String
  ip : String
  port : Int
  aliasName : String
  /-- the alias was set by the user -/
  customAlias : Bool
  deriving DecidableEq, Repr

inductive FavoriteAction where
  /-- `AddFavoriteAction` -/
  | add (device : FavoriteDevice)
  /-- `UpdateFavoriteAction` -/
  | update (device : FavoriteDevice)
  /-- `RemoveFavoriteAction` -/
  | remove (deviceFingerprint : String)
  deriving DecidableEq, Repr

def favoriteIndex (id : String) (state : List FavoriteDevice) : Option Nat :=
  state.findIdx? fun e => e.id = id

def fingerprintIndex (fingerprint : String) (state : List FavoriteDevice) : Option Nat :=
  state.findIdx? fun e => e.fingerprint = fingerprint

def reduceFavorites : FavoriteAction → List FavoriteDevice → Outcome (List FavoriteDevice)
  | .add device, state => .save (state ++ [device])
  | .update device, state =>
    match favoriteIndex device.id state with
    | none => .rest
    | some index => .save (state.set index device)
  | .remove deviceFingerprint, state =>
    match fingerprintIndex deviceFingerprint state with
    | none => .keep
    | some index => .save (state.eraseIdx index)

def favoriteReducer : Reducer (List FavoriteDevice) FavoriteAction := ⟨reduceFavorites⟩

/-! ## 2. The provider and the discovery -/

structure Favorites where
  store : Store (List FavoriteDevice)
  /-- the updates a discovery has dispatched, before their reducers run -/
  dispatched : List FavoriteDevice
  deriving DecidableEq, Repr

def Favorites.start (saved : List FavoriteDevice) : Favorites := ⟨.start saved, []⟩

inductive FavoritesEvent where
  /-- an action of the user starts, or a suspended one goes on -/
  | run (e : Reducer.Event FavoriteAction)
  /-- `RegisterDeviceAction` looks for the device among the favorites -/
  | discover (device : Device)
  /-- a dispatched update starts -/
  | dispatch (device : FavoriteDevice)
  deriving DecidableEq, Repr

/-- The update of `RegisterDeviceAction`: the favorite as it is, under the name it now has. -/
def discovered (device : Device) (state : List FavoriteDevice) : Option FavoriteDevice :=
  match state.find? fun e => e.fingerprint = device.fingerprint with
  | some favoriteDevice =>
    if favoriteDevice.customAlias then none
    else some { favoriteDevice with aliasName := device.aliasName }
  | none => none

def favoritesStep (s : Favorites) : FavoritesEvent → Option Favorites
  | .run e => (favoriteReducer.step s.store e).map fun store => { s with store := store }
  | .discover device =>
    some { s with dispatched := s.dispatched ++ (discovered device s.store.memory).toList }
  | .dispatch device =>
    if device ∈ s.dispatched then
      (favoriteReducer.step s.store (.start (.update device))).map fun store =>
        { store := store, dispatched := s.dispatched.erase device }
    else none

/-- **The provider of the favorites, and the discovery.** -/
def favorites : Machine Favorites FavoritesEvent := ⟨favoritesStep⟩

/-- The step of the store. -/
def FavoritesEvent.reducerEvent : FavoritesEvent → Option (Reducer.Event FavoriteAction)
  | .run e => some e
  | .discover _ => none
  | .dispatch device => some (.start (.update device))

variable {x l : List FavoriteDevice} {s t u : Favorites} {e : FavoritesEvent}
  {es pre post : List FavoritesEvent} {id : String}

/-- **Each step is one of the store**, or leaves it alone. -/
theorem step_store (h : favorites.step s e = some t) :
    (e.reducerEvent = none ∧ t.store = s.store) ∨
    ∃ e', e.reducerEvent = some e' ∧ favoriteReducer.machine.step s.store e' = some t.store := by
  change favoritesStep s e = some t at h
  cases e with
  | run e =>
      obtain ⟨store, hstore, rfl⟩ := Option.map_eq_some_iff.mp h
      exact .inr ⟨e, rfl, hstore⟩
  | discover device =>
      obtain rfl := Option.some.inj h
      exact .inl ⟨rfl, rfl⟩
  | dispatch device =>
      simp only [favoritesStep] at h
      split at h
      · obtain ⟨store, hstore, rfl⟩ := Option.map_eq_some_iff.mp h
        exact .inr ⟨_, rfl, hstore⟩
      · cases h

/-- No action starts while another one is suspended. -/
def undisturbed (s : Favorites) (e : FavoritesEvent) : Prop :=
  ∀ e', e.reducerEvent = some e' → serial s.store e'

instance (s : Favorites) (e : FavoritesEvent) : Decidable (undisturbed s e) :=
  match h : e.reducerEvent with
  | none => .isTrue fun e' he' => by rw [h] at he'; cases he'
  | some e' => decidable_of_iff (serial s.store e')
      ⟨fun hs f hf => by rw [h] at hf; cases hf; exact hs, fun hs => hs e' h⟩

/-! ## 3. The ids in the list -/

def ids (l : List FavoriteDevice) : List String := l.map FavoriteDevice.id

/-- The list after an event, with every action in one piece. -/
def advanced (l : List FavoriteDevice) (e : FavoritesEvent) : List FavoriteDevice :=
  match e.reducerEvent with
  | some e' => favoriteReducer.advance l e'
  | none => l

/-- The ids an event adds. -/
def FavoritesEvent.addedIds : FavoritesEvent → List String
  | .run (.start (.add device)) => [device.id]
  | _ => []

/-- A removal is started, and it finds the favorite with the id. -/
def removesFavorite (id : String) (s : Favorites) (e : FavoritesEvent) (_ : Favorites) : Prop :=
  ∃ fingerprint index device, e = .run (.start (.remove fingerprint)) ∧
    fingerprintIndex fingerprint s.store.memory = some index ∧
    s.store.memory[index]? = some device ∧ device.id = id

theorem ids_update {device : FavoriteDevice} :
    ids (favoriteReducer.effect (.update device) l) = ids l := by
  simp only [Reducer.effect, favoriteReducer, reduceFavorites]
  cases hindex : favoriteIndex device.id l with
  | none => rfl
  | some index =>
      -- the favorite that is replaced has the same id
      obtain ⟨hlt, hid, -⟩ := List.findIdx?_eq_some_iff_getElem.mp hindex
      have hsame : l[index].id = device.id := by simpa using hid
      show (l.set index device).map FavoriteDevice.id = l.map FavoriteDevice.id
      rw [List.map_set, ← hsame]
      have hlt' : index < (l.map FavoriteDevice.id).length := by simpa using hlt
      have hget : l[index].id = (l.map FavoriteDevice.id)[index] := by simp
      rw [hget, List.set_getElem_self]

/-- **One action and the ids**: it adds its id, removes the one it finds, or leaves them all. -/
theorem ids_advance (h : Serially l s.store) (hg : undisturbed s e) :
    ids (advanced l e) = ids l ++ e.addedIds ∨
      ∃ index id, (ids l)[index]? = some id ∧ removesFavorite id s e t ∧ e.addedIds = [] ∧
        ids (advanced l e) = (ids l).eraseIdx index := by
  cases e with
  | discover device => exact .inl (List.append_nil _).symm
  | dispatch device => exact .inl (ids_update.trans (List.append_nil _).symm)
  | run e =>
      cases e with
      | write i | wake i | install i => exact .inl (List.append_nil _).symm
      | start a =>
          have hstore : s.store = ⟨l, l, []⟩ := h.memory_of_start (hg _ rfl)
          cases a with
          | add device =>
              refine .inl ?_
              show (l ++ [device]).map FavoriteDevice.id = _
              rw [List.map_append]
              rfl
          | update device => exact .inl (ids_update.trans (List.append_nil _).symm)
          | remove fingerprint =>
              cases hindex : fingerprintIndex fingerprint l with
              | none =>
                  refine .inl ?_
                  show ids (favoriteReducer.effect (.remove fingerprint) l) = ids l ++ []
                  simp only [Reducer.effect, favoriteReducer, reduceFavorites, hindex,
                    List.append_nil]
              | some index =>
                  obtain ⟨hlt, -, -⟩ := List.findIdx?_eq_some_iff_getElem.mp hindex
                  have hget : l[index]? = some l[index] := List.getElem?_eq_getElem hlt
                  refine .inr ⟨index, l[index].id, ?_, ?_, rfl, ?_⟩
                  · rw [ids, List.getElem?_map, hget]
                    rfl
                  · exact ⟨fingerprint, index, l[index], rfl, by rw [hstore]; exact hindex,
                      by rw [hstore]; exact hget, rfl⟩
                  · show ids (favoriteReducer.effect (.remove fingerprint) l) = _
                    simp only [Reducer.effect, favoriteReducer, reduceFavorites, hindex]
                    exact (List.eraseIdx_map FavoriteDevice.id l index).symm

/-- An id that no removal finds stays. -/
theorem id_stays (h : Serially l s.store) (hg : undisturbed s e) (hid : id ∈ ids l) :
    removesFavorite id s e t ∨ id ∈ ids (advanced l e) := by
  rcases ids_advance (t := t) h hg with hids | ⟨index, id', hindex, hremoves, -, hids⟩
  · rw [hids]
    exact .inr (List.mem_append_left _ hid)
  · obtain ⟨k, hk⟩ := List.mem_iff_getElem?.mp hid
    by_cases hne : k = index
    · subst hne
      obtain rfl : id = id' := Option.some.inj (hk.symm.trans hindex)
      exact .inl hremoves
    · rw [hids]
      exact .inr (List.mem_eraseIdx_iff_getElem?.mpr ⟨k, hne, hk⟩)

/-- Ids only come from additions. -/
theorem ids_sublist (h : Serially l s.store) (hg : undisturbed s e) :
    (ids (advanced l e)).Sublist (ids l ++ e.addedIds) := by
  rcases ids_advance (t := s) h hg with hids | ⟨index, id, -, -, hadded, hids⟩
  · rw [hids]
  · rw [hids, hadded, List.append_nil]
    exact List.eraseIdx_sublist ..

/-- With distinct ids, the id that a removal finds is gone. -/
theorem id_gone (h : Serially l s.store) (hg : undisturbed s e) (hn : (ids l).Nodup)
    (hremoves : removesFavorite id s e t) : id ∈ ids l ∧ id ∉ ids (advanced l e) := by
  obtain ⟨fingerprint, index, device, rfl, hindex, hdevice, rfl⟩ := hremoves
  rw [h.memory_of_start (hg _ rfl)] at hindex hdevice
  have hid : (ids l)[index]? = some device.id := by
    rw [ids, List.getElem?_map, hdevice]
    rfl
  have heffect : advanced l (.run (.start (.remove fingerprint))) = l.eraseIdx index := by
    show favoriteReducer.effect (.remove fingerprint) l = _
    simp only [Reducer.effect, favoriteReducer, reduceFavorites, hindex]
  refine ⟨List.mem_of_getElem? hid, fun hmem => ?_⟩
  rw [heffect, ids, ← List.eraseIdx_map] at hmem
  obtain ⟨k, hne, hk⟩ := List.mem_eraseIdx_iff_getElem?.mp hmem
  obtain ⟨hlt, -⟩ := List.getElem?_eq_some_iff.mp hk
  exact hne ((List.getElem?_inj hlt hn).mp (hk.trans hid.symm))

/-! ## 4. No favorite is lost -/

/-- The list after the events, with every action in one piece. -/
def advancedBy (l : List FavoriteDevice) (es : List FavoritesEvent) : List FavoriteDevice :=
  es.foldl advanced l

/-- The ids the events add. -/
def addedBy (es : List FavoritesEvent) : List String := es.flatMap FavoritesEvent.addedIds

theorem advancedBy_snoc : advancedBy l (es ++ [e]) = advanced (advancedBy l es) e := by
  simp [advancedBy]

theorem addedBy_snoc : addedBy (es ++ [e]) = addedBy es ++ e.addedIds := by
  simp [addedBy]

theorem favorites_run (hr : favorites.Run undisturbed s es t) (h : Serially l s.store) :
    Serially (advancedBy l es) t.store :=
  hr.traceInvariant (I := fun es (s : Favorites) => Serially (advancedBy l es) s.store) h
    fun es t e u ht hg hs => by
      rw [advancedBy_snoc, advanced]
      rcases step_store hs with ⟨hnone, hsame⟩ | ⟨e', he', hstep⟩
      · rw [hnone, hsame]
        exact ht
      · rw [he']
        exact ht.step (hg e' he') hstep

/-- **A favorite stays** as long as no removal finds it. -/
theorem id_stays_run (hr : favorites.Run undisturbed s es t) (h : Serially l s.store)
    (hid : id ∈ ids l) :
    favorites.Past (removesFavorite id) s es ∨ id ∈ ids (advancedBy l es) := by
  induction hr with
  | start => exact .inr hid
  | step es e t u hr hg hs ih =>
      rw [hr.past_snoc hs, advancedBy_snoc]
      rcases ih with hpast | hin
      · exact .inl (.inl hpast)
      · rcases id_stays (t := u) (favorites_run hr h) hg hin with hremoves | hstays
        · exact .inl (.inr hremoves)
        · exact .inr hstays

theorem ids_sublist_run (hr : favorites.Run undisturbed s es t) (h : Serially l s.store) :
    (ids (advancedBy l es)).Sublist (ids l ++ addedBy es) := by
  induction hr with
  | start =>
      rw [addedBy, List.flatMap_nil, List.append_nil]
      exact List.Sublist.refl _
  | step es e t u hr hg _ ih =>
      rw [advancedBy_snoc, addedBy_snoc, ← List.append_assoc]
      exact (ids_sublist (favorites_run hr h) hg).trans (ih.append_right _)

/-- **A removed favorite stays away**: every addition brings a new id. -/
theorem id_gone_run (hr : favorites.Run undisturbed s es t) (h : Serially l s.store)
    (hn : (ids l ++ addedBy es).Nodup) (hpast : favorites.Past (removesFavorite id) s es) :
    id ∈ ids l ++ addedBy es ∧ id ∉ ids (advancedBy l es) := by
  induction hr with
  | start => exact hpast.elim
  | step es e t u hr hg hs ih =>
      rw [addedBy_snoc, ← List.append_assoc] at hn ⊢
      obtain ⟨hn', -, hnew⟩ := List.nodup_append.mp hn
      rw [advancedBy_snoc]
      have hsublist := ids_sublist (favorites_run hr h) hg
      rcases (hr.past_snoc hs _).mp hpast with hpast | hremoves
      · obtain ⟨hused, hgone⟩ := ih hn' hpast
        refine ⟨List.mem_append_left _ hused, fun hin => ?_⟩
        rcases List.mem_append.mp (hsublist.subset hin) with hin | hadded
        · exact hgone hin
        · exact hnew _ hused _ hadded rfl
      · obtain ⟨hin, hgone⟩ :=
          id_gone (favorites_run hr h) hg (hn'.sublist (ids_sublist_run hr h)) hremoves
        exact ⟨List.mem_append_left _ ((ids_sublist_run hr h).subset hin), hgone⟩

/-- **No favorite is lost.** No action starts while another one is suspended. Once none is
    suspended, the memory holds the list of the actions applied one after another, and the storage
    the same. A favorite that was there or was added is in it, unless a removal found it; and with
    a new id for every addition, what a removal found is not. -/
theorem no_lost_favorite (hr : favorites.Run undisturbed (Favorites.start x) es s)
    (hs : s.store.runs = []) :
    (s.store.memory = advancedBy x es ∧ s.store.disk = s.store.memory) ∧
    (∀ id ∈ ids x, id ∈ ids s.store.memory ∨
      favorites.Past (removesFavorite id) (Favorites.start x) es) ∧
    (∀ pre device post t, es = pre ++ [.run (.start (.add device))] ++ post →
      favorites.run (Favorites.start x) (pre ++ [.run (.start (.add device))]) = some t →
      device.id ∈ ids s.store.memory ∨ favorites.Past (removesFavorite device.id) t post) ∧
    ((ids x ++ addedBy es).Nodup → ∀ id,
      favorites.Past (removesFavorite id) (Favorites.start x) es → id ∉ ids s.store.memory) := by
  obtain ⟨hmemory, hdisk⟩ := (favorites_run hr .idle).settled hs
  refine ⟨⟨hmemory, hdisk.trans hmemory.symm⟩, fun id hid => ?_, ?_, fun hn id hpast => ?_⟩
  · rw [hmemory]
    exact (id_stays_run hr .idle hid).symm
  · intro pre device post t hes ht
    rw [hes] at hr
    obtain ⟨u, hu, hpost⟩ := hr.split
    obtain rfl : t = u := Option.some.inj (ht.symm.trans hu.run_eq)
    have hserially := favorites_run hu .idle
    have hadded : device.id ∈ ids (advancedBy x (pre ++ [.run (.start (.add device))])) := by
      rw [advancedBy_snoc]
      show device.id ∈ (advancedBy x pre ++ [device]).map FavoriteDevice.id
      simp
    rw [((favorites_run hpost hserially).settled hs).1]
    exact (id_stays_run hpost hserially hadded).symm
  · rw [hmemory]
    exact (id_gone_run hr .idle hn hpast).2

def demoFavorite (id aliasName : String) : FavoriteDevice :=
  ⟨id, "print " ++ id, "10.0.0.7", 53317, aliasName, false⟩

/-- The device of the favorite "1", under a new name. -/
def demoDevice : Device where
  signalingId := none
  ip := some "10.0.0.7"
  version := "2.1"
  port := 53317
  https := true
  fingerprint := "print 1"
  aliasName := "renamed"
  deviceModel := none
  deviceType := .desktop
  download := false
  discoveryMethods := [.multicast]

/-- A discovery updates the favorite "1", the user adds "2" and removes "1", one after another. -/
def undisturbedRun : List FavoritesEvent :=
  [.discover demoDevice, .dispatch (demoFavorite "1" "renamed"), .run (.write 0),
    .run (.install 0), .run (.start (.add (demoFavorite "2" "b"))), .run (.write 0),
    .run (.install 0), .run (.start (.remove "print 1")), .run (.write 0), .run (.install 0)]

/-- The user adds "2" while a discovery updates "1". -/
def disturbedRun : List FavoritesEvent :=
  [.discover demoDevice, .run (.start (.add (demoFavorite "2" "b"))),
    .dispatch (demoFavorite "1" "renamed"), .run (.write 0), .run (.write 1), .run (.install 0),
    .run (.install 0)]

theorem no_lost_favorite_undisturbedRun :
    ∃ s, favorites.Run undisturbed (Favorites.start [demoFavorite "1" "a"]) undisturbedRun s ∧
      s.store.disk = s.store.memory ∧ s.store.memory = [demoFavorite "2" "b"] := by
  have hrun : ((favorites.guarded undisturbed).run (Favorites.start [demoFavorite "1" "a"])
      undisturbedRun).map (fun s => (s.store.runs, s.store.memory)) =
      some ([], [demoFavorite "2" "b"]) := by decide
  obtain ⟨s, hs, hobs⟩ := Machine.run_observe_guarded hrun
  simp only [Prod.mk.injEq] at hobs
  exact ⟨s, hs, (no_lost_favorite hs hobs.1).1.2, hobs.2⟩

/-- **A favorite is lost**: the update was computed before the addition was installed, and is
    installed after it. No removal happened. -/
theorem added_favorite_lost :
    ∃ s, favorites.Run Machine.anyStep (Favorites.start [demoFavorite "1" "a"]) disturbedRun s ∧
      s.store.runs = [] ∧ s.dispatched = [] ∧
      (∀ fingerprint, .run (.start (.remove fingerprint)) ∉ disturbedRun) ∧
      s.store.memory = [demoFavorite "1" "renamed"] := by
  have hrun : (favorites.run (Favorites.start [demoFavorite "1" "a"]) disturbedRun).map
      (fun s => (s.store.runs, s.dispatched, s.store.memory)) =
      some ([], [], [demoFavorite "1" "renamed"]) := by decide
  obtain ⟨s, hs, hobs⟩ := Machine.run_observe hrun
  simp only [Prod.mk.injEq] at hobs
  exact ⟨s, hs, hobs.1, hobs.2.1, by simp [disturbedRun], hobs.2.2⟩

/-! ## 5. An addition and an update that overlap -/

/-- **Of an addition and an update that overlap, one is lost**, whatever the order of their writes
    and installations: the list ends without the new favorite or without the updated one. -/
theorem overlapping_update {device updated : FavoriteDevice} {disk : List FavoriteDevice}
    {index : Nat} {s t : Store (List FavoriteDevice)} {es : List (Reducer.Event FavoriteAction)}
    (hdevice : device ∉ l) (hupdated : updated ∉ l) (hne : device ≠ updated)
    (hindex : favoriteIndex updated.id l = some index)
    (ht : favoriteReducer.machine.run ⟨l, disk, []⟩
      [.start (.add device), .start (.update updated)] = some t)
    (hr : favoriteReducer.machine.Run noStart t es s) (hs : s.runs = []) :
    device ∉ s.memory ∨ updated ∉ s.memory := by
  have hreduce : favoriteReducer.reduce (.update updated) l = .save (l.set index updated) := by
    simp only [favoriteReducer, reduceFavorites, hindex]
  have hstart : favoriteReducer.machine.run ⟨l, disk, []⟩
      [.start (.add device), .start (.update updated)] =
      some ⟨l, disk, [.saving (l ++ [device]),
        beginRun l (favoriteReducer.reduce (.update updated) l)]⟩ := rfl
  rw [hreduce] at hstart
  obtain rfl := Option.some.inj (ht.symm.trans hstart)
  rcases overlap hr hs with h | h
  · refine .inr fun hmem => ?_
    rw [h] at hmem
    rcases List.mem_append.mp hmem with hmem | hmem
    · exact hupdated hmem
    · exact hne (List.mem_singleton.mp hmem).symm
  · refine .inl fun hmem => ?_
    rw [h] at hmem
    rcases List.mem_or_eq_of_mem_set hmem with hmem | heq
    · exact hdevice hmem
    · exact hne heq

end LocalSend.Persistence
