/-
  File:      LocalSend/Persistence/MemoryCache.lean
  Subject:   READS THROUGH THE MEMORY CACHE of preferences (`getFromCache` of
             `persistence_provider.dart`).

  A queued write puts its value into the memory cache at once, a queued removal only takes the key
  out of it. A read of a key that is not in the cache reads the preferences, whatever is queued,
  and caches what it finds there (null, too).

  * `Getter`, `getFromCache` -- a read by a getter of the preferences, with the cast to its type;
  * `CacheEvent`, `caching` -- the reads over the queue and the flushes of BatchedWrites.lean; a
    write of a flush may fail;
  * `lastValue` -- what a key should hold, by the queued operations and the preferences before;
  * `Quiet`, `batch_quiet` -- all that a step of a flush does to a read;
  * `Cached`, `Cached.step` -- the cache holds what it should, and a key that is missing in it was
    removed last or never queued; kept as long as the reads are right;
  * **`reads_last_queued_iff`** -- all reads of a run return what the last queued operation of
    their key says if and only if no read of a removed key, missing in the cache, finds a value in
    the preferences. `removed_key_read`: before the flush, one does, and it stays in the cache.
-/
import LocalSend.Persistence.BatchedWrites

namespace LocalSend.Persistence.MemoryCache

open Lib Lib.KeyedWrite BatchedWrites

/-! ## 1. Reads -/

/-- The getters of the preferences; `get` reads a value of any type. -/
inductive Getter where
  | get
  | getString
  | getInt
  | getDouble
  | getBool
  | getStringList
  deriving DecidableEq, Repr

/-- The value is of the getter's type. -/
def Getter.accepts : Getter → PrefValue → Bool
  | .get, _ => true
  | .getString, .string _ => true
  | .getInt, .int _ => true
  | .getDouble, .double _ => true
  | .getBool, .bool _ => true
  | .getStringList, .stringList _ => true
  | _, _ => false

/-- What a read gives: a value or null, or the error of a cast. -/
inductive ReadResult where
  | value (value : Option PrefValue)
  | typeError
  deriving DecidableEq, Repr

/-- `value as T?`, where `T` is the type of the getter. -/
def Getter.cast (getter : Getter) (value : Option PrefValue) : ReadResult :=
  if value.all getter.accepts then .value value else .typeError

def getFromCache (s : PersistenceService) (key : String) (getter : Getter) :
    ReadResult × PersistenceService :=
  match s.memoryCache key with
  | some value => (getter.cast value, s)
  | none =>
    match getter.cast (s.prefs key) with
    | .value value =>
      (.value value, { s with memoryCache := Function.update s.memoryCache key (some value) })
    | .typeError => (.typeError, s)

inductive CacheEvent where
  /-- an operation is queued, or a flush starts or goes on -/
  | batch (e : Event)
  /-- the write the `i`-th run of `_flushWrites` waits for throws -/
  | fail (i : Nat)
  | get (key : String) (getter : Getter)
  deriving DecidableEq, Repr

/-- A write that throws is logged, and the run goes on: the preferences stay as they are. -/
def failWrite (s : PersistenceService) (i : Nat) : Option PersistenceService :=
  (step s (.store i)).map fun t => { t with prefs := s.prefs }

def cacheStep (s : PersistenceService) : CacheEvent → Option PersistenceService
  | .batch e => step s e
  | .fail i => failWrite s i
  | .get key getter => some (getFromCache s key getter).2

/-- **The preferences with the queue, the flushes and the reads.** -/
def caching : Machine PersistenceService CacheEvent := ⟨cacheStep⟩

/-! ## 2. What a read should return -/

def CacheEvent.queued : CacheEvent → Option PendingWrite
  | .batch e => e.queued
  | .fail _ | .get _ _ => none

/-- The operations that were queued. -/
def queuedOps (es : List CacheEvent) : List PendingWrite := es.filterMap CacheEvent.queued

/-- **What a key should hold** after `es`: the value of the last queued operation of it, null after
    a removal, and what the preferences held before if there was none. -/
def lastValue (prefs : String → Option PrefValue) (es : List CacheEvent) (key : String) :
    Option PrefValue :=
  match lastOf key (queuedOps es) with
  | some write => write.value
  | none => prefs key

/-- The last queued operation of the key removes it. -/
def removedLast (es : List CacheEvent) (key : String) : Prop :=
  (lastOf key (queuedOps es)).map KeyedWrite.value = some none

/-- A read returns what the key should hold, as the type of its getter. -/
def readsLast (prefs : String → Option PrefValue) (es : List CacheEvent)
    (s : PersistenceService) : CacheEvent → Prop
  | .get key getter => (getFromCache s key getter).1 = getter.cast (lastValue prefs es key)
  | .batch _ | .fail _ => True

/-- A read of a removed key that is not in the cache comes when the preferences hold no value of
    it. -/
def removalStored (es : List CacheEvent) (s : PersistenceService) : CacheEvent → Prop
  | .get key _ => s.memoryCache key = none → removedLast es key → s.prefs key = none
  | .batch _ | .fail _ => True

instance (es : List CacheEvent) (key : String) : Decidable (removedLast es key) :=
  inferInstanceAs (Decidable (_ = _))

instance (es : List CacheEvent) (s : PersistenceService) :
    (e : CacheEvent) → Decidable (removalStored es s e)
  | .get key _ => inferInstanceAs (Decidable (s.memoryCache key = none → _ → _))
  | .batch _ | .fail _ => .isTrue trivial

instance (prefs : String → Option PrefValue) (es : List CacheEvent) (s : PersistenceService) :
    (e : CacheEvent) → Decidable (readsLast prefs es s e)
  | .get _ _ => inferInstanceAs (Decidable (_ = _))
  | .batch _ | .fail _ => .isTrue trivial

variable {prefs : String → Option PrefValue} {s t : PersistenceService} {es : List CacheEvent}
  {e : CacheEvent} {key : String} {getter : Getter}

theorem queuedOps_snoc : queuedOps (es ++ [e]) = queuedOps es ++ e.queued.toList := by
  rw [queuedOps, List.filterMap_append]
  cases hq : e.queued with
  | none => simp [queuedOps, hq]
  | some write => simp [queuedOps, hq]

theorem lastOf_queue {write : PendingWrite} :
    lastOf key (queuedOps (es ++ [.batch (.queue write)])) =
      if write.key = key then some write else lastOf key (queuedOps es) := by
  rw [queuedOps_snoc, ← lastOf_snoc]
  rfl

theorem lastValue_queue {write : PendingWrite} :
    lastValue prefs (es ++ [.batch (.queue write)]) key =
      if write.key = key then write.value else lastValue prefs es key := by
  rw [lastValue, lastOf_queue]
  by_cases hkey : write.key = key
  · rw [if_pos hkey, if_pos hkey]
  · rw [if_neg hkey, if_neg hkey, lastValue]

theorem lastValue_removed (h : removedLast es key) : lastValue prefs es key = none := by
  obtain ⟨write, hlast, hvalue⟩ := Option.map_eq_some_iff.mp h
  rw [lastValue, hlast]
  exact hvalue

/-! ## 3. Casts -/

theorem Getter.cast_none : getter.cast none = .value none := rfl

/-- A cast gives the value or throws. -/
theorem Getter.cast_value {value result : Option PrefValue}
    (h : getter.cast value = .value result) : result = value := by
  unfold Getter.cast at h
  split at h
  · exact (ReadResult.value.inj h).symm
  · cases h

/-- Only null reads as null. -/
theorem Getter.cast_eq_none {value : Option PrefValue} :
    getter.cast value = .value none ↔ value = none :=
  ⟨fun h => (Getter.cast_value h).symm, fun h => by rw [h, Getter.cast_none]⟩

/-- A read of a key in the cache. -/
theorem getFromCache_hit {value : Option PrefValue} (h : s.memoryCache key = some value) :
    getFromCache s key getter = (getter.cast value, s) := by
  rw [getFromCache, h]

/-- A read of a key that is not in the cache returns what the getter reads. -/
theorem getFromCache_miss (h : s.memoryCache key = none) :
    (getFromCache s key getter).1 = getter.cast (s.prefs key) := by
  rw [getFromCache, h]
  cases hread : getter.cast (s.prefs key) <;> rfl

/-- What such a read puts into the cache. -/
theorem getFromCache_caches (getter : Getter) (h : s.memoryCache key = none) :
    (getFromCache s key getter).2 = s ∨ (getFromCache s key getter).2 =
      { s with memoryCache := Function.update s.memoryCache key (some (s.prefs key)) } ∧
        getter.cast (s.prefs key) = .value (s.prefs key) := by
  rw [getFromCache, h]
  cases hread : getter.cast (s.prefs key) with
  | typeError => exact .inl rfl
  | value value =>
      obtain rfl := Getter.cast_value hread
      exact .inr ⟨rfl, rfl⟩

/-! ## 4. What a flush does to a read -/

/-- Nothing is queued or cached, and only keys with a write that has not taken effect change. -/
structure Quiet (s t : PersistenceService) : Prop where
  memoryCache : t.memoryCache = s.memoryCache
  unstored : ∀ write ∈ t.unstored, write ∈ s.unstored
  prefs : ∀ key, t.prefs key = s.prefs key ∨ ∃ write ∈ s.unstored, write.key = key

theorem flushWrites_quiet (active : Bool) :
    Quiet s (flushWrites { s with flushTimer := active }) where
  memoryCache := by
    unfold flushWrites
    split <;> rfl
  unstored write h := by
    rw [flushWrites_unstored] at h
    exact h
  prefs key := .inl (by rw [flushWrites_prefs])

theorem store_quiet {i : Nat} (h : step s (.store i) = some t) : Quiet s t := by
  obtain ⟨write, before, later, hbefore, hafter, hprefs, -, -⟩ := store_unstored h
  obtain ⟨_, _, _, _, _, ht⟩ := store_inv h
  refine ⟨by rw [ht], fun w hw => ?_, fun key => ?_⟩
  · rw [hafter] at hw
    rw [hbefore]
    rcases List.mem_append.mp hw with hw | hw
    · exact List.mem_append_left _ hw
    · exact List.mem_append_right _ (List.mem_cons_of_mem _ hw)
  · by_cases hkey : write.key = key
    · refine .inr ⟨write, ?_, hkey⟩
      rw [hbefore]
      exact List.mem_append_right _ List.mem_cons_self
    · refine .inl ?_
      rw [hprefs, apply, Function.update_of_ne (fun heq => hkey heq.symm)]

/-- **A step of the flushes**: nothing but the preferences changes for a read. -/
theorem batch_quiet {e : Event} (h : step s e = some t) (hq : e.queued = none) : Quiet s t := by
  cases e with
  | queue write => cases hq
  | timer =>
      simp only [step] at h
      split at h
      · obtain rfl := Option.some.inj h
        exact flushWrites_quiet false
      · cases h
  | flush =>
      obtain rfl := Option.some.inj h
      exact flushWrites_quiet false
  | store i => exact store_quiet h
  | resume i =>
      obtain ⟨hprefs, hunstored⟩ := resume_unstored h
      obtain ⟨_, _, _, _, ⟨_, ht⟩ | ht⟩ := resume_inv h
      · exact ⟨by rw [ht], fun write hw => hunstored ▸ hw, fun key => .inl (by rw [hprefs])⟩
      · exact ⟨by rw [ht], fun write hw => hunstored ▸ hw, fun key => .inl (by rw [hprefs])⟩

/-- A write that fails changes no preference. -/
theorem fail_quiet {i : Nat} (h : failWrite s i = some t) : Quiet s t := by
  obtain ⟨stored, hstored, rfl⟩ := Option.map_eq_some_iff.mp h
  have hquiet := store_quiet hstored
  exact ⟨hquiet.memoryCache, hquiet.unstored, fun key => .inl rfl⟩

/-! ## 5. The cache -/

/-- **The invariant.** What is still to be written was queued, a key that was never queued has its
    old preference, and the cache holds what it should; a key that is missing in it was removed
    last, or was never queued. -/
structure Cached (prefs : String → Option PrefValue) (es : List CacheEvent)
    (s : PersistenceService) : Prop where
  unstored : ∀ write ∈ s.unstored, write ∈ queuedOps es
  stored : ∀ key, lastOf key (queuedOps es) = none → s.prefs key = prefs key
  cached : ∀ key value, s.memoryCache key = some value → value = lastValue prefs es key
  missing : ∀ key, s.memoryCache key = none →
    removedLast es key ∨ lastOf key (queuedOps es) = none

theorem cached_start : Cached prefs [] (.start prefs) where
  unstored write h := by cases h
  stored key h := rfl
  cached key value h := by cases h
  missing key h := .inr rfl

theorem queueWrite_memoryCache {write : PendingWrite} : (queueWrite s write).memoryCache =
    Function.update s.memoryCache write.key (write.value.map some) := rfl

/-- A queued operation: the cache holds its value, or misses the key after a removal. -/
theorem Cached.queue {write : PendingWrite} (h : Cached prefs es s) :
    Cached prefs (es ++ [.batch (.queue write)]) (queueWrite s write) where
  unstored w hw := by
    rw [queuedOps_snoc]
    rcases List.mem_append.mp hw with hw | hw
    · exact List.mem_append_left _ (h.unstored w (List.mem_append_left _ hw))
    · rcases List.mem_append.mp hw with hw | hw
      · refine List.mem_append_left _ (h.unstored w (List.mem_append_right _ ?_))
        exact (List.mem_filter.mp hw).1
      · exact List.mem_append_right _ hw
  stored key hlast := by
    rw [lastOf_queue] at hlast
    split at hlast
    · cases hlast
    · exact h.stored key hlast
  cached key value hcached := by
    rw [lastValue_queue]
    by_cases hkey : write.key = key
    · subst hkey
      rw [queueWrite_memoryCache, Function.update_self] at hcached
      obtain ⟨v, hv, rfl⟩ := Option.map_eq_some_iff.mp hcached
      rw [if_pos rfl, hv]
    · rw [queueWrite_memoryCache, Function.update_of_ne (fun heq => hkey heq.symm)] at hcached
      rw [if_neg hkey]
      exact h.cached key value hcached
  missing key hmissing := by
    rw [removedLast, lastOf_queue]
    by_cases hkey : write.key = key
    · subst hkey
      rw [queueWrite_memoryCache, Function.update_self] at hmissing
      rw [if_pos rfl, Option.map_some, Option.map_eq_none_iff.mp hmissing]
      exact .inl rfl
    · rw [queueWrite_memoryCache, Function.update_of_ne (fun heq => hkey heq.symm)] at hmissing
      rw [if_neg hkey]
      exact h.missing key hmissing

/-- A step of a flush keeps what the cache should hold. -/
theorem Cached.quiet (h : Cached prefs es s) (hst : Quiet s t) : Cached prefs es t where
  unstored write hw := h.unstored write (hst.unstored write hw)
  stored key hlast := by
    rcases hst.prefs key with hsame | ⟨write, hw, hkey⟩
    · rw [hsame, h.stored key hlast]
    · exact absurd hkey (lastOf_eq_none.mp hlast write (h.unstored write hw))
  cached key value hcached := by
    rw [hst.memoryCache] at hcached
    exact h.cached key value hcached
  missing key hmissing := by
    rw [hst.memoryCache] at hmissing
    exact h.missing key hmissing

/-- A key that is cached with what it should hold. -/
theorem Cached.cache {value : Option PrefValue} (h : Cached prefs es s)
    (hvalue : value = lastValue prefs es key) :
    Cached prefs es { s with memoryCache := Function.update s.memoryCache key (some value) } where
  unstored := h.unstored
  stored := h.stored
  cached k v hcached := by
    change Function.update s.memoryCache key (some value) k = some v at hcached
    by_cases hk : k = key
    · subst hk
      rw [Function.update_self] at hcached
      rw [← hvalue, Option.some.inj hcached]
    · rw [Function.update_of_ne hk] at hcached
      exact h.cached k v hcached
  missing k hmissing := by
    change Function.update s.memoryCache key (some value) k = none at hmissing
    by_cases hk : k = key
    · subst hk
      rw [Function.update_self] at hmissing
      cases hmissing
    · rw [Function.update_of_ne hk] at hmissing
      exact h.missing k hmissing

/-- An event that queues nothing changes nothing that a key should hold. -/
theorem Cached.snoc (h : Cached prefs es s) (hq : e.queued = none) :
    Cached prefs (es ++ [e]) s := by
  have hops : queuedOps (es ++ [e]) = queuedOps es := by
    rw [queuedOps_snoc, hq, Option.toList_none, List.append_nil]
  refine ⟨fun write hw => ?_, fun key hlast => ?_, fun key value hcached => ?_,
    fun key hmissing => ?_⟩
  · rw [hops]
    exact h.unstored write hw
  · rw [hops] at hlast
    exact h.stored key hlast
  · rw [lastValue, hops]
    exact h.cached key value hcached
  · rw [removedLast, hops]
    exact h.missing key hmissing

/-- A read that is right caches what the key should hold. -/
theorem Cached.read (h : Cached prefs es s)
    (hread : (getFromCache s key getter).1 = getter.cast (lastValue prefs es key)) :
    Cached prefs es (getFromCache s key getter).2 := by
  cases hcache : s.memoryCache key with
  | some value =>
      rw [getFromCache_hit hcache]
      exact h
  | none =>
      rw [getFromCache_miss hcache] at hread
      rcases getFromCache_caches getter hcache with hs | ⟨hs, hcast⟩
      · rw [hs]
        exact h
      · rw [hs]
        have hvalue : getter.cast (lastValue prefs es key) = .value (s.prefs key) := by
          rw [← hread, hcast]
        exact h.cache (Getter.cast_value hvalue)

/-- **One step**: the cache stays right, if a read is. -/
theorem Cached.step (h : Cached prefs es s) (hread : readsLast prefs es s e)
    (hs : caching.step s e = some t) : Cached prefs (es ++ [e]) t := by
  cases e with
  | batch e =>
      cases hq : e.queued with
      | none => exact (h.quiet (batch_quiet hs hq)).snoc hq
      | some write =>
          cases e with
          | queue w =>
              obtain rfl := Option.some.inj hs
              exact h.queue
          | timer | flush | store _ | resume _ => cases hq
  | fail i => exact (h.quiet (fail_quiet hs)).snoc rfl
  | get key getter =>
      obtain rfl := Option.some.inj hs
      exact (h.read hread).snoc rfl

/-! ## 6. Every read of a run -/

/-- **One read**: it is right if and only if a removed key that is not in the cache is not in the
    preferences. -/
theorem readsLast_iff (h : Cached prefs es s) : readsLast prefs es s e ↔ removalStored es s e := by
  cases e with
  | batch _ | fail _ => exact Iff.rfl
  | get key getter =>
      show (getFromCache s key getter).1 = getter.cast (lastValue prefs es key) ↔
        (s.memoryCache key = none → removedLast es key → s.prefs key = none)
      cases hcache : s.memoryCache key with
      | some value =>
          rw [getFromCache_hit hcache, ← h.cached key value hcache]
          exact ⟨fun _ hmissing => absurd hmissing (Option.some_ne_none value), fun _ => rfl⟩
      | none =>
          rw [getFromCache_miss hcache]
          rcases h.missing key hcache with hremoved | hlast
          · rw [lastValue_removed hremoved, Getter.cast_none, Getter.cast_eq_none]
            exact ⟨fun hnone _ _ => hnone, fun hstored => hstored rfl hremoved⟩
          · have hvalue : lastValue prefs es key = prefs key := by
              rw [lastValue, hlast]
            refine ⟨fun _ _ hremoved => ?_, fun _ => by rw [hvalue, h.stored key hlast]⟩
            rw [removedLast, hlast] at hremoved
            cases hremoved

/-- **Reads of the last queued operation.** In a run from any preferences, with the operations, the
    flushes and the reads in any order, every read returns what the last queued operation of its
    key says, if and only if each read of a removed key that is not in the cache comes when the
    preferences hold no value of it. -/
theorem reads_last_queued_iff (hr : caching.Run Machine.anyStep (.start prefs) es s) :
    caching.Along (readsLast prefs) [] (.start prefs) es ↔
      caching.Along removalStored [] (.start prefs) es :=
  hr.along_iff (I := Cached prefs) cached_start
    (fun _ _ _ _ hcached hread hs => hcached.step hread hs) fun _ _ _ => readsLast_iff

def oldPrefs : String → Option PrefValue := fun key =>
  if key = "k" then some (.string "old") else none

/-- A removed key is read after the removal took effect. The write of another key fails, and it is
    read all the same. -/
def flushedReads : List CacheEvent :=
  [.batch (queueRemove "k"), .batch .flush, .batch (.store 0), .get "k" .getString,
    .batch (.resume 0), .batch (queueInt "n" 1), .batch .timer, .fail 0, .get "n" .getInt]

/-- A removed key is read before the flush, and once more after it. -/
def earlyReads : List CacheEvent :=
  [.batch (queueRemove "k"), .get "k" .getString, .batch .timer, .batch (.store 0),
    .batch (.resume 0), .get "k" .getString]

theorem reads_last_queued_iff_flushedReads :
    ∃ s, caching.Run Machine.anyStep (.start oldPrefs) flushedReads s ∧
      caching.Along (readsLast oldPrefs) [] (.start oldPrefs) flushedReads := by
  have hrun : (caching.run (.start oldPrefs) flushedReads).map
      (fun s => s.pendingWrites) = some [] := by decide
  obtain ⟨s, hs, -⟩ := Machine.run_observe hrun
  exact ⟨s, hs, (reads_last_queued_iff hs).mpr (by decide)⟩

/-- **A removed key is read**: the last queued operation of it is the removal, the read before the
    flush returns the old value, and so does the read after the flush, when the preferences hold no
    value any more. -/
theorem removed_key_read :
    ∃ s t, caching.Run Machine.anyStep (.start oldPrefs) (earlyReads.take 1) s ∧
      (getFromCache s "k" .getString).1 = .value (some (.string "old")) ∧
      lastValue oldPrefs (earlyReads.take 1) "k" = none ∧
      caching.Run Machine.anyStep (.start oldPrefs) (earlyReads.take 5) t ∧
      t.prefs "k" = none ∧
      (getFromCache t "k" .getString).1 = .value (some (.string "old")) ∧
      ¬ caching.Along (readsLast oldPrefs) [] (.start oldPrefs) earlyReads := by
  have hearly : (caching.run (.start oldPrefs) (earlyReads.take 1)).map
      (fun s => (getFromCache s "k" .getString).1) = some (.value (some (.string "old"))) := by
    decide
  have hlate : (caching.run (.start oldPrefs) (earlyReads.take 5)).map
      (fun s => (s.prefs "k", (getFromCache s "k" .getString).1)) =
      some (none, .value (some (.string "old"))) := by decide
  obtain ⟨s, hs, hread⟩ := Machine.run_observe hearly
  obtain ⟨t, ht, hobs⟩ := Machine.run_observe hlate
  rw [Prod.mk.injEq] at hobs
  exact ⟨s, t, hs, hread, by decide, ht, hobs.1, hobs.2, by decide⟩

end LocalSend.Persistence.MemoryCache
