/-
  File:      LocalSend/Persistence/BatchedWrites.lean
  Subject:   BATCHED WRITES of preferences (`_queueWrite`, `_flushWrites` and `flush` of
             `persistence_provider.dart`).

  A queued write replaces the queued ones of its key. A flush takes the whole queue and writes one
  preference after another, with an await for each; a second flush may start meanwhile.

  * `PersistenceService`, `Event`, `step` -- the machine, one step for each piece between two
    awaits (`batching`);
  * `PersistenceService.eventual` -- the preferences once everything taken and queued is written in
    the order of the flushes;
  * `overtakes`, `inOrder` -- a write that takes effect before an older one of its key;
  * `step_eventual` -- steps in order only change this by what is queued;
  * **`last_write_kept`** -- if no write overtakes an older one of its key, a flush that nothing is
    queued after leaves each key as the last queued write of it says, and nothing queued is lost.
    `older_write_wins`: a write overtakes, and the older one overwrites it.
-/
import LocalSend.Lib.KeyedWrites
import LocalSend.Lib.Machine

namespace LocalSend.Persistence.BatchedWrites

open Lib Lib.KeyedWrite

/-! ## 1. The queue and the flushes -/

/-- A value of a preference; a double is given by its bits. -/
inductive PrefValue where
  | string (value : String)
  | int (value : Int)
  | double (bits : UInt64)
  | bool (value : Bool)
  | stringList (value : List String)
  deriving DecidableEq, Repr

/-- A write of a key; one without a value removes it. -/
abbrev PendingWrite : Type := KeyedWrite String (Option PrefValue)

/-- A run of `_flushWrites` at an await: the write it waits for and the later ones, and whether
    that write has taken effect. -/
structure FlushRun where
  writes : List PendingWrite
  stored : Bool
  deriving DecidableEq, Repr

structure PersistenceService where
  pendingWrites : List PendingWrite
  /-- a key may be cached with null -/
  memoryCache : String → Option (Option PrefValue)
  /-- the timer is active -/
  flushTimer : Bool
  /-- the suspended runs of `_flushWrites`, oldest first -/
  flushes : List FlushRun
  /-- what the preferences hold -/
  prefs : String → Option PrefValue

def PersistenceService.start (prefs : String → Option PrefValue) : PersistenceService where
  pendingWrites := []
  memoryCache _ := none
  flushTimer := false
  flushes := []
  prefs := prefs

inductive Event where
  | queue (write : PendingWrite)
  /-- the timer fires -/
  | timer
  | flush
  /-- the write the `i`-th run waits for takes effect -/
  | store (i : Nat)
  /-- the await of the `i`-th run completes -/
  | resume (i : Nat)
  deriving DecidableEq, Repr

def queueString (key value : String) : Event := .queue ⟨key, some (.string value)⟩

def queueInt (key : String) (value : Int) : Event := .queue ⟨key, some (.int value)⟩

def queueDouble (key : String) (bits : UInt64) : Event := .queue ⟨key, some (.double bits)⟩

def queueBool (key : String) (value : Bool) : Event := .queue ⟨key, some (.bool value)⟩

def queueStringList (key : String) (value : List String) : Event :=
  .queue ⟨key, some (.stringList value)⟩

def queueRemove (key : String) : Event := .queue ⟨key, none⟩

def queueWrite (s : PersistenceService) (write : PendingWrite) : PersistenceService :=
  { s with
    memoryCache := Function.update s.memoryCache write.key (write.value.map some)
    pendingWrites := (s.pendingWrites.filter fun w => w.key ≠ write.key) ++ [write]
    flushTimer := true }

/-- `_flushWrites` up to its first await. -/
def flushWrites (s : PersistenceService) : PersistenceService :=
  if s.pendingWrites.isEmpty then s
  else { s with
    flushes := s.flushes ++ [⟨s.pendingWrites, false⟩]
    pendingWrites := [] }

def step (s : PersistenceService) : Event → Option PersistenceService
  | .queue write => some (queueWrite s write)
  | .timer =>
    if s.flushTimer then some (flushWrites { s with flushTimer := false }) else none
  | .flush => some (flushWrites { s with flushTimer := false })
  | .store i =>
    match s.flushes[i]? with
    | some ⟨write :: writes, false⟩ => some { s with
        prefs := apply s.prefs write
        flushes := s.flushes.set i ⟨write :: writes, true⟩ }
    | _ => none
  | .resume i =>
    match s.flushes[i]? with
    | some ⟨[_], true⟩ => some { s with flushes := s.flushes.eraseIdx i }
    | some ⟨_ :: write :: writes, true⟩ => some { s with
        flushes := s.flushes.set i ⟨write :: writes, false⟩ }
    | _ => none

/-- **The preferences with the queue and the suspended flushes.** -/
def batching : Machine PersistenceService Event := ⟨step⟩

/-! ## 2. What is not written yet -/

/-- The writes of a run that have not taken effect. -/
def FlushRun.unstored (run : FlushRun) : List PendingWrite :=
  if run.stored then run.writes.tail else run.writes

/-- The writes that have not taken effect: of the flushes, and then of the queue. -/
def PersistenceService.unstored (s : PersistenceService) : List PendingWrite :=
  s.flushes.flatMap FlushRun.unstored ++ s.pendingWrites

/-- **The preferences in the end**, if the writes take effect in this order. -/
def PersistenceService.eventual (s : PersistenceService) : String → Option PrefValue :=
  applyWrites s.prefs s.unstored

def Event.queued : Event → Option PendingWrite
  | .queue write => some write
  | _ => none

/-- The writes that were queued. -/
def queuedIn (es : List Event) : List PendingWrite := es.filterMap Event.queued

/-- The write that run `i` waits for is of a key that an older run has a write of. -/
def overtakes (flushes : List FlushRun) (i : Nat) : Bool :=
  match flushes[i]? with
  | some run => run.unstored.head?.any fun w =>
      (flushes.take i).any fun older => older.unstored.any fun w' => w'.key = w.key
  | none => false

/-- No write takes effect before an older one of its key. -/
def inOrder (s : PersistenceService) : Event → Prop
  | .store i => overtakes s.flushes i = false
  | _ => True

instance (s : PersistenceService) : (e : Event) → Decidable (inOrder s e)
  | .store _ => inferInstanceAs (Decidable (_ = false))
  | .queue _ | .timer | .flush | .resume _ => .isTrue trivial

variable {s t u : PersistenceService} {e : Event} {es pre post : List Event} {i : Nat}

/-! ## 3. One step -/

theorem flushWrites_prefs : (flushWrites s).prefs = s.prefs := by
  unfold flushWrites
  split <;> rfl

/-- A flush moves the queue to the runs. -/
theorem flushWrites_unstored : (flushWrites s).unstored = s.unstored := by
  unfold flushWrites
  split
  · rfl
  · simp [PersistenceService.unstored, FlushRun.unstored]

/-- The runs around the `i`-th one, and the list with that run changed or taken out. -/
theorem flushes_split {flushes : List FlushRun} {run : FlushRun} (h : flushes[i]? = some run) :
    flushes = flushes.take i ++ run :: flushes.drop (i + 1) ∧
    (∀ run', flushes.set i run' = flushes.take i ++ run' :: flushes.drop (i + 1)) ∧
    flushes.eraseIdx i = flushes.take i ++ flushes.drop (i + 1) := by
  obtain ⟨hlt, hrun⟩ := List.getElem?_eq_some_iff.mp h
  refine ⟨?_, fun run' => ?_, List.eraseIdx_eq_take_drop_succ _ _⟩
  · rw [← hrun, List.getElem_cons_drop hlt, List.take_append_drop]
  · rw [List.set_eq_take_append_cons_drop, if_pos hlt]

/-- What a write that takes effect changes. -/
theorem store_inv (h : batching.step s (.store i) = some t) :
    ∃ write writes later, s.flushes[i]? = some ⟨write :: writes, false⟩ ∧
      s.flushes = s.flushes.take i ++ ⟨write :: writes, false⟩ :: later ∧
      t = { s with
        prefs := apply s.prefs write
        flushes := s.flushes.take i ++ ⟨write :: writes, true⟩ :: later } := by
  change step s (.store i) = some t at h
  simp only [step] at h
  split at h
  · rename_i write writes hrun
    obtain rfl := Option.some.inj h
    obtain ⟨hsplit, hset, -⟩ := flushes_split hrun
    refine ⟨write, writes, _, hrun, hsplit, ?_⟩
    rw [hset]
  · cases h

/-- A run goes on with its next write, or ends. -/
theorem resume_inv (h : batching.step s (.resume i) = some t) :
    ∃ write writes later, s.flushes = s.flushes.take i ++ ⟨write :: writes, true⟩ :: later ∧
      (writes = [] ∧ t = { s with flushes := s.flushes.take i ++ later } ∨
        t = { s with flushes := s.flushes.take i ++ ⟨writes, false⟩ :: later }) := by
  change step s (.resume i) = some t at h
  simp only [step] at h
  split at h
  · rename_i write hrun
    obtain rfl := Option.some.inj h
    obtain ⟨hsplit, -, herase⟩ := flushes_split hrun
    refine ⟨write, [], _, hsplit, .inl ⟨rfl, ?_⟩⟩
    rw [herase]
  · rename_i first write writes hrun
    obtain rfl := Option.some.inj h
    obtain ⟨hsplit, hset, -⟩ := flushes_split hrun
    refine ⟨first, write :: writes, _, hsplit, .inr ?_⟩
    rw [hset]
  · cases h

/-- A run that goes on has the same writes left. -/
theorem resume_unstored (h : batching.step s (.resume i) = some t) :
    t.prefs = s.prefs ∧ t.unstored = s.unstored := by
  obtain ⟨write, writes, later, hsplit, ⟨rfl, rfl⟩ | rfl⟩ := resume_inv h
  · refine ⟨rfl, ?_⟩
    simp only [PersistenceService.unstored]
    conv_rhs => rw [hsplit]
    simp [FlushRun.unstored]
  · refine ⟨rfl, ?_⟩
    simp only [PersistenceService.unstored]
    conv_rhs => rw [hsplit]
    simp [FlushRun.unstored]

/-- The writes around the one that takes effect. -/
theorem store_unstored (h : batching.step s (.store i) = some t) :
    ∃ write before later, s.unstored = before ++ write :: later ∧
      t.unstored = before ++ later ∧ t.prefs = apply s.prefs write ∧
      (∃ run, s.flushes[i]? = some run ∧ run.unstored.head? = some write) ∧
      before = (s.flushes.take i).flatMap FlushRun.unstored := by
  obtain ⟨write, writes, later, hrun, hsplit, rfl⟩ := store_inv h
  refine ⟨write, (s.flushes.take i).flatMap FlushRun.unstored,
    writes ++ later.flatMap FlushRun.unstored ++ s.pendingWrites, ?_, ?_, rfl,
    ⟨_, hrun, rfl⟩, rfl⟩
  · rw [PersistenceService.unstored]
    conv_lhs => rw [hsplit]
    simp [FlushRun.unstored]
  · simp [PersistenceService.unstored, FlushRun.unstored]

/-- **One step and the end**: in order, a step only adds what it queues. -/
theorem step_eventual (hg : inOrder s e) (h : batching.step s e = some t) :
    t.eventual = applyWrites s.eventual e.queued.toList := by
  cases e with
  | queue write =>
      obtain rfl := Option.some.inj h
      show applyWrites s.prefs (_ ++ (others write.key s.pendingWrites ++ [write])) =
        apply s.eventual write
      rw [applyWrites_append, applyWrites_replace, ← applyWrites_append]
      rfl
  | timer =>
      change step s .timer = some t at h
      simp only [step] at h
      split at h
      · obtain rfl := Option.some.inj h
        rw [PersistenceService.eventual, flushWrites_prefs, flushWrites_unstored]
        rfl
      · cases h
  | flush =>
      obtain rfl := Option.some.inj h
      rw [PersistenceService.eventual, flushWrites_prefs, flushWrites_unstored]
      rfl
  | resume i =>
      obtain ⟨hprefs, hunstored⟩ := resume_unstored h
      rw [PersistenceService.eventual, hprefs, hunstored]
      rfl
  | store i =>
      obtain ⟨write, before, later, hbefore, hafter, hprefs, ⟨run, hrun, hhead⟩, hflushes⟩ :=
        store_unstored h
      have hkeys : ∀ w' ∈ before, w'.key ≠ write.key := by
        intro w' hw' hkey
        rw [hflushes] at hw'
        obtain ⟨older, holder, hw'⟩ := List.mem_flatMap.mp hw'
        have hovertakes : overtakes s.flushes i = true := by
          simp only [overtakes, hrun, hhead, Option.any_some, List.any_eq_true, decide_eq_true_eq]
          exact ⟨older, holder, w', hw', hkey⟩
        have hnot : overtakes s.flushes i = false := hg
        rw [hovertakes] at hnot
        cases hnot
      rw [PersistenceService.eventual, hafter, hprefs, applyWrites_first hkeys, ← hbefore]
      rfl

/-! ## 4. Every queued write -/

/-- The write takes effect. -/
def stores (write : PendingWrite) (s : PersistenceService) (e : Event)
    (_ : PersistenceService) : Prop :=
  ∃ i run, e = .store i ∧ s.flushes[i]? = some run ∧ run.unstored.head? = some write

/-- **One step and one write** that has not taken effect: it takes effect, another one of its key
    is queued, or it is still to take effect. -/
theorem step_unstored {write : PendingWrite} (h : batching.step s e = some t)
    (hw : write ∈ s.unstored) :
    stores write s e t ∨ (∃ w', e = .queue w' ∧ w'.key = write.key) ∨ write ∈ t.unstored := by
  cases e with
  | queue w' =>
      obtain rfl := Option.some.inj h
      by_cases hkey : w'.key = write.key
      · exact .inr (.inl ⟨w', rfl, hkey⟩)
      · refine .inr (.inr ?_)
        rcases List.mem_append.mp hw with hw | hw
        · exact List.mem_append_left _ hw
        · refine List.mem_append_right _ (List.mem_append_left _ (List.mem_filter.mpr ⟨hw, ?_⟩))
          simpa using fun heq => hkey heq.symm
  | timer =>
      change step s .timer = some t at h
      simp only [step] at h
      split at h
      · obtain rfl := Option.some.inj h
        rw [flushWrites_unstored]
        exact .inr (.inr hw)
      · cases h
  | flush =>
      obtain rfl := Option.some.inj h
      rw [flushWrites_unstored]
      exact .inr (.inr hw)
  | resume i =>
      rw [(resume_unstored h).2]
      exact .inr (.inr hw)
  | store i =>
      obtain ⟨w', before, later, hbefore, hafter, -, ⟨run, hrun, hhead⟩, -⟩ := store_unstored h
      rw [hbefore] at hw
      rw [hafter]
      rcases List.mem_append.mp hw with hw | hw
      · exact .inr (.inr (List.mem_append_left _ hw))
      · rcases List.mem_cons.mp hw with rfl | hw
        · exact .inl ⟨i, run, rfl, hrun, hhead⟩
        · exact .inr (.inr (List.mem_append_right _ hw))

/-! ## 5. The last write of each key -/

variable {prefs : String → Option PrefValue}

theorem queuedIn_snoc : queuedIn (es ++ [e]) = queuedIn es ++ e.queued.toList := by
  rw [queuedIn, List.filterMap_append]
  cases hq : e.queued with
  | none => simp [queuedIn, hq]
  | some write => simp [queuedIn, hq]

/-- **A run and the end**: the queued writes, in their order. -/
theorem run_eventual (hr : batching.Run inOrder (.start prefs) es s) :
    s.eventual = applyWrites prefs (queuedIn es) := by
  refine hr.traceInvariant (I := fun es (s : PersistenceService) =>
    s.eventual = applyWrites prefs (queuedIn es)) rfl fun es t e u ht hg hs => ?_
  rw [step_eventual hg hs, ht, queuedIn_snoc, applyWrites_append]

theorem run_unstored {write : PendingWrite} (hr : batching.Run inOrder s es t)
    (hw : write ∈ s.unstored) :
    batching.Past (stores write) s es ∨ (∃ w', .queue w' ∈ es ∧ w'.key = write.key) ∨
      write ∈ t.unstored := by
  induction hr with
  | start => exact .inr (.inr hw)
  | step es e t u hr _ hs ih =>
      rw [hr.past_snoc hs]
      rcases ih with hpast | ⟨w', hin, hkey⟩ | hw
      · exact .inl (.inl hpast)
      · exact .inr (.inl ⟨w', List.mem_append_left _ hin, hkey⟩)
      · rcases step_unstored hs hw with hstores | ⟨w', rfl, hkey⟩ | hw
        · exact .inl (.inr hstores)
        · exact .inr (.inl ⟨w', List.mem_append_right _ List.mem_cons_self, hkey⟩)
        · exact .inr (.inr hw)

/-- Nothing comes into the queue unless it is queued. -/
theorem pendingWrites_step (h : batching.step s e = some t) (hs : s.pendingWrites = [])
    (hq : ∀ write, e ≠ .queue write) : t.pendingWrites = [] := by
  have hflush : ∀ s : PersistenceService, s.pendingWrites = [] →
      (flushWrites s).pendingWrites = [] := by
    intro s hs
    rw [flushWrites, hs]
    exact hs
  cases e with
  | queue write => exact absurd rfl (hq write)
  | timer =>
      change step s .timer = some t at h
      simp only [step] at h
      split at h
      · obtain rfl := Option.some.inj h
        exact hflush _ hs
      · cases h
  | flush =>
      obtain rfl := Option.some.inj h
      exact hflush _ hs
  | store i =>
      obtain ⟨-, -, -, -, -, rfl⟩ := store_inv h
      exact hs
  | resume i =>
      obtain ⟨-, -, -, -, ⟨-, rfl⟩ | rfl⟩ := resume_inv h
      · exact hs
      · exact hs

theorem pendingWrites_run (hr : batching.Run inOrder s es t) (hs : s.pendingWrites = [])
    (hq : ∀ write, .queue write ∉ es) : t.pendingWrites = [] := by
  induction hr with
  | start => exact hs
  | step es e t u _ _ hstep ih =>
      refine pendingWrites_step hstep (ih fun write h => hq write (List.mem_append_left _ h)) ?_
      rintro write rfl
      exact hq write (List.mem_append_right _ List.mem_cons_self)

theorem flush_pendingWrites (h : batching.step s .flush = some t) : t.pendingWrites = [] := by
  obtain rfl := Option.some.inj h
  unfold flushWrites
  split
  · rename_i hempty
    exact List.isEmpty_iff.mp hempty
  · rfl

/-- **The last write of each key is kept.** No write takes effect before an older one of its key.
    After a flush that nothing is queued after, once every run has ended, each key holds what the
    last queued write of it says; and each queued write took effect, unless another one of its key
    was queued later. -/
theorem last_write_kept (hr : batching.Run inOrder (.start prefs) es s)
    (hes : es = pre ++ [.flush] ++ post) (hpost : ∀ write, .queue write ∉ post)
    (hdone : s.flushes = []) :
    (∀ key, s.prefs key =
      ((lastOf key (queuedIn es)).map KeyedWrite.value).getD (prefs key)) ∧
    ∀ before write later t, es = before ++ [.queue write] ++ later →
      batching.run (.start prefs) (before ++ [.queue write]) = some t →
      batching.Past (stores write) t later ∨
        ∃ w', .queue w' ∈ later ∧ w'.key = write.key := by
  have hpending : s.pendingWrites = [] := by
    rw [hes] at hr
    obtain ⟨u, hu, hlast⟩ := hr.split
    obtain ⟨v, -, -, hflush⟩ := hu.last
    exact pendingWrites_run hlast (flush_pendingWrites hflush) hpost
  have hunstored : s.unstored = [] := by
    rw [PersistenceService.unstored, hdone, hpending]
    rfl
  constructor
  · intro key
    have heventual := run_eventual hr
    rw [PersistenceService.eventual, hunstored, applyWrites_nil] at heventual
    rw [heventual, applyWrites_apply]
  · intro before write later t hes' ht
    rw [hes'] at hr
    obtain ⟨u, hu, hlater⟩ := hr.split
    obtain rfl : t = u := Option.some.inj (ht.symm.trans hu.run_eq)
    obtain ⟨v, -, -, hqueue⟩ := hu.last
    obtain rfl := Option.some.inj hqueue
    have hqueued : write ∈ (queueWrite v write).unstored :=
      List.mem_append_right _ (List.mem_append_right _ List.mem_cons_self)
    rcases run_unstored hlater hqueued with hpast | hin | hw
    · exact .inl hpast
    · exact .inr hin
    · rw [hunstored] at hw
      cases hw

def demoWrite (key value : String) : PendingWrite := ⟨key, some (.string value)⟩

/-- Two flushes that overlap, each of another key. -/
def orderedRun : List Event :=
  [queueString "a" "1", .timer, queueString "b" "2", .flush, .store 1, .resume 1, .store 0,
    .resume 0]

/-- A flush waits for "a" with "k" after it. A second flush writes "k" again meanwhile. -/
def overtakingRun : List Event :=
  [queueString "a" "1", queueString "k" "old", .timer, queueString "k" "new", .flush, .store 1,
    .resume 1, .store 0, .resume 0, .store 0, .resume 0]

theorem last_write_kept_orderedRun :
    ∃ s, batching.Run inOrder (.start fun _ => none) orderedRun s ∧ s.flushes = [] ∧
      s.prefs "a" = some (.string "1") ∧ s.prefs "b" = some (.string "2") := by
  have hrun : ((batching.guarded inOrder).run (.start fun _ => none) orderedRun).map
      PersistenceService.flushes = some [] := by decide
  obtain ⟨s, hs, hdone⟩ := Machine.run_observe_guarded hrun
  have hsplit : orderedRun = [queueString "a" "1", .timer, queueString "b" "2"] ++ [.flush] ++
      [.store 1, .resume 1, .store 0, .resume 0] := rfl
  have hkept := (last_write_kept hs hsplit (by simp) hdone).1
  exact ⟨s, hs, hdone, hkept "a", hkept "b"⟩

/-- **The older write wins**: the newer one takes effect before it. Nothing is queued after the
    flush, and every run has ended. -/
theorem older_write_wins :
    ∃ s, batching.Run Machine.anyStep (.start fun _ => none) overtakingRun s ∧ s.flushes = [] ∧
      s.pendingWrites = [] ∧ lastOf "k" (queuedIn overtakingRun) = some (demoWrite "k" "new") ∧
      s.prefs "k" = some (.string "old") := by
  have hrun : (batching.run (.start fun _ => none) overtakingRun).map
      (fun s => (s.flushes, s.pendingWrites, s.prefs "k")) =
      some ([], [], some (.string "old")) := by decide
  obtain ⟨s, hs, hobs⟩ := Machine.run_observe hrun
  simp only [Prod.mk.injEq] at hobs
  exact ⟨s, hs, hobs.1, hobs.2.1, by decide, hobs.2.2⟩

end LocalSend.Persistence.BatchedWrites
