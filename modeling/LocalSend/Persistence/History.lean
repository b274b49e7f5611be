/-
  File:      LocalSend/Persistence/History.lean
  Subject:   THE HISTORY OF RECEIVED FILES (`receive_history_provider.dart`).

  The three actions of the provider as reducers over a list that is kept in memory and written to
  the storage; the newest entry is the first one. Each upload that finishes adds an entry, and the
  user removes entries meanwhile.

  * `historyReducer` -- the actions; `receiveHistory` -- the provider with its suspended runs;
  * `saving` -- additions with saving enabled, and removals of entries that are there;
  * `entry_stays` -- one action moves an entry by at most one place, unless it removes it;
  * **`no_lost_entry`** -- if no run starts while another one is suspended, what is added stays
    until it is removed or thirty newer entries are there, and the storage holds the same list;
  * **`overlapping_adds`** -- of two additions that overlap, one is lost (`added_entry_lost`).
-/
import LocalSend.Common.Device
import LocalSend.Lib.Reducers

namespace LocalSend.Persistence

open Lib Lib.Reducer

/-! ## 1. The actions -/

structure ReceiveHistoryEntry where
  id : String
  fileName : String
  fileType : FileType
  path : Option String
  savedToGallery : Bool
  isMessage : Bool
  fileSize : Int
  senderAlias : String
  /-- microseconds since the epoch, in UTC -/
  timestamp : Int
  deriving DecidableEq, Repr

def maxHistoryEntries : Nat := 30

inductive HistoryAction where
  /-- `AddHistoryEntryAction`, with what `isSaveToHistory` returns -/
  | add (isSaveToHistory : Bool) (entry : ReceiveHistoryEntry)
  /-- `RemoveHistoryEntryAction` -/
  | remove (entryId : String)
  /-- `RemoveAllHistoryEntriesAction` -/
  | removeAll
  deriving DecidableEq, Repr

/-- The index of the first entry with an id. -/
def entryIndex (entryId : String) (state : List ReceiveHistoryEntry) : Option Nat :=
  state.findIdx? fun e => e.id = entryId

def reduceHistory : HistoryAction → List ReceiveHistoryEntry → Outcome (List ReceiveHistoryEntry)
  | .add isSaveToHistory entry, state =>
    if isSaveToHistory then .save ((entry :: state).take maxHistoryEntries) else .keep
  | .remove entryId, state =>
    match entryIndex entryId state with
    | none => .keep
    | some index => .save (state.eraseIdx index)
  | .removeAll, _ => .save []

def historyReducer : Reducer (List ReceiveHistoryEntry) HistoryAction := ⟨reduceHistory⟩

abbrev HistoryStore : Type := Store (List ReceiveHistoryEntry)
abbrev HistoryEvent : Type := Reducer.Event HistoryAction

/-- **The provider with its suspended actions.** -/
def receiveHistory : Machine HistoryStore HistoryEvent := historyReducer.machine

/-! ## 2. Where an entry is -/

/-- Additions with saving enabled, and removals of entries that are there. -/
def saving (s : HistoryStore) : HistoryEvent → Prop
  | .start (.add isSaveToHistory _) => isSaveToHistory = true
  | .start (.remove entryId) => (entryIndex entryId s.memory).isSome = true
  | .start .removeAll => False
  | _ => True

instance (s : HistoryStore) : (e : HistoryEvent) → Decidable (saving s e)
  | .start (.add _ _) => inferInstanceAs (Decidable (_ = true))
  | .start (.remove _) => inferInstanceAs (Decidable (_ = true))
  | .start .removeAll => .isFalse id
  | .write _ | .wake _ | .install _ => .isTrue trivial

/-- An action is started that takes `entry` out of the history it reads. -/
def removes (entry : ReceiveHistoryEntry) (s : HistoryStore) (e : HistoryEvent)
    (_ : HistoryStore) : Prop :=
  ∃ entryId index, e = .start (.remove entryId) ∧ entryIndex entryId s.memory = some index ∧
    s.memory[index]? = some entry

/-- An addition is started. -/
def isAdd : HistoryEvent → Bool
  | .start (.add _ _) => true
  | _ => false

variable {x l : List ReceiveHistoryEntry} {s t u : HistoryStore} {e : HistoryEvent}
  {es pre post : List HistoryEvent} {entry : ReceiveHistoryEntry} {k n : Nat}

theorem added_first : (historyReducer.effect (.add true entry) l)[0]? = some entry := rfl

/-- An addition moves every entry one place on, and lets go of the thirtieth. -/
theorem effect_add_getElem? (newer : ReceiveHistoryEntry) (h : l[k]? = some entry)
    (hk : k + 1 < maxHistoryEntries) :
    (historyReducer.effect (.add true newer) l)[k + 1]? = some entry := by
  show ((newer :: l).take maxHistoryEntries)[k + 1]? = some entry
  rw [List.getElem?_take, if_pos hk, List.getElem?_cons_succ]
  exact h

/-- The other entries stay where they are, or move one place up. -/
theorem getElem?_eraseIdx_other {i : Nat} (h : l[k]? = some entry) (hi : i ≠ k) :
    ∃ k' ≤ k, (l.eraseIdx i)[k']? = some entry := by
  by_cases hlt : k < i
  · refine ⟨k, Nat.le_refl k, ?_⟩
    rw [List.getElem?_eraseIdx, if_pos hlt]
    exact h
  · obtain ⟨k', rfl⟩ : ∃ k', k = k' + 1 := ⟨k - 1, by omega⟩
    refine ⟨k', Nat.le_succ k', ?_⟩
    rw [List.getElem?_eraseIdx, if_neg (by omega)]
    exact h

/-- The number of additions. -/
def additions (es : List HistoryEvent) : Nat := es.countP isAdd

/-- **One step and one entry**: the entry at place `k` of what the actions leave is taken out, is
    pushed out by newer ones, or stays behind at most one more entry for each addition. -/
theorem entry_stays (h : Serially l s) (hg : saving s e ∧ serial s e) (hk : l[k]? = some entry)
    (hkn : k ≤ n) :
    removes entry s e t ∨ maxHistoryEntries ≤ n + additions [e] ∨
      ∃ k' ≤ n + additions [e], (historyReducer.advance l e)[k']? = some entry := by
  obtain ⟨hsaving, hserial⟩ := hg
  cases e with
  | start a =>
      obtain rfl := h.memory_of_start hserial
      cases a with
      | add isSaveToHistory newer =>
          obtain rfl : isSaveToHistory = true := hsaving
          have hcount : additions [.start (.add true newer)] = 1 := rfl
          rw [hcount]
          by_cases hroom : k + 1 < maxHistoryEntries
          · exact .inr (.inr ⟨k + 1, by omega, effect_add_getElem? newer hk hroom⟩)
          · exact .inr (.inl (by omega))
      | remove entryId =>
          obtain ⟨index, hindex⟩ := Option.isSome_iff_exists.mp hsaving
          by_cases hne : index = k
          · subst hne
            exact .inl ⟨entryId, index, rfl, hindex, hk⟩
          · obtain ⟨k', hle, hk'⟩ := getElem?_eraseIdx_other hk hne
            have heffect : historyReducer.advance l (.start (.remove entryId)) =
                l.eraseIdx index := by
              simp only [historyReducer, Reducer.advance, Reducer.effect, reduceHistory]
              rw [show entryIndex entryId l = some index from hindex]
            rw [heffect]
            exact .inr (.inr ⟨k', by omega, hk'⟩)
      | removeAll => exact absurd hsaving id
  | write i | wake i | install i => exact .inr (.inr ⟨k, by omega, hk⟩)

/-! ## 3. No entry is lost -/

/-- Saving is enabled, and no action starts while another one is suspended. -/
def calm (s : HistoryStore) (e : HistoryEvent) : Prop := saving s e ∧ serial s e

instance (s : HistoryStore) (e : HistoryEvent) : Decidable (calm s e) :=
  inferInstanceAs (Decidable (_ ∧ _))

theorem serially_run (hr : receiveHistory.Run calm s es t) (h : Serially l s) :
    Serially (historyReducer.applied l es) t :=
  hr.traceInvariant (I := fun es s => Serially (historyReducer.applied l es) s) h
    fun es t e u ht hg hs => by
      rw [applied_snoc]
      exact ht.step hg.2 hs

/-- **A run and one entry.** -/
theorem entry_stays_run (hr : receiveHistory.Run calm s es t) (h : Serially l s)
    (hk : l[k]? = some entry) :
    receiveHistory.Past (removes entry) s es ∨ maxHistoryEntries ≤ k + additions es ∨
      ∃ k' ≤ k + additions es, (historyReducer.applied l es)[k']? = some entry := by
  induction hr with
  | start => exact .inr (.inr ⟨k, Nat.le_refl k, hk⟩)
  | step es e t u hr hg hs ih =>
      have hcount : k + additions (es ++ [e]) = k + additions es + additions [e] := by
        simp only [additions, List.countP_append]
        omega
      rw [hr.past_snoc hs, applied_snoc, hcount]
      rcases ih with hpast | hfull | ⟨k', hle, hk'⟩
      · exact .inl (.inl hpast)
      · exact .inr (.inl (by omega))
      · rcases entry_stays (t := u) (serially_run hr h) hg hk' hle with hremoves | hstays
        · exact .inl (.inr hremoves)
        · exact .inr hstays

/-- What a settled run holds of an entry that was at place `k`. -/
theorem entry_kept (hr : receiveHistory.Run calm s es t) (h : Serially l s) (ht : t.runs = [])
    (hk : l[k]? = some entry) :
    entry ∈ t.memory ∨ receiveHistory.Past (removes entry) s es ∨
      maxHistoryEntries ≤ k + additions es := by
  have hmemory := ((serially_run hr h).settled ht).1
  rcases entry_stays_run hr h hk with hpast | hfull | ⟨k', -, hk'⟩
  · exact .inr (.inl hpast)
  · exact .inr (.inr hfull)
  · rw [← hmemory] at hk'
    exact .inl (List.mem_of_getElem? hk')

/-- **No entry is lost.** Saving is enabled, removals are of entries that are there, and no action
    starts while another one is suspended. Once none is suspended, the storage holds the history
    of the memory, and an entry that was there or was added is in it, unless an action took it out
    or thirty newer entries are there. -/
theorem no_lost_entry (hr : receiveHistory.Run calm (Store.start x) es s) (hs : s.runs = []) :
    s.disk = s.memory ∧
    (∀ k entry, x[k]? = some entry → entry ∈ s.memory ∨
      receiveHistory.Past (removes entry) (Store.start x) es ∨
      maxHistoryEntries ≤ k + additions es) ∧
    ∀ pre entry post t, es = pre ++ [.start (.add true entry)] ++ post →
      receiveHistory.run (Store.start x) (pre ++ [.start (.add true entry)]) = some t →
      entry ∈ s.memory ∨ receiveHistory.Past (removes entry) t post ∨
        maxHistoryEntries ≤ additions post := by
  obtain ⟨hmemory, hdisk⟩ := (serially_run hr .idle).settled hs
  refine ⟨hdisk.trans hmemory.symm, fun k entry hk => entry_kept hr .idle hs hk, ?_⟩
  intro pre entry post t hes ht
  rw [hes] at hr
  obtain ⟨u, hu, hpost⟩ := hr.split
  obtain rfl : t = u := Option.some.inj (ht.symm.trans hu.run_eq)
  have hfirst : (historyReducer.applied x (pre ++ [.start (.add true entry)]))[0]? =
      some entry := by
    rw [applied_snoc]
    exact added_first
  have hkept := entry_kept hpost (serially_run hu .idle) hs hfirst
  rwa [Nat.zero_add] at hkept

def demoEntry (id fileName : String) : ReceiveHistoryEntry :=
  ⟨id, fileName, .other, none, false, false, 1, "sender", 0⟩

/-- Two additions, one after the other, and the removal of the first entry. -/
def calmRun : List HistoryEvent :=
  [.start (.add true (demoEntry "1" "a")), .write 0, .install 0,
    .start (.add true (demoEntry "2" "b")), .write 0, .install 0,
    .start (.remove "1"), .write 0, .install 0]

/-- Two uploads finish together: the second addition starts while the first one is saved. -/
def togetherRun : List HistoryEvent :=
  [.start (.add true (demoEntry "1" "a")), .start (.add true (demoEntry "2" "b")),
    .write 0, .write 1, .install 0, .install 0]

theorem no_lost_entry_calmRun :
    ∃ s, receiveHistory.Run calm (Store.start []) calmRun s ∧ s.disk = s.memory ∧
      s.memory = [demoEntry "2" "b"] := by
  have hrun : ((receiveHistory.guarded calm).run (Store.start []) calmRun).map
      (fun s => (s.runs, s.memory)) = some ([], [demoEntry "2" "b"]) := by decide
  obtain ⟨s, hs, hobs⟩ := Machine.run_observe_guarded hrun
  simp only [Prod.mk.injEq] at hobs
  exact ⟨s, hs, (no_lost_entry hs hobs.1).1, hobs.2⟩

/-- **An entry is lost**: of two additions that overlap, the one that is installed first. Nothing
    is removed, and one entry is newer. -/
theorem added_entry_lost :
    ∃ s, receiveHistory.Run saving (Store.start []) togetherRun s ∧ s.runs = [] ∧
      (∀ entryId, .start (.remove entryId) ∉ togetherRun) ∧ additions togetherRun = 2 ∧
      s.memory = [demoEntry "2" "b"] := by
  have hrun : ((receiveHistory.guarded saving).run (Store.start []) togetherRun).map
      (fun s => (s.runs, s.memory)) = some ([], [demoEntry "2" "b"]) := by decide
  obtain ⟨s, hs, hobs⟩ := Machine.run_observe_guarded hrun
  simp only [Prod.mk.injEq] at hobs
  exact ⟨s, hs, hobs.1, by simp [togetherRun], by decide, hobs.2⟩

/-! ## 4. Two additions that overlap -/

/-- **Of two additions that overlap, one is lost**, whatever the order of their writes and
    installations: the history ends without one of the two entries. -/
theorem overlapping_adds {newer : ReceiveHistoryEntry} {disk : List ReceiveHistoryEntry}
    (hentry : entry ∉ l) (hnewer : newer ∉ l) (hne : entry ≠ newer)
    (ht : receiveHistory.run ⟨l, disk, []⟩
      [.start (.add true entry), .start (.add true newer)] = some t)
    (hr : receiveHistory.Run noStart t es s) (hs : s.runs = []) :
    entry ∉ s.memory ∨ newer ∉ s.memory := by
  obtain rfl := Option.some.inj ht
  have hother : ∀ {a b : ReceiveHistoryEntry}, a ∉ l → a ≠ b →
      a ∉ (b :: l).take maxHistoryEntries := by
    intro a b ha hab hmem
    rcases List.mem_cons.mp (List.mem_of_mem_take hmem) with h | h
    · exact hab h
    · exact ha h
  rcases overlap hr hs with h | h
  · exact .inr (h ▸ hother hnewer hne.symm)
  · exact .inl (h ▸ hother hentry hne)

end LocalSend.Persistence
