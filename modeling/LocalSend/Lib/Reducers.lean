/-
  File:      LocalSend/Lib/Reducers.lean
  Subject:   ASYNCHRONOUS REDUCERS over a value that is kept in memory and in a storage; nothing
             here names a program.

  A reducer computes the next value from the one in memory, waits for the storage, and installs
  what it computed. Nothing keeps two reducers from being suspended at once.

  * `Outcome`, `Reducer` -- the code of a reducer up to its first await;
  * `Store`, `Event`, `Reducer.machine` -- the machine, one step for each piece between two awaits;
  * `Reducer.applied` -- the value if every action were atomic, in the order of the starts;
  * **`Serially.step`** -- if no run starts while another one is suspended, memory and storage are
    that value whenever nothing is suspended (`Serially.settled`);
  * **`overlap`** -- if a run starts while another one is suspended, and no third, the memory ends
    as one of the two left it, without what the other one did.
-/
import LocalSend.Lib.Machine

namespace LocalSend.Lib

/-! ## 1. The machine -/

/-- What a reducer does up to its first await. -/
inductive Outcome (α : Type) where
  /-- it writes `next` to the storage and then returns it -/
  | save (next : α)
  /-- it returns the state as it is -/
  | keep
  /-- it lets others run once and then returns the state as it is by then -/
  | rest
  deriving DecidableEq, Repr

/-- The reducers of a store: what each action does with the value in memory. -/
structure Reducer (α ι : Type) where
  reduce : ι → α → Outcome α

namespace Reducer

/-- Where a suspended run stands. -/
inductive Phase (α : Type) where
  /-- it waits for the storage, where its value has not arrived -/
  | saving (next : α)
  /-- it waits for the storage, where its value has arrived -/
  | stored (next : α)
  /-- it lets others run -/
  | resting
  /-- it has returned, the store has not installed the value -/
  | returning (next : α)
  deriving DecidableEq, Repr

/-- The value in memory, the value in the storage, and the suspended runs, oldest first. -/
structure Store (α : Type) where
  memory : α
  disk : α
  runs : List (Phase α)
  deriving DecidableEq, Repr

/-- Memory as it was read from the storage. -/
def Store.start (x : α) : Store α := ⟨x, x, []⟩

/-- A run starts, or the `i`-th suspended one goes on. -/
inductive Event (ι : Type) where
  | start (a : ι)
  | write (i : Nat)
  | wake (i : Nat)
  | install (i : Nat)
  deriving DecidableEq, Repr

variable {α ι : Type} (R : Reducer α ι)

def beginRun (x : α) : Outcome α → Phase α
  | .save next => .saving next
  | .keep => .returning x
  | .rest => .resting

def step (s : Store α) : Event ι → Option (Store α)
  | .start a => some { s with runs := s.runs ++ [beginRun s.memory (R.reduce a s.memory)] }
  | .write i =>
    match s.runs[i]? with
    | some (.saving next) => some { s with disk := next, runs := s.runs.set i (.stored next) }
    | _ => none
  | .wake i =>
    match s.runs[i]? with
    | some .resting => some { s with runs := s.runs.set i (.returning s.memory) }
    | _ => none
  | .install i =>
    match s.runs[i]? with
    | some (.stored next) => some { s with memory := next, runs := s.runs.eraseIdx i }
    | some (.returning next) => some { s with memory := next, runs := s.runs.eraseIdx i }
    | _ => none

/-- **The store with its reducers.** -/
def machine : Machine (Store α) (Event ι) := ⟨R.step⟩

/-! ## 2. Runs one after another -/

/-- What an action does in one piece. -/
def effect (a : ι) (x : α) : α :=
  match R.reduce a x with
  | .save next => next
  | _ => x

/-- What an event adds to the value, with every action in one piece at its start. -/
def advance (x : α) : Event ι → α
  | .start a => R.effect a x
  | _ => x

/-- **The value after the actions, one after another**, in the order of their starts. -/
def applied (x : α) (es : List (Event ι)) : α := es.foldl R.advance x

/-- No run starts while another one is suspended. -/
def serial (s : Store α) : Event ι → Prop
  | .start _ => s.runs.isEmpty = true
  | _ => True

instance (s : Store α) : (e : Event ι) → Decidable (serial s e)
  | .start _ => inferInstanceAs (Decidable (_ = true))
  | .write _ => .isTrue trivial
  | .wake _ => .isTrue trivial
  | .install _ => .isTrue trivial

/-- **At most one run is suspended**, and `x` is the value it leaves. -/
inductive Serially (x : α) : Store α → Prop where
  | idle : Serially x ⟨x, x, []⟩
  | saving (old : α) : Serially x ⟨old, old, [.saving x]⟩
  | stored (old : α) : Serially x ⟨old, x, [.stored x]⟩
  | resting : Serially x ⟨x, x, [.resting]⟩
  | returning : Serially x ⟨x, x, [.returning x]⟩

variable {R} {x y : α} {s t : Store α} {e : Event ι} {es : List (Event ι)}

theorem applied_snoc : R.applied x (es ++ [e]) = R.advance (R.applied x es) e := by
  simp [applied]

theorem Serially.settled (h : Serially x s) (hs : s.runs = []) : s.memory = x ∧ s.disk = x := by
  cases h with
  | idle => exact ⟨rfl, rfl⟩
  | saving | stored | resting | returning => cases hs

/-- A run starts from the value the runs before it left. -/
theorem Serially.memory_of_start (h : Serially x s) {a : ι} (hg : serial s (.start a)) :
    s = ⟨x, x, []⟩ := by
  cases h with
  | idle => rfl
  | saving | stored | resting | returning => cases hg

/-- A suspended run is the only one. -/
theorem Serially.alone (h : Serially x s) {i : Nat} {phase : Phase α}
    (hi : s.runs[i]? = some phase) : i = 0 ∧ s.runs = [phase] := by
  cases h with
  | idle => cases hi
  | saving | stored | resting | returning =>
      cases i with
      | zero => exact ⟨rfl, congrArg (fun run => [run]) (Option.some.inj hi)⟩
      | succ i => cases hi

/-- **One step keeps the runs one after another.** -/
theorem Serially.step (h : Serially x s) (hg : serial s e) (hs : R.machine.step s e = some t) :
    Serially (R.advance x e) t := by
  change R.step s e = some t at hs
  cases e with
  | start a =>
      obtain rfl := h.memory_of_start hg
      obtain rfl := Option.some.inj hs
      simp only [advance, effect]
      cases R.reduce a x with
      | save next => exact .saving x
      | keep => exact .returning
      | rest => exact .resting
  | write i =>
      simp only [Reducer.step] at hs
      split at hs
      · rename_i next hi
        obtain ⟨rfl, hruns⟩ := h.alone hi
        obtain rfl := Option.some.inj hs
        cases h with
        | saving old =>
            cases hruns
            exact .stored old
        | idle | stored | resting | returning => cases hruns
      · cases hs
  | wake i =>
      simp only [Reducer.step] at hs
      split at hs
      · rename_i hi
        obtain ⟨rfl, hruns⟩ := h.alone hi
        obtain rfl := Option.some.inj hs
        cases h with
        | resting => exact .returning
        | idle | saving | stored | returning => cases hruns
      · cases hs
  | install i =>
      simp only [Reducer.step] at hs
      split at hs
      · rename_i next hi
        obtain ⟨rfl, hruns⟩ := h.alone hi
        obtain rfl := Option.some.inj hs
        cases h with
        | stored old =>
            cases hruns
            exact .idle
        | idle | saving | resting | returning => cases hruns
      · rename_i next hi
        obtain ⟨rfl, hruns⟩ := h.alone hi
        obtain rfl := Option.some.inj hs
        cases h with
        | returning =>
            cases hruns
            exact .idle
        | idle | saving | stored | resting => cases hruns
      · cases hs

/-! ## 3. Runs that overlap -/

/-- What a run installs, if it is past its first await. -/
def Phase.next : Phase α → Option α
  | .saving next | .stored next | .returning next => some next
  | .resting => none

/-- The steps of the runs that are there. -/
def noStart : Store α → Event ι → Prop
  | _, .start _ => False
  | _, _ => True

instance (s : Store α) : (e : Event ι) → Decidable (noStart s e)
  | .start _ => .isFalse id
  | .write _ | .wake _ | .install _ => .isTrue trivial

/-- **The last one to install wins**: two runs that write `x` and `y` are suspended at once. When
    both have finished, the memory holds one of the two values, each computed without the
    other. -/
theorem overlap {old disk : α}
    (hr : R.machine.Run noStart ⟨old, disk, [.saving x, .saving y]⟩ es s) (hs : s.runs = []) :
    s.memory = x ∨ s.memory = y := by
  have h : (∀ p ∈ s.runs, p.next = some x ∨ p.next = some y) ∧
      (s.runs = [] → s.memory = x ∨ s.memory = y) := by
    refine hr.invariant (I := fun s => (∀ p ∈ s.runs, p.next = some x ∨ p.next = some y) ∧
      (s.runs = [] → s.memory = x ∨ s.memory = y)) ⟨by simp [Phase.next], by simp⟩ ?_
    intro t e u ht hg hstep
    obtain ⟨hnext, -⟩ := ht
    change R.step t e = some u at hstep
    have changed : ∀ {i : Nat} {p q : Phase α}, t.runs[i]? = some p →
        (q.next = some x ∨ q.next = some y) →
        (∀ p ∈ t.runs.set i q, p.next = some x ∨ p.next = some y) ∧
          (t.runs.set i q = [] → t.memory = x ∨ t.memory = y) := by
      intro i p q hi hq
      refine ⟨fun p hp => ?_, fun hnil => ?_⟩
      · rcases List.mem_or_eq_of_mem_set hp with hp | rfl
        · exact hnext p hp
        · exact hq
      · rw [List.set_eq_nil_iff] at hnil
        rw [hnil] at hi
        cases hi
    have installed : ∀ {i : Nat} {z : α}, some z = some x ∨ some z = some y →
        (∀ p ∈ t.runs.eraseIdx i, p.next = some x ∨ p.next = some y) ∧
          (t.runs.eraseIdx i = [] → z = x ∨ z = y) := by
      intro i z hz
      exact ⟨fun p hp => hnext p (List.mem_of_mem_eraseIdx hp),
        fun _ => hz.imp Option.some.inj Option.some.inj⟩
    cases e with
    | start a => exact absurd hg id
    | write i =>
        simp only [step] at hstep
        split at hstep
        · rename_i next hi
          obtain rfl := Option.some.inj hstep
          exact changed hi (hnext (.saving next) (List.mem_of_getElem? hi))
        · cases hstep
    | wake i =>
        simp only [step] at hstep
        split at hstep
        · -- neither of the two rests
          rename_i hi
          exact absurd (hnext _ (List.mem_of_getElem? hi)) (by simp [Phase.next])
        · cases hstep
    | install i =>
        simp only [step] at hstep
        split at hstep
        · rename_i next hi
          obtain rfl := Option.some.inj hstep
          exact installed (hnext (.stored next) (List.mem_of_getElem? hi))
        · rename_i next hi
          obtain rfl := Option.some.inj hstep
          exact installed (hnext (.returning next) (List.mem_of_getElem? hi))
        · cases hstep
  exact h.2 hs

end Reducer

end LocalSend.Lib
