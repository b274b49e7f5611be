/-
  File:      LocalSend/Common/TaskRunnerStop.lean
  Subject:   STOPPING THE TASK RUNNER. `stop` sets a flag that no runner reads before it takes the
             next task; the first one that ends then closes the stream under the others.

  * `Occurrence`, `occur` -- the events of the runner, and a task that throws: its runner dies, and
    is counted on;
  * `Open` -- the states before the stop; `open_run`;
  * `afterStop` -- **what comes after it**, with nothing queued: the first result is added and closes
    the stream, all further ones fail;
  * `StoppedSafely` -- no start, nothing added to the closed stream, closed once, finished once;
  * **`stop_safe_iff`** -- exactly when; `stop_unsafe`: three tasks, two at a time, stopped at once.
-/
import LocalSend.Common.TaskRunner
import Mathlib.Data.List.Induction

namespace LocalSend.TaskRunner

open Lib

/-! ## 1. Tasks that throw -/

inductive Occurrence (ρ : Type) where
  | event (e : Event ρ)
  /-- a running task throws -/
  | throws (task : TaskId)
  deriving DecidableEq, Repr

section Definitions

variable {ρ : Type}

def occur (concurrency : Nat) (s : State ρ) : Occurrence ρ → Option (State ρ)
  | .event e => step concurrency s e
  | .throws task =>
    if task ∈ s.running then some { s with running := s.running.erase task } else none

/-- **A task runner whose tasks may throw.** -/
def throwing (ρ : Type) (concurrency : Nat) : Machine (State ρ) (Occurrence ρ) :=
  ⟨occur concurrency⟩

/-- Nobody has stopped it. -/
def notStop (_ : State ρ) (o : Occurrence ρ) : Prop := o ≠ .event .stop

/-- No tasks are added. -/
def notAdd (_ : State ρ) : Occurrence ρ → Prop
  | .event (.addAll _) => False
  | _ => True

instance [DecidableEq ρ] (s : State ρ) (o : Occurrence ρ) : Decidable (notStop s o) :=
  inferInstanceAs (Decidable (_ ≠ _))

instance (s : State ρ) : (o : Occurrence ρ) → Decidable (notAdd s o)
  | .event (.addAll _) => .isFalse id
  | .event (.complete _ _) | .event .stop | .throws _ => .isTrue trivial

/-- The result of a completion. -/
def Occurrence.result : Occurrence ρ → Option ρ
  | .event (.complete _ result) => some result
  | _ => none

def Occurrence.isThrow : Occurrence ρ → Bool
  | .throws _ => true
  | _ => false

def results (os : List (Occurrence ρ)) : List ρ := os.filterMap Occurrence.result

/-- How many tasks threw. -/
def thrown (os : List (Occurrence ρ)) : Nat := os.countP Occurrence.isThrow

def Output.isFailure : Output ρ → Bool
  | .addFailed _ => true
  | _ => false

def Output.isClose : Output ρ → Bool
  | .close => true
  | _ => false

def Output.isFinish : Output ρ → Bool
  | .finish => true
  | _ => false

/-- So many results were added to the closed stream, and so often it was closed with a call of
    `onFinish`. -/
structure Tally (failures ends : Nat) (log : List (Output ρ)) : Prop where
  failures : log.countP Output.isFailure = failures
  closes : log.countP Output.isClose = ends
  finishes : log.countP Output.isFinish = ends

/-- **A safe stop** in `s`, seen from the state `t` after it: no task was started since, no result
    was added to the closed stream, and it was closed once. -/
structure StoppedSafely (s t : State ρ) : Prop where
  starts : t.log.filterMap Output.started = s.log.filterMap Output.started
  tally : Tally 0 1 t.log

theorem Tally.append {f e f' e' : Nat} {log out : List (Output ρ)} (h : Tally f e log)
    (h' : Tally f' e' out) : Tally (f + f') (e + e') (log ++ out) := by
  refine ⟨?_, ?_, ?_⟩ <;> rw [List.countP_append]
  · rw [h.failures, h'.failures]
  · rw [h.closes, h'.closes]
  · rw [h.finishes, h'.finishes]

theorem tally_start (task : TaskId) : Tally 0 0 [(.start task : Output ρ)] := ⟨rfl, rfl, rfl⟩

theorem tally_add (result : ρ) : Tally 0 0 [.add result] := ⟨rfl, rfl, rfl⟩

theorem tally_end : Tally 0 1 [(.close : Output ρ), .finish] := ⟨rfl, rfl, rfl⟩

theorem tally_addFailed (result : ρ) : Tally 1 0 [.addFailed result] := ⟨rfl, rfl, rfl⟩

end Definitions

/-! ## 2. Before the stop -/

section Before

variable {ρ : Type} {c : Nat} {s t : State ρ}

/-- **A state before the stop**: every task that runs has its runner, and the stream is closed
    once, when nothing runs any more. -/
structure Open (s : State ρ) : Prop where
  stopped : s.stopped = false
  count : s.running.length ≤ s.runnerCount
  idle : s.isClosed = true → s.running = []
  tally : Tally 0 s.isClosed.toNat s.log

/-- A runner between two tasks. -/
theorem open_runner (h : Open s) (hopen : s.isClosed = false)
    (hcount : s.running.length < s.runnerCount) : Open (runner s) := by
  have htally : Tally 0 0 s.log := by simpa [hopen] using h.tally
  unfold runner
  split
  · exact {
      stopped := h.stopped
      count := by simpa [State.say] using Nat.succ_le_of_lt hcount
      idle := fun hclosed => by simp [State.say, hopen] at hclosed
      tally := by simpa [State.say, hopen] using htally.append (tally_start _) }
  · unfold onFinish
    simp only [h.stopped, Bool.false_or]
    split
    · rename_i hlast
      have hnone : s.runnerCount - 1 = 0 := by
        simp only [Bool.and_eq_true, decide_eq_true_eq] at hlast
        exact hlast.1
      have hrunning : s.running = [] := List.eq_nil_of_length_eq_zero (by omega)
      exact {
        stopped := rfl
        count := by simp [State.say, hrunning]
        idle := fun _ => hrunning
        tally := htally.append tally_end }
    · exact {
        stopped := rfl
        count := Nat.le_sub_one_of_lt hcount
        idle := h.idle
        tally := h.tally }

theorem open_fireLoop (rounds : Nat) (h : Open s) : Open (fireLoop c rounds s) := by
  induction rounds generalizing s with
  | zero => exact h
  | succ rounds ih =>
      rw [fireLoop]
      split
      · rename_i hfire
        have hone : Open { s with runnerCount := s.runnerCount + 1 } :=
          { h with count := Nat.le_succ_of_le h.count }
        exact ih (open_runner hone hfire.2.2 (Nat.lt_succ_of_le h.count))
      · exact h

theorem open_init (c : Nat) (initialTasks : Option (List TaskId)) (stayAlive : Option Bool) :
    Open (init c initialTasks stayAlive : State ρ) :=
  open_fireLoop _ ⟨rfl, Nat.le_refl 0, (fun h => nomatch h), ⟨rfl, rfl, rfl⟩⟩

/-- A running task ends, either way. -/
theorem open_erase (h : Open s) {task : TaskId} (hmem : task ∈ s.running) :
    Open { s with running := s.running.erase task } ∧ s.isClosed = false ∧
      (s.running.erase task).length < s.runnerCount := by
  have hopen : s.isClosed = false := by
    by_contra hclosed
    rw [Bool.not_eq_false] at hclosed
    rw [h.idle hclosed] at hmem
    cases hmem
  have hlength := List.length_erase_of_mem hmem
  have hpos := List.length_pos_of_mem hmem
  have hcount := h.count
  have hless : (s.running.erase task).length < s.runnerCount := by omega
  refine ⟨{ h with count := Nat.le_of_lt hless, idle := fun hclosed => ?_ }, hopen, hless⟩
  rw [hopen] at hclosed
  cases hclosed

/-- A result on the open stream. -/
theorem afterTask_open (result : ρ) (hopen : s.isClosed = false) :
    afterTask s result = runner (s.say [.add result]) := by
  rw [afterTask, hopen, if_neg Bool.false_ne_true]

theorem open_occur {o : Occurrence ρ} (h : Open s) (ho : notStop s o) (hs : occur c s o = some t) :
    Open t := by
  cases o with
  | throws task =>
      obtain ⟨hmem, rfl⟩ : task ∈ s.running ∧
          { s with running := s.running.erase task } = t := by
        simpa [occur] using hs
      exact (open_erase h hmem).1
  | event e =>
      cases e with
      | stop => exact absurd rfl ho
      | addAll tasks =>
          obtain rfl := Option.some.inj hs
          have hqueue : Open { s with queue := s.queue ++ tasks } := { h with }
          exact open_fireLoop _ hqueue
      | complete task result =>
          obtain ⟨hmem, rfl⟩ : task ∈ s.running ∧
              afterTask { s with running := s.running.erase task } result = t := by
            simpa [occur, step] using hs
          obtain ⟨herase, hopen, hless⟩ := open_erase h hmem
          have hafter := afterTask_open (s := { s with running := s.running.erase task }) result hopen
          rw [hafter]
          refine open_runner { herase with tally := ?_ } hopen hless
          exact herase.tally.append (tally_add result)

/-- **The states before the stop.** -/
theorem open_run {initialTasks : Option (List TaskId)} {stayAlive : Option Bool}
    {os : List (Occurrence ρ)}
    (h : (throwing ρ c).Run notStop (init c initialTasks stayAlive) os s) : Open s :=
  h.invariant (open_init c initialTasks stayAlive) fun _ _ _ ht ho hs => open_occur ht ho hs

end Before

/-! ## 3. After the stop -/

section After

variable {ρ : Type} {c : Nat} {s t u v : State ρ} {os : List (Occurrence ρ)} {o : Occurrence ρ}

/-- **The stream after the stop**, with nothing queued: the first of the results is added and
    closes it, the others fail. -/
def afterStop : List ρ → List (Output ρ)
  | [] => []
  | result :: results => [.add result, .close, .finish] ++ results.map .addFailed

theorem afterStop_snoc {results : List ρ} (h : results ≠ []) (result : ρ) :
    afterStop (results ++ [result]) = afterStop results ++ [.addFailed result] := by
  obtain ⟨first, rest, rfl⟩ := List.exists_cons_of_ne_nil h
  simp [afterStop]

theorem tally_afterStop (results : List ρ) :
    Tally (results.length - 1) (min results.length 1) (afterStop results) := by
  induction results using List.reverseRecOn with
  | nil => exact ⟨rfl, rfl, rfl⟩
  | append_singleton results result ih =>
      by_cases h : results = []
      · subst h
        exact (tally_add result).append tally_end
      · have hpos := List.length_pos_iff.mpr h
        have hsnoc := ih.append (tally_addFailed result)
        rw [afterStop_snoc h, List.length_append, List.length_singleton]
        have hfail : results.length - 1 + 1 = results.length + 1 - 1 := by omega
        have hend : min results.length 1 + 0 = min (results.length + 1) 1 := by omega
        rw [hfail, hend] at hsnoc
        exact hsnoc

theorem started_afterStop (results : List ρ) :
    (afterStop results).filterMap Output.started = [] := by
  cases results with
  | nil => rfl
  | cons result results =>
      simp [afterStop, Output.started]

theorem results_snoc (os : List (Occurrence ρ)) (o : Occurrence ρ) :
    results (os ++ [o]) = results os ++ o.result.toList := by
  rw [results, List.filterMap_append]
  cases h : o.result <;> simp [results, h]

theorem thrown_snoc (os : List (Occurrence ρ)) (o : Occurrence ρ) :
    thrown (os ++ [o]) = thrown os + if o.isThrow then 1 else 0 := by
  simp [thrown, List.countP_singleton]

/-- **The three things that can happen after the stop.** -/
theorem occur_cases (ho : notAdd u o) (hs : occur c u o = some v) :
    (o = .event .stop ∧ v = stop u) ∨
    (∃ task, o = .throws task ∧ task ∈ u.running ∧
      v = { u with running := u.running.erase task }) ∨
    ∃ task result, o = .event (.complete task result) ∧ task ∈ u.running ∧
      v = afterTask { u with running := u.running.erase task } result := by
  cases o with
  | throws task =>
      obtain ⟨hmem, rfl⟩ : task ∈ u.running ∧
          { u with running := u.running.erase task } = v := by
        simpa [occur] using hs
      exact Or.inr (Or.inl ⟨task, rfl, hmem, rfl⟩)
  | event e =>
      cases e with
      | stop => exact Or.inl ⟨rfl, (Option.some.inj hs).symm⟩
      | addAll tasks => exact ho.elim
      | complete task result =>
          obtain ⟨hmem, rfl⟩ : task ∈ u.running ∧
              afterTask { u with running := u.running.erase task } result = v := by
            simpa [occur, step] using hs
          exact Or.inr (Or.inr ⟨task, result, rfl, hmem, rfl⟩)

/-- The end of a runner that finds nothing queued. -/
theorem runner_drained (hqueue : u.queue = []) (hstopped : u.stopped = true) :
    runner u = { u with
      runnerCount := u.runnerCount - 1
      isClosed := true
      log := u.log ++ [.close, .finish] } := by
  unfold runner
  split
  · rename_i hmore
    rw [hqueue] at hmore
    cases hmore
  · simp [onFinish, hstopped, State.say]

/-- **Nothing queued**: what the runners leave behind, one after another. -/
structure Drained (s : State ρ) (os : List (Occurrence ρ)) (u : State ρ) : Prop where
  stopped : u.stopped = true
  queue : u.queue = []
  isClosed : u.isClosed = true ↔ results os ≠ []
  log : u.log = s.log ++ afterStop (results os)
  ended : u.running.length + (results os).length + thrown os = s.running.length

theorem drained_occur (h : Drained s os u) (ho : notAdd u o) (hs : occur c u o = some v) :
    Drained s (os ++ [o]) v := by
  rcases occur_cases ho hs with ⟨rfl, rfl⟩ | ⟨task, rfl, hmem, rfl⟩ |
    ⟨task, result, rfl, hmem, rfl⟩
  · have hresults : results (os ++ [.event .stop]) = results os := by
      simp [results_snoc, Occurrence.result]
    have hthrown : thrown (os ++ [.event .stop]) = thrown os := by
      simp [thrown_snoc, Occurrence.isThrow]
    exact ⟨rfl, h.queue, hresults ▸ h.isClosed, hresults ▸ h.log, by
      rw [hresults, hthrown]
      exact h.ended⟩
  · have hresults : results (os ++ [.throws task]) = results os := by
      simp [results_snoc, Occurrence.result]
    have hthrown : thrown (os ++ [.throws task]) = thrown os + 1 := by
      simp [thrown_snoc, Occurrence.isThrow]
    have hlength := List.length_erase_of_mem hmem
    have hpos := List.length_pos_of_mem hmem
    have hended := h.ended
    exact ⟨h.stopped, h.queue, hresults ▸ h.isClosed, hresults ▸ h.log, by
      rw [hresults, hthrown]
      show (u.running.erase task).length + _ + _ = _
      omega⟩
  · have hresults : results (os ++ [.event (.complete task result)]) = results os ++ [result] := by
      simp [results_snoc, Occurrence.result]
    have hthrown : thrown (os ++ [.event (.complete task result)]) = thrown os := by
      simp [thrown_snoc, Occurrence.isThrow]
    have hlength := List.length_erase_of_mem hmem
    have hpos := List.length_pos_of_mem hmem
    have hended := h.ended
    have hleft : (u.running.erase task).length + (results os ++ [result]).length + thrown os =
        s.running.length := by
      rw [List.length_append, List.length_singleton]
      omega
    by_cases hopen : results os = []
    · -- the first result
      have hclosed : u.isClosed = false := by
        rw [← Bool.not_eq_true, h.isClosed]
        exact fun h => h hopen
      have hafter := afterTask_open (s := { u with running := u.running.erase task }) result hclosed
      have hrunner := runner_drained
        (u := State.say { u with running := u.running.erase task } [.add result])
        h.queue h.stopped
      rw [hafter, hrunner]
      refine ⟨h.stopped, h.queue, by simp [hresults], ?_, by rw [hresults, hthrown]; exact hleft⟩
      have hlog : u.log = s.log := by simpa [hopen, afterStop] using h.log
      simp [State.say, hresults, hopen, afterStop, hlog]
    · -- the stream is closed
      have hclosed : u.isClosed = true := h.isClosed.mpr hopen
      rw [afterTask, if_pos hclosed]
      refine ⟨h.stopped, h.queue, by simp [hresults, State.say, hclosed], ?_,
        by rw [hresults, hthrown]; exact hleft⟩
      rw [hresults, afterStop_snoc hopen, ← List.append_assoc, ← h.log]
      rfl

theorem drained_run (hqueue : s.queue = []) (hopen : s.isClosed = false)
    (h : (throwing ρ c).Run notAdd (stop s) os t) : Drained s os t := by
  refine h.traceInvariant (I := Drained s) ?_ fun _ _ _ _ ht ho hs => drained_occur ht ho hs
  exact ⟨rfl, hqueue, by simp [stop, hopen, results], by simp [stop, results, afterStop],
    by simp [stop, results, thrown]⟩

/-- The log of a step begins with the log before it. -/
theorem log_occur (ho : notAdd u o) (hs : occur c u o = some v) : u.log <+: v.log := by
  rcases occur_cases ho hs with ⟨_, rfl⟩ | ⟨_, _, _, rfl⟩ | ⟨_, _, _, _, rfl⟩
  · exact List.prefix_rfl
  · exact List.prefix_rfl
  · have hfinish : ∀ w : State ρ, w.log <+: (onFinish w).log := by
      intro w
      unfold onFinish
      simp only
      split
      · exact List.prefix_append _ _
      · exact List.prefix_rfl
    have hrunner : ∀ w : State ρ, w.log <+: (runner w).log := by
      intro w
      unfold runner
      split
      · exact List.prefix_append _ _
      · exact hfinish w
    unfold afterTask
    split
    · exact List.prefix_append _ _
    · refine List.IsPrefix.trans ?_ (hrunner _)
      exact List.prefix_append _ _

/-- **Something queued**: no result yet and an open stream, or a task that was started. -/
def Overrun (s : State ρ) (u : State ρ) : Prop :=
  (u.queue = s.queue ∧ u.isClosed = false ∧ u.log = s.log) ∨
    (s.log.filterMap Output.started).length < (u.log.filterMap Output.started).length

theorem overrun_run (hqueue : s.queue ≠ []) (hopen : s.isClosed = false)
    (h : (throwing ρ c).Run notAdd (stop s) os t) : Overrun s t := by
  have hstart : Overrun s (stop s) := Or.inl ⟨rfl, hopen, rfl⟩
  refine h.invariant hstart fun u o v hu ho hs => ?_
  rcases hu with ⟨huqueue, huopen, hulog⟩ | hmore
  · rcases occur_cases ho hs with ⟨_, rfl⟩ | ⟨_, _, _, rfl⟩ | ⟨task, result, _, _, rfl⟩
    · exact Or.inl ⟨huqueue, huopen, hulog⟩
    · exact Or.inl ⟨huqueue, huopen, hulog⟩
    · -- the runner takes a task from the queue
      obtain ⟨next, queue, hnext⟩ := List.exists_cons_of_ne_nil hqueue
      have hafter := afterTask_open (s := { u with running := u.running.erase task }) result huopen
      rw [hafter]
      right
      simp [runner, State.say, huqueue, hnext, hulog, Output.started]
  · obtain ⟨out, hout⟩ := log_occur ho hs
    right
    rw [← hout, List.filterMap_append, List.length_append]
    omega

/-- A closed runner has nothing running, and says nothing any more. -/
theorem closed_run (hs : Open s) (hclosed : s.isClosed = true)
    (h : (throwing ρ c).Run notAdd (stop s) os t) : t.log = s.log := by
  have hinv : t.running = [] ∧ t.log = s.log := by
    refine h.invariant (I := fun u => u.running = [] ∧ u.log = s.log) ⟨hs.idle hclosed, rfl⟩ ?_
    rintro u o v ⟨hrunning, hlog⟩ ho hstep
    rcases occur_cases ho hstep with ⟨_, rfl⟩ | ⟨_, _, hmem, _⟩ | ⟨_, _, _, hmem, _⟩
    · exact ⟨hrunning, hlog⟩
    · rw [hrunning] at hmem
      cases hmem
    · rw [hrunning] at hmem
      cases hmem
  exact hinv.2

/-- With nothing queued, the stop is safe if one result came after it. -/
theorem drained_safe (hs : Open s) (hopen : s.isClosed = false) (h : Drained s os t) :
    StoppedSafely s t ↔ (results os).length = 1 := by
  have hbefore : Tally 0 0 s.log := by simpa [hopen] using hs.tally
  have htally : Tally ((results os).length - 1) (min (results os).length 1) t.log := by
    have hall := hbefore.append (tally_afterStop (results os))
    rw [Nat.zero_add, Nat.zero_add, ← h.log] at hall
    exact hall
  have hstarts : t.log.filterMap Output.started = s.log.filterMap Output.started := by
    rw [h.log, List.filterMap_append, started_afterStop, List.append_nil]
  constructor
  · intro hsafe
    have hfailures := htally.failures.symm.trans hsafe.tally.failures
    have hends := htally.closes.symm.trans hsafe.tally.closes
    omega
  · intro hone
    rw [hone] at htally
    exact ⟨hstarts, htally⟩

end After

/-- **A stop is safe** exactly if the stream is closed by then, or nothing is queued and all of the
    running tasks but one throw. -/
theorem stop_safe_iff {ρ : Type} {concurrency : Nat} {initialTasks : Option (List TaskId)}
    {stayAlive : Option Bool} {before after : List (Occurrence ρ)} {s t : State ρ}
    (hbefore : (throwing ρ concurrency).Run notStop (init concurrency initialTasks stayAlive)
      before s)
    (hafter : (throwing ρ concurrency).Run notAdd (stop s) after t) (hdone : t.running = []) :
    StoppedSafely s t ↔
      s.isClosed = true ∨ s.queue = [] ∧ s.running.length = thrown after + 1 := by
  have hs := open_run hbefore
  cases hopen : s.isClosed with
  | true =>
      have hlog := closed_run hs hopen hafter
      have htally : Tally 0 1 s.log := by simpa [hopen] using hs.tally
      exact iff_of_true ⟨by rw [hlog], hlog ▸ htally⟩ (Or.inl rfl)
  | false =>
      rw [or_iff_right Bool.false_ne_true]
      by_cases hqueue : s.queue = []
      · have hdrained := drained_run hqueue hopen hafter
        have hended := hdrained.ended
        rw [hdone, List.length_nil] at hended
        rw [drained_safe hs hopen hdrained, and_iff_right hqueue]
        omega
      · refine iff_of_false (fun hsafe => ?_) fun h => hqueue h.1
        rcases overrun_run hqueue hopen hafter with ⟨_, _, hlog⟩ | hmore
        · have htally : Tally 0 0 s.log := by simpa [hopen] using hs.tally
          have hcloses := hsafe.tally.closes
          rw [hlog, htally.closes] at hcloses
          cases hcloses
        · rw [hsafe.starts] at hmore
          exact absurd hmore (Nat.lt_irrefl _)

/-- One of two tasks is completed, the other one is running. -/
def oneLeft : State String where
  queue := []
  running := [1]
  runnerCount := 1
  stopped := false
  stayAlive := false
  isClosed := false
  log := [.start 0, .start 1, .add "a"]

theorem stop_safe_iff_oneLeft :
    ∃ t, (throwing String 2).Run notAdd (stop oneLeft) [.event (.complete 1 "b")] t ∧
      StoppedSafely oneLeft t := by
  have hbefore : (((throwing String 2).guarded notStop).run (init 2 (some [0, 1]) none)
      [.event (.complete 0 "a")]).map id = some oneLeft := rfl
  have hafter : (((throwing String 2).guarded notAdd).run (stop oneLeft)
      [.event (.complete 1 "b")]).map State.running = some [] := rfl
  obtain ⟨_, hs, rfl⟩ := Machine.run_observe_guarded hbefore
  obtain ⟨t, ht, hdone⟩ := Machine.run_observe_guarded hafter
  exact ⟨t, ht, (stop_safe_iff hs ht hdone).mpr (Or.inr ⟨rfl, rfl⟩)⟩

/-- Two of three tasks are running, the third one waits. -/
def twoRunning : State String := init 2 (some [0, 1, 2]) none

/-- **Stopped there**: the third task is started, and its result is added to the closed stream. -/
theorem stop_unsafe :
    ∃ t, (throwing String 2).Run notAdd (stop twoRunning)
        [.event (.complete 0 "a"), .event (.complete 1 "b"), .event (.complete 2 "c")] t ∧
      t.running = [] ∧
      t.log = twoRunning.log ++
        [.add "a", .start 2, .add "b", .close, .finish, .addFailed "c"] ∧
      ¬ StoppedSafely twoRunning t := by
  have hrun : (((throwing String 2).guarded notAdd).run (stop twoRunning)
      [.event (.complete 0 "a"), .event (.complete 1 "b"), .event (.complete 2 "c")]).map
        (fun t => (t.running, t.log)) = some ([], twoRunning.log ++
          [.add "a", .start 2, .add "b", .close, .finish, .addFailed "c"]) := rfl
  obtain ⟨t, ht, hseen⟩ := Machine.run_observe_guarded hrun
  obtain ⟨hrunning, hlog⟩ := Prod.mk.inj hseen
  refine ⟨t, ht, hrunning, hlog, fun hsafe => ?_⟩
  have hfailures := hsafe.tally.failures
  rw [hlog] at hfailures
  exact absurd hfailures (by decide)

end LocalSend.TaskRunner
