/-
  File:      LocalSend/Common/TaskRunner.lean
  Subject:   THE TASK RUNNER (`common/lib/util/task_runner.dart`) as a machine.

  A runner is an async loop: it takes a task, awaits it, adds the result to the stream, and goes on
  until the queue is empty. What stands between two awaits is one step.

  * `init`, `addAll`, `stop`, `fireRunners`, `runner`, `onFinish` -- the class;
  * `step` -- the continuation of the runner that awaits a task, or a call from outside;
  * `Working` -- **what the runners have in hand**: the tasks are started in their order, those that
    are started and not completed are running, one for each runner;
  * **`task_runner_once`** -- each task is started once, at most `concurrency` run at a time, the
    stream gets the results in completion order, and then closes, once.
-/
import LocalSend.Lib.Machine
import Mathlib.Data.List.Perm.Basic

namespace LocalSend.TaskRunner

open Lib

/-! ## 1. The class -/

/-- A task, by its position. -/
abbrev TaskId := Nat

/-- What the object does, seen from outside. -/
inductive Output (ρ : Type) where
  | start (task : TaskId)
  | add (result : ρ)
  /-- the stream is closed already: the runner dies of the error -/
  | addFailed (result : ρ)
  | close
  | finish
  deriving DecidableEq, Repr

structure State (ρ : Type) where
  queue : List TaskId
  /-- the tasks that the runners await -/
  running : List TaskId
  runnerCount : Nat
  stopped : Bool
  stayAlive : Bool
  isClosed : Bool
  log : List (Output ρ)
  deriving DecidableEq, Repr

section Class

variable {ρ : Type}

def State.say (s : State ρ) (out : List (Output ρ)) : State ρ := { s with log := s.log ++ out }

/-- The callback that a runner gets for its end. -/
def onFinish (s : State ρ) : State ρ :=
  let s := { s with runnerCount := s.runnerCount - 1 }
  if s.stopped || (s.runnerCount = 0 && !s.stayAlive) then
    { s with isClosed := true }.say [.close, .finish]
  else s

/-- `_runner`, up to its next await or its end. -/
def runner (s : State ρ) : State ρ :=
  match s.queue with
  | task :: queue => { s with queue := queue, running := s.running ++ [task] }.say [.start task]
  | [] => onFinish s

/-- The loop of `_fireRunners`: every round takes a task. -/
def fireLoop (concurrency : Nat) : Nat → State ρ → State ρ
  | 0, s => s
  | rounds + 1, s =>
    if s.queue ≠ [] ∧ s.runnerCount < concurrency ∧ s.isClosed = false then
      fireLoop concurrency rounds (runner { s with runnerCount := s.runnerCount + 1 })
    else s

def fireRunners (concurrency : Nat) (s : State ρ) : State ρ :=
  fireLoop concurrency s.queue.length s

/-- The constructor. -/
def init (concurrency : Nat) (initialTasks : Option (List TaskId)) (stayAlive : Option Bool) :
    State ρ :=
  fireRunners concurrency
    { queue := initialTasks.getD []
      running := []
      runnerCount := 0
      stopped := false
      stayAlive := stayAlive.getD (initialTasks.getD [] = [])
      isClosed := false
      log := [] }

def addAll (concurrency : Nat) (s : State ρ) (tasks : List TaskId) : State ρ :=
  fireRunners concurrency { s with queue := s.queue ++ tasks }

def stop (s : State ρ) : State ρ := { s with stopped := true }

/-- `_streamController.add` and the rest of the loop. -/
def afterTask (s : State ρ) (result : ρ) : State ρ :=
  if s.isClosed then s.say [.addFailed result] else runner (s.say [.add result])

inductive Event (ρ : Type) where
  /-- a running task completes -/
  | complete (task : TaskId) (result : ρ)
  | addAll (tasks : List TaskId)
  | stop
  deriving DecidableEq, Repr

def step (concurrency : Nat) (s : State ρ) : Event ρ → Option (State ρ)
  | .complete task result =>
    if task ∈ s.running then
      some (afterTask { s with running := s.running.erase task } result)
    else none
  | .addAll tasks => some (addAll concurrency s tasks)
  | .stop => some (stop s)

/-- **A task runner.** -/
def machine (ρ : Type) (concurrency : Nat) : Machine (State ρ) (Event ρ) := ⟨step concurrency⟩

end Class

/-! ## 2. What a run shows -/

section Shown

variable {ρ : Type}

/-- The task of a start. -/
def Output.started : Output ρ → Option TaskId
  | .start task => some task
  | _ => none

/-- What the listener of the stream and of `onFinish` notices. -/
def Output.noticed : Output ρ → Bool
  | .start _ => false
  | _ => true

/-- The completions of a run. -/
def Event.completed : Event ρ → Option (TaskId × ρ)
  | .complete task result => some (task, result)
  | _ => none

def completions (es : List (Event ρ)) : List (TaskId × ρ) := es.filterMap Event.completed

theorem completions_snoc (es : List (Event ρ)) (task : TaskId) (result : ρ) :
    completions (es ++ [.complete task result]) = completions es ++ [(task, result)] := by
  simp [completions, Event.completed]

/-- Only completions: nothing is added and nobody stops. -/
def onlyCompletes (_ : State ρ) (e : Event ρ) : Prop := e.completed.isSome = true

instance (s : State ρ) (e : Event ρ) : Decidable (onlyCompletes s e) :=
  inferInstanceAs (Decidable (_ = true))

end Shown

/-! ## 3. The constructor -/

section Init

variable {ρ : Type} {n c j : Nat}

theorem drop_range (h : j < n) : (List.range n).drop j = j :: (List.range n).drop (j + 1) := by
  rw [List.drop_eq_getElem_cons (by simpa using h), List.getElem_range]

/-- With `j` runners fired: they run the first `j` of `n` tasks. -/
def launched (ρ : Type) (n j : Nat) : State ρ where
  queue := (List.range n).drop j
  running := List.range j
  runnerCount := j
  stopped := false
  stayAlive := false
  isClosed := false
  log := (List.range j).map .start

theorem runner_launched (h : j < n) :
    runner { launched ρ n j with runnerCount := j + 1 } = launched ρ n (j + 1) := by
  simp [runner, launched, drop_range h, State.say, List.range_succ]

/-- The loop fires runners as long as there are tasks and room. -/
theorem fireLoop_launched (rounds : Nat) (hn : j ≤ n) (hc : j ≤ c) (hrounds : n - j ≤ rounds) :
    fireLoop c rounds (launched ρ n j) = launched ρ n (min n c) := by
  induction rounds generalizing j with
  | zero =>
      have hj : j = min n c := by omega
      rw [hj]
      rfl
  | succ rounds ih =>
      rw [fireLoop]
      by_cases h : j < n ∧ j < c
      · have hqueue : (launched ρ n j).queue ≠ [] := by
          simpa [launched, List.drop_eq_nil_iff] using h.1
        rw [if_pos ⟨hqueue, h.2, rfl⟩]
        change fireLoop c rounds (runner { launched ρ n j with runnerCount := j + 1 }) = _
        rw [runner_launched h.1]
        exact ih h.1 h.2 (by omega)
      · have hj : j = min n c := by omega
        rw [if_neg, ← hj]
        intro h
        obtain ⟨hqueue, hroom, _⟩ := h
        refine h ⟨?_, hroom⟩
        simpa [launched, List.drop_eq_nil_iff] using hqueue

/-- **The constructor** starts the first tasks, as many as may run. -/
theorem init_eq (hn : 0 < n) :
    init c (some (List.range n)) none = launched ρ n (min n c) := by
  have halive : decide (List.range n = []) = false :=
    decide_eq_false (by simpa using Nat.ne_of_gt hn)
  have hlength : (launched ρ n 0).queue.length = n := by simp [launched]
  simp only [init, Option.getD_some, Option.getD_none, halive]
  change fireRunners c (launched ρ n 0) = _
  rw [fireRunners, hlength]
  exact fireLoop_launched n (Nat.zero_le n) (Nat.zero_le c) (Nat.sub_le n 0)

end Init

/-! ## 4. The run -/

section Run

variable {ρ : Type} {n c : Nat} {cs : List (TaskId × ρ)} {s t : State ρ}

/-- **What the runners have in hand** after the completions `cs` of `n` tasks. -/
structure Working (c n : Nat) (cs : List (TaskId × ρ)) (s : State ρ) : Prop where
  queue : s.queue = (List.range n).drop (c + cs.length)
  taken : (cs.map Prod.fst ++ s.running).Perm (List.range (min n (c + cs.length)))
  count : s.runnerCount = s.running.length
  stopped : s.stopped = false
  stayAlive : s.stayAlive = false
  isClosed : s.isClosed = decide (cs.length = n)
  starts : s.log.filterMap Output.started = List.range (min n (c + cs.length))
  noticed : s.log.filter Output.noticed =
    cs.map (fun x => .add x.2) ++ if cs.length = n then [.close, .finish] else []

/-- Completed and running tasks are the started ones. -/
theorem Working.length (h : Working c n cs s) :
    cs.length + s.running.length = min n (c + cs.length) := by
  simpa using h.taken.length_eq

theorem working_init (hn : 0 < n) : Working c n [] (init c (some (List.range n)) none : State ρ) := by
  rw [init_eq hn]
  have hmin : min n (c + 0) = min n c := rfl
  have hdrop : (List.range n).drop (min n c) = (List.range n).drop c := by
    rcases Nat.le_total n c with h | h
    · rw [Nat.min_eq_left h, List.drop_of_length_le (by simp), List.drop_of_length_le (by simpa)]
    · rw [Nat.min_eq_right h]
  have hn' : ¬ 0 = n := Nat.ne_of_lt hn
  exact {
    queue := hdrop
    taken := List.Perm.refl _
    count := by simp [launched]
    stopped := rfl
    stayAlive := rfl
    isClosed := by simp [launched, hn']
    starts := by simp [launched, List.filterMap_map, Function.comp_def, Output.started]
    noticed := by simp [launched, List.filter_map, Function.comp_def, Output.noticed, hn'] }

/-- The end of a runner: the last one closes the stream. -/
theorem onFinish_eq (hstopped : s.stopped = false) (hstay : s.stayAlive = false)
    (h : 0 < s.runnerCount) :
    onFinish s = { s with
      runnerCount := s.runnerCount - 1
      isClosed := s.isClosed || decide (s.runnerCount = 1)
      log := s.log ++ if s.runnerCount = 1 then [.close, .finish] else [] } := by
  by_cases hlast : s.runnerCount = 1
  · simp [onFinish, hstopped, hstay, hlast, State.say]
  · have hleft : ¬ s.runnerCount - 1 = 0 := by omega
    simp [onFinish, hstopped, hleft, hlast]

/-- The completed task is no longer among the running ones. -/
theorem completed_perm {task : TaskId} (result : ρ) (h : task ∈ s.running) :
    ((cs ++ [(task, result)]).map Prod.fst ++ s.running.erase task).Perm
      (cs.map Prod.fst ++ s.running) := by
  simpa using (List.perm_cons_erase h).symm.append_left (cs.map Prod.fst)

/-- The runner takes another task. -/
theorem working_next (h : Working c n cs s) {task : TaskId} {result : ρ} (hmem : task ∈ s.running)
    (hmore : c + cs.length < n) :
    Working c n (cs ++ [(task, result)])
      (runner ({ s with running := s.running.erase task }.say [.add result])) := by
  have hqueue := h.queue
  rw [drop_range hmore] at hqueue
  have hcs : (cs ++ [(task, result)]).length = cs.length + 1 := by simp
  have hmin : min n (c + cs.length) = c + cs.length := by omega
  have hmin' : min n (c + (cs.length + 1)) = c + cs.length + 1 := by omega
  have hlength := h.length
  have hpos := List.length_pos_of_mem hmem
  have hopen : ¬ cs.length = n := by omega
  have hopen' : ¬ cs.length + 1 = n := by omega
  have htaken := (completed_perm result hmem).trans h.taken
  rw [hmin] at htaken
  simp only [runner, State.say, hqueue]
  exact {
    queue := by
      rw [hcs]
      rfl
    taken := by
      rw [hcs, hmin', List.range_succ, ← List.append_assoc]
      exact htaken.append_right _
    count := by
      rw [h.count, List.length_append, List.length_erase_of_mem hmem, List.length_singleton]
      omega
    stopped := h.stopped
    stayAlive := h.stayAlive
    isClosed := by
      rw [hcs, decide_eq_false hopen', h.isClosed, decide_eq_false hopen]
    starts := by
      rw [List.append_assoc, List.filterMap_append, h.starts, hmin, hcs, hmin', List.range_succ]
      rfl
    noticed := by
      have hadd : List.filter Output.noticed ([.add result] ++ [.start (c + cs.length)]) =
        [Output.add result] := rfl
      rw [List.append_assoc, List.filter_append, h.noticed, hadd, if_neg hopen, hcs,
        if_neg hopen']
      simp }

/-- The queue is empty: the runner ends, and the last one closes the stream. -/
theorem working_end (h : Working c n cs s) {task : TaskId} {result : ρ} (hmem : task ∈ s.running)
    (hmore : n ≤ c + cs.length) :
    Working c n (cs ++ [(task, result)])
      (runner ({ s with running := s.running.erase task }.say [.add result])) := by
  have hqueue := h.queue
  rw [List.drop_of_length_le (by simpa using hmore)] at hqueue
  have hcs : (cs ++ [(task, result)]).length = cs.length + 1 := by simp
  have hmin : min n (c + cs.length) = n := by omega
  have hmin' : min n (c + (cs.length + 1)) = n := by omega
  have hlength := h.length
  have hpos := List.length_pos_of_mem hmem
  have hcount := h.count
  have hopen : ¬ cs.length = n := by omega
  have hlast : s.runnerCount = 1 ↔ cs.length + 1 = n := by omega
  have htaken := (completed_perm result hmem).trans h.taken
  rw [hmin] at htaken
  let u : State ρ := { s with running := s.running.erase task }.say [.add result]
  have hu : u.queue = [] := hqueue
  have hrunner : runner u = onFinish u := by rw [runner, hu]
  change Working c n (cs ++ [(task, result)]) (runner u)
  rw [hrunner, onFinish_eq (s := u) h.stopped h.stayAlive (hcount ▸ hpos)]
  exact {
    queue := by
      rw [hcs, List.drop_of_length_le (by simp; omega)]
      exact hu
    taken := by
      rw [hcs, hmin']
      exact htaken
    count := by
      change s.runnerCount - 1 = (s.running.erase task).length
      rw [hcount, List.length_erase_of_mem hmem]
    stopped := h.stopped
    stayAlive := h.stayAlive
    isClosed := by
      change (s.isClosed || decide (s.runnerCount = 1)) = _
      rw [h.isClosed, decide_eq_false hopen, Bool.false_or, hcs, decide_eq_decide]
      exact hlast
    starts := by
      change ((s.log ++ [Output.add result]) ++ if s.runnerCount = 1 then _ else _).filterMap
        Output.started = _
      rw [hcs, hmin', List.filterMap_append, List.filterMap_append, h.starts, hmin]
      split <;> simp [Output.started]
    noticed := by
      change ((s.log ++ [Output.add result]) ++ if s.runnerCount = 1 then _ else _).filter
        Output.noticed = _
      rw [List.filter_append, List.filter_append, h.noticed, if_neg hopen, hcs, List.append_nil,
        List.map_append]
      by_cases hend : cs.length + 1 = n
      · rw [if_pos hend, if_pos (hlast.mpr hend)]
        rfl
      · rw [if_neg hend, if_neg fun h => hend (hlast.mp h)]
        rfl }

/-- **A completion**: the result is added, and the runner takes the next task or ends. -/
theorem working_step (h : Working c n cs s) {task : TaskId} {result : ρ}
    (hs : step c s (.complete task result) = some t) :
    Working c n (cs ++ [(task, result)]) t := by
  obtain ⟨hmem, rfl⟩ : task ∈ s.running ∧
      afterTask { s with running := s.running.erase task } result = t := by
    simpa [step] using hs
  have hlength := h.length
  have hpos := List.length_pos_of_mem hmem
  have hopen : s.isClosed = false := by
    rw [h.isClosed]
    exact decide_eq_false (by omega)
  simp only [afterTask, hopen, Bool.false_eq_true, if_false]
  rcases Nat.lt_or_ge (c + cs.length) n with hmore | hmore
  · exact hopen ▸ working_next h hmem hmore
  · exact hopen ▸ working_end h hmem hmore

/-- **Every run of completions** has the tasks in hand. -/
theorem working_run (hn : 0 < n) {es : List (Event ρ)}
    (h : (machine ρ c).Run onlyCompletes (init c (some (List.range n)) none) es s) :
    Working c n (completions es) s := by
  refine h.traceInvariant (I := fun es s => Working c n (completions es) s) (working_init hn) ?_
  intro es t e u ht he hs
  cases e with
  | complete task result =>
      rw [completions_snoc]
      exact working_step ht hs
  | addAll tasks => cases he
  | stop => cases he

/-- Every event of such a run is a completion. -/
theorem length_completions {es : List (Event ρ)} {start : State ρ}
    (h : (machine ρ c).Run onlyCompletes start es s) : (completions es).length = es.length := by
  induction h with
  | start => rfl
  | step es e t u _ he _ ih =>
      cases e with
      | complete task result => simp [completions_snoc, ih]
      | addAll tasks => cases he
      | stop => cases he

end Run

/-- **The task runner runs every task exactly once.** For `n` initial tasks and any order in which
    they complete: -/
theorem task_runner_once {ρ : Type} (concurrency n : Nat) (hc : 1 ≤ concurrency) (hn : 1 ≤ n)
    (es : List (Event ρ)) (s : State ρ)
    (h : (machine ρ concurrency).Run onlyCompletes
      (init concurrency (some (List.range n)) none) es s) :
    -- the tasks are started in their order, each once, as many as may run
    s.log.filterMap Output.started = List.range (min n (concurrency + es.length)) ∧
    s.running.length ≤ concurrency ∧
    -- each task completes once
    ((completions es).map Prod.fst).Nodup ∧
    -- the stream gets the results in completion order, and is closed after the last one
    s.log.filter Output.noticed = (completions es).map (fun x => .add x.2) ++
      (if es.length = n then [.close, .finish] else []) ∧
    -- until then some task is running, and whichever runs may complete next
    es.length ≤ n ∧ (es.length < n ↔ s.running ≠ []) ∧
    ∀ task ∈ s.running, ∀ result, ((machine ρ concurrency).step s
      (.complete task result)).isSome = true := by
  have hworking := working_run hn h
  have hlength := length_completions h
  have hsum := hworking.length
  have hstarts := hworking.starts
  have hnoticed := hworking.noticed
  rw [hlength] at hsum hstarts hnoticed
  refine ⟨hstarts, by omega, ?_, hnoticed, by omega, ?_, ?_⟩
  · have hnodup := hworking.taken.nodup_iff.mpr List.nodup_range
    exact (List.nodup_append.mp hnodup).1
  · rw [← List.length_pos_iff]
    omega
  · intro task hmem result
    simp [machine, step, hmem]

/-- Three tasks, two at a time; the second one is the first to complete. -/
def threeTasks : List (Event String) := [.complete 1 "b", .complete 0 "a", .complete 2 "c"]

theorem task_runner_once_threeTasks :
    ∃ s, (machine String 2).Run onlyCompletes (init 2 (some (List.range 3)) none) threeTasks s ∧
      s.log.filter Output.noticed = [.add "b", .add "a", .add "c", .close, .finish] := by
  have hrun : (((machine String 2).guarded onlyCompletes).run
      (init 2 (some (List.range 3)) none) threeTasks).map State.isClosed = some true := rfl
  obtain ⟨s, hs, _⟩ := Machine.run_observe_guarded hrun
  obtain ⟨_, _, _, hnoticed, _⟩ := task_runner_once 2 3 (by decide) (by decide) threeTasks s hs
  exact ⟨s, hs, hnoticed⟩

end LocalSend.TaskRunner
