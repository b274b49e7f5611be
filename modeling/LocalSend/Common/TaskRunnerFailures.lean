/-
  File:      LocalSend/Common/TaskRunnerFailures.lean
  Subject:   TASKS THAT THROW IN A RUNNER that nobody stops. A runner whose task throws skips the
             callback at its end: it stays counted, takes nothing more from the queue, and the
             count never comes back to zero.

  * `onlyEnds` -- the tasks end, with a result or an exception; `Unstalled` -- what is promised of
    all the others and of the stream;
  * `Counted` -- **every exception leaves a runner on the count**; `counted_run`;
  * `events_run` -- without exceptions it is a run of the runner without any;
  * **`unstalled_iff`** -- so nothing stalls exactly if there are tasks and none throws;
    `stalled`: two of three tasks throw, and the third one is never started.
-/
import LocalSend.Common.TaskRunnerStop

namespace LocalSend.TaskRunner

open Lib

/-! ## 1. What is promised -/

section Definitions

variable {ρ : Type}

/-- Only ends of tasks: nothing is added and nobody stops. -/
def onlyEnds (_ : State ρ) : Occurrence ρ → Prop
  | .event (.complete _ _) | .throws _ => True
  | .event (.addAll _) | .event .stop => False

instance (s : State ρ) : (o : Occurrence ρ) → Decidable (onlyEnds s o)
  | .event (.complete _ _) | .throws _ => .isTrue trivial
  | .event (.addAll _) | .event .stop => .isFalse id

/-- **The tasks that throw do not stall the others**: each of these has run to its end, the stream
    has their results, and is closed, once. -/
structure Unstalled (n : Nat) (os : List (Occurrence ρ)) (t : State ρ) : Prop where
  run : ∀ task < n, .throws task ∉ os → ∃ result, .event (.complete task result) ∈ os
  emitted : t.log.filter Output.noticed = (results os).map .add ++ [.close, .finish]

theorem onlyEnds_notStop {s : State ρ} {o : Occurrence ρ} (h : onlyEnds s o) : notStop s o := by
  rintro rfl
  exact h

end Definitions

/-! ## 2. The count -/

section Count

variable {ρ : Type} {n c : Nat} {s t : State ρ} {os : List (Occurrence ρ)} {o : Occurrence ρ}

/-- **The count of the runners** is that of the running tasks and of the exceptions so far. -/
structure Counted (os : List (Occurrence ρ)) (s : State ρ) : Prop where
  opened : Open s
  stayAlive : s.stayAlive = false
  count : s.runnerCount = s.running.length + thrown os
  closed : s.isClosed = true → thrown os = 0

/-- Without `stayAlive` the constructor starts the first tasks. -/
theorem init_unset {stayAlive : Option Bool} (h : stayAlive ≠ some true) (hn : 0 < n) :
    (init c (some (List.range n)) stayAlive : State ρ) =
      init c (some (List.range n)) none := by
  have hsome : decide (List.range n = []) = false :=
    decide_eq_false (by simpa using Nat.ne_of_gt hn)
  cases stayAlive with
  | none => rfl
  | some alive =>
      cases alive with
      | true => exact absurd rfl h
      | false => simp only [init, Option.getD_some, Option.getD_none, hsome]

theorem counted_init (hn : 0 < n) :
    Counted [] (init c (some (List.range n)) none : State ρ) := by
  refine ⟨open_init c _ _, ?_, ?_, ?_⟩ <;> rw [init_eq hn]
  · rfl
  · simp [launched, thrown]
  · intro hclosed
    cases hclosed

/-- A runner after its task: the next task is running, or the runner is off the count. -/
theorem counted_runner (hopened : Open (runner s)) (hstopped : s.stopped = false)
    (hstay : s.stayAlive = false) (hopen : s.isClosed = false)
    (hcount : s.runnerCount = s.running.length + 1 + thrown os) : Counted os (runner s) := by
  cases hqueue : s.queue with
  | cons task queue =>
      have hrunner : runner s =
          { s with queue := queue, running := s.running ++ [task] }.say [.start task] := by
        rw [runner, hqueue]
      refine ⟨hopened, ?_, ?_, ?_⟩ <;> rw [hrunner]
      · exact hstay
      · simp [State.say, hcount]
      · intro hclosed
        simp [State.say, hopen] at hclosed
  | nil =>
      have hrunner : runner s = onFinish s := by rw [runner, hqueue]
      refine ⟨hopened, ?_, ?_, ?_⟩ <;> rw [hrunner, onFinish_eq hstopped hstay (by omega)]
      · exact hstay
      · change s.runnerCount - 1 = s.running.length + thrown os
        omega
      · intro hclosed
        have hlast : s.runnerCount = 1 := by simpa [hopen] using hclosed
        omega

/-- **An end of a task**: an exception takes the task and leaves its runner on the count. -/
theorem counted_occur (h : Counted os s) (ho : onlyEnds s o) (hs : occur c s o = some t) :
    Counted (os ++ [o]) t := by
  have hadd : notAdd s o := by
    cases o with
    | throws task => trivial
    | event e => cases e <;> trivial
  have hopened := open_occur h.opened (onlyEnds_notStop ho) hs
  have hcount := h.count
  rcases occur_cases hadd hs with ⟨rfl, _⟩ | ⟨task, rfl, hmem, rfl⟩ |
    ⟨task, result, rfl, hmem, rfl⟩
  · exact ho.elim
  · have hthrown : thrown (os ++ [.throws task]) = thrown os + 1 := by
      simp [thrown_snoc, Occurrence.isThrow]
    obtain ⟨_, hopen, _⟩ := open_erase h.opened hmem
    have hlength := List.length_erase_of_mem hmem
    have hpos := List.length_pos_of_mem hmem
    refine ⟨hopened, h.stayAlive, ?_, fun hclosed => absurd hclosed (by simp [hopen])⟩
    change s.runnerCount = (s.running.erase task).length + _
    omega
  · have hthrown : thrown (os ++ [.event (.complete task result)]) = thrown os := by
      simp [thrown_snoc, Occurrence.isThrow]
    obtain ⟨_, hopen, _⟩ := open_erase h.opened hmem
    have hlength := List.length_erase_of_mem hmem
    have hpos := List.length_pos_of_mem hmem
    have hafter := afterTask_open (s := { s with running := s.running.erase task }) result hopen
    rw [hafter] at hopened ⊢
    refine counted_runner hopened h.opened.stopped h.stayAlive hopen ?_
    change s.runnerCount = (s.running.erase task).length + 1 + _
    omega

theorem counted_run (hn : 0 < n)
    (h : (throwing ρ c).Run onlyEnds (init c (some (List.range n)) none) os t) : Counted os t :=
  h.traceInvariant (I := Counted) (counted_init hn) fun _ _ _ _ ht ho hs => counted_occur ht ho hs

/-- Without tasks nothing happens, and the stream stays open. -/
theorem idle_run {stayAlive : Option Bool}
    (h : (throwing ρ c).Run onlyEnds (init c (some []) stayAlive) os t) : t.log = [] := by
  have hinv : t.running = [] ∧ t.log = [] := by
    refine h.invariant (I := fun u => u.running = [] ∧ u.log = []) ⟨rfl, rfl⟩ ?_
    intro u o v hu ho hs
    obtain ⟨hrunning, hlog⟩ := hu
    cases o with
    | throws task => simp [throwing, occur, hrunning] at hs
    | event e =>
        cases e with
        | complete task result => simp [throwing, occur, step, hrunning] at hs
        | addAll tasks => exact ho.elim
        | stop => exact ho.elim
  exact hinv.2

/-- **Without exceptions** it is a run of the runner whose tasks do not throw. -/
theorem events_run {start : State ρ} (h : (throwing ρ c).Run onlyEnds start os t)
    (hthrown : thrown os = 0) :
    ∃ es, os = es.map .event ∧ (machine ρ c).Run onlyCompletes start es t := by
  induction h with
  | start => exact ⟨[], rfl, .start⟩
  | step os o u v _ ho hs ih =>
      rw [thrown_snoc] at hthrown
      obtain ⟨es, rfl, hrun⟩ := ih (by omega)
      cases o with
      | throws task => simp [Occurrence.isThrow] at hthrown
      | event e =>
          cases e with
          | complete task result =>
              have hcompletes : onlyCompletes u (.complete task result) := rfl
              exact ⟨es ++ [.complete task result], by simp,
                .step es (.complete task result) u v hrun hcompletes hs⟩
          | addAll tasks => exact ho.elim
          | stop => exact ho.elim

end Count

/-! ## 3. When nothing stalls -/

section Stall

variable {ρ : Type} {n c : Nat} {t : State ρ}

/-- The results of a run without exceptions. -/
theorem results_map (es : List (Event ρ)) :
    results (es.map .event) = (completions es).map Prod.snd := by
  induction es with
  | nil => rfl
  | cons e es ih =>
      cases e with
      | complete task result =>
          change result :: results (es.map .event) = result :: (completions es).map Prod.snd
          rw [ih]
      | addAll tasks => exact ih
      | stop => exact ih

/-- The runner whose tasks do not throw, at its end. -/
theorem unstalled_events (hc : 1 ≤ c) {es : List (Event ρ)}
    (hworking : Working c n (completions es) t) (hdone : t.running = []) :
    Unstalled n (es.map .event) t := by
  have hlength := hworking.length
  rw [hdone, List.length_nil] at hlength
  have hall : (completions es).length = n := by omega
  have htaken := hworking.taken
  have hmin : min n (c + (completions es).length) = n := by omega
  rw [hdone, List.append_nil, hmin] at htaken
  constructor
  · intro task htask _
    have hmem : task ∈ (completions es).map Prod.fst :=
      htaken.mem_iff.mpr (List.mem_range.mpr htask)
    obtain ⟨⟨task', result⟩, hcompletion, rfl⟩ := List.mem_map.mp hmem
    obtain ⟨e, he, hcompleted⟩ := List.mem_filterMap.mp hcompletion
    cases e with
    | complete task' result' =>
        obtain ⟨rfl, rfl⟩ := Prod.mk.inj (Option.some.inj hcompleted)
        exact ⟨_, List.mem_map.mpr ⟨_, he, rfl⟩⟩
    | addAll tasks => cases hcompleted
    | stop => cases hcompleted
  · rw [hworking.noticed, if_pos hall, results_map, List.map_map]
    rfl

end Stall

/-- **A failing task stalls the runner.** When all that was started has ended, the other tasks have
    run and the stream is closed exactly if there are tasks and none of them threw. -/
theorem unstalled_iff {ρ : Type} (concurrency n : Nat) {stayAlive : Option Bool}
    {os : List (Occurrence ρ)} {t : State ρ} (hc : 1 ≤ concurrency) (hstay : stayAlive ≠ some true)
    (h : (throwing ρ concurrency).Run onlyEnds
      (init concurrency (some (List.range n)) stayAlive) os t) (hdone : t.running = []) :
    Unstalled n os t ↔ 0 < n ∧ thrown os = 0 := by
  rcases Nat.eq_zero_or_pos n with rfl | hn
  · refine iff_of_false (fun hall => ?_) fun h => Nat.lt_irrefl 0 h.1
    have hemitted := hall.emitted
    rw [idle_run h] at hemitted
    simp at hemitted
  · rw [init_unset hstay hn] at h
    constructor
    · intro hall
      have hcounted := counted_run hn h
      have hclose : (.close : Output ρ) ∈ t.log.filter Output.noticed := by
        rw [hall.emitted]
        simp
      have hcloses := hcounted.opened.tally.closes
      have hpos : 0 < t.log.countP Output.isClose :=
        List.countP_pos_iff.mpr ⟨.close, List.mem_of_mem_filter hclose, rfl⟩
      rw [hcloses] at hpos
      have hclosed : t.isClosed = true := by
        cases hflag : t.isClosed with
        | true => rfl
        | false => simp [hflag] at hpos
      exact ⟨hn, hcounted.closed hclosed⟩
    · intro hnone
      obtain ⟨es, rfl, hrun⟩ := events_run h hnone.2
      exact unstalled_events hc (working_run hn hrun) hdone

/-- Three tasks, two at a time, each with a result. -/
theorem unstalled_iff_threeTasks :
    ∃ t, (throwing String 2).Run onlyEnds (init 2 (some (List.range 3)) none)
        (threeTasks.map .event) t ∧ Unstalled 3 (threeTasks.map .event) t := by
  have hrun : (((throwing String 2).guarded onlyEnds).run (init 2 (some (List.range 3)) none)
      (threeTasks.map .event)).map State.running = some [] := rfl
  obtain ⟨t, ht, hdone⟩ := Machine.run_observe_guarded hrun
  exact ⟨t, ht, (unstalled_iff 2 3 (by decide) (by decide) ht hdone).mpr ⟨by decide, rfl⟩⟩

/-- **Two of three tasks throw**, two at a time: the third one is never started, and the stream
    stays open. -/
theorem stalled :
    ∃ t, (throwing String 2).Run onlyEnds (init 2 (some (List.range 3)) none)
        [.throws 0, .throws 1] t ∧
      t.running = [] ∧ t.queue = [2] ∧ t.isClosed = false ∧
      ¬ Unstalled 3 [.throws 0, .throws 1] t := by
  have hrun : (((throwing String 2).guarded onlyEnds).run (init 2 (some (List.range 3)) none)
      [.throws 0, .throws 1]).map (fun t => (t.running, t.queue, t.isClosed)) =
        some ([], [2], false) := rfl
  obtain ⟨t, ht, hseen⟩ := Machine.run_observe_guarded hrun
  obtain ⟨hrunning, hseen⟩ := Prod.mk.inj hseen
  obtain ⟨hqueue, hclosed⟩ := Prod.mk.inj hseen
  refine ⟨t, ht, hrunning, hqueue, hclosed, fun hall => ?_⟩
  obtain ⟨result, hmem⟩ := hall.run 2 (by decide) (by simp)
  simp at hmem

end LocalSend.TaskRunner
