/-
  File:      LocalSend/Common/ProgressNotifier.lean
  Subject:   PROGRESS FOR THE LISTENERS, THROTTLED (`provider/progress_provider.dart`).

  * `Signal`, `ChangedSinceNotified`, `lastSeen` -- what listeners can tell of a run: when the map
    was written, when they were notified, and what they read then;
  * `ProgressNotifier` -- the map, the throttle timer and the flag; its methods and the callback of
    the timer, each with its signals in the order of the code;
  * `getProgress_write` -- a progress that is set is the one that is read;
  * `lastSet` -- what was set last and not removed, from the calls alone; `getProgress_run` -- the
    map holds just this;
  * `Notified` -- the invariant: a pending notification has a running timer, and without one the
    listeners know of every change;
  * **`changed_pending`** -- a change the listeners do not know of is pending, and when the timer
    fires they read the progress that was set last, of every file.

  `dispose` ends the notifier and is no step of a run.
-/
import LocalSend.Lib.LinkedMap
import LocalSend.Lib.Machine

namespace LocalSend.Progress

open Lib

/-! ## 1. What the listeners see -/

section Listeners

variable {μ : Type}

/-- What a method does to the outside: it writes the map, or calls `notifyListeners`, and they
    read the map as it is. -/
inductive Signal (μ : Type) where
  | changed
  | notified (map : μ)

/-- **The map was changed since listeners were last notified.** -/
def ChangedSinceNotified (log : List (Signal μ)) : Prop :=
  ∃ before after, log = before ++ .changed :: after ∧ ∀ map, .notified map ∉ after

/-- What the listeners read when they were last notified. -/
def lastSeen (start : μ) (log : List (Signal μ)) : μ :=
  log.foldl (fun seen signal =>
    match signal with
    | .changed => seen
    | .notified map => map) start

theorem not_changed_nil : ¬ChangedSinceNotified ([] : List (Signal μ)) := by
  intro h
  obtain ⟨before, after, heq, -⟩ := h
  cases before <;> cases heq

theorem changed_changed (log : List (Signal μ)) : ChangedSinceNotified (log ++ [.changed]) :=
  ⟨log, [], rfl, fun _ h => absurd h List.not_mem_nil⟩

theorem not_changed_notified (log : List (Signal μ)) (map : μ) :
    ¬ChangedSinceNotified (log ++ [.notified map]) := by
  intro h
  obtain ⟨before, after, heq, hafter⟩ := h
  rcases List.eq_nil_or_concat' after with rfl | ⟨after, last, rfl⟩
  · cases (List.append_inj' heq rfl).2
  · rw [← List.cons_append, ← List.append_assoc] at heq
    obtain rfl := List.singleton_inj.mp (List.append_inj' heq rfl).2
    exact hafter map (List.mem_append_right _ List.mem_cons_self)

@[simp] theorem lastSeen_notified (start : μ) (log : List (Signal μ)) (map : μ) :
    lastSeen start (log ++ [.notified map]) = map := by
  simp [lastSeen]

end Listeners

/-! ## 2. The notifier -/

variable {α : Type}

/-- Session id to file id to progress. -/
abbrev ProgressMap (α : Type) := LinkedMap String (LinkedMap String α)

structure Timer where
  isActive : Bool

/-- `ProgressNotifier`. -/
structure ProgressNotifier (α : Type) where
  progressMap : ProgressMap α
  throttleTimer : Option Timer
  pendingNotification : Bool

namespace ProgressNotifier

def init : ProgressNotifier α := ⟨.empty, none, false⟩

/-- `_throttleTimer?.isActive == true`. -/
def timerActive (n : ProgressNotifier α) : Bool :=
  match n.throttleTimer with
  | none => false
  | some timer => timer.isActive

/-- The map with a progress in it; a session is added with its first file. -/
def write (map : ProgressMap α) (sessionId fileId : String) (progress : α) : ProgressMap α :=
  match map.get? sessionId with
  | none => map.insert sessionId (LinkedMap.empty.insert fileId progress)
  | some progressMap => map.insert sessionId (progressMap.insert fileId progress)

def setProgress (n : ProgressNotifier α) (sessionId fileId : String) (progress : α) :
    ProgressNotifier α × List (Signal (ProgressMap α)) :=
  let map := write n.progressMap sessionId fileId progress
  if n.timerActive then
    ({ n with progressMap := map, pendingNotification := true }, [.changed])
  else
    (⟨map, some ⟨true⟩, false⟩, [.changed, .notified map])

def setProgressImmediate (n : ProgressNotifier α) (sessionId fileId : String) (progress : α) :
    ProgressNotifier α × List (Signal (ProgressMap α)) :=
  let map := write n.progressMap sessionId fileId progress
  ({ n with progressMap := map, pendingNotification := false }, [.changed, .notified map])

def getProgress (map : ProgressMap α) (sessionId fileId : String) (zero : α) : α :=
  ((map.get? sessionId).bind (·.get? fileId)).getD zero

theorem write_eq (map : ProgressMap α) (sessionId fileId : String) (progress : α) :
    write map sessionId fileId progress =
      map.insert sessionId (((map.get? sessionId).getD .empty).insert fileId progress) := by
  rw [write]
  cases map.get? sessionId with
  | none => rfl
  | some progressMap => rfl

/-- **A progress that is set** is the one that is read, and no other one changes. -/
theorem getProgress_write (map : ProgressMap α) (sessionId fileId session file : String)
    (progress zero : α) :
    getProgress (write map sessionId fileId progress) session file zero =
      if session = sessionId ∧ file = fileId then progress
      else getProgress map session file zero := by
  rw [getProgress, write_eq, LinkedMap.get?_insert]
  by_cases hsession : session = sessionId
  · subst hsession
    rw [if_pos rfl, Option.bind_some, LinkedMap.get?_insert]
    by_cases hfile : file = fileId
    · simp [hfile]
    · rw [if_neg hfile, if_neg fun h => hfile h.2, getProgress]
      cases map.get? session with
      | none => rfl
      | some files => rfl
  · rw [if_neg hsession, if_neg fun h => hsession h.1, getProgress]

def removeSession (n : ProgressNotifier α) (sessionId : String) :
    ProgressNotifier α × List (Signal (ProgressMap α)) :=
  let map := n.progressMap.erase sessionId
  ({ n with progressMap := map }, [.changed, .notified map])

def removeAllSessions (n : ProgressNotifier α) :
    ProgressNotifier α × List (Signal (ProgressMap α)) :=
  ({ n with progressMap := .empty }, [.changed, .notified .empty])

/-- The callback of the throttle timer, which is not active any more when it runs. -/
def onTimer (n : ProgressNotifier α) : ProgressNotifier α × List (Signal (ProgressMap α)) :=
  if n.pendingNotification then
    (⟨n.progressMap, some ⟨false⟩, false⟩, [.notified n.progressMap])
  else ({ n with throttleTimer := some ⟨false⟩ }, [])

end ProgressNotifier

open ProgressNotifier

/-! ## 3. Runs -/

/-- A call of a method, or the timer fires. -/
inductive Event (α : Type) where
  | setProgress (sessionId fileId : String) (progress : α)
  | setProgressImmediate (sessionId fileId : String) (progress : α)
  | removeSession (sessionId : String)
  | removeAllSessions
  | timerFires

/-- An event, with its signals; only an active timer fires. -/
def act (n : ProgressNotifier α) : Event α →
    Option (ProgressNotifier α × List (Signal (ProgressMap α)))
  | .setProgress sessionId fileId progress => some (n.setProgress sessionId fileId progress)
  | .setProgressImmediate sessionId fileId progress =>
    some (n.setProgressImmediate sessionId fileId progress)
  | .removeSession sessionId => some (n.removeSession sessionId)
  | .removeAllSessions => some n.removeAllSessions
  | .timerFires => if n.timerActive then some n.onTimer else none

def machine (α : Type) : Machine (ProgressNotifier α) (Event α) where
  step n e := (act n e).map (·.1)

/-- The signals of a step. -/
def signals (n : ProgressNotifier α) (e : Event α) : List (Signal (ProgressMap α)) :=
  ((act n e).map (·.2)).getD []

/-- The signals of a run from the start. -/
def log (es : List (Event α)) : List (Signal (ProgressMap α)) := (machine α).trace signals init es

/-- What one event does to the progress of a file that was set last. -/
def Event.lastSet (sessionId fileId : String) (last : Option α) : Event α → Option α
  | .setProgress session file progress | .setProgressImmediate session file progress =>
    if sessionId = session ∧ fileId = file then some progress else last
  | .removeSession session => if sessionId = session then none else last
  | .removeAllSessions => none
  | .timerFires => last

/-- **The progress that was set last** for a file, and not removed since. -/
def lastSet (es : List (Event α)) (sessionId fileId : String) : Option α :=
  es.foldl (Event.lastSet sessionId fileId) none

/-- **The invariant**: a pending notification has a running timer, without a pending one the
    listeners know of every change, and who knows of every change has seen the map as it is. -/
structure Notified (log : List (Signal (ProgressMap α))) (n : ProgressNotifier α) : Prop where
  timer : n.pendingNotification = true → n.timerActive = true
  known : n.pendingNotification = false → ¬ChangedSinceNotified log
  seen : ¬ChangedSinceNotified log → lastSeen .empty log = n.progressMap

section Invariant

variable {before : List (Signal (ProgressMap α))} {n : ProgressNotifier α} {e : Event α}

variable {map : ProgressMap α} {timer : Option Timer} {pending : Bool}

/-- Listeners that were just notified have seen the map as it is. -/
theorem Notified.of_notified (htimer : pending = true → timerActive ⟨map, timer, pending⟩ = true) :
    Notified (before ++ [.notified map]) ⟨map, timer, pending⟩ where
  timer := htimer
  known _ := not_changed_notified _ _
  seen _ := lastSeen_notified _ _ _

/-- A change that is told at once. -/
theorem Notified.of_changed_notified
    (htimer : pending = true → timerActive ⟨map, timer, pending⟩ = true) :
    Notified (before ++ [.changed, .notified map]) ⟨map, timer, pending⟩ := by
  have hlog : before ++ [.changed, .notified map] = (before ++ [.changed]) ++ [.notified map] := by
    simp
  rw [hlog]
  exact .of_notified htimer

theorem progressMap_setProgress (sessionId fileId : String) (progress : α) :
    (n.setProgress sessionId fileId progress).1.progressMap =
      write n.progressMap sessionId fileId progress := by
  rw [setProgress]
  split
  · rfl
  · rfl

theorem notified_setProgress (sessionId fileId : String) (progress : α) :
    Notified (before ++ (n.setProgress sessionId fileId progress).2)
      (n.setProgress sessionId fileId progress).1 := by
  rw [setProgress]
  split
  · rename_i hactive
    exact ⟨fun _ => hactive, fun hpending => Bool.noConfusion hpending,
      fun hno => absurd (changed_changed before) hno⟩
  · exact .of_changed_notified fun hpending => Bool.noConfusion hpending

@[simp] theorem progressMap_onTimer : n.onTimer.1.progressMap = n.progressMap := by
  rw [onTimer]
  split
  · rfl
  · rfl

theorem notified_onTimer (h : Notified before n) :
    Notified (before ++ n.onTimer.2) n.onTimer.1 ∧ n.onTimer.1.pendingNotification = false := by
  rw [onTimer]
  split
  · exact ⟨.of_notified fun hpending => Bool.noConfusion hpending, rfl⟩
  · rename_i hpending
    rw [Bool.not_eq_true] at hpending
    rw [List.append_nil]
    exact ⟨⟨fun htrue => absurd (hpending.symm.trans htrue) Bool.false_ne_true, h.known, h.seen⟩,
      hpending⟩

/-- **One step**: every event keeps the invariant. -/
theorem notified_act (h : Notified before n) {r : ProgressNotifier α × List (Signal (ProgressMap α))}
    (hact : act n e = some r) : Notified (before ++ r.2) r.1 := by
  cases e with
  | setProgress sessionId fileId progress =>
      obtain rfl := Option.some.inj hact
      exact notified_setProgress sessionId fileId progress
  | setProgressImmediate sessionId fileId progress =>
      obtain rfl := Option.some.inj hact
      exact .of_changed_notified fun hpending => Bool.noConfusion hpending
  | removeSession sessionId =>
      obtain rfl := Option.some.inj hact
      exact .of_changed_notified h.timer
  | removeAllSessions =>
      obtain rfl := Option.some.inj hact
      exact .of_changed_notified h.timer
  | timerFires =>
      rw [act] at hact
      split at hact
      · rename_i hactive
        obtain rfl := Option.some.inj hact
        exact (notified_onTimer h).1
      · cases hact

end Invariant

/-- **Every reachable state**: the invariant holds with the signals of the run. -/
theorem notified_run {es : List (Event α)} {n : ProgressNotifier α}
    (h : (machine α).Run Machine.anyStep init es n) : Notified (log es) n := by
  refine Machine.Run.shownInvariant (I := Notified) ?_ ?_ h
  · exact ⟨fun hpending => Bool.noConfusion hpending, fun _ => not_changed_nil, fun _ => rfl⟩
  · intro before n e u hn _ hs
    obtain ⟨r, hr, rfl⟩ := Option.map_eq_some_iff.mp hs
    have hsignals : signals n e = r.2 := by simp [signals, hr]
    rw [hsignals]
    exact notified_act hn hr

theorem step_timerFires {n n' : ProgressNotifier α}
    (hs : (machine α).step n .timerFires = some n') : n' = n.onTimer.1 := by
  obtain ⟨r, hr, rfl⟩ := Option.map_eq_some_iff.mp hs
  rw [act] at hr
  split at hr
  · obtain rfl := Option.some.inj hr
    rfl
  · cases hr

/-- A session that is removed is read as if it had never been there. -/
theorem getProgress_erase (map : ProgressMap α) (sessionId session file : String) (zero : α) :
    getProgress (map.erase sessionId) session file zero =
      if session = sessionId then zero else getProgress map session file zero := by
  rw [getProgress, LinkedMap.get?_erase]
  by_cases h : session = sessionId
  · rw [if_pos h, if_pos h]
    rfl
  · rw [if_neg h, if_neg h, getProgress]

/-- **One step**: the map holds what was set last. -/
theorem getProgress_act {n : ProgressNotifier α} {e : Event α}
    {r : ProgressNotifier α × List (Signal (ProgressMap α))} (hact : act n e = some r)
    {session file : String} {last : Option α} {zero : α}
    (h : getProgress n.progressMap session file zero = last.getD zero) :
    getProgress r.1.progressMap session file zero = (e.lastSet session file last).getD zero := by
  have hset : ∀ (sessionId fileId : String) (progress : α),
      getProgress (write n.progressMap sessionId fileId progress) session file zero =
        (if session = sessionId ∧ file = fileId then some progress else last).getD zero := by
    intro sessionId fileId progress
    rw [getProgress_write]
    split
    · rfl
    · exact h
  cases e with
  | setProgress sessionId fileId progress =>
      obtain rfl := Option.some.inj hact
      rw [progressMap_setProgress]
      exact hset sessionId fileId progress
  | setProgressImmediate sessionId fileId progress =>
      obtain rfl := Option.some.inj hact
      exact hset sessionId fileId progress
  | removeSession sessionId =>
      obtain rfl := Option.some.inj hact
      rw [removeSession, getProgress_erase, Event.lastSet]
      split
      · rfl
      · exact h
  | removeAllSessions =>
      obtain rfl := Option.some.inj hact
      rfl
  | timerFires =>
      rw [act, Option.ite_none_right_eq_some] at hact
      obtain rfl := Option.some.inj hact.2
      rw [progressMap_onTimer]
      exact h

/-- **The map holds what was set last**, of every file and in every reachable state. -/
theorem getProgress_run {es : List (Event α)} {n : ProgressNotifier α}
    (h : (machine α).Run Machine.anyStep init es n) (session file : String) (zero : α) :
    getProgress n.progressMap session file zero = (lastSet es session file).getD zero := by
  refine Machine.Run.traceInvariant (I := fun es n =>
    getProgress n.progressMap session file zero = (lastSet es session file).getD zero) rfl ?_ h
  intro es n e u hn _ hs
  obtain ⟨r, hr, rfl⟩ := Option.map_eq_some_iff.mp hs
  rw [lastSet, List.foldl_append]
  exact getProgress_act hr hn

/-- **When the timer fires the listeners are told**: they have seen the map as it is. -/
theorem timerFires_told {es : List (Event α)} {n n' : ProgressNotifier α}
    (h : (machine α).Run Machine.anyStep init es n)
    (hs : (machine α).step n .timerFires = some n') :
    ¬ChangedSinceNotified (log (es ++ [.timerFires])) ∧
      lastSeen .empty (log (es ++ [.timerFires])) = n'.progressMap := by
  have hn' := notified_run (.step es .timerFires n n' h trivial hs)
  have hknown : ¬ChangedSinceNotified (log (es ++ [.timerFires])) := by
    refine hn'.known ?_
    rw [step_timerFires hs]
    exact (notified_onTimer (notified_run h)).2
  exact ⟨hknown, hn'.seen hknown⟩

/-- **Throttling loses no final progress.** In every reachable state, if the map was changed since
    listeners were last notified, the throttle timer is active and a notification is pending; if it
    was not, they read the progress that was set last; and they do so, of every file, when the
    timer has fired. -/
theorem changed_pending {es : List (Event α)} {n : ProgressNotifier α}
    (h : (machine α).Run Machine.anyStep init es n) :
    (ChangedSinceNotified (log es) → n.timerActive = true ∧ n.pendingNotification = true) ∧
    (¬ChangedSinceNotified (log es) → ∀ session file zero,
      getProgress (lastSeen .empty (log es)) session file zero =
        (lastSet es session file).getD zero) ∧
    ∀ n', (machine α).step n .timerFires = some n' →
      ¬ChangedSinceNotified (log (es ++ [.timerFires])) ∧
      lastSeen .empty (log (es ++ [.timerFires])) = n'.progressMap ∧
      ∀ session file zero, getProgress (lastSeen .empty (log (es ++ [.timerFires]))) session file
        zero = (lastSet es session file).getD zero := by
  have hn := notified_run h
  refine ⟨fun hchanged => ?_, fun hknown session file zero => ?_, fun n' hs => ?_⟩
  · have hpending : n.pendingNotification = true := by
      by_contra hno
      exact hn.known (by simpa using hno) hchanged
    exact ⟨hn.timer hpending, hpending⟩
  · rw [hn.seen hknown]
    exact getProgress_run h session file zero
  · obtain ⟨hknown, hseen⟩ := timerFires_told h hs
    refine ⟨hknown, hseen, fun session file zero => ?_⟩
    rw [hseen, step_timerFires hs, progressMap_onTimer]
    exact getProgress_run h session file zero

/-- Two updates within the throttle time: the second one is pending, and told by the timer. -/
theorem changed_pending_twice :
    ∃ n n' : ProgressNotifier Nat,
      (machine Nat).Run Machine.anyStep init
        [.setProgress "s" "f" 1, .setProgress "s" "f" 2] n ∧
      n.timerActive = true ∧ n.pendingNotification = true ∧
      (machine Nat).step n .timerFires = some n' ∧
      getProgress (lastSeen .empty (log [.setProgress "s" "f" 1, .setProgress "s" "f" 2,
        .timerFires])) "s" "f" 0 = 2 := by
  have hrun : (machine Nat).Run Machine.anyStep init
      [.setProgress "s" "f" 1, .setProgress "s" "f" 2] _ := Machine.run_sound rfl
  obtain ⟨hpending, -, hfires⟩ := changed_pending hrun
  obtain ⟨hactive, hflag⟩ := hpending ⟨[.changed, .notified _], [], rfl, fun _ h => by cases h⟩
  exact ⟨_, _, hrun, hactive, hflag, rfl, (hfires _ rfl).2.2 "s" "f" 0⟩

end LocalSend.Progress
