/-
  File:      LocalSend/Isolates/ListenerRestarts.lean
  Subject:   RESTARTING THE MULTICAST LISTENER: `restartListener` completes `_cancelCompleter`, and
             completing it twice throws. Only a round whose sockets are open puts a new completer in
             its place.

  * `completes` -- the steps that call `_cancelCompleter.complete()`;
  * `NeverTwice` -- no step of the run completes a completed completer;
  * `asks` -- what asks the loop to start over: a restart message, or an event with another
    configuration; `mayAsk` -- where that may come: once while the loop listens, once before it has
    listened at all, never while it pauses or opens the sockets of a later round;
  * `Marked`, `marked_step` -- where the loop stands after what it was asked and has opened;
  * **`never_twice_iff`** -- a run never completes twice exactly if it is `Unhurried`.
-/
import LocalSend.Isolates.MulticastListener

namespace LocalSend.Isolates.MulticastListener

open Lib

/-! ## 1. Restarts -/

/-- **The step calls `_cancelCompleter.complete()`.** -/
def completes (s : State) (e : Event) : Bool :=
  match e, s.phase with
  | .restartListener, _ => true
  | .handleSync, .opening round | .handleSync, .listening round => round.onEvent.any Prod.snd
  | _, _ => false

/-- **No step of the run completes a completed completer.** -/
def NeverTwice (s : State) (es : List Event) : Prop :=
  listener.Along (fun _ t e => completes t e = true → t.cancelCompleted = false) [] s es

/-- **The loop is asked to start over**: by a restart message, or by an event it reads with
    another configuration than the one it goes by. -/
def asks (s : State) (e : Event) : Bool :=
  match e, s.phase with
  | .restartListener, _ => true
  | .handleSync, .opening round | .handleSync, .listening round =>
    round.events.head?.any fun next => config next ≠ config round.syncState
  | _, _ => false

/-- What the schedule shows: the loop is asked, the sockets of a round are open. -/
inductive Mark where
  | asked
  | opened
  deriving DecidableEq, Repr

def marks (s : State) (e : Event) : List Mark :=
  if asks s e then [.asked] else if e = .opened then [.opened] else []

/-- **Where the loop may be asked**: while it listens, if nothing has asked since its sockets are
    open; and before the sockets of the first round are open, if nothing has asked yet. -/
def mayAsk (before : List Mark) : Phase → Prop
  | .listening _ => before.getLast? = some .opened
  | .idle | .opening _ => before = []
  | .sleeping | .terminated => False

/-- **The loop is only asked where it may be.** -/
def Unhurried (s : State) (es : List Event) : Prop :=
  listener.Along (fun fs t e => asks t e = true → mayAsk (listener.trace marks s fs) t.phase) [] s es

section Step

variable {s t : State} {e : Event}

/-- **The completer is completed where the loop is asked.** -/
theorem completes_eq_asks (s : State) (e : Event) : completes s e = asks s e := by
  have hround : ∀ round : Round, round.onEvent.any Prod.snd =
      round.events.head?.any fun next => config next ≠ config round.syncState := by
    intro round
    unfold Round.onEvent
    split
    · rename_i hevents
      rw [hevents]
      rfl
    · rename_i next events hevents
      rw [hevents]
      split
      · rename_i hne
        simp [hne]
      · rename_i heq
        simp [not_not.mp heq]
  unfold completes asks
  split <;> simp only [hround]

theorem completed_handled (s : State) (phase : Phase) (restart : Bool) :
    (handled s phase restart).cancelCompleted = (restart || s.cancelCompleted) := by
  unfold handled
  split
  · rename_i hrestart
    rw [hrestart, Bool.false_or]
  · rename_i hrestart
    rw [Bool.not_eq_false] at hrestart
    split
    · rename_i hcompleted
      rw [hrestart, hcompleted, Bool.true_or]
    · rw [hrestart, Bool.true_or]

/-- The completer after the subscription has read an event. -/
theorem completed_handleSync (hs : handleSync s = some t) :
    t.cancelCompleted = (completes s .handleSync || s.cancelCompleted) := by
  unfold handleSync at hs
  split at hs
  · rename_i round hphase
    obtain ⟨r, hr, rfl⟩ := Option.map_eq_some_iff.mp hs
    rw [completed_handled]
    simp only [completes, hphase, hr, Option.any_some]
  · rename_i round hphase
    obtain ⟨r, hr, rfl⟩ := Option.map_eq_some_iff.mp hs
    rw [completed_handled]
    simp only [completes, hphase, hr, Option.any_some]
  · cases hs

/-- **The completer after a step**: completed by a restart, a new one when the sockets are open. -/
theorem completed_step (hs : listener.step s e = some t) :
    t.cancelCompleted = (completes s e || (s.cancelCompleted && e ≠ .opened)) := by
  simp only [listener, step] at hs
  split at hs
  · cases hs
  · cases hs
    simp [completes, nextRound]
  · cases hs
    simp [completes]
  · cases hs
    simp [completes, updateSyncState]
  · rw [completed_handleSync hs]
    simp
  · cases hs
    simp [completes, restartListener]
  · cases hs
    simp [completes]
  · cases hs
    simp [completes]
  · split at hs
    · cases hs
      simp [completes]
    · cases hs
  · cases hs
    simp [completes, nextRound]
  · cases hs

/-- **Where the loop stands** after what it was asked and has opened: its completer is completed if
    it was asked last; and outside a listening round that is so, or nothing has happened yet. -/
def Marked (before : List Mark) (s : State) : Prop :=
  s.cancelCompleted = decide (before.getLast? = some .asked) ∧
  match s.phase with
  | .listening _ => before ≠ []
  | .idle | .opening _ => before ≠ [] → s.cancelCompleted = true
  | .sleeping | .terminated => s.cancelCompleted = true

/-- **A step that neither asks nor opens** keeps the loop where it is, lets it pause when it was
    asked, or lets it go on from its pause. -/
theorem quiet_step (hask : asks s e = false) (hopen : e ≠ .opened) (hs : listener.step s e = some t)
    (before : List Mark) (h : Marked before s) : Marked before t := by
  have hcompleted : t.cancelCompleted = s.cancelCompleted := by
    rw [completed_step hs, completes_eq_asks, hask]
    simp [hopen]
  obtain ⟨hlast, hphase⟩ := h
  refine ⟨hcompleted.trans hlast, ?_⟩
  rw [hcompleted]
  simp only [listener, step] at hs
  split at hs
  · cases hs
  · rename_i hidle
    cases hs
    rw [hidle] at hphase
    exact hphase
  · cases hs
    exact hphase
  · cases hs
    obtain ⟨provider, completed, phase⟩ := s
    cases phase <;> exact hphase
  · -- an event with the same configuration is read
    unfold handleSync at hs
    rw [← completes_eq_asks] at hask
    split at hs
    · rename_i round hround
      obtain ⟨r, hr, rfl⟩ := Option.map_eq_some_iff.mp hs
      have hr' : r.2 = false := by simpa [completes, hround, hr] using hask
      rw [hround] at hphase
      rw [handled, if_pos hr']
      exact hphase
    · rename_i round hround
      obtain ⟨r, hr, rfl⟩ := Option.map_eq_some_iff.mp hs
      have hr' : r.2 = false := by simpa [completes, hround, hr] using hask
      rw [hround] at hphase
      rw [handled, if_pos hr']
      exact hphase
    · cases hs
  · cases hask
  · exact absurd rfl hopen
  · rename_i hopening
    cases hs
    rw [hopening] at hphase
    exact hphase
  · split at hs
    · rename_i hstop
      cases hs
      exact hstop
    · cases hs
  · rename_i hsleeping
    cases hs
    rw [hsleeping] at hphase
    exact fun _ => hphase
  · cases hs

/-- **Every step keeps the loop where its marks say.** -/
theorem marked_step (before : List Mark) (h : Marked before s) (hs : listener.step s e = some t) :
    Marked (before ++ marks s e) t := by
  have hcompleted := completed_step hs
  rw [completes_eq_asks] at hcompleted
  unfold marks
  cases hask : asks s e with
  | true =>
      -- whatever the phase, it was asked last
      rw [hask, Bool.true_or] at hcompleted
      rw [if_pos rfl]
      refine ⟨by simp [hcompleted], ?_⟩
      rw [hcompleted]
      cases t.phase <;> simp
  | false =>
      rw [if_neg Bool.false_ne_true]
      by_cases hopen : e = .opened
      · subst hopen
        rw [if_pos rfl]
        refine ⟨by simp [hcompleted, hask], ?_⟩
        obtain ⟨provider, completed, phase⟩ := s
        cases phase with
        | opening round =>
            cases hs
            exact List.append_ne_nil_of_right_ne_nil before (List.cons_ne_nil _ _)
        | _ => cases hs
      · rw [if_neg hopen, List.append_nil]
        exact quiet_step hask hopen hs before h

/-- **The completer of a state is new** exactly where the loop may be asked. -/
theorem mayAsk_iff {before : List Mark} (h : Marked before s) :
    s.cancelCompleted = false ↔ mayAsk before s.phase := by
  obtain ⟨hlast, hphase⟩ := h
  have hopened : before ≠ [] → (s.cancelCompleted = false ↔ before.getLast? = some .opened) := by
    intro hne
    rw [hlast, decide_eq_false_iff_not, List.getLast?_eq_some_getLast hne]
    cases before.getLast hne <;> simp
  cases hp : s.phase with
  | listening round =>
      rw [hp] at hphase
      exact hopened hphase
  | idle | opening round =>
      rw [hp] at hphase
      show s.cancelCompleted = false ↔ before = []
      constructor
      · intro hnew
        by_contra hne
        rw [hphase hne] at hnew
        cases hnew
      · rintro rfl
        exact hlast
  | sleeping | terminated =>
      rw [hp] at hphase
      exact iff_of_false (fun hnew => by rw [hphase] at hnew; cases hnew) not_false

end Step

/-! ## 2. Every run -/

section Runs

variable {s : State} {es : List Event} {syncState : SyncState}

/-- **No completed completer is completed**, exactly if the loop is asked to start over at most once
    in each listening round, at most once before the first one, and never while it pauses or opens
    the sockets of a later round. -/
theorem never_twice_iff (h : listener.Run Machine.anyStep (.initial syncState) es s) :
    NeverTwice (.initial syncState) es ↔ Unhurried (.initial syncState) es := by
  have hmarked : ∀ fs t, listener.Run Machine.anyStep (.initial syncState) fs t →
      Marked (listener.trace marks (.initial syncState) fs) t := fun fs t hr =>
    hr.shownInvariant (f := marks) ⟨rfl, fun h => absurd rfl h⟩
      fun before t e u ht _ hs => marked_step before ht hs
  refine h.along_iff (I := listener.Run Machine.anyStep (.initial syncState)) .start
    (fun fs t e u ht _ hs => .step fs e t u ht trivial hs) fun fs t e ht => ?_
  rw [completes_eq_asks, mayAsk_iff (hmarked fs t ht)]

instance (s : State) (es : List Event) : Decidable (NeverTwice s es) :=
  inferInstanceAs (Decidable (listener.Along _ [] s es))

instance (before : List Mark) (phase : Phase) : Decidable (mayAsk before phase) := by
  unfold mayAsk
  split <;> infer_instance

instance (s : State) (es : List Event) : Decidable (Unhurried s es) :=
  inferInstanceAs (Decidable (listener.Along _ [] s es))

/-- A restart is requested while the listener listens, and again when it listens again. -/
theorem never_twice_iff_unhurriedRun :
    ∃ s, listener.Run Machine.anyStep (.initial demoState) [.startListener, .opened,
        .restartListener, .stopped, .awake, .opened, .restartListener] s ∧
      NeverTwice (.initial demoState) [.startListener, .opened, .restartListener, .stopped, .awake,
        .opened, .restartListener] := by
  have hrun : (listener.run (.initial demoState) [.startListener, .opened, .restartListener,
      .stopped, .awake, .opened, .restartListener]).map State.cancelCompleted = some true := by
    decide
  obtain ⟨s, hs, _⟩ := Machine.run_observe hrun
  exact ⟨s, hs, (never_twice_iff hs).mpr (by decide)⟩

/-- **A completer is completed twice**: a change of the settings and a restart request come while
    the listener is listening; or a change comes while it pauses before its next round, which ends
    the isolate. -/
theorem completed_twice :
    (∃ s, listener.Run Machine.anyStep (.initial demoState) [.startListener, .opened,
      .updateSyncState regrouped, .handleSync, .restartListener] s) ∧
    ¬ NeverTwice (.initial demoState) [.startListener, .opened, .updateSyncState regrouped,
      .handleSync, .restartListener] ∧
    (∃ s, listener.Run Machine.anyStep (.initial demoState) [.startListener, .opened,
      .restartListener, .stopped, .awake, .updateSyncState regrouped, .handleSync] s ∧
      s.phase = .terminated) ∧
    ¬ NeverTwice (.initial demoState) [.startListener, .opened, .restartListener, .stopped,
      .awake, .updateSyncState regrouped, .handleSync] := by
  have hrun : (listener.run (.initial demoState) [.startListener, .opened,
      .updateSyncState regrouped, .handleSync, .restartListener]).map State.cancelCompleted =
        some true := by decide
  obtain ⟨s, hs, _⟩ := Machine.run_observe hrun
  have hrun' : (listener.run (.initial demoState) [.startListener, .opened, .restartListener,
      .stopped, .awake, .updateSyncState regrouped, .handleSync]).map State.phase =
        some .terminated := by decide
  exact ⟨⟨s, hs⟩, by decide, Machine.run_observe hrun', by decide⟩

end Runs

end LocalSend.Isolates.MulticastListener
