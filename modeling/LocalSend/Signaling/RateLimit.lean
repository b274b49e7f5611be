/-
  File:      LocalSend/Signaling/RateLimit.lean
  Subject:   THE RATE LIMIT of the signaling server: the counter of a group and the requests that
             were let through.

  Both call sites of `protect_ddos_request_count` test and count under the lock of the map, with no
  await in between: that is one step, whatever other lock is held around it.

  * `letThrough` -- the step admits a connection of the group, or lets a message of it go on;
    `refusedForLimit` -- it refuses one of them for the request limit;
  * `step_counts` -- **a step counts what it lets through**, and does so below the limit only;
  * `requests_run` -- between two resets the counter grows by the number let through;
  * **`rate_limit`** -- over any run: at most the limit between two resets, nothing refused before
    that, no counter above the limit, no overflow.
-/
import Mathlib.Algebra.Ring.Nat
import LocalSend.Signaling.Invariant

namespace LocalSend.Signaling

open Lib

variable {l : Limits} {s t : State} {e : Event} {es : List Event} {g : String}

/-! ## 1. What a step lets through -/

/-- The two actions that are counted. -/
def Action.asks : Action → Bool
  | .connect _ | .receive _ => true
  | _ => false

/-- A connection is registered, or a message of it is about to be handled. -/
def Phase.passed : Phase → Bool
  | .joining _ _ | .running (.counted _) => true
  | _ => false

/-- The connection is closed, or the error is about to be sent. -/
def Phase.denied : Phase → Bool
  | .refused | .running .erring => true
  | _ => false

/-- **The step lets a request of group `g` through.** -/
def letThrough (l : Limits) (g : String) (s : State) : Event → Bool
  | .task k p a => k = g && a.asks &&
    (step l s (.task k p a)).any fun t => (t.handler p).any fun h => h.phase.passed
  | .clearCounts => false

/-- A connection finds its group full. -/
def full (l : Limits) (g : String) (s : State) : Action → Bool
  | .connect _ => l.maxConnections ≤ (s.members g).length
  | _ => false

/-- **The step refuses a request of group `g`** for the request limit. -/
def refusedForLimit (l : Limits) (g : String) (s : State) : Event → Bool
  | .task k p a => k = g && a.asks && !full l g s a &&
    (step l s (.task k p a)).any fun t => (t.handler p).any fun h => h.phase.denied
  | .clearCounts => false

/-! ## 2. What a step counts -/

theorem requests_update {k : String} {n : Nat}
    (h : t.requestCountMap = Function.update s.requestCountMap k (some n)) (g : String) :
    t.requests g = if g = k then n else s.requests g := by
  unfold State.requests
  rw [h]
  by_cases hg : g = k
  · rw [hg, Function.update_self, if_pos rfl, Option.getD_some]
  · rw [Function.update_of_ne hg, if_neg hg]

/-- The counters are the same, and nothing is let through. -/
def Uncounted (l : Limits) (s : State) (e : Event) (t : State) : Prop :=
  (∀ g, t.requests g = s.requests g) ∧ ∀ g, letThrough l g s e = false

/-- A request of group `k` is let through, below the limit, and counted. -/
def Counted (l : Limits) (s : State) (e : Event) (t : State) (k : String) : Prop :=
  (∀ g, letThrough l g s e = decide (k = g)) ∧ s.requests k < l.maxRequests ∧
  ∀ g, t.requests g = if g = k then s.requests k + 1 else s.requests g

/-- An action that asks for nothing leaves the counters. -/
theorem uncounted_of_asks {k : String} {p : Uuid} {a : Action} (ha : a.asks = false)
    (h : t.requestCountMap = s.requestCountMap) : Uncounted l s (.task k p a) t :=
  ⟨fun g => by rw [State.requests, h, State.requests], fun g => by simp [letThrough, ha]⟩

/-- **A step counts what it lets through.** -/
theorem step_counts (hs : (server l).step s e = some t) (he : e ≠ .clearCounts) :
    Uncounted l s e t ∨ ∃ k, Counted l s e t k := by
  have hstep : step l s e = some t := hs
  cases step_inv hs with
  | clear => exact absurd rfl he
  | refusedFull k p info hp hfull =>
      refine Or.inl ⟨fun g => rfl, fun g => ?_⟩
      simp [letThrough, hstep, State.setHandler, Phase.passed]
  | refusedCount k p info hp hroom hcount =>
      refine Or.inl ⟨fun g => ?_, fun g => ?_⟩
      · rw [requests_update rfl]
        split
        · rename_i hg
          rw [hg]
        · rfl
      · simp [letThrough, hstep, State.setHandler, Phase.passed]
  | admitted k p info hp hroom hcount =>
      refine Or.inr ⟨k, fun g => ?_, hcount, requests_update rfl⟩
      simp [letThrough, hstep, State.setHandler, Phase.passed, Action.asks]
  | tooMany p h msg hp hph hcount =>
      refine Or.inl ⟨fun g => ?_, fun g => ?_⟩
      · rw [requests_update rfl]
        split
        · rename_i hg
          rw [hg]
        · rfl
      · simp [letThrough, hstep, State.setPhase, State.setHandler, Phase.passed]
  | counted p h msg hp hph hcount =>
      refine Or.inr ⟨h.group, fun g => ?_, hcount, requests_update rfl⟩
      simp [letThrough, hstep, State.setPhase, State.setHandler, Phase.passed, Action.asks]
  | join _ _ _ _ _ _ _ _ _ hsend | hello _ _ _ _ _ _ hsend
  | sendUpdate _ _ _ _ _ _ _ _ _ hsend | forward _ _ _ _ _ _ _ hsend
  | sendError _ _ _ _ _ hsend | sendLeft _ _ _ _ _ _ _ _ hsend =>
      have hcount := send_count hsend
      exact Or.inl (uncounted_of_asks rfl hcount)
  | update | updateLost | sdp | sdpLost | take | disconnect | removeLast | remove =>
      exact Or.inl (uncounted_of_asks rfl rfl)

/-- **A refusal for the limit** comes at the limit. -/
theorem refusedForLimit_requests (h : refusedForLimit l g s e = true) :
    l.maxRequests ≤ s.requests g := by
  cases e with
  | clearCounts => cases h
  | task k p a =>
      simp only [refusedForLimit, Bool.and_eq_true, decide_eq_true_eq, Option.any_eq_true,
        Bool.not_eq_true'] at h
      obtain ⟨⟨⟨rfl, hasks⟩, hfull⟩, t, hs, h', hh, hdenied⟩ := h
      cases step_inv hs with
      | refusedFull _ _ info hp hmany => simp [full, hmany] at hfull
      | refusedCount _ _ info hp hroom hcount => exact hcount
      | admitted _ _ info hp hroom hcount =>
          obtain rfl : _ = h' := by simpa [State.setHandler] using hh
          cases hdenied
      | tooMany _ h msg hp hph hcount => exact hcount
      | counted _ h msg hp hph hcount =>
          obtain rfl : _ = h' := by simpa [State.setPhase, State.setHandler] using hh
          cases hdenied
      | _ => cases hasks

/-! ## 3. Runs -/

/-- **Between two resets the counter grows by the number let through.** -/
theorem requests_run (h : (server l).Run Machine.anyStep s es t) (hes : .clearCounts ∉ es)
    (g : String) : t.requests g = s.requests g + (server l).count (letThrough l g) s es := by
  induction h with
  | start => rfl
  | step es e t u hr _ hs ih =>
      simp only [List.mem_append, List.mem_singleton, not_or] at hes
      rw [hr.count_snoc, ← Nat.add_assoc, ← ih hes.1]
      rcases step_counts hs (Ne.symm hes.2) with ⟨hsame, hnone⟩ | ⟨k, hpass, _, hone⟩
      · rw [hsame, hnone]
        rfl
      · rw [hone, hpass]
        by_cases hg : g = k
        · rw [if_pos hg, if_pos (decide_eq_true hg.symm), hg]
        · rw [if_neg hg, if_neg (by simpa using Ne.symm hg), Nat.add_zero]

/-- **No counter passes the limit.** -/
theorem requests_le (h : (server l).Run Machine.anyStep State.empty es s) (g : String) :
    s.requests g ≤ l.maxRequests := by
  refine h.invariant (I := fun s => s.requests g ≤ l.maxRequests) (Nat.zero_le _) ?_
  intro t e u ht _ hs
  by_cases he : e = .clearCounts
  · obtain rfl : u = { t with requestCountMap := fun _ => none } := by
      rw [he] at hs
      exact (Option.some.inj hs).symm
    exact Nat.zero_le _
  · rcases step_counts hs he with ⟨hsame, _⟩ | ⟨k, _, hbelow, hone⟩
    · rw [hsame]
      exact ht
    · rw [hone]
      split
      · exact hbelow
      · exact ht

/-- The counters after a reset, and at the start. -/
theorem requests_reset (h : (server l).Run Machine.anyStep State.empty es s)
    (hes : es = [] ∨ es.getLast? = some .clearCounts) (g : String) : s.requests g = 0 := by
  rcases hes with rfl | hlast
  · obtain rfl := Option.some.inj h.run_eq
    rfl
  · obtain ⟨front, rfl⟩ := List.getLast?_eq_some_iff.mp hlast
    obtain ⟨u, _, _, hs⟩ := h.last
    obtain rfl := Option.some.inj hs
    rfl

/-- **The rate limit**, over any run `ds ++ es` of connections, messages and resets, with no reset
    in `es`, for every group. -/
theorem rate_limit (l : Limits) (hl : l.maxRequests < 2 ^ 32) (ds es : List Event) (s t : State)
    (hds : (server l).Run Machine.anyStep State.empty ds s)
    (hes : (server l).Run Machine.anyStep s es t) (hclear : .clearCounts ∉ es) (g : String) :
    -- at most the limit is let through between two resets
    (server l).count (letThrough l g) s es ≤ l.maxRequests ∧
    -- if `es` began with the last reset, a refusal for the limit comes after that many
    (ds = [] ∨ ds.getLast? = some .clearCounts → ∀ e, refusedForLimit l g t e = true →
      (server l).count (letThrough l g) s es = l.maxRequests) ∧
    -- the stored counter
    (∀ n, t.requestCountMap g = some n → n ≤ l.maxRequests) ∧
    -- the increment of a request that is let through stays in 32 bits
    (∀ e, letThrough l g t e = true → t.requests g + 1 < 2 ^ 32) := by
  have hle := requests_le (hds.trans hes) g
  have hgrown := requests_run hes hclear g
  refine ⟨by omega, fun hreset e he => ?_, fun n hn => ?_, fun e he => ?_⟩
  · have hzero := requests_reset hds hreset g
    have hat := refusedForLimit_requests he
    omega
  · rw [State.requests, hn] at hle
    exact hle
  · cases e with
    | clearCounts => cases he
    | task k p a =>
        have henabled := he
        simp only [letThrough, Bool.and_eq_true, Option.any_eq_true] at henabled
        obtain ⟨_, u, hu, _⟩ := henabled
        rcases step_counts (l := l) hu Event.noConfusion with ⟨_, hnone⟩ | ⟨k', hpass, hbelow, _⟩
        · rw [hnone] at he
          cases he
        · rw [hpass, decide_eq_true_eq] at he
          subst he
          omega

/-- One request an hour. -/
def oneAnHour : Limits := ⟨10, 1⟩

/-- A connection from one address. -/
def connectFrom (p : Uuid) : Event :=
  .task "10.0.0.1" p (.connect ⟨"peer", "2.3", none, none, "token"⟩)

/-- The second connection of the group is refused until the reset. -/
theorem rate_limit_oneAnHour :
    ∃ t, (server oneAnHour).Run Machine.anyStep State.empty [connectFrom 0] t ∧
      refusedForLimit oneAnHour "10.0.0.1" t (connectFrom 1) = true ∧
      (server oneAnHour).count (letThrough oneAnHour "10.0.0.1") State.empty [connectFrom 0] =
        oneAnHour.maxRequests := by
  have hrun : ((server oneAnHour).run State.empty [connectFrom 0]).map
      (fun t => refusedForLimit oneAnHour "10.0.0.1" t (connectFrom 1)) = some true := rfl
  obtain ⟨t, ht, hrefused⟩ := Machine.run_observe hrun
  have hlimit := rate_limit oneAnHour (by decide) [] [connectFrom 0] State.empty t .start ht
    (by decide) "10.0.0.1"
  exact ⟨t, ht, hrefused, hlimit.2.1 (Or.inl rfl) _ hrefused⟩

end LocalSend.Signaling
