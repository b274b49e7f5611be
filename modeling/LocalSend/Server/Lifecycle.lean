/-
  File:      LocalSend/Server/Lifecycle.lean
  Subject:   STARTING AND STOPPING THE SERVER (`startServer`, `stopServer` and `restartServer` of
             `server_provider.dart`), called by any number of callers at a time.

  A call runs up to its next await in one go: a bind, the close of a server, the stop inside a
  restart. Every server that was bound keeps its number.

  * `State`, `Event`, `step` -- the machine (`lifecycle`);
  * `State.Reachable` -- a listening server is the one the state refers to;
  * `Unserved` -- no listening server is replaced or dropped by what the step installs;
  * `reachable_iff` -- one step keeps `Reachable` exactly where it is `Unserved`;
  * **`servers_reachable`** -- so guarded runs keep it. `first_server_lost`: two overlapping starts.
-/
import LocalSend.Lib.LinkedMap
import LocalSend.Lib.Machine

namespace LocalSend.ServerService

open Lib

/-! ## 1. The service -/

def defaultPort : Int := 53317

/-- The white space that `trim` removes. -/
def isWhitespace (c : Char) : Bool :=
  let n := c.toNat
  9 ≤ n && n ≤ 13 || 0x2000 ≤ n && n ≤ 0x200A ||
    [0x20, 0x85, 0xA0, 0x1680, 0x2028, 0x2029, 0x202F, 0x205F, 0x3000, 0xFEFF].contains n

def trim (s : String) : String :=
  String.ofList ((s.toList.dropWhile isWhitespace).reverse.dropWhile isWhitespace).reverse

/-- The arguments of `startServer`. -/
structure Args where
  aliasName : String
  port : Int
  https : Bool
  deriving DecidableEq, Repr

/-- The trimmed alias, or a random one, and a valid port. -/
def Args.checked (args : Args) (randomAlias : String) : Args where
  aliasName := if trim args.aliasName = "" then randomAlias else trim args.aliasName
  port := if args.port < 0 ∨ args.port > 65535 then defaultPort else args.port
  https := args.https

structure ServerState where
  /-- the number of the server -/
  httpServer : Nat
  aliasName : String
  port : Int
  https : Bool
  deriving DecidableEq, Repr

inductive BindError where
  | socketException
  | tlsException
  | other
  deriving DecidableEq, Repr

/-- The bind that a call of `startServer` waits for. -/
inductive Attempt where
  | requested
  /-- any port -/
  | alternative
  /-- the port asked for, without TLS -/
  | http
  deriving DecidableEq, Repr

/-- What follows `stopServer` in a call. -/
inductive Next where
  | nothing
  | restart (args : Args)
  | restartFromSettings
  deriving DecidableEq, Repr

/-- A call, at its await or at its end. -/
inductive Call where
  | binding (args : Args) (attempt : Attempt)
  | closing (next : Next)
  /-- the stop is over, and a restart goes on -/
  | stopped (next : Next)
  | returned (result : Option ServerState)
  | failed (error : BindError)
  deriving DecidableEq, Repr

structure State where
  state : Option ServerState
  /-- by number: the server listens -/
  listening : List Bool
  calls : LinkedMap Nat Call
  deriving DecidableEq

def State.initial : State := ⟨none, [], .empty⟩

inductive Event where
  | startServer (c : Nat) (args : Args) (randomAlias : String)
  | stopServer (c : Nat) (next : Next)
  /-- the bind succeeds, on this port -/
  | bound (c : Nat) (port : Int)
  | bindFailed (c : Nat) (error : BindError)
  /-- the close of a server is over -/
  | closed (c : Nat)
  /-- a restart goes on after its stop -/
  | restarted (c : Nat) (settings : Args) (randomAlias : String)
  deriving DecidableEq, Repr

def State.setCall (s : State) (c : Nat) (call : Call) : State :=
  { s with calls := s.calls.insert c call }

/-- `startServer` up to its first await. -/
def startServer (s : State) (c : Nat) (args : Args) (randomAlias : String) : State :=
  if s.state.isSome then s.setCall c (.returned none)
  else s.setCall c (.binding (args.checked randomAlias) .requested)

/-- `stopServer` up to its await: `close` stops the server from listening at once. -/
def stopServer (s : State) (c : Nat) (next : Next) : State :=
  { s with
    listening := match s.state with
      | none => s.listening
      | some state => s.listening.set state.httpServer false }.setCall c (.closing next)

/-- `startServer` after a bind that succeeds: the server is started and becomes the current one. -/
def install (s : State) (c : Nat) (args : Args) (attempt : Attempt) (port : Int) : State :=
  let state : ServerState :=
    { httpServer := s.listening.length
      aliasName := args.aliasName
      port := if attempt = .requested then args.port else port
      https := args.https && attempt ≠ .http }
  { s with
    state := some state
    listening := s.listening ++ [true] }.setCall c (.returned (some state))

/-- The bind after one that fails, if another is tried. -/
def nextAttempt (https : Bool) : Attempt → BindError → Option Attempt
  | .requested, .socketException => some .alternative
  | .requested, .tlsException => if https then some .http else none
  | .alternative, .socketException => if https then some .http else none
  | _, _ => none

def step (s : State) : Event → Option State
  | .startServer c args randomAlias =>
    if c ∈ s.calls.keys then none else some (startServer s c args randomAlias)
  | .stopServer c next =>
    if c ∈ s.calls.keys then none else some (stopServer s c next)
  | .bound c port =>
    match s.calls.get? c with
    | some (.binding args attempt) => some (install s c args attempt port)
    | _ => none
  | .bindFailed c error =>
    match s.calls.get? c with
    | some (.binding args attempt) => some (s.setCall c
        (match nextAttempt args.https attempt error with
        | some attempt => .binding args attempt
        | none => .failed error))
    | _ => none
  | .closed c =>
    match s.calls.get? c with
    | some (.closing .nothing) => some ({ s with state := none }.setCall c (.returned none))
    | some (.closing next) => some ({ s with state := none }.setCall c (.stopped next))
    | _ => none
  | .restarted c settings randomAlias =>
    match s.calls.get? c with
    | some (.stopped (.restart args)) => some (startServer s c args randomAlias)
    | some (.stopped .restartFromSettings) => some (startServer s c settings randomAlias)
    | _ => none

/-- **The server service**, with its callers at their awaits. -/
def lifecycle : Machine State Event := ⟨step⟩

/-! ## 2. One step -/

/-- **Every listening server is the one the state refers to.** -/
def State.Reachable (s : State) : Prop :=
  ∀ n, s.listening[n]? = some true → ∃ state, s.state = some state ∧ state.httpServer = n

/-- The state refers to a server that listens. -/
def State.served (s : State) : Bool :=
  s.state.any fun state => s.listening[state.httpServer]? = some true

/-- The end of a bind or of a close: the state is replaced or cleared. -/
def Event.replaces : Event → Bool
  | .bound _ _ | .closed _ => true
  | _ => false

/-- A step that replaces or clears the state finds no listening server in it. -/
def Unserved (s : State) (e : Event) : Prop := e.replaces = true → s.served = false

instance (s : State) (e : Event) : Decidable (Unserved s e) :=
  inferInstanceAs (Decidable (e.replaces = true → s.served = false))

variable {s t : State} {e : Event} {es : List Event}

/-- What a step does to the state and the servers. -/
theorem step_cases (hs : lifecycle.step s e = some t) :
    (e.replaces = false ∧ t.state = s.state ∧ t.listening = s.listening) ∨
    (∃ c next, e = .stopServer c next ∧ t.state = s.state ∧
      t.listening = match s.state with
        | none => s.listening
        | some state => s.listening.set state.httpServer false) ∨
    (∃ c port state, e = .bound c port ∧ t.state = some state ∧
      state.httpServer = s.listening.length ∧ t.listening = s.listening ++ [true]) ∨
    ∃ c, e = .closed c ∧ t.state = none ∧ t.listening = s.listening := by
  have hstart : ∀ c args randomAlias, (startServer s c args randomAlias).state = s.state ∧
      (startServer s c args randomAlias).listening = s.listening := by
    intro c args randomAlias
    unfold startServer
    split <;> exact ⟨rfl, rfl⟩
  change step s e = some t at hs
  cases e with
  | startServer c args randomAlias =>
      simp only [step] at hs
      split at hs
      · cases hs
      · cases hs
        exact Or.inl ⟨rfl, hstart c args randomAlias⟩
  | stopServer c next =>
      simp only [step] at hs
      split at hs
      · cases hs
      · cases hs
        exact Or.inr (Or.inl ⟨c, next, rfl, rfl, rfl⟩)
  | bound c port =>
      simp only [step] at hs
      split at hs
      · cases hs
        exact Or.inr (Or.inr (Or.inl ⟨c, port, _, rfl, rfl, rfl, rfl⟩))
      · cases hs
  | bindFailed c error =>
      simp only [step] at hs
      split at hs
      · cases hs
        exact Or.inl ⟨rfl, rfl, rfl⟩
      · cases hs
  | closed c =>
      simp only [step] at hs
      split at hs
      · cases hs
        exact Or.inr (Or.inr (Or.inr ⟨c, rfl, rfl, rfl⟩))
      · cases hs
        exact Or.inr (Or.inr (Or.inr ⟨c, rfl, rfl, rfl⟩))
      · cases hs
  | restarted c settings randomAlias =>
      simp only [step] at hs
      split at hs
      · rename_i args _
        cases hs
        exact Or.inl ⟨rfl, hstart c args randomAlias⟩
      · cases hs
        exact Or.inl ⟨rfl, hstart c settings randomAlias⟩
      · cases hs

theorem served_iff : s.served = true ↔
    ∃ state, s.state = some state ∧ s.listening[state.httpServer]? = some true := by
  cases hstate : s.state <;> simp [State.served, hstate]

/-- Where the state serves nothing, no server listens. -/
theorem State.Reachable.unserved (h : s.Reachable) (hserved : s.served = false) (n : Nat) :
    s.listening[n]? ≠ some true := by
  intro hn
  obtain ⟨state, hstate, rfl⟩ := h n hn
  rw [served_iff.mpr ⟨state, hstate, hn⟩] at hserved
  cases hserved

/-- **One step** keeps the servers reachable exactly where it drops no listening one. -/
theorem reachable_iff (h : s.Reachable) (hs : lifecycle.step s e = some t) :
    t.Reachable ↔ Unserved s e := by
  rcases step_cases hs with ⟨hsame, hstate, hlistening⟩ | ⟨c, next, rfl, hstate, hlistening⟩ |
    ⟨c, port, state, rfl, hstate, hnumber, hlistening⟩ | ⟨c, rfl, hstate, hlistening⟩
  · refine ⟨fun _ hreplaces => ?_, fun _ n hn => ?_⟩
    · rw [hsame] at hreplaces
      cases hreplaces
    · rw [hlistening] at hn
      rw [hstate]
      exact h n hn
  · refine ⟨fun _ hreplaces => (by cases hreplaces), fun _ n hn => ?_⟩
    rw [hstate]
    refine h n ?_
    rw [hlistening] at hn
    cases hs : s.state with
    | none => rwa [hs] at hn
    | some state =>
        simp only [hs, List.getElem?_set] at hn
        split at hn
        · split at hn <;> cases hn
        · exact hn
  · constructor
    · intro ht _
      refine Bool.eq_false_iff.mpr fun hserved => ?_
      -- the old server still listens, and the state refers to the new one
      obtain ⟨old, _, hold⟩ := served_iff.mp hserved
      have hlt : old.httpServer < s.listening.length := (List.getElem?_eq_some_iff.mp hold).1
      obtain ⟨new, hnew, hsame⟩ := ht old.httpServer (by
        rw [hlistening, List.getElem?_append_left hlt]
        exact hold)
      obtain rfl := Option.some.inj (hstate.symm.trans hnew)
      omega
    · intro hunserved n hn
      rw [hlistening, List.getElem?_append] at hn
      split at hn
      · exact absurd hn (h.unserved (hunserved rfl) n)
      · refine ⟨state, hstate, ?_⟩
        have hlt := (List.getElem?_eq_some_iff.mp hn).1
        simp only [List.length_singleton] at hlt
        omega
  · constructor
    · intro ht _
      refine Bool.eq_false_iff.mpr fun hserved => ?_
      obtain ⟨old, _, hold⟩ := served_iff.mp hserved
      obtain ⟨new, hnew, _⟩ := ht old.httpServer (hlistening ▸ hold)
      rw [hstate] at hnew
      cases hnew
    · intro hunserved n hn
      rw [hlistening] at hn
      exact absurd hn (h.unserved (hunserved rfl) n)

/-! ## 3. Runs -/

/-- **Servers stay reachable**: in every state of a run each listening server is the one the state
    refers to, if and only if no bind and no close of the run ends while the state refers to a
    listening server. -/
theorem servers_reachable (es : List Event) (s : State)
    (h : lifecycle.Run Machine.anyStep .initial es s) :
    (∀ fs t, fs <+: es → lifecycle.Run Machine.anyStep .initial fs t → t.Reachable) ↔
      lifecycle.Run Unserved .initial es s :=
  h.invariant_iff (fun _ hn => by cases hn) fun _ _ _ => reachable_iff

def demoArgs : Args := ⟨" Fast Potato ", 53317, true⟩

/-- The server is started, on another port, and restarted without TLS. -/
def restartRun : List Event :=
  [.startServer 0 demoArgs "Tomato", .bindFailed 0 .socketException, .bound 0 40000,
    .stopServer 1 (.restart { demoArgs with https := false }), .closed 1,
    .restarted 1 demoArgs "Tomato", .bound 1 53317]

theorem servers_reachable_restartRun :
    ∃ s, lifecycle.Run Machine.anyStep .initial restartRun s ∧
      s.state = some ⟨1, "Fast Potato", 53317, false⟩ ∧ s.listening = [false, true] ∧
      ∀ fs t, fs <+: restartRun → lifecycle.Run Machine.anyStep .initial fs t → t.Reachable := by
  have hrun : ((lifecycle.guarded Unserved).run .initial restartRun).map
      (fun s => (s.state, s.listening)) =
      some (some ⟨1, "Fast Potato", 53317, false⟩, [false, true]) := by
    decide
  obtain ⟨s, hs, hend⟩ := Machine.run_observe_guarded hrun
  obtain ⟨hstate, hlistening⟩ := Prod.mk.inj hend
  exact ⟨s, hs.any, hstate, hlistening, (servers_reachable restartRun s hs.any).mpr hs⟩

/-- **Two starts overlap**: both found no server, and the first one listens for ever. -/
theorem first_server_lost :
    ∃ s, lifecycle.Run Machine.anyStep .initial
        [.startServer 0 demoArgs "Tomato", .startServer 1 demoArgs "Tomato", .bound 0 53317,
          .bindFailed 1 .socketException, .bound 1 40000] s ∧ ¬ s.Reachable := by
  have hrun : (lifecycle.run .initial
      [.startServer 0 demoArgs "Tomato", .startServer 1 demoArgs "Tomato", .bound 0 53317,
        .bindFailed 1 .socketException, .bound 1 40000]).map
      (fun s => (s.state.map ServerState.httpServer, s.listening)) =
      some (some 1, [true, true]) := by
    decide
  obtain ⟨s, hs, hend⟩ := Machine.run_observe hrun
  obtain ⟨hstate, hlistening⟩ := Prod.mk.inj hend
  refine ⟨s, hs, fun hreachable => ?_⟩
  obtain ⟨state, hsome, hnumber⟩ := hreachable 0 (by rw [hlistening]; rfl)
  rw [hsome, Option.map_some, hnumber] at hstate
  cases hstate

end LocalSend.ServerService
