/-
  File:      LocalSend/Isolates/Demux.lean
  Subject:   MANY TASKS ON ONE CONNECTOR: `_sendTaskAndListenStream` of `actions.dart`, with the
             child on the other side.

  The child sends the results of all its tasks over one port; each stream the action returned
  listens to all of them and takes those with the id of its task.

  * `IsolateTaskStreamResult`, `TaskStream.onResult` -- a result, and what a stream makes of it
    (`_convertResponseToStream`);
  * `step` -- dispatching, the microtask that sends, the child at its tasks, and the port;
  * `script` -- what a task emits: data, then its end;
  * `Demultiplexed`, `demultiplexed_step` -- the invariant; `deliver_stream` -- one result, one
    stream;
  * `demultiplexed` -- **every stream delivers the data of its own task in order, then its error if
    there is one, and closes once**.

  Left out: what the tasks are about, `IdProvider.reset` and the acknowledging result, which
  nothing uses. Other connectors take their ids from the same provider.
-/
import LocalSend.Lib.Machine

namespace LocalSend.Isolates.Demux

open Lib

variable {R E : Type}

/-! ## 1. Results and streams -/

/-- The response to a task: `R` is the type of its data, `E` of its errors. -/
structure IsolateTaskStreamResult (R E : Type) where
  id : Nat
  done : Bool
  error : Option E
  data : Option R
  deriving DecidableEq, Repr

namespace IsolateTaskStreamResult

def event (id : Nat) (data : R) : IsolateTaskStreamResult R E := ⟨id, false, none, some data⟩

/-- `IsolateTaskStreamResult.done`, or `IsolateTaskStreamResult.error` with an error. -/
def finished (id : Nat) (error : Option E) : IsolateTaskStreamResult R E := ⟨id, true, error, none⟩

end IsolateTaskStreamResult

inductive StreamEvent (R E : Type) where
  | data (data : R)
  | error (error : E)
  | close
  deriving DecidableEq, Repr

/-- A stream `_sendTaskAndListenStream` returned: its subscription to the connector and what its
    controller was given. -/
structure TaskStream (R E : Type) where
  taskId : Nat
  subscribed : Bool
  events : List (StreamEvent R E)
  deriving DecidableEq, Repr

/-- The listener of `_convertResponseToStream`. -/
def TaskStream.onResult (stream : TaskStream R E) (result : IsolateTaskStreamResult R E) :
    TaskStream R E :=
  if stream.subscribed = true ∧ result.id = stream.taskId then
    match result.data with
    | some data => { stream with events := stream.events ++ [.data data] }
    | none =>
      if result.done then
        match result.error with
        | some error =>
          { stream with subscribed := false, events := stream.events ++ [.error error, .close] }
        | none => { stream with subscribed := false, events := stream.events ++ [.close] }
      else stream
  else stream

/-! ## 2. The connector -/

structure State (R E : Type) where
  /-- of the `IdProvider` -/
  nextId : Nat
  streams : List (TaskStream R E)
  /-- the tasks that wait for their microtask -/
  microtasks : List Nat
  /-- on the way to the child -/
  toIsolate : List Nat
  /-- the tasks the child is at -/
  running : List Nat
  /-- on the way back -/
  fromIsolate : List (IsolateTaskStreamResult R E)
  deriving DecidableEq, Repr

/-- A new connector; the provider may have given out ids. -/
def State.initial (nextId : Nat) : State R E := ⟨nextId, [], [], [], [], []⟩

inductive Event (R E : Type) where
  /-- `_sendTaskAndListenStream` -/
  | dispatch
  /-- an id for something else -/
  | getNextId
  /-- the next microtask sends its task -/
  | microtask
  /-- the child takes its next task -/
  | start
  /-- a task of the child has data -/
  | emit (id : Nat) (data : R)
  /-- a task of the child is over -/
  | finish (id : Nat) (error : Option E)
  /-- the next result reaches the main isolate -/
  | deliver
  deriving DecidableEq, Repr

def step (s : State R E) : Event R E → Option (State R E)
  | .dispatch => some { s with
      nextId := s.nextId + 1
      streams := s.streams ++ [⟨s.nextId, true, []⟩]
      microtasks := s.microtasks ++ [s.nextId] }
  | .getNextId => some { s with nextId := s.nextId + 1 }
  | .microtask =>
    match s.microtasks with
    | [] => none
    | id :: microtasks =>
      some { s with microtasks := microtasks, toIsolate := s.toIsolate ++ [id] }
  | .start =>
    match s.toIsolate with
    | [] => none
    | id :: toIsolate => some { s with toIsolate := toIsolate, running := s.running ++ [id] }
  | .emit id data =>
    if id ∈ s.running then some { s with fromIsolate := s.fromIsolate ++ [.event id data] }
    else none
  | .finish id error =>
    if id ∈ s.running then
      some { s with
        running := s.running.erase id
        fromIsolate := s.fromIsolate ++ [.finished id error] }
    else none
  | .deliver =>
    match s.fromIsolate with
    | [] => none
    | result :: fromIsolate =>
      -- the broadcast stream tells every subscriber
      some { s with
        fromIsolate := fromIsolate
        streams := s.streams.map fun stream => stream.onResult result }

/-- **One connector, with the child behind it.** -/
def connector : Machine (State R E) (Event R E) := ⟨step⟩

/-- The result the child sends in a step. -/
def emitted (_ : State R E) : Event R E → List (IsolateTaskStreamResult R E)
  | .emit id data => [.event id data]
  | .finish id error => [.finished id error]
  | _ => []

/-! ## 3. The results of one task -/

/-- The results with the id of a task. -/
def own (id : Nat) (results : List (IsolateTaskStreamResult R E)) :
    List (IsolateTaskStreamResult R E) :=
  results.filter fun result => result.id = id

/-- What a task emits: its data, and its end if it came to it. -/
def script (id : Nat) (data : List R) (outcome : Option (Option E)) :
    List (IsolateTaskStreamResult R E) :=
  data.map (.event id) ++ outcome.toList.map (.finished id)

/-- What the end of a task is to its stream. -/
def closing : Option (Option E) → List (StreamEvent R E)
  | none => []
  | some none => [.close]
  | some (some error) => [.error error, .close]

/-- What a result is to the stream of its task. -/
def IsolateTaskStreamResult.events (result : IsolateTaskStreamResult R E) :
    List (StreamEvent R E) :=
  match result.data with
  | some data => [.data data]
  | none => if result.done then closing (some result.error) else []

theorem own_append (id : Nat) (xs ys : List (IsolateTaskStreamResult R E)) :
    own id (xs ++ ys) = own id xs ++ own id ys :=
  List.filter_append ..

theorem own_self {id : Nat} {result : IsolateTaskStreamResult R E} (h : result.id = id) :
    own id [result] = [result] := by
  simp [own, h]

theorem own_ne {id : Nat} {result : IsolateTaskStreamResult R E} (h : result.id ≠ id) :
    own id [result] = [] := by
  simp [own, h]

/-- Nothing has an id that was not given out yet. -/
theorem own_fresh {id : Nat} {results : List (IsolateTaskStreamResult R E)}
    (h : ∀ result ∈ results, result.id < id) : own id results = [] := by
  refine List.filter_eq_nil_iff.mpr fun result hmem => ?_
  simpa using Nat.ne_of_lt (h result hmem)

/-- **What a stream is to make of the results of its task.** -/
theorem script_events (id : Nat) (data : List R) (outcome : Option (Option E)) :
    (script id data outcome).flatMap (·.events) = data.map .data ++ closing outcome := by
  have hdata : (data.map (IsolateTaskStreamResult.event (E := E) id)).flatMap (·.events) =
      data.map .data := by
    induction data with
    | nil => rfl
    | cons d data ih =>
        rw [List.map_cons, List.flatMap_cons, ih]
        rfl
  rw [script, List.flatMap_append, hdata]
  cases outcome with
  | none => rfl
  | some error => cases error <;> rfl

/-- Only the last result of a task ends it. -/
theorem script_split {id : Nat} {data : List R} {outcome : Option (Option E)}
    {before after : List (IsolateTaskStreamResult R E)} {result : IsolateTaskStreamResult R E}
    (h : before ++ result :: after = script id data outcome) :
    (∀ earlier ∈ before, earlier.done = false) ∧
      ((∃ d, result = .event id d) ∨ ∃ error, result = .finished id error) := by
  constructor
  · intro earlier hmem
    have hlength := congrArg List.length h
    have hend : (outcome.toList.map (IsolateTaskStreamResult.finished (R := R) id)).length ≤ 1 := by
      cases outcome <;> simp
    simp only [script, List.length_append, List.length_cons, List.length_map] at hlength hend
    have hfront : before <+: data.map (.event id) :=
      List.prefix_of_prefix_length_le ⟨_, h⟩ (List.prefix_append _ _) (by simp; omega)
    obtain ⟨d, _, rfl⟩ := List.mem_map.mp (hfront.subset hmem)
    rfl
  · have hmem : result ∈ script id data outcome :=
      h ▸ List.mem_append_right _ List.mem_cons_self
    rcases List.mem_append.mp hmem with hmem | hmem
    · obtain ⟨d, _, rfl⟩ := List.mem_map.mp hmem
      exact Or.inl ⟨d, rfl⟩
    · obtain ⟨error, _, rfl⟩ := List.mem_map.mp hmem
      exact Or.inr ⟨error, rfl⟩

/-! ## 4. The invariant -/

/-- **One result and one stream**: a subscribed stream takes what has its id. -/
theorem onResult_self {stream : TaskStream R E} {result : IsolateTaskStreamResult R E}
    (hsub : stream.subscribed = true) (hid : result.id = stream.taskId)
    (hshape : (∃ d, result = .event stream.taskId d) ∨
      ∃ error, result = .finished stream.taskId error) :
    stream.onResult result = { stream with
      subscribed := !result.done
      events := stream.events ++ result.events } := by
  unfold TaskStream.onResult
  rw [if_pos ⟨hsub, hid⟩]
  rcases hshape with ⟨d, rfl⟩ | ⟨error, rfl⟩
  · simp [IsolateTaskStreamResult.event, IsolateTaskStreamResult.events, hsub]
  · cases error <;> rfl

/-- A stream leaves the results of other tasks alone. -/
theorem onResult_ne {stream : TaskStream R E} {result : IsolateTaskStreamResult R E}
    (hid : result.id ≠ stream.taskId) : stream.onResult result = stream := by
  unfold TaskStream.onResult
  rw [if_neg fun h => hid h.2]

theorem onResult_taskId (stream : TaskStream R E) (result : IsolateTaskStreamResult R E) :
    (stream.onResult result).taskId = stream.taskId := by
  unfold TaskStream.onResult
  repeat' split
  all_goals rfl

/-- The tasks that are not over. -/
def State.open (s : State R E) : List Nat := s.microtasks ++ (s.toIsolate ++ s.running)

/-- **What is known of one stream**, when the child has sent `results`: what of them has its id is
    the script of a task, which is not over while the task is open; some of it was delivered and
    the rest is on its way. -/
structure Follows (s : State R E) (results : List (IsolateTaskStreamResult R E))
    (stream : TaskStream R E) : Prop where
  script : ∃ data outcome, own stream.taskId results = script stream.taskId data outcome ∧
    (stream.taskId ∈ s.open → outcome = none)
  delivered : ∃ before, own stream.taskId results = before ++ own stream.taskId s.fromIsolate ∧
    stream.events = before.flatMap (·.events) ∧
    stream.subscribed = before.all fun result => !result.done

/-- **The invariant**, when the child has sent `results`. -/
structure Demultiplexed (s : State R E) (results : List (IsolateTaskStreamResult R E)) : Prop where
  streams : ∀ stream ∈ s.streams, Follows s results stream
  nodup : (s.streams.map (·.taskId)).Nodup
  fresh : ∀ stream ∈ s.streams, stream.taskId < s.nextId
  once : s.open.Nodup
  dispatched : ∀ id ∈ s.open, id < s.nextId
  sent : ∀ result ∈ results, result.id < s.nextId
  received : ∀ result ∈ s.fromIsolate, result.id < s.nextId

section Step

variable {s t : State R E} {results : List (IsolateTaskStreamResult R E)} {stream : TaskStream R E}

theorem demultiplexed_initial (nextId : Nat) :
    Demultiplexed (.initial nextId : State R E) [] where
  streams _ h := by cases h
  nodup := List.nodup_nil
  fresh _ h := by cases h
  once := List.nodup_nil
  dispatched _ h := by cases h
  sent _ h := by cases h
  received _ h := by cases h

theorem Follows.of_same (h : Follows s results stream)
    (hopen : stream.taskId ∈ t.open → stream.taskId ∈ s.open)
    (hfrom : t.fromIsolate = s.fromIsolate) : Follows t results stream where
  script := by
    obtain ⟨data, outcome, hown, hout⟩ := h.script
    exact ⟨data, outcome, hown, fun hmem => hout (hopen hmem)⟩
  delivered := hfrom ▸ h.delivered

/-- A task moves on: the same tasks are open. -/
theorem Demultiplexed.of_perm (h : Demultiplexed s results) (hopen : t.open.Perm s.open)
    (hstreams : t.streams = s.streams) (hfrom : t.fromIsolate = s.fromIsolate)
    (hnext : t.nextId = s.nextId) : Demultiplexed t results where
  streams stream hmem :=
    (h.streams stream (hstreams ▸ hmem)).of_same (fun hid => hopen.mem_iff.mp hid) hfrom
  nodup := hstreams ▸ h.nodup
  fresh := by
    rw [hstreams, hnext]
    exact h.fresh
  once := hopen.nodup_iff.mpr h.once
  dispatched id hid := hnext ▸ h.dispatched id (hopen.mem_iff.mp hid)
  sent := hnext ▸ h.sent
  received := by
    rw [hfrom, hnext]
    exact h.received

/-- **A task is dispatched**: its stream listens before anything can be sent. -/
theorem Demultiplexed.dispatch (h : Demultiplexed s results) :
    Demultiplexed { s with
      nextId := s.nextId + 1
      streams := s.streams ++ [⟨s.nextId, true, []⟩]
      microtasks := s.microtasks ++ [s.nextId] } results where
  streams stream hmem := by
    rcases List.mem_append.mp hmem with hmem | hmem
    · refine (h.streams stream hmem).of_same (fun hid => ?_) rfl
      have hne := Nat.ne_of_lt (h.fresh stream hmem)
      simpa [State.open, hne] using hid
    · obtain rfl := List.mem_singleton.mp hmem
      have hown : own s.nextId results = [] := own_fresh h.sent
      have hfrom : own s.nextId s.fromIsolate = [] := own_fresh h.received
      exact ⟨⟨[], none, hown, fun _ => rfl⟩, [], by rw [hown, hfrom]; rfl, rfl, rfl⟩
  nodup := by
    rw [List.map_append, List.nodup_append]
    refine ⟨h.nodup, List.pairwise_singleton .., fun a ha b hb => ?_⟩
    obtain ⟨stream, hmem, rfl⟩ := List.mem_map.mp ha
    obtain rfl := List.mem_singleton.mp hb
    exact Nat.ne_of_lt (h.fresh stream hmem)
  fresh stream hmem := by
    rcases List.mem_append.mp hmem with hmem | hmem
    · exact Nat.lt_succ_of_lt (h.fresh stream hmem)
    · obtain rfl := List.mem_singleton.mp hmem
      exact Nat.lt_succ_self _
  once := by
    have hnew : s.nextId ∉ s.open := fun hmem => Nat.lt_irrefl _ (h.dispatched _ hmem)
    have hperm : (s.microtasks ++ [s.nextId] ++ (s.toIsolate ++ s.running)).Perm
        (s.nextId :: s.open) := by
      rw [List.append_assoc, List.singleton_append]
      exact List.perm_middle
    exact hperm.nodup_iff.mpr (List.nodup_cons.mpr ⟨hnew, h.once⟩)
  dispatched id hid := by
    have hcases : id = s.nextId ∨ id ∈ s.open := by
      simp only [State.open, List.mem_append, List.mem_singleton] at hid ⊢
      tauto
    rcases hcases with rfl | hmem
    · exact Nat.lt_succ_self _
    · exact Nat.lt_succ_of_lt (h.dispatched id hmem)
  sent result hmem := Nat.lt_succ_of_lt (h.sent result hmem)
  received result hmem := Nat.lt_succ_of_lt (h.received result hmem)

/-- A task that is over is not open any more. -/
theorem Demultiplexed.over (h : Demultiplexed s results) {id : Nat} (hid : id ∈ s.running) :
    id ∉ s.microtasks ++ (s.toIsolate ++ s.running.erase id) := by
  obtain ⟨_, hrest, hmicro⟩ := List.nodup_append.mp h.once
  obtain ⟨_, hrunning, hport⟩ := List.nodup_append.mp hrest
  intro hmem
  rcases List.mem_append.mp hmem with hmem | hmem
  · exact hmicro id hmem id (List.mem_append_right _ hid) rfl
  · rcases List.mem_append.mp hmem with hmem | hmem
    · exact hport id hmem id hid rfl
    · exact hrunning.not_mem_erase hmem

/-- **The child sends a result**: it goes on with the script of its task. -/
theorem Demultiplexed.emit (h : Demultiplexed s results) {id : Nat} (hid : id ∈ s.running)
    {result : IsolateTaskStreamResult R E} (hresult : result.id = id) {running : List Nat}
    (hrunning : running.Sublist s.running)
    (hscript : ∀ data, ∃ data' outcome, script id data none ++ [result] = script id data' outcome ∧
      (id ∈ s.microtasks ++ (s.toIsolate ++ running) → outcome = none)) :
    Demultiplexed { s with running := running, fromIsolate := s.fromIsolate ++ [result] }
      (results ++ [result]) where
  streams stream hmem := by
    have hfollows := h.streams stream hmem
    obtain ⟨data, outcome, hown, hout⟩ := hfollows.script
    obtain ⟨before, hbefore, hevents, hsub⟩ := hfollows.delivered
    by_cases heq : stream.taskId = id
    · subst heq
      obtain rfl := hout (List.mem_append_right _ (List.mem_append_right _ hid))
      obtain ⟨data', outcome', hnew, hend⟩ := hscript data
      refine ⟨⟨data', outcome', ?_, hend⟩, before, ?_, hevents, hsub⟩
      · rw [own_append, own_self hresult, hown, hnew]
      · rw [own_append, own_append, own_self hresult, hbefore, List.append_assoc]
    · have hne : result.id ≠ stream.taskId := fun h => heq (h.symm.trans hresult)
      refine ⟨⟨data, outcome, ?_, fun hmem => hout ?_⟩, before, ?_, hevents, hsub⟩
      · rw [own_append, own_ne hne, List.append_nil, hown]
      · exact ((List.Sublist.refl _).append ((List.Sublist.refl _).append hrunning)).subset hmem
      · rw [own_append, own_append, own_ne hne, List.append_nil, List.append_nil, hbefore]
  nodup := h.nodup
  fresh := h.fresh
  once := h.once.sublist ((List.Sublist.refl _).append ((List.Sublist.refl _).append hrunning))
  dispatched i hi := h.dispatched i
    (((List.Sublist.refl _).append ((List.Sublist.refl _).append hrunning)).subset hi)
  sent r hr := by
    rcases List.mem_append.mp hr with hr | hr
    · exact h.sent r hr
    · obtain rfl := List.mem_singleton.mp hr
      exact hresult ▸ h.dispatched id (List.mem_append_right _ (List.mem_append_right _ hid))
  received r hr := by
    rcases List.mem_append.mp hr with hr | hr
    · exact h.received r hr
    · obtain rfl := List.mem_singleton.mp hr
      exact hresult ▸ h.dispatched id (List.mem_append_right _ (List.mem_append_right _ hid))

/-- **A result reaches its stream**, and no other. -/
theorem Demultiplexed.deliver (h : Demultiplexed s results)
    {result : IsolateTaskStreamResult R E} {fromIsolate : List (IsolateTaskStreamResult R E)}
    (hfrom : s.fromIsolate = result :: fromIsolate) :
    Demultiplexed { s with
      fromIsolate := fromIsolate
      streams := s.streams.map fun stream => stream.onResult result } results where
  streams stream' hmem' := by
    obtain ⟨stream, hmem, rfl⟩ := List.mem_map.mp hmem'
    have hfollows := h.streams stream hmem
    obtain ⟨data, outcome, hown, hout⟩ := hfollows.script
    obtain ⟨before, hbefore, hevents, hsub⟩ := hfollows.delivered
    rw [hfrom, ← List.singleton_append, own_append] at hbefore
    by_cases hid : result.id = stream.taskId
    · rw [own_self hid, List.singleton_append] at hbefore
      obtain ⟨hearlier, hshape⟩ := script_split (hbefore.symm.trans hown)
      have hopen : stream.subscribed = true := by
        rw [hsub, List.all_eq_true]
        intro earlier hmem
        rw [hearlier earlier hmem]
        rfl
      rw [onResult_self hopen hid hshape]
      refine ⟨⟨data, outcome, hown, hout⟩, before ++ [result], ?_, ?_, ?_⟩
      · rw [hbefore, List.append_assoc, List.singleton_append]
      · rw [List.flatMap_append, hevents]
        simp
      · rw [List.all_append, ← hsub, hopen]
        simp
    · rw [own_ne hid, List.nil_append] at hbefore
      rw [onResult_ne hid]
      exact ⟨⟨data, outcome, hown, hout⟩, before, hbefore, hevents, hsub⟩
  nodup := by
    rw [List.map_map]
    have hsame : (TaskStream.taskId ∘ fun stream : TaskStream R E => stream.onResult result) =
        TaskStream.taskId := funext fun stream => onResult_taskId stream result
    rw [hsame]
    exact h.nodup
  fresh stream' hmem' := by
    obtain ⟨stream, hmem, rfl⟩ := List.mem_map.mp hmem'
    rw [onResult_taskId]
    exact h.fresh stream hmem
  once := h.once
  dispatched := h.dispatched
  sent := h.sent
  received r hr := h.received r (hfrom ▸ List.mem_cons_of_mem _ hr)

/-- **Every step keeps the invariant.** -/
theorem demultiplexed_step {e : Event R E} (h : Demultiplexed s results)
    (hs : connector.step s e = some t) : Demultiplexed t (results ++ emitted s e) := by
  cases e with
  | dispatch =>
      obtain rfl := Option.some.inj hs
      simpa [emitted] using h.dispatch
  | getNextId =>
      obtain rfl := Option.some.inj hs
      simp only [emitted, List.append_nil]
      exact { h with
        streams := fun stream hmem => (h.streams stream hmem).of_same id rfl
        fresh := fun stream hmem => Nat.lt_succ_of_lt (h.fresh stream hmem)
        dispatched := fun id hid => Nat.lt_succ_of_lt (h.dispatched id hid)
        sent := fun result hmem => Nat.lt_succ_of_lt (h.sent result hmem)
        received := fun result hmem => Nat.lt_succ_of_lt (h.received result hmem) }
  | microtask =>
      simp only [connector, step] at hs
      split at hs
      · cases hs
      · rename_i id microtasks hmicro
        cases hs
        simp only [emitted, List.append_nil]
        refine h.of_perm ?_ rfl rfl rfl
        simp only [State.open, hmicro, List.cons_append, List.append_assoc, List.nil_append]
        exact (List.perm_middle.append_left microtasks).trans List.perm_middle
  | start =>
      simp only [connector, step] at hs
      split at hs
      · cases hs
      · rename_i id toIsolate hport
        cases hs
        simp only [emitted, List.append_nil]
        refine h.of_perm ?_ rfl rfl rfl
        rw [State.open, State.open, hport, ← List.append_assoc toIsolate, List.cons_append]
        exact (List.perm_append_singleton ..).append_left s.microtasks
  | emit id data =>
      simp only [connector, step] at hs
      split at hs
      · rename_i hid
        cases hs
        refine h.emit hid rfl (.refl _) fun before => ⟨before ++ [data], none, ?_, fun _ => rfl⟩
        simp [script]
      · cases hs
  | finish id error =>
      simp only [connector, step] at hs
      split at hs
      · rename_i hid
        cases hs
        refine h.emit hid rfl List.erase_sublist fun before => ⟨before, some error, ?_, ?_⟩
        · simp [script]
        · intro hmem
          exact absurd hmem (h.over hid)
      · cases hs
  | deliver =>
      simp only [connector, step] at hs
      split at hs
      · cases hs
      · rename_i result fromIsolate hfrom
        cases hs
        simp only [emitted, List.append_nil]
        exact h.deliver hfrom

end Step

/-! ## 5. Every run -/

section Runs

variable {s : State R E} {es : List (Event R E)} {nextId : Nat}

/-- A stream ends its subscription when it closes. -/
theorem Follows.subscribed_iff {results : List (IsolateTaskStreamResult R E)}
    {stream : TaskStream R E} (h : Follows s results stream) :
    stream.subscribed = true ↔ .close ∉ stream.events := by
  obtain ⟨data, outcome, hown, _⟩ := h.script
  obtain ⟨before, hbefore, hevents, hsub⟩ := h.delivered
  have hclose : ∀ result ∈ before, .close ∈ result.events ↔ result.done = true := by
    intro result hmem
    obtain ⟨earlier, later, rfl⟩ := List.append_of_mem hmem
    rw [hown, List.append_assoc, List.cons_append] at hbefore
    rcases (script_split hbefore.symm).2 with ⟨d, rfl⟩ | ⟨error, rfl⟩
    · simp [IsolateTaskStreamResult.events, IsolateTaskStreamResult.event]
    · cases error <;> simp [IsolateTaskStreamResult.events, IsolateTaskStreamResult.finished, closing]
  rw [hsub, hevents, List.all_eq_true, List.mem_flatMap]
  constructor
  · rintro hall ⟨result, hmem, hin⟩
    have hdone := (hclose result hmem).mp hin
    simpa [hdone] using hall result hmem
  · intro hnone result hmem
    cases hdone : result.done with
    | false => rfl
    | true => exact absurd ⟨result, hmem, (hclose result hmem).mpr hdone⟩ hnone

theorem demultiplexed_run (h : connector.Run Machine.anyStep (.initial nextId) es s) :
    Demultiplexed s (connector.trace emitted (.initial nextId) es) :=
  h.shownInvariant (I := fun results s => Demultiplexed s results) (demultiplexed_initial nextId)
    fun _ _ _ _ hI _ hs => demultiplexed_step hI hs

/-- **Every stream is its own task's**: no two streams have one id; what the child emitted for the
    task of a stream is some data and then the end, if it came to it; and what the stream
    delivered, with the results of its task that are still on their way, is that data in order,
    then the error if there is one, then the close, after which it does not listen any more. -/
theorem demultiplexed (h : connector.Run Machine.anyStep (.initial nextId) es s) :
    (s.streams.map (·.taskId)).Nodup ∧
    ∀ stream ∈ s.streams, ∃ data outcome,
      own stream.taskId (connector.trace emitted (.initial nextId) es) =
        script stream.taskId data outcome ∧
      stream.events ++ (own stream.taskId s.fromIsolate).flatMap (·.events) =
        data.map .data ++ closing outcome ∧
      (stream.subscribed = true ↔ .close ∉ stream.events) := by
  have hI := demultiplexed_run h
  refine ⟨hI.nodup, fun stream hmem => ?_⟩
  have hfollows := hI.streams stream hmem
  obtain ⟨data, outcome, hown, _⟩ := hfollows.script
  obtain ⟨before, hbefore, hevents, _⟩ := hfollows.delivered
  refine ⟨data, outcome, hown, ?_, hfollows.subscribed_iff⟩
  rw [hevents, ← List.flatMap_append, ← hbefore, hown, script_events]

/-- Two tasks whose results cross; the first one fails. -/
def crossedRun : List (Event Nat String) :=
  [.dispatch, .getNextId, .dispatch, .microtask, .microtask, .start, .start, .emit 9 20,
    .emit 7 10, .deliver, .emit 9 21, .finish 7 (some "timeout"), .finish 9 none, .deliver,
    .deliver, .deliver, .deliver]

theorem demultiplexed_crossedRun :
    ∃ s, connector.Run Machine.anyStep (.initial 7) crossedRun s ∧
      ∃ stream ∈ s.streams, stream.taskId = 7 ∧
        stream.events = [.data 10, .error "timeout", .close] ∧ stream.subscribed = false := by
  have hrun : (connector.run (.initial 7) crossedRun).map
      (fun s => (s.streams.map TaskStream.taskId, s.fromIsolate)) = some ([7, 9], []) := by decide
  obtain ⟨s, hs, hobs⟩ := Machine.run_observe hrun
  obtain ⟨hids, hfrom⟩ := Prod.mk.inj hobs
  have hid : 7 ∈ s.streams.map TaskStream.taskId := hids ▸ List.mem_cons_self
  obtain ⟨stream, hmem, hstream⟩ := List.mem_map.mp hid
  obtain ⟨data, outcome, hown, hevents, hsub⟩ := (demultiplexed hs).2 stream hmem
  have hall : stream.events = [.data 10, .error "timeout", .close] := by
    rw [hfrom, own, List.filter_nil, List.flatMap_nil, List.append_nil,
      ← script_events stream.taskId, ← hown, hstream] at hevents
    rw [hevents]
    decide
  refine ⟨s, hs, stream, hmem, hstream, hall, Bool.eq_false_iff.mpr fun h => ?_⟩
  exact hsub.mp h (by rw [hall]; decide)

end Runs

end LocalSend.Isolates.Demux
