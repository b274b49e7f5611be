/-
  File:      LocalSend/Lib/Process.lean
  Subject:   PROCESSES THAT SEND AND RECEIVE IN TURN. A process is at one point of its code at a
             time; the point says what it does next. Nothing here names a program.

  * `Act`, `Process` -- what a process does next: send, receive, compute, wait for ever, be done;
  * `Process.Feed` -- the big step: from one state to another over the messages taken in, with
    the messages sent out, every send succeeding;
  * `Process.alone` -- the process against any environment (a machine over its own events);
  * `network` -- two processes joined by two ordered reliable channels, which stay open: who reads
    an empty one waits, also when the other process is done;
  * `network_diamond`, `network_confluent` -- the two processes do not disturb each other: any
    two runs of a network can be continued to one state;
  * `join_right`, `reaches_stuck` -- so where one run halts a process, or both, every run can be
    continued to the same state;
  * `Process.batched` -- processes written as reactions: what to do at each point, and the batch
    of messages to send before the next.
-/
import LocalSend.Lib.Machine
import Mathlib.Logic.Relation

namespace LocalSend.Lib

/-- What a process does next. A send may fail, with a text; a receive may find the channel
    closed. -/
inductive Act (μ S : Type) where
  | send (m : μ) (k : Option String → S)
  | recv (k : Option μ → S)
  | tau (next : S)
  | wait
  | done

/-- A process: the next act, from its state. -/
structure Process (μ S : Type) where
  act : S → Act μ S

namespace Process

variable {μ S : Type} (P : Process μ S)

def isDone (s : S) : Bool :=
  match P.act s with
  | .done => true
  | _ => false

/-- Where one act can lead when sends succeed. -/
def Next (s t : S) : Prop :=
  (∃ m k, P.act s = .send m k ∧ t = k none) ∨ (∃ k r, P.act s = .recv k ∧ t = k r) ∨
  P.act s = .tau t

/-- The process does nothing any more: it waits for ever, or is done. -/
def Halted (s : S) : Prop := P.act s = .wait ∨ P.act s = .done

/-! ## 1. Big steps -/

/-- **The big step**: from `s`, taking in `ins` and sending `outs`, to the last state. -/
inductive Feed : S → List μ → S → List μ → Prop where
  | here (s : S) : Feed s [] s []
  | send {s t : S} {m : μ} {k : Option String → S} {ins outs : List μ}
      (h : P.act s = .send m k) (hf : Feed (k none) ins t outs) : Feed s ins t (m :: outs)
  | recv {s t : S} {m : μ} {k : Option μ → S} {ins outs : List μ}
      (h : P.act s = .recv k) (hf : Feed (k (some m)) ins t outs) : Feed s (m :: ins) t outs
  | tau {s s' t : S} {ins outs : List μ}
      (h : P.act s = .tau s') (hf : Feed s' ins t outs) : Feed s ins t outs

variable {P} {s t u : S} {ins ins' outs outs' : List μ}

theorem Halted.not_next (h : P.Halted s) : ¬ P.Next s t := by
  rintro (⟨m, k, hact, _⟩ | ⟨k, r, hact, _⟩ | hact) <;> rcases h with h | h <;>
    rw [h] at hact <;> cases hact

theorem isDone_iff : P.isDone s = true ↔ P.act s = .done := by
  unfold isDone
  cases P.act s <;> simp

theorem Feed.trans (h : P.Feed s ins t outs) (h' : P.Feed t ins' u outs') :
    P.Feed s (ins ++ ins') u (outs ++ outs') := by
  induction h with
  | here => exact h'
  | send hact _ ih => exact .send hact (ih h')
  | recv hact _ ih => exact .recv hact (ih h')
  | tau hact _ ih => exact .tau hact (ih h')

/-! ## 2. One process against any environment -/

/-- What happens to a process: a send goes out or fails, a message arrives, the channel is
    closed, a computation ends. -/
inductive Event (μ : Type) where
  | sent (error : Option String)
  | received (m : μ)
  | closed
  | computed

/-- The process, with everything outside it left open. -/
def alone (P : Process μ S) : Machine S (Event μ) where
  step s e :=
    match P.act s, e with
    | .send _ k, .sent error => some (k error)
    | .recv k, .received m => some (k (some m))
    | .recv k, .closed => some (k none)
    | .tau s', .computed => some s'
    | _, _ => none

/-- The messages among the events. -/
def received : List (Event μ) → List μ
  | [] => []
  | .received m :: es => m :: received es
  | .sent _ :: es | .closed :: es | .computed :: es => received es

theorem received_append (es fs : List (Event μ)) :
    received (es ++ fs) = received es ++ received fs := by
  induction es with
  | nil => rfl
  | cons e es ih => cases e <;> simp [received, ih]

/-- **One event**: what the process was about to do, and what came of it. -/
theorem alone_cases {e : Event μ} (h : P.alone.step s e = some t) :
    (∃ m k error, P.act s = .send m k ∧ e = .sent error ∧ t = k error) ∨
    (∃ k m, P.act s = .recv k ∧ e = .received m ∧ t = k (some m)) ∨
    (∃ k, P.act s = .recv k ∧ e = .closed ∧ t = k none) ∨
    (P.act s = .tau t ∧ e = .computed) := by
  unfold alone at h
  simp only at h
  split at h
  · rename_i m k error hact
    exact Or.inl ⟨m, k, error, hact, rfl, (Option.some.inj h).symm⟩
  · rename_i k m hact
    exact Or.inr (Or.inl ⟨k, m, hact, rfl, (Option.some.inj h).symm⟩)
  · rename_i k hact
    exact Or.inr (Or.inr (Or.inl ⟨k, hact, rfl, (Option.some.inj h).symm⟩))
  · rename_i s' hact
    obtain rfl := Option.some.inj h
    exact Or.inr (Or.inr (Or.inr ⟨hact, rfl⟩))
  · cases h

/-- **A big step is a run of the process alone**, on the messages it takes in. -/
theorem Feed.alone (h : P.Feed s ins t outs) :
    ∃ es, P.alone.Run Machine.anyStep s es t ∧ received es = ins := by
  induction h with
  | here s => exact ⟨[], .start, rfl⟩
  | @send s t m k ins outs hact _ ih =>
      obtain ⟨es, hrun, hes⟩ := ih
      have hstep : P.alone.Run Machine.anyStep s ([] ++ [.sent none]) (k none) :=
        .step [] _ s _ .start trivial (by simp [Process.alone, hact])
      exact ⟨_, hstep.trans hrun, by simpa [received] using hes⟩
  | @recv s t m k ins outs hact _ ih =>
      obtain ⟨es, hrun, hes⟩ := ih
      have hstep : P.alone.Run Machine.anyStep s ([] ++ [.received m]) (k (some m)) :=
        .step [] _ s _ .start trivial (by simp [Process.alone, hact])
      exact ⟨_, hstep.trans hrun, by simp [received, hes]⟩
  | @tau s s' t ins outs hact _ ih =>
      obtain ⟨es, hrun, hes⟩ := ih
      have hstep : P.alone.Run Machine.anyStep s ([] ++ [.computed]) s' :=
        .step [] _ s _ .start trivial (by simp [Process.alone, hact])
      exact ⟨_, hstep.trans hrun, by simpa [received] using hes⟩

/-! ## 3. Moving with an inbox and an outbox -/

/-- One move: a send goes to the end of the outbox, a receive takes the head of the inbox, and
    waits for it where there is none. -/
def move (P : Process μ S) (s : S) (inbox outbox : List μ) : Option (S × List μ × List μ) :=
  match P.act s with
  | .send m k => some (k none, inbox, outbox ++ [m])
  | .recv k =>
    match inbox with
    | m :: rest => some (k (some m), rest, outbox)
    | [] => none
  | .tau s' => some (s', inbox, outbox)
  | .wait | .done => none

/-- **What one move does to the two channels.** -/
theorem move_cases {inbox outbox inbox' outbox' : List μ}
    (h : P.move s inbox outbox = some (t, inbox', outbox')) :
    (∃ m k, P.act s = .send m k ∧ t = k none ∧ inbox' = inbox ∧ outbox' = outbox ++ [m]) ∨
    (∃ m k, P.act s = .recv k ∧ t = k (some m) ∧ inbox = m :: inbox' ∧ outbox' = outbox) ∨
    (P.act s = .tau t ∧ inbox' = inbox ∧ outbox' = outbox) := by
  unfold move at h
  split at h
  · rename_i m k hact
    simp only [Option.some.injEq, Prod.mk.injEq] at h
    exact Or.inl ⟨m, k, hact, h.1.symm, h.2.1.symm, h.2.2.symm⟩
  · rename_i k hact
    split at h
    · rename_i m rest
      simp only [Option.some.injEq, Prod.mk.injEq] at h
      obtain ⟨rfl, rfl, rfl⟩ := h
      exact Or.inr (Or.inl ⟨m, k, hact, rfl, rfl, rfl⟩)
    · cases h
  · rename_i s' hact
    simp only [Option.some.injEq, Prod.mk.injEq] at h
    obtain ⟨rfl, rfl, rfl⟩ := h
    exact Or.inr (Or.inr ⟨hact, rfl, rfl⟩)
  · cases h
  · cases h

theorem move_next {inbox outbox inbox' outbox' : List μ}
    (h : P.move s inbox outbox = some (t, inbox', outbox')) : P.Next s t := by
  rcases move_cases h with ⟨m, k, hact, rfl, _⟩ | ⟨m, k, hact, rfl, _⟩ | ⟨hact, _⟩
  · exact Or.inl ⟨m, k, hact, rfl⟩
  · exact Or.inr (Or.inl ⟨k, some m, hact, rfl⟩)
  · exact Or.inr (Or.inr hact)

end Process

/-! ## 4. Two processes and two channels -/

/-- Two processes and the messages on their way. -/
structure Net (μ S T : Type) where
  left : S
  right : T
  toRight : List μ
  toLeft : List μ

inductive Side where
  | left | right
  deriving DecidableEq, Repr

variable {μ S T : Type}

/-- **The network**: one label for each process; a label is enabled when its process can move. -/
def network (P : Process μ S) (Q : Process μ T) : Machine (Net μ S T) Side where
  step n side :=
    match side with
    | .left => (P.move n.left n.toLeft n.toRight).map fun r =>
        { n with left := r.1, toLeft := r.2.1, toRight := r.2.2 }
    | .right => (Q.move n.right n.toRight n.toLeft).map fun r =>
        { n with right := r.1, toRight := r.2.1, toLeft := r.2.2 }

namespace Net

variable {P : Process μ S} {Q : Process μ T} {n a b c : Net μ S T}

theorem step_left (h : (network P Q).step n .left = some a) :
    ∃ s inbox outbox, P.move n.left n.toLeft n.toRight = some (s, inbox, outbox) ∧
      a = ⟨s, n.right, outbox, inbox⟩ := by
  obtain ⟨⟨s, inbox, outbox⟩, hmove, rfl⟩ := Option.map_eq_some_iff.mp h
  exact ⟨s, inbox, outbox, hmove, rfl⟩

theorem step_right (h : (network P Q).step n .right = some a) :
    ∃ t inbox outbox, Q.move n.right n.toRight n.toLeft = some (t, inbox, outbox) ∧
      a = ⟨n.left, t, inbox, outbox⟩ := by
  obtain ⟨⟨t, inbox, outbox⟩, hmove, rfl⟩ := Option.map_eq_some_iff.mp h
  exact ⟨t, inbox, outbox, hmove, rfl⟩

/-- What one process puts behind, or takes from the front of, the channel the other one writes to
    or reads from, leaves the other one's move as it was. -/
theorem move_beside {s : S} {t : T} {inP outP inP' outP' inQ' outQ' : List μ} {s' : S} {t' : T}
    (hp : P.move s inP outP = some (s', inP', outP'))
    (hq : Q.move t outP inP = some (t', inQ', outQ')) :
    ∃ inP'' outP'', P.move s outQ' inQ' = some (s', inP'', outP'') ∧
      Q.move t outP' inP' = some (t', outP'', inP'') := by
  rcases Process.move_cases hp with ⟨m, k, hact, rfl, rfl, rfl⟩ | ⟨m, k, hact, rfl, rfl, rfl⟩ |
    ⟨hact, rfl, rfl⟩
  · rcases Process.move_cases hq with ⟨m', k', hact', rfl, rfl, rfl⟩ |
      ⟨m', k', hact', rfl, rfl, rfl⟩ | ⟨hact', rfl, rfl⟩
    · refine ⟨inP' ++ [m'], inQ' ++ [m], ?_, ?_⟩ <;> simp only [Process.move, hact, hact']
    · refine ⟨outQ', inQ' ++ [m], ?_, ?_⟩ <;>
        simp only [Process.move, hact, hact', List.cons_append]
    · refine ⟨outQ', inQ' ++ [m], ?_, ?_⟩ <;> simp only [Process.move, hact, hact']
  · rcases Process.move_cases hq with ⟨m', k', hact', rfl, rfl, rfl⟩ |
      ⟨m', k', hact', rfl, rfl, rfl⟩ | ⟨hact', rfl, rfl⟩
    · refine ⟨inP' ++ [m'], inQ', ?_, ?_⟩ <;>
        simp only [Process.move, hact, hact', List.cons_append]
    · refine ⟨inP', inQ', ?_, ?_⟩ <;> simp only [Process.move, hact, hact']
    · refine ⟨inP', inQ', ?_, ?_⟩ <;> simp only [Process.move, hact, hact']
  · rcases Process.move_cases hq with ⟨m', k', hact', rfl, rfl, rfl⟩ |
      ⟨m', k', hact', rfl, rfl, rfl⟩ | ⟨hact', rfl, rfl⟩
    · refine ⟨inP' ++ [m'], inQ', ?_, ?_⟩ <;> simp only [Process.move, hact, hact']
    · refine ⟨outQ', inQ', ?_, ?_⟩ <;> simp only [Process.move, hact, hact']
    · refine ⟨outQ', inQ', ?_, ?_⟩ <;> simp only [Process.move, hact, hact']

/-- **The diamond**: the moves of the two processes commute. -/
theorem network_diamond (ha : (network P Q).step n .left = some a)
    (hb : (network P Q).step n .right = some b) :
    ∃ c, (network P Q).step a .right = some c ∧ (network P Q).step b .left = some c := by
  obtain ⟨s, inP, outP, hp, rfl⟩ := step_left ha
  obtain ⟨t, inQ, outQ, hq, rfl⟩ := step_right hb
  obtain ⟨inP'', outP'', h1, h2⟩ := move_beside hp hq
  exact ⟨⟨s, t, outP'', inP''⟩, by simp [network, h2], by simp [network, h1]⟩

/-! ## 5. Runs of a network -/

/-- One move of either process. -/
def Moves (P : Process μ S) (Q : Process μ T) (n a : Net μ S T) : Prop :=
  ∃ side, (network P Q).step n side = some a

/-- **Reaching**: some moves lead from one state of the network to the other. -/
def Reaches (P : Process μ S) (Q : Process μ T) : Net μ S T → Net μ S T → Prop :=
  Relation.ReflTransGen (Moves P Q)

/-- **Confluence**: two runs from one state can be continued to one state. -/
theorem network_confluent (ha : Reaches P Q n a) (hb : Reaches P Q n b) :
    ∃ c, Reaches P Q a c ∧ Reaches P Q b c := by
  refine Relation.church_rosser (fun x y z hy hz => ?_) ha hb
  obtain ⟨side, hy⟩ := hy
  obtain ⟨side', hz⟩ := hz
  cases side with
  | left =>
      cases side' with
      | left =>
          obtain rfl : y = z := Option.some.inj (hy.symm.trans hz)
          exact ⟨y, .refl, .refl⟩
      | right =>
          obtain ⟨w, hyw, hzw⟩ := network_diamond hy hz
          exact ⟨w, .single ⟨.right, hyw⟩, .single ⟨.left, hzw⟩⟩
  | right =>
      cases side' with
      | left =>
          obtain ⟨w, hzw, hyw⟩ := network_diamond hz hy
          exact ⟨w, .single ⟨.left, hyw⟩, .single ⟨.right, hzw⟩⟩
      | right =>
          obtain rfl : y = z := Option.some.inj (hy.symm.trans hz)
          exact ⟨y, .refl, .refl⟩

/-- A property of the left process that its acts keep is kept by the network. -/
theorem Reaches.keepsLeft {I : S → Prop} (hI : ∀ s s', I s → P.Next s s' → I s')
    (hr : Reaches P Q n a) (h0 : I n.left) : I a.left := by
  induction hr with
  | refl => exact h0
  | tail _ hs ih =>
      obtain ⟨side, hs⟩ := hs
      cases side with
      | left =>
          obtain ⟨s, inbox, outbox, hmove, rfl⟩ := step_left hs
          exact hI _ _ ih (Process.move_next hmove)
      | right =>
          obtain ⟨t, inbox, outbox, _, rfl⟩ := step_right hs
          exact ih

/-- A property of the right process that its acts keep is kept by the network. -/
theorem Reaches.keepsRight {I : T → Prop} (hI : ∀ t t', I t → Q.Next t t' → I t')
    (hr : Reaches P Q n a) (h0 : I n.right) : I a.right := by
  induction hr with
  | refl => exact h0
  | tail _ hs ih =>
      obtain ⟨side, hs⟩ := hs
      cases side with
      | left =>
          obtain ⟨s, inbox, outbox, _, rfl⟩ := step_left hs
          exact ih
      | right =>
          obtain ⟨t, inbox, outbox, hmove, rfl⟩ := step_right hs
          exact hI _ _ ih (Process.move_next hmove)

theorem Reaches.rightHalted (hr : Reaches P Q n a) (h : Q.Halted n.right) : a.right = n.right :=
  hr.keepsRight (I := fun s => s = n.right) (fun _ _ hs hn => absurd (hs ▸ hn) h.not_next) rfl

/-- **Where one run halts the right process, every run can be continued to that state of it.** -/
theorem join_right (hb : Reaches P Q n b) (hh : Q.Halted b.right) (ha : Reaches P Q n a) :
    ∃ c, Reaches P Q a c ∧ c.right = b.right := by
  obtain ⟨c, hac, hbc⟩ := network_confluent ha hb
  exact ⟨c, hac, hbc.rightHalted hh⟩

/-- **Every run can be continued to a state in which nothing moves**, if one run leads there. -/
theorem reaches_stuck (hb : Reaches P Q n b) (hstuck : ∀ side, (network P Q).step b side = none)
    (ha : Reaches P Q n a) : Reaches P Q a b := by
  obtain ⟨c, hac, hbc⟩ := network_confluent ha hb
  rcases Relation.ReflTransGen.cases_head hbc with rfl | ⟨d, ⟨side, hs⟩, _⟩
  · exact hac
  · rw [hstuck side] at hs
    cases hs

/-! ## 6. Big steps inside a network -/

theorem Reaches.trans (h : Reaches P Q n a) (h' : Reaches P Q a b) : Reaches P Q n b :=
  Relation.ReflTransGen.trans h h'

/-- **The left process feeds on its inbox.** -/
theorem feedLeft {s t : S} {ins outs : List μ} (h : P.Feed s ins t outs) :
    ∀ (r : T) (rest toRight : List μ), Reaches P Q ⟨s, r, toRight, ins ++ rest⟩
      ⟨t, r, toRight ++ outs, rest⟩ := by
  induction h with
  | here s =>
      intro r rest toRight
      rw [List.append_nil]
      exact .refl
  | @send s t m k ins outs hact _ ih =>
      intro r rest toRight
      have hstep : Moves P Q ⟨s, r, toRight, ins ++ rest⟩
          ⟨k none, r, toRight ++ [m], ins ++ rest⟩ :=
        ⟨.left, by simp [network, Process.move, hact]⟩
      have hrest := ih r rest (toRight ++ [m])
      rw [List.append_assoc] at hrest
      exact .head hstep hrest
  | @recv s t m k ins outs hact _ ih =>
      intro r rest toRight
      have hstep : Moves P Q ⟨s, r, toRight, m :: ins ++ rest⟩
          ⟨k (some m), r, toRight, ins ++ rest⟩ :=
        ⟨.left, by simp [network, Process.move, hact]⟩
      exact .head hstep (ih r rest toRight)
  | @tau s s' t ins outs hact _ ih =>
      intro r rest toRight
      have hstep : Moves P Q ⟨s, r, toRight, ins ++ rest⟩ ⟨s', r, toRight, ins ++ rest⟩ :=
        ⟨.left, by simp [network, Process.move, hact]⟩
      exact .head hstep (ih r rest toRight)

/-- **The right process feeds on its inbox.** -/
theorem feedRight {s t : T} {ins outs : List μ} (h : Q.Feed s ins t outs) :
    ∀ (l : S) (rest toLeft : List μ), Reaches P Q ⟨l, s, ins ++ rest, toLeft⟩
      ⟨l, t, rest, toLeft ++ outs⟩ := by
  induction h with
  | here s =>
      intro l rest toLeft
      rw [List.append_nil]
      exact .refl
  | @send s t m k ins outs hact _ ih =>
      intro l rest toLeft
      have hstep : Moves P Q ⟨l, s, ins ++ rest, toLeft⟩
          ⟨l, k none, ins ++ rest, toLeft ++ [m]⟩ :=
        ⟨.right, by simp [network, Process.move, hact]⟩
      have hrest := ih l rest (toLeft ++ [m])
      rw [List.append_assoc] at hrest
      exact .head hstep hrest
  | @recv s t m k ins outs hact _ ih =>
      intro l rest toLeft
      have hstep : Moves P Q ⟨l, s, m :: ins ++ rest, toLeft⟩
          ⟨l, k (some m), ins ++ rest, toLeft⟩ :=
        ⟨.right, by simp [network, Process.move, hact]⟩
      exact .head hstep (ih l rest toLeft)
  | @tau s s' t ins outs hact _ ih =>
      intro l rest toLeft
      have hstep : Moves P Q ⟨l, s, ins ++ rest, toLeft⟩ ⟨l, s', ins ++ rest, toLeft⟩ :=
        ⟨.right, by simp [network, Process.move, hact]⟩
      exact .head hstep (ih l rest toLeft)

end Net

/-! ## 7. Processes written as reactions -/

/-- A state, and the messages to send before anything else happens in it. -/
structure Batch (μ σ : Type) where
  state : σ
  out : List μ

/-- What is done at a point where nothing is left to send. -/
inductive Reaction (μ σ : Type) where
  | recv (k : Option μ → Batch μ σ)
  | tau (next : Batch μ σ)
  | wait
  | done

/-- Wherever the reaction leads. -/
def Reaction.All {μ σ : Type} (p : Batch μ σ → Prop) : Reaction μ σ → Prop
  | .recv k => ∀ r, p (k r)
  | .tau next => p next
  | .wait | .done => True

namespace Process

variable {μ σ : Type} {react : σ → Reaction μ σ} {failed : σ → String → σ}

/-- **The process of a family of reactions.** It sends its batch one message at a time; a send
    that fails drops the rest of the batch. -/
def batched (react : σ → Reaction μ σ) (failed : σ → String → σ) : Process μ (Batch μ σ) where
  act b :=
    match b.out with
    | m :: out => .send m fun
      | none => ⟨b.state, out⟩
      | some e => ⟨failed b.state e, []⟩
    | [] =>
      match react b.state with
      | .recv k => .recv k
      | .tau next => .tau next
      | .wait => .wait
      | .done => .done

theorem flush (s : σ) (out : List μ) : (batched react failed).Feed ⟨s, out⟩ [] ⟨s, []⟩ out := by
  induction out with
  | nil => exact .here _
  | cons m out ih => exact .send rfl ih

/-- **One message**: the reaction to it, and its batch sent. -/
theorem feed_recv {s s' : σ} {k : Option μ → Batch μ σ} {m : μ} {out : List μ}
    (h : react s = .recv k) (hk : k (some m) = ⟨s', out⟩) :
    (batched react failed).Feed ⟨s, []⟩ [m] ⟨s', []⟩ out := by
  have hact : (batched react failed).act ⟨s, []⟩ = .recv k := by simp only [batched, h]
  refine .recv hact ?_
  rw [hk]
  exact flush s' out

/-- **One computation**, and its batch sent. -/
theorem feed_tau {s s' : σ} {out : List μ} (h : react s = .tau ⟨s', out⟩) :
    (batched react failed).Feed ⟨s, []⟩ [] ⟨s', []⟩ out :=
  .tau (by simp only [batched, h]) (flush s' out)

theorem batched_recv {b : Batch μ σ} {k : Option μ → Batch μ σ}
    (h : (batched react failed).act b = .recv k) : b.out = [] ∧ react b.state = .recv k := by
  obtain ⟨s, out⟩ := b
  cases out with
  | cons m out => cases h
  | nil =>
      simp only [batched] at h
      split at h
      · rename_i hreact
        cases h
        exact ⟨rfl, hreact⟩
      all_goals cases h

theorem batched_tau {b b' : Batch μ σ} (h : (batched react failed).act b = .tau b') :
    b.out = [] ∧ react b.state = .tau b' := by
  obtain ⟨s, out⟩ := b
  cases out with
  | cons m out => cases h
  | nil =>
      simp only [batched] at h
      split at h
      · cases h
      · rename_i hreact
        cases h
        exact ⟨rfl, hreact⟩
      all_goals cases h

/-- **Where one act of a batched process leads** when sends succeed: on with the batch, or to a
    reaction. -/
theorem batched_next {b b' : Batch μ σ} (h : (batched react failed).Next b b') :
    b'.state = b.state ∨ (∃ k r, react b.state = .recv k ∧ b' = k r) ∨
    react b.state = .tau b' := by
  rcases h with ⟨m, k, hact, rfl⟩ | ⟨k, r, hact, rfl⟩ | hact
  · obtain ⟨s, out⟩ := b
    cases out with
    | cons m' out =>
        simp only [batched, Act.send.injEq] at hact
        obtain ⟨_, rfl⟩ := hact
        exact Or.inl rfl
    | nil =>
        simp only [batched] at hact
        split at hact <;> cases hact
  · exact Or.inr (Or.inl ⟨k, r, (batched_recv hact).2, rfl⟩)
  · exact Or.inr (Or.inr (batched_tau hact).2)

/-- **The invariant rule against any environment**: what holds at the start, and is kept by a
    failed send and by every reaction, holds after every run, of the messages received in it. -/
theorem batched_alone {I : List μ → σ → Prop} {b t : Batch μ σ} {es : List (Event μ)}
    (hfail : ∀ ms s e, I ms s → I ms (failed s e))
    (hrecv : ∀ ms s k m, I ms s → react s = .recv k → I (ms ++ [m]) (k (some m)).state)
    (hclosed : ∀ ms s k, I ms s → react s = .recv k → I ms (k none).state)
    (htau : ∀ ms s next, I ms s → react s = .tau next → I ms next.state)
    (h0 : I [] b.state) (h : (batched react failed).alone.Run Machine.anyStep b es t) :
    I (received es) t.state := by
  refine h.traceInvariant (I := fun es (t : Batch μ σ) => I (received es) t.state) h0 ?_
  intro es b e b' hI _ hs
  rw [received_append]
  obtain ⟨s, out⟩ := b
  rcases alone_cases hs with ⟨m, k, error, hact, rfl, rfl⟩ | ⟨k, m, hact, rfl, rfl⟩ |
    ⟨k, hact, rfl, rfl⟩ | ⟨hact, rfl⟩
  · cases out with
    | cons m' out =>
        simp only [batched, Act.send.injEq] at hact
        obtain ⟨_, rfl⟩ := hact
        cases error with
        | none => simpa [received] using hI
        | some e => simpa [received] using hfail _ _ e hI
    | nil =>
        simp only [batched] at hact
        split at hact <;> cases hact
  · obtain ⟨_, hreact⟩ := batched_recv hact
    exact hrecv _ _ k m hI hreact
  · obtain ⟨_, hreact⟩ := batched_recv hact
    simpa [received] using hclosed _ _ k hI hreact
  · obtain ⟨_, hreact⟩ := batched_tau hact
    simpa [received] using htau _ _ b' hI hreact

end Process

end LocalSend.Lib
