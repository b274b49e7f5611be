/-
  File:      LocalSend/Lib/Buffering.lean
  Subject:   BLOCKS THROUGH A BUFFER, INTO A SINK THAT MAY FAIL. A stream of blocks is collected in
             a buffer and leaves it in other blocks; nothing here names a program.

  * `Push`, `blocks` -- what a block makes leave the buffer, and all that leaves it; what is left
    in the buffer leaves it at the end;
  * `blocks_flatten` -- nothing is lost or doubled; `blocks_eq` -- what the blocks look like, by an
    invariant of the buffer;
  * `Chunked n` -- blocks of `n`, the last one perhaps shorter; `Chunked.eq_of_flatten_eq` -- there
    is one such list for a content;
  * `Sink`, `Outcome`, `feed` -- blocks put into a sink one after another, up to the first that it
    refuses; `feed_append`, `feed_cases`.
-/
import Mathlib.Data.List.Basic

namespace LocalSend.Lib.Buffering

/-! ## 1. The buffer -/

section Buffer

variable {α : Type}

/-- What leaves the buffer when a block comes in, and what stays in it. -/
abbrev Push (α : Type) := List α → List α → List (List α) × List α

/-- What leaves the buffer at the end: the rest, if there is any. -/
def leftover (buffer : List α) : List (List α) := if buffer.isEmpty then [] else [buffer]

/-- **The blocks that leave the buffer** while the blocks `rx` come in, and at the end. -/
def blocks (push : Push α) (buffer : List α) : List (List α) → List (List α)
  | [] => leftover buffer
  | data :: rx => (push buffer data).1 ++ blocks push (push buffer data).2 rx

@[simp] theorem leftover_nil : leftover ([] : List α) = [] := rfl

theorem leftover_of_ne_nil {buffer : List α} (h : buffer ≠ []) : leftover buffer = [buffer] := by
  simp [leftover, h]

theorem mem_leftover {b buffer : List α} : b ∈ leftover buffer ↔ b = buffer ∧ buffer ≠ [] := by
  cases buffer with
  | nil => simp
  | cons a buffer => simp [leftover]

@[simp] theorem leftover_flatten (buffer : List α) : (leftover buffer).flatten = buffer := by
  cases buffer with
  | nil => rfl
  | cons a buffer => simp [leftover]

variable {push : Push α} {buffer : List α} {rx : List (List α)}

/-- **Nothing is lost or doubled**, if no push loses or doubles anything. -/
theorem blocks_flatten
    (hpush : ∀ buffer data, (push buffer data).1.flatten ++ (push buffer data).2 = buffer ++ data) :
    (blocks push buffer rx).flatten = buffer ++ rx.flatten := by
  induction rx generalizing buffer with
  | nil => simp [blocks]
  | cons data rx ih =>
      calc (blocks push buffer (data :: rx)).flatten
          = (push buffer data).1.flatten ++ (blocks push (push buffer data).2 rx).flatten := by
            rw [blocks, List.flatten_append]
        _ = (push buffer data).1.flatten ++ (push buffer data).2 ++ rx.flatten := by
            rw [ih, List.append_assoc]
        _ = buffer ++ (data :: rx).flatten := by
            rw [hpush, List.flatten_cons, List.append_assoc]

/-- **What the blocks look like**: those that leave the buffer on the way have what every push
    gives them, and the one at the end has what the invariant of the buffer says. -/
theorem blocks_eq (I full : List α → Prop) (hI : I buffer)
    (hpush : ∀ buffer, ∀ data ∈ rx, I buffer →
      (∀ b ∈ (push buffer data).1, full b) ∧ I (push buffer data).2) :
    ∃ front rest, blocks push buffer rx = front ++ leftover rest ∧ (∀ b ∈ front, full b) ∧
      I rest := by
  induction rx generalizing buffer with
  | nil => exact ⟨[], buffer, rfl, fun b hb => absurd hb List.not_mem_nil, hI⟩
  | cons data rx ih =>
      obtain ⟨hfull, hnext⟩ := hpush buffer data List.mem_cons_self hI
      obtain ⟨front, rest, heq, hfront, hrest⟩ :=
        ih hnext fun buffer data hdata => hpush buffer data (List.mem_cons_of_mem _ hdata)
      refine ⟨(push buffer data).1 ++ front, rest, ?_, ?_, hrest⟩
      · rw [blocks, heq, List.append_assoc]
      · intro b hb
        rcases List.mem_append.mp hb with hb | hb
        · exact hfull b hb
        · exact hfront b hb

/-- **All blocks but the last**, and the last one. -/
theorem front_and_last (full last : List α → Prop) {front : List (List α)} {rest : List α}
    (hfront : ∀ b ∈ front, full b) (hfull : ∀ b, full b → last b)
    (hrest : rest ≠ [] → last rest) :
    (∀ b ∈ (front ++ leftover rest).dropLast, full b) ∧
      ∀ b ∈ (front ++ leftover rest).getLast?, last b := by
  by_cases hne : rest = []
  · subst hne
    rw [leftover_nil, List.append_nil]
    exact ⟨fun b hb => hfront b (List.dropLast_subset _ hb),
      fun b hb => hfull b (hfront b (List.mem_of_getLast? hb))⟩
  · rw [leftover_of_ne_nil hne, List.dropLast_concat, List.getLast?_concat]
    refine ⟨hfront, fun b hb => ?_⟩
    obtain rfl := Option.some.inj hb
    exact hrest hne

end Buffer

/-! ## 2. Blocks of one size -/

section Chunked

variable {α : Type} {n : Nat} {c : List α} {cs ds : List (List α)}

/-- **Blocks of size `n`**: the last one may be shorter, but it is not empty. -/
structure Chunked (n : Nat) (cs : List (List α)) : Prop where
  front : ∀ c ∈ cs.dropLast, c.length = n
  last : ∀ c ∈ cs.getLast?, c ≠ [] ∧ c.length ≤ n

theorem Chunked.eq_nil (h : Chunked n cs) (hflat : cs.flatten = []) : cs = [] := by
  rcases List.eq_nil_or_concat' cs with rfl | ⟨front, c, rfl⟩
  · rfl
  · have hc := (h.last c (by simp)).1
    simp [hc] at hflat

theorem Chunked.length_mem (h : Chunked n cs) (hc : c ∈ cs) :
    c.length = n ∨ c ≠ [] ∧ c.length ≤ n := by
  rcases List.eq_nil_or_concat' cs with rfl | ⟨front, d, rfl⟩
  · cases hc
  · rcases List.mem_append.mp hc with hc | hc
    · exact .inl (h.front c (by rwa [List.dropLast_concat]))
    · obtain rfl := List.mem_singleton.mp hc
      exact .inr (h.last c (by simp))

theorem Chunked.ne_nil (h : Chunked n cs) (hn : 0 < n) (hc : c ∈ cs) : c ≠ [] := by
  rcases h.length_mem hc with hlen | ⟨hne, -⟩
  · exact List.ne_nil_of_length_pos (hlen ▸ hn)
  · exact hne

theorem Chunked.length_le (h : Chunked n cs) (hc : c ∈ cs) : c.length ≤ n := by
  rcases h.length_mem hc with hlen | ⟨-, hle⟩
  · exact Nat.le_of_eq hlen
  · exact hle

theorem Chunked.tail (h : Chunked n (c :: cs)) : Chunked n cs := by
  cases cs with
  | nil => exact ⟨fun c hc => absurd hc List.not_mem_nil, fun c hc => by cases hc⟩
  | cons d cs =>
      refine ⟨fun b hb => h.front b ?_, fun b hb => h.last b ?_⟩
      · rw [List.dropLast_cons_of_ne_nil (List.cons_ne_nil d cs)]
        exact List.mem_cons_of_mem _ hb
      · rwa [List.getLast?_cons_cons]

/-- The first block is the first `n` of the content. -/
theorem Chunked.head (h : Chunked n (c :: cs)) : c = (c :: cs).flatten.take n := by
  cases cs with
  | nil =>
      have hc := (h.last c rfl).2
      simp [List.take_of_length_le hc]
  | cons d cs =>
      have hc : c.length = n := h.front c List.mem_cons_self
      simp [← hc]

/-- **There is one way to cut a content** into blocks of one size. -/
theorem Chunked.eq_of_flatten_eq (hc : Chunked n cs) (hd : Chunked n ds)
    (hflat : cs.flatten = ds.flatten) : cs = ds := by
  induction cs generalizing ds with
  | nil => exact (hd.eq_nil hflat.symm).symm
  | cons c cs ih =>
      cases ds with
      | nil => exact hc.eq_nil hflat
      | cons d ds =>
          have hhead : c = d := by rw [hc.head, hd.head, hflat]
          subst hhead
          rw [List.flatten_cons, List.flatten_cons] at hflat
          rw [ih hc.tail hd.tail (List.append_cancel_left hflat)]

end Chunked

/-! ## 3. Sinks -/

section Sinks

variable {σ τ ε β α γ : Type}

/-- A sink with a state of its own: it takes a block with a value that goes from call to call, or
    refuses it. -/
abbrev Sink (σ τ ε β : Type) := σ → τ → β → σ × Except ε τ

/-- What is left after calls of a sink: the calls, each with its error if the block was refused,
    the state of the sink, and the result. -/
structure Outcome (σ ε β α : Type) where
  calls : List (β × Option ε)
  state : σ
  result : Except ε α

namespace Outcome

def pure (s : σ) (a : α) : Outcome σ ε β α := ⟨[], s, .ok a⟩

/-- One after the other; an error ends both. -/
def bind (o : Outcome σ ε β α) (f : σ → α → Outcome σ ε β γ) : Outcome σ ε β γ :=
  match o.result with
  | .error e => ⟨o.calls, o.state, .error e⟩
  | .ok a => ⟨o.calls ++ (f o.state a).calls, (f o.state a).state, (f o.state a).result⟩

/-- The blocks the sink was called with. -/
def called (o : Outcome σ ε β α) : List β := o.calls.map (·.1)

/-- The blocks the sink took. -/
def delivered (o : Outcome σ ε β α) : List β := (o.calls.filter (·.2.isNone)).map (·.1)

@[simp] theorem pure_bind (s : σ) (a : α) (f : σ → α → Outcome σ ε β γ) :
    (pure s a).bind f = f s a := by
  simp [pure, bind]

theorem bind_assoc {δ : Type} (o : Outcome σ ε β α) (f : σ → α → Outcome σ ε β γ)
    (g : σ → γ → Outcome σ ε β δ) : (o.bind f).bind g = o.bind fun s a => (f s a).bind g := by
  obtain ⟨calls, state, result⟩ := o
  cases result with
  | error e => rfl
  | ok a =>
      cases hf : (f state a).result with
      | error e => simp [bind, hf]
      | ok b => simp [bind, hf]

end Outcome

/-- One call of the sink. -/
def call (put : Sink σ τ ε β) (s : σ) (t : τ) (b : β) : Outcome σ ε β τ :=
  match put s t b with
  | (s', .ok t') => ⟨[(b, none)], s', .ok t'⟩
  | (s', .error e) => ⟨[(b, some e)], s', .error e⟩

/-- **Blocks into a sink**, one after another, up to the first that it refuses. -/
def feed (put : Sink σ τ ε β) (s : σ) (t : τ) : List β → Outcome σ ε β τ
  | [] => .pure s t
  | b :: bs => (call put s t b).bind fun s t => feed put s t bs

variable {put : Sink σ τ ε β} {s : σ} {t : τ} {bs cs : List β}

theorem feed_singleton (b : β) : feed put s t [b] = call put s t b := by
  simp only [feed, Outcome.bind, Outcome.pure]
  split
  · rename_i e he
    rw [← he]
  · rename_i a ha
    rw [List.append_nil, ← ha]

theorem feed_append : feed put s t (bs ++ cs) =
    (feed put s t bs).bind fun s t => feed put s t cs := by
  induction bs generalizing s t with
  | nil => simp [feed]
  | cons b bs ih =>
      rw [List.cons_append, feed, feed, Outcome.bind_assoc]
      simp only [ih]

/-- **How the blocks go in**: all of them, or those before the first that is refused. -/
theorem feed_cases (put : Sink σ τ ε β) (s : σ) (t : τ) (bs : List β) :
    (∃ t', (feed put s t bs).result = .ok t' ∧
      (feed put s t bs).calls = bs.map fun b => (b, none)) ∨
    ∃ pre b post e, bs = pre ++ b :: post ∧ (∃ s' t', (put s' t' b).2 = .error e) ∧
      (feed put s t bs).result = .error e ∧
      (feed put s t bs).calls = pre.map (fun b => (b, none)) ++ [(b, some e)] := by
  induction bs generalizing s t with
  | nil => exact .inl ⟨t, rfl, rfl⟩
  | cons b bs ih =>
      cases hput : put s t b with
      | mk s' r =>
          cases r with
          | error e =>
              refine .inr ⟨[], b, bs, e, rfl, ⟨s, t, by rw [hput]⟩, ?_, ?_⟩
              · simp [feed, call, hput, Outcome.bind]
              · simp [feed, call, hput, Outcome.bind]
          | ok t' =>
              have hfeed : feed put s t (b :: bs) = ⟨(b, none) :: (feed put s' t' bs).calls,
                  (feed put s' t' bs).state, (feed put s' t' bs).result⟩ := by
                simp [feed, call, hput, Outcome.bind]
              rw [hfeed]
              rcases ih s' t' with ⟨u, hu, hcalls⟩ | ⟨pre, c, post, e, rfl, hc, he, hcalls⟩
              · exact .inl ⟨u, hu, by rw [hcalls, List.map_cons]⟩
              · exact .inr ⟨b :: pre, c, post, e, rfl, hc, he, by rw [hcalls]; rfl⟩

/-- **A sink that never refuses** takes all blocks. -/
theorem feed_ok (hput : ∀ s t b, ∃ t', (put s t b).2 = .ok t') (s : σ) (t : τ) (bs : List β) :
    ∃ t', (feed put s t bs).result = .ok t' ∧
      (feed put s t bs).calls = bs.map fun b => (b, none) := by
  rcases feed_cases put s t bs with hok | ⟨_, b, _, e, _, ⟨s', t', he⟩, _⟩
  · exact hok
  · obtain ⟨u, hu⟩ := hput s' t' b
    rw [hu] at he
    cases he

theorem delivered_of_ok {o : Outcome σ ε β α} (h : o.calls = bs.map fun b => (b, none)) :
    o.delivered = bs := by
  simp [Outcome.delivered, h, List.filter_map, Function.comp_def]

/-- The blocks before the one that was refused are those that were taken. -/
theorem delivered_of_calls {o : Outcome σ ε β α} {e : ε} {b : β}
    (h : o.calls = bs.map (fun b => (b, none)) ++ [(b, some e)]) : o.delivered = bs := by
  simp [Outcome.delivered, h, List.filter_map, Function.comp_def]

/-- **What the sink took** is the beginning of what was meant for it. -/
theorem delivered_feed_prefix (put : Sink σ τ ε β) (s : σ) (t : τ) (bs : List β) :
    (feed put s t bs).delivered <+: bs := by
  rcases feed_cases put s t bs with ⟨_, -, hcalls⟩ | ⟨pre, b, post, e, rfl, -, -, hcalls⟩
  · exact ⟨[], by rw [List.append_nil, delivered_of_ok hcalls]⟩
  · rw [delivered_of_calls hcalls]
    exact List.prefix_append _ _

end Sinks

end LocalSend.Lib.Buffering
