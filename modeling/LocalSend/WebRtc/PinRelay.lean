/-
  File:      LocalSend/WebRtc/PinRelay.lean
  Subject:   HOW A PIN COMES FROM THE APP TO THE TASK (`app/rust/src/api/webrtc.rs`, with
             `handle_pin` of `core/src/webrtc/peer.rs`).

  For each PIN the task makes a one-shot sender and puts it into a channel; a second task takes it
  out and stores it in a slot; a call of `send_pin` takes it from there and sends the PIN. The
  three run at the same time, and any number of calls do.

  * `Task` -- a task with a prompt in it; `Send.prompting`, `Accept.prompting` -- `send_offer` and
    `accept_offer`;
  * `State`, `step`, `bridge` -- task, channel, relay, slot and calls as one machine;
  * `Kept` -- **the invariant**: while the task waits without a PIN its sender is at exactly one
    place, and at every other time there is none;
  * **`pins_in_order`** -- the task gets the PINs of the calls that returned without an error, in
    their order, and neither it nor a call ever finds a channel closed;
  * **`prompt_answerable`** -- no prompt is lost: the next call answers it.
-/
import LocalSend.WebRtc.JsonWire
import LocalSend.WebRtc.Peers

namespace LocalSend.WebRtc

open Lib

/-! ## 1. The tasks -/

/-- A task with a prompt for PINs in it. -/
structure Task (σ ε : Type) where
  machine : Machine σ ε
  start : σ
  /-- it stands in `handle_pin`, before it has a PIN -/
  prompts : σ → Bool
  /-- `handle_pin` goes on with a PIN -/
  resume : σ → String → σ
  /-- `handle_pin` returns an error -/
  fail : σ → String → σ
  /-- it has returned -/
  returned : σ → Bool
  start_prompts : prompts start = false
  resume_prompts : ∀ s pin, prompts (resume s pin) = false
  prompts_waits : ∀ s e, prompts s = true → machine.step s e = none
  returned_waits : ∀ s e, returned s = true → machine.step s e = none
  returned_prompts : ∀ s, returned s = true → prompts s = false

/-- A task that is written as reactions, and stands in its prompt at one phase. -/
structure Prompting (μ σ : Type) where
  react : σ → Reaction μ σ
  failed : σ → String → σ
  initial : σ
  atPrompt : σ → Bool
  answer : σ → String → Batch μ σ
  error : σ → String → Batch μ σ
  initial_prompt : atPrompt initial = false
  answer_prompt : ∀ s pin, atPrompt (answer s pin).state = false
  prompt_waits : ∀ s, atPrompt s = true → react s = .wait

namespace Prompting

variable {μ σ : Type} (P : Prompting μ σ)

def process : Process μ (Batch μ σ) := Process.batched P.react P.failed

def prompts (b : Batch μ σ) : Bool := b.out.isEmpty && P.atPrompt b.state

theorem prompts_act {b : Batch μ σ} (h : P.prompts b = true) : P.process.act b = .wait := by
  obtain ⟨hout, hprompt⟩ := Bool.and_eq_true_iff.mp h
  simp only [process, Process.batched, List.isEmpty_iff.mp hout, P.prompt_waits _ hprompt]

def task : Task (Batch μ σ) (Process.Event μ) where
  machine := P.process.alone
  start := ⟨P.initial, []⟩
  prompts := P.prompts
  resume b pin := P.answer b.state pin
  fail b text := P.error b.state text
  returned := P.process.isDone
  start_prompts := P.initial_prompt
  resume_prompts b pin := by rw [prompts, P.answer_prompt, Bool.and_false]
  prompts_waits b e h := by simp only [Process.alone, P.prompts_act h]
  returned_waits b e h := by simp only [Process.alone, Process.isDone_iff.mp h]
  returned_prompts b h := by
    refine Bool.eq_false_iff.mpr fun hp => ?_
    cases (Process.isDone_iff.mp h).symm.trans (P.prompts_act hp)

end Prompting

/-- **The task of `send_offer`.** -/
def Send.prompting (w : Wire) (c : Send.Config) (sending : List RTCFile) :
    Prompting Message Send.State where
  react := Send.react w c
  failed := Send.failed
  initial := Send.initial [] sending
  atPrompt s := s.phase = .pinPrompt
  answer s pin := s.say w (.pin ⟨pin⟩) .plain .pinResult
  error s text := s.fail (.text text)
  initial_prompt := rfl
  answer_prompt _ _ := rfl
  prompt_waits s h := by simp only [Send.react, of_decide_eq_true h]

/-- **The task of `accept_offer`.** -/
def Accept.prompting (w : Wire) (c : Accept.Config) (results : List (Option RTCSendFileResponse)) :
    Prompting Message Accept.State where
  react := Accept.react w c
  failed := Accept.failed
  initial := Accept.initial [] results
  atPrompt s := s.phase = .pinPrompt
  answer s pin := s.say w (.pin ⟨pin⟩) .plain (.pinResult [])
  error s text := s.fail (.text text)
  initial_prompt := rfl
  answer_prompt _ _ := rfl
  prompt_waits s h := by simp only [Accept.react, of_decide_eq_true h]

/-! ## 2. Channel, relay, slot and calls -/

namespace PinRelay

/-- Where `handle_pin` stands. -/
inductive Stage where
  /-- the task is somewhere else -/
  | outside
  /-- `pin_tx.send(new_pin_tx)` -/
  | offering
  /-- `new_pin_rx.await` -/
  | waiting
  deriving DecidableEq, Repr

/-- The task that moves senders from the channel to the slot. -/
inductive Relay where
  | receiving
  | storing (sender : Nat)
  | ended
  deriving DecidableEq, Repr

/-- The sender in the hands of the relay. -/
def Relay.held : Relay → Option Nat
  | .storing k => some k
  | .receiving | .ended => none

/-- A call of `send_pin` that has taken a sender. -/
structure Call where
  sender : Nat
  pin : String
  deriving DecidableEq, Repr

/-- What `send_pin` returns. -/
inductive PinResult where
  | ok
  /-- "Pin already sent" -/
  | alreadySent
  /-- "Pin channel closed" -/
  | channelClosed
  deriving DecidableEq, Repr

structure State (σ : Type) where
  task : σ
  stage : Stage := .outside
  /-- The one-shot channels made so far; the newest has this number. -/
  made : Nat := 0
  /-- The PIN in the newest of them. -/
  value : Option String := none
  /-- `pin_tx` with its single place -/
  channel : Option Nat := none
  relay : Relay := .receiving
  /-- `pin_sender` -/
  slot : Option Nat := none
  calls : List Call := []
  results : List (String × PinResult) := []
  /-- The PINs the task has got. -/
  given : List String := []

inductive Event (ε : Type) where
  | task (e : ε)
  | enqueued
  | relayReceives
  | relayStores
  | relayEnds
  | callTakes (pin : String)
  | callSends (call : Call)
  | pinRead
  /-- `new_pin_rx` finds its sender dropped -/
  | senderDropped

namespace State

variable {σ : Type}

/-- Where senders are. -/
def places (s : State σ) : List Nat :=
  s.channel.toList ++ s.relay.held.toList ++ s.slot.toList ++ s.calls.map Call.sender

/-- The PINs of the calls without an error. -/
def accepted (s : State σ) : List String :=
  (s.results.filter fun r => r.2 = .ok).map Prod.fst

def result (s : State σ) (pin : String) (r : PinResult) : State σ :=
  { s with results := s.results ++ [(pin, r)] }

end State

variable {σ ε : Type}

def step (T : Task σ ε) (s : State σ) : Event ε → Option (State σ)
  | .task e =>
    if s.stage = .outside then
      (T.machine.step s.task e).map fun t =>
        if T.prompts t then { s with task := t, stage := .offering, made := s.made + 1 }
        else { s with task := t }
    else none
  | .enqueued =>
    match s.stage, s.relay, s.channel with
    | .offering, .ended, _ =>
      some { s with task := T.fail s.task "Failed to send PIN request", stage := .outside }
    | .offering, _, none => some { s with stage := .waiting, channel := some s.made }
    | _, _, _ => none
  | .relayReceives =>
    match s.relay, s.channel with
    | .receiving, some k => some { s with relay := .storing k, channel := none }
    | _, _ => none
  | .relayStores =>
    -- a sender that is still in the slot is dropped
    match s.relay with
    | .storing k => some { s with relay := .receiving, slot := some k }
    | _ => none
  | .relayEnds =>
    if s.relay = .receiving ∧ s.channel = none ∧ T.returned s.task = true then
      some { s with relay := .ended }
    else none
  | .callTakes pin =>
    match s.slot with
    | none => some (s.result pin .alreadySent)
    | some k => some { s with slot := none, calls := s.calls ++ [⟨k, pin⟩] }
  | .callSends call =>
    if call ∈ s.calls then
      let s := { s with calls := s.calls.erase call }
      -- the receiver lives as long as its round of the loop
      if call.sender = s.made ∧ s.stage ≠ .outside then
        some ({ s with value := some call.pin }.result call.pin .ok)
      else some (s.result call.pin .channelClosed)
    else none
  | .pinRead =>
    match s.stage, s.value with
    | .waiting, some pin =>
      some { s with
        task := T.resume s.task pin, stage := .outside, value := none, given := s.given ++ [pin] }
    | _, _ => none
  | .senderDropped =>
    if s.stage = .waiting ∧ s.value = none ∧ s.made ∉ s.places then
      some { s with task := T.fail s.task "PIN required but not provided", stage := .outside }
    else none

/-- **Task and app.** -/
def bridge (T : Task σ ε) : Machine (State σ) (Event ε) := ⟨step T⟩

def start (T : Task σ ε) : State σ := { task := T.start }

/-! ## 3. One sender at one place -/

/-- **The invariant.** -/
structure Kept (T : Task σ ε) (s : State σ) : Prop where
  places : s.places = if s.stage = .waiting ∧ s.value = none then [s.made] else []
  prompts : T.prompts s.task = true ↔ s.stage ≠ .outside
  value : s.value ≠ none → s.stage = .waiting
  relay : s.relay = .ended → T.returned s.task = true
  accepted : s.accepted = s.given ++ s.value.toList
  notClosed : ∀ r ∈ s.results, r.2 ≠ .channelClosed
  made : s.made = s.given.length + if s.stage = .outside then 0 else 1

section Invariant

variable {T : Task σ ε} {s t : State σ}

theorem kept_start (T : Task σ ε) : Kept T (start T) where
  places := rfl
  prompts := iff_of_false (by rw [start, T.start_prompts]; decide) fun h => h rfl
  value h := absurd rfl h
  relay h := by cases h
  accepted := rfl
  notClosed _ hr := absurd hr List.not_mem_nil
  made := rfl

theorem accepted_result (s : State σ) (pin : String) (r : PinResult) :
    (s.result pin r).accepted = s.accepted ++ if r = .ok then [pin] else [] := by
  simp only [State.accepted, State.result, List.filter_append, List.map_append]
  cases r <;> rfl

/-- Nothing is anywhere, unless the task waits without a PIN. -/
theorem Kept.nowhere (h : Kept T s) (hs : ¬(s.stage = .waiting ∧ s.value = none)) :
    s.channel = none ∧ s.relay.held = none ∧ s.slot = none ∧ s.calls = [] := by
  have hplaces := h.places
  rw [if_neg hs] at hplaces
  simpa [State.places, and_assoc] using hplaces

/-- What is somewhere is the newest sender, and the task waits for it. -/
theorem Kept.somewhere (h : Kept T s) {k : Nat} (hk : k ∈ s.places) :
    s.stage = .waiting ∧ s.value = none ∧ s.places = [s.made] ∧ k = s.made := by
  have hplaces := h.places
  split at hplaces
  · rename_i hs
    rw [hplaces] at hk
    exact ⟨hs.1, hs.2, hplaces, List.mem_singleton.mp hk⟩
  · rw [hplaces] at hk
    exact absurd hk List.not_mem_nil

/-- The relay is there as long as the task can ask. -/
theorem Kept.relay_prompts (h : Kept T s) (hs : s.stage ≠ .outside) : s.relay ≠ .ended := by
  intro hrelay
  have hp := T.returned_prompts _ (h.relay hrelay)
  rw [h.prompts.mpr hs] at hp
  cases hp

/-- Outside `handle_pin` no PIN is left over. -/
theorem Kept.value_none (h : Kept T s) (hs : s.stage ≠ .waiting) : s.value = none := by
  by_contra hne
  exact hs (h.value hne)

theorem kept_task {e : ε} (hs : step T s (.task e) = some t) (h : Kept T s) : Kept T t := by
  simp only [step, Option.ite_none_right_eq_some, Option.map_eq_some_iff] at hs
  obtain ⟨hstage, task, htask, rfl⟩ := hs
  have hno : ¬(s.stage = .waiting ∧ s.value = none) := by simp [hstage]
  have hplaces : s.places = [] := by rw [h.places, if_neg hno]
  have hvalue : s.value = none := h.value_none (by simp [hstage])
  have hrelay : s.relay ≠ .ended := by
    intro hr
    rw [T.returned_waits _ e (h.relay hr)] at htask
    cases htask
  have hmade := h.made
  rw [if_pos hstage, Nat.add_zero] at hmade
  split
  · rename_i hprompts
    exact ⟨hplaces, iff_of_true hprompts (by simp), fun hne => absurd hvalue hne,
      fun hr => absurd hr hrelay, h.accepted, h.notClosed, by simp [hmade]⟩
  · rename_i hprompts
    exact ⟨hplaces.trans (if_neg hno).symm, iff_of_false hprompts (fun hne => hne hstage),
      fun hne => absurd hvalue hne, fun hr => absurd hr hrelay, h.accepted, h.notClosed,
      by simp [hmade, hstage]⟩

theorem kept_enqueued (hs : step T s .enqueued = some t) (h : Kept T s) : Kept T t := by
  simp only [step] at hs
  split at hs
  · rename_i hstage hrelay
    exact absurd hrelay (h.relay_prompts (by simp [hstage]))
  · rename_i hstage hchannel _
    obtain rfl := Option.some.inj hs
    have hvalue : s.value = none := h.value_none (by simp [hstage])
    obtain ⟨-, hheld, hslot, hcalls⟩ := h.nowhere (by simp [hstage])
    refine ⟨?_, ?_, fun _ => rfl, h.relay, h.accepted, h.notClosed, ?_⟩
    · simp [State.places, hvalue, hheld, hslot, hcalls]
    · exact iff_of_true (h.prompts.mpr (by simp [hstage])) (by simp)
    · simpa [hstage] using h.made
  · cases hs

theorem kept_relayReceives (hs : step T s .relayReceives = some t) (h : Kept T s) :
    Kept T t := by
  simp only [step] at hs
  split at hs
  · rename_i k hrelay hchannel
    obtain rfl := Option.some.inj hs
    have hplaces : State.places { s with relay := .storing k, channel := none } = s.places := by
      simp [State.places, Relay.held, hrelay, hchannel]
    exact ⟨hplaces.trans h.places, h.prompts, h.value, fun hr => (by cases hr), h.accepted,
      h.notClosed, h.made⟩
  · cases hs

/-- The slot is empty when the relay stores. -/
theorem kept_relayStores (hs : step T s .relayStores = some t) (h : Kept T s) : Kept T t := by
  simp only [step] at hs
  split at hs
  · rename_i k hrelay
    obtain rfl := Option.some.inj hs
    have hmem : k ∈ s.places := by simp [State.places, Relay.held, hrelay]
    obtain ⟨hstage, hvalue, hplaces, rfl⟩ := h.somewhere hmem
    have hplaces' : State.places { s with relay := .receiving, slot := some s.made } =
        [s.made] := by
      rw [State.places, hrelay] at hplaces
      cases hchannel : s.channel <;> cases hslot : s.slot <;>
        simp [State.places, Relay.held, hchannel, hslot] at hplaces ⊢
      exact hplaces
    refine ⟨?_, h.prompts, h.value, fun hr => (by cases hr), h.accepted, h.notClosed, h.made⟩
    rw [hplaces', if_pos ⟨hstage, hvalue⟩]
  · cases hs

theorem kept_relayEnds (hs : step T s .relayEnds = some t) (h : Kept T s) : Kept T t := by
  simp only [step, Option.ite_none_right_eq_some] at hs
  obtain ⟨⟨hrelay, hchannel, hover⟩, hs⟩ := hs
  obtain rfl := Option.some.inj hs
  have hplaces : State.places { s with relay := .ended } = s.places := by
    simp [State.places, Relay.held, hrelay]
  exact ⟨hplaces.trans h.places, h.prompts, h.value, fun _ => hover, h.accepted, h.notClosed,
    h.made⟩

theorem kept_callTakes {pin : String} (hs : step T s (.callTakes pin) = some t) (h : Kept T s) :
    Kept T t := by
  simp only [step] at hs
  split at hs
  · obtain rfl := Option.some.inj hs
    refine ⟨h.places, h.prompts, h.value, h.relay, ?_, ?_, h.made⟩
    · rw [accepted_result, if_neg (by simp), List.append_nil]
      exact h.accepted
    · simp only [State.result, List.mem_append, List.mem_singleton]
      rintro r (hr | rfl)
      · exact h.notClosed r hr
      · simp
  · rename_i k hslot
    obtain rfl := Option.some.inj hs
    have hmem : k ∈ s.places := by simp [State.places, hslot]
    obtain ⟨hstage, hvalue, hplaces, rfl⟩ := h.somewhere hmem
    have hplaces' : State.places { s with slot := none, calls := s.calls ++ [⟨s.made, pin⟩] } =
        [s.made] := by
      rw [State.places, hslot] at hplaces
      cases hchannel : s.channel <;> cases hheld : s.relay.held <;>
        simp [State.places, hchannel, hheld] at hplaces ⊢
      exact hplaces
    refine ⟨?_, h.prompts, h.value, h.relay, h.accepted, h.notClosed, h.made⟩
    rw [hplaces', if_pos ⟨hstage, hvalue⟩]

theorem kept_callSends {call : Call} (hs : step T s (.callSends call) = some t) (h : Kept T s) :
    Kept T t := by
  simp only [step, Option.ite_none_right_eq_some] at hs
  obtain ⟨hcall, hs⟩ := hs
  have hmem : call.sender ∈ s.places :=
    List.mem_append_right _ (List.mem_map_of_mem hcall)
  obtain ⟨hstage, hvalue, hplaces, hsender⟩ := h.somewhere hmem
  rw [if_pos ⟨hsender, by simp [hstage]⟩] at hs
  obtain rfl := Option.some.inj hs
  have hplaces' : State.places { s with calls := s.calls.erase call } = [] := by
    rcases List.append_eq_singleton_iff.mp hplaces with ⟨hfront, hcalls⟩ | ⟨-, hcalls⟩
    · obtain ⟨call', hcalls', -⟩ := List.map_eq_singleton_iff.mp hcalls
      obtain rfl : call = call' := by simpa [hcalls'] using hcall
      rw [State.places, hcalls', List.erase_cons_head]
      exact List.append_eq_nil_iff.mpr ⟨hfront, rfl⟩
    · rw [List.map_eq_nil_iff] at hcalls
      simp [hcalls] at hcall
  refine ⟨?_, h.prompts, fun _ => hstage, h.relay, ?_, ?_, h.made⟩
  · exact hplaces'.trans (if_neg (by simp [State.result])).symm
  · have haccepted := h.accepted
    rw [hvalue, Option.toList_none, List.append_nil] at haccepted
    rw [accepted_result, if_pos rfl]
    exact congrArg (· ++ [call.pin]) haccepted
  · simp only [State.result, List.mem_append, List.mem_singleton]
    rintro r (hr | rfl)
    · exact h.notClosed r hr
    · simp

theorem kept_pinRead (hs : step T s .pinRead = some t) (h : Kept T s) : Kept T t := by
  simp only [step] at hs
  split at hs
  · rename_i pin hstage hvalue
    obtain rfl := Option.some.inj hs
    have hno : ¬(s.stage = .waiting ∧ s.value = none) := by simp [hvalue]
    refine ⟨?_, ?_, fun hne => absurd rfl hne, fun hr => ?_, ?_, h.notClosed, ?_⟩
    · exact (h.places.trans (if_neg hno)).trans (if_neg (by simp)).symm
    · exact iff_of_false (by simp [T.resume_prompts]) (by simp)
    · exact absurd hr (h.relay_prompts (by simp [hstage]))
    · have haccepted := h.accepted
      rw [hvalue] at haccepted
      rw [Option.toList_none, List.append_nil]
      exact haccepted
    · simpa [hstage] using h.made
  · cases hs

theorem not_senderDropped (h : Kept T s) : step T s .senderDropped = none := by
  refine if_neg fun hs => hs.2.2 ?_
  rw [h.places, if_pos ⟨hs.1, hs.2.1⟩]
  exact List.mem_singleton_self _

/-- **Every step keeps the invariant.** -/
theorem kept_step {e : Event ε} (hs : step T s e = some t) (h : Kept T s) : Kept T t := by
  cases e with
  | task e => exact kept_task hs h
  | enqueued => exact kept_enqueued hs h
  | relayReceives => exact kept_relayReceives hs h
  | relayStores => exact kept_relayStores hs h
  | relayEnds => exact kept_relayEnds hs h
  | callTakes pin => exact kept_callTakes hs h
  | callSends call => exact kept_callSends hs h
  | pinRead => exact kept_pinRead hs h
  | senderDropped => exact absurd (not_senderDropped h) (by simp [hs])

theorem kept_run {es : List (Event ε)} (hr : (bridge T).Run Machine.anyStep (start T) es s) :
    Kept T s :=
  hr.invariant (kept_start T) fun _ _ _ h _ hs => kept_step hs h

end Invariant

/-! ## 4. The PINs in their order -/

/-- The task alone, up to its first prompt. -/
theorem lift_run {T : Task σ ε} {es : List ε} {t : σ}
    (h : T.machine.Run Machine.anyStep T.start es t) :
    ∃ fs, (bridge T).Run Machine.anyStep (start T) fs
      (if T.prompts t then { task := t, stage := .offering, made := 1 } else { task := t }) := by
  induction h with
  | start =>
      rw [T.start_prompts]
      exact ⟨[], .start⟩
  | step es e t u _ _ hs ih =>
      obtain ⟨fs, hr⟩ := ih
      have hprompts : T.prompts t ≠ true := by
        intro hp
        rw [T.prompts_waits t e hp] at hs
        cases hs
      rw [if_neg hprompts] at hr
      refine ⟨fs ++ [.task e], .step _ _ _ _ hr trivial ?_⟩
      simp only [bridge, step, if_true, hs, Option.map_some]

/-- **The task gets what the calls without an error sent**, in their order and at most one behind;
    no call finds its channel closed, and the task neither its sender dropped nor the relay gone. -/
theorem pins_in_order (T : Task σ ε) {es : List (Event ε)} {s : State σ}
    (hr : (bridge T).Run Machine.anyStep (start T) es s) :
    s.accepted = s.given ++ s.value.toList ∧ (∀ r ∈ s.results, r.2 ≠ .channelClosed) ∧
      (bridge T).step s .senderDropped = none ∧ (s.stage ≠ .outside → s.relay ≠ .ended) ∧
      s.accepted.length ≤ s.made := by
  have h := kept_run hr
  refine ⟨h.accepted, h.notClosed, not_senderDropped h, h.relay_prompts, ?_⟩
  rw [h.accepted, h.made, List.length_append]
  refine Nat.add_le_add_left ?_ _
  by_cases hstage : s.stage = .outside
  · rw [h.value_none (by simp [hstage])]
    exact Nat.zero_le _
  · rw [if_neg hstage]
    exact Option.length_toList_le

/-- The task of `send_offer` against a receiver with a PIN. -/
def demoTask : Task (Batch Message Send.State) (Process.Event Message) :=
  (Send.prompting jsonWire (openSender none []) []).task

/-- It gets to its prompt. -/
theorem demo_prompted : ∃ es task, (bridge demoTask).Run Machine.anyStep (start demoTask) es
    { task := task, stage := .offering, made := 1 } := by
  have hvalid : validateNonce (List.replicate 32 0) = true := by decide
  have h1 := Send.feed_start (w := jsonWire) (c := openSender none [])
    (s := Send.initial [] []) rfl
  have h2 := h1.trans (Send.feed_nonce (w := jsonWire) rfl hvalid rfl)
  have h3 := h2.trans (Send.feed_tokenResponse (w := jsonWire) (c := openSender none []) rfl
    (.pinRequired "token") (Send.onTokenResponse_pinRequired rfl))
  obtain ⟨es, hrun, _⟩ := h3.alone
  obtain ⟨fs, hr⟩ := lift_run (T := demoTask) hrun
  exact ⟨fs, _, hr⟩

/-- A call before the sender is in the slot, and one after it. -/
def earlyCall : List (Event (Process.Event Message)) :=
  [.callTakes "0000", .enqueued, .relayReceives, .relayStores, .callTakes "1234",
    .callSends ⟨1, "1234"⟩, .pinRead]

/-- The second call answers the prompt. -/
theorem demo_answered : ∃ es task, (bridge demoTask).Run Machine.anyStep (start demoTask) es
    { task := demoTask.resume task "1234", made := 1,
      results := [("0000", .alreadySent), ("1234", .ok)], given := ["1234"] } := by
  obtain ⟨es, task, hr⟩ := demo_prompted
  have hrun : (bridge demoTask).run { task := task, stage := .offering, made := 1 } earlyCall =
      some {
        task := demoTask.resume task "1234", made := 1,
        results := [("0000", .alreadySent), ("1234", .ok)], given := ["1234"] } := rfl
  exact ⟨_, task, hr.trans (Machine.run_sound hrun)⟩

theorem pins_in_order_early : ∃ es s,
    (bridge demoTask).Run Machine.anyStep (start demoTask) es s ∧
    s.results = [("0000", .alreadySent), ("1234", .ok)] ∧ s.value = none ∧
    s.given = ["1234"] := by
  obtain ⟨es, task, hr⟩ := demo_answered
  exact ⟨es, _, hr, rfl, rfl, ((pins_in_order demoTask hr).1.trans (List.append_nil _)).symm⟩

/-! ## 5. No prompt is lost -/

/-- Everything but the task's own steps and a new call. -/
def Event.internal : Event ε → Bool
  | .task _ | .callTakes _ => false
  | _ => true

/-- Task, relay and the calls under way lead from one state to the other. -/
def Leads (T : Task σ ε) (s t : State σ) : Prop :=
  ∃ es, (∀ e ∈ es, e.internal = true) ∧ (bridge T).Run Machine.anyStep s es t

/-- The task has got this PIN. -/
def Gets (T : Task σ ε) (s : State σ) (pin : String) (t : State σ) : Prop :=
  t.stage = .outside ∧ t.task = T.resume s.task pin ∧ t.given = s.given ++ [pin]

/-- The PIN of the call that has taken the sender. -/
def State.taken (s : State σ) : Option String := s.value <|> s.calls.head?.map Call.pin

section Progress

variable {T : Task σ ε} {s t u : State σ} {pin : String}

theorem Leads.refl (s : State σ) : Leads T s s :=
  ⟨[], fun _ he => absurd he List.not_mem_nil, .start⟩

theorem Leads.step {e : Event ε} (he : e.internal = true) (hs : step T s e = some t)
    (h : Leads T t u) : Leads T s u := by
  obtain ⟨es, hes, hr⟩ := h
  have h1 : (bridge T).Run Machine.anyStep s ([] ++ [e]) t := .step [] e s t .start trivial hs
  exact ⟨_, List.forall_mem_append.mpr ⟨by simpa using he, hes⟩, h1.trans hr⟩

/-- A PIN in the channel is read. -/
theorem gets_value (hstage : s.stage = .waiting) (hvalue : s.value = some pin) :
    ∃ t, Leads T s t ∧ Gets T s pin t := by
  have hs : step T s .pinRead = some { s with
      task := T.resume s.task pin, stage := .outside, value := none,
      given := s.given ++ [pin] } := by
    simp only [PinRelay.step, hstage, hvalue]
  exact ⟨_, .step rfl hs (.refl _), rfl, rfl, rfl⟩

/-- A call that has the sender sends. -/
theorem gets_call {call : Call} (hstage : s.stage = .waiting) (hcall : call ∈ s.calls)
    (hsender : call.sender = s.made) : ∃ t, Leads T s t ∧ Gets T s call.pin t := by
  let u := State.result
    { s with calls := s.calls.erase call, value := some call.pin } call.pin .ok
  have hs : step T s (.callSends call) = some u := by
    simp only [PinRelay.step, if_pos hcall]
    exact if_pos ⟨hsender, by simp [hstage]⟩
  obtain ⟨t, hlead, hgets⟩ := gets_value (T := T) (s := u) hstage rfl
  exact ⟨t, .step rfl hs hlead, hgets⟩

/-- The sender is in the slot. -/
def Filled (T : Task σ ε) (s : State σ) : Prop :=
  ∃ u, Leads T s u ∧ u.stage = .waiting ∧ u.slot = some u.made ∧ u.task = s.task ∧
    u.given = s.given

theorem filled_storing (hstage : s.stage = .waiting) (hrelay : s.relay = .storing s.made) :
    Filled T s := by
  have hs : step T s .relayStores =
      some { s with relay := .receiving, slot := some s.made } := by
    simp only [PinRelay.step, hrelay]
  exact ⟨_, .step rfl hs (.refl _), hstage, rfl, rfl, rfl⟩

theorem filled_channel (hstage : s.stage = .waiting) (hrelay : s.relay = .receiving)
    (hchannel : s.channel = some s.made) : Filled T s := by
  have hs : step T s .relayReceives =
      some { s with relay := .storing s.made, channel := none } := by
    simp only [PinRelay.step, hrelay, hchannel]
  obtain ⟨u, hlead, hu⟩ := filled_storing (T := T)
    (s := { s with relay := .storing s.made, channel := none }) hstage rfl
  exact ⟨u, .step rfl hs hlead, hu⟩

/-- **The sender comes into the slot**, from wherever it is. -/
theorem filled_prompt (h : Kept T s) (hstage : s.stage ≠ .outside) (htaken : s.taken = none) :
    Filled T s := by
  obtain ⟨hvalue, hcalls⟩ : s.value = none ∧ s.calls = [] := by
    simpa [State.taken] using htaken
  have hover := h.relay_prompts hstage
  cases hcase : s.stage with
  | outside => exact absurd hcase hstage
  | offering =>
      obtain ⟨hchannel, hheld, -, -⟩ := h.nowhere (by simp [hcase])
      have hrelay : s.relay = .receiving := by
        cases hr : s.relay with
        | receiving => rfl
        | storing k => simp [hr, Relay.held] at hheld
        | ended => exact absurd hr hover
      have hs : step T s .enqueued =
          some { s with stage := .waiting, channel := some s.made } := by
        simp only [PinRelay.step, hcase, hrelay, hchannel]
      obtain ⟨u, hlead, hu⟩ := filled_channel (T := T)
        (s := { s with stage := .waiting, channel := some s.made }) rfl hrelay rfl
      exact ⟨u, .step rfl hs hlead, hu⟩
  | waiting =>
      have hplaces := h.places
      rw [if_pos ⟨hcase, hvalue⟩, State.places, hcalls] at hplaces
      cases hr : s.relay with
      | ended => exact absurd hr hover
      | storing k =>
          obtain rfl : k = s.made := by
            have hmem : k ∈ s.places := by simp [State.places, Relay.held, hr]
            exact (h.somewhere hmem).2.2.2
          exact filled_storing hcase hr
      | receiving =>
          cases hchannel : s.channel with
          | some k =>
              obtain rfl : k = s.made := by
                have hmem : k ∈ s.places := by simp [State.places, hchannel]
                exact (h.somewhere hmem).2.2.2
              exact filled_channel hcase hr hchannel
          | none =>
              have hslot : s.slot = some s.made := by
                rw [hr, hchannel] at hplaces
                simpa [Relay.held] using hplaces
              exact ⟨s, .refl s, hcase, hslot, rfl, rfl⟩

/-- What a call has taken, it brings. -/
theorem gets_taken (h : Kept T s) (htaken : s.taken = some pin) :
    ∃ t, Leads T s t ∧ Gets T s pin t := by
  cases hvalue : s.value with
  | some p =>
      obtain rfl : p = pin := by simpa [State.taken, hvalue] using htaken
      exact gets_value (h.value (by simp [hvalue])) hvalue
  | none =>
      obtain ⟨call, hcall, rfl⟩ : ∃ call, s.calls.head? = some call ∧ call.pin = pin := by
        simpa [State.taken, hvalue] using htaken
      have hmem : call ∈ s.calls := List.mem_of_head? hcall
      obtain ⟨hstage, -, -, hsender⟩ := h.somewhere
        (List.mem_append_right _ (List.mem_map_of_mem hmem) : call.sender ∈ s.places)
      exact gets_call hstage hmem hsender

end Progress

/-- **No prompt is lost**: wherever its sender is, either a call has taken it, and the task gets
    this PIN, or the sender comes into the slot, and the task gets the PIN of the next call. -/
theorem prompt_answerable (T : Task σ ε) {es : List (Event ε)} {s : State σ}
    (hr : (bridge T).Run Machine.anyStep (start T) es s) (hstage : s.stage ≠ .outside) :
    (∃ pin t, s.taken = some pin ∧ Leads T s t ∧ Gets T s pin t) ∨
    (s.taken = none ∧ ∀ pin, ∃ u v t, Leads T s u ∧ (bridge T).step u (.callTakes pin) = some v ∧
      v.results = u.results ∧ Leads T v t ∧ Gets T s pin t) := by
  have h := kept_run hr
  cases htaken : s.taken with
  | some pin =>
      obtain ⟨t, hlead, hgets⟩ := gets_taken h htaken
      exact Or.inl ⟨pin, t, rfl, hlead, hgets⟩
  | none =>
      refine Or.inr ⟨rfl, fun pin => ?_⟩
      obtain ⟨u, hlead, hwaiting, hslot, htask, hgiven⟩ := filled_prompt h hstage htaken
      have hs : step T u (.callTakes pin) =
          some { u with slot := none, calls := u.calls ++ [⟨u.made, pin⟩] } := by
        simp only [PinRelay.step, hslot]
      obtain ⟨t, hlead', hout, htask', hgiven'⟩ := gets_call (T := T)
        (s := { u with slot := none, calls := u.calls ++ [⟨u.made, pin⟩] }) hwaiting
        (List.mem_append_right _ (List.mem_singleton_self _)) rfl
      exact ⟨u, _, t, hlead, hs, rfl, hlead', hout, by rw [htask', htask], by rw [hgiven', hgiven]⟩

theorem prompt_answerable_first : ∃ es s,
    (bridge demoTask).Run Machine.anyStep (start demoTask) es s ∧ s.made = 1 ∧
    ((∃ pin t, s.taken = some pin ∧ Leads demoTask s t ∧ Gets demoTask s pin t) ∨
      (s.taken = none ∧ ∀ pin, ∃ u v t, Leads demoTask s u ∧
        (bridge demoTask).step u (.callTakes pin) = some v ∧ v.results = u.results ∧
        Leads demoTask v t ∧ Gets demoTask s pin t)) := by
  obtain ⟨es, task, hr⟩ := demo_prompted
  have hstage : Stage.offering ≠ .outside := by decide
  exact ⟨es, _, hr, rfl, prompt_answerable demoTask hr hstage⟩

end PinRelay

end LocalSend.WebRtc
