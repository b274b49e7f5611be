/-
  File:      LocalSend/WebRtc/Bridge.lean
  Subject:   THE TASKS BEHIND THE RELAY ARE THOSE OF `WebRtc.Send` AND `WebRtc.Accept`, which have
             the PINs of their users from the start.

  * `Foresight` -- a task that does the same when it has its PINs from the start; `foreseen` -- so
    a task behind the relay is one of these, with the PINs it was given;
  * `Prompting.Ahead` -- a state without PINs and the same with those to come; `Prompting.Pins` --
    what it takes that no step tells the two apart; `Send.pins`, `Accept.pins` -- one lemma for
    each reaction;
  * **`bridged_tasks`** -- `send_offer` and `accept_offer` behind the relay reach no state that they
    do not reach with the PINs of the calls without an error.
-/
import LocalSend.WebRtc.PinRelay

namespace LocalSend.WebRtc

open Lib

/-! ## 1. Tasks with foresight -/

/-- A task that does the same when it has its PINs from the start. -/
structure Foresight {σ ε : Type} (T : Task σ ε) where
  startWith : List String → σ
  /-- the same state, with the PINs still to come -/
  ahead : List String → σ → σ → Prop
  start : ∀ pins, ahead pins T.start (startWith pins)
  step : ∀ {pins s s' e t}, ahead pins s s' → T.machine.step s e = some t →
    ∃ t', T.machine.step s' e = some t' ∧ ahead pins t t'
  resume : ∀ {pin pins s s'}, T.prompts s = true → ahead (pin :: pins) s s' →
    ahead pins (T.resume s pin) s'
  nil : ∀ {s s'}, ahead [] s s' → s' = s

/-- Two reactions that do the same, with results that are related. -/
inductive Alike {μ σ : Type} (R : Batch μ σ → Batch μ σ → Prop) :
    Reaction μ σ → Reaction μ σ → Prop where
  | recv (k k' : Option μ → Batch μ σ) (h : ∀ m, R (k m) (k' m)) : Alike R (.recv k) (.recv k')
  | tau (b b' : Batch μ σ) (h : R b b') : Alike R (.tau b) (.tau b')
  | wait : Alike R .wait .wait
  | done : Alike R .done .done

theorem alike_step {μ σ : Type} {react : σ → Reaction μ σ} {failed : σ → String → σ}
    {R : Batch μ σ → Batch μ σ → Prop} {s s' : σ} {e : Process.Event μ} {t : Batch μ σ}
    (h : Alike R (react s) (react s'))
    (hs : (Process.batched react failed).alone.step ⟨s, []⟩ e = some t) :
    ∃ t', (Process.batched react failed).alone.step ⟨s', []⟩ e = some t' ∧ R t t' := by
  simp only [Process.alone, Process.batched] at hs ⊢
  generalize react s = r at h hs
  generalize react s' = r' at h
  cases h with
  | recv k k' h =>
      cases e with
      | received m =>
          obtain rfl := Option.some.inj hs
          exact ⟨_, rfl, h (some m)⟩
      | closed =>
          obtain rfl := Option.some.inj hs
          exact ⟨_, rfl, h none⟩
      | sent _ | computed => cases hs
  | tau b b' h =>
      cases e with
      | computed =>
          obtain rfl := Option.some.inj hs
          exact ⟨_, rfl, h⟩
      | sent _ | received _ | closed => cases hs
  | wait => cases hs
  | done => cases hs

namespace Prompting

variable {μ σ : Type}

/-- **A state without PINs, and the same with the PINs still to come.** -/
inductive Ahead (P : Prompting μ σ) (withPins : σ → List String → σ) (blank : σ → Prop) :
    List String → Batch μ σ → Batch μ σ → Prop where
  | same (pins : List String) (s : σ) (out : List μ) (hblank : blank s)
      (hprompt : P.atPrompt s = false) : Ahead P withPins blank pins ⟨s, out⟩ ⟨withPins s pins, out⟩
  | waits (s : σ) (hblank : blank s) (hprompt : P.atPrompt s = true) :
      Ahead P withPins blank [] ⟨s, []⟩ ⟨s, []⟩
  | gave (pin : String) (pins : List String) (s : σ) (hblank : blank s)
      (hprompt : P.atPrompt s = true) :
      Ahead P withPins blank (pin :: pins) ⟨s, []⟩ (P.answer (withPins s pins) pin)

/-- How a task has its PINs from the start; `blank`: it has none. -/
structure Pins (P : Prompting μ σ) where
  withPins : σ → List String → σ
  blank : σ → Prop
  initial_blank : blank P.initial
  withPins_nil : ∀ s, blank s → withPins s [] = s
  answer_blank : ∀ s pin, blank s → blank (P.answer s pin).state
  answer_withPins : ∀ s pin pins, P.answer (withPins s pins) pin =
    ⟨withPins (P.answer s pin).state pins, (P.answer s pin).out⟩
  react_ahead : ∀ s pins, blank s → P.atPrompt s = false →
    Alike (Ahead P withPins blank pins) (P.react s) (P.react (withPins s pins))
  failed_withPins : ∀ s pins e, P.failed (withPins s pins) e = withPins (P.failed s e) pins
  failed_keeps : ∀ s e, blank s → P.atPrompt s = false →
    blank (P.failed s e) ∧ P.atPrompt (P.failed s e) = false

namespace Pins

variable {P : Prompting μ σ} (N : Pins P) {pins : List String} {b b' t : Batch μ σ}

/-- **One step**, with and without the PINs to come. -/
theorem ahead_step {e : Process.Event μ} (h : Ahead P N.withPins N.blank pins b b')
    (hs : P.process.alone.step b e = some t) :
    ∃ t', P.process.alone.step b' e = some t' ∧ Ahead P N.withPins N.blank pins t t' := by
  cases h with
  | same _ s out hblank hprompt =>
      cases out with
      | nil => exact alike_step (N.react_ahead s pins hblank hprompt) hs
      | cons m out =>
          cases e with
          | sent error =>
              cases error with
              | none =>
                  obtain rfl := Option.some.inj hs
                  exact ⟨_, rfl, .same pins s out hblank hprompt⟩
              | some text =>
                  obtain rfl := Option.some.inj hs
                  obtain ⟨hblank', hprompt'⟩ := N.failed_keeps s text hblank hprompt
                  refine ⟨⟨P.failed (N.withPins s pins) text, []⟩, rfl, ?_⟩
                  rw [N.failed_withPins]
                  exact .same pins (P.failed s text) [] hblank' hprompt'
          | received _ | closed | computed => cases hs
  | waits s _ hprompt | gave _ _ s _ hprompt =>
      have hact := P.prompts_act (b := ⟨s, []⟩) (by simp [prompts, hprompt])
      simp only [Process.alone, hact] at hs
      cases hs

theorem ahead_resume {pin : String} (hb : P.prompts b = true)
    (h : Ahead P N.withPins N.blank (pin :: pins) b b') :
    Ahead P N.withPins N.blank pins (P.answer b.state pin) b' := by
  cases h with
  | same _ s out _ hprompt => simp [prompts, hprompt] at hb
  | gave _ _ s hblank _ =>
      rw [N.answer_withPins]
      exact .same pins _ _ (N.answer_blank s pin hblank) (P.answer_prompt s pin)

theorem ahead_nil (h : Ahead P N.withPins N.blank [] b b') : b' = b := by
  cases h with
  | same _ s out hblank _ => rw [N.withPins_nil s hblank]
  | waits s _ _ => rfl

/-- **The task with foresight.** -/
def foresight : Foresight P.task where
  startWith pins := ⟨N.withPins P.initial pins, []⟩
  ahead := Ahead P N.withPins N.blank
  start pins := .same pins P.initial [] N.initial_blank P.initial_prompt
  step := N.ahead_step
  resume := N.ahead_resume
  nil := N.ahead_nil

end Pins

end Prompting

namespace PinRelay

variable {σ ε : Type} {T : Task σ ε}

/-- Only the task's own steps and the PIN it reads change what it does. -/
theorem task_unchanged {s t : State σ} {e : Event ε} (h : Kept T s) (hs : step T s e = some t)
    (htask : ∀ e', e ≠ .task e') (hread : e ≠ .pinRead) : t.task = s.task ∧ t.given = s.given := by
  cases e with
  | task e => exact absurd rfl (htask e)
  | pinRead => exact absurd rfl hread
  | senderDropped =>
      rw [not_senderDropped h] at hs
      cases hs
  | enqueued =>
      simp only [step] at hs
      split at hs
      · rename_i hstage hrelay
        exact absurd hrelay (h.relay_prompts (by simp [hstage]))
      · obtain rfl := Option.some.inj hs
        exact ⟨rfl, rfl⟩
      · cases hs
  | relayReceives | relayStores | callTakes _ =>
      simp only [step] at hs
      split at hs <;> cases hs <;> exact ⟨rfl, rfl⟩
  | relayEnds =>
      simp only [step, Option.ite_none_right_eq_some] at hs
      obtain rfl := Option.some.inj hs.2
      exact ⟨rfl, rfl⟩
  | callSends call =>
      simp only [step, Option.ite_none_right_eq_some] at hs
      obtain ⟨-, hs⟩ := hs
      split at hs <;> cases hs <;> exact ⟨rfl, rfl⟩

/-- **A task behind the relay is one that has its PINs from the start.** -/
theorem foreseen (F : Foresight T) {es : List (Event ε)} {s : State σ}
    (hr : (bridge T).Run Machine.anyStep (start T) es s) (more : List String) :
    ∃ fs s', T.machine.Run Machine.anyStep (F.startWith (s.given ++ more)) fs s' ∧
      F.ahead more s.task s' := by
  induction hr generalizing more with
  | start => exact ⟨[], _, .start, F.start more⟩
  | step es e t u hr _ hs ih =>
      have h := kept_run hr
      by_cases htask : ∃ e', e = .task e'
      · obtain ⟨e', rfl⟩ := htask
        obtain ⟨fs, s', hrun, hahead⟩ := ih more
        simp only [bridge, step, Option.ite_none_right_eq_some, Option.map_eq_some_iff] at hs
        obtain ⟨-, task, htask, hu⟩ := hs
        obtain ⟨t', hstep, hahead'⟩ := F.step hahead htask
        have hsame : u.task = task ∧ u.given = t.given := by
          split at hu <;> rw [← hu] <;> exact ⟨rfl, rfl⟩
        rw [hsame.1, hsame.2]
        exact ⟨_, t', .step _ _ _ _ hrun trivial hstep, hahead'⟩
      · by_cases hread : e = .pinRead
        · -- the run with one more PIN is that of the state before
          subst hread
          simp only [bridge, step] at hs
          split at hs
          · rename_i pin hstage _
            obtain rfl := Option.some.inj hs
            obtain ⟨fs, s', hrun, hahead⟩ := ih (pin :: more)
            refine ⟨fs, s', ?_, F.resume (h.prompts.mpr (by simp [hstage])) hahead⟩
            rwa [List.append_assoc, List.singleton_append]
          · cases hs
        · obtain ⟨hsame, hgiven⟩ := task_unchanged h hs (fun e' he => htask ⟨e', he⟩) hread
          rw [hsame, hgiven]
          exact ih more

end PinRelay

/-! ## 2. The task of the sender -/

namespace Send

def State.withPins (s : State) (pins : List String) : State := { s with pins := pins.map some }

section Reactions

variable {w : Wire} {c : Config} {sending : List RTCFile} {s : State} {pins : List String}

/-- The same state, with the PINs still to come. -/
def Ahead (w : Wire) (c : Config) (sending : List RTCFile) :
    List String → Batch Message State → Batch Message State → Prop :=
  (prompting w c sending).Ahead State.withPins fun s => s.pins = []

theorem Ahead.keep (hpins : s.pins = []) (out : List Message) (h : s.phase ≠ .pinPrompt) :
    Ahead w c sending pins ⟨s, out⟩ ⟨s.withPins pins, out⟩ :=
  Prompting.Ahead.same (P := prompting w c sending) pins s out hpins (decide_eq_false h)

theorem Ahead.goto (hpins : s.pins = []) {phase : Phase} (h : phase ≠ .pinPrompt) :
    Ahead w c sending pins (s.goto phase) ((s.withPins pins).goto phase) :=
  have hlater : State.pins { s with phase := phase } = [] := hpins
  .keep hlater [] h

theorem Ahead.fail (hpins : s.pins = []) (e : Error) :
    Ahead w c sending pins (s.fail e) ((s.withPins pins).fail e) :=
  .goto hpins (by simp)

theorem Ahead.say (hpins : s.pins = []) (item : Item) (onFail : OnFail) {phase : Phase}
    (h : phase ≠ .pinPrompt) :
    Ahead w c sending pins (s.say w item onFail phase)
      ((s.withPins pins).say w item onFail phase) :=
  have hlater : State.pins
      { s with phase := phase, onFail := onFail, sent := s.sent ++ [item] } = [] := hpins
  .keep hlater _ h

theorem ahead_promptPin (hpins : s.pins = []) :
    Ahead w c sending pins (promptPin w s) (promptPin w (s.withPins pins)) := by
  have hwaits : promptPin w s = (s.status .pinRequired).goto .pinPrompt := by
    have hstatus : (s.status .pinRequired).pins = [] := hpins
    simp only [promptPin, hstatus]
  rw [hwaits]
  cases pins with
  | nil =>
      have hnil : s.withPins [] = s := by
        rw [State.withPins, List.map_nil, ← hpins]
      rw [hnil, hwaits]
      exact .waits _ hpins rfl
  | cons pin pins => exact .gave pin pins _ hpins rfl

theorem ahead_onStart (hpins : s.pins = []) :
    Ahead w c sending pins (onStart w c s) (onStart w c (s.withPins pins)) :=
  .say hpins _ _ (by simp)

theorem ahead_onNonce (hpins : s.pins = []) (m : Option Message) :
    Ahead w c sending pins (onNonce w c s m) (onNonce w c (s.withPins pins) m) := by
  unfold onNonce
  cases receiveNonce w m with
  | error e => exact .fail hpins e
  | ok received =>
      have hlater : State.pins { s.heard (.nonce received.1) with
          nonce := c.localNonce.1 ++ received.2 } = [] := hpins
      cases hkey : c.auth.signingKey (c.localNonce.1 ++ received.2) with
      | none =>
          simp only [hkey]
          exact .fail hlater _
      | some localToken =>
          simp only [hkey]
          exact .say hlater _ _ (by simp)

theorem ahead_onRemoteToken (hpins : s.pins = []) (token : String) (pinRequired : Bool) :
    Ahead w c sending pins (onRemoteToken w c s token pinRequired)
      (onRemoteToken w c (s.withPins pins) token pinRequired) := by
  have hlater : State.pins { s with remoteToken := token } = [] := hpins
  have hnonce : (s.withPins pins).nonce = s.nonce := rfl
  unfold onRemoteToken
  rw [hnonce]
  split
  · exact .fail hpins _
  · cases pinRequired with
    | true => exact ahead_promptPin hlater
    | false => exact .goto hlater (by simp)

theorem ahead_onTokenResponse (hpins : s.pins = []) (m : Option Message) :
    Ahead w c sending pins (onTokenResponse w c s m) (onTokenResponse w c (s.withPins pins) m) := by
  unfold onTokenResponse
  cases expectString "Failed to receive token response" m with
  | error e => exact .fail hpins e
  | ok data =>
      cases hdata : w.tokenResponse.decode data with
      | none =>
          simp only [hdata]
          exact .fail hpins _
      | some response =>
          have hlater : (s.heard (.tokenResponse response)).pins = [] := hpins
          simp only [hdata]
          cases response with
          | ok token => exact ahead_onRemoteToken hlater token false
          | pinRequired token => exact ahead_onRemoteToken hlater token true
          | invalidSignature => exact .fail hlater _

theorem ahead_onPinResult (hpins : s.pins = []) (m : Option Message) :
    Ahead w c sending pins (onPinResult w s m) (onPinResult w (s.withPins pins) m) := by
  unfold onPinResult
  cases expectString "Failed to receive initial message" m with
  | error e => exact .fail hpins e
  | ok data =>
      cases hdata : w.pinReceivingResponse.decode data with
      | none =>
          simp only [hdata]
          exact .fail hpins _
      | some response =>
          have hlater : (s.heard (.pinReceiving response)).pins = [] := hpins
          simp only [hdata]
          cases response with
          | ok => exact .goto hlater (by simp)
          | pinRequired => exact ahead_promptPin hlater
          | tooManyAttempts =>
              have hlast :
                  ((s.heard (.pinReceiving .tooManyAttempts)).status .tooManyAttempts).pins =
                  [] := hpins
              exact .fail hlast _

theorem ahead_connected (hpins : s.pins = []) :
    Ahead w c sending pins (connected w c s) (connected w c (s.withPins pins)) := by
  have hlater : (s.status .connected).pins = [] := hpins
  exact .say hlater _ _ (by simp)

theorem ahead_checkPin (hpins : s.pins = []) (pin : PinConfig) (remotePin : String)
    (pinTry : Nat) :
    Ahead w c sending pins (checkPin w c s pin remotePin pinTry)
      (checkPin w c (s.withPins pins) pin remotePin pinTry) := by
  unfold checkPin
  cases verifyPin pin true remotePin pinTry with
  | passed => exact ahead_connected hpins
  | tooManyAttempts =>
      have hlater : (s.status .tooManyAttempts).pins = [] := hpins
      exact .say hlater _ _ (by simp)
  | receive notice =>
      cases notice with
      | true => exact .say hpins _ _ (by simp)
      | false => exact .goto hpins (by simp)

theorem ahead_onPinStart (hpins : s.pins = []) :
    Ahead w c sending pins (onPinStart w c s) (onPinStart w c (s.withPins pins)) := by
  have hlater : (s.status .pinRequired).pins = [] := hpins
  unfold onPinStart
  cases c.auth.pin with
  | some pin => exact ahead_checkPin hlater pin "" 0
  | none => exact ahead_connected hpins

theorem ahead_onPin (hpins : s.pins = []) (pin : PinConfig) (pinTry : Nat) (m : Option Message) :
    Ahead w c sending pins (onPin w c s pin pinTry m)
      (onPin w c (s.withPins pins) pin pinTry m) := by
  cases m with
  | none => exact .fail hpins _
  | some msg =>
      unfold onPin
      cases hdata : w.pinMessage.decode msg.data with
      | none =>
          simp only [hdata]
          exact .fail hpins _
      | some request =>
          have hlater : (s.heard (.pin request)).pins = [] := hpins
          simp only [hdata]
          exact ahead_checkPin hlater pin request.pin (pinTry + 1)

theorem ahead_onPairRequest (hpins : s.pins = []) (publicKey : String) :
    Ahead w c sending pins (onPairRequest w c s publicKey)
      (onPairRequest w c (s.withPins pins) publicKey) := by
  have htoken : (s.withPins pins).remoteToken = s.remoteToken := rfl
  have hnonce : (s.withPins pins).nonce = s.nonce := rfl
  unfold onPairRequest
  rw [htoken, hnonce]
  cases hidentifier : extractSignatureIdentifier s.remoteToken with
  | none => exact .fail hpins _
  | some identifier =>
      cases hkey : c.parsePublicKey publicKey identifier with
      | none =>
          simp only [hkey]
          exact .fail hpins _
      | some key =>
          simp only [hkey]
          split
          · exact .say hpins _ _ (by simp)
          · cases c.pairAnswer with
            | refused => exact .fail hpins _
            | pending => exact .goto hpins (by simp)
            | dropped => exact .fail hpins _
            | answered accept =>
                cases accept with
                | true => exact .say hpins _ _ (by simp)
                | false => exact .say hpins _ _ (by simp)

theorem ahead_onFileList (hpins : s.pins = []) (paired : Bool) (bytes : Bytes) :
    Ahead w c sending pins (onFileList w c s paired bytes)
      (onFileList w c (s.withPins pins) paired bytes) := by
  unfold onFileList
  cases w.fileListResponse.decode bytes with
  | none => exact .fail hpins _
  | some response =>
      have hlater : (s.heard (.fileList response)).pins = [] := hpins
      dsimp only
      cases response with
      | ok fileMap =>
          have hlast : State.pins { s.heard (.fileList (.ok fileMap)) with
              selected := some fileMap.keys } = [] := hpins
          exact .goto hlast (by simp)
      | pair publicKey =>
          cases paired with
          | true =>
              have hlast : ((s.heard (.fileList (.pair publicKey))).status
                  (.error "Unexpected pair response")).pins = [] := hpins
              exact .fail hlast _
          | false => exact ahead_onPairRequest hlater publicKey
      | declined =>
          have hlast : ((s.heard (.fileList .declined)).status .declined).pins = [] := hpins
          exact .goto hlast (by simp)
      | invalidSignature =>
          have hlast : ((s.heard (.fileList .invalidSignature)).status
              (.error "Invalid signature (not expected)")).pins = [] := hpins
          exact .fail hlast _

theorem ahead_onSending (hpins : s.pins = []) (fileMap : LinkedMap String String) :
    Ahead w c sending pins (onSending w s fileMap) (onSending w (s.withPins pins) fileMap) := by
  have hsending : (s.withPins pins).sending = s.sending := rfl
  unfold onSending
  rw [hsending]
  cases s.sending with
  | nil => exact .say hpins _ _ (by simp)
  | cons file sending =>
      have hlater : State.pins { s with sending := sending } = [] := hpins
      cases htoken : fileMap.get? file.fileId with
      | none =>
          simp only [htoken]
          have hlast : (State.error { s with sending := sending } file.fileId
              "Failed to get file token").pins = [] := hpins
          exact .goto hlast (by simp)
      | some token =>
          simp only [htoken]
          have hlast : (State.say w { s with sending := sending } (.header ⟨file.fileId, token⟩)
              (.file file.fileId) (.sending fileMap)).state.pins = [] := hpins
          exact .keep hlast _ (by simp [State.say])

theorem ahead_onLastResponse (hpins : s.pins = []) (m : Option Message) :
    Ahead w c sending pins (onLastResponse w s m) (onLastResponse w (s.withPins pins) m) := by
  unfold onLastResponse
  cases m.bind fun msg => w.sendFileResponse.decode msg.data with
  | some response =>
      have hlater : (s.heard (.fileResponse response)).pins = [] := hpins
      exact .goto hlater (by simp)
  | none => exact .goto hpins (by simp)

theorem ahead_react (hpins : s.pins = []) (hphase : s.phase ≠ .pinPrompt) :
    Alike (Ahead w c sending pins) (react w c s) (react w c (s.withPins pins)) := by
  have hsame : (s.withPins pins).phase = s.phase := rfl
  unfold react
  rw [hsame]
  cases hcase : s.phase with
  | start => exact .tau _ _ (ahead_onStart hpins)
  | nonce => exact .recv _ _ (ahead_onNonce hpins)
  | tokenResponse => exact .recv _ _ (ahead_onTokenResponse hpins)
  | pinPrompt => exact absurd hcase hphase
  | pinResult => exact .recv _ _ (ahead_onPinResult hpins)
  | pinStart => exact .tau _ _ (ahead_onPinStart hpins)
  | pinMessage pin pinTry => exact .recv _ _ (ahead_onPin hpins pin pinTry)
  | fileList buffer =>
      refine .recv _ _ fun m => ?_
      cases receiveStringFromChunks buffer m with
      | more buffer => exact .goto hpins (by simp)
      | complete bytes => exact ahead_onFileList hpins false bytes
  | pairPrompt => exact .wait
  | pairedFileList buffer =>
      refine .recv _ _ fun m => ?_
      cases receiveStringFromChunks buffer m with
      | more buffer => exact .goto hpins (by simp)
      | complete bytes => exact ahead_onFileList hpins true bytes
  | sending fileMap => exact .tau _ _ (ahead_onSending hpins fileMap)
  | lastResponse => exact .recv _ _ (ahead_onLastResponse hpins)
  | ended result => exact .done

theorem failed_withPins (s : State) (pins : List String) (e : String) :
    failed (s.withPins pins) e = (failed s e).withPins pins := by
  obtain ⟨_, onFail⟩ := s
  cases onFail <;> rfl

theorem failed_keeps (hpins : s.pins = []) (hphase : s.phase ≠ .pinPrompt) (e : String) :
    (failed s e).pins = [] ∧ (failed s e).phase ≠ .pinPrompt := by
  unfold failed
  split
  · exact ⟨hpins, by simp⟩
  · exact ⟨hpins, by simp⟩
  · exact ⟨hpins, hphase⟩
  · exact ⟨hpins, by simp⟩
  · exact ⟨hpins, hphase⟩

end Reactions

/-- The PINs of the task. -/
def pins (w : Wire) (c : Config) (sending : List RTCFile) : (prompting w c sending).Pins where
  withPins := State.withPins
  blank s := s.pins = []
  initial_blank := rfl
  withPins_nil s h := by rw [State.withPins, List.map_nil, ← h]
  answer_blank _ _ h := h
  answer_withPins _ _ _ := rfl
  react_ahead s pins h hprompt := ahead_react h (of_decide_eq_false hprompt)
  failed_withPins := failed_withPins
  failed_keeps s e h hprompt :=
    ⟨(failed_keeps h (of_decide_eq_false hprompt) e).1,
      decide_eq_false (failed_keeps h (of_decide_eq_false hprompt) e).2⟩

end Send

/-! ## 3. The task of the receiver -/

namespace Accept

def State.withPins (s : State) (pins : List String) : State := { s with pins := pins.map some }

section Reactions

variable {w : Wire} {c : Config} {results : List (Option RTCSendFileResponse)} {s : State}
  {pins : List String}

/-- The same state, with the PINs still to come. -/
def Ahead (w : Wire) (c : Config) (results : List (Option RTCSendFileResponse)) :
    List String → Batch Message State → Batch Message State → Prop :=
  (prompting w c results).Ahead State.withPins fun s => s.pins = []

theorem Ahead.keep (hpins : s.pins = []) (out : List Message) (h : s.phase ≠ .pinPrompt) :
    Ahead w c results pins ⟨s, out⟩ ⟨s.withPins pins, out⟩ :=
  Prompting.Ahead.same (P := prompting w c results) pins s out hpins (decide_eq_false h)

theorem Ahead.goto (hpins : s.pins = []) {phase : Phase} (h : phase ≠ .pinPrompt) :
    Ahead w c results pins (s.goto phase) ((s.withPins pins).goto phase) :=
  have hlater : State.pins { s with phase := phase } = [] := hpins
  .keep hlater [] h

theorem Ahead.fail (hpins : s.pins = []) (e : Error) :
    Ahead w c results pins (s.fail e) ((s.withPins pins).fail e) :=
  .goto hpins (by simp)

theorem Ahead.say (hpins : s.pins = []) (item : Item) (onFail : OnFail) {phase : Phase}
    (h : phase ≠ .pinPrompt) :
    Ahead w c results pins (s.say w item onFail phase)
      ((s.withPins pins).say w item onFail phase) :=
  have hlater : State.pins
      { s with phase := phase, onFail := onFail, sent := s.sent ++ [item] } = [] := hpins
  .keep hlater _ h

theorem ahead_promptPin (hpins : s.pins = []) :
    Ahead w c results pins (promptPin w s) (promptPin w (s.withPins pins)) := by
  have hwaits : promptPin w s = (s.status .pinRequired).goto .pinPrompt := by
    have hstatus : (s.status .pinRequired).pins = [] := hpins
    simp only [promptPin, hstatus]
  rw [hwaits]
  cases pins with
  | nil =>
      have hnil : s.withPins [] = s := by
        rw [State.withPins, List.map_nil, ← hpins]
      rw [hnil, hwaits]
      exact .waits _ hpins rfl
  | cons pin pins => exact .gave pin pins _ hpins rfl

theorem ahead_onNonce (hpins : s.pins = []) (m : Option Message) :
    Ahead w c results pins (onNonce w c s m) (onNonce w c (s.withPins pins) m) := by
  unfold onNonce
  cases receiveNonce w m with
  | error e => exact .fail hpins e
  | ok received =>
      have hlater : (s.heard (.nonce received.1)).pins = [] := hpins
      exact .say hlater _ _ (by simp)

theorem ahead_onToken (hpins : s.pins = []) (remoteNonce : Bytes) (m : Option Message) :
    Ahead w c results pins (onToken w c s remoteNonce m)
      (onToken w c (s.withPins pins) remoteNonce m) := by
  unfold onToken
  cases expectString "Failed to receive token" m with
  | error e => exact .fail hpins e
  | ok data =>
      cases hdata : w.tokenRequest.decode data with
      | none =>
          simp only [hdata]
          exact .fail hpins _
      | some request =>
          have hlater : (s.heard (.tokenRequest request)).pins = [] := hpins
          simp only [hdata]
          split
          · exact .say hlater _ _ (by simp)
          · cases c.auth.signingKey (remoteNonce ++ c.localNonce.1) with
            | none => exact .fail hlater _
            | some localToken =>
                cases c.auth.pin with
                | some pin => exact .say hlater _ _ (by simp)
                | none => exact .say hlater _ _ (by simp)

theorem ahead_checkPin (hpins : s.pins = []) (pin : PinConfig) (remotePin : String)
    (pinTry : Nat) :
    Ahead w c results pins (checkPin w s pin remotePin pinTry)
      (checkPin w (s.withPins pins) pin remotePin pinTry) := by
  unfold checkPin
  cases verifyPin pin false remotePin pinTry with
  | passed => exact .say hpins _ _ (by simp)
  | tooManyAttempts =>
      have hlater : (s.status .tooManyAttempts).pins = [] := hpins
      exact .say hlater _ _ (by simp)
  | receive notice =>
      cases notice with
      | true => exact .say hpins _ _ (by simp)
      | false => exact .goto hpins (by simp)

theorem ahead_onPin (hpins : s.pins = []) (pin : PinConfig) (pinTry : Nat) (m : Option Message) :
    Ahead w c results pins (onPin w s pin pinTry m) (onPin w (s.withPins pins) pin pinTry m) := by
  cases m with
  | none => exact .fail hpins _
  | some msg =>
      unfold onPin
      cases hdata : w.pinMessage.decode msg.data with
      | none =>
          simp only [hdata]
          exact .fail hpins _
      | some request =>
          have hlater : (s.heard (.pin request)).pins = [] := hpins
          simp only [hdata]
          exact ahead_checkPin hlater pin request.pin (pinTry + 1)

theorem ahead_connected (hpins : s.pins = []) (fileList : List FileDto) :
    Ahead w c results pins (connected w c s fileList)
      (connected w c (s.withPins pins) fileList) := by
  have hlater : State.pins { s.status .connected with published := some fileList } = [] := hpins
  unfold connected
  cases c.selection with
  | pending => exact .goto hlater (by simp)
  | dropped => exact .goto hlater (by simp)
  | declined => exact .say hlater _ _ (by simp)
  | files ids => exact .say hlater _ _ (by simp)

theorem ahead_onPinStatus (hpins : s.pins = []) (bytes : Bytes) :
    Ahead w c results pins (onPinStatus w c s bytes) (onPinStatus w c (s.withPins pins) bytes) := by
  unfold onPinStatus
  cases w.pinSendingResponse.decode bytes with
  | none => exact .fail hpins _
  | some response =>
      have hlater : (s.heard (.pinSending response)).pins = [] := hpins
      cases response with
      | ok files => exact ahead_connected hlater files
      | pinRequired => exact ahead_promptPin hlater
      | tooManyAttempts =>
          have hlast : ((s.heard (.pinSending .tooManyAttempts)).status
              (.error "Unexpected TooManyAttempts response")).pins = [] := hpins
          exact .fail hlast _

theorem ahead_onPinResult (hpins : s.pins = []) (bytes : Bytes) :
    Ahead w c results pins (onPinResult w c s bytes) (onPinResult w c (s.withPins pins) bytes) := by
  unfold onPinResult
  cases w.pinSendingResponse.decode bytes with
  | none => exact .fail hpins _
  | some response =>
      have hlater : (s.heard (.pinSending response)).pins = [] := hpins
      cases response with
      | ok files => exact ahead_connected hlater files
      | pinRequired => exact ahead_promptPin hlater
      | tooManyAttempts =>
          have hlast : ((s.heard (.pinSending .tooManyAttempts)).status .tooManyAttempts).pins =
              [] := hpins
          exact .fail hlast _

theorem ahead_onHeader (hpins : s.pins = []) (incoming : Incoming) (msg : Message) :
    Ahead w c results pins (onHeader w s incoming msg)
      (onHeader w (s.withPins pins) incoming msg) := by
  unfold onHeader
  cases w.sendFileHeaderRequest.decode msg.data with
  | none => exact .fail hpins _
  | some header =>
      cases hrefuses : incoming.refuses header with
      | some text =>
          have hlater : ((s.heard (.header header)).error header.id text).pins = [] := hpins
          simp only [hrefuses]
          exact .goto hlater (by simp)
      | none =>
          simp only [hrefuses]
          have hlater : State.pins { s.heard (.header header) with
              receiving := (s.heard (.header header)).receiving ++ [⟨header.id, []⟩] } = [] := hpins
          exact .goto hlater (by simp)

theorem ahead_onBlock (hpins : s.pins = []) (incoming : Incoming)
    (fileState : Option RTCFileState) (data : Bytes) :
    Ahead w c results pins (onBlock c s incoming fileState data)
      (onBlock c (s.withPins pins) incoming fileState data) := by
  unfold onBlock
  cases fileState with
  | none =>
      have hlater : (s.error "unknown" "Received binary data without a header").pins = [] := hpins
      exact .goto hlater (by simp)
  | some state =>
      have hforwarded : (s.withPins pins).forwarded = s.forwarded := rfl
      dsimp only
      rw [hforwarded]
      split
      · have hlater : State.pins { s with
            receiving := s.receiving.modify state.binaryTx fun file =>
              { file with blocks := file.blocks ++ [data] }
            forwarded := s.forwarded + 1 } = [] := hpins
        exact .goto hlater (by simp)
      · exact .fail hpins _

theorem ahead_onFiles (hpins : s.pins = []) (incoming : Incoming)
    (fileState : Option RTCFileState) (m : Option Message) :
    Ahead w c results pins (onFiles w c s incoming fileState m)
      (onFiles w c (s.withPins pins) incoming fileState m) := by
  cases m with
  | none => exact .goto hpins (by simp)
  | some msg =>
      have hresults : (s.withPins pins).results = s.results := rfl
      unfold onFiles
      dsimp only
      rw [hresults]
      split
      · cases fileState with
        | none => exact ahead_onHeader hpins incoming msg
        | some state =>
            cases s.results with
            | nil => exact .goto hpins (by simp)
            | cons result results =>
                have hlater : State.pins { s with results := results } = [] := hpins
                exact .say hlater _ _ (by split <;> simp)
      · exact ahead_onBlock hpins incoming fileState msg.data

theorem ahead_react (hpins : s.pins = []) (hphase : s.phase ≠ .pinPrompt) :
    Alike (Ahead w c results pins) (react w c s) (react w c (s.withPins pins)) := by
  have hsame : (s.withPins pins).phase = s.phase := rfl
  unfold react
  rw [hsame]
  cases hcase : s.phase with
  | nonce => exact .recv _ _ (ahead_onNonce hpins)
  | token remoteNonce => exact .recv _ _ (ahead_onToken hpins remoteNonce)
  | pinStart pin =>
      have hlater : (s.status .pinRequired).pins = [] := hpins
      exact .tau _ _ (ahead_checkPin hlater pin "" 0)
  | pinMessage pin pinTry => exact .recv _ _ (ahead_onPin hpins pin pinTry)
  | pinStatus buffer =>
      refine .recv _ _ fun m => ?_
      cases receiveStringFromChunks buffer m with
      | more buffer => exact .goto hpins (by simp)
      | complete bytes => exact ahead_onPinStatus hpins bytes
  | pinResult buffer =>
      refine .recv _ _ fun m => ?_
      cases receiveStringFromChunks buffer m with
      | more buffer => exact .goto hpins (by simp)
      | complete bytes => exact ahead_onPinResult hpins bytes
  | files incoming fileState => exact .recv _ _ (ahead_onFiles hpins incoming fileState)
  | header incoming msg => exact .tau _ _ (ahead_onHeader hpins incoming msg)
  | pinPrompt => exact absurd hcase hphase
  | selection => exact .wait
  | fileResult => exact .wait
  | ended result => exact .done

theorem failed_withPins (s : State) (pins : List String) (e : String) :
    failed (s.withPins pins) e = (failed s e).withPins pins := by
  obtain ⟨_, onFail⟩ := s
  cases onFail <;> rfl

theorem failed_keeps (hpins : s.pins = []) (hphase : s.phase ≠ .pinPrompt) (e : String) :
    (failed s e).pins = [] ∧ (failed s e).phase ≠ .pinPrompt := by
  unfold failed
  split
  · exact ⟨hpins, by simp⟩
  · exact ⟨hpins, hphase⟩
  · exact ⟨hpins, by simp⟩

end Reactions

/-- The PINs of the task. -/
def pins (w : Wire) (c : Config) (results : List (Option RTCSendFileResponse)) :
    (prompting w c results).Pins where
  withPins := State.withPins
  blank s := s.pins = []
  initial_blank := rfl
  withPins_nil s h := by rw [State.withPins, List.map_nil, ← h]
  answer_blank _ _ h := h
  answer_withPins _ _ _ := rfl
  react_ahead s pins h hprompt := ahead_react h (of_decide_eq_false hprompt)
  failed_withPins := failed_withPins
  failed_keeps s e h hprompt :=
    ⟨(failed_keeps h (of_decide_eq_false hprompt) e).1,
      decide_eq_false (failed_keeps h (of_decide_eq_false hprompt) e).2⟩

end Accept

/-! ## 4. Both tasks -/

namespace PinRelay

/-- **The tasks behind the relay** reach no state that they do not reach with the PINs of the calls
    without an error from the start. -/
theorem bridged_tasks (w : Wire) (cs : Send.Config) (cr : Accept.Config) (sending : List RTCFile)
    (results : List (Option RTCSendFileResponse)) :
    (∀ es s, (bridge (Send.prompting w cs sending).task).Run Machine.anyStep
        (start (Send.prompting w cs sending).task) es s →
      s.given <+: s.accepted ∧ ∃ fs, (Send.sendOffer w cs).alone.Run Machine.anyStep
        ⟨Send.initial (s.given.map some) sending, []⟩ fs s.task) ∧
    (∀ es s, (bridge (Accept.prompting w cr results).task).Run Machine.anyStep
        (start (Accept.prompting w cr results).task) es s →
      s.given <+: s.accepted ∧ ∃ fs, (Accept.acceptOffer w cr).alone.Run Machine.anyStep
        ⟨Accept.initial (s.given.map some) results, []⟩ fs s.task) := by
  refine ⟨fun es s hr => ⟨?_, ?_⟩, fun es s hr => ⟨?_, ?_⟩⟩
  · rw [(kept_run hr).accepted]
    exact List.prefix_append _ _
  · obtain ⟨fs, s', hrun, hahead⟩ := foreseen (Send.pins w cs sending).foresight hr []
    obtain rfl := (Send.pins w cs sending).ahead_nil hahead
    rw [List.append_nil] at hrun
    exact ⟨fs, hrun⟩
  · rw [(kept_run hr).accepted]
    exact List.prefix_append _ _
  · obtain ⟨fs, s', hrun, hahead⟩ := foreseen (Accept.pins w cr results).foresight hr []
    obtain rfl := (Accept.pins w cr results).ahead_nil hahead
    rw [List.append_nil] at hrun
    exact ⟨fs, hrun⟩

theorem bridged_tasks_answered : ∃ es s,
    (bridge demoTask).Run Machine.anyStep (start demoTask) es s ∧ s.given = ["1234"] ∧
    ["1234"] <+: s.accepted ∧
    ∃ fs, (Send.sendOffer jsonWire (openSender none [])).alone.Run Machine.anyStep
      ⟨Send.initial [some "1234"] [], []⟩ fs s.task := by
  obtain ⟨es, task, hr⟩ := demo_answered
  obtain ⟨hgiven, hrun⟩ := (bridged_tasks jsonWire (openSender none [])
    (openReceiver none .pending) [] []).1 es _ hr
  exact ⟨es, _, hr, rfl, hgiven, hrun⟩

end PinRelay

end LocalSend.WebRtc
