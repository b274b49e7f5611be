/-
  File:      LocalSend/Receive/PinLimit.lean
  Subject:   THE LIMIT OF PIN ATTEMPTS. `checkPin` on one map of attempts and one configured pin,
             called by any number of handlers at a time.

  `checkPin` compares and counts in one go; only its response is awaited. A call is named by the
  address of its request and a number.

  * `Call`, `State`, `step` -- the calls of `checkPin`: the comparison, then the end of the
    response;
  * `compares` -- the steps that compare a wrong pin of an address; `attempts_eq_count` -- the map
    counts them;
  * `sameAddress_unwind` -- two runs with the same requests of one address look the same to it;
  * `pin_limit` -- **the limit**; `checks_attempts` -- the receive controller is such a caller.
-/
import LocalSend.Receive.Grants

namespace LocalSend.Receive.PinLimit

open Lib

/-! ## 1. Calls of `checkPin` -/

structure Call where
  requestPin : Option String
  /-- the response, unless the pin is correct -/
  response : Option Response
  /-- what the call returned, once the response is written -/
  returned : Option Bool
  deriving DecidableEq, Repr

structure State where
  pinAttempts : String → Nat
  calls : LinkedMap (String × Nat) Call

def State.initial : State := ⟨fun _ => 0, .empty⟩

inductive Event where
  | check (ip : String) (n : Nat) (requestPin : Option String)
  | responded (ip : String) (n : Nat)
  deriving DecidableEq, Repr

def Event.ip : Event → String
  | .check ip _ _ | .responded ip _ => ip

def step (pin : Option String) (s : State) : Event → Option State
  | .check ip n requestPin =>
    if (ip, n) ∈ s.calls.keys then none
    else
      match checkPin s.pinAttempts ip pin requestPin with
      | (pinAttempts, response) =>
        some ⟨pinAttempts, s.calls.insert (ip, n)
          ⟨requestPin, response, if response.isNone then some true else none⟩⟩
  | .responded ip n =>
    match s.calls.get? (ip, n) with
    | some ⟨requestPin, some response, none⟩ =>
      some { s with calls := s.calls.insert (ip, n) ⟨requestPin, some response, some false⟩ }
    | _ => none

/-- **The callers of `checkPin`.** -/
def checks (pin : Option String) : Machine State Event := ⟨step pin⟩

/-- The step compares a wrong pin of `ip` that is not empty. -/
def compares (pin : Option String) (ip : String) (s : State) : Event → Bool
  | .check ip' _ (some requestPin) =>
    ip' = ip && pin.any fun p => s.pinAttempts ip < 3 && requestPin ≠ "" && requestPin ≠ p
  | _ => false

/-! ## 2. One call -/

variable {pin requestPin : Option String} {pinAttempts : String → Nat} {ip a : String}
  {s s' t t' : State} {e : Event} {es : List Event}

def tooManyAttempts : Response := .message 429 "Too many attempts."

/-- The attempts of other addresses stay. -/
theorem checkPin_other (h : a ≠ ip) :
    (checkPin pinAttempts ip pin requestPin).1 a = pinAttempts a := by
  cases pin with
  | none => rfl
  | some pin =>
      simp only [checkPin]
      split
      · rfl
      · split
        · rfl
        · split
          · split <;> exact Function.update_of_ne h _ _
          · rfl

/-- **After three attempts** nothing is compared. -/
theorem checkPin_blocked {pin : String} (h : 3 ≤ pinAttempts ip) :
    checkPin pinAttempts ip (some pin) requestPin = (pinAttempts, some tooManyAttempts) := by
  simp only [checkPin]
  rw [if_pos h]
  rfl

/-- **The pin is correct** only if it is the one configured, or none is. -/
theorem checkPin_correct (h : (checkPin pinAttempts ip pin requestPin).2 = none) :
    pin = none ∨ requestPin = pin := by
  cases pin with
  | none => exact Or.inl rfl
  | some pin =>
      right
      simp only [checkPin] at h
      split at h
      · cases h
      · split at h
        · assumption
        · split at h
          · split at h <;> cases h
          · cases h

/-- The attempts of the address itself: one more for a wrong pin. -/
theorem checkPin_self (n : Nat) :
    (checkPin s.pinAttempts ip pin requestPin).1 ip =
      s.pinAttempts ip + if compares pin ip s (.check ip n requestPin) then 1 else 0 := by
  cases pin with
  | none => cases requestPin <;> simp [checkPin, compares]
  | some pin =>
      simp only [checkPin]
      split
      · rename_i hblocked
        cases requestPin <;> simp [compares, Nat.not_lt.mpr hblocked]
      · rename_i hfree
        have hfree : s.pinAttempts ip < 3 := Nat.lt_of_not_le hfree
        cases requestPin with
        | none => simp [compares]
        | some q =>
            by_cases hq : q = pin
            · simp [compares, hq]
            · by_cases hempty : q = ""
              · simp [compares, hempty, Ne.symm (hempty ▸ hq)]
              · simp only [hq, hempty, Option.some.injEq, if_false, Option.any_some, ne_eq,
                  not_false_eq_true, decide_true, if_true]
                have hcompares : compares (some pin) ip s (.check ip n (some q)) = true := by
                  simp [compares, hq, hempty, hfree]
                rw [if_pos hcompares]
                split <;> exact Function.update_self ..

/-- The answer depends on the attempts of the address only. -/
theorem checkPin_congr {pinAttempts' : String → Nat} (pin requestPin : Option String)
    (h : pinAttempts ip = pinAttempts' ip) :
    (checkPin pinAttempts ip pin requestPin).2 = (checkPin pinAttempts' ip pin requestPin).2 ∧
    (checkPin pinAttempts ip pin requestPin).1 ip =
      (checkPin pinAttempts' ip pin requestPin).1 ip := by
  cases pin with
  | none => exact ⟨rfl, h⟩
  | some pin =>
      simp only [checkPin, ← h]
      repeat' split
      all_goals first
        | exact ⟨rfl, h⟩
        | exact ⟨rfl, by simp only [Function.update_self]⟩

/-! ## 3. Counting -/

/-- What a step does to the attempts and the calls. -/
theorem step_cases (hs : (checks pin).step s e = some t) :
    (∃ ip n requestPin, e = .check ip n requestPin ∧ (ip, n) ∉ s.calls.keys ∧
      t.pinAttempts = (checkPin s.pinAttempts ip pin requestPin).1 ∧
      t.calls = s.calls.insert (ip, n) ⟨requestPin, (checkPin s.pinAttempts ip pin requestPin).2,
        if (checkPin s.pinAttempts ip pin requestPin).2.isNone then some true else none⟩) ∨
    ∃ ip n requestPin response, e = .responded ip n ∧
      s.calls.get? (ip, n) = some ⟨requestPin, some response, none⟩ ∧
      t = { s with calls := s.calls.insert (ip, n) ⟨requestPin, some response, some false⟩ } := by
  change step pin s e = some t at hs
  cases e with
  | check ip n requestPin =>
      simp only [step] at hs
      split at hs
      · cases hs
      · rename_i hnew
        cases hs
        exact Or.inl ⟨ip, n, requestPin, rfl, hnew, rfl, rfl⟩
  | responded ip n =>
      simp only [step] at hs
      split at hs
      · rename_i requestPin response hcall
        cases hs
        exact Or.inr ⟨ip, n, requestPin, response, rfl, hcall, rfl⟩
      · cases hs

/-- **A step counts the pin it compares.** -/
theorem step_attempts (hs : (checks pin).step s e = some t) (ip : String) :
    t.pinAttempts ip = s.pinAttempts ip + if compares pin ip s e then 1 else 0 := by
  obtain ⟨a, n, requestPin, rfl, _, hattempts, _⟩ | ⟨a, n, _, _, rfl, _, rfl⟩ := step_cases hs
  · rw [hattempts]
    by_cases ha : ip = a
    · subst ha
      exact checkPin_self n
    · rw [checkPin_other ha]
      cases requestPin <;> simp [compares, Ne.symm ha]
  · rfl

theorem compares_lt (h : compares pin ip s e = true) : s.pinAttempts ip < 3 ∧ pin ≠ none := by
  cases e with
  | responded _ _ => cases h
  | check a n requestPin =>
      cases requestPin with
      | none => cases h
      | some q =>
          cases pin with
          | none => simp [compares] at h
          | some p =>
              simp only [compares, Option.any_some, Bool.and_eq_true, decide_eq_true_eq] at h
              exact ⟨h.2.1.1, Option.some_ne_none p⟩

/-- **The map counts the wrong pins that were compared**, three of them at most. -/
theorem attempts_eq_count (h : (checks pin).Run Machine.anyStep .initial es s) (ip : String) :
    s.pinAttempts ip = (checks pin).count (compares pin ip) .initial es ∧ s.pinAttempts ip ≤ 3 := by
  induction h with
  | start => exact ⟨rfl, Nat.zero_le 3⟩
  | step es e t u hr _ hs ih =>
      have hstep := step_attempts hs ip
      rw [hr.count_snoc, ← ih.1]
      refine ⟨hstep, ?_⟩
      split at hstep
      · rename_i hcompares
        have hlt := (compares_lt hcompares).1
        omega
      · omega

/-! ## 4. Calls -/

/-- A call that is refused for too many attempts. -/
structure Blocked (call : Call) : Prop where
  response : call.response = some tooManyAttempts
  returned : call.returned ≠ some true

/-- **After three attempts every new call is refused.** -/
theorem blocked_run {p : String} (h : (checks (some p)).Run Machine.anyStep s es t)
    (hthree : 3 ≤ s.pinAttempts ip) :
    3 ≤ t.pinAttempts ip ∧ ∀ n call, (ip, n) ∉ s.calls.keys → t.calls.get? (ip, n) = some call →
      Blocked call := by
  refine h.invariant (I := fun t => 3 ≤ t.pinAttempts ip ∧ ∀ n call, (ip, n) ∉ s.calls.keys →
    t.calls.get? (ip, n) = some call → Blocked call) ⟨hthree, fun n call hnew hcall => ?_⟩
    fun u e v hu _ hs => ?_
  · exact absurd (LinkedMap.mem_keys.mpr ⟨call, hcall⟩) hnew
  · refine ⟨?_, fun n call hnew hcall => ?_⟩
    · rw [step_attempts hs ip]
      omega
    · obtain ⟨a, m, requestPin, rfl, _, _, hcalls⟩ | ⟨a, m, requestPin, response, rfl, hold, rfl⟩ :=
        step_cases hs
      · rw [hcalls, LinkedMap.get?_insert] at hcall
        split at hcall
        · rename_i hkey
          cases hkey
          rw [checkPin_blocked hu.1] at hcall
          cases hcall
          exact ⟨rfl, fun h => by cases h⟩
        · exact hu.2 n call hnew hcall
      · rw [LinkedMap.get?_insert] at hcall
        split at hcall
        · rename_i hkey
          cases hkey
          cases hcall
          exact ⟨(hu.2 n _ hnew hold).response, fun h => by cases h⟩
        · exact hu.2 n call hnew hcall

/-- **A call returns true only for the configured pin**, or where none is. -/
theorem correct_run (h : (checks pin).Run Machine.anyStep .initial es s) {n : Nat} {call : Call}
    (hcall : s.calls.get? (ip, n) = some call) (htrue : call.returned = some true) :
    pin = none ∨ call.requestPin = pin := by
  refine h.invariant (I := fun s => ∀ key call, s.calls.get? key = some call →
    call.returned = some true → pin = none ∨ call.requestPin = pin) (fun _ _ h => by cases h)
    (fun t e u ht _ hs key call hcall htrue => ?_) (ip, n) call hcall htrue
  obtain ⟨a, m, requestPin, rfl, _, _, hcalls⟩ | ⟨a, m, requestPin, response, rfl, _, rfl⟩ :=
    step_cases hs
  · rw [hcalls, LinkedMap.get?_insert] at hcall
    split at hcall
    · cases hcall
      dsimp only at htrue
      split at htrue
      · rename_i hnone
        exact checkPin_correct (Option.isNone_iff_eq_none.mp hnone)
      · cases htrue
    · exact ht key call hcall htrue
  · rw [LinkedMap.get?_insert] at hcall
    split at hcall
    · cases hcall
      cases htrue
    · exact ht key call hcall htrue

/-- The states look the same to the address `a`. -/
structure SameAddress (a : String) (s s' : State) : Prop where
  attempts : s.pinAttempts a = s'.pinAttempts a
  calls : ∀ n, s.calls.get? (a, n) = s'.calls.get? (a, n)

/-- A request of another address changes nothing for `a`. -/
theorem sameAddress_other (hs : (checks pin).step s e = some t) (he : e.ip ≠ a) :
    SameAddress a s t := by
  obtain ⟨b, m, requestPin, rfl, _, hattempts, hcalls⟩ | ⟨b, m, requestPin, response, rfl, _, rfl⟩ :=
    step_cases hs
  · have hb : a ≠ b := fun h => he h.symm
    refine ⟨?_, fun n => ?_⟩
    · rw [hattempts, checkPin_other hb]
    · rw [hcalls, LinkedMap.get?_insert_ne fun hkey => hb (Prod.mk.inj hkey).1]
  · have hb : a ≠ b := fun h => he h.symm
    refine ⟨rfl, fun n => ?_⟩
    rw [LinkedMap.get?_insert_ne fun hkey => hb (Prod.mk.inj hkey).1]

/-- A request of `a` gets the same answer in both states. -/
theorem sameAddress_own (h : SameAddress a s s') (he : e.ip = a)
    (hs : (checks pin).step s e = some t) (hs' : (checks pin).step s' e = some t') :
    SameAddress a t t' := by
  subst he
  rcases step_cases hs with ⟨b, m, requestPin, rfl, _, hattempts, hcalls⟩ |
    ⟨b, m, requestPin, response, rfl, hold, rfl⟩
  · obtain ⟨hanswer, hself⟩ := checkPin_congr pin requestPin h.attempts
    rcases step_cases hs' with ⟨_, _, _, heq, _, hattempts', hcalls'⟩ | ⟨_, _, _, _, heq, _⟩
    · cases heq
      refine ⟨?_, fun n => ?_⟩
      · rw [hattempts, hattempts']
        exact hself
      · rw [hcalls, hcalls', LinkedMap.get?_insert, LinkedMap.get?_insert]
        split
        · rw [show (checkPin s.pinAttempts b pin requestPin).2 = _ from hanswer]
          rfl
        · exact h.calls n
    · cases heq
  · rcases step_cases hs' with ⟨_, _, _, heq, _⟩ | ⟨_, _, requestPin', response', heq, hold', rfl⟩
    · cases heq
    · cases heq
      cases (hold.symm.trans (h.calls m)).trans hold'
      refine ⟨h.attempts, fun n => ?_⟩
      rw [LinkedMap.get?_insert, LinkedMap.get?_insert]
      split
      · rfl
      · exact h.calls n

/-- **Two runs with the same requests of `a`** give `a` the same answers. -/
theorem sameAddress_unwind {fs : List Event} (a : String)
    (h : (checks pin).Run Machine.anyStep .initial es s)
    (h' : (checks pin).Run Machine.anyStep .initial fs s')
    (hes : (es.filter fun e => e.ip = a) = fs.filter fun e => e.ip = a) : SameAddress a s s' := by
  refine Machine.run_unwind (SameAddress a) (fun _ => True) (fun e => decide (e.ip = a))
    (fun _ _ h => ⟨h.attempts.symm, fun n => (h.calls n).symm⟩)
    (fun _ _ _ h h' => ⟨h.attempts.trans h'.attempts, fun n => (h.calls n).trans (h'.calls n)⟩)
    (fun _ _ _ _ _ => trivial) (fun _ _ _ _ he hs => ?_) (fun _ _ _ _ _ _ _ hR he hs hs' => ?_)
    trivial ⟨rfl, fun _ => rfl⟩ h h' hes
  · exact sameAddress_other hs (of_decide_eq_false he)
  · exact sameAddress_own hR (of_decide_eq_true he) hs hs'

/-! ## 5. The limit -/

/-- **The limit of pin attempts**, for every interleaving of requests: of each address three wrong
    pins at most are compared, and after the third every request is refused; a call returns true
    only for the configured pin; the requests of other addresses make no difference. -/
theorem pin_limit (pin : Option String) (es : List Event) (s : State)
    (h : (checks pin).Run Machine.anyStep .initial es s) (ip : String) :
    (checks pin).count (compares pin ip) .initial es ≤ 3 ∧
    ((checks pin).count (compares pin ip) .initial es = 3 →
      ∀ fs t, (checks pin).Run Machine.anyStep s fs t → ∀ n call, (ip, n) ∉ s.calls.keys →
        t.calls.get? (ip, n) = some call → Blocked call) ∧
    (∀ n call, s.calls.get? (ip, n) = some call → call.returned = some true →
      pin = none ∨ call.requestPin = pin) ∧
    ∀ fs t, (checks pin).Run Machine.anyStep .initial fs t →
      (es.filter fun e => e.ip = ip) = (fs.filter fun e => e.ip = ip) →
      ∀ n, s.calls.get? (ip, n) = t.calls.get? (ip, n) := by
  obtain ⟨hcount, hle⟩ := attempts_eq_count h ip
  refine ⟨hcount ▸ hle, fun hthree fs t hfs => ?_, fun n call hcall => correct_run h hcall,
    fun fs t hfs hsame n => (sameAddress_unwind ip h hfs hsame).calls n⟩
  cases pin with
  | none =>
      have hzero : s.pinAttempts ip = 0 := by
        refine h.invariant (I := fun s => s.pinAttempts ip = 0) rfl fun t e u ht _ hs => ?_
        rw [step_attempts hs ip, ht]
        split
        · rename_i hcompares
          exact absurd rfl (compares_lt hcompares).2
        · rfl
      omega
  | some p => exact (blocked_run hfs (by omega)).2

/-- Two wrong pins of `b` in between do not change what `a` is told. -/
def pinRun : List Event :=
  [.check "a" 0 (some "1"), .check "b" 0 (some "1"), .responded "a" 0, .check "a" 1 (some "2"),
    .check "a" 2 (some "3"), .check "b" 1 (some "2"), .check "a" 3 (some "9"), .responded "a" 3]

theorem pin_limit_pinRun :
    ∃ s, (checks (some "9")).Run Machine.anyStep .initial pinRun s ∧
      (checks (some "9")).count (compares (some "9") "a") .initial pinRun ≤ 3 ∧
      s.calls.get? ("a", 3) = some ⟨some "9", some tooManyAttempts, some false⟩ := by
  have hrun : ((checks (some "9")).run .initial pinRun).map (fun s => s.calls.get? ("a", 3)) =
      some (some ⟨some "9", some tooManyAttempts, some false⟩) := by
    decide
  obtain ⟨s, hs, hcall⟩ := Machine.run_observe hrun
  exact ⟨s, hs, (pin_limit (some "9") pinRun s hs "a").1, hcall⟩

/-! ## 6. The receive controller -/

section Controller

variable {platform : Platform} {cs ct : Receive.State} {ev : Receive.Event}

theorem resumeSelection_pinAttempts {r : RequestId} {v2 : Bool} {sessionId : String}
    {selection : Option Selection} {tokens : List String}
    (h : resumeSelection platform cs r v2 sessionId selection tokens = some ct) :
    ct.pinAttempts = cs.pinAttempts := by
  unfold resumeSelection at h
  split at h
  · cases h
    rfl
  · split at h
    · cases h
      rfl
    · dsimp only at h
      split at h
      · cases h
        rfl
      · split at h
        · cases h
          rfl
        · cases h

theorem createSession_pinAttempts {r : RequestId} {req : PrepareRequest}
    {dto : PrepareUploadRequestDto} {settings : Settings} {favorites : List Favorite}
    {defaultDir cacheDir id : String} {tokens : List String}
    (h : createSession platform cs r req dto settings favorites defaultDir cacheDir id tokens =
      some ct) : ct.pinAttempts = cs.pinAttempts := by
  unfold createSession at h
  split at h
  · dsimp only at h
    split at h
    · exact (resumeSelection_pinAttempts h).trans rfl
    · split at h
      · cases h
        rfl
      · cases h
        unfold afterShown
        split <;> rfl
  · cases h

/-- **Only `checkPin` counts**, in a prepare-upload request that finds no session. -/
theorem controller_pinAttempts (hs : (controller platform).step cs ev = some ct) :
    ct.pinAttempts = cs.pinAttempts ∨ ∃ r req pin, ev = .prepareUpload r req pin ∧
      r ∉ cs.tasks.keys ∧ r ∈ ct.tasks.keys ∧
      ct.pinAttempts = (checkPin cs.pinAttempts req.ip pin req.pin).1 := by
  have hkeep : ∀ {u : Receive.State}, u.aside = cs.aside → u.pinAttempts = cs.pinAttempts :=
    fun h => congrArg Prod.fst h
  change Receive.step platform cs ev = some ct at hs
  cases ev with
  | prepareUpload r req pin =>
      simp only [Receive.step] at hs
      split at hs
      · cases hs
      · rename_i hnew
        cases hs
        unfold prepareUpload
        split
        · exact Or.inl rfl
        · refine Or.inr ⟨r, req, pin, rfl, hnew, ?_, ?_⟩
          · split <;> exact LinkedMap.mem_keys.mpr ⟨_, LinkedMap.get?_insert_self⟩
          · split <;> rename_i hpin <;> rw [hpin] <;> rfl
  | createSession r favorites defaultDir cacheDir sessionId tokens =>
      simp only [Receive.step] at hs
      split at hs
      · exact Or.inl (createSession_pinAttempts hs)
      · cases hs
  | decided r tokens =>
      simp only [Receive.step] at hs
      split at hs
      · exact Or.inl (resumeSelection_pinAttempts hs)
      · cases hs
  | readBody r dto settings =>
      simp only [Receive.step] at hs
      split at hs
      · cases hs
        unfold readBody
        left
        repeat' split
        all_goals rfl
      · cases hs
  | shown r =>
      simp only [Receive.step] at hs
      split at hs
      · cases hs
        left
        unfold afterShown
        split <;> rfl
      · cases hs
  | upload r req env =>
      simp only [Receive.step] at hs
      split at hs
      · cases hs
      · cases hs
        exact Or.inl (hkeep (startUpload_aside cs r req env))
  | saved r result env =>
      simp only [Receive.step] at hs
      split at hs
      · cases hs
        exact Or.inl (hkeep (afterSave_aside _ _ _ _ _))
      · cases hs
  | recorded r result env =>
      simp only [Receive.step] at hs
      split at hs
      · cases hs
        exact Or.inl (hkeep (afterRecord_aside _ _ _ _ _))
      · cases hs
  | cancel r req now =>
      simp only [Receive.step] at hs
      split at hs
      · cases hs
      · cases hs
        left
        unfold cancelHandler
        repeat' split
        all_goals rfl
  | acceptFileRequest selection | declineFileRequest =>
      cases hs
      left
      unfold State.answer
      repeat' split
      all_goals rfl
  | closeSession | cancelSession | setSessionDestinationDir _ | setSessionSaveToGallery _ =>
      cases hs
      exact Or.inl rfl
  | messageRecorded r | permitted r | delayedClose r =>
      simp only [Receive.step] at hs
      split at hs
      · cases hs
        exact Or.inl rfl
      · cases hs

/-- **The receive controller is a caller of `checkPin`**: a run with one configured pin counts as a
    run of its checks does. -/
theorem controller_checks {pin : Option String} {evs : List Receive.Event}
    (h : (controller platform).Run (fun _ ev => ∀ r req p, ev = .prepareUpload r req p → p = pin)
      .initial evs cs) :
    ∃ es s, (checks pin).Run Machine.anyStep .initial es s ∧ s.pinAttempts = cs.pinAttempts ∧
      ∀ key ∈ s.calls.keys, key.2 ∈ cs.tasks.keys := by
  induction h with
  | start => exact ⟨[], .initial, .start, rfl, fun key hkey => by cases hkey⟩
  | step evs ev cs ct _ hpin hs ih =>
      obtain ⟨es, s, hrun, hattempts, hkeys⟩ := ih
      rcases controller_pinAttempts hs with hsame | ⟨r, req, p, rfl, hnew, hknown, hcheck⟩
      · exact ⟨es, s, hrun, hattempts.trans hsame.symm, fun key hkey =>
          step_known hs (hkeys key hkey)⟩
      · obtain rfl := hpin r req p rfl
        have hfree : (req.ip, r) ∉ s.calls.keys := fun hkey => hnew (hkeys _ hkey)
        obtain ⟨u, hstep⟩ : ∃ u, (checks p).step s (.check req.ip r req.pin) = some u := by
          change ∃ u, step p s (.check req.ip r req.pin) = some u
          simp only [step]
          rw [if_neg hfree]
          exact ⟨_, rfl⟩
        rcases step_cases hstep with ⟨_, _, _, heq, _, hu, hcalls⟩ | ⟨_, _, _, _, heq, _⟩
        · cases heq
          refine ⟨es ++ [_], u, .step es _ s u hrun trivial hstep, ?_, fun key hkey => ?_⟩
          · rw [hu, hcheck, hattempts]
          · obtain ⟨call, hcall⟩ := LinkedMap.mem_keys.mp hkey
            rw [hcalls, LinkedMap.get?_insert] at hcall
            split at hcall
            · rename_i hkey
              rw [hkey]
              exact hknown
            · exact step_known hs (hkeys key (LinkedMap.mem_keys.mpr ⟨call, hcall⟩))
        · cases heq

end Controller

end LocalSend.Receive.PinLimit
