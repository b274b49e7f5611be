/-
  File:      LocalSend/Http/NonceMaps.lean
  Subject:   WHAT THE TWO NONCE MAPS OF A SIDE HAVE IN COMMON.

  * `Replayed` -- **both maps replay one list of exchanges**: the second is one behind while a task
    has written the first only;
  * `Replayed.lockReceived`, `Replayed.lockGenerated`, `Replayed.release` -- the three steps of a
    task, on either side;
  * `Consistent` -- the same identifiers, and for each of them the nonces of one exchange;
  * `Validated` -- the step stores a response nonce that `validate_nonce` accepts;
  * **`nonce_maps_consistent`** -- the maps are consistent wherever no lock is held, on both sides.
    What the server stores is valid; what the client stores is valid exactly in the runs whose
    steps are `Validated`. `nonce_unvalidated`: the client checks nothing.
-/
import LocalSend.Http.Nonce

namespace LocalSend.Http

open Lib Json
open WebRtc (Bytes Nonce validateNonce)

/-! ## 1. Replays -/

/-- The received nonces after these exchanges. -/
def receivedNonces (w : Crates) (xs : List Exchange) : w.NonceMap :=
  w.lru.replay (·.remoteKey) (·.received) xs

def generatedNonces (w : Crates) (xs : List Exchange) : w.NonceMap :=
  w.lru.replay (·.remoteKey) (·.generated) xs

/-- The last exchange with a peer. -/
def lastExchange (k : String) (xs : List Exchange) : Option Exchange :=
  LruCache.lastWith (·.remoteKey) k xs

/-- Each of the other tasks has stored its exchange. -/
def StoredBut (p : TaskId → Prop) (held : TaskId → Option (Stage × Exchange)) : Prop :=
  ∀ j stage x, ¬ p j → held j = some (stage, x) → stage = .stored

/-- **The maps replay one list of exchanges**, with at most one task in between. -/
inductive Replayed {w : Crates} (held : TaskId → Option (Stage × Exchange)) :
    List Exchange → NonceMaps w → Prop where
  | free (xs : List Exchange) (hrest : StoredBut (fun _ => False) held) :
      Replayed held xs ⟨receivedNonces w xs, generatedNonces w xs, none, none⟩
  | first (xs : List Exchange) (x : Exchange) (i : TaskId)
      (hi : held i = some (.holdsReceived, x)) (hrest : StoredBut (· = i) held) :
      Replayed held (xs ++ [x]) ⟨receivedNonces w (xs ++ [x]), generatedNonces w xs, some i, none⟩
  | both (xs : List Exchange) (x : Exchange) (i : TaskId)
      (hi : held i = some (.holdsBoth, x)) (hrest : StoredBut (· = i) held) :
      Replayed held (xs ++ [x])
        ⟨receivedNonces w (xs ++ [x]), generatedNonces w (xs ++ [x]), some i, some i⟩

section Steps

variable {w : Crates} {held : TaskId → Option (Stage × Exchange)} {xs : List Exchange}
  {m m' : NonceMaps w} {i : TaskId} {x : Exchange}

theorem receivedNonces_snoc (xs : List Exchange) (x : Exchange) :
    receivedNonces w (xs ++ [x]) = w.lru.put (receivedNonces w xs) x.remoteKey x.received :=
  LruCache.replay_snoc

theorem generatedNonces_snoc (xs : List Exchange) (x : Exchange) :
    generatedNonces w (xs ++ [x]) = w.lru.put (generatedNonces w xs) x.remoteKey x.generated :=
  LruCache.replay_snoc

theorem StoredBut.moved {p : TaskId → Prop} (h : StoredBut p held) (hp : ∀ j, p j → j = i)
    (a : Option (Stage × Exchange)) : StoredBut (· = i) (Function.update held i a) := by
  intro j stage y hj hy
  rw [Function.update_of_ne hj] at hy
  exact h j stage y (fun hpj => hj (hp j hpj)) hy

/-- **The first write.** -/
theorem Replayed.lockReceived (h : Replayed held xs m)
    (hm : m.lockReceived i x.remoteKey x.received = some m') :
    Replayed (Function.update held i (some (.holdsReceived, x))) (xs ++ [x]) m' := by
  cases h with
  | free xs hrest =>
      obtain rfl := Option.some.inj hm
      show Replayed _ _ ⟨w.lru.put (receivedNonces w xs) _ _, _, _, _⟩
      rw [← receivedNonces_snoc]
      exact .first xs x i (Function.update_self ..) (hrest.moved (fun _ h => h.elim) _)
  | first | both => cases hm

/-- **The second write**; the reads of the debug log move no entry. -/
theorem Replayed.lockGenerated (h : Replayed held xs m) (hi : held i = some (.holdsReceived, x))
    (hm : m.lockGenerated i x.remoteKey x.generated = some m') :
    Replayed (Function.update held i (some (.holdsBoth, x))) xs m' ∧
      m'.readBack x.remoteKey = m' := by
  cases h with
  | free xs hrest => cases hrest i _ x id hi
  | first xs y j hj hrest =>
      have hij : i = j := by
        by_contra hne
        cases hrest i _ x hne hi
      subst hij
      obtain rfl : y = x := (Prod.mk.inj (Option.some.inj (hj.symm.trans hi))).2
      obtain rfl := Option.some.inj hm
      show Replayed _ _ ⟨_, w.lru.put (generatedNonces w xs) _ _, _, _⟩ ∧ NonceMaps.readBack ⟨_,
        w.lru.put (generatedNonces w xs) _ _, _, _⟩ _ =
          ⟨_, w.lru.put (generatedNonces w xs) _ _, _, _⟩
      constructor
      · rw [← generatedNonces_snoc]
        exact .both xs y i (Function.update_self ..) (hrest.moved (fun _ h => h) _)
      · simp only [NonceMaps.readBack, receivedNonces_snoc, w.lru.get_put_self]
  | both xs y j hj hrest => cases hm

/-- **The locks are dropped.** -/
theorem Replayed.release (h : Replayed held xs m) (hi : held i = some (.holdsBoth, x)) :
    Replayed (Function.update held i (some (.stored, x))) xs m.release ∧ ∃ ys, xs = ys ++ [x] := by
  have hstored : ∀ {p : TaskId → Prop}, StoredBut p held → (∀ j, p j → j = i) →
      StoredBut (fun _ => False) (Function.update held i (some (.stored, x))) := by
    intro p hrest hp j stage y _ hy
    by_cases hj : j = i
    · subst hj
      rw [Function.update_self] at hy
      cases hy
      rfl
    · exact hrest.moved hp _ j stage y hj hy
  cases h with
  | free xs hrest => cases hrest i _ x id hi
  | first xs y j hj hrest =>
      by_cases hij : i = j
      · subst hij
        cases hj.symm.trans hi
      · cases hrest i _ x hij hi
  | both xs y j hj hrest =>
      have hij : i = j := by
        by_contra hne
        cases hrest i _ x hne hi
      subst hij
      obtain rfl : y = x := (Prod.mk.inj (Option.some.inj (hj.symm.trans hi))).2
      exact ⟨.free _ (hstored hrest fun _ h => h), xs, rfl⟩

/-- Without a lock both maps are complete. -/
theorem Replayed.unlocked (h : Replayed held xs m) (hm : m.unlocked) :
    m = ⟨receivedNonces w xs, generatedNonces w xs, none, none⟩ ∧ StoredBut (fun _ => False) held := by
  cases h with
  | free xs hrest => exact ⟨rfl, hrest⟩
  | first | both => cases hm.1

end Steps

/-! ## 2. The tasks -/

/-- What the tasks hold or have stored. -/
def heldIn {τ : Type} (held : τ → Option (Stage × Exchange)) (tasks : List τ) (i : TaskId) :
    Option (Stage × Exchange) := tasks[i]?.bind held

/-- **What the maps replay are exchanges of tasks.** -/
structure Recorded {w : Crates} (held : TaskId → Option (Stage × Exchange)) (xs : List Exchange)
    (m : NonceMaps w) : Prop where
  replayed : Replayed held xs m
  known : ∀ x ∈ xs, ∃ i stage, held i = some (stage, x)

section Tasks

variable {τ : Type} {f : τ → Option (Stage × Exchange)} {tasks : List τ} {i : TaskId} {t u : τ}
  {held : TaskId → Option (Stage × Exchange)} {xs : List Exchange} {stage : Stage} {x : Exchange}
  {w : Crates} {m m' : NonceMaps w}

theorem heldIn_set (h : tasks[i]? = some t) :
    heldIn f (tasks.set i u) = Function.update (heldIn f tasks) i (f u) := by
  obtain ⟨hi, _⟩ := List.getElem?_eq_some_iff.mp h
  funext j
  by_cases hj : j = i
  · subst hj
    rw [heldIn, List.getElem?_set_self hi, Function.update_self]
    rfl
  · rw [heldIn, List.getElem?_set_ne (Ne.symm hj), Function.update_of_ne hj]
    rfl

theorem heldIn_append (h : f u = none) : heldIn f (tasks ++ [u]) = heldIn f tasks := by
  funext j
  rcases Nat.lt_trichotomy j tasks.length with hj | rfl | hj
  · rw [heldIn, List.getElem?_append_left hj]
    rfl
  · simp [heldIn, h]
  · have hlong : (tasks ++ [u]).length ≤ j := by simpa using Nat.succ_le_of_lt hj
    rw [heldIn, heldIn, List.getElem?_eq_none hlong, List.getElem?_eq_none (Nat.le_of_lt hj)]

/-- A task that holds nothing, before and after. -/
theorem heldIn_outside (h : tasks[i]? = some t) (ht : f t = none) (hu : f u = none) :
    heldIn f (tasks.set i u) = heldIn f tasks := by
  rw [heldIn_set h, hu, ← ht]
  exact Function.update_eq_self_iff.mpr (by rw [heldIn, h]; rfl)

theorem known_moved (h : ∀ x ∈ xs, ∃ i stage, held i = some (stage, x))
    (hi : ∀ a, held i = some a → a.2 = x) :
    ∀ y ∈ xs, ∃ j stage', Function.update held i (some (stage, x)) j = some (stage', y) := by
  intro y hy
  obtain ⟨j, stage', hj⟩ := h y hy
  by_cases hji : j = i
  · subst hji
    obtain rfl : y = x := hi _ hj
    exact ⟨j, stage, Function.update_self ..⟩
  · exact ⟨j, stage', by rw [Function.update_of_ne hji, hj]⟩

theorem Recorded.lockReceived (h : Recorded held xs m) (hi : held i = none)
    (hm : m.lockReceived i x.remoteKey x.received = some m') :
    Recorded (Function.update held i (some (.holdsReceived, x))) (xs ++ [x]) m' := by
  refine ⟨h.replayed.lockReceived hm, fun y hy => ?_⟩
  rcases List.mem_append.mp hy with hy | hy
  · exact known_moved h.known (fun a ha => by simp [hi] at ha) y hy
  · obtain rfl := List.mem_singleton.mp hy
    exact ⟨i, _, Function.update_self ..⟩

theorem Recorded.lockGenerated (h : Recorded held xs m) (hi : held i = some (.holdsReceived, x))
    (hm : m.lockGenerated i x.remoteKey x.generated = some m') :
    Recorded (Function.update held i (some (.holdsBoth, x))) xs m' ∧
      m'.readBack x.remoteKey = m' := by
  obtain ⟨hreplayed, hread⟩ := h.replayed.lockGenerated hi hm
  exact ⟨⟨hreplayed, known_moved h.known fun a ha => by simp_all⟩, hread⟩

theorem Recorded.release (h : Recorded held xs m) (hi : held i = some (.holdsBoth, x)) :
    Recorded (Function.update held i (some (.stored, x))) xs m.release :=
  ⟨(h.replayed.release hi).1, known_moved h.known fun a ha => by simp_all⟩

end Tasks

/-! ## 3. The two sides -/

namespace Server

variable {w : Crates}

/-- The exchange that a step writes to the first map. -/
def stores (s : State w) : Event → List Exchange
  | .lockReceived i newNonce =>
    match s.tasks[i]? with
    | some (.waiting remoteKey nonce) => [⟨remoteKey, nonce, newNonce.1⟩]
    | _ => []
  | _ => []

/-- The nonce of the client, once it is there. -/
def Task.nonce : Task → Option Bytes
  | .waiting _ nonce => some nonce
  | .storing _ x => some x.received
  | .refused _ => none

/-- **The server's maps replay `xs`**, exchanges of tasks that accepted the nonce. -/
structure Kept (xs : List Exchange) (s : State w) : Prop where
  recorded : Recorded s.held xs s.maps
  validated : ∀ t ∈ s.tasks, ∀ nonce, t.nonce = some nonce → validateNonce nonce = true

variable {s t : State w} {e : Event} {xs : List Exchange} {i : TaskId} {u v : Task}

theorem held_set (h : s.tasks[i]? = some u) (maps : NonceMaps w) :
    State.held ⟨maps, s.tasks.set i v⟩ = Function.update s.held i v.held := heldIn_set h

theorem held_task (h : s.tasks[i]? = some u) : s.held i = u.held := by
  rw [State.held, h]
  rfl

theorem nonceExchange_held (remoteKey : String) (body : Option Bytes) :
    (nonceExchange w remoteKey body).held = none := by
  unfold nonceExchange
  split
  · rfl
  · split
    · rfl
    · split <;> rfl

/-- **What is not refused is valid.** -/
theorem nonceExchange_nonce {remoteKey : String} {body : Option Bytes} {nonce : Bytes}
    (h : (nonceExchange w remoteKey body).nonce = some nonce) : validateNonce nonce = true := by
  unfold nonceExchange at h
  split at h
  · cases h
  · split at h
    · cases h
    · split at h
      · rename_i hvalid
        obtain rfl := Option.some.inj h
        exact hvalid
      · cases h

/-- A task goes on with the nonce it has. -/
theorem Kept.validated_set (h : Kept xs s) (hi : s.tasks[i]? = some u) (hv : v.nonce = u.nonce) :
    ∀ t ∈ s.tasks.set i v, ∀ nonce, t.nonce = some nonce → validateNonce nonce = true := by
  intro t ht nonce hn
  rcases List.mem_or_eq_of_mem_set ht with hmem | rfl
  · exact h.validated t hmem nonce hn
  · exact h.validated u (List.mem_of_getElem? hi) nonce (hv ▸ hn)

theorem kept_step (h : Kept xs s) (hs : step s e = some t) : Kept (xs ++ stores s e) t := by
  cases step_inv hs with
  | request remoteKey body =>
      have hheld : State.held ⟨s.maps, s.tasks ++ [nonceExchange w remoteKey body]⟩ = s.held :=
        heldIn_append (nonceExchange_held remoteKey body)
      refine (List.append_nil xs).symm ▸ ⟨hheld ▸ h.recorded, fun u hu nonce hn => ?_⟩
      rcases List.mem_append.mp hu with hu | hu
      · exact h.validated u hu nonce hn
      · obtain rfl := List.mem_singleton.mp hu
        exact nonceExchange_nonce hn
  | lockReceived i newNonce remoteKey nonce maps hi hmaps =>
      have hstores : stores s (.lockReceived i newNonce) = [⟨remoteKey, nonce, newNonce.1⟩] := by
        simp only [stores, hi]
      refine ⟨?_, h.validated_set hi rfl⟩
      rw [hstores, held_set hi]
      exact h.recorded.lockReceived (held_task hi) hmaps
  | lockGenerated i x maps hi hmaps =>
      refine (List.append_nil xs).symm ▸ ⟨?_, h.validated_set hi rfl⟩
      rw [held_set hi]
      exact (h.recorded.lockGenerated (held_task hi) hmaps).1
  | release i x hi =>
      refine (List.append_nil xs).symm ▸ ⟨?_, h.validated_set hi rfl⟩
      rw [held_set hi]
      exact h.recorded.release (held_task hi)

end Server

namespace Client

variable {w : Crates}

/-- The exchange that a step writes to the first map. -/
def stores (s : State w) : Event → List Exchange
  | .lockReceived i =>
    match s.tasks[i]? with
    | some (.waiting x _) => [x]
    | _ => []
  | _ => []

variable {s t : State w} {e : Event} {xs : List Exchange} {i : TaskId} {u v : Task}

theorem held_set (h : s.tasks[i]? = some u) (maps : NonceMaps w) :
    State.held ⟨maps, s.tasks.set i v⟩ = Function.update s.held i v.held := heldIn_set h

theorem held_task (h : s.tasks[i]? = some u) : s.held i = u.held := by
  rw [State.held, h]
  rfl

theorem onResponse_held (generatedNonce : Nonce) (res : Option Response)
    (remoteKey : Option String) : (onResponse w generatedNonce res remoteKey).held = none := by
  unfold onResponse
  split
  · rfl
  · split
    · rfl
    · split
      · rfl
      · split
        · rfl
        · split <;> rfl

/-- Reading back what was written changes no map. -/
theorem readBack_lockGenerated {maps : NonceMaps w} {x : Exchange} (debug : Bool)
    (hread : maps.readBack x.remoteKey = maps) :
    (if debug then maps.readBack x.remoteKey else maps) = maps := by
  split
  · exact hread
  · rfl

theorem recorded_step (h : Recorded s.held xs s.maps) (hs : step s e = some t) :
    Recorded t.held (xs ++ stores s e) t.maps := by
  cases step_inv hs with
  | call generatedNonce =>
      have hheld : State.held ⟨s.maps, s.tasks ++ [.requesting generatedNonce]⟩ = s.held :=
        heldIn_append rfl
      exact (List.append_nil xs).symm ▸ hheld ▸ h
  | response i generatedNonce res remoteKey hi =>
      have hheld : State.held ⟨s.maps, s.tasks.set i (onResponse w generatedNonce res remoteKey)⟩ =
          s.held := heldIn_outside hi rfl (onResponse_held ..)
      exact (List.append_nil xs).symm ▸ hheld ▸ h
  | lockReceived i x body maps hi hmaps =>
      have hstores : stores s (.lockReceived i) = [x] := by simp only [stores, hi]
      rw [hstores, held_set hi]
      exact h.lockReceived (held_task hi) hmaps
  | lockGenerated i debug x body maps hi hmaps =>
      obtain ⟨hrecorded, hread⟩ := h.lockGenerated (held_task hi) hmaps
      rw [held_set hi, readBack_lockGenerated debug hread]
      exact (List.append_nil xs).symm ▸ hrecorded
  | release i x body hi =>
      rw [held_set hi]
      exact (List.append_nil xs).symm ▸ h.release (held_task hi)

end Client

/-! ## 4. Consistency -/

/-- **The maps agree**: the same identifiers, and the nonces of one exchange for each of them. -/
structure Consistent {w : Crates} (stored : Exchange → Prop) (m : NonceMaps w) : Prop where
  keys : w.lru.keys m.received = w.lru.keys m.generated
  exchange : ∀ k ∈ w.lru.keys m.received, ∃ x, stored x ∧ x.remoteKey = k ∧
    w.lru.peek m.received k = some x.received ∧ w.lru.peek m.generated k = some x.generated

/-- The exchanges of the tasks that have returned. -/
def Server.State.stored {w : Crates} (s : Server.State w) (x : Exchange) : Prop :=
  ∃ i, s.held i = some (.stored, x)

def Client.State.stored {w : Crates} (s : Client.State w) (x : Exchange) : Prop :=
  ∃ i, s.held i = some (.stored, x)

section Consistency

variable {w : Crates} {held : TaskId → Option (Stage × Exchange)} {xs : List Exchange}
  {m : NonceMaps w} {k : String}

theorem generatedNonces_keys :
    w.lru.keys (generatedNonces w xs) = w.lru.keys (receivedNonces w xs) := LruCache.keys_replay

theorem receivedNonces_peek (hk : k ∈ w.lru.keys (receivedNonces w xs)) :
    w.lru.peek (receivedNonces w xs) k = (lastExchange k xs).map (·.received) :=
  LruCache.peek_replay hk

theorem generatedNonces_peek (hk : k ∈ w.lru.keys (generatedNonces w xs)) :
    w.lru.peek (generatedNonces w xs) k = (lastExchange k xs).map (·.generated) :=
  LruCache.peek_replay hk

/-- **Maps without a lock are consistent.** -/
theorem Recorded.consistent (h : Recorded held xs m) (hm : m.unlocked) :
    Consistent (fun x => ∃ i, held i = some (.stored, x)) m := by
  obtain ⟨rfl, hrest⟩ := h.replayed.unlocked hm
  refine ⟨generatedNonces_keys.symm, fun k hk => ?_⟩
  have hreceived := receivedNonces_peek hk
  have hgenerated := generatedNonces_peek (generatedNonces_keys ▸ hk)
  obtain ⟨nonce, hnonce⟩ := (w.lru.mem_keys _ _).mp hk
  obtain ⟨x, hx, rfl⟩ := Option.map_eq_some_iff.mp (hreceived.symm.trans hnonce)
  obtain ⟨hmem, hkey⟩ := LruCache.lastWith_eq_some hx
  obtain ⟨i, stage, hi⟩ := h.known x hmem
  obtain rfl := hrest i stage x id hi
  rw [hx] at hreceived hgenerated
  exact ⟨x, ⟨i, hi⟩, hkey, hreceived, hgenerated⟩

/-- They are valid if what was stored is. -/
theorem Consistent.valid {stored : Exchange → Prop} (h : Consistent stored m)
    (hvalid : ∀ x, stored x → validateNonce x.received = true) : m.Valid := by
  intro k nonce hn
  obtain ⟨x, hx, -, hreceived, -⟩ := h.exchange k ((w.lru.mem_keys _ _).mpr ⟨nonce, hn⟩)
  obtain rfl := Option.some.inj (hreceived.symm.trans hn)
  exact hvalid x hx

end Consistency

/-! ## 5. Runs -/

theorem recorded_start {w : Crates} {held : TaskId → Option (Stage × Exchange)}
    (h : ∀ i, held i = none) : Recorded held [] (.empty : NonceMaps w) :=
  ⟨.free [] fun i _ _ _ hi => (by simp [h] at hi), fun _ hx => (by cases hx)⟩

namespace Server

variable {w : Crates} {es : List Event} {s : State w}

/-- **The server's maps in any run.** -/
theorem kept_run (h : (machine w).Run Machine.anyStep (start w) es s) :
    Kept ((machine w).trace stores (start w) es) s :=
  h.shownInvariant ⟨recorded_start fun _ => rfl, fun _ ht => (by cases ht)⟩
    fun _ _ _ _ h _ hs => kept_step h hs

theorem Kept.stored_valid {xs : List Exchange} (h : Kept xs s) {x : Exchange} (hx : s.stored x) :
    validateNonce x.received = true := by
  obtain ⟨i, hi⟩ := hx
  obtain ⟨u, hu, hheld⟩ := Option.bind_eq_some_iff.mp hi
  cases u with
  | storing stage y =>
      obtain rfl : y = x := (Prod.mk.inj (Option.some.inj hheld)).2
      exact h.validated _ (List.mem_of_getElem? hu) _ rfl
  | waiting | refused => cases hheld

end Server

namespace Client

variable {w : Crates} {es : List Event} {s t : State w} {e : Event} {x : Exchange}

/-- **The client's maps in any run.** -/
theorem recorded_run (h : (machine w).Run Machine.anyStep (start w) es s) :
    Recorded s.held ((machine w).trace stores (start w) es) s.maps :=
  h.shownInvariant (I := fun xs s => Recorded s.held xs s.maps) (recorded_start fun _ => rfl)
    fun _ _ _ _ h _ hs => recorded_step h hs

/-- The step completes no exchange whose response nonce `validate_nonce` refuses. -/
def validated (s : State w) : Event → Bool
  | .release i =>
    match s.tasks[i]? with
    | some (.storing .holdsBoth x _) => validateNonce x.received
    | _ => true
  | _ => true

/-- An exchange is stored by the release of its task. -/
theorem stored_step (hs : step s e = some t) (hx : t.stored x) :
    s.stored x ∨ ∃ i body, e = .release i ∧ s.tasks[i]? = some (.storing .holdsBoth x body) := by
  obtain ⟨j, hj⟩ := hx
  have hmoved : ∀ {i : TaskId} {u v : Task} {maps : NonceMaps w}, s.tasks[i]? = some u →
      t = ⟨maps, s.tasks.set i v⟩ → (∀ y, v.held ≠ some (.stored, y)) → s.stored x := by
    intro i u v maps hi ht hv
    subst ht
    rw [held_set hi] at hj
    by_cases hji : j = i
    · subst hji
      rw [Function.update_self] at hj
      exact absurd hj (hv x)
    · rw [Function.update_of_ne hji] at hj
      exact ⟨j, hj⟩
  cases step_inv hs with
  | call generatedNonce =>
      have hheld : State.held ⟨s.maps, s.tasks ++ [.requesting generatedNonce]⟩ = s.held :=
        heldIn_append rfl
      exact .inl ⟨j, hheld ▸ hj⟩
  | response i generatedNonce res remoteKey hi =>
      exact .inl (hmoved hi rfl fun y hy => by
        rw [onResponse_held] at hy
        cases hy)
  | lockReceived i y body maps hi hmaps => exact .inl (hmoved hi rfl fun _ hy => by cases hy)
  | lockGenerated i debug y body maps hi hmaps =>
      exact .inl (hmoved hi rfl fun _ hy => by cases hy)
  | release i y body hi =>
      rw [held_set hi] at hj
      by_cases hji : j = i
      · subst hji
        rw [Function.update_self] at hj
        obtain rfl : y = x := (Prod.mk.inj (Option.some.inj hj)).2
        exact .inr ⟨j, body, rfl, hi⟩
      · rw [Function.update_of_ne hji] at hj
        exact .inl ⟨j, hj⟩

/-- **Guarded runs store valid nonces only.** -/
theorem stored_valid (h : (machine w).Run (validated · · = true) (start w) es s) (hx : s.stored x) :
    validateNonce x.received = true := by
  refine h.invariant (I := fun s => ∀ x, s.stored x → validateNonce x.received = true) ?_ ?_ x hx
  · rintro y ⟨i, hi⟩
    cases hi
  · intro t e u ht hg hs y hy
    rcases stored_step hs hy with hy | ⟨i, body, rfl, hi⟩
    · exact ht y hy
    · simpa only [validated, hi] using hg

/-- **A release that leaves valid nonces** has stored a valid one. -/
theorem validated_of_valid {xs : List Exchange} (h : Recorded s.held xs s.maps)
    (hs : step s e = some t) (hvalid : t.maps.unlocked → t.maps.Valid) : validated s e = true := by
  cases step_inv hs with
  | release i x body hi =>
      have hstores : validated s (.release i) = validateNonce x.received := by
        simp only [validated, hi]
      rw [hstores]
      obtain ⟨hreplayed, ys, rfl⟩ := h.replayed.release (held_task hi)
      have hmaps := (hreplayed.unlocked ⟨rfl, rfl⟩).1
      refine hvalid ⟨rfl, rfl⟩ x.remoteKey x.received ?_
      rw [hmaps, receivedNonces_snoc]
      exact w.lru.peek_put_self ..
  | _ => rfl

end Client

/-- **What the server answers is read.** -/
theorem Client.onResponse_ok (w : Crates) (n : Nonce) (new : Bytes) (remoteKey : String) :
    Client.onResponse w n (some ⟨200, w.encode (NonceResponse.toJson ⟨w.base64Encode new⟩)⟩)
      (some remoteKey) = .waiting ⟨remoteKey, new, n.1⟩ ⟨w.base64Encode new⟩ := by
  simp only [Client.onResponse, w.decode_encode _ (NonceResponse.isFlat_toJson _), Option.bind_some,
    NonceResponse.ofJson_toJson, w.base64_decode_encode]
  rfl

/-- **What the client requests is accepted.** -/
theorem Server.nonceExchange_ok (w : Crates) (n : Nonce) (remoteKey : String) :
    Server.nonceExchange w remoteKey (some (Client.requestBody w n)) = .waiting remoteKey n.1 := by
  have hvalid : validateNonce n.1 = true := WebRtc.validateNonce_generated n
  simp only [Server.nonceExchange, Server.collectToJson, Client.requestBody,
    w.decode_encode _ (NonceRequest.isFlat_toJson _), Option.bind_some, NonceRequest.ofJson_toJson,
    w.base64_decode_encode, hvalid, if_true]

/-- **The nonce maps of both sides, in any run.** Wherever no lock is held the maps are
    consistent. The server's are valid; the client's are valid all the way exactly if every
    response nonce that it stores is. -/
theorem nonce_maps_consistent (w : Crates) (ds : List Server.Event) (t : Server.State w)
    (es : List Client.Event) (s : Client.State w) :
    ((Server.machine w).Run Machine.anyStep (Server.start w) ds t → t.maps.unlocked →
      Consistent t.stored t.maps ∧ t.maps.Valid) ∧
    ((Client.machine w).Run Machine.anyStep (Client.start w) es s →
      (s.maps.unlocked → Consistent s.stored s.maps) ∧
      ((∀ fs u, fs <+: es → (Client.machine w).Run Machine.anyStep (Client.start w) fs u →
          u.maps.unlocked → u.maps.Valid) ↔
        (Client.machine w).Run (Client.validated · · = true) (Client.start w) es s)) := by
  refine ⟨fun h hm => ?_, fun h => ⟨fun hm => ?_, fun hall => ?_, ?_⟩⟩
  · have hkept := Server.kept_run h
    have hconsistent := hkept.recorded.consistent hm
    exact ⟨hconsistent, hconsistent.valid fun _ => hkept.stored_valid⟩
  · exact (Client.recorded_run h).consistent hm
  · refine h.guarded_of (I := fun s => ∃ xs, Recorded s.held xs s.maps)
      ⟨[], recorded_start fun _ => rfl⟩ ?_ ?_ hall
    · rintro t e u ⟨xs, ht⟩ hs
      exact ⟨_, Client.recorded_step ht hs⟩
    · rintro t e u ⟨xs, ht⟩ - hs
      exact Client.validated_of_valid ht hs
  · intro hG fs u hfs hu hm
    exact ((Client.recorded_run hu).consistent hm).valid
      fun _ => Client.stored_valid (hG.of_prefix hfs hu)

/-- A nonce, and the bodies that carry it. -/
def zeroNonce : Nonce := ⟨List.replicate 32 0, rfl⟩

def zeroResponse : Response :=
  ⟨200, jsonCrates.encode (NonceResponse.toJson ⟨jsonCrates.base64Encode zeroNonce.1⟩)⟩

theorem nonce_maps_consistent_zeroNonces :
    (∃ s, (Server.machine jsonCrates).Run Machine.anyStep (Server.start jsonCrates)
      [.request "peer" (some (Client.requestBody jsonCrates zeroNonce)), .lockReceived 0 zeroNonce,
        .lockGenerated 0, .release 0] s ∧
      jsonCrates.lru.peek s.maps.received "peer" = some zeroNonce.1 ∧ Consistent s.stored s.maps ∧
      s.maps.Valid) ∧
    (∃ s, (Client.machine jsonCrates).Run Machine.anyStep (Client.start jsonCrates)
      [.call zeroNonce, .response 0 (some zeroResponse) (some "peer"), .lockReceived 0,
        .lockGenerated 0 true, .release 0] s ∧
      jsonCrates.lru.peek s.maps.received "peer" = some zeroNonce.1 ∧ Consistent s.stored s.maps ∧
      s.maps.Valid) := by
  have hrequest := Server.nonceExchange_ok jsonCrates zeroNonce "peer"
  have hresponse := Client.onResponse_ok jsonCrates zeroNonce zeroNonce.1 "peer"
  rw [← zeroResponse] at hresponse
  have hserver : ((Server.machine jsonCrates).run (Server.start jsonCrates)
      [.request "peer" (some (Client.requestBody jsonCrates zeroNonce)), .lockReceived 0 zeroNonce,
        .lockGenerated 0, .release 0]).map
      (fun s => (s.maps.receivedLock, s.maps.generatedLock,
        jsonCrates.lru.peek s.maps.received "peer")) =
      some (none, none, some zeroNonce.1) := by
    simp only [Machine.run, Server.machine, Server.step, Server.start, List.nil_append,
      List.getElem?_cons_zero, Option.bind_some, hrequest]
    rfl
  have hclient : (((Client.machine jsonCrates).guarded (Client.validated · · = true)).run
      (Client.start jsonCrates) [.call zeroNonce, .response 0 (some zeroResponse) (some "peer"),
        .lockReceived 0, .lockGenerated 0 true, .release 0]).map
      (fun s => (s.maps.receivedLock, s.maps.generatedLock,
        jsonCrates.lru.peek s.maps.received "peer")) =
      some (none, none, some zeroNonce.1) := by
    simp only [Machine.run, Machine.guarded, Client.machine, Client.step, Client.start,
      Client.validated, List.nil_append, List.getElem?_cons_zero, Option.bind_some, hresponse,
      if_true, List.set_cons_zero]
    rfl
  obtain ⟨s, hs, hobserved⟩ := Machine.run_observe hserver
  obtain ⟨t, ht, hobserved'⟩ := Machine.run_observe_guarded hclient
  simp only [Prod.mk.injEq] at hobserved hobserved'
  obtain ⟨hfirst, hsecond, hpeek⟩ := hobserved
  obtain ⟨hfirst', hsecond', hpeek'⟩ := hobserved'
  obtain ⟨hleft, hright⟩ := nonce_maps_consistent jsonCrates _ s _ t
  replace hright := hright ht.any
  exact ⟨⟨s, hs, hpeek, hleft hs ⟨hfirst, hsecond⟩⟩,
    ⟨t, ht.any, hpeek', hright.1 ⟨hfirst', hsecond'⟩,
      hright.2.mpr ht _ t List.prefix_rfl ht.any ⟨hfirst', hsecond'⟩⟩⟩

/-- The response of a peer whose nonce is empty. -/
def emptyResponse : Response := ⟨200, jsonCrates.encode (NonceResponse.toJson ⟨""⟩)⟩

/-- **The client stores an empty nonce**: it decodes, and nothing else is asked of it. -/
theorem nonce_unvalidated : ∃ s,
    (Client.machine jsonCrates).Run Machine.anyStep (Client.start jsonCrates)
    [.call zeroNonce, .response 0 (some emptyResponse) (some "peer"),
      .lockReceived 0, .lockGenerated 0 false, .release 0] s ∧
    s.maps.unlocked ∧ ¬ s.maps.Valid := by
  have hanswer : Client.onResponse jsonCrates zeroNonce (some emptyResponse) (some "peer") =
      .waiting ⟨"peer", [], List.replicate 32 0⟩ ⟨""⟩ := by
    simp only [Client.onResponse, emptyResponse, Option.bind_some, NonceResponse.ofJson_toJson,
      jsonCrates.decode_encode _ (NonceResponse.isFlat_toJson _)]
    rfl
  have hrun : ((Client.machine jsonCrates).run (Client.start jsonCrates)
      [.call zeroNonce, .response 0 (some emptyResponse) (some "peer"),
        .lockReceived 0, .lockGenerated 0 false, .release 0]).map
      (fun s => (s.maps.receivedLock, s.maps.generatedLock,
        jsonCrates.lru.peek s.maps.received "peer")) =
      some (none, none, some []) := by
    simp only [Machine.run, Client.machine, Client.step, Client.start, List.nil_append,
      List.getElem?_cons_zero, Option.bind_some, hanswer, List.set_cons_zero]
    rfl
  obtain ⟨s, hs, hobserved⟩ := Machine.run_observe hrun
  simp only [Prod.mk.injEq] at hobserved
  obtain ⟨hfirst, hsecond, hpeek⟩ := hobserved
  exact ⟨s, hs, ⟨hfirst, hsecond⟩, fun hvalid => absurd (hvalid _ _ hpeek) (by decide)⟩

end LocalSend.Http
