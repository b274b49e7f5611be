/-
  File:      LocalSend/Http/Exchange.lean
  Subject:   ONE CLIENT AND ONE SERVER that exchange nonces, with any number of calls at a time and
             any other peers on both sides.

  * `State`, `step` -- the two machines of `Nonce` and the calls between them (`network`);
  * `State.agree` -- the nonces of the two sides are the same, crosswise;
  * `Side` -- **one side's view of a peer**: the last exchange of the list that its maps replay is
    the exchange of the task that stored last; `Side.lockReceived`, `Side.moved`;
  * `Linked` -- **a call and its request carry the same two nonces**, crosswise; `linked_step`.
-/
import LocalSend.Http.NonceMaps
import LocalSend.Lib.LinkedMap

namespace LocalSend.Http

open Lib Json
open WebRtc (Bytes Nonce validateNonce)

/-! ## 1. The two machines -/

/-- The identifiers of the two: the client's at the server, the server's at the client. -/
structure Ends where
  clientKey : String
  serverKey : String

structure State (w : Crates) where
  client : Client.State w
  server : Server.State w
  /-- the client's calls to this server -/
  calls : List TaskId
  /-- the server's task for the request of a call -/
  arrived : LinkedMap TaskId TaskId

inductive Event where
  /-- a call to this server, or to another one -/
  | call (generatedNonce : Nonce) (here : Bool)
  /-- the request of a call reaches the server -/
  | arrive (i : TaskId)
  /-- its response reaches the client -/
  | answer (i : TaskId)
  | otherRequest (remoteKey : String) (body : Option Bytes)
  | otherResponse (i : TaskId) (res : Option Response) (remoteKey : Option String)
  | clientStores (e : Client.Event)
  | serverStores (e : Server.Event)
  deriving DecidableEq, Repr

/-- A step of a task with the maps. -/
def Client.Event.isStore : Client.Event → Bool
  | .lockReceived _ | .lockGenerated _ _ | .release _ => true
  | _ => false

def Server.Event.isStore : Server.Event → Bool
  | .request _ _ => false
  | _ => true

variable {w : Crates}

namespace State

def start (w : Crates) : State w := ⟨Client.start w, Server.start w, [], .empty⟩

/-- The server's task for a call. -/
def request (s : State w) (i : TaskId) : Option Server.Task :=
  (s.arrived.get? i).bind (s.server.tasks[·]?)

end State

def step (c : Ends) (s : State w) : Event → Option (State w)
  | .call generatedNonce here =>
    (Client.step s.client (.call generatedNonce)).map fun client =>
      { s with client, calls := if here then s.calls ++ [s.client.tasks.length] else s.calls }
  | .arrive i =>
    match s.client.tasks[i]?, s.arrived.get? i with
    | some (.requesting generatedNonce), none =>
      if i ∈ s.calls then
        (Server.step s.server (.request c.clientKey (some (Client.requestBody w generatedNonce)))).map
          fun server => { s with server, arrived := s.arrived.insert i s.server.tasks.length }
      else none
    | _, _ => none
  | .answer i =>
    match (s.request i).bind (Server.Task.response w) with
    | some res =>
      (Client.step s.client (.response i (some res) (some c.serverKey))).map fun client =>
        { s with client }
    | none => none
  | .otherRequest remoteKey body =>
    if remoteKey = c.clientKey then none
    else (Server.step s.server (.request remoteKey body)).map fun server => { s with server }
  | .otherResponse i res remoteKey =>
    if i ∈ s.calls ∨ remoteKey = some c.serverKey then none
    else (Client.step s.client (.response i res remoteKey)).map fun client => { s with client }
  | .clientStores e =>
    if e.isStore then (Client.step s.client e).map fun client => { s with client } else none
  | .serverStores e =>
    if e.isStore then (Server.step s.server e).map fun server => { s with server } else none

/-- **A client and a server**, among others. -/
def network (w : Crates) (c : Ends) : Machine (State w) Event := ⟨step c⟩

/-- **What a step of the two does**: a step of one of them, and what it needs of the other. -/
inductive Step (c : Ends) (s : State w) : Event → State w → Prop where
  | call (n : Nonce) (here : Bool) (client : Client.State w)
      (hclient : Client.step s.client (.call n) = some client) :
      Step c s (.call n here)
        { s with client, calls := if here then s.calls ++ [s.client.tasks.length] else s.calls }
  | arrive (i : TaskId) (n : Nonce) (server : Server.State w)
      (hi : s.client.tasks[i]? = some (.requesting n)) (hnone : s.arrived.get? i = none)
      (hcall : i ∈ s.calls) (hserver : Server.step s.server
        (.request c.clientKey (some (Client.requestBody w n))) = some server) :
      Step c s (.arrive i)
        { s with server, arrived := s.arrived.insert i s.server.tasks.length }
  | answer (i : TaskId) (res : Response) (client : Client.State w)
      (hres : (s.request i).bind (Server.Task.response w) = some res) (hclient :
        Client.step s.client (.response i (some res) (some c.serverKey)) = some client) :
      Step c s (.answer i) { s with client }
  | otherRequest (remoteKey : String) (body : Option Bytes) (server : Server.State w)
      (hne : remoteKey ≠ c.clientKey)
      (hserver : Server.step s.server (.request remoteKey body) = some server) :
      Step c s (.otherRequest remoteKey body) { s with server }
  | otherResponse (i : TaskId) (res : Option Response) (remoteKey : Option String)
      (client : Client.State w) (hcall : i ∉ s.calls) (hkey : remoteKey ≠ some c.serverKey)
      (hclient : Client.step s.client (.response i res remoteKey) = some client) :
      Step c s (.otherResponse i res remoteKey) { s with client }
  | clientStores (e : Client.Event) (client : Client.State w) (he : e.isStore = true)
      (hclient : Client.step s.client e = some client) :
      Step c s (.clientStores e) { s with client }
  | serverStores (e : Server.Event) (server : Server.State w) (he : e.isStore = true)
      (hserver : Server.step s.server e = some server) :
      Step c s (.serverStores e) { s with server }

theorem step_inv {c : Ends} {s t : State w} {e : Event} (hs : step c s e = some t) :
    Step c s e t := by
  cases e with
  | call n here =>
      simp only [step, Option.map_eq_some_iff] at hs
      obtain ⟨client, hclient, rfl⟩ := hs
      exact .call n here client hclient
  | arrive i =>
      simp only [step] at hs
      split at hs
      · rename_i n hi hnone
        split at hs
        · rename_i hcall
          obtain ⟨server, hserver, rfl⟩ := Option.map_eq_some_iff.mp hs
          exact .arrive i n server hi hnone hcall hserver
        · cases hs
      · cases hs
  | answer i =>
      simp only [step] at hs
      split at hs
      · rename_i res hres
        obtain ⟨client, hclient, rfl⟩ := Option.map_eq_some_iff.mp hs
        exact .answer i res client hres hclient
      · cases hs
  | otherRequest remoteKey body =>
      simp only [step] at hs
      split at hs
      · cases hs
      · rename_i hne
        obtain ⟨server, hserver, rfl⟩ := Option.map_eq_some_iff.mp hs
        exact .otherRequest remoteKey body server hne hserver
  | otherResponse i res remoteKey =>
      simp only [step] at hs
      split at hs
      · cases hs
      · rename_i hne
        obtain ⟨hcall, hkey⟩ := not_or.mp hne
        obtain ⟨client, hclient, rfl⟩ := Option.map_eq_some_iff.mp hs
        exact .otherResponse i res remoteKey client hcall hkey hclient
  | clientStores e =>
      simp only [step] at hs
      split at hs
      · rename_i he
        obtain ⟨client, hclient, rfl⟩ := Option.map_eq_some_iff.mp hs
        exact .clientStores e client he hclient
      · cases hs
  | serverStores e =>
      simp only [step] at hs
      split at hs
      · rename_i he
        obtain ⟨server, hserver, rfl⟩ := Option.map_eq_some_iff.mp hs
        exact .serverStores e server he hserver
      · cases hs

namespace State

/-- Room for another identifier in each map. -/
def roomy (s : State w) : Prop :=
  (w.lru.keys s.client.maps.received).length < nonceCapacity ∧
  (w.lru.keys s.client.maps.generated).length < nonceCapacity ∧
  (w.lru.keys s.server.maps.received).length < nonceCapacity ∧
  (w.lru.keys s.server.maps.generated).length < nonceCapacity

instance (s : State w) : Decidable s.roomy := inferInstanceAs (Decidable (_ ∧ _ ∧ _ ∧ _))

/-- No exchange of the two is in flight, and no task holds a lock. -/
def quiet (s : State w) : Prop :=
  (∀ i ∈ s.calls, (s.client.tasks[i]?.bind Client.Task.result).isSome = true) ∧
  s.client.maps.unlocked ∧ s.server.maps.unlocked

instance (s : State w) : Decidable s.quiet := inferInstanceAs (Decidable (_ ∧ _ ∧ _))

/-- **The nonces agree.** -/
def agree (c : Ends) (s : State w) : Prop :=
  w.lru.peek s.client.maps.received c.serverKey = w.lru.peek s.server.maps.generated c.clientKey ∧
  w.lru.peek s.server.maps.received c.clientKey = w.lru.peek s.client.maps.generated c.serverKey

instance (c : Ends) (s : State w) : Decidable (s.agree c) := inferInstanceAs (Decidable (_ ∧ _))

/-- The nonces drawn for a call, by the client and by the server. -/
def draws (s : State w) (i : TaskId) : Option (Bytes × Bytes) :=
  match s.request i with
  | some (.storing _ x) => some (x.received, x.generated)
  | _ => none

end State

/-- The task of these that stores with this step. -/
def Client.storing (own : List TaskId) : Client.Event → List TaskId
  | .lockReceived i => if i ∈ own then [i] else []
  | _ => []

def Server.storing (own : List TaskId) : Server.Event → List TaskId
  | .lockReceived j _ => if j ∈ own then [j] else []
  | _ => []

/-- The call that the client stores with this step. -/
def storedCall (s : State w) : Event → List TaskId
  | .clientStores e => Client.storing s.calls e
  | _ => []

/-- The call that the server stores with this step. -/
def servedCall (s : State w) : Event → List TaskId
  | .serverStores (.lockReceived j _) =>
    (s.calls.find? fun i => s.arrived.get? i = some j).toList
  | _ => []

/-! ## 2. One side and one peer -/

/-- **One side's view of a peer**: `own` are its tasks for this peer, `ids` those of them that
    have stored, in this order, `xs` what its maps replay. -/
structure Side (own : List TaskId) (key : String) (ids : List TaskId) (xs : List Exchange)
    (held : TaskId → Option (Stage × Exchange)) (m : NonceMaps w) : Prop where
  recorded : Recorded held xs m
  room : ∀ x ∈ xs, x.remoteKey ∈ w.lru.keys (receivedNonces w xs)
  last : lastExchange key xs = ids.getLast?.bind fun i => (held i).map Prod.snd
  mem : ∀ i, i ∈ ids ↔ i ∈ own ∧ (held i).isSome = true
  keyed : ∀ i stage x, held i = some (stage, x) → (i ∈ own ↔ x.remoteKey = key)

section Sides

variable {own ids : List TaskId} {key : String} {xs : List Exchange}
  {held : TaskId → Option (Stage × Exchange)} {m m' : NonceMaps w} {i : TaskId} {x : Exchange}

theorem Replayed.received (h : Replayed held xs m) : m.received = receivedNonces w xs := by
  cases h <;> rfl

theorem Side.start : Side [] key [] [] (fun _ => none) (.empty : NonceMaps w) := by
  refine ⟨recorded_start fun _ => rfl, fun x hx => (by cases hx), rfl, fun i => ?_, ?_⟩
  · simp
  · intro i stage x hi
    cases hi

/-- **A task stores.** -/
theorem Side.lockReceived (h : Side own key ids xs held m) (hi : held i = none)
    (hm : m.lockReceived i x.remoteKey x.received = some m')
    (hroom : (w.lru.keys m.received).length < nonceCapacity) (hkey : i ∈ own ↔ x.remoteKey = key) :
    Side own key (ids ++ if i ∈ own then [i] else []) (xs ++ [x])
      (Function.update held i (some (.holdsReceived, x))) m' := by
  have hkept : ∀ {k : String}, k ∈ w.lru.keys (receivedNonces w (xs ++ [x])) ↔
      k = x.remoteKey ∨ k ∈ w.lru.keys (receivedNonces w xs) := by
    intro k
    rw [receivedNonces_snoc]
    exact LruCache.mem_keys_put_of_room (h.recorded.replayed.received ▸ hroom)
  have hnotMem : i ∉ ids := fun hids => by simpa [hi] using ((h.mem i).mp hids).2
  refine ⟨h.recorded.lockReceived hi hm, fun y hy => ?_, ?_, fun j => ?_, fun j stage y hj => ?_⟩
  · rcases List.mem_append.mp hy with hy | hy
    · exact hkept.mpr (.inr (h.room y hy))
    · exact hkept.mpr (.inl (List.mem_singleton.mp hy ▸ rfl))
  · by_cases hown : i ∈ own
    · rw [lastExchange, LruCache.lastWith_snoc, if_pos (hkey.mp hown), if_pos hown]
      simp
    · rw [lastExchange, LruCache.lastWith_snoc, if_neg fun he => hown (hkey.mpr he), if_neg hown,
        List.append_nil]
      have hlast := h.last
      rw [lastExchange] at hlast
      rw [hlast]
      refine Option.bind_congr fun j hj => ?_
      have hji : j ≠ i := fun e => hnotMem (e ▸ List.mem_of_getLast? hj)
      rw [Function.update_of_ne hji]
  · by_cases hji : j = i
    · subst hji
      rw [Function.update_self]
      by_cases hown : j ∈ own <;> simp [hown, hnotMem]
    · rw [Function.update_of_ne hji, ← h.mem j]
      by_cases hown : i ∈ own <;> simp [hown, hji]
  · by_cases hji : j = i
    · subst hji
      rw [Function.update_self] at hj
      obtain rfl : x = y := (Prod.mk.inj (Option.some.inj hj)).2
      exact hkey
    · rw [Function.update_of_ne hji] at hj
      exact h.keyed j stage y hj

/-- The task goes on with its exchange. -/
theorem Side.moved {stage stage' : Stage} (h : Side own key ids xs held m)
    (hi : held i = some (stage, x))
    (hm : Recorded (Function.update held i (some (stage', x))) xs m') :
    Side own key ids xs (Function.update held i (some (stage', x))) m' := by
  have hsame : ∀ j, (Function.update held i (some (stage', x)) j).map Prod.snd =
      (held j).map Prod.snd := by
    intro j
    by_cases hji : j = i
    · subst hji
      rw [Function.update_self, hi]
      rfl
    · rw [Function.update_of_ne hji]
  refine ⟨hm, h.room, ?_, fun j => ?_, fun j stage'' y hj => ?_⟩
  · rw [h.last]
    exact Option.bind_congr fun j _ => (hsame j).symm
  · rw [h.mem j, ← Option.isSome_map (f := Prod.snd), ← hsame j, Option.isSome_map]
  · have hy : (held j).map Prod.snd = some y := by rw [← hsame j, hj]; rfl
    obtain ⟨⟨stage₀, y'⟩, hj', rfl⟩ := Option.map_eq_some_iff.mp hy
    exact h.keyed j stage₀ y' hj'

/-- Another list of tasks for the peer, the same among those that store. -/
theorem Side.owned {own' : List TaskId} (h : Side own key ids xs held m)
    (hown : ∀ i, (held i).isSome = true → (i ∈ own' ↔ i ∈ own)) :
    Side own' key ids xs held m := by
  refine ⟨h.recorded, h.room, h.last, fun i => ?_, fun i stage x hi => ?_⟩
  · rw [h.mem i]
    exact and_congr_left fun hi => (hown i hi).symm
  · rw [hown i (by rw [hi]; rfl)]
    exact h.keyed i stage x hi

/-- **What the unlocked maps show for the peer.** -/
theorem Side.peek (h : Side own key ids xs held m) (hm : m.unlocked) :
    w.lru.peek m.received key = (lastExchange key xs).map (·.received) ∧
    w.lru.peek m.generated key = (lastExchange key xs).map (·.generated) := by
  obtain ⟨rfl, -⟩ := h.recorded.replayed.unlocked hm
  by_cases hkey : key ∈ w.lru.keys (receivedNonces w xs)
  · exact ⟨receivedNonces_peek hkey, generatedNonces_peek (generatedNonces_keys ▸ hkey)⟩
  · have hlast : lastExchange key xs = none := by
      cases hx : lastExchange key xs with
      | none => rfl
      | some x =>
          obtain ⟨hmem, rfl⟩ := LruCache.lastWith_eq_some hx
          exact absurd (h.room x hmem) hkey
    have hnone : ∀ {c : w.NonceMap}, key ∉ w.lru.keys c → w.lru.peek c key = none := by
      intro c hc
      cases hpeek : w.lru.peek c key with
      | none => rfl
      | some nonce => exact absurd ((w.lru.mem_keys _ _).mpr ⟨nonce, hpeek⟩) hc
    rw [hlast]
    exact ⟨hnone hkey, hnone (generatedNonces_keys ▸ hkey)⟩

end Sides

/-! ## 3. Calls and requests -/

/-- The exchange of a call, once its response is there. -/
def Client.Task.exchange : Client.Task → Option Exchange
  | .waiting x _ | .storing _ x _ => some x
  | _ => none

/-- The client of a request that was not refused. -/
def Server.Task.remoteKey : Server.Task → Option String
  | .waiting remoteKey _ => some remoteKey
  | .storing _ x => some x.remoteKey
  | .refused _ => none

/-- **A call and its request**: both know the same two nonces, crosswise. -/
inductive Along (c : Ends) : Client.Task → Option Server.Task → Prop where
  | sent (n : Nonce) : Along c (.requesting n) none
  | arrived (n : Nonce) : Along c (.requesting n) (some (.waiting c.clientKey n.1))
  | storing (n : Nonce) (stage : Stage) (new : Bytes) :
      Along c (.requesting n) (some (.storing stage ⟨c.clientKey, n.1, new⟩))
  | answered (n new : Bytes) (body : NonceResponse) :
      Along c (.waiting ⟨c.serverKey, new, n⟩ body) (some (.storing .stored ⟨c.clientKey, n, new⟩))
  | stored (n new : Bytes) (stage : Stage) (body : NonceResponse) :
      Along c (.storing stage ⟨c.serverKey, new, n⟩ body)
        (some (.storing .stored ⟨c.clientKey, n, new⟩))

/-- **Calls and requests belong together**, and the other peers have other identifiers. -/
structure Linked (c : Ends) (s : State w) : Prop where
  calls : ∀ i ∈ s.calls, ∃ t, s.client.tasks[i]? = some t ∧ Along c t (s.request i)
  others : ∀ i t x, s.client.tasks[i]? = some t → i ∉ s.calls → t.exchange = some x →
    x.remoteKey ≠ c.serverKey
  requests : ∀ i j, s.arrived.get? i = some j → i ∈ s.calls ∧ ∃ t, s.server.tasks[j]? = some t
  once : ∀ i i' j, s.arrived.get? i = some j → s.arrived.get? i' = some j → i = i'
  strangers : ∀ j t, s.server.tasks[j]? = some t → j ∉ s.arrived.values →
    t.remoteKey ≠ some c.clientKey

section Links

variable {c : Ends} {s t : State w} {e : Event} {i j : TaskId}

theorem Client.onResponse_exchange {n : Nonce} {res : Option Response} {remoteKey : Option String}
    {x : Exchange} (h : (Client.onResponse w n res remoteKey).exchange = some x) :
    remoteKey = some x.remoteKey := by
  unfold Client.onResponse at h
  split at h
  · cases h
  · split at h
    · cases h
    · split at h
      · cases h
      · split at h
        · cases h
        · split at h
          · cases h
          · obtain rfl := Option.some.inj h
            rfl

theorem Server.nonceExchange_remoteKey {remoteKey k : String} {body : Option Bytes}
    (h : (Server.nonceExchange w remoteKey body).remoteKey = some k) : remoteKey = k := by
  unfold Server.nonceExchange at h
  split at h
  · cases h
  · split at h
    · cases h
    · split at h
      · exact Option.some.inj h
      · cases h

/-- A call that stores keeps its exchange. -/
theorem Client.stores_moves {s t : Client.State w} {e : Client.Event} (he : e.isStore = true)
    (hs : Client.step s e = some t) :
    ∃ i u v, s.tasks[i]? = some u ∧ t.tasks = s.tasks.set i v ∧ v.exchange = u.exchange ∧
      ∀ c request, Along c u request → Along c v request := by
  cases Client.step_inv hs with
  | call | response => cases he
  | lockReceived i x body maps hi hmaps =>
      refine ⟨i, _, .storing .holdsReceived x body, hi, rfl, rfl, fun c request h => ?_⟩
      cases h
      exact .stored ..
  | lockGenerated i debug x body maps hi hmaps =>
      refine ⟨i, _, .storing .holdsBoth x body, hi, rfl, rfl, fun c request h => ?_⟩
      cases h
      exact .stored ..
  | release i x body hi =>
      refine ⟨i, _, .storing .stored x body, hi, rfl, rfl, fun c request h => ?_⟩
      cases h
      exact .stored ..

/-- A request that stores keeps its client and its nonces. -/
theorem Server.stores_moves {s t : Server.State w} {e : Server.Event} (he : e.isStore = true)
    (hs : Server.step s e = some t) :
    ∃ j u v, s.tasks[j]? = some u ∧ t.tasks = s.tasks.set j v ∧ v.remoteKey = u.remoteKey ∧
      ∀ c call, Along c call (some u) → Along c call (some v) := by
  cases Server.step_inv hs with
  | request => cases he
  | lockReceived j newNonce remoteKey nonce maps hj hmaps =>
      refine ⟨j, _, .storing .holdsReceived ⟨remoteKey, nonce, newNonce.1⟩, hj, rfl, rfl,
        fun c call h => ?_⟩
      cases h
      exact .storing ..
  | lockGenerated j x maps hj hmaps =>
      refine ⟨j, _, .storing .holdsBoth x, hj, rfl, rfl, fun c call h => ?_⟩
      cases h
      exact .storing ..
  | release j x hj =>
      refine ⟨j, _, .storing .stored x, hj, rfl, rfl, fun c call h => ?_⟩
      cases h
      exact .storing ..

/-- An element of a list and one more. -/
theorem concat_cases {τ : Type} {l : List τ} {u t : τ} (h : (l ++ [u])[i]? = some t) :
    l[i]? = some t ∨ i = l.length ∧ t = u := by
  by_cases hlt : i < l.length
  · rw [List.getElem?_append_left hlt] at h
    exact .inl h
  · have hle := (List.getElem?_eq_some_iff.mp h).1
    rw [List.length_append, List.length_singleton] at hle
    obtain rfl : i = l.length := Nat.le_antisymm (Nat.le_of_lt_succ hle) (Nat.not_lt.mp hlt)
    rw [List.getElem?_concat_length] at h
    exact .inr ⟨rfl, (Option.some.inj h).symm⟩

theorem Linked.start : Linked c (.start w) := by
  refine ⟨fun i hi => (by cases hi), fun i t x hi => ?_, fun i j hi => (by cases hi),
    fun i i' j hi => (by cases hi), fun j t hj => ?_⟩
  · cases hi
  · cases hj

/-- One call of the client goes on. -/
theorem Linked.client_set (h : Linked c s) {u v : Client.Task} {client : Client.State w}
    (hi : s.client.tasks[i]? = some u) (hset : client.tasks = s.client.tasks.set i v)
    (halong : i ∈ s.calls → Along c u (s.request i) → Along c v (s.request i))
    (hother : i ∉ s.calls → ∀ x, v.exchange = some x → x.remoteKey ≠ c.serverKey) :
    Linked c { s with client } := by
  obtain ⟨hlt, _⟩ := List.getElem?_eq_some_iff.mp hi
  refine ⟨fun k hk => ?_, fun k t x hk hcall hx => ?_, h.requests, h.once, h.strangers⟩
  · obtain ⟨t, ht, hal⟩ := h.calls k hk
    by_cases hki : k = i
    · subst hki
      obtain rfl := Option.some.inj (hi.symm.trans ht)
      exact ⟨v, by rw [hset, List.getElem?_set_self hlt], halong hk hal⟩
    · exact ⟨t, by rw [hset, List.getElem?_set_ne (Ne.symm hki), ht], hal⟩
  · rw [hset] at hk
    by_cases hki : k = i
    · subst hki
      rw [List.getElem?_set_self hlt] at hk
      obtain rfl := Option.some.inj hk
      exact hother hcall x hx
    · rw [List.getElem?_set_ne (Ne.symm hki)] at hk
      exact h.others k t x hk hcall hx

/-- One request goes on. -/
theorem Linked.server_set (h : Linked c s) {u v : Server.Task} {server : Server.State w}
    (hj : s.server.tasks[j]? = some u) (hset : server.tasks = s.server.tasks.set j v)
    (hkey : v.remoteKey = u.remoteKey)
    (halong : ∀ call, Along c call (some u) → Along c call (some v)) :
    Linked c { s with server } := by
  obtain ⟨hlt, _⟩ := List.getElem?_eq_some_iff.mp hj
  refine ⟨fun i hi => ?_, h.others, fun i k hk => ?_, h.once, fun k t hk hno => ?_⟩
  · obtain ⟨t, ht, hal⟩ := h.calls i hi
    refine ⟨t, ht, ?_⟩
    unfold State.request at hal ⊢
    cases hk : s.arrived.get? i with
    | none => rwa [hk] at hal
    | some k =>
        rw [hk, Option.bind_some] at hal
        show Along c t (server.tasks[k]?)
        rw [hset]
        by_cases hkj : k = j
        · subst hkj
          rw [List.getElem?_set_self hlt]
          exact halong t (hj ▸ hal)
        · rwa [List.getElem?_set_ne (Ne.symm hkj)]
  · obtain ⟨hi, t, ht⟩ := h.requests i k hk
    refine ⟨hi, ?_⟩
    show ∃ t, server.tasks[k]? = some t
    rw [hset]
    by_cases hkj : k = j
    · exact ⟨v, by rw [hkj, List.getElem?_set_self hlt]⟩
    · exact ⟨t, by rw [List.getElem?_set_ne (Ne.symm hkj), ht]⟩
  · change server.tasks[k]? = some t at hk
    rw [hset] at hk
    by_cases hkj : k = j
    · subst hkj
      rw [List.getElem?_set_self hlt] at hk
      obtain rfl := Option.some.inj hk
      exact hkey ▸ h.strangers k u hj hno
    · rw [List.getElem?_set_ne (Ne.symm hkj)] at hk
      exact h.strangers k t hk hno

/-- **A new call.** -/
theorem Linked.call (h : Linked c s) (n : Nonce) (here : Bool) {client : Client.State w}
    (htasks : client.tasks = s.client.tasks ++ [.requesting n]) :
    Linked c { s with client, calls :=
      if here then s.calls ++ [s.client.tasks.length] else s.calls } := by
  have hold : ∀ i ∈ s.calls, i < s.client.tasks.length := fun i hi => by
    obtain ⟨t, ht, _⟩ := h.calls i hi
    exact (List.getElem?_eq_some_iff.mp ht).1
  have hmem : ∀ {i : TaskId}, i ∈ s.calls →
      i ∈ (if here then s.calls ++ [s.client.tasks.length] else s.calls) := by
    intro i hi
    split
    · exact List.mem_append_left _ hi
    · exact hi
  have hnew : client.tasks[s.client.tasks.length]? = some (.requesting n) := by
    rw [htasks, List.getElem?_concat_length]
  have hkept : ∀ i < s.client.tasks.length, client.tasks[i]? = s.client.tasks[i]? := by
    intro i hi
    rw [htasks, List.getElem?_append_left hi]
  refine ⟨fun i hi => ?_, fun i t x ht hi hx => ?_, fun i j hj => ?_, h.once, h.strangers⟩
  · by_cases hi' : i ∈ s.calls
    · obtain ⟨t, ht, hal⟩ := h.calls i hi'
      exact ⟨t, (hkept i (hold i hi')).trans ht, hal⟩
    · have hlast : i = s.client.tasks.length := by
        cases here with
        | true => simpa [hi'] using hi
        | false => exact absurd (by simpa using hi) hi'
      have hnone : s.arrived.get? i = none := by
        cases ha : s.arrived.get? i with
        | none => rfl
        | some j => exact absurd (h.requests i j ha).1 hi'
      subst hlast
      refine ⟨_, hnew, ?_⟩
      have hrequest : State.request s s.client.tasks.length = none := by
        rw [State.request, hnone]
        rfl
      exact hrequest ▸ .sent n
  · change client.tasks[i]? = some t at ht
    rw [htasks] at ht
    rcases concat_cases ht with ht | ⟨rfl, rfl⟩
    · exact h.others i t x ht (fun hi' => hi (hmem hi')) hx
    · cases hx
  · obtain ⟨hi, hj'⟩ := h.requests i j hj
    exact ⟨hmem hi, hj'⟩

/-- **A request of another client.** -/
theorem Linked.otherRequest (h : Linked c s) {u : Server.Task} {server : Server.State w}
    (htasks : server.tasks = s.server.tasks ++ [u]) (hu : u.remoteKey ≠ some c.clientKey) :
    Linked c { s with server } := by
  have hkept : ∀ {j : TaskId} {t : Server.Task}, s.server.tasks[j]? = some t →
      server.tasks[j]? = some t := by
    intro j t hj
    rw [htasks, List.getElem?_append_left (List.getElem?_eq_some_iff.mp hj).1, hj]
  refine ⟨fun i hi => ?_, h.others, fun i j hj => ?_, h.once, fun j t hj hno => ?_⟩
  · obtain ⟨t, ht, hal⟩ := h.calls i hi
    refine ⟨t, ht, ?_⟩
    have hrequest : State.request { s with server } i = s.request i := by
      unfold State.request
      cases ha : s.arrived.get? i with
      | none => rfl
      | some j =>
          obtain ⟨_, v, hw⟩ := h.requests i j ha
          exact (hkept hw).trans hw.symm
    exact hrequest ▸ hal
  · obtain ⟨hi, v, hw⟩ := h.requests i j hj
    exact ⟨hi, v, hkept hw⟩
  · change server.tasks[j]? = some t at hj
    rw [htasks] at hj
    rcases concat_cases hj with hj | ⟨rfl, rfl⟩
    · exact h.strangers j t hj hno
    · exact hu

/-- **The request of a call arrives.** -/
theorem Linked.arrive (h : Linked c s) {n : Nonce} {server : Server.State w}
    (hi : s.client.tasks[i]? = some (.requesting n)) (hcall : i ∈ s.calls)
    (hnone : s.arrived.get? i = none)
    (htasks : server.tasks = s.server.tasks ++ [.waiting c.clientKey n.1]) :
    Linked c { s with server, arrived := s.arrived.insert i s.server.tasks.length } := by
  have hold : ∀ {k j : TaskId}, s.arrived.get? k = some j → j < s.server.tasks.length := by
    intro k j hj
    obtain ⟨_, v, hw⟩ := h.requests k j hj
    exact (List.getElem?_eq_some_iff.mp hw).1
  have hself : (s.arrived.insert i s.server.tasks.length).get? i = some s.server.tasks.length :=
    LinkedMap.get?_insert_self
  have hne : ∀ {k : TaskId}, k ≠ i → (s.arrived.insert i s.server.tasks.length).get? k =
      s.arrived.get? k := LinkedMap.get?_insert_ne
  have hnew : server.tasks[s.server.tasks.length]? = some (.waiting c.clientKey n.1) := by
    rw [htasks, List.getElem?_concat_length]
  refine ⟨fun k hk => ?_, h.others, fun k j hj => ?_, fun k k' j hk hk' => ?_, fun j t hj hno => ?_⟩
  · obtain ⟨t, ht, hal⟩ := h.calls k hk
    refine ⟨t, ht, ?_⟩
    by_cases hki : k = i
    · subst hki
      obtain rfl := Option.some.inj (hi.symm.trans ht)
      have hrequest : State.request
          { s with server, arrived := s.arrived.insert k s.server.tasks.length } k =
          some (.waiting c.clientKey n.1) := by
        rw [State.request, hself]
        exact hnew
      exact hrequest ▸ .arrived n
    · have hrequest : State.request
          { s with server, arrived := s.arrived.insert i s.server.tasks.length } k =
          s.request k := by
        rw [State.request, hne hki, State.request]
        cases ha : s.arrived.get? k with
        | none => rfl
        | some j =>
            show server.tasks[j]? = s.server.tasks[j]?
            rw [htasks, List.getElem?_append_left (hold ha)]
      exact hrequest ▸ hal
  · by_cases hki : k = i
    · subst hki
      obtain rfl := Option.some.inj (hself.symm.trans hj)
      exact ⟨hcall, _, hnew⟩
    · change (s.arrived.insert i s.server.tasks.length).get? k = some j at hj
      rw [hne hki] at hj
      obtain ⟨hk, v, hw⟩ := h.requests k j hj
      exact ⟨hk, v, by
        show server.tasks[j]? = some v
        rw [htasks, List.getElem?_append_left (hold hj), hw]⟩
  · change (s.arrived.insert i s.server.tasks.length).get? k = some j at hk
    change (s.arrived.insert i s.server.tasks.length).get? k' = some j at hk'
    by_cases hki : k = i
    · by_cases hki' : k' = i
      · rw [hki, hki']
      · rw [hki, hself] at hk
        rw [hne hki'] at hk'
        exact absurd (hold hk') (Option.some.inj hk ▸ Nat.lt_irrefl _)
    · rw [hne hki] at hk
      by_cases hki' : k' = i
      · rw [hki', hself] at hk'
        exact absurd (hold hk) (Option.some.inj hk' ▸ Nat.lt_irrefl _)
      · rw [hne hki'] at hk'
        exact h.once k k' j hk hk'
  · change server.tasks[j]? = some t at hj
    have hno' : j ∉ s.arrived.values := fun hmem => by
      obtain ⟨k, hk⟩ := LinkedMap.mem_values.mp hmem
      refine hno (LinkedMap.mem_values.mpr ⟨k, ?_⟩)
      show (s.arrived.insert i s.server.tasks.length).get? k = some j
      rwa [hne fun e => by rw [e, hnone] at hk; cases hk]
    rw [htasks] at hj
    rcases concat_cases hj with hj | ⟨rfl, rfl⟩
    · exact h.strangers j t hj hno'
    · exact absurd (LinkedMap.mem_values.mpr ⟨i, hself⟩) hno

theorem linked_step (h : Linked c s) (hs : step c s e = some t) : Linked c t := by
  cases step_inv hs with
  | call n here client hclient => exact h.call n here (Option.some.inj hclient ▸ rfl)
  | arrive i n server hi hnone hcall hserver =>
      obtain rfl := Option.some.inj hserver
      refine h.arrive hi hcall hnone ?_
      rw [Server.nonceExchange_ok]
  | answer i res client hres hclient =>
      cases Client.step_inv hclient with
      | response _ n _ _ hi =>
          obtain ⟨request, hrequest, hanswer⟩ := Option.bind_eq_some_iff.mp hres
          have hcall : i ∈ s.calls := by
            obtain ⟨j, hj, _⟩ := Option.bind_eq_some_iff.mp hrequest
            exact (h.requests i j hj).1
          refine h.client_set hi rfl (fun _ hal => ?_) fun hno => absurd hcall hno
          rw [hrequest] at hal ⊢
          cases hal with
          | arrived => cases hanswer
          | storing n stage new =>
              cases stage with
              | holdsReceived | holdsBoth => cases hanswer
              | stored =>
                  obtain rfl := Option.some.inj hanswer
                  rw [Client.onResponse_ok]
                  exact .answered ..
  | otherRequest remoteKey body server hne hserver =>
      obtain rfl := Option.some.inj hserver
      exact h.otherRequest rfl fun hk => hne (Server.nonceExchange_remoteKey hk)
  | otherResponse i res remoteKey client hcall hkey hclient =>
      cases Client.step_inv hclient with
      | response _ n _ _ hi =>
          refine h.client_set hi rfl (fun hi' => absurd hi' hcall) fun _ x hx he => hkey ?_
          rw [Client.onResponse_exchange hx, he]
  | clientStores e client he hclient =>
      obtain ⟨i, u, v, hi, hset, hsame, halong⟩ := Client.stores_moves he hclient
      refine h.client_set hi hset (fun _ hal => halong c _ hal) fun hcall x hx => ?_
      exact h.others i u x hi hcall (hsame ▸ hx)
  | serverStores e server he hserver =>
      obtain ⟨j, u, v, hj, hset, hsame, halong⟩ := Server.stores_moves he hserver
      exact h.server_set hj hset hsame fun call => halong c call

end Links

end LocalSend.Http
