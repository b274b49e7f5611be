/-
  File:      LocalSend/Http/Agreement.lean
  Subject:   DO THE CLIENT AND THE SERVER HOLD THE SAME NONCES?

  * `Client.side_step`, `Server.side_step` -- each side keeps its view of the other;
  * `ClientSide`, `ServerSide` -- the same in the network, by calls;
  * **`nonces_agree_iff`** -- once no exchange is in flight, the two sides agree exactly if the
    exchange stored last by the client is the one stored last by the server (or has the same
    nonces);
  * `readStep` -- the steps once the bodies are read (`step_of_readStep`);
  * `nonces_disagree` -- two overlapping calls.
-/
import LocalSend.Http.Exchange

namespace LocalSend.Http

open Lib Json
open WebRtc (Bytes Nonce validateNonce)

/-! ## 1. The two sides in a run -/

section Steps

variable {w : Crates} {c : Ends} {s t : State w} {e : Event} {own ids : List TaskId}
  {key : String} {xs : List Exchange}

/-- **The client's side keeps its view.** -/
theorem Client.side_step {s t : Client.State w} {e : Client.Event}
    (h : Side own key ids xs s.held s.maps)
    (hroom : (w.lru.keys s.maps.received).length < nonceCapacity)
    (hkey : ∀ i x body, s.tasks[i]? = some (.waiting x body) → (i ∈ own ↔ x.remoteKey = key))
    (hs : Client.step s e = some t) :
    ∃ xs, Side own key (ids ++ Client.storing own e) xs t.held t.maps := by
  cases Client.step_inv hs with
  | call n =>
      have hheld : Client.State.held ⟨s.maps, s.tasks ++ [.requesting n]⟩ = s.held :=
        heldIn_append rfl
      exact ⟨xs, (List.append_nil ids).symm ▸ hheld ▸ h⟩
  | response i n res remoteKey hi =>
      have hheld : Client.State.held ⟨s.maps, s.tasks.set i (Client.onResponse w n res remoteKey)⟩ =
          s.held := heldIn_outside hi rfl (Client.onResponse_held ..)
      exact ⟨xs, (List.append_nil ids).symm ▸ hheld ▸ h⟩
  | lockReceived i x body maps hi hmaps =>
      refine ⟨xs ++ [x], ?_⟩
      rw [Client.held_set hi]
      exact h.lockReceived (Client.held_task hi) hmaps hroom (hkey i x body hi)
  | lockGenerated i debug x body maps hi hmaps =>
      obtain ⟨hrecorded, hread⟩ := h.recorded.lockGenerated (Client.held_task hi) hmaps
      refine ⟨xs, ?_⟩
      rw [Client.held_set hi, Client.readBack_lockGenerated debug hread]
      exact (List.append_nil ids).symm ▸ h.moved (Client.held_task hi) hrecorded
  | release i x body hi =>
      refine ⟨xs, ?_⟩
      rw [Client.held_set hi]
      exact (List.append_nil ids).symm ▸
        h.moved (Client.held_task hi) (h.recorded.release (Client.held_task hi))

/-- **The server's side keeps its view.** -/
theorem Server.side_step {s t : Server.State w} {e : Server.Event}
    (h : Side own key ids xs s.held s.maps)
    (hroom : (w.lru.keys s.maps.received).length < nonceCapacity)
    (hkey : ∀ j k nonce, s.tasks[j]? = some (.waiting k nonce) → (j ∈ own ↔ k = key))
    (hs : Server.step s e = some t) :
    ∃ xs, Side own key (ids ++ Server.storing own e) xs t.held t.maps := by
  cases Server.step_inv hs with
  | request remoteKey body =>
      have hheld : Server.State.held ⟨s.maps, s.tasks ++ [Server.nonceExchange w remoteKey body]⟩ =
          s.held := heldIn_append (Server.nonceExchange_held ..)
      exact ⟨xs, (List.append_nil ids).symm ▸ hheld ▸ h⟩
  | lockReceived j newNonce k nonce maps hj hmaps =>
      refine ⟨xs ++ [⟨k, nonce, newNonce.1⟩], ?_⟩
      rw [Server.held_set hj]
      exact h.lockReceived (Server.held_task hj) hmaps hroom (hkey j k nonce hj)
  | lockGenerated j x maps hj hmaps =>
      refine ⟨xs, ?_⟩
      rw [Server.held_set hj]
      exact (List.append_nil ids).symm ▸ h.moved (Server.held_task hj)
        (h.recorded.lockGenerated (Server.held_task hj) hmaps).1
  | release j x hj =>
      refine ⟨xs, ?_⟩
      rw [Server.held_set hj]
      exact (List.append_nil ids).symm ▸
        h.moved (Server.held_task hj) (h.recorded.release (Server.held_task hj))

/-- A call waits to store an exchange with this server if it was made to this server. -/
theorem Linked.client_key (h : Linked c s) {i : TaskId} {x : Exchange} {body : NonceResponse}
    (hi : s.client.tasks[i]? = some (.waiting x body)) :
    i ∈ s.calls ↔ x.remoteKey = c.serverKey := by
  constructor
  · intro hcall
    obtain ⟨t, ht, hal⟩ := h.calls i hcall
    obtain rfl := Option.some.inj (hi.symm.trans ht)
    generalize s.request i = request at hal
    cases hal
    rfl
  · intro hkey
    by_contra hcall
    exact h.others i _ x hi hcall rfl hkey

theorem Linked.server_key (h : Linked c s) {j : TaskId} {k : String} {nonce : Bytes}
    (hj : s.server.tasks[j]? = some (.waiting k nonce)) :
    j ∈ s.arrived.values ↔ k = c.clientKey := by
  constructor
  · intro hmem
    obtain ⟨i, hi⟩ := LinkedMap.mem_values.mp hmem
    obtain ⟨t, ht, hal⟩ := h.calls i (h.requests i j hi).1
    have hrequest : s.request i = some (.waiting k nonce) := by rw [State.request, hi]; exact hj
    rw [hrequest] at hal
    cases hal
    rfl
  · intro hkey
    by_contra hno
    exact h.strangers j _ hj hno (congrArg some hkey)

/-- **The client's view of the server.** -/
def ClientSide (c : Ends) (stored : List TaskId) (s : State w) : Prop :=
  ∃ xs, Side s.calls c.serverKey stored xs s.client.held s.client.maps

/-- **The server's view of the client**, by the calls that its tasks serve. -/
def ServerSide (c : Ends) (served : List TaskId) (s : State w) : Prop :=
  ∃ ids xs, Side s.arrived.values c.clientKey ids xs s.server.held s.server.maps ∧
    served.map s.arrived.get? = ids.map some

theorem clientSide_step {stored : List TaskId} (hL : Linked c s) (h : ClientSide c stored s)
    (hroom : s.roomy) (hs : step c s e = some t) : ClientSide c (stored ++ storedCall s e) t := by
  obtain ⟨xs, h⟩ := h
  have hstep : ∀ {e : Client.Event} {client : Client.State w}, Client.step s.client e = some client →
      ∃ xs, Side s.calls c.serverKey (stored ++ Client.storing s.calls e)
        xs client.held client.maps :=
    fun hclient => Client.side_step h hroom.1 (fun _ _ _ hi => hL.client_key hi) hclient
  cases step_inv hs with
  | call n here client hclient =>
      obtain ⟨xs, h'⟩ := hstep hclient
      obtain rfl := Option.some.inj hclient
      refine ⟨xs, h'.owned fun i hi => ?_⟩
      have hne : i ≠ s.client.tasks.length := by
        rintro rfl
        have hnone : (s.client.tasks ++ [Client.Task.requesting n])[s.client.tasks.length]? =
            some (.requesting n) := List.getElem?_concat_length
        rw [Client.State.held, hnone] at hi
        cases hi
      show i ∈ (if here then _ else _) ↔ _
      split
      · simp [hne]
      · rfl
  | arrive | otherRequest => exact ⟨xs, (List.append_nil stored).symm ▸ h⟩
  | answer i res client _ hclient => exact hstep hclient
  | otherResponse i res remoteKey client _ _ hclient => exact hstep hclient
  | clientStores e client _ hclient => exact hstep hclient
  | serverStores e server _ hserver =>
      refine ⟨xs, ?_⟩
      have hshown : storedCall s (.serverStores e) = [] := rfl
      rw [hshown, List.append_nil]
      exact h

/-- The call that a task of the server serves. -/
theorem Linked.served (h : Linked c s) (j : TaskId) :
    (s.calls.find? fun i => s.arrived.get? i = some j).toList.map s.arrived.get? =
      (if j ∈ s.arrived.values then [j] else []).map some := by
  cases hfind : s.calls.find? fun i => s.arrived.get? i = some j with
  | some i =>
      have hi : s.arrived.get? i = some j := by simpa using List.find?_some hfind
      rw [if_pos (LinkedMap.mem_values.mpr ⟨i, hi⟩), Option.toList_some, List.map_singleton, hi,
        List.map_singleton]
  | none =>
      have hno : j ∉ s.arrived.values := fun hmem => by
        obtain ⟨i, hi⟩ := LinkedMap.mem_values.mp hmem
        simpa [hi] using List.find?_eq_none.mp hfind i (h.requests i j hi).1
      rw [if_neg hno]
      rfl

theorem serverSide_step {served : List TaskId} (hL : Linked c s) (h : ServerSide c served s)
    (hroom : s.roomy) (hs : step c s e = some t) : ServerSide c (served ++ servedCall s e) t := by
  obtain ⟨ids, xs, h, halign⟩ := h
  have hstep : ∀ {e : Server.Event} {server : Server.State w}, Server.step s.server e = some server →
      ∃ xs, Side s.arrived.values c.clientKey (ids ++ Server.storing s.arrived.values e)
        xs server.held server.maps :=
    fun hserver => Server.side_step h hroom.2.2.1 (fun _ _ _ hj => hL.server_key hj) hserver
  have hquiet : ServerSide c (served ++ []) s :=
    (List.append_nil served).symm ▸ ⟨ids, xs, h, halign⟩
  cases step_inv hs with
  | call | answer | otherResponse | clientStores => exact hquiet
  | arrive i n server hi hnone hcall hserver =>
      obtain ⟨xs, h'⟩ := hstep hserver
      obtain rfl := Option.some.inj hserver
      have hvalues : (s.arrived.insert i s.server.tasks.length).values =
          s.arrived.values ++ [s.server.tasks.length] := by
        rw [LinkedMap.values, LinkedMap.insert_of_notMem (LinkedMap.get?_eq_none.mp hnone),
          List.map_append]
        rfl
      refine (List.append_nil served).symm ▸ ⟨ids, xs, ?_, ?_⟩
      · refine ((List.append_nil ids) ▸ h').owned fun j hj => ?_
        have hne : j ≠ s.server.tasks.length := by
          rintro rfl
          have hnew : (s.server.tasks ++ [Server.nonceExchange w c.clientKey
              (some (Client.requestBody w n))])[s.server.tasks.length]? =
              some (.waiting c.clientKey n.1) := by
            rw [List.getElem?_concat_length, Server.nonceExchange_ok]
          rw [Server.State.held, hnew] at hj
          cases hj
        show j ∈ (s.arrived.insert i s.server.tasks.length).values ↔ _
        simp [hvalues, hne]
      · rw [← halign]
        refine List.map_congr_left fun k hk => LinkedMap.get?_insert_ne ?_
        rintro rfl
        have hsome : s.arrived.get? k ∈ ids.map some := halign ▸ List.mem_map_of_mem hk
        rw [hnone] at hsome
        simp at hsome
  | otherRequest remoteKey body server hne hserver =>
      obtain ⟨xs, h'⟩ := hstep hserver
      obtain rfl := Option.some.inj hserver
      exact (List.append_nil served).symm ▸ ⟨ids, xs, (List.append_nil ids) ▸ h', halign⟩
  | serverStores e server _ hserver =>
      obtain ⟨xs, h'⟩ := hstep hserver
      refine ⟨_, xs, h', ?_⟩
      rw [List.map_append, List.map_append, halign]
      cases e with
      | lockReceived j newNonce => exact congrArg _ (hL.served j)
      | request | lockGenerated | release => rfl

end Steps

/-! ## 2. Agreement -/

section Agreement

variable {w : Crates} {c : Ends} {s t : State w} {es : List Event} {i : TaskId}
  {stored served : List TaskId}

theorem linked_run {G : State w → Event → Prop} (h : (network w c).Run G (.start w) es t) :
    Linked c t :=
  h.invariant .start fun _ _ _ h _ hs => linked_step h hs

theorem clientSide_run (h : (network w c).Run (fun s _ => s.roomy) (.start w) es t) :
    ClientSide c ((network w c).trace storedCall (.start w) es) t := by
  have hboth := h.shownInvariant (f := storedCall)
    (I := fun ids s => Linked c s ∧ ClientSide c ids s)
    ⟨.start, [], Side.start⟩ fun _ _ _ _ h hG hs =>
      ⟨linked_step h.1 hs, clientSide_step h.1 h.2 hG hs⟩
  exact hboth.2

theorem serverSide_run (h : (network w c).Run (fun s _ => s.roomy) (.start w) es t) :
    ServerSide c ((network w c).trace servedCall (.start w) es) t := by
  have hboth := h.shownInvariant (f := servedCall)
    (I := fun ids s => Linked c s ∧ ServerSide c ids s)
    ⟨.start, [], [], Side.start, rfl⟩ fun _ _ _ _ h hG hs =>
      ⟨linked_step h.1 hs, serverSide_step h.1 h.2 hG hs⟩
  exact hboth.2

theorem State.draws_storing {stage : Stage} {x : Exchange}
    (h : s.request i = some (.storing stage x)) : s.draws i = some (x.received, x.generated) := by
  rw [State.draws, h]

/-- **A call that has returned**, and its request. -/
theorem Linked.over (h : Linked c s) (hq : s.quiet) (hi : i ∈ s.calls) :
    ∃ n new j, s.client.held i = some (.stored, ⟨c.serverKey, new, n⟩) ∧
      s.arrived.get? i = some j ∧ s.server.held j = some (.stored, ⟨c.clientKey, n, new⟩) ∧
      s.draws i = some (n, new) := by
  obtain ⟨t, ht, hal⟩ := h.calls i hi
  have hover := hq.1 i hi
  rw [ht, Option.bind_some] at hover
  generalize hrequest : s.request i = request at hal
  cases hal with
  | stored n new stage body =>
      obtain ⟨j, hj, hserver⟩ := Option.bind_eq_some_iff.mp hrequest
      have hstage : stage = .stored := by
        cases stage with
        | stored => rfl
        | holdsReceived | holdsBoth => cases hover
      subst hstage
      exact ⟨n, new, j, Client.held_task ht, hj, Server.held_task hserver,
        State.draws_storing hrequest⟩
  | sent | arrived | storing | answered => cases hover

/-- A side on which the peer has stored nothing shows nothing for it. -/
theorem Side.silent {own ids : List TaskId} {key : String} {xs : List Exchange}
    {held : TaskId → Option (Stage × Exchange)} {m : NonceMaps w} (h : Side own key ids xs held m)
    (hm : m.unlocked) (hids : ids.getLast? = none) :
    w.lru.peek m.received key = none ∧ w.lru.peek m.generated key = none := by
  have hlast := h.last
  rw [hids, Option.bind_none] at hlast
  have hpeek := h.peek hm
  rwa [hlast] at hpeek

/-- The peer's exchange is that of the task that stored last. -/
theorem Side.shown {own ids : List TaskId} {key : String} {xs : List Exchange}
    {held : TaskId → Option (Stage × Exchange)} {m : NonceMaps w} (h : Side own key ids xs held m)
    (hm : m.unlocked) (hids : ids.getLast? = some i) {stage : Stage} {x : Exchange}
    (hi : held i = some (stage, x)) :
    w.lru.peek m.received key = some x.received ∧
      w.lru.peek m.generated key = some x.generated := by
  have hlast := h.last
  rw [hids, Option.bind_some, hi, Option.map_some] at hlast
  have hpeek := h.peek hm
  rwa [hlast] at hpeek

/-- Without a stored call there is no served one. -/
theorem Linked.unserved (hL : Linked c t) (hq : t.quiet) {ids : List TaskId}
    {xc xs : List Exchange}
    (hclient : Side t.calls c.serverKey [] xc t.client.held t.client.maps)
    (hserver : Side t.arrived.values c.clientKey ids xs t.server.held t.server.maps) :
    ids.getLast? = none := by
  cases hids : ids.getLast? with
  | none => rfl
  | some j =>
      have hj := ((hserver.mem j).mp (List.mem_of_getLast? hids)).1
      obtain ⟨i, hi⟩ := LinkedMap.mem_values.mp hj
      have hcall := (hL.requests i j hi).1
      obtain ⟨n, new, _, hheld, _⟩ := hL.over hq hcall
      have hmem : i ∈ [] := (hclient.mem i).mpr ⟨hcall, by rw [hheld]; rfl⟩
      cases hmem

/-- The last of the served calls is there once a call is stored. -/
theorem ServerSide.last {ids : List TaskId} {xs : List Exchange}
    (h : Side t.arrived.values c.clientKey ids xs t.server.held t.server.maps)
    (halign : served.map t.arrived.get? = ids.map some) {j : TaskId} {x : Exchange}
    (hi : t.arrived.get? i = some j) (hj : t.server.held j = some (.stored, x)) :
    ∃ i' j', ids.getLast? = some j' ∧ served.getLast? = some i' ∧ t.arrived.get? i' = some j' := by
  have hmem : j ∈ ids := (h.mem j).mpr ⟨LinkedMap.mem_values.mpr ⟨i, hi⟩, by rw [hj]; rfl⟩
  obtain ⟨j', hids⟩ : ∃ j', ids.getLast? = some j' :=
    Option.isSome_iff_exists.mp (List.getLast?_isSome.mpr (List.ne_nil_of_mem hmem))
  have hlast := congrArg List.getLast? halign
  rw [List.getLast?_map, List.getLast?_map, hids, Option.map_some] at hlast
  obtain ⟨i', hserved, hi'⟩ := Option.map_eq_some_iff.mp hlast
  exact ⟨i', j', hids, hserved, hi'⟩

/-- **When two sides agree on their nonces.** Once no exchange is in flight, with room in every
    map all the way: exactly if the call stored last by the client is the one served last by the
    server, or has drawn the same nonces. -/
theorem nonces_agree_iff (c : Ends) (h : (network w c).Run (fun s _ => s.roomy) (.start w) es t)
    (hq : t.quiet) :
    t.agree c ↔
      ∀ i j, ((network w c).trace storedCall (.start w) es).getLast? = some i →
        ((network w c).trace servedCall (.start w) es).getLast? = some j →
        i = j ∨ t.draws i = t.draws j := by
  have hL := linked_run h
  obtain ⟨xc, hclient⟩ := clientSide_run h
  obtain ⟨ids, xs, hserver, halign⟩ := serverSide_run h
  generalize (network w c).trace storedCall (.start w) es = stored at hclient ⊢
  generalize (network w c).trace servedCall (.start w) es = served at halign ⊢
  cases hstored : stored.getLast? with
  | none =>
      have hnone := hL.unserved hq (List.getLast?_eq_none_iff.mp hstored ▸ hclient) hserver
      obtain ⟨hreceived, hgenerated⟩ := hclient.silent hq.2.1 hstored
      obtain ⟨hreceived', hgenerated'⟩ := hserver.silent hq.2.2 hnone
      refine ⟨fun _ i j hi => (by cases hi), fun _ => ⟨?_, ?_⟩⟩
      · rw [hreceived, hgenerated']
      · rw [hreceived', hgenerated]
  | some i =>
      have hi : i ∈ t.calls := ((hclient.mem i).mp (List.mem_of_getLast? hstored)).1
      obtain ⟨n, new, j, hcalled, hj, hasked, hdraws⟩ := hL.over hq hi
      obtain ⟨k, l, hids, hserved, hl⟩ := ServerSide.last hserver halign hj hasked
      obtain ⟨n', new', l', hcalled', hl', hasked', hdraws'⟩ :=
        hL.over hq (hL.requests k l hl).1
      obtain rfl := Option.some.inj (hl.symm.trans hl')
      obtain ⟨hreceived, hgenerated⟩ := hclient.shown hq.2.1 hstored hcalled
      obtain ⟨hreceived', hgenerated'⟩ := hserver.shown hq.2.2 hids hasked'
      have hagree : t.agree c ↔ t.draws i = t.draws k := by
        unfold State.agree
        rw [hreceived, hgenerated, hreceived', hgenerated', hdraws, hdraws', Option.some.injEq,
          Option.some.injEq, Option.some.injEq, Prod.mk.injEq]
        constructor
        · intro h
          obtain ⟨hnew, hn⟩ := h
          exact ⟨hn.symm, hnew⟩
        · intro h
          obtain ⟨hn, hnew⟩ := h
          exact ⟨hnew, hn.symm⟩
      rw [hagree, hserved]
      constructor
      · intro hsame a b ha hb
        obtain rfl := Option.some.inj ha
        obtain rfl := Option.some.inj hb
        exact .inr hsame
      · intro hall
        rcases hall i k rfl rfl with rfl | hsame
        · rfl
        · exact hsame

end Agreement

/-! ## 3. Two overlapping calls -/

/-- A step as it is once the bodies are read. -/
def readStep {w : Crates} (c : Ends) (s : State w) : Event → Option (State w)
  | .arrive i =>
    match s.client.tasks[i]?, s.arrived.get? i with
    | some (.requesting n), none =>
      if i ∈ s.calls then
        some { s with
          server := { s.server with tasks := s.server.tasks ++ [.waiting c.clientKey n.1] }
          arrived := s.arrived.insert i s.server.tasks.length }
      else none
    | _, _ => none
  | .answer i =>
    match s.request i, s.client.tasks[i]? with
    | some (.storing .stored x), some (.requesting n) =>
      some { s with client := { s.client with
        tasks := s.client.tasks.set i
          (.waiting ⟨c.serverKey, x.generated, n.1⟩ ⟨w.base64Encode x.generated⟩) } }
    | _, _ => none
  | e => step c s e

theorem step_of_readStep {w : Crates} {c : Ends} {s t : State w} {e : Event}
    (h : readStep c s e = some t) : step c s e = some t := by
  cases e with
  | arrive i =>
      simp only [readStep] at h
      split at h
      · rename_i n hi hnone
        split at h
        · rename_i hcall
          simp only [step, hi, hnone, if_pos hcall, Server.step, Server.nonceExchange_ok,
            Option.map_some]
          exact h
        · cases h
      · cases h
  | answer i =>
      simp only [readStep] at h
      split at h
      · rename_i x n hrequest hi
        simp only [step, hrequest, Option.bind_some, Server.Task.response, Client.step, hi,
          Client.onResponse_ok, Option.map_some]
        exact h
      · cases h
  | _ => exact h

/-- A nonce of one byte, repeated. -/
def repeated (b : UInt8) : Nonce := ⟨List.replicate 32 b, List.length_replicate ..⟩

def twoEnds : Ends := ⟨"client", "server"⟩

/-- A task of the server stores, from its first lock on. -/
def serverStored (j : TaskId) (newNonce : Nonce) : List Event :=
  [.serverStores (.lockReceived j newNonce), .serverStores (.lockGenerated j),
    .serverStores (.release j)]

/-- A call of the client stores. -/
def clientStored (i : TaskId) : List Event :=
  [.clientStores (.lockReceived i), .clientStores (.lockGenerated i false),
    .clientStores (.release i)]

/-- Two calls, stored in one order by the server and in the other by the client. -/
def crossedCalls : List Event :=
  [.call (repeated 1) true, .call (repeated 2) true, .arrive 0, .arrive 1] ++
    serverStored 0 (repeated 3) ++ serverStored 1 (repeated 4) ++ [.answer 0, .answer 1] ++
    clientStored 1 ++ clientStored 0

/-- The same, stored in one order. -/
def orderedCalls : List Event :=
  [.call (repeated 1) true, .call (repeated 2) true, .arrive 0, .arrive 1] ++
    serverStored 0 (repeated 3) ++ serverStored 1 (repeated 4) ++ [.answer 1, .answer 0] ++
    clientStored 0 ++ clientStored 1

/-- What a run of read steps shows, and what at its end. -/
theorem observe_readRun (w : Crates) (c : Ends) (es : List Event) (b : Bool)
    (h : (((Machine.mk (readStep c)).guarded fun s _ => s.roomy).run (.start w) es).map
      (fun s => (decide s.quiet, decide (s.agree c))) = some (true, b)) :
    ∃ t, (network w c).Run (fun s _ => s.roomy) (.start w) es t ∧ t.quiet ∧
      decide (t.agree c) = b ∧ ∀ f : State w → Event → List TaskId,
        (network w c).trace f (.start w) es =
          (Machine.mk (readStep c)).trace f (.start w) es := by
  obtain ⟨t, ht, hobserved⟩ := Machine.run_observe_guarded h
  obtain ⟨hquiet, hagree⟩ := Prod.mk.inj hobserved
  have hstep : ∀ (s : State w) (e : Event) (t : State w), readStep c s e = some t →
      step c s e = some t := fun _ _ _ => step_of_readStep
  exact ⟨t, ht.of_step hstep, of_decide_eq_true hquiet, hagree, fun f => ht.trace_of_step hstep f⟩

theorem nonces_agree_iff_orderedCalls :
    ∃ t, (network jsonCrates twoEnds).Run (fun s _ => s.roomy) (.start jsonCrates)
      orderedCalls t ∧ t.agree twoEnds := by
  obtain ⟨t, ht, hquiet, -, htrace⟩ := observe_readRun jsonCrates twoEnds orderedCalls true (by rfl)
  refine ⟨t, ht, (nonces_agree_iff twoEnds ht hquiet).mpr fun i j hi hj => .inl ?_⟩
  have hstored : ((Machine.mk (readStep twoEnds)).trace storedCall
      (.start jsonCrates) orderedCalls).getLast? = some 1 := by rfl
  have hserved : ((Machine.mk (readStep twoEnds)).trace servedCall
      (.start jsonCrates) orderedCalls).getLast? = some 1 := by rfl
  rw [htrace, hstored] at hi
  rw [htrace, hserved] at hj
  exact Option.some.inj (hi.symm.trans hj)

/-- **Two overlapping calls leave different nonces**: the server keeps those of the second, the
    client those of the first, which it stored last. -/
theorem nonces_disagree :
    ∃ t, (network jsonCrates twoEnds).Run (fun s _ => s.roomy) (.start jsonCrates)
      crossedCalls t ∧ t.quiet ∧ ¬ t.agree twoEnds := by
  obtain ⟨t, ht, hquiet, hagree, -⟩ := observe_readRun jsonCrates twoEnds crossedCalls false (by rfl)
  exact ⟨t, ht, hquiet, of_decide_eq_false hagree⟩

end LocalSend.Http
