/-
  File:      LocalSend/Isolates/UploadCancel.lean
  Subject:   CANCELLING UPLOADS ACROSS THE ISOLATES: the send service on the main isolate
             (`Send/Service.lean`), the upload actions of `actions.dart`, and the upload isolates
             (`upload_isolate.dart`) with their cancel tokens.

  An upload is sent to its isolate in a microtask, a cancel at once. The isolate looks for the
  token of the task; it has one from the moment it reads the upload.

  * `UploadIsolate`, `UploadIsolate.read` -- an upload isolate and its next message;
  * `Event`, `step` -- the service, the microtasks and the isolates (`uploads`);
  * `orderly` -- a cancellation is a turn of the event loop of its own: no upload waits for its
    microtask;
  * `Follows` -- in an inbox, a cancel comes after the upload it is for; `Tracked` -- the invariant;
  * **`cancelled_uploads_stop`** -- every cancel action reaches the token of its upload, and no
    other token is cancelled;
  * **`running_uploads_owned`** -- no upload goes on in an isolate without a session that lists it.

  Left out: progress, which streams of the results `Demux.lean` is about, and the resolver of
  content URIs.
-/
import LocalSend.Send.Ownership

namespace LocalSend.UploadCancel

open Lib
open SendSession (SendingTask TaskId Upload Sound TasksAfter SameTasks Turn View Known tidy Owned)

/-! ## 1. The upload isolates -/

/-- A task for an upload isolate: an upload under its id, or the cancellation of one. -/
inductive Message where
  | upload (taskId : TaskId)
  | cancel (taskId : TaskId)
  deriving DecidableEq, Repr

structure UploadIsolate where
  /-- what the isolate has not read yet -/
  inbox : List Message
  /-- the tasks in the map of `_cancelTokenProvider` -/
  cancelTokens : List TaskId
  /-- the tasks whose token was cancelled -/
  cancelled : List TaskId
  /-- the handlers that wait for their upload -/
  running : List TaskId
  /-- the results on their way to the main isolate -/
  results : List (TaskId × Option String)
  deriving DecidableEq, Repr

def UploadIsolate.initial : UploadIsolate := ⟨[], [], [], [], []⟩

def UploadIsolate.sendToIsolate (c : UploadIsolate) (messages : List Message) : UploadIsolate :=
  { c with inbox := c.inbox ++ messages }

/-- `handler`, for the next message; a file that cannot be opened ends an upload before it has a
    token. -/
def UploadIsolate.read (c : UploadIsolate) (opens : Bool) : Option UploadIsolate :=
  match c.inbox with
  | [] => none
  | .upload id :: inbox =>
    some (if opens then { c with
        inbox := inbox
        cancelTokens := if id ∈ c.cancelTokens then c.cancelTokens else c.cancelTokens ++ [id]
        running := c.running ++ [id] }
      else { c with inbox := inbox })
  | .cancel id :: inbox =>
    some { c with
      inbox := inbox
      cancelTokens := c.cancelTokens.erase id
      cancelled := if id ∈ c.cancelTokens then id :: c.cancelled else c.cancelled }

/-! ## 2. The machine -/

structure State where
  service : SendSession.State
  /-- the uploads that wait for the microtask that sends them -/
  microtasks : List SendingTask
  isolates : Nat → UploadIsolate

def State.initial : State := ⟨.initial, [], fun _ => .initial⟩

def State.setIsolate (s : State) (i : Nat) (c : UploadIsolate) : State :=
  { s with isolates := Function.update s.isolates i c }

/-- The upload a step of the service has dispatched: it has the next id. -/
def dispatched (s t : SendSession.State) : List SendingTask :=
  ((t.uploads.get? s.nextId).map fun u => u.task s.nextId).toList

/-- The tasks of `_cancelRunningRequests`. -/
def cancelling (s : SendSession.State) : SendSession.Event → List SendingTask
  | .cancelSession k | .cancelSessionByReceiver k _ =>
    ((s.sessions.get? k).map fun session => session.sendingTasks).getD []
  | _ => []

/-- The cancels of an isolate among the tasks. -/
def cancelsFor (i : Nat) (tasks : List SendingTask) : List Message :=
  (tasks.filter fun task => task.isolateIndex = i).map fun task => .cancel task.taskId

inductive Event where
  | main (e : SendSession.Event)
  /-- the next microtask sends its upload -/
  | microtask
  /-- the `i`-th isolate reads its next message -/
  | receive (i : Nat) (opens : Bool)
  /-- an upload of the `i`-th isolate is over -/
  | finish (i : Nat) (taskId : TaskId) (error : Option String)

def step (s : State) : Event → Option State
  | .main (.uploadEnded taskId error now) => do
    let u ← s.service.uploads.get? taskId
    let service ← SendSession.service.step s.service (.uploadEnded taskId error now)
    let c := s.isolates u.action.isolateIndex
    if c.results.head? = some (taskId, error) then
      some { (s.setIsolate u.action.isolateIndex { c with results := c.results.tail }) with
        service := service }
    else none
  | .main e => do
    let service ← SendSession.service.step s.service e
    some {
      service := service
      microtasks := s.microtasks ++ dispatched s.service service
      isolates := fun i =>
        (s.isolates i).sendToIsolate (cancelsFor i (cancelling s.service e)) }
  | .microtask =>
    match s.microtasks with
    | [] => none
    | task :: microtasks =>
      some { (s.setIsolate task.isolateIndex
        ((s.isolates task.isolateIndex).sendToIsolate [.upload task.taskId])) with
          microtasks := microtasks }
  | .receive i opens => ((s.isolates i).read opens).map (s.setIsolate i)
  | .finish i taskId error =>
    let c := s.isolates i
    if taskId ∈ c.running then
      some (s.setIsolate i { c with
        running := c.running.erase taskId
        results := c.results ++ [(taskId, error)] })
    else none

/-- **The send service with its upload isolates.** -/
def uploads : Machine State Event := ⟨step⟩

def isCancel : SendSession.Event → Bool
  | .cancelSession _ | .cancelSessionByReceiver _ _ => true
  | _ => false

/-- **A cancellation is a turn of its own**: the microtasks before it have run. -/
def orderly (s : State) : Event → Prop
  | .main e => isCancel e = true → s.microtasks = []
  | .microtask | .receive _ _ | .finish _ _ _ => True

instance (s : State) : (e : Event) → Decidable (orderly s e)
  | .main _ => inferInstanceAs (Decidable (_ → _))
  | .microtask | .receive _ _ | .finish _ _ _ => .isTrue trivial

variable {s t : State} {e : Event} {es : List Event} {i j : Nat} {id : TaskId}

/-! ## 3. The service -/

section Service

variable {a b : SendSession.State} {x : SendSession.Event}

theorem finish_listed {y z : SendSession.SendSessionState} {now : Int}
    (h : z.finish now = some y) : y.sendingTasks = z.sendingTasks := by
  unfold SendSession.SendSessionState.finish at h
  split at h
  · obtain rfl := Option.some.inj h
    rfl
  · split at h
    · cases h
    · obtain rfl := Option.some.inj h
      rfl

theorem afterUpload_listed {y z : SendSession.SendSessionState} {u : Upload}
    {error : Option String} {now : Int} (h : z.afterUpload u id error now = some y) :
    y.sendingTasks ⊆ z.sendingTasks := by
  have hless : (z.uploaded u.action.fileId (u.task id) error).sendingTasks ⊆ z.sendingTasks :=
    List.filter_sublist.subset
  unfold SendSession.SendSessionState.afterUpload at h
  simp only at h
  split at h
  · rwa [← finish_listed h] at hless
  · obtain rfl := Option.some.inj h
    exact hless

/-- The tasks a session lists are the ones it listed before, and the one that is dispatched. -/
theorem turn_listed {n : TaskId} {k : String} {v w : View} {y : SendSession.SendSessionState}
    (h : Turn n k v x w) (hy : w.session = some y) {task : SendingTask}
    (htask : task ∈ y.sendingTasks) :
    (∃ z, v.session = some z ∧ task ∈ z.sendingTasks) ∨
      task.taskId = n ∧ ∃ u, w.uploads n = some u := by
  cases h with
  | other => exact .inl ⟨y, hy, htask⟩
  | created target files background preview ids z hz hids =>
      obtain rfl := Option.some.inj hy
      rw [hz] at htask
      cases htask
  | passed _ z | left index z | skipped index z => exact .inl ⟨y, hy, htask⟩
  | empty | closed => cases hy
  | refused _ z | canceled now z | background b z =>
      obtain rfl := Option.some.inj hy
      exact .inl ⟨z, rfl, htask⟩
  | opened reply now z z' ups submission remote fileMap hz =>
      obtain rfl := Option.some.inj hy
      rw [hz] at htask
      exact .inl ⟨z, rfl, htask⟩
  | sent index z ups file queue workers token =>
      obtain rfl := Option.some.inj hy
      rw [SendSession.dispatched_tasks] at htask
      rcases List.mem_append.mp htask with hold | hnew
      · exact .inl ⟨z, rfl, hold⟩
      · obtain rfl := List.mem_singleton.mp hnew
        exact .inr ⟨rfl, _, Function.update_self ..⟩
  | retried z flow ups file token =>
      obtain rfl := Option.some.inj hy
      rw [SendSession.dispatched_tasks] at htask
      rcases List.mem_append.mp htask with hold | hnew
      · exact .inl ⟨z, rfl, hold⟩
      · obtain rfl := List.mem_singleton.mp hnew
        exact .inr ⟨rfl, _, Function.update_self ..⟩
  | uploaded id error now z flow ups u hu =>
      obtain ⟨z', rfl, hz⟩ := Option.bind_eq_some_iff.mp hy
      exact .inl ⟨z', rfl, afterUpload_listed hz htask⟩
  | ended now z ups queue workers hall =>
      obtain ⟨z', rfl, hz⟩ := Option.bind_eq_some_iff.mp hy
      exact .inl ⟨z', rfl, finish_listed hz ▸ htask⟩

/-- Ids are given out in order. -/
theorem nextId_le (h : TasksAfter a b x) : a.nextId ≤ b.nextId := by
  cases h with
  | same _ h | created _ _ _ _ _ h | ended _ _ _ h => exact Nat.le_of_eq h.nextId.symm
  | dispatched _ u h => exact Nat.le_trans (Nat.le_succ _) (Nat.le_of_eq h.nextId.symm)
  | cancelled _ k y _ _ h => exact Nat.le_trans (Nat.le_add_right _ _) (Nat.le_of_eq h.nextId.symm)

/-- The ids of the tasks that are listed were given out. -/
def Listed (a : SendSession.State) : Prop :=
  ∀ k y, a.sessions.get? k = some y → ∀ task ∈ y.sendingTasks, task.taskId < a.nextId

theorem listed_step (hK : Known a) (h : Listed a) (hs : SendSession.service.step a x = some b) :
    Listed b := by
  intro k y hy task htask
  have hle := nextId_le (SendSession.step_tasks hs)
  rcases turn_listed (SendSession.step_turn hK hs k) hy htask with ⟨z, hz, hold⟩ | ⟨hid, u, hu⟩
  · exact Nat.lt_of_lt_of_le (h k z hz task hold) hle
  · rw [hid]
    by_contra hlt
    have hnone := (SendSession.known_step hK hs).taskId a.nextId (Nat.le_of_not_lt hlt)
    rw [(SendSession.uploadsOf_eq_some.mp hu).1] at hnone
    cases hnone

/-- What a cancellation does. -/
theorem cancel_tasks (hx : isCancel x = true) (hs : SendSession.service.step a x = some b) :
    SameTasks { a with
      cancelled := cancelling a x ++ a.cancelled
      nextId := a.nextId + (cancelling a x).length } b := by
  cases x with
  | cancelSession k =>
      simp only [SendSession.service, SendSession.step, SendSession.cancelSession] at hs
      split at hs
      · rename_i y hy
        simp only [hy] at hs
        cases hs
        simp only [cancelling, hy, Option.map_some, Option.getD_some]
        exact ⟨rfl, rfl, rfl, rfl⟩
      · cases hs
  | cancelSessionByReceiver k now =>
      simp only [SendSession.service, SendSession.step, SendSession.cancelSessionByReceiver] at hs
      split at hs
      · rename_i y hy
        split at hs
        · simp only [hy] at hs
          cases hs
          simp only [cancelling, hy, Option.map_some, Option.getD_some]
          exact ⟨rfl, rfl, rfl, rfl⟩
        · cases hs
      · cases hs
  | _ => cases hx

/-- What another step but the end of an upload does: at most it dispatches an upload. -/
theorem other_tasks (hK : Known a) (hx : isCancel x = false)
    (hx' : ∀ id error now, x ≠ .uploadEnded id error now)
    (hs : SendSession.service.step a x = some b) :
    cancelling a x = [] ∧ b.cancelled = a.cancelled ∧
      (dispatched a b = [] ∧ b.uploads = a.uploads ∨
        ∃ u, dispatched a b = [u.task a.nextId] ∧ b.uploads = a.uploads.insert a.nextId u) := by
  have hnone : a.uploads.get? a.nextId = none := hK.taskId _ (Nat.le_refl _)
  have hcancelling : cancelling a x = [] := by
    cases x with
    | cancelSession | cancelSessionByReceiver => cases hx
    | _ => rfl
  cases SendSession.step_tasks hs with
  | same _ h | created _ _ _ _ _ h =>
      refine ⟨hcancelling, h.cancelled, .inl ⟨?_, h.uploads⟩⟩
      simp only [dispatched, h.uploads, hnone, Option.map_none, Option.toList_none]
  | dispatched _ u h =>
      refine ⟨hcancelling, h.cancelled, .inr ⟨u, ?_, h.uploads⟩⟩
      simp only [dispatched, h.uploads, LinkedMap.get?_insert_self, Option.map_some,
        Option.toList_some]
  | ended id error now h => exact absurd rfl (hx' id error now)
  | cancelled _ k y hy he h =>
      rcases he with rfl | ⟨now, rfl⟩ <;> cases hx

end Service

/-! ## 4. The invariant -/

def Message.uploadId : Message → Option TaskId
  | .upload id => some id
  | .cancel _ => none

/-- The uploads of an isolate, wherever they are: back, at work, in the inbox, in a microtask. -/
def places (microtasks : List SendingTask) (i : Nat) (c : UploadIsolate) : List TaskId :=
  c.results.map Prod.fst ++ (c.running ++ (c.inbox.filterMap Message.uploadId ++
    (microtasks.filter fun task => task.isolateIndex = i).map SendingTask.taskId))

/-- **In an inbox, a cancel of a task comes after its upload.** -/
def Follows (id : TaskId) : List Message → Prop
  | [] => True
  | .upload id' :: inbox => (id' = id → .cancel id ∈ inbox) ∧ Follows id inbox
  | .cancel _ :: inbox => Follows id inbox

/-- What holds of the `i`-th isolate, with the service and the microtasks of the main one. -/
structure Sane (a : SendSession.State) (microtasks : List SendingTask) (i : Nat)
    (c : UploadIsolate) : Prop where
  placed : ∀ id ∈ places microtasks i c, ∃ u, a.uploads.get? id = some u ∧
    u.action.isolateIndex = i
  once : (places microtasks i c).Nodup
  follows : ∀ id, ⟨i, id⟩ ∈ a.cancelled → Follows id c.inbox
  reached : ∀ id ∈ c.running, ⟨i, id⟩ ∈ a.cancelled → .cancel id ∈ c.inbox ∨ id ∈ c.cancelled
  tokens : ∀ id ∈ c.running, id ∈ c.cancelTokens ∨ id ∈ c.cancelled
  asked : ∀ id, .cancel id ∈ c.inbox ∨ id ∈ c.cancelled → ⟨i, id⟩ ∈ a.cancelled

/-- **The invariant.** -/
structure Tracked (s : State) : Prop where
  sound : Sound s.service
  listed : Listed s.service
  given : ∀ task ∈ s.service.cancelled, task.taskId < s.service.nextId
  waiting : ∀ task ∈ s.service.cancelled, task ∉ s.microtasks
  sane : ∀ i, Sane s.service s.microtasks i (s.isolates i)

theorem follows_append {inbox cancels : List Message} (h : Follows id inbox)
    (hcancels : cancels.filterMap Message.uploadId = []) : Follows id (inbox ++ cancels) := by
  induction inbox with
  | nil =>
      rw [List.nil_append]
      induction cancels with
      | nil => trivial
      | cons m cancels ih =>
          cases m with
          | upload id' => simp [Message.uploadId] at hcancels
          | cancel id' => exact ih (by simpa [Message.uploadId] using hcancels)
  | cons m inbox ih =>
      cases m with
      | upload id' => exact ⟨fun hid => List.mem_append_left _ (h.1 hid), ih h.2⟩
      | cancel id' => exact ih h

/-- A cancel that is sent comes after whatever was sent before it. -/
theorem follows_of_mem {inbox cancels : List Message} (h : .cancel id ∈ cancels)
    (hcancels : cancels.filterMap Message.uploadId = []) : Follows id (inbox ++ cancels) := by
  induction inbox with
  | nil =>
      have hnil : Follows id ([] : List Message) := trivial
      exact follows_append hnil hcancels
  | cons m inbox ih =>
      cases m with
      | upload id' => exact ⟨fun _ => List.mem_append_right _ h, ih⟩
      | cancel id' => exact ih

/-- The upload of another task may come last. -/
theorem follows_upload {inbox : List Message} {id' : TaskId} (h : Follows id inbox)
    (hne : id' ≠ id) : Follows id (inbox ++ [.upload id']) := by
  induction inbox with
  | nil => exact ⟨fun e => absurd e hne, trivial⟩
  | cons m inbox ih =>
      cases m with
      | upload id'' => exact ⟨fun hid => List.mem_append_left _ (h.1 hid), ih h.2⟩
      | cancel id'' => exact ih h

theorem cancelsFor_uploads (i : Nat) (tasks : List SendingTask) :
    (cancelsFor i tasks).filterMap Message.uploadId = [] := by
  simp [cancelsFor, List.filterMap_map, Message.uploadId, Function.comp_def]

theorem mem_cancelsFor {tasks : List SendingTask} :
    .cancel id ∈ cancelsFor i tasks ↔ (⟨i, id⟩ : SendingTask) ∈ tasks := by
  simp only [cancelsFor, List.mem_map, List.mem_filter, decide_eq_true_eq, Message.cancel.injEq]
  constructor
  · rintro ⟨⟨j, id'⟩, ⟨hmem, rfl⟩, rfl⟩
    exact hmem
  · intro hmem
    exact ⟨_, ⟨hmem, rfl⟩, rfl⟩

/-! ## 5. One isolate -/

section Isolate

variable {a b : SendSession.State} {microtasks : List SendingTask} {c d : UploadIsolate}
  {task : SendingTask}

/-- A step of the service that takes no upload away and cancels nothing. -/
theorem Sane.of_service (h : Sane a microtasks i c) (hcancelled : b.cancelled = a.cancelled)
    (huploads : ∀ id u, id ∈ places microtasks i c → a.uploads.get? id = some u →
      b.uploads.get? id = some u) : Sane b microtasks i c where
  placed id hid := by
    obtain ⟨u, hu, hi⟩ := h.placed id hid
    exact ⟨u, huploads id u hid hu, hi⟩
  once := h.once
  follows := hcancelled ▸ h.follows
  reached := hcancelled ▸ h.reached
  tokens := h.tokens
  asked := hcancelled ▸ h.asked

theorem places_cons_ne (hne : task.isolateIndex ≠ i) :
    places (task :: microtasks) i c = places microtasks i c := by
  simp [places, hne]

/-- Which microtasks other isolates have does not matter. -/
theorem Sane.of_places {microtasks' : List SendingTask} (h : Sane a microtasks i c)
    (hplaces : places microtasks' i c = places microtasks i c) : Sane a microtasks' i c where
  placed := hplaces ▸ h.placed
  once := hplaces ▸ h.once
  follows := h.follows
  reached := h.reached
  tokens := h.tokens
  asked := h.asked

/-- The microtask of an upload sends it. -/
theorem Sane.send (h : Sane a (task :: microtasks) task.isolateIndex c)
    (hwaiting : task ∉ a.cancelled) :
    Sane a microtasks task.isolateIndex (c.sendToIsolate [.upload task.taskId]) := by
  have hplaces : places microtasks task.isolateIndex (c.sendToIsolate [.upload task.taskId]) =
      places (task :: microtasks) task.isolateIndex c := by
    simp [places, UploadIsolate.sendToIsolate, Message.uploadId]
  refine ⟨hplaces ▸ h.placed, hplaces ▸ h.once, fun id hid => ?_, fun id hid hc => ?_, h.tokens,
    fun id hid => ?_⟩
  · refine follows_upload (h.follows id hid) fun e => hwaiting ?_
    subst e
    exact hid
  · rcases h.reached id hid hc with hin | hdone
    · exact .inl (List.mem_append_left _ hin)
    · exact .inr hdone
  · rcases hid with hin | hdone
    · rcases List.mem_append.mp hin with hin | hlast
      · exact h.asked id (.inl hin)
      · cases List.mem_singleton.mp hlast
    · exact h.asked id (.inr hdone)

/-- The isolate reads an upload: if its cancel was sent, it is still in the inbox. -/
theorem Sane.read_upload {inbox : List Message} (h : Sane a microtasks i c)
    (hinbox : c.inbox = .upload id :: inbox) :
    Sane a microtasks i { c with
      inbox := inbox
      cancelTokens := if id ∈ c.cancelTokens then c.cancelTokens else c.cancelTokens ++ [id]
      running := c.running ++ [id] } := by
  have hplaces : places microtasks i { c with
      inbox := inbox
      cancelTokens := if id ∈ c.cancelTokens then c.cancelTokens else c.cancelTokens ++ [id]
      running := c.running ++ [id] } = places microtasks i c := by
    simp [places, hinbox, Message.uploadId]
  have hfollows := h.follows
  rw [hinbox] at hfollows
  refine ⟨hplaces ▸ h.placed, hplaces ▸ h.once, fun id' hid => (hfollows id' hid).2,
    fun id' hid hc => ?_, fun id' hid => ?_, fun id' hid => ?_⟩
  · rcases List.mem_append.mp hid with hold | hnew
    · rcases h.reached id' hold hc with hin | hdone
      · rw [hinbox, List.mem_cons] at hin
        rcases hin with heq | hin
        · cases heq
        · exact .inl hin
      · exact .inr hdone
    · obtain rfl := List.mem_singleton.mp hnew
      exact .inl ((hfollows id' hc).1 rfl)
  · rcases List.mem_append.mp hid with hold | hnew
    · rcases h.tokens id' hold with htoken | hdone
      · refine .inl ?_
        split
        · exact htoken
        · exact List.mem_append_left _ htoken
      · exact .inr hdone
    · obtain rfl := List.mem_singleton.mp hnew
      refine .inl ?_
      split
      · assumption
      · exact List.mem_append_right _ (List.mem_singleton_self _)
  · rcases hid with hin | hdone
    · exact h.asked id' (.inl (hinbox ▸ List.mem_cons_of_mem _ hin))
    · exact h.asked id' (.inr hdone)

/-- An upload whose file cannot be opened is gone. -/
theorem Sane.drop_upload {inbox : List Message} (h : Sane a microtasks i c)
    (hinbox : c.inbox = .upload id :: inbox) : Sane a microtasks i { c with inbox := inbox } := by
  have hplaces : (places microtasks i { c with inbox := inbox }).Sublist
      (places microtasks i c) := by
    simp only [places, hinbox]
    exact List.Sublist.append_left (List.Sublist.append_left (List.sublist_cons_self _ _) _) _
  have hfollows := h.follows
  rw [hinbox] at hfollows
  refine ⟨fun id' hid => h.placed id' (hplaces.subset hid), h.once.sublist hplaces,
    fun id' hid => (hfollows id' hid).2, fun id' hid hc => ?_, h.tokens, fun id' hid => ?_⟩
  · rcases h.reached id' hid hc with hin | hdone
    · rw [hinbox, List.mem_cons] at hin
      rcases hin with heq | hin
      · cases heq
      · exact .inl hin
    · exact .inr hdone
  · rcases hid with hin | hdone
    · exact h.asked id' (.inl (hinbox ▸ List.mem_cons_of_mem _ hin))
    · exact h.asked id' (.inr hdone)

/-- **The isolate reads a cancel**: the token of the upload is there, or was cancelled before. -/
theorem Sane.read_cancel {inbox : List Message} (h : Sane a microtasks i c)
    (hinbox : c.inbox = .cancel id :: inbox) :
    Sane a microtasks i { c with
      inbox := inbox
      cancelTokens := c.cancelTokens.erase id
      cancelled := if id ∈ c.cancelTokens then id :: c.cancelled else c.cancelled } := by
  have hplaces : places microtasks i { c with
      inbox := inbox
      cancelTokens := c.cancelTokens.erase id
      cancelled := if id ∈ c.cancelTokens then id :: c.cancelled else c.cancelled } =
      places microtasks i c := by
    simp [places, hinbox, List.filterMap_cons, Message.uploadId]
  have hfollows := h.follows
  rw [hinbox] at hfollows
  have hold : ∀ id' ∈ c.cancelled,
      id' ∈ if id ∈ c.cancelTokens then id :: c.cancelled else c.cancelled := by
    intro id' hid
    split
    · exact List.mem_cons_of_mem _ hid
    · exact hid
  have hself : id ∈ c.running →
      id ∈ if id ∈ c.cancelTokens then id :: c.cancelled else c.cancelled := by
    intro hrunning
    split
    · exact List.mem_cons_self
    · rename_i hnone
      rcases h.tokens id hrunning with htoken | hdone
      · exact absurd htoken hnone
      · exact hdone
  refine ⟨hplaces ▸ h.placed, hplaces ▸ h.once, fun id' hid => hfollows id' hid,
    fun id' hid hc => ?_, fun id' hid => ?_, fun id' hid => ?_⟩
  · rcases h.reached id' hid hc with hin | hdone
    · rw [hinbox, List.mem_cons] at hin
      rcases hin with heq | hin
      · obtain rfl := Message.cancel.inj heq
        exact .inr (hself hid)
      · exact .inl hin
    · exact .inr (hold id' hdone)
  · by_cases heq : id' = id
    · subst heq
      exact .inr (hself hid)
    · rcases h.tokens id' hid with htoken | hdone
      · exact .inl ((List.mem_erase_of_ne heq).mpr htoken)
      · exact .inr (hold id' hdone)
  · rcases hid with hin | hdone
    · exact h.asked id' (.inl (hinbox ▸ List.mem_cons_of_mem _ hin))
    · split at hdone
      · rcases List.mem_cons.mp hdone with rfl | hdone
        · exact h.asked id' (.inl (hinbox ▸ List.mem_cons_self))
        · exact h.asked id' (.inr hdone)
      · exact h.asked id' (.inr hdone)

/-- An upload is over. -/
theorem Sane.finish {error : Option String} (h : Sane a microtasks i c) (hid : id ∈ c.running) :
    Sane a microtasks i { c with
      running := c.running.erase id
      results := c.results ++ [(id, error)] } := by
  have hplaces : (places microtasks i { c with
      running := c.running.erase id
      results := c.results ++ [(id, error)] }).Perm (places microtasks i c) := by
    simp only [places, List.map_append, List.map_cons, List.map_nil, List.append_assoc,
      List.cons_append, List.nil_append]
    refine List.Perm.append_left _ ?_
    rw [← List.cons_append]
    exact List.Perm.append_right _ (List.perm_cons_erase hid).symm
  refine ⟨fun id' hmem => h.placed id' (hplaces.subset hmem), hplaces.nodup_iff.mpr h.once,
    h.follows, fun id' hmem => h.reached id' (List.mem_of_mem_erase hmem),
    fun id' hmem => h.tokens id' (List.mem_of_mem_erase hmem), h.asked⟩

/-- A cancellation sends its cancels. -/
theorem Sane.cancel {tasks : List SendingTask} (h : Sane a microtasks i c)
    (hcancelled : b.cancelled = tasks ++ a.cancelled) (huploads : b.uploads = a.uploads) :
    Sane b microtasks i (c.sendToIsolate (cancelsFor i tasks)) := by
  have hplaces : places microtasks i (c.sendToIsolate (cancelsFor i tasks)) =
      places microtasks i c := by
    simp [places, UploadIsolate.sendToIsolate, cancelsFor_uploads]
  refine ⟨?_, hplaces ▸ h.once, fun id hid => ?_, fun id hid hc => ?_, h.tokens,
    fun id hid => ?_⟩
  · rw [huploads, hplaces]
    exact h.placed
  · rw [hcancelled] at hid
    rcases List.mem_append.mp hid with hnew | hold
    · exact follows_of_mem (mem_cancelsFor.mpr hnew) (cancelsFor_uploads _ _)
    · exact follows_append (h.follows id hold) (cancelsFor_uploads _ _)
  · rw [hcancelled] at hc
    rcases List.mem_append.mp hc with hnew | hold
    · exact .inl (List.mem_append_right _ (mem_cancelsFor.mpr hnew))
    · rcases h.reached id hid hold with hin | hdone
      · exact .inl (List.mem_append_left _ hin)
      · exact .inr hdone
  · rw [hcancelled]
    rcases hid with hin | hdone
    · rcases List.mem_append.mp hin with hin | hnew
      · exact List.mem_append_right _ (h.asked id (.inl hin))
      · exact List.mem_append_left _ (mem_cancelsFor.mp hnew)
    · exact List.mem_append_right _ (h.asked id (.inr hdone))

/-- The result of an upload is delivered, and its task is gone. -/
theorem Sane.deliver {u : Upload} {results : List (TaskId × Option String)} {error : Option String}
    (h : Sane a microtasks i c) (hu : a.uploads.get? id = some u)
    (hresults : i = u.action.isolateIndex → c.results = (id, error) :: results)
    (hcancelled : b.cancelled = a.cancelled) (huploads : b.uploads = a.uploads.erase id) :
    Sane b microtasks i (if i = u.action.isolateIndex then { c with results := results } else c) := by
  have hkept : ∀ id' u', id' ≠ id → a.uploads.get? id' = some u' →
      b.uploads.get? id' = some u' := by
    intro id' u' hne hu'
    rw [huploads, LinkedMap.get?_erase, if_neg hne, hu']
  split
  · rename_i hi
    have hplaces : places microtasks i c =
        id :: places microtasks i { c with results := results } := by
      simp [places, hresults hi]
    have honce := h.once
    rw [hplaces, List.nodup_cons] at honce
    refine ⟨fun id' hid => ?_, honce.2, hcancelled ▸ h.follows, hcancelled ▸ h.reached, h.tokens,
      hcancelled ▸ h.asked⟩
    obtain ⟨u', hu', hi'⟩ := h.placed id' (hplaces ▸ List.mem_cons_of_mem _ hid)
    exact ⟨u', hkept id' u' (fun e => honce.1 (e ▸ hid)) hu', hi'⟩
  · rename_i hi
    refine h.of_service hcancelled fun id' u' hid hu' => hkept id' u' (fun e => ?_) hu'
    subst e
    obtain ⟨u'', hu'', hi''⟩ := h.placed id' hid
    obtain rfl := Option.some.inj (hu.symm.trans hu'')
    exact hi hi''.symm

/-- The service dispatches an upload: it waits for its microtask, under a new id. -/
theorem Sane.dispatch {u : Upload} {n : TaskId} (h : Sane a microtasks i c)
    (hn : a.uploads.get? n = none) (hcancelled : b.cancelled = a.cancelled)
    (huploads : b.uploads = a.uploads.insert n u) : Sane b (microtasks ++ [u.task n]) i c := by
  have hfresh : n ∉ places microtasks i c := by
    intro hmem
    obtain ⟨u', hu', -⟩ := h.placed n hmem
    rw [hn] at hu'
    cases hu'
  have hkept : Sane b microtasks i c := by
    refine h.of_service hcancelled fun id u' hid hu' => ?_
    have hne : id ≠ n := fun e => hfresh (e ▸ hid)
    rw [huploads, LinkedMap.get?_insert_ne hne, hu']
  by_cases hi : u.action.isolateIndex = i
  · have hplaces : places (microtasks ++ [u.task n]) i c = places microtasks i c ++ [n] := by
      simp [places, SendSession.Upload.task, hi]
    refine ⟨fun id hid => ?_, ?_, hkept.follows, hkept.reached, hkept.tokens, hkept.asked⟩
    · rw [hplaces] at hid
      rcases List.mem_append.mp hid with hold | hnew
      · exact hkept.placed id hold
      · obtain rfl := List.mem_singleton.mp hnew
        exact ⟨u, by rw [huploads, LinkedMap.get?_insert_self], hi⟩
    · rw [hplaces, List.nodup_append]
      exact ⟨h.once, List.nodup_singleton n, fun id hid n' hn' => by
        obtain rfl := List.mem_singleton.mp hn'
        exact fun e => hfresh (e ▸ hid)⟩
  · refine hkept.of_places ?_
    simp [places, SendSession.Upload.task, hi]

end Isolate

/-! ## 6. One step -/

theorem initial_tracked : Tracked .initial where
  sound := SendSession.sound_initial
  listed k y hy := by cases hy
  given task htask := by cases htask
  waiting task htask := by cases htask
  sane i := by
    constructor <;> simp [places, State.initial, UploadIsolate.initial, SendSession.State.initial]

theorem ended_tracked {error : Option String} {now : Int}
    (hs : uploads.step s (.main (.uploadEnded id error now)) = some t) (h : Tracked s) :
    Tracked t := by
  change step s (.main (.uploadEnded id error now)) = some t at hs
  simp only [step, Option.bind_eq_bind, Option.bind_eq_some_iff, Option.ite_none_right_eq_some]
    at hs
  obtain ⟨u, hu, service, hservice, hhead, heq⟩ := hs
  obtain rfl := Option.some.inj heq
  have hended : SameTasks { s.service with uploads := s.service.uploads.erase id } service := by
    have hstep := hservice
    simp only [SendSession.service, SendSession.step, hu, Option.some.injEq] at hstep
    exact hstep ▸ SendSession.uploadEnded_tasks _ _ _ _ _
  refine ⟨SendSession.sound_step h.sound hservice, listed_step h.sound.known h.listed hservice, ?_,
    ?_, fun i => ?_⟩
  · rw [hended.cancelled, hended.nextId]
    exact h.given
  · rw [hended.cancelled]
    exact h.waiting
  · have hresults : i = u.action.isolateIndex →
        (s.isolates i).results = (id, error) :: (s.isolates i).results.tail := by
      rintro rfl
      cases hlist : (s.isolates u.action.isolateIndex).results with
      | nil =>
          rw [hlist] at hhead
          cases hhead
      | cons result results =>
          rw [hlist] at hhead
          obtain rfl := Option.some.inj hhead
          rfl
    have hdeliver := (h.sane i).deliver hu hresults hended.cancelled hended.uploads
    by_cases hi : i = u.action.isolateIndex
    · subst hi
      simpa [State.setIsolate] using hdeliver
    · simpa [State.setIsolate, hi] using hdeliver

/-- What a step of the service but the end of an upload is. -/
theorem main_inv {x : SendSession.Event} (hx : ∀ id error now, x ≠ .uploadEnded id error now)
    (hs : uploads.step s (.main x) = some t) :
    ∃ service, SendSession.service.step s.service x = some service ∧ t = {
      service := service
      microtasks := s.microtasks ++ dispatched s.service service
      isolates := fun i =>
        (s.isolates i).sendToIsolate (cancelsFor i (cancelling s.service x)) } := by
  change step s (.main x) = some t at hs
  cases x with
  | uploadEnded id error now => exact absurd rfl (hx id error now)
  | _ =>
      simp only [step, Option.bind_eq_bind, Option.bind_eq_some_iff] at hs
      obtain ⟨service, hservice, heq⟩ := hs
      exact ⟨service, hservice, (Option.some.inj heq).symm⟩

theorem other_tracked {x : SendSession.Event} (hx : isCancel x = false)
    (hx' : ∀ id error now, x ≠ .uploadEnded id error now)
    (hs : uploads.step s (.main x) = some t) (h : Tracked s) : Tracked t := by
  obtain ⟨service, hservice, rfl⟩ := main_inv hx' hs
  obtain ⟨hnone, hcancelled, huploads⟩ := other_tasks h.sound.known hx hx' hservice
  have hle := nextId_le (SendSession.step_tasks hservice)
  have hsame : ∀ i, (s.isolates i).sendToIsolate (cancelsFor i (cancelling s.service x)) =
      s.isolates i := by
    intro i
    simp [hnone, cancelsFor, UploadIsolate.sendToIsolate]
  refine ⟨SendSession.sound_step h.sound hservice, listed_step h.sound.known h.listed hservice, ?_,
    ?_, fun i => ?_⟩
  · rw [hcancelled]
    exact fun task htask => Nat.lt_of_lt_of_le (h.given task htask) hle
  · rw [hcancelled]
    intro task htask hmem
    rcases List.mem_append.mp hmem with hold | hnew
    · exact h.waiting task htask hold
    · rcases huploads with ⟨hnew', -⟩ | ⟨u, hnew', -⟩
      · rw [hnew'] at hnew
        cases hnew
      · rw [hnew'] at hnew
        obtain rfl := List.mem_singleton.mp hnew
        exact Nat.lt_irrefl _ (h.given _ htask)
  · change Sane service _ i ((s.isolates i).sendToIsolate _)
    rw [hsame i]
    rcases huploads with ⟨hnew, hsameUploads⟩ | ⟨u, hnew, hinsert⟩
    · rw [hnew, List.append_nil]
      exact (h.sane i).of_service hcancelled fun _ _ _ hu => hsameUploads ▸ hu
    · rw [hnew]
      exact (h.sane i).dispatch (h.sound.known.taskId _ (Nat.le_refl _)) hcancelled hinsert

theorem cancel_tracked {x : SendSession.Event} (hx : isCancel x = true)
    (hg : s.microtasks = []) (hs : uploads.step s (.main x) = some t) (h : Tracked s) :
    Tracked t := by
  have hx' : ∀ id error now, x ≠ .uploadEnded id error now := by
    rintro id error now rfl
    cases hx
  obtain ⟨service, hservice, rfl⟩ := main_inv hx' hs
  have htasks := cancel_tasks hx hservice
  have hnone : dispatched s.service service = [] := by
    simp [dispatched, htasks.uploads, h.sound.known.taskId _ (Nat.le_refl _)]
  have hlisted : ∀ task ∈ cancelling s.service x, task.taskId < s.service.nextId := by
    intro task htask
    cases x with
    | cancelSession k =>
        simp only [cancelling] at htask
        cases hsession : s.service.sessions.get? k with
        | none =>
            rw [hsession] at htask
            cases htask
        | some session =>
            rw [hsession] at htask
            exact h.listed k session hsession task htask
    | cancelSessionByReceiver k now =>
        simp only [cancelling] at htask
        cases hsession : s.service.sessions.get? k with
        | none =>
            rw [hsession] at htask
            cases htask
        | some session =>
            rw [hsession] at htask
            exact h.listed k session hsession task htask
    | _ => cases hx
  refine ⟨SendSession.sound_step h.sound hservice, listed_step h.sound.known h.listed hservice, ?_,
    ?_, fun i => ?_⟩
  · rw [htasks.cancelled, htasks.nextId]
    intro task htask
    refine Nat.lt_of_lt_of_le ?_ (Nat.le_add_right _ _)
    rcases List.mem_append.mp htask with hnew | hold
    · exact hlisted task hnew
    · exact h.given task hold
  · intro task _
    simp [hg, hnone]
  · change Sane service (s.microtasks ++ dispatched s.service service) i _
    rw [hnone, List.append_nil]
    exact (h.sane i).cancel htasks.cancelled htasks.uploads

theorem microtask_tracked (hs : uploads.step s .microtask = some t) (h : Tracked s) :
    Tracked t := by
  change step s .microtask = some t at hs
  simp only [step] at hs
  split at hs
  · cases hs
  · rename_i task microtasks hmicrotasks
    obtain rfl := Option.some.inj hs
    have hwaiting : task ∉ s.service.cancelled := fun hmem =>
      h.waiting task hmem (hmicrotasks ▸ List.mem_cons_self)
    refine ⟨h.sound, h.listed, h.given, fun task' hmem hin => ?_, fun i => ?_⟩
    · exact h.waiting task' hmem (hmicrotasks ▸ List.mem_cons_of_mem _ hin)
    · have hsane := h.sane i
      rw [hmicrotasks] at hsane
      by_cases hi : i = task.isolateIndex
      · subst hi
        simpa [State.setIsolate] using hsane.send hwaiting
      · have hother := hsane.of_places (places_cons_ne fun e => hi e.symm).symm
        simpa [State.setIsolate, hi] using hother

/-- A step of one isolate. -/
theorem setIsolate_tracked {c : UploadIsolate} (h : Tracked s)
    (hc : Sane s.service s.microtasks i c) : Tracked (s.setIsolate i c) := by
  refine ⟨h.sound, h.listed, h.given, h.waiting, fun j => ?_⟩
  by_cases hj : j = i
  · subst hj
    simpa [State.setIsolate] using hc
  · simpa [State.setIsolate, hj] using h.sane j

theorem receive_tracked {opens : Bool} (hs : uploads.step s (.receive i opens) = some t)
    (h : Tracked s) : Tracked t := by
  change step s (.receive i opens) = some t at hs
  simp only [step, Option.map_eq_some_iff] at hs
  obtain ⟨c, hread, rfl⟩ := hs
  refine setIsolate_tracked h ?_
  unfold UploadIsolate.read at hread
  split at hread
  · cases hread
  · rename_i id inbox hinbox
    obtain rfl := Option.some.inj hread
    cases opens with
    | false => exact (h.sane i).drop_upload hinbox
    | true => exact (h.sane i).read_upload hinbox
  · rename_i id inbox hinbox
    obtain rfl := Option.some.inj hread
    exact (h.sane i).read_cancel hinbox

theorem finish_tracked {error : Option String} (hs : uploads.step s (.finish i id error) = some t)
    (h : Tracked s) : Tracked t := by
  change step s (.finish i id error) = some t at hs
  simp only [step, Option.ite_none_right_eq_some] at hs
  obtain ⟨hrunning, heq⟩ := hs
  obtain rfl := Option.some.inj heq
  exact setIsolate_tracked h ((h.sane i).finish hrunning)

theorem step_tracked (hg : orderly s e) (hs : uploads.step s e = some t) (h : Tracked s) :
    Tracked t := by
  cases e with
  | main x =>
      cases hx : isCancel x with
      | true => exact cancel_tracked hx (hg hx) hs h
      | false =>
          cases x with
          | uploadEnded id error now => exact ended_tracked hs h
          | _ => exact other_tracked hx (fun _ _ _ e => by cases e) hs h
  | microtask => exact microtask_tracked hs h
  | receive i opens => exact receive_tracked hs h
  | finish i id error => exact finish_tracked hs h

/-! ## 7. Runs -/

/-- **Every cancel action reaches its upload**: in every run in which each cancellation is a turn of
    its own, whatever the workers, the isolates and the results do meanwhile, an upload that a
    cancel action was dispatched for and that is still at work has the cancel in the inbox of its
    isolate or its token is cancelled; and a token is only cancelled by a cancel action for its
    own task. -/
theorem cancelled_uploads_stop (h : uploads.Run orderly .initial es s) :
    (∀ i, ∀ id ∈ (s.isolates i).running, ⟨i, id⟩ ∈ s.service.cancelled →
      .cancel id ∈ (s.isolates i).inbox ∨ id ∈ (s.isolates i).cancelled) ∧
    ∀ i, ∀ id ∈ (s.isolates i).cancelled, ⟨i, id⟩ ∈ s.service.cancelled := by
  have htracked : Tracked s :=
    h.invariant initial_tracked fun _ _ _ htracked hg hs => step_tracked hg hs htracked
  exact ⟨fun i => (htracked.sane i).reached, fun i id hid => (htracked.sane i).asked id (.inr hid)⟩

/-- The upload of a file is at work when the user cancels the session. -/
def cancelledRun : List Event :=
  (SendSession.acceptedRun false ++ [SendSession.Event.work "S" 0]).map .main ++
    [.microtask, .receive 0 true, .main (.cancelSession "S"), .receive 0 true]

theorem cancelled_uploads_stop_cancelledRun : ∃ s,
    uploads.Run orderly .initial cancelledRun s ∧ 0 ∈ (s.isolates 0).running ∧
      0 ∈ (s.isolates 0).cancelled := by
  have hrun : ((uploads.guarded orderly).run .initial cancelledRun).map
      (fun s => ((s.isolates 0).running, (s.isolates 0).inbox, s.service.cancelled)) =
      some ([0], [], [⟨0, 0⟩]) := by decide +kernel
  obtain ⟨s, hs, hobs⟩ := Machine.run_observe_guarded hrun
  simp only [Prod.mk.injEq] at hobs
  obtain ⟨hrunning, hinbox, hcancelled⟩ := hobs
  have hid : 0 ∈ (s.isolates 0).running := by simp [hrunning]
  refine ⟨s, hs, hid, ?_⟩
  rcases (cancelled_uploads_stop hs).1 0 0 hid (by simp [hcancelled]) with hin | hdone
  · rw [hinbox] at hin
    cases hin
  · exact hdone

/-- The user cancels the session before the microtask of the upload. -/
def overtakingRun : List Event :=
  (SendSession.acceptedRun false ++
    [SendSession.Event.work "S" 0, SendSession.Event.cancelSession "S"]).map .main ++
    [.microtask, .receive 0 true, .receive 0 true]

/-- **The order is needed**: a cancel that overtakes the microtask of its upload finds no token, and
    the upload goes on. -/
theorem cancel_overtakes_microtask : ∃ s,
    uploads.Run Machine.anyStep .initial overtakingRun s ∧
      (s.isolates 0).running = [0] ∧ (s.isolates 0).inbox = [] ∧
      (s.isolates 0).cancelled = [] ∧ s.service.cancelled = [⟨0, 0⟩] := by
  have hrun : (uploads.run .initial overtakingRun).map
      (fun s => ((s.isolates 0).running, (s.isolates 0).inbox, (s.isolates 0).cancelled,
        s.service.cancelled)) = some ([0], [], [], [⟨0, 0⟩]) := by decide +kernel
  obtain ⟨s, hs, hobs⟩ := Machine.run_observe hrun
  simp only [Prod.mk.injEq] at hobs
  exact ⟨s, hs, hobs⟩

/-- And no session is closed under a running upload. -/
def orderlyTidy (s : State) : Event → Prop
  | .main x => orderly s (.main x) ∧ tidy s.service x
  | .microtask | .receive _ _ | .finish _ _ _ => True

instance (s : State) : (e : Event) → Decidable (orderlyTidy s e)
  | .main _ => inferInstanceAs (Decidable (_ ∧ _))
  | .microtask | .receive _ _ | .finish _ _ _ => .isTrue trivial

theorem orderly_of_tidy (h : orderlyTidy s e) : orderly s e := by
  cases e with
  | main x => exact h.1
  | microtask | receive | finish => trivial

theorem step_owned (htracked : Tracked s) (hg : orderlyTidy s e)
    (hs : uploads.step s e = some t) (h : Owned s.service) : Owned t.service := by
  cases e with
  | main x =>
      have hservice : SendSession.service.step s.service x = some t.service := by
        change step s (.main x) = some t at hs
        cases x with
        | uploadEnded id error now =>
            simp only [step, Option.bind_eq_bind, Option.bind_eq_some_iff,
              Option.ite_none_right_eq_some] at hs
            obtain ⟨u, hu, service, hservice, -, heq⟩ := hs
            obtain rfl := Option.some.inj heq
            exact hservice
        | _ =>
            simp only [step, Option.bind_eq_bind, Option.bind_eq_some_iff] at hs
            obtain ⟨service, hservice, heq⟩ := hs
            obtain rfl := Option.some.inj heq
            exact hservice
      exact SendSession.owned_step htracked.sound h hg.2 hservice
  | microtask =>
      change step s .microtask = some t at hs
      simp only [step] at hs
      split at hs
      · cases hs
      · obtain rfl := Option.some.inj hs
        exact h
  | receive i opens =>
      change step s (.receive i opens) = some t at hs
      simp only [step, Option.map_eq_some_iff] at hs
      obtain ⟨c, -, rfl⟩ := hs
      exact h
  | finish i id error =>
      change step s (.finish i id error) = some t at hs
      simp only [step, Option.ite_none_right_eq_some] at hs
      obtain ⟨-, heq⟩ := hs
      obtain rfl := Option.some.inj heq
      exact h

/-- **No upload goes on without a session that lists it**: in such runs, if no session is closed
    under a running upload either, every upload at work in an isolate is listed by a session that
    is there, or its cancel is on the way, or its token is cancelled. -/
theorem running_uploads_owned (h : uploads.Run orderlyTidy .initial es s) :
    ∀ i, ∀ id ∈ (s.isolates i).running,
      (∃ k session, s.service.sessions.get? k = some session ∧
        (⟨i, id⟩ : SendingTask) ∈ session.sendingTasks) ∨
      .cancel id ∈ (s.isolates i).inbox ∨ id ∈ (s.isolates i).cancelled := by
  have hboth : Tracked s ∧ Owned s.service :=
    h.invariant (I := fun s => Tracked s ∧ Owned s.service)
      ⟨initial_tracked, SendSession.owned_initial⟩
      fun _ _ _ hI hg hs => ⟨step_tracked (orderly_of_tidy hg) hs hI.1, step_owned hI.1 hg hs hI.2⟩
  obtain ⟨htracked, howned⟩ := hboth
  intro i id hid
  have hplace : id ∈ places s.microtasks i (s.isolates i) :=
    List.mem_append_right _ (List.mem_append_left _ hid)
  obtain ⟨u, hu, rfl⟩ := (htracked.sane i).placed id hplace
  by_cases hcancelled : u.task id ∈ s.service.cancelled
  · exact .inr ((htracked.sane _).reached id hid hcancelled)
  · obtain ⟨session, hsession, hlisted⟩ := howned id u hu hcancelled
    exact .inl ⟨_, session, hsession, hlisted⟩

theorem running_uploads_owned_cancelledRun : ∃ s,
    uploads.Run orderlyTidy .initial cancelledRun s ∧ 0 ∈ (s.isolates 0).running ∧
      0 ∈ (s.isolates 0).cancelled := by
  have hrun : ((uploads.guarded orderlyTidy).run .initial cancelledRun).map
      (fun s => ((s.isolates 0).running, (s.isolates 0).inbox, s.service.sessions.keys)) =
      some ([0], [], []) := by decide +kernel
  obtain ⟨s, hs, hobs⟩ := Machine.run_observe_guarded hrun
  simp only [Prod.mk.injEq] at hobs
  obtain ⟨hrunning, hinbox, hkeys⟩ := hobs
  have hid : 0 ∈ (s.isolates 0).running := by simp [hrunning]
  refine ⟨s, hs, hid, ?_⟩
  rcases running_uploads_owned hs 0 0 hid with ⟨k, session, hsession, -⟩ | hin | hdone
  · have hkey : k ∈ s.service.sessions.keys :=
      LinkedMap.mem_keys.mpr ⟨session, hsession⟩
    rw [hkeys] at hkey
    cases hkey
  · rw [hinbox] at hin
    cases hin
  · exact hdone

end LocalSend.UploadCancel
