/-
  File:      LocalSend/Discovery/Scan.lean
  Subject:   SCANNING BY HTTP: `StartLegacyScan` and `StartFavoriteScan` of
             `nearby_devices_provider.dart`, with `HttpScanDiscoveryService` in the child isolate.

  The parent notes that a scan runs, sends its task to the child, and registers every device that
  comes back, one after another; the child asks all the addresses of a task with a `TaskRunner`.

  * `HttpScanTask.targets` -- the addresses a task asks; `HttpScanTask.device` -- what an answer is;
  * `Scan.stream` -- what the child sends back, in order (`Isolates.Demux`);
  * `step`, `scanner` -- the parent's actions, the child, and the answers of the network; a
    registration can fail (`.failed`), which ends the action and leaves its scan noted; `Step` --
    what a step does, as a relation;
  * `Flagged` -- **the running scans are noted**: `flagged_startLegacyScan`,
    `flagged_startFavoriteScan` and `flagged_finishScan` for the steps that start or end one.

  The isolates are set up. A favorite whose alias a registration updates is left to
  `Persistence.Favorites`; that its write can throw is what makes a registration fail.
-/
import LocalSend.Common.TaskRunner
import LocalSend.Server.WebSend
import LocalSend.Signaling.AllDevices
import LocalSend.Signaling.IpGroup

namespace LocalSend.HttpScan

open Lib
open Signaling (LanDevice NearbyDevicesState decimal)
open WebSend (InfoDto)
open TaskRunner (TaskId)

/-! ## 1. Tasks -/

def fallbackProtocolVersion : String := "1.0"

/-- `InfoToDeviceExt.toDevice`. -/
def toDevice (dto : InfoDto) (ip : String) (port : Int) (https : Bool) (method : DiscoveryMethod) :
    LanDevice where
  device := {
    signalingId := none
    ip := some ip
    version := dto.version.getD fallbackProtocolVersion
    port := port
    https := https
    fingerprint := dto.fingerprint.getD ""
    aliasName := dto.aliasName
    deviceModel := dto.deviceModel
    deviceType := dto.deviceType.getD .desktop
    download := dto.download.getD false
    discoveryMethods := [method] }
  ip := ip
  ip_eq := rfl
  signalingId_eq := rfl

/-- The first three parts of an address, joined again. -/
def subnet (networkInterface : String) : String :=
  String.ofList (['.'].intercalate ((networkInterface.toList.splitOn '.').take 3))

/-- The `ipList` of `getStream`. -/
def ipList (networkInterface : String) : List String :=
  ((List.range 256).map fun i => subnet networkInterface ++ "." ++ decimal i).filter
    (· ≠ networkInterface)

inductive HttpScanTask where
  | interface (networkInterface : String) (port : Int) (https : Bool)
  | favorite (favorites : List (String × Int)) (https : Bool)
  deriving DecidableEq, Repr

/-- The addresses and ports of the requests, in the order of the initial tasks. -/
def HttpScanTask.targets : HttpScanTask → List (String × Int)
  | .interface networkInterface port _ => (ipList networkInterface).map fun ip => (ip, port)
  | .favorite favorites _ => favorites

def HttpScanTask.https : HttpScanTask → Bool
  | .interface _ _ https => https
  | .favorite _ https => https

/-- What `_doRequest` makes of the answer to a request; `none` is an error of any kind. -/
def HttpScanTask.device (task : HttpScanTask) (request : TaskId) (dto : Option InfoDto) :
    Option LanDevice :=
  task.targets[request]?.bind fun target =>
    dto.map fun dto => toDevice dto target.1 target.2 task.https (.http target.1)

/-- The interface that is scanned. -/
def HttpScanTask.localIp? : HttpScanTask → Option String
  | .interface networkInterface _ _ => some networkInterface
  | .favorite _ _ => none

/-! ## 2. The two isolates -/

/-- `concurrency`. -/
def concurrency : Nat := 50

/-- The runner of a task, with one initial task for each address. -/
def HttpScanTask.runner (task : HttpScanTask) : TaskRunner.State (Option LanDevice) :=
  TaskRunner.init concurrency (some (List.range task.targets.length)) none

/-- What the stream of a runner passes on: the devices, then its end. -/
def streamed : TaskRunner.Output (Option LanDevice) → Option (Option LanDevice)
  | .add (some device) => some (some device)
  | .close => some none
  | .add none | .addFailed _ | .start _ | .finish => none

/-- A run of one of the two actions, past its check. -/
structure Scan where
  task : HttpScanTask
  /-- once the child has the task -/
  runner : Option (TaskRunner.State (Option LanDevice))
  /-- how much of the stream the loop has taken -/
  heard : Nat
  /-- the device whose registration the loop awaits -/
  registering : Option LanDevice
  /-- the device whose registration has failed: the action has thrown -/
  lost : Option LanDevice
  /-- the action has returned -/
  returned : Bool

/-- What the child sends back for the task. -/
def Scan.stream (scan : Scan) : List (Option LanDevice) :=
  match scan.runner with
  | some runner => runner.log.filterMap streamed
  | none => []

structure State where
  nearby : NearbyDevicesState
  runningIps : List String
  runningFavoriteScan : Bool
  scans : List Scan
  /-- `_runners` of the child: the last scan of each interface -/
  runners : LinkedMap String Nat

def State.initial : State := ⟨.init, [], false, [], .empty⟩

/-- The scan's task is on its way to the child. -/
def Scan.start (task : HttpScanTask) : Scan := ⟨task, none, 0, none, none, false⟩

/-- `stop` on the runner of a scan. -/
def Scan.stop (scan : Scan) : Scan := { scan with runner := scan.runner.map TaskRunner.stop }

/-- `StartLegacyScan.reduce` up to its loop; nothing happens if the interface is being scanned. -/
def startLegacyScan (s : State) (port : Int) (localIp : String) (https : Bool) : State :=
  if localIp ∈ s.runningIps then s
  else { s with
    runningIps := s.runningIps ++ [localIp]
    scans := s.scans ++ [.start (.interface localIp port https)] }

/-- `StartFavoriteScan.reduce` up to its loop. -/
def startFavoriteScan (s : State) (devices : List (String × Int)) (https : Bool) : State :=
  if devices = [] then s
  else { s with
    runningFavoriteScan := true
    scans := s.scans ++ [.start (.favorite devices https)] }

/-- `getStream` and `getFavoriteStream`: the last scan of the interface is stopped, and a runner is
    created. -/
def takeTask (s : State) (i : Nat) (scan : Scan) : State :=
  match scan.task.localIp? with
  | some localIp =>
    let scans := match s.runners.get? localIp with
      | some j => s.scans.modify j Scan.stop
      | none => s.scans
    { s with
      scans := scans.set i { scan with runner := some scan.task.runner }
      runners := s.runners.insert localIp i }
  | none => { s with scans := s.scans.set i { scan with runner := some scan.task.runner } }

/-- The last lines of the two actions. -/
def finishScan (s : State) (i : Nat) (scan : Scan) : State :=
  let scans := s.scans.set i { scan with heard := scan.heard + 1, returned := true }
  match scan.task.localIp? with
  | some localIp => { s with scans := scans, runningIps := s.runningIps.filter (· ≠ localIp) }
  | none => { s with scans := scans, runningFavoriteScan := false }

inductive Event where
  | startLegacyScan (port : Int) (localIp : String) (https : Bool)
  | startFavoriteScan (devices : List (String × Int)) (https : Bool)
  /-- the child takes the task of the `i`-th scan -/
  | take (i : Nat)
  /-- a request of the `i`-th scan is over -/
  | answer (i : Nat) (request : TaskId) (dto : Option InfoDto)
  /-- the loop of the `i`-th scan takes what its stream has next -/
  | next (i : Nat)
  /-- the registration the `i`-th scan awaits is done -/
  | registered (i : Nat)
  /-- it fails, and the action throws -/
  | failed (i : Nat)
  /-- a device is registered by someone else -/
  | register (device : LanDevice)
  | clearFoundDevices

def step (s : State) : Event → Option State
  | .startLegacyScan port localIp https => some (startLegacyScan s port localIp https)
  | .startFavoriteScan devices https => some (startFavoriteScan s devices https)
  | .take i => do
    let scan ← s.scans[i]?
    if scan.runner.isNone then some (takeTask s i scan) else none
  | .answer i request dto => do
    let scan ← s.scans[i]?
    let runner ← scan.runner
    let runner ← TaskRunner.step concurrency runner
      (.complete request (scan.task.device request dto))
    some { s with scans := s.scans.set i { scan with runner := some runner } }
  | .next i => do
    let scan ← s.scans[i]?
    if scan.registering.isNone ∧ scan.lost.isNone ∧ scan.returned = false then
      match ← scan.stream[scan.heard]? with
      | some device =>
        some { s with
          scans :=
            s.scans.set i { scan with heard := scan.heard + 1, registering := some device } }
      | none => some (finishScan s i scan)
    else none
  | .registered i => do
    let scan ← s.scans[i]?
    let device ← scan.registering
    some { s with
      nearby := s.nearby.registerDevice device
      scans := s.scans.set i { scan with registering := none } }
  | .failed i => do
    -- neither `runningIps` nor `runningFavoriteScan` is set back
    let scan ← s.scans[i]?
    let device ← scan.registering
    some { s with
      scans := s.scans.set i { scan with registering := none, lost := some device } }
  | .register device => some { s with nearby := s.nearby.registerDevice device }
  | .clearFoundDevices => some { s with nearby := s.nearby.clearFoundDevices }

/-- **The scans of the app.** -/
def scanner : Machine State Event := ⟨step⟩

/-- **What a step of the scans does.** -/
inductive Step (s : State) : Event → State → Prop where
  | startLegacyScan (port : Int) (localIp : String) (https : Bool) :
      Step s (.startLegacyScan port localIp https) (startLegacyScan s port localIp https)
  | startFavoriteScan (devices : List (String × Int)) (https : Bool) :
      Step s (.startFavoriteScan devices https) (startFavoriteScan s devices https)
  | take (i : Nat) (scan : Scan) (hi : s.scans[i]? = some scan) (hrunner : scan.runner = none) :
      Step s (.take i) (takeTask s i scan)
  | answer (i : Nat) (request : TaskId) (dto : Option InfoDto) (scan : Scan)
      (runner runner' : TaskRunner.State (Option LanDevice)) (hi : s.scans[i]? = some scan)
      (hrunner : scan.runner = some runner)
      (hanswer : TaskRunner.step concurrency runner
        (.complete request (scan.task.device request dto)) = some runner') :
      Step s (.answer i request dto)
        { s with scans := s.scans.set i { scan with runner := some runner' } }
  | next (i : Nat) (scan : Scan) (device : LanDevice) (hi : s.scans[i]? = some scan)
      (hidle : scan.registering = none ∧ scan.lost = none) (hover : scan.returned = false)
      (hnext : scan.stream[scan.heard]? = some (some device)) :
      Step s (.next i) { s with
        scans := s.scans.set i { scan with heard := scan.heard + 1, registering := some device } }
  | finish (i : Nat) (scan : Scan) (hi : s.scans[i]? = some scan)
      (hidle : scan.registering = none ∧ scan.lost = none) (hover : scan.returned = false)
      (hnext : scan.stream[scan.heard]? = some none) :
      Step s (.next i) (finishScan s i scan)
  | registered (i : Nat) (scan : Scan) (device : LanDevice) (hi : s.scans[i]? = some scan)
      (hdevice : scan.registering = some device) :
      Step s (.registered i) { s with
        nearby := s.nearby.registerDevice device
        scans := s.scans.set i { scan with registering := none } }
  | failed (i : Nat) (scan : Scan) (device : LanDevice) (hi : s.scans[i]? = some scan)
      (hdevice : scan.registering = some device) :
      Step s (.failed i) { s with
        scans := s.scans.set i { scan with registering := none, lost := some device } }
  | register (device : LanDevice) :
      Step s (.register device) { s with nearby := s.nearby.registerDevice device }
  | clearFoundDevices :
      Step s .clearFoundDevices { s with nearby := s.nearby.clearFoundDevices }

theorem step_inv {s t : State} {e : Event} (hs : scanner.step s e = some t) : Step s e t := by
  change step s e = some t at hs
  cases e with
  | startLegacyScan port localIp https =>
      obtain rfl := Option.some.inj hs
      exact .startLegacyScan port localIp https
  | startFavoriteScan devices https =>
      obtain rfl := Option.some.inj hs
      exact .startFavoriteScan devices https
  | take i =>
      simp only [step, Option.bind_eq_bind, Option.bind_eq_some_iff, Option.ite_none_right_eq_some]
        at hs
      obtain ⟨scan, hi, hrunner, hs⟩ := hs
      obtain rfl := Option.some.inj hs
      exact .take i scan hi (Option.isNone_iff_eq_none.mp hrunner)
  | answer i request dto =>
      simp only [step, Option.bind_eq_bind, Option.bind_eq_some_iff] at hs
      obtain ⟨scan, hi, runner, hrunner, runner', hanswer, hs⟩ := hs
      obtain rfl := Option.some.inj hs
      exact .answer i request dto scan runner runner' hi hrunner hanswer
  | next i =>
      simp only [step, Option.bind_eq_bind, Option.bind_eq_some_iff, Option.ite_none_right_eq_some]
        at hs
      obtain ⟨scan, hi, ⟨hregistering, hlost, hover⟩, next, hnext, hs⟩ := hs
      have hidle : scan.registering = none ∧ scan.lost = none :=
        ⟨Option.isNone_iff_eq_none.mp hregistering, Option.isNone_iff_eq_none.mp hlost⟩
      cases next with
      | some device =>
          obtain rfl := Option.some.inj hs
          exact .next i scan device hi hidle hover hnext
      | none =>
          obtain rfl := Option.some.inj hs
          exact .finish i scan hi hidle hover hnext
  | registered i =>
      simp only [step, Option.bind_eq_bind, Option.bind_eq_some_iff] at hs
      obtain ⟨scan, hi, device, hdevice, hs⟩ := hs
      obtain rfl := Option.some.inj hs
      exact .registered i scan device hi hdevice
  | failed i =>
      simp only [step, Option.bind_eq_bind, Option.bind_eq_some_iff] at hs
      obtain ⟨scan, hi, device, hdevice, hs⟩ := hs
      obtain rfl := Option.some.inj hs
      exact .failed i scan device hi hdevice
  | register device =>
      obtain rfl := Option.some.inj hs
      exact .register device
  | clearFoundDevices =>
      obtain rfl := Option.some.inj hs
      exact .clearFoundDevices

/-! ## 3. The scans that are noted -/

section Flags

variable {s t : State} {e : Event} {i j : Nat} {ip : String} {scan : Scan}

/-- The tasks, and which of the scans are over. -/
def State.views (s : State) : List (HttpScanTask × Bool) :=
  s.scans.map fun scan => (scan.task, scan.returned)

/-- The `i`-th scan, over the interface `ip`, has not returned: it runs, or has broken off. -/
def Scans (s : State) (i : Nat) (ip : String) : Prop :=
  ∃ task, s.views[i]? = some (task, false) ∧ task.localIp? = some ip

/-- The `i`-th scan, over favorites, has not returned. -/
def ScansFavorites (s : State) (i : Nat) : Prop :=
  ∃ task, s.views[i]? = some (task, false) ∧ task.localIp? = none

/-- The `i`-th scan, over the interface `ip`, has broken off: a registration has failed. -/
def BrokenOff (s : State) (i : Nat) (ip : String) : Prop :=
  ∃ scan, s.scans[i]? = some scan ∧ scan.task.localIp? = some ip ∧ scan.lost ≠ none

/-- **What the parent has noted is what has not returned**, and what the child has noted are scans
    it has taken. -/
structure Flagged (s : State) : Prop where
  nodup : s.runningIps.Nodup
  mem : ∀ ip, ip ∈ s.runningIps ↔ ∃ i, Scans s i ip
  once : ∀ ip i j, Scans s i ip → Scans s j ip → i = j
  favorite : s.runningFavoriteScan = true → ∃ i, ScansFavorites s i
  taken : ∀ ip j, s.runners.get? ip = some j → ∃ scan, s.scans[j]? = some scan ∧
    scan.task.localIp? = some ip ∧ scan.runner ≠ none

theorem views_getElem? (h : s.scans[i]? = some scan) : s.views[i]? = some (scan.task, scan.returned) := by
  simp [State.views, h]

theorem set_of_getElem? {α : Type} {l : List α} {a : α} (h : l[i]? = some a) : l.set i a = l := by
  obtain ⟨hi, rfl⟩ := List.getElem?_eq_some_iff.mp h
  exact List.set_getElem_self hi

theorem views_set {scan' : Scan} (h : s.scans[i]? = some scan) (htask : scan'.task = scan.task)
    (hover : scan'.returned = scan.returned) :
    (s.scans.set i scan').map (fun scan => (scan.task, scan.returned)) = s.views := by
  rw [List.map_set, htask, hover]
  exact set_of_getElem? (views_getElem? h)

/-- What the running scans are after a new one. -/
theorem scans_append {task : HttpScanTask} (h : t.views = s.views ++ [(task, false)]) :
    Scans t i ip ↔ Scans s i ip ∨ i = s.views.length ∧ task.localIp? = some ip := by
  simp only [Scans, h]
  rcases Nat.lt_trichotomy i s.views.length with hi | rfl | hi
  · simp [List.getElem?_append_left hi, Nat.ne_of_lt hi]
  · simp
  · have hnone : s.views[i]? = none := List.getElem?_eq_none (Nat.le_of_lt hi)
    have hnone' : (s.views ++ [(task, false)])[i]? = none := List.getElem?_eq_none (by simp; omega)
    simp [hnone, hnone', Nat.ne_of_gt hi]

/-- What they are after the end of one. -/
theorem scans_set {task : HttpScanTask} (hi : s.views[i]? = some (task, false))
    (h : t.views = s.views.set i (task, true)) : Scans t j ip ↔ Scans s j ip ∧ j ≠ i := by
  obtain ⟨hlt, _⟩ := List.getElem?_eq_some_iff.mp hi
  simp only [Scans, h]
  by_cases hj : j = i
  · subst hj
    simp [List.getElem?_set_self hlt]
  · simp [List.getElem?_set_ne (Ne.symm hj), hj]

theorem flagged_initial : Flagged .initial where
  nodup := List.nodup_nil
  mem ip := by simp [State.initial, Scans, State.views]
  once ip i j hi := by simp [State.initial, Scans, State.views] at hi
  favorite h := nomatch h
  taken ip j h := nomatch h

/-- A step that starts and ends no scan. -/
theorem Flagged.of_same (h : Flagged s) (hviews : t.views = s.views)
    (hips : t.runningIps = s.runningIps) (hflag : t.runningFavoriteScan = s.runningFavoriteScan)
    (htaken : ∀ ip j, t.runners.get? ip = some j → ∃ scan, t.scans[j]? = some scan ∧
      scan.task.localIp? = some ip ∧ scan.runner ≠ none) : Flagged t where
  nodup := hips ▸ h.nodup
  mem ip := by
    rw [hips, h.mem ip]
    simp only [Scans, hviews]
  once ip i j := by
    simp only [Scans, hviews]
    exact h.once ip i j
  favorite hfavorite := by
    rw [hflag] at hfavorite
    obtain ⟨i, hi⟩ := h.favorite hfavorite
    refine ⟨i, ?_⟩
    simpa only [ScansFavorites, hviews] using hi
  taken := htaken

/-- The start of a scan keeps what the child has noted. -/
theorem Flagged.taken_append (h : Flagged s) (ht : t.scans = s.scans ++ [scan])
    (hrunners : t.runners = s.runners) : ∀ ip j, t.runners.get? ip = some j →
      ∃ scan, t.scans[j]? = some scan ∧ scan.task.localIp? = some ip ∧ scan.runner ≠ none := by
  intro ip j hj
  rw [hrunners] at hj
  obtain ⟨old, hold, hrest⟩ := h.taken ip j hj
  refine ⟨old, ?_, hrest⟩
  rw [ht, List.getElem?_append_left (List.getElem?_eq_some_iff.mp hold).1]
  exact hold

theorem flagged_startLegacyScan (h : Flagged s) (port : Int) (localIp : String) (https : Bool) :
    Flagged (startLegacyScan s port localIp https) := by
  unfold startLegacyScan
  split
  · exact h
  · rename_i hnew
    have hviews : ({ s with
        runningIps := s.runningIps ++ [localIp]
        scans := s.scans ++ [.start (.interface localIp port https)] } : State).views =
        s.views ++ [(.interface localIp port https, false)] := List.map_append
    refine ⟨?_, fun ip => ?_, fun ip i j hi hj => ?_, fun hflag => ?_, h.taken_append rfl rfl⟩
    · exact List.nodup_append.mpr ⟨h.nodup, List.nodup_singleton _, fun a ha b hb hab =>
        hnew (List.mem_singleton.mp hb ▸ hab ▸ ha)⟩
    · simp only [scans_append hviews, List.mem_append, h.mem, List.mem_singleton,
        HttpScanTask.localIp?, Option.some.injEq, exists_or]
      simp [eq_comm]
    · -- a new scan is the only one of its interface
      have hfresh : ∀ k, ¬ Scans s k localIp := fun k hk => hnew ((h.mem _).mpr ⟨k, hk⟩)
      simp only [scans_append hviews, HttpScanTask.localIp?, Option.some.injEq] at hi hj
      rcases hi with hi | ⟨rfl, rfl⟩ <;> rcases hj with hj | ⟨rfl, hj⟩
      · exact h.once ip i j hi hj
      · exact absurd (hj ▸ hi) (hfresh i)
      · exact absurd hj (hfresh j)
      · rfl
    · obtain ⟨i, task, hi, htask⟩ := h.favorite hflag
      refine ⟨i, task, ?_, htask⟩
      rw [hviews, List.getElem?_append_left (List.getElem?_eq_some_iff.mp hi).1]
      exact hi

theorem flagged_startFavoriteScan (h : Flagged s) (devices : List (String × Int)) (https : Bool) :
    Flagged (startFavoriteScan s devices https) := by
  unfold startFavoriteScan
  split
  · exact h
  · have hviews : ({ s with
        runningFavoriteScan := true
        scans := s.scans ++ [.start (.favorite devices https)] } : State).views =
        s.views ++ [(.favorite devices https, false)] := List.map_append
    have hscans : ∀ i ip, Scans ({ s with
        runningFavoriteScan := true
        scans := s.scans ++ [.start (.favorite devices https)] } : State) i ip ↔ Scans s i ip := by
      intro i ip
      simp [scans_append hviews, HttpScanTask.localIp?]
    refine ⟨h.nodup, fun ip => ?_, fun ip i j hi hj => ?_, fun _ => ?_, h.taken_append rfl rfl⟩
    · simp only [hscans]
      exact h.mem ip
    · exact h.once ip i j ((hscans i ip).mp hi) ((hscans j ip).mp hj)
    · refine ⟨s.views.length, .favorite devices https, ?_, rfl⟩
      rw [hviews]
      simp

/-- The end of the `i`-th scan. -/
theorem flagged_finishScan (h : Flagged s) (hi : s.scans[i]? = some scan)
    (hover : scan.returned = false) (hrunner : scan.runner ≠ none) :
    Flagged (finishScan s i scan) := by
  have hview : s.views[i]? = some (scan.task, false) := hover ▸ views_getElem? hi
  have htaken : ∀ ip j, s.runners.get? ip = some j → ∃ scan',
      (s.scans.set i { scan with heard := scan.heard + 1, returned := true })[j]? = some scan' ∧
        scan'.task.localIp? = some ip ∧ scan'.runner ≠ none := by
    intro ip j hj
    obtain ⟨old, hold, htask, hold'⟩ := h.taken ip j hj
    by_cases hji : j = i
    · subst hji
      obtain rfl := Option.some.inj (hold.symm.trans hi)
      exact ⟨_, List.getElem?_set_self (List.getElem?_eq_some_iff.mp hi).1, htask, hold'⟩
    · exact ⟨old, by rwa [List.getElem?_set_ne (Ne.symm hji)], htask, hold'⟩
  have hviews : ∀ u : State,
      u.scans = s.scans.set i { scan with heard := scan.heard + 1, returned := true } →
        u.views = s.views.set i (scan.task, true) := by
    intro u hu
    rw [State.views, hu, List.map_set]
    rfl
  unfold finishScan
  split
  · rename_i localIp hlocal
    have hscans : ∀ j ip, Scans ({ s with
        scans := s.scans.set i { scan with heard := scan.heard + 1, returned := true }
        runningIps := s.runningIps.filter (· ≠ localIp) } : State) j ip ↔
          Scans s j ip ∧ j ≠ i := fun j ip => scans_set hview (hviews _ rfl)
    refine ⟨h.nodup.filter _, fun ip => ?_, fun ip j k hj hk => ?_, fun hflag => ?_, htaken⟩
    · simp only [hscans, List.mem_filter, h.mem, decide_eq_true_eq]
      constructor
      · intro hip
        obtain ⟨⟨j, hj⟩, hne⟩ := hip
        refine ⟨j, hj, fun hji => hne ?_⟩
        subst hji
        obtain ⟨task, htask, hip⟩ := hj
        rw [hview, Option.some.injEq, Prod.mk.injEq] at htask
        rw [← htask.1, hlocal] at hip
        exact (Option.some.inj hip).symm
      · intro hip
        obtain ⟨j, hj, hji⟩ := hip
        refine ⟨⟨j, hj⟩, fun heq => hji (h.once ip j i hj ⟨scan.task, hview, ?_⟩)⟩
        rw [hlocal, heq]
    · exact h.once ip j k ((hscans j ip).mp hj).1 ((hscans k ip).mp hk).1
    · obtain ⟨j, task, hj, htask⟩ := h.favorite hflag
      have hji : j ≠ i := by
        rintro rfl
        rw [hview, Option.some.injEq, Prod.mk.injEq] at hj
        rw [← hj.1, hlocal] at htask
        cases htask
      refine ⟨j, task, ?_, htask⟩
      rw [hviews _ rfl, List.getElem?_set_ne (Ne.symm hji)]
      exact hj
  · rename_i hlocal
    have hscans : ∀ j ip, Scans ({ s with
        scans := s.scans.set i { scan with heard := scan.heard + 1, returned := true }
        runningFavoriteScan := false } : State) j ip ↔ Scans s j ip := by
      intro j ip
      rw [scans_set hview (hviews _ rfl)]
      refine ⟨fun hj => hj.1, fun hj => ⟨hj, ?_⟩⟩
      rintro rfl
      obtain ⟨task, htask, hip⟩ := hj
      rw [hview, Option.some.injEq, Prod.mk.injEq] at htask
      rw [← htask.1, hlocal] at hip
      cases hip
    refine ⟨h.nodup, fun ip => ?_, fun ip j k hj hk => ?_,
      fun hflag => absurd hflag Bool.false_ne_true, htaken⟩
    · simp only [hscans]
      exact h.mem ip
    · exact h.once ip j k ((hscans j ip).mp hj) ((hscans k ip).mp hk)

end Flags

end LocalSend.HttpScan
