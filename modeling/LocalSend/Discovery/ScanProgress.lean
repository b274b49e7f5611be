/-
  File:      LocalSend/Discovery/ScanProgress.lean
  Subject:   WHAT A SCAN FINDS, over all interleavings of scans, answers and registrations.

  * `answersOf`, `registeredBy` -- the answers to a scan in a run, and the devices it registered;
  * `Progress` -- **what a scan has done**; one lemma for each step of the scan;
  * `Followed`, `followed_step`, `followed_run` -- the invariant of all scans. The child stops the
    last scan of an interface when it takes a new one: that scan is over (`Followed.takeTask`);
  * `brokenOff_step`, `brokenOff_run` -- a scan whose registration has failed stays as it is;
  * **`running_ips_exact`** -- the parent knows which scans have not returned, and an interface
    whose scan has broken off is never scanned again;
  * **`scan_uncut`** -- no scan is cut short; `unanswered_returns` -- one that nobody answers
    returns; **`scan_complete`** -- a scan that has returned has asked every address once;
    **`scan_shown`** -- and what it found is shown.
-/
import LocalSend.Discovery.Scan

namespace LocalSend.HttpScan

open Lib
open Signaling (LanDevice NearbyDevicesState decimal)
open WebSend (InfoDto)
open TaskRunner (TaskId)

/-! ## 1. What a scan has done -/

/-- The answer an event gives to the `i`-th scan. -/
def answered (i : Nat) : Event → List (TaskId × Option InfoDto)
  | .answer j request dto => if j = i then [(request, dto)] else []
  | _ => []

/-- **The answers to the `i`-th scan**, in their order. -/
def answersOf (i : Nat) (es : List Event) : List (TaskId × Option InfoDto) := es.flatMap (answered i)

/-- The device a step registers for the `i`-th scan. -/
def installs (i : Nat) (s : State) : Event → List LanDevice
  | .registered j => if j = i then (s.scans[i]?.bind Scan.registering).toList else []
  | _ => []

/-- The completions of the runner. -/
def HttpScanTask.completions (task : HttpScanTask) (answers : List (TaskId × Option InfoDto)) :
    List (TaskId × Option LanDevice) :=
  answers.map fun answer => (answer.1, task.device answer.1 answer.2)

/-- The devices that answered. -/
def HttpScanTask.found (task : HttpScanTask) (answers : List (TaskId × Option InfoDto)) :
    List LanDevice :=
  answers.filterMap fun answer => task.device answer.1 answer.2

/-- The runner as it is without a stop. -/
def unstopped (runner : TaskRunner.State (Option LanDevice)) :
    TaskRunner.State (Option LanDevice) :=
  { runner with stopped := false }

/-- **The progress of a scan** after these answers and these registrations: the runner has the
    tasks in hand, and was stopped at most after the last of them; what the loop has taken is
    registered, but for the device it is at or has failed at. -/
structure Progress (answers : List (TaskId × Option InfoDto)) (registered : List LanDevice)
    (scan : Scan) : Prop where
  targets : scan.task.targets ≠ []
  waiting : scan.runner = none → answers = []
  working : ∀ runner, scan.runner = some runner →
    TaskRunner.Working concurrency scan.task.targets.length (scan.task.completions answers)
      (unstopped runner) ∧ (runner.stopped = true → answers.length = scan.task.targets.length)
  handed : registered ++ scan.registering.toList ++ scan.lost.toList =
    (scan.task.found answers).take scan.heard
  alone : scan.registering ≠ none → scan.lost = none
  heard_le : scan.returned = false → scan.heard ≤ (scan.task.found answers).length
  ended : scan.returned = true → scan.runner ≠ none ∧ (scan.registering = none ∧ scan.lost = none) ∧
    answers.length = scan.task.targets.length ∧ (scan.task.found answers).length ≤ scan.heard

section Progress

variable {answers : List (TaskId × Option InfoDto)} {registered : List LanDevice} {scan : Scan}
  {runner runner' : TaskRunner.State (Option LanDevice)}

/-- At least one address is asked: at most one of the 256 is the own one. -/
theorem ipList_ne_nil (networkInterface : String) : ipList networkInterface ≠ [] := by
  intro hnil
  have hown : ∀ i < 256, subnet networkInterface ++ "." ++ decimal i = networkInterface := by
    intro i hi
    have hmem := List.filter_eq_nil_iff.mp hnil _ (List.mem_map_of_mem (List.mem_range.mpr hi))
    simpa using hmem
  have hsame := (hown 0 (by decide)).trans (hown 1 (by decide)).symm
  have hchars := congrArg String.toList hsame
  simp only [String.toList_append, List.append_cancel_left_eq] at hchars
  exact absurd hchars (by decide)

theorem found_append (task : HttpScanTask) (answers : List (TaskId × Option InfoDto))
    (request : TaskId) (dto : Option InfoDto) : task.found (answers ++ [(request, dto)]) =
      task.found answers ++ (task.device request dto).toList := by
  rw [HttpScanTask.found, List.filterMap_append]
  cases h : task.device request dto <;> simp [HttpScanTask.found, h]

/-- **What the child sends back**: the devices that answered, then the end. -/
theorem Progress.stream_eq (h : Progress answers registered scan)
    (hrunner : scan.runner = some runner) :
    scan.stream = (scan.task.found answers).map some ++
      if answers.length = scan.task.targets.length then [none] else [] := by
  have hnoticed := (h.working runner hrunner).1.noticed
  have hlog : (unstopped runner).log = runner.log := rfl
  have hfilter : runner.log.filterMap streamed =
      (runner.log.filter TaskRunner.Output.noticed).filterMap streamed := by
    rw [List.filterMap_filter]
    refine List.filterMap_congr fun out _ => ?_
    cases out <;> rfl
  rw [Scan.stream, hrunner]
  change runner.log.filterMap streamed = _
  rw [hfilter, ← hlog, hnoticed]
  simp only [List.filterMap_append, HttpScanTask.completions, HttpScanTask.found,
    List.length_map]
  congr 1
  · rw [List.map_map, List.filterMap_map, List.map_filterMap]
    refine List.filterMap_congr fun answer _ => ?_
    simp only [Function.comp_apply]
    cases scan.task.device answer.1 answer.2 <;> rfl
  · split <;> rfl

theorem progress_start {task : HttpScanTask} (h : task.targets ≠ []) :
    Progress [] [] (.start task) where
  targets := h
  waiting _ := rfl
  working _ h := nomatch h
  handed := rfl
  alone h := absurd rfl h
  heard_le _ := Nat.zero_le _
  ended h := nomatch h

/-- The child takes the task. -/
theorem Progress.take (h : Progress answers registered scan) (hrunner : scan.runner = none) :
    Progress answers registered { scan with runner := some scan.task.runner } where
  targets := h.targets
  waiting hnone := absurd hnone (Option.some_ne_none _)
  working runner heq := by
    obtain rfl := Option.some.inj heq
    obtain rfl := h.waiting hrunner
    have hn : 0 < scan.task.targets.length := List.length_pos_iff.mpr h.targets
    have hworking := TaskRunner.working_init (ρ := Option LanDevice) (c := concurrency) hn
    refine ⟨?_, fun hstopped => ?_⟩
    · have hsame : unstopped scan.task.runner = scan.task.runner := by
        have hstopped := hworking.stopped
        rw [HttpScanTask.runner, unstopped]
        generalize TaskRunner.init concurrency _ none = r at hstopped
        cases r
        rw [TaskRunner.State.mk.injEq]
        simpa using hstopped.symm
      rw [hsame]
      exact hworking
    · rw [HttpScanTask.runner, hworking.stopped] at hstopped
      cases hstopped
  handed := h.handed
  alone := h.alone
  heard_le := h.heard_le
  ended hover := absurd hrunner (h.ended hover).1

/-- A stop comes after the last answer. -/
theorem Progress.stop (h : Progress answers registered scan) (hover : scan.returned = true) :
    Progress answers registered scan.stop where
  targets := h.targets
  waiting hrunner := h.waiting (by simpa [Scan.stop] using hrunner)
  working runner heq := by
    obtain ⟨old, hold, rfl⟩ := Option.map_eq_some_iff.mp heq
    exact ⟨(h.working old hold).1, fun _ => (h.ended hover).2.2.1⟩
  handed := h.handed
  alone := h.alone
  heard_le := h.heard_le
  ended hover := by
    obtain ⟨hrunner, hrest⟩ := h.ended hover
    exact ⟨by simpa [Scan.stop] using hrunner, hrest⟩

/-- A request that runs: the scan is not over, and nobody has stopped it. -/
theorem Progress.open_of_running (h : Progress answers registered scan)
    (hrunner : scan.runner = some runner) {request : TaskId} (hrequest : request ∈ runner.running) :
    unstopped runner = runner ∧ scan.returned = false := by
  obtain ⟨hworking, hstopped⟩ := h.working runner hrunner
  have hlength := hworking.length
  have hpos : 0 < (unstopped runner).running.length := List.length_pos_of_mem hrequest
  rw [HttpScanTask.completions, List.length_map] at hlength
  have hless : answers.length ≠ scan.task.targets.length := by omega
  refine ⟨?_, ?_⟩
  · cases hs : runner.stopped with
    | false => rw [unstopped, ← hs]
    | true => exact absurd (hstopped hs) hless
  · cases hover : scan.returned with
    | false => rfl
    | true => exact absurd (h.ended hover).2.2.1 hless

/-- An answer. -/
theorem Progress.answer (h : Progress answers registered scan)
    (hrunner : scan.runner = some runner) {request : TaskId} {dto : Option InfoDto}
    (hs : TaskRunner.step concurrency runner (.complete request (scan.task.device request dto)) =
      some runner') :
    Progress (answers ++ [(request, dto)]) registered { scan with runner := some runner' } := by
  have hrequest : request ∈ runner.running := by
    simp only [TaskRunner.step] at hs
    split at hs
    · assumption
    · cases hs
  obtain ⟨hsame, hover⟩ := h.open_of_running hrunner hrequest
  have hworking := (h.working runner hrunner).1
  rw [hsame] at hworking
  have hnext := TaskRunner.working_step hworking hs
  exact {
    targets := h.targets
    waiting := fun hnone => absurd hnone (Option.some_ne_none _)
    working := fun r heq => by
      obtain rfl := Option.some.inj heq
      have hsame' : unstopped runner' = runner' := by
        rw [unstopped, ← hnext.stopped]
      refine ⟨?_, fun hstopped => ?_⟩
      · rw [hsame', HttpScanTask.completions, List.map_append]
        exact hnext
      · rw [hnext.stopped] at hstopped
        cases hstopped
    handed := by
      change _ = (scan.task.found (answers ++ [(request, dto)])).take scan.heard
      rw [found_append, List.take_append_of_le_length (h.heard_le hover)]
      exact h.handed
    alone := h.alone
    heard_le := fun _ => by
      change scan.heard ≤ (scan.task.found (answers ++ [(request, dto)])).length
      rw [found_append, List.length_append]
      exact Nat.le_add_right_of_le (h.heard_le hover)
    ended := fun hover' => absurd (hover.symm.trans hover') Bool.false_ne_true }

/-- What the loop can take next. -/
theorem Progress.stream_cases (h : Progress answers registered scan) {next : Option LanDevice}
    (hnext : scan.stream[scan.heard]? = some next) :
    (∃ device, next = some device ∧ (scan.task.found answers)[scan.heard]? = some device) ∨
      (next = none ∧ scan.runner ≠ none ∧ answers.length = scan.task.targets.length ∧
        (scan.task.found answers).length ≤ scan.heard) := by
  cases hrunner : scan.runner with
  | none => simp [Scan.stream, hrunner] at hnext
  | some runner =>
      rw [h.stream_eq hrunner] at hnext
      rcases Nat.lt_or_ge scan.heard (scan.task.found answers).length with hlt | hge
      · rw [List.getElem?_append_left (by simpa using hlt), List.getElem?_map,
          Option.map_eq_some_iff] at hnext
        obtain ⟨device, hdevice, rfl⟩ := hnext
        exact .inl ⟨device, rfl, hdevice⟩
      · rw [List.getElem?_append_right (by simpa using hge)] at hnext
        split at hnext
        · rename_i hall
          have hmem := List.mem_of_getElem? hnext
          exact .inr ⟨List.mem_singleton.mp hmem, Option.some_ne_none _, hall, hge⟩
        · cases hnext

/-- The loop takes a device. -/
theorem Progress.next (h : Progress answers registered scan)
    (hidle : scan.registering = none ∧ scan.lost = none) (hover : scan.returned = false)
    {device : LanDevice}
    (hnext : (scan.task.found answers)[scan.heard]? = some device) :
    Progress answers registered
      { scan with heard := scan.heard + 1, registering := some device } where
  targets := h.targets
  waiting := h.waiting
  working := h.working
  handed := by
    have hhanded := h.handed
    rw [hidle.1, hidle.2, Option.toList_none, List.append_nil, List.append_nil] at hhanded
    change registered ++ [device] ++ scan.lost.toList =
      (scan.task.found answers).take (scan.heard + 1)
    rw [List.take_add_one, hnext, ← hhanded, hidle.2, Option.toList_none, List.append_nil]
    rfl
  alone _ := hidle.2
  heard_le _ := (List.getElem?_eq_some_iff.mp hnext).1
  ended hover' := absurd (hover.symm.trans hover') Bool.false_ne_true

/-- The stream is closed. -/
theorem Progress.finish (h : Progress answers registered scan)
    (hidle : scan.registering = none ∧ scan.lost = none) (hrunner : scan.runner ≠ none)
    (hall : answers.length = scan.task.targets.length)
    (hheard : (scan.task.found answers).length ≤ scan.heard) :
    Progress answers registered { scan with heard := scan.heard + 1, returned := true } where
  targets := h.targets
  waiting := h.waiting
  working := h.working
  handed := by
    rw [h.handed, List.take_of_length_le hheard, List.take_of_length_le (by simp; omega)]
  alone := h.alone
  heard_le hover := nomatch hover
  ended _ := ⟨hrunner, hidle, hall, Nat.le_succ_of_le hheard⟩

/-- The registration is done. -/
theorem Progress.register (h : Progress answers registered scan) {device : LanDevice}
    (hdevice : scan.registering = some device) :
    Progress answers (registered ++ [device]) { scan with registering := none } where
  targets := h.targets
  waiting := h.waiting
  working := h.working
  handed := by
    have hhanded := h.handed
    rw [hdevice] at hhanded
    rw [← hhanded]
    simp
  alone hnone := absurd rfl hnone
  heard_le := h.heard_le
  ended hover := by
    obtain ⟨_, ⟨hidle, _⟩, _⟩ := h.ended hover
    rw [hdevice] at hidle
    cases hidle

/-- The registration has failed. -/
theorem Progress.fail (h : Progress answers registered scan) {device : LanDevice}
    (hdevice : scan.registering = some device) :
    Progress answers registered { scan with registering := none, lost := some device } where
  targets := h.targets
  waiting := h.waiting
  working := h.working
  handed := by
    have hhanded := h.handed
    have hlost := h.alone (hdevice ▸ Option.some_ne_none _)
    rw [hdevice, hlost] at hhanded
    rw [← hhanded]
    simp
  alone hnone := absurd rfl hnone
  heard_le := h.heard_le
  ended hover := by
    obtain ⟨_, ⟨hidle, _⟩, _⟩ := h.ended hover
    rw [hdevice] at hidle
    cases hidle

end Progress

/-! ## 2. All scans -/

section Followed

variable {s t : State} {e : Event} {i : Nat} {scan scan' : Scan}
  {done done' : Nat → List (TaskId × Option InfoDto) × List LanDevice}

/-- **The invariant**: for every scan, the answers to it and what it registered. -/
structure Followed (done : Nat → List (TaskId × Option InfoDto) × List LanDevice) (s : State) :
    Prop where
  flagged : Flagged s
  progress : ∀ i scan, s.scans[i]? = some scan → Progress (done i).1 (done i).2 scan
  fresh : ∀ i, s.scans[i]? = none → done i = ([], [])

/-- What a step adds to it. -/
def advance (done : Nat → List (TaskId × Option InfoDto) × List LanDevice) (s : State)
    (e : Event) : Nat → List (TaskId × Option InfoDto) × List LanDevice :=
  fun i => ((done i).1 ++ answered i e, (done i).2 ++ installs i s e)

theorem advance_quiet (hanswer : ∀ i, answered i e = []) (hinstall : ∀ i, installs i s e = []) :
    advance done s e = done := by
  funext i
  simp [advance, hanswer, hinstall]

theorem Followed.of_scans (h : Followed done s) (hflagged : Flagged t) (ht : t.scans = s.scans) :
    Followed done t where
  flagged := hflagged
  progress := ht ▸ h.progress
  fresh := ht ▸ h.fresh

theorem Followed.append (h : Followed done s) (hflagged : Flagged t) {task : HttpScanTask}
    (htask : task.targets ≠ []) (ht : t.scans = s.scans ++ [.start task]) : Followed done t where
  flagged := hflagged
  progress i scan hi := by
    rw [ht] at hi
    rcases Nat.lt_trichotomy i s.scans.length with hlt | rfl | hgt
    · rw [List.getElem?_append_left hlt] at hi
      exact h.progress i scan hi
    · have hnew : scan = .start task := by simpa using hi.symm
      rw [h.fresh _ (List.getElem?_eq_none (Nat.le_refl _)), hnew]
      exact progress_start htask
    · rw [List.getElem?_eq_none (by simp; omega)] at hi
      cases hi
  fresh i hi := by
    refine h.fresh i ?_
    rw [ht, List.getElem?_eq_none_iff, List.length_append] at hi
    exact List.getElem?_eq_none (by omega)

/-- A step of one scan. -/
theorem Followed.set (h : Followed done s) (hflagged : Flagged t) (hi : s.scans[i]? = some scan)
    (ht : t.scans = s.scans.set i scan') (hdone : ∀ j, j ≠ i → done' j = done j)
    (hprogress : Progress (done' i).1 (done' i).2 scan') : Followed done' t where
  flagged := hflagged
  progress j other hj := by
    rw [ht] at hj
    by_cases hji : j = i
    · subst hji
      rw [List.getElem?_set_self (List.getElem?_eq_some_iff.mp hi).1] at hj
      exact Option.some.inj hj ▸ hprogress
    · rw [List.getElem?_set_ne (Ne.symm hji)] at hj
      rw [hdone j hji]
      exact h.progress j other hj
  fresh j hj := by
    rw [ht, List.getElem?_eq_none_iff, List.length_set, ← List.getElem?_eq_none_iff] at hj
    have hji : j ≠ i := by
      rintro rfl
      rw [hi] at hj
      cases hj
    rw [hdone j hji]
    exact h.fresh j hj

/-- What the child has noted, after a step of one scan whose runner stays. -/
theorem Flagged.taken_set (h : Flagged s) (hi : s.scans[i]? = some scan)
    (ht : t.scans = s.scans.set i scan') (hrunners : t.runners = s.runners)
    (htask : scan'.task = scan.task) (hrunner : scan.runner ≠ none → scan'.runner ≠ none) :
    ∀ ip j, t.runners.get? ip = some j → ∃ scan, t.scans[j]? = some scan ∧
      scan.task.localIp? = some ip ∧ scan.runner ≠ none := by
  intro ip j hj
  rw [hrunners] at hj
  obtain ⟨old, hold, hip, hsome⟩ := h.taken ip j hj
  rw [ht]
  by_cases hji : j = i
  · subst hji
    obtain rfl := Option.some.inj (hold.symm.trans hi)
    refine ⟨scan', List.getElem?_set_self (List.getElem?_eq_some_iff.mp hi).1, ?_, hrunner hsome⟩
    rw [htask, hip]
  · exact ⟨old, by rwa [List.getElem?_set_ne (Ne.symm hji)], hip, hsome⟩

/-- A step of one scan that neither starts nor ends. -/
theorem Flagged.set (h : Flagged s) (hi : s.scans[i]? = some scan)
    (ht : t.scans = s.scans.set i scan') (hips : t.runningIps = s.runningIps)
    (hflag : t.runningFavoriteScan = s.runningFavoriteScan) (hrunners : t.runners = s.runners)
    (htask : scan'.task = scan.task) (hover : scan'.returned = scan.returned)
    (hrunner : scan.runner ≠ none → scan'.runner ≠ none) : Flagged t := by
  refine h.of_same ?_ hips hflag (h.taken_set hi ht hrunners htask hrunner)
  rw [State.views, ht]
  exact views_set hi htask hover

/-- The runner of a task is created and noted. -/
theorem Followed.create (h : Followed done s) (hi : s.scans[i]? = some scan)
    (hrunner : scan.runner = none) {localIp : String} (hlocal : scan.task.localIp? = some localIp) :
    Followed done { s with
      scans := s.scans.set i { scan with runner := some scan.task.runner }
      runners := s.runners.insert localIp i } := by
  refine h.set ?_ hi rfl (fun _ _ => rfl) ((h.progress i scan hi).take hrunner)
  refine h.flagged.of_same (views_set hi rfl rfl) rfl rfl fun ip j hj => ?_
  rw [LinkedMap.get?_insert] at hj
  split at hj
  · rename_i hip
    obtain rfl := Option.some.inj hj
    exact ⟨_, List.getElem?_set_self (List.getElem?_eq_some_iff.mp hi).1, hip ▸ hlocal,
      Option.some_ne_none _⟩
  · exact h.flagged.taken_set (t := { s with
        scans := s.scans.set i { scan with runner := some scan.task.runner } }) hi rfl rfl rfl
      (fun _ => Option.some_ne_none _) ip j hj

/-- **The child takes a task**: the scan it stops is over, since the parent scans no interface
    twice at once. -/
theorem Followed.takeTask (h : Followed done s) (hi : s.scans[i]? = some scan)
    (hrunner : scan.runner = none) : Followed done (takeTask s i scan) := by
  unfold HttpScan.takeTask
  split
  · rename_i localIp hlocal
    cases hlast : s.runners.get? localIp with
    | none => exact h.create hi hrunner hlocal
    | some j =>
        obtain ⟨last, hj, hip, hlastRunner⟩ := h.flagged.taken localIp j hlast
        have hji : j ≠ i := by
          rintro rfl
          obtain rfl := Option.some.inj (hj.symm.trans hi)
          exact hlastRunner hrunner
        have hrunning : scan.returned = false := by
          cases hover : scan.returned with
          | false => rfl
          | true => exact absurd hrunner ((h.progress i scan hi).ended hover).1
        have hover : last.returned = true := by
          cases hover : last.returned with
          | true => rfl
          | false =>
              have hscans : Scans s i localIp := ⟨_, hrunning ▸ views_getElem? hi, hlocal⟩
              have hscans' : Scans s j localIp := ⟨_, hover ▸ views_getElem? hj, hip⟩
              exact absurd (h.flagged.once localIp j i hscans' hscans) hji
        have hmodify : s.scans.modify j Scan.stop = s.scans.set j last.stop := by
          rw [List.modify_eq_set_getElem?, hj]
          rfl
        have hflagged : Flagged { s with scans := s.scans.set j last.stop } :=
          h.flagged.set hj rfl rfl rfl rfl rfl rfl fun hsome => by simpa [Scan.stop] using hsome
        have hstopped : Followed done { s with scans := s.scans.set j last.stop } :=
          h.set hflagged hj rfl (fun _ _ => rfl) ((h.progress j last hj).stop hover)
        have hi' : (s.scans.set j last.stop)[i]? = some scan := by
          rwa [List.getElem?_set_ne hji]
        simp only [hmodify]
        exact hstopped.create hi' hrunner hlocal
  · exact h.set (h.flagged.set hi rfl rfl rfl rfl rfl rfl fun _ => Option.some_ne_none _) hi rfl
      (fun _ _ => rfl) ((h.progress i scan hi).take hrunner)

/-- **Every step keeps the invariant.** -/
theorem followed_step (h : Followed done s) (hs : scanner.step s e = some t) :
    Followed (advance done s e) t := by
  cases step_inv hs with
  | startLegacyScan port localIp https =>
      rw [advance_quiet (fun _ => rfl) fun _ => rfl]
      have hflagged := flagged_startLegacyScan h.flagged port localIp https
      unfold startLegacyScan at hflagged ⊢
      split
      · exact h
      · rename_i hnew
        rw [if_neg hnew] at hflagged
        refine h.append hflagged ?_ rfl
        simpa [HttpScanTask.targets] using ipList_ne_nil localIp
  | startFavoriteScan devices https =>
      rw [advance_quiet (fun _ => rfl) fun _ => rfl]
      have hflagged := flagged_startFavoriteScan h.flagged devices https
      unfold startFavoriteScan at hflagged ⊢
      split
      · exact h
      · rename_i hdevices
        rw [if_neg hdevices] at hflagged
        have htargets : (HttpScanTask.favorite devices https).targets ≠ [] := hdevices
        exact h.append hflagged htargets rfl
  | take i scan hi hrunner =>
      rw [advance_quiet (fun _ => rfl) fun _ => rfl]
      exact h.takeTask hi hrunner
  | answer i request dto scan runner runner' hi hrunner hanswer =>
      refine h.set (h.flagged.set hi rfl rfl rfl rfl rfl rfl fun _ => Option.some_ne_none _) hi rfl
        (fun j hj => ?_) ?_
      · simp [advance, answered, installs, Ne.symm hj]
      · simpa [advance, answered, installs] using (h.progress i scan hi).answer hrunner hanswer
  | next i scan device hi hidle hover hnext =>
      rw [advance_quiet (fun _ => rfl) fun _ => rfl]
      have hprogress := h.progress i scan hi
      obtain ⟨device', heq, hdevice⟩ | ⟨heq, -⟩ := hprogress.stream_cases hnext
      · obtain rfl := Option.some.inj heq
        exact h.set (h.flagged.set hi rfl rfl rfl rfl rfl rfl fun hsome => hsome) hi rfl
          (fun _ _ => rfl) (hprogress.next hidle hover hdevice)
      · cases heq
  | finish i scan hi hidle hover hnext =>
      rw [advance_quiet (fun _ => rfl) fun _ => rfl]
      have hprogress := h.progress i scan hi
      obtain ⟨device, heq, -⟩ | ⟨-, hrunner, hall, hheard⟩ := hprogress.stream_cases hnext
      · cases heq
      · refine h.set (flagged_finishScan h.flagged hi hover hrunner) hi ?_ (fun _ _ => rfl)
          (hprogress.finish hidle hrunner hall hheard)
        unfold finishScan
        split <;> rfl
  | registered i scan device hi hdevice =>
      refine h.set (h.flagged.set hi rfl rfl rfl rfl rfl rfl fun hsome => hsome) hi rfl
        (fun j hj => ?_) ?_
      · simp [advance, answered, installs, Ne.symm hj]
      · simpa [advance, answered, installs, hi, hdevice] using
          (h.progress i scan hi).register hdevice
  | failed i scan device hi hdevice =>
      rw [advance_quiet (fun _ => rfl) fun _ => rfl]
      exact h.set (h.flagged.set hi rfl rfl rfl rfl rfl rfl fun hsome => hsome) hi rfl
        (fun _ _ => rfl) ((h.progress i scan hi).fail hdevice)
  | register device | clearFoundDevices =>
      rw [advance_quiet (fun _ => rfl) fun _ => rfl]
      exact h.of_scans (h.flagged.of_same rfl rfl rfl h.flagged.taken) rfl

/-- What the `i`-th scan has registered in a run. -/
def registeredBy (i : Nat) (es : List Event) : List LanDevice :=
  scanner.trace (installs i) .initial es

/-- **Every run keeps it.** -/
theorem followed_run {es : List Event} (h : scanner.Run Machine.anyStep .initial es s) :
    Followed (fun i => (answersOf i es, registeredBy i es)) s := by
  induction h with
  | start =>
      refine ⟨flagged_initial, fun i scan hi => ?_, fun _ _ => rfl⟩
      simp [State.initial] at hi
  | step es e t u hr _ hs ih =>
      have hnext := followed_step ih hs
      have hdone : advance (fun i => (answersOf i es, registeredBy i es)) t e =
          fun i => (answersOf i (es ++ [e]), registeredBy i (es ++ [e])) := by
        funext i
        simp only [advance, answersOf, registeredBy, hr.trace_snoc, List.flatMap_append]
        simp
      exact hdone ▸ hnext

end Followed

/-! ## 3. Scans that have broken off -/

section Broken

variable {s t : State} {e : Event} {i j : Nat} {ip : String} {scan scan' : Scan}

/-- A step of another scan, or one that keeps what is lost. -/
theorem BrokenOff.set (h : BrokenOff s i ip) (hj : s.scans[j]? = some scan)
    (ht : t.scans = s.scans.set j scan') (htask : scan'.task = scan.task)
    (hlost : scan.lost ≠ none → scan'.lost ≠ none) : BrokenOff t i ip := by
  obtain ⟨old, hi, hip, hbroken⟩ := h
  rw [BrokenOff, ht]
  by_cases hij : i = j
  · subst hij
    obtain rfl := Option.some.inj (hi.symm.trans hj)
    exact ⟨scan', List.getElem?_set_self (List.getElem?_eq_some_iff.mp hi).1, htask ▸ hip,
      hlost hbroken⟩
  · exact ⟨old, by rwa [List.getElem?_set_ne (Ne.symm hij)], hip, hbroken⟩

theorem BrokenOff.append (h : BrokenOff s i ip) (ht : t.scans = s.scans ++ [scan]) :
    BrokenOff t i ip := by
  obtain ⟨old, hi, hrest⟩ := h
  refine ⟨old, ?_, hrest⟩
  rw [ht, List.getElem?_append_left (List.getElem?_eq_some_iff.mp hi).1]
  exact hi

/-- A stop of any scan. -/
theorem BrokenOff.stop (h : BrokenOff s i ip) (k : Nat) :
    BrokenOff { s with scans := s.scans.modify k Scan.stop } i ip := by
  obtain ⟨old, hi, hrest⟩ := h
  refine ⟨if k = i then old.stop else old, ?_, ?_⟩
  · rw [List.getElem?_modify, hi]
    rfl
  · split <;> exact hrest

theorem BrokenOff.takeTask (h : BrokenOff s i ip) (hj : s.scans[j]? = some scan) :
    BrokenOff (takeTask s j scan) i ip := by
  unfold HttpScan.takeTask
  split
  · split
    · rename_i k _
      -- the scan may be the one that is stopped
      have hstopped : (s.scans.modify k Scan.stop)[j]? =
          some (if k = j then scan.stop else scan) := by
        rw [List.getElem?_modify, hj]
        rfl
      have hsame : (if k = j then scan.stop else scan).task = scan.task ∧
          (if k = j then scan.stop else scan).lost = scan.lost := by
        split <;> exact ⟨rfl, rfl⟩
      exact (h.stop k).set hstopped rfl hsame.1.symm fun hlost => hsame.2 ▸ hlost
    · exact h.set hj rfl rfl fun hlost => hlost
  · exact h.set hj rfl rfl fun hlost => hlost

/-- **What has broken off stays so.** -/
theorem brokenOff_step (hs : scanner.step s e = some t) (h : BrokenOff s i ip) :
    BrokenOff t i ip := by
  cases step_inv hs with
  | startLegacyScan port localIp https =>
      unfold startLegacyScan
      split
      · exact h
      · exact h.append rfl
  | startFavoriteScan devices https =>
      unfold startFavoriteScan
      split
      · exact h
      · exact h.append rfl
  | take j scan hj => exact h.takeTask hj
  | answer j request dto scan runner runner' hj | next j scan device hj
  | registered j scan device hj => exact h.set hj rfl rfl fun hlost => hlost
  | finish j scan hj =>
      unfold finishScan
      split <;> exact h.set hj rfl rfl fun hlost => hlost
  | failed j scan device hj => exact h.set hj rfl rfl fun _ => Option.some_ne_none _
  | register | clearFoundDevices => exact h

theorem brokenOff_run {es : List Event} (h : scanner.Run Machine.anyStep s es t)
    (hbroken : BrokenOff s i ip) : BrokenOff t i ip :=
  h.invariant (I := fun u => BrokenOff u i ip) hbroken fun _ _ _ hb _ hs => brokenOff_step hs hb

/-- It has not returned. -/
theorem BrokenOff.scans {es : List Event} (h : BrokenOff s i ip)
    (hr : scanner.Run Machine.anyStep .initial es s) : Scans s i ip := by
  obtain ⟨scan, hi, hip, hlost⟩ := h
  have hprogress : Progress (answersOf i es) (registeredBy i es) scan :=
    (followed_run hr).progress i scan hi
  cases hover : scan.returned with
  | true => exact absurd (hprogress.ended hover).2.1.2 hlost
  | false => exact ⟨scan.task, hover ▸ views_getElem? hi, hip⟩

end Broken

/-! ## 4. Results -/

section Results

variable {s : State} {es : List Event} {i : Nat} {scan : Scan}

/-- **The noted scans are those that have not returned.** In every reachable state `runningIps` has
    no duplicates and holds exactly the interfaces over which a scan runs or has broken off, with
    one such scan for each of them; favorites are noted as being scanned only while a scan of
    favorites has not returned. An interface whose scan has broken off is never scanned again. -/
theorem running_ips_exact (es : List Event) (s : State)
    (h : scanner.Run Machine.anyStep .initial es s) :
    s.runningIps.Nodup ∧ (∀ ip, ip ∈ s.runningIps ↔ ∃ i, Scans s i ip) ∧
      (∀ ip i j, Scans s i ip → Scans s j ip → i = j) ∧
      (s.runningFavoriteScan = true → ∃ i, ScansFavorites s i) ∧
      ∀ i ip, BrokenOff s i ip → ∀ es' t, scanner.Run Machine.anyStep s es' t →
        ip ∈ t.runningIps ∧ ∀ port https, startLegacyScan t port ip https = t := by
  have hflagged := (followed_run h).flagged
  refine ⟨hflagged.nodup, hflagged.mem, hflagged.once, hflagged.favorite,
    fun i ip hbroken es' t h' => ?_⟩
  have hrun := h.trans h'
  have hnoted : ip ∈ t.runningIps :=
    ((followed_run hrun).flagged.mem ip).mpr ⟨i, (brokenOff_run h' hbroken).scans hrun⟩
  exact ⟨hnoted, fun _ _ => if_pos hnoted⟩

/-- The interface is asked to be scanned twice; a device answers, and its registration fails. -/
def scannedTwiceRun : List Event :=
  [.startLegacyScan 53317 "10.0.0.5" true, .startLegacyScan 53317 "10.0.0.5" true, .take 0,
    .answer 0 1 (some ⟨"Phone", some "2.1", none, none, some "AA", none⟩), .next 0, .failed 0]

theorem running_ips_exact_scannedTwiceRun :
    ∃ s, scanner.Run Machine.anyStep .initial scannedTwiceRun s ∧
      s.runningIps = ["10.0.0.5"] ∧ (∃ i, Scans s i "10.0.0.5") ∧
      ∀ port https, startLegacyScan s port "10.0.0.5" https = s := by
  obtain ⟨s, hs, hobs⟩ := Machine.run_observe (M := scanner)
    (f := fun s => (s.runningIps, s.scans[0]?.bind fun scan =>
      if scan.lost.isSome then scan.task.localIp? else none))
    (show (scanner.run .initial scannedTwiceRun).map _ =
      some (["10.0.0.5"], some "10.0.0.5") by decide +kernel)
  obtain ⟨hips, hbroken⟩ := Prod.mk.inj hobs
  obtain ⟨scan, hscan, hbroken⟩ := Option.bind_eq_some_iff.mp hbroken
  obtain ⟨hlost, hip⟩ := Option.ite_none_right_eq_some.mp hbroken
  have hmem : "10.0.0.5" ∈ s.runningIps := hips ▸ List.mem_singleton_self _
  obtain ⟨-, hscans, -, -, hnever⟩ := running_ips_exact _ s hs
  have hoff : BrokenOff s 0 "10.0.0.5" := ⟨scan, hscan, hip, Option.isSome_iff_ne_none.mp hlost⟩
  exact ⟨s, hs, hips, (hscans _).mp hmem, (hnever 0 _ hoff [] s .start).2⟩

/-- **No scan is cut short**: as long as a request of a scan is not answered, its runner has not
    been stopped by a later scan of the interface and some request is on its way, never more than
    fifty. -/
theorem scan_uncut (es : List Event) (s : State) (h : scanner.Run Machine.anyStep .initial es s)
    (i : Nat) (scan : Scan) (hi : s.scans[i]? = some scan)
    (runner : TaskRunner.State (Option LanDevice)) (hrunner : scan.runner = some runner) :
    runner.running.length ≤ 50 ∧ (answersOf i es).length ≤ scan.task.targets.length ∧
      ((answersOf i es).length < scan.task.targets.length →
        runner.stopped = false ∧ runner.running ≠ []) := by
  have hprogress : Progress (answersOf i es) (registeredBy i es) scan :=
    (followed_run h).progress i scan hi
  obtain ⟨hworking, hstopped⟩ := hprogress.working runner hrunner
  have hlength := hworking.length
  have hrunning : (unstopped runner).running = runner.running := rfl
  rw [HttpScanTask.completions, List.length_map, hrunning, concurrency] at hlength
  refine ⟨by omega, by omega, fun hless => ⟨?_, ?_⟩⟩
  · cases hs : runner.stopped with
    | false => rfl
    | true => exact absurd (hstopped hs) (Nat.ne_of_lt hless)
  · rw [← List.length_pos_iff]
    omega

/-- **A scan that nobody answers comes to its end.** -/
theorem unanswered_returns (h : scanner.Run Machine.anyStep .initial es s)
    (hi : s.scans[i]? = some scan) {runner : TaskRunner.State (Option LanDevice)}
    (hrunner : scan.runner = some runner) (hover : scan.returned = false)
    (hfound : scan.task.found (answersOf i es) = []) :
    ∃ fs t scan', scanner.Run Machine.anyStep s fs t ∧ t.scans = s.scans.set i scan' ∧
      t.runners = s.runners ∧ scan'.task = scan.task ∧ scan'.runner ≠ none ∧
      scan'.returned = true := by
  obtain ⟨n, hn⟩ : ∃ n, scan.task.targets.length = (answersOf i es).length + n :=
    Nat.exists_eq_add_of_le (scan_uncut es s h i scan hi runner hrunner).2.1
  -- one answer for each address that is left
  induction n generalizing s es scan runner with
  | zero =>
      have hprogress : Progress (answersOf i es) (registeredBy i es) scan :=
        (followed_run h).progress i scan hi
      have hstream := hprogress.stream_eq hrunner
      have hhanded := hprogress.handed
      have hheard := hprogress.heard_le hover
      rw [hfound] at hstream hhanded hheard
      rw [if_pos (by omega)] at hstream
      have hzero : scan.heard = 0 := Nat.le_zero.mp hheard
      obtain ⟨-, hidle, hlost⟩ : registeredBy i es = [] ∧ scan.registering = none ∧
          scan.lost = none := by
        simpa using hhanded
      have hstep : scanner.step s (.next i) = some (finishScan s i scan) := by
        simp [scanner, step, hi, hidle, hlost, hover, hstream, hzero]
      have hfinish : (finishScan s i scan).scans =
            s.scans.set i { scan with heard := scan.heard + 1, returned := true } ∧
          (finishScan s i scan).runners = s.runners := by
        unfold finishScan
        split <;> exact ⟨rfl, rfl⟩
      exact ⟨[.next i], _, _, .step [] _ _ _ .start trivial hstep, hfinish.1, hfinish.2, rfl,
        hrunner ▸ Option.some_ne_none _, rfl⟩
  | succ n ih =>
      obtain ⟨-, hrunning⟩ := (scan_uncut es s h i scan hi runner hrunner).2.2 (by omega)
      obtain ⟨request, hrequest⟩ := List.exists_mem_of_ne_nil _ hrunning
      obtain ⟨runner', hrunner'⟩ : ∃ runner', TaskRunner.step concurrency runner
          (.complete request (scan.task.device request none)) = some runner' := ⟨_, if_pos hrequest⟩
      have hstep : scanner.step s (.answer i request none) = some { s with
          scans := s.scans.set i { scan with runner := some runner' } } := by
        simp only [scanner, step, Option.bind_eq_bind, hi, Option.bind_some, hrunner, hrunner']
      have hanswers : answersOf i (es ++ [.answer i request none]) =
          answersOf i es ++ [(request, none)] := by
        simp [answersOf, answered]
      have hleft : scan.task.targets.length =
          (answersOf i (es ++ [.answer i request none])).length + n := by
        rw [hanswers, List.length_append, List.length_singleton]
        omega
      have hnone : scan.task.device request none = none := by simp [HttpScanTask.device]
      obtain ⟨fs, t, scan', hr, ht, hrest⟩ := ih (.step es _ s _ h trivial hstep)
        (List.getElem?_set_self (List.getElem?_eq_some_iff.mp hi).1) rfl hover
        (by rw [hanswers, found_append, hfound, hnone]; rfl) hleft
      have hfirst : scanner.Run Machine.anyStep s [.answer i request none] _ :=
        .step [] _ _ _ .start trivial hstep
      exact ⟨_, t, scan', hfirst.trans hr, by rw [ht, List.set_set], hrest⟩

/-- The task of the scans below. -/
def demoScan : HttpScanTask := .interface "10.0.0.5" 53317 true

/-- The interface is scanned, and nobody answers. -/
theorem demo_scanned : ∃ es s scan, scanner.Run Machine.anyStep .initial es s ∧
    s.scans = [scan] ∧ s.runners.get? "10.0.0.5" = some 0 ∧ scan.task = demoScan ∧
    scan.runner ≠ none ∧ scan.returned = true := by
  obtain ⟨s, hs, hobs⟩ := Machine.run_observe (M := scanner)
    (f := fun s => (s.scans, s.runners.get? "10.0.0.5"))
    (show (scanner.run .initial [.startLegacyScan 53317 "10.0.0.5" true, .take 0]).map _ =
      some ([{ Scan.start demoScan with runner := some demoScan.runner }], some 0) from rfl)
  obtain ⟨hscans, hnoted⟩ := Prod.mk.inj hobs
  obtain ⟨fs, t, scan, hr, ht, hrunners, htask, hrest⟩ := unanswered_returns (i := 0) hs
    (by rw [hscans]; rfl) rfl rfl rfl
  refine ⟨_, t, scan, hs.trans hr, ?_, by rw [hrunners, hnoted], htask, hrest⟩
  rw [ht, hscans]
  rfl

/-- It is scanned again: the child stops the runner of the first scan, not that of the second. -/
theorem scan_uncut_scannedAgain :
    ∃ es s first second runner, scanner.Run Machine.anyStep .initial es s ∧
      s.scans = [first, second] ∧ (∀ runner ∈ first.runner, runner.stopped = true) ∧
      second.runner = some runner ∧ runner.stopped = false ∧ runner.running ≠ [] := by
  obtain ⟨es, s, first, hr, hscans, hnoted, htask, hrunner, hover⟩ := demo_scanned
  have hfree : "10.0.0.5" ∉ s.runningIps := by
    intro hmem
    obtain ⟨i, task, hi, -⟩ := ((followed_run hr).flagged.mem _).mp hmem
    rw [State.views, hscans, List.map_singleton, hover] at hi
    cases List.mem_singleton.mp (List.mem_of_getElem? hi)
  have hstart : scanner.step s (.startLegacyScan 53317 "10.0.0.5" true) = some { s with
      runningIps := s.runningIps ++ ["10.0.0.5"]
      scans := [first, .start demoScan] } := by
    simp only [scanner, step, startLegacyScan, if_neg hfree, hscans]
    rfl
  have htake : scanner.step { s with
      runningIps := s.runningIps ++ ["10.0.0.5"]
      scans := [first, .start demoScan] } (.take 1) = some { s with
      runningIps := s.runningIps ++ ["10.0.0.5"]
      scans := [first.stop, { Scan.start demoScan with runner := some demoScan.runner }]
      runners := s.runners.insert "10.0.0.5" 1 } := by
    have hlocal : (Scan.start demoScan).task.localIp? = some "10.0.0.5" := rfl
    change some (takeTask _ 1 (.start demoScan)) = _
    simp only [takeTask, hlocal, hnoted]
    rfl
  have hrun := (hr.step _ _ _ _ trivial hstart).step _ _ _ _ trivial htake
  have hfresh : answersOf 1 es = [] := by
    refine congrArg Prod.fst ((followed_run hr).fresh 1 ?_)
    rw [hscans]
    rfl
  have hnone : answersOf 1 (es ++ [.startLegacyScan 53317 "10.0.0.5" true] ++ [.take 1]) = [] := by
    rw [answersOf, List.flatMap_append, List.flatMap_append, ← answersOf, hfresh]
    rfl
  have htargets : demoScan.targets ≠ [] := by
    simpa [demoScan, HttpScanTask.targets] using ipList_ne_nil "10.0.0.5"
  obtain ⟨hstopped, hrunning⟩ := (scan_uncut _ _ hrun 1 _ rfl demoScan.runner rfl).2.2 (by
    rw [hnone]
    exact List.length_pos_iff.mpr htargets)
  refine ⟨_, _, _, _, _, hrun, rfl, fun runner hstop => ?_, rfl, hstopped, hrunning⟩
  obtain ⟨old, -, rfl⟩ := Option.map_eq_some_iff.mp hstop
  rfl

/-- Two favorites, of which the second one answers; the first request is still on its way. -/
def favoriteScanRun : List Event :=
  [.startFavoriteScan [("10.0.0.2", 53317), ("10.0.0.3", 53317)] true, .take 0,
    .answer 0 1 (some ⟨"Phone", some "2.1", none, none, some "AA", none⟩), .next 0]

/-- A scan that is over. -/
theorem completed {answers : List (TaskId × Option InfoDto)} {registered : List LanDevice}
    (hprogress : Progress answers registered scan) (hover : scan.returned = true) :
    (∃ runner, scan.runner = some runner ∧ runner.log.filterMap TaskRunner.Output.started =
        List.range scan.task.targets.length) ∧
      (answers.map Prod.fst).Perm (List.range scan.task.targets.length) ∧
      registered = scan.task.found answers := by
  obtain ⟨hrunner, hidle, hall, hheard⟩ := hprogress.ended hover
  obtain ⟨runner, hrunner⟩ := Option.ne_none_iff_exists'.mp hrunner
  have hworking := (hprogress.working runner hrunner).1
  have hlength := hworking.length
  have htaken := hworking.taken
  have hstarts := hworking.starts
  have hcompletions : (scan.task.completions answers).length = scan.task.targets.length := by
    rw [HttpScanTask.completions, List.length_map, hall]
  rw [hcompletions, Nat.min_eq_left (Nat.le_add_left _ _)] at hlength htaken hstarts
  have hnone : (unstopped runner).running = [] := List.length_eq_zero_iff.mp (by omega)
  refine ⟨⟨runner, hrunner, hstarts⟩, ?_, ?_⟩
  · rw [hnone, List.append_nil] at htaken
    simpa [HttpScanTask.completions, Function.comp_def] using htaken
  · have hhanded := hprogress.handed
    rw [hidle.1, hidle.2, Option.toList_none, List.append_nil, List.append_nil,
      List.take_of_length_le hheard] at hhanded
    exact hhanded

/-- **A finished scan is complete**: every address was asked once and has answered, and the scan
    has registered exactly the devices that answered, in the order of their answers. -/
theorem scan_complete (es : List Event) (s : State)
    (h : scanner.Run Machine.anyStep .initial es s) (i : Nat) (scan : Scan)
    (hi : s.scans[i]? = some scan) (hover : scan.returned = true) :
    (∃ runner, scan.runner = some runner ∧ runner.log.filterMap TaskRunner.Output.started =
        List.range scan.task.targets.length) ∧
      ((answersOf i es).map Prod.fst).Perm (List.range scan.task.targets.length) ∧
      registeredBy i es = scan.task.found (answersOf i es) :=
  completed ((followed_run h).progress i scan hi) hover

/-- The same scan to its end. -/
def finishedScanRun : List Event :=
  favoriteScanRun ++ [.answer 0 0 none, .registered 0, .next 0]

theorem scan_complete_finishedScanRun :
    ∃ s, scanner.Run Machine.anyStep .initial finishedScanRun s ∧
      (registeredBy 0 finishedScanRun).map LanDevice.ip = ["10.0.0.3"] := by
  obtain ⟨s, hs, hscan⟩ := Machine.run_observe (M := scanner)
    (f := fun s => s.scans[0]?.map fun scan => (scan.returned, scan.task))
    (show (scanner.run .initial finishedScanRun).map _ = some (some (true,
      .favorite [("10.0.0.2", 53317), ("10.0.0.3", 53317)] true)) from rfl)
  obtain ⟨scan, hscan, hview⟩ := Option.map_eq_some_iff.mp hscan
  obtain ⟨hover, htask⟩ := Prod.mk.inj hview
  have hregistered := (scan_complete _ s hs 0 scan hscan hover).2.2
  rw [htask] at hregistered
  refine ⟨s, hs, ?_⟩
  rw [hregistered]
  rfl

/-- No event forgets the found devices. -/
def keepsDevices (_ : State) : Event → Prop
  | .clearFoundDevices => False
  | _ => True

instance (s : State) : (e : Event) → Decidable (keepsDevices s e)
  | .clearFoundDevices => .isFalse id
  | .startLegacyScan _ _ _ | .startFavoriteScan _ _ | .take _ | .answer _ _ _ | .next _
  | .registered _ | .failed _ | .register _ => .isTrue trivial

theorem registerDevice_shows (nearby : NearbyDevicesState) (device : LanDevice) {ip : String}
    (h : nearby.devices.get? ip ≠ none ∨ device.ip = ip) :
    (nearby.registerDevice device).devices.get? ip ≠ none := by
  rw [NearbyDevicesState.registerDevice, LinkedMap.get?_insert]
  split
  · exact Option.some_ne_none _
  · rename_i hip
    exact h.resolve_right fun heq => hip heq.symm

/-- **One step**: what was found stays, and what is registered is found. -/
theorem shown_step {s t : State} {e : Event} {ip : String} (hg : keepsDevices s e)
    (hs : scanner.step s e = some t)
    (h : s.nearby.devices.get? ip ≠ none ∨ ∃ device ∈ installs i s e, device.ip = ip) :
    t.nearby.devices.get? ip ≠ none := by
  have hold : installs i s e = [] → s.nearby.devices.get? ip ≠ none := by
    intro hnil
    refine h.resolve_right fun hnew => ?_
    obtain ⟨device, hdevice, _⟩ := hnew
    rw [hnil] at hdevice
    cases hdevice
  cases step_inv hs with
  | startLegacyScan =>
      unfold startLegacyScan
      split <;> exact hold rfl
  | startFavoriteScan =>
      unfold startFavoriteScan
      split <;> exact hold rfl
  | take =>
      unfold takeTask
      split <;> exact hold rfl
  | finish =>
      unfold finishScan
      split <;> exact hold rfl
  | answer | next | failed => exact hold rfl
  | registered j scan device hj hdevice =>
      refine registerDevice_shows s.nearby device (h.imp_right fun hnew => ?_)
      obtain ⟨device', hdevice', hip⟩ := hnew
      simp only [installs] at hdevice'
      split at hdevice'
      · rename_i hji
        subst hji
        rw [hj, Option.bind_some, hdevice] at hdevice'
        obtain rfl := List.mem_singleton.mp hdevice'
        exact hip
      · cases hdevice'
  | register device => exact registerDevice_shows s.nearby device (.inl (hold rfl))
  | clearFoundDevices => exact absurd hg id

/-- **What a scan has registered is found**, if nothing was cleared since it began. -/
theorem registered_shown {before after : List Event} {u s : State}
    (h : scanner.Run Machine.anyStep .initial before u)
    (h' : scanner.Run keepsDevices u after s) (hnew : u.scans[i]? = none) :
    ∀ device ∈ registeredBy i (before ++ after), s.nearby.devices.get? device.ip ≠ none := by
  induction h' with
  | start =>
      have hnone : registeredBy i before = [] :=
        congrArg Prod.snd ((followed_run h).fresh i hnew)
      simp [hnone]
  | step es e t v hr hg hs ih =>
      intro device hdevice
      have hrun := h.trans hr.any
      rw [← List.append_assoc, registeredBy, hrun.trace_snoc, List.mem_append] at hdevice
      refine shown_step hg hs (hdevice.imp (ih device) fun hinstall => ⟨device, hinstall, rfl⟩)

/-- **What a finished scan found is shown**, unless the devices were cleared since the scan began:
    every address that answered has an entry among the devices. -/
theorem scan_shown (before after : List Event) (u s : State)
    (h : scanner.Run Machine.anyStep .initial before u)
    (h' : scanner.Run keepsDevices u after s) (i : Nat) (scan : Scan)
    (hnew : u.scans[i]? = none) (hi : s.scans[i]? = some scan) (hover : scan.returned = true)
    (request : TaskId) (dto : InfoDto) (hanswer : (request, some dto) ∈ answersOf i after) :
    ∃ ip port, scan.task.targets[request]? = some (ip, port) ∧
      s.nearby.devices.get? ip ≠ none := by
  have hrun := h.trans h'.any
  have hprogress : Progress (answersOf i (before ++ after)) (registeredBy i (before ++ after))
      scan := (followed_run hrun).progress i scan hi
  have hnone : answersOf i before = [] := congrArg Prod.fst ((followed_run h).fresh i hnew)
  have hanswers : answersOf i (before ++ after) = answersOf i after := by
    rw [answersOf, List.flatMap_append, ← answersOf, hnone]
    rfl
  obtain ⟨-, hperm, hregistered⟩ := completed hprogress hover
  rw [hanswers] at hperm hregistered
  have hrequest : request < scan.task.targets.length :=
    List.mem_range.mp (hperm.mem_iff.mp (List.mem_map_of_mem hanswer))
  obtain ⟨⟨ip, port⟩, hget⟩ : ∃ target, scan.task.targets[request]? = some target :=
    ⟨_, List.getElem?_eq_getElem hrequest⟩
  have hdevice : scan.task.device request (some dto) =
      some (toDevice dto ip port scan.task.https (.http ip)) := by
    rw [HttpScanTask.device, hget]
    rfl
  have hmem : toDevice dto ip port scan.task.https (.http ip) ∈
      registeredBy i (before ++ after) := by
    rw [hregistered]
    exact List.mem_filterMap.mpr ⟨_, hanswer, hdevice⟩
  exact ⟨ip, port, hget, registered_shown h h' hnew _ hmem⟩

theorem scan_shown_finishedScanRun :
    ∃ s, scanner.Run keepsDevices .initial finishedScanRun s ∧
      s.nearby.devices.get? "10.0.0.3" ≠ none := by
  obtain ⟨s, hs, hscan⟩ := Machine.run_observe_guarded (M := scanner) (G := keepsDevices)
    (f := fun s => s.scans[0]?.map fun scan => (scan.returned, scan.task))
    (show ((scanner.guarded keepsDevices).run .initial finishedScanRun).map _ = some (some (true,
      .favorite [("10.0.0.2", 53317), ("10.0.0.3", 53317)] true)) from rfl)
  obtain ⟨scan, hscan, hview⟩ := Option.map_eq_some_iff.mp hscan
  obtain ⟨hover, htask⟩ := Prod.mk.inj hview
  obtain ⟨ip, port, htarget, hshown⟩ := scan_shown [] finishedScanRun .initial s .start hs 0 scan
    rfl hscan hover 1 ⟨"Phone", some "2.1", none, none, some "AA", none⟩ List.mem_cons_self
  rw [htask] at htarget
  obtain ⟨rfl, -⟩ := Prod.mk.inj (Option.some.inj htarget)
  exact ⟨s, hs, hshown⟩

end Results

end LocalSend.HttpScan
