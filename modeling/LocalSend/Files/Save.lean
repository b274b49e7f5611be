/-
  File:      LocalSend/Files/Save.lean
  Subject:   SAVING A FILE (`saveFile` and `_saveFile` of `file_saver.dart`) to a file-system path.
             The write stream of Android's storage framework, which has no path, is not here.

  Every operation may fail; which ones do is the `World`. The sink holds what was added until it is
  flushed or closed. A file that is closed stays closed: closing it again does nothing.

  * `saveLoop`, `saveBody`, `cleanUp`, `saveFile` -- the stream, the `try`, the `catch`, the whole;
  * `World.Interrupted` -- something fails before the file is closed;
  * `saveLoop_ok`, `saveLoop_error`, `saveBody_ok`, `saveBody_error` -- what the file holds, and
    what makes each part throw;
  * **`failed_save_iff`** -- a save that throws leaves no file, and one that returns a path has
    written the stream, exactly if the clean-up closes what was interrupted; `save_leaves_file`.
-/
import LocalSend.Files.Saver

namespace LocalSend.Files.Saving

open Lib.Posix

/-! ## 1. The world -/

abbrev Bytes := List UInt8

/-- The content of every file. -/
abbrev Disk := Text → Option Bytes

/-- What becomes of the bytes in the sink; a failure may come after some of them. -/
inductive Outcome where
  | ok
  | fails (reached : Nat)
  deriving DecidableEq, Repr

/-- What `Gal.putImage` or `Gal.putVideo` does. -/
inductive GalleryAnswer where
  | saved
  | notSupportedFormat
  | otherFailure
  deriving DecidableEq, Repr

/-- What happens around a save. -/
structure World where
  /-- `openWrite` creates the file -/
  opens : Bool
  /-- the stream ends with an error -/
  streamFails : Bool
  /-- adding this block throws -/
  addFails : Nat → Bool
  /-- the flush after this block -/
  flush : Nat → Outcome
  lastFlush : Outcome
  close : Outcome
  /-- the close of the clean-up -/
  closeAgain : Outcome
  gallery : GalleryAnswer
  /-- the second path of `digestFilePathAndPrepareDirectory`, `none` where it throws -/
  fallbackPath : Option Text
  renames : Bool
  /-- 100 ms have passed since the last report -/
  elapsed : Nat → Bool

/-- A save on its way. -/
structure SaveRun where
  disk : Disk
  /-- added and not flushed -/
  pending : Bytes
  closed : Bool
  savedBytes : Nat
  lastFlushedBytes : Nat
  progress : List Nat

/-! ## 2. The code -/

def tenMB : Nat := 10 * 1024 * 1024

section Code

variable (w : World) (destinationPath : Text)

def SaveRun.onProgress (s : SaveRun) : SaveRun :=
  { s with progress := s.progress ++ [s.savedBytes] }

/-- More bytes of the sink reach the file. -/
def SaveRun.reach (s : SaveRun) (bytes : Bytes) : SaveRun :=
  { s with
    disk := Function.update s.disk destinationPath ((s.disk destinationPath).map (· ++ bytes)) }

def SaveRun.delete (s : SaveRun) : SaveRun :=
  { s with disk := Function.update s.disk destinationPath none }

def SaveRun.rename (s : SaveRun) (newPath : Text) : SaveRun :=
  { s with
    disk := Function.update (Function.update s.disk destinationPath none) newPath
      (s.disk destinationPath) }

/-- `sink.add`. -/
def sinkAdd (i : Nat) (block : Bytes) (s : SaveRun) : Except SaveRun SaveRun :=
  if w.addFails i then .error s else .ok { s with pending := s.pending ++ block }

/-- `sink.flush`; there is nothing to flush to if the file could not be opened. -/
def sinkFlush (outcome : Outcome) (s : SaveRun) : Except SaveRun SaveRun :=
  if w.opens then
    match outcome with
    | .ok => .ok { s.reach destinationPath s.pending with pending := [] }
    | .fails reached => .error (s.reach destinationPath (s.pending.take reached))
  else .error s

/-- The `close` callback. That the times could not be set is ignored. -/
def sinkClose (outcome : Outcome) (s : SaveRun) : Except SaveRun SaveRun :=
  if s.closed then .ok s
  else (sinkFlush w destinationPath outcome s).map fun s => { s with closed := true }

/-- The body of the loop for block `i`. -/
def saveBlock (i : Nat) (block : Bytes) (s : SaveRun) : Except SaveRun SaveRun := do
  let s ← sinkAdd w i block s
  let s := { s with savedBytes := s.savedBytes + block.length }
  let s := if w.elapsed i then s.onProgress else s
  if s.lastFlushedBytes + tenMB ≤ s.savedBytes then
    let s ← sinkFlush w destinationPath (w.flush i) s
    return { s with lastFlushedBytes := s.savedBytes }
  else return s

/-- `await for` over the stream, from block `i` on. -/
def saveLoop : Nat → List Bytes → SaveRun → Except SaveRun SaveRun
  | _, [], s => if w.streamFails then .error s else .ok s
  | i, block :: blocks, s => do
    let s ← saveBlock w destinationPath i block s
    saveLoop (i + 1) blocks s

/-- What follows the close. -/
def saveResult (saveToGallery : Bool) (s : SaveRun) :
    Except SaveRun (SaveRun × Bool × Option Text) :=
  if saveToGallery then
    match w.gallery with
    | .saved => .ok ((s.delete destinationPath).onProgress, true, none)
    | .notSupportedFormat =>
      match w.fallbackPath with
      | none => .error s
      | some fallbackPath =>
        if w.renames then
          .ok ((s.rename destinationPath fallbackPath).onProgress, false, some fallbackPath)
        else .error s
    | .otherFailure => .error s
  else .ok (s.onProgress, false, some destinationPath)

/-- The `try` of `_saveFile`. -/
def saveBody (saveToGallery : Bool) (blocks : List Bytes) (s : SaveRun) :
    Except SaveRun (SaveRun × Bool × Option Text) := do
  let s ← saveLoop w destinationPath 0 blocks s
  let s ← sinkFlush w destinationPath w.lastFlush s
  let s ← sinkClose w destinationPath w.close s
  saveResult w destinationPath saveToGallery s

/-- The `catch` of `_saveFile`: a close that throws ends it. -/
def cleanUp (s : SaveRun) : SaveRun :=
  match sinkClose w destinationPath w.closeAgain s with
  | .ok s => s.delete destinationPath
  | .error s => s

/-- `openWrite`. -/
def openWrite (disk : Disk) : SaveRun where
  disk := if w.opens then Function.update disk destinationPath (some []) else disk
  pending := []
  closed := false
  savedBytes := 0
  lastFlushedBytes := 0
  progress := []

/-- **`saveFile`**: the disk it leaves, and the record it returns, `none` where it throws. -/
def saveFile (saveToGallery : Bool) (blocks : List Bytes) (disk : Disk) :
    Disk × Option (Bool × Option Text) :=
  match saveBody w destinationPath saveToGallery blocks (openWrite w destinationPath disk) with
  | .ok (s, result) => (s.disk, some result)
  | .error s => ((cleanUp w destinationPath s).disk, none)

end Code

/-! ## 3. What fails -/

/-- The blocks after which the sink is flushed. -/
def flushPoints (i savedBytes lastFlushedBytes : Nat) : List Bytes → List Nat
  | [] => []
  | block :: blocks =>
    if lastFlushedBytes + tenMB ≤ savedBytes + block.length then
      i :: flushPoints (i + 1) (savedBytes + block.length) (savedBytes + block.length) blocks
    else flushPoints (i + 1) (savedBytes + block.length) lastFlushedBytes blocks

/-- **Something fails before the file is closed.** -/
def World.Interrupted (w : World) (blocks : List Bytes) : Prop :=
  w.streamFails = true ∨ (∃ i < blocks.length, w.addFails i = true) ∨
  (∃ i ∈ flushPoints 0 0 0 blocks, w.flush i ≠ .ok) ∨ w.lastFlush ≠ .ok ∨ w.close ≠ .ok

/-! ## 4. What the file holds -/

/-- The file and the sink together hold this. -/
structure Holds (destinationPath : Text) (bytes : Bytes) (s : SaveRun) : Prop where
  file : ∃ content, s.disk destinationPath = some content ∧ content ++ s.pending = bytes
  unclosed : s.closed = false

/-- The file is there, and not closed. -/
def Left (destinationPath : Text) (s : SaveRun) : Prop :=
  s.disk destinationPath ≠ none ∧ s.closed = false

section Spec

variable {w : World} {path : Text} {bytes block : Bytes} {s t : SaveRun} {i : Nat}
  {blocks : List Bytes}

theorem Holds.left (h : Holds path bytes s) : Left path s := by
  obtain ⟨content, hcontent, _⟩ := h.file
  exact ⟨by rw [hcontent]; exact Option.some_ne_none content, h.unclosed⟩

theorem reach_disk (s : SaveRun) (path : Text) (bytes : Bytes) :
    (s.reach path bytes).disk path = (s.disk path).map (· ++ bytes) :=
  Function.update_self ..

/-- A flush that goes well empties the sink into the file. -/
theorem sinkFlush_ok (hw : w.opens = true) (h : Holds path bytes s) :
    sinkFlush w path .ok s = .ok { s.reach path s.pending with pending := [] } ∧
    Holds path bytes { s.reach path s.pending with pending := [] } := by
  refine ⟨by simp [sinkFlush, hw], ?_, h.unclosed⟩
  obtain ⟨content, hcontent, hbytes⟩ := h.file
  refine ⟨bytes, ?_, List.append_nil bytes⟩
  change (s.reach path s.pending).disk path = some bytes
  rw [reach_disk, hcontent, Option.map_some, hbytes]

/-- A flush that fails leaves the file. -/
theorem sinkFlush_fails {outcome : Outcome} (hw : w.opens = true) (h : Left path s)
    (ho : outcome ≠ .ok) : ∃ t, sinkFlush w path outcome s = .error t ∧ Left path t := by
  cases outcome with
  | ok => exact absurd rfl ho
  | fails reached =>
      refine ⟨s.reach path (s.pending.take reached), by simp [sinkFlush, hw], ?_, h.2⟩
      rw [reach_disk]
      simpa using h.1

/-- After the block was added and counted. -/
structure Added (block : Bytes) (s t : SaveRun) : Prop where
  disk : t.disk = s.disk
  pending : t.pending = s.pending ++ block
  closed : t.closed = s.closed
  savedBytes : t.savedBytes = s.savedBytes + block.length
  lastFlushedBytes : t.lastFlushedBytes = s.lastFlushedBytes

/-- A block is added, and flushed where a flush is due. -/
theorem saveBlock_added (path : Text) (block : Bytes) (s : SaveRun)
    (hadd : w.addFails i = false) : ∃ t, Added block s t ∧
    saveBlock w path i block s =
      if s.lastFlushedBytes + tenMB ≤ s.savedBytes + block.length then
        (sinkFlush w path (w.flush i) t).map fun u => { u with lastFlushedBytes := u.savedBytes }
      else .ok t := by
  let counted : SaveRun := { s with
    pending := s.pending ++ block
    savedBytes := s.savedBytes + block.length }
  refine ⟨if w.elapsed i then counted.onProgress else counted, ?_, ?_⟩
  · split <;> exact ⟨rfl, rfl, rfl, rfl, rfl⟩
  · by_cases helapsed : w.elapsed i = true <;>
      by_cases hdue : s.lastFlushedBytes + tenMB ≤ s.savedBytes + block.length <;>
      simp only [saveBlock, sinkAdd, hadd, helapsed, hdue, counted, SaveRun.onProgress, if_true,
        if_false, Bool.false_eq_true, bind, Except.bind, pure, Except.pure] <;>
      rfl

theorem Added.holds (ha : Added block s t) (h : Holds path bytes s) :
    Holds path (bytes ++ block) t := by
  obtain ⟨content, hcontent, hbytes⟩ := h.file
  refine ⟨⟨content, ?_, ?_⟩, ha.closed.trans h.unclosed⟩
  · rw [ha.disk, hcontent]
  · rw [ha.pending, ← List.append_assoc, hbytes]

/-- One block, where nothing fails. -/
theorem saveBlock_ok (hw : w.opens = true) (h : Holds path bytes s) (hadd : w.addFails i = false)
    (hflush : s.lastFlushedBytes + tenMB ≤ s.savedBytes + block.length → w.flush i = .ok) :
    ∃ t, saveBlock w path i block s = .ok t ∧ Holds path (bytes ++ block) t ∧
      t.savedBytes = s.savedBytes + block.length ∧
      t.lastFlushedBytes = if s.lastFlushedBytes + tenMB ≤ s.savedBytes + block.length then
        s.savedBytes + block.length else s.lastFlushedBytes := by
  obtain ⟨t, ha, heq⟩ := saveBlock_added path block s hadd
  by_cases hdue : s.lastFlushedBytes + tenMB ≤ s.savedBytes + block.length
  · obtain ⟨hok, hholds⟩ := sinkFlush_ok hw (ha.holds h)
    rw [if_pos hdue, hflush hdue, hok] at heq
    refine ⟨_, heq, ⟨hholds.file, hholds.unclosed⟩, ha.savedBytes, ?_⟩
    rw [if_pos hdue]
    exact ha.savedBytes
  · rw [if_neg hdue] at heq
    refine ⟨t, heq, ha.holds h, ha.savedBytes, ?_⟩
    rw [if_neg hdue]
    exact ha.lastFlushedBytes

/-- One block, where adding or flushing fails. -/
theorem saveBlock_error (hw : w.opens = true) (h : Holds path bytes s)
    (hfails : w.addFails i = true ∨
      (s.lastFlushedBytes + tenMB ≤ s.savedBytes + block.length ∧ w.flush i ≠ .ok)) :
    ∃ t, saveBlock w path i block s = .error t ∧ Left path t := by
  by_cases hadd : w.addFails i = true
  · refine ⟨s, ?_, h.left⟩
    simp only [saveBlock, sinkAdd, hadd, if_true]
    rfl
  · obtain ⟨hdue, hflush⟩ := hfails.resolve_left hadd
    rw [Bool.not_eq_true] at hadd
    obtain ⟨t, ha, heq⟩ := saveBlock_added path block s hadd
    obtain ⟨u, hu, hleft⟩ := sinkFlush_fails hw (ha.holds h).left hflush
    rw [if_pos hdue, hu] at heq
    exact ⟨u, heq, hleft⟩

/-- Where the sink is flushed: after the first block if it is due, and after the later ones from
    what the first one leaves. -/
theorem mem_flushPoints_cons {savedBytes lastFlushedBytes k : Nat} :
    k ∈ flushPoints i savedBytes lastFlushedBytes (block :: blocks) ↔
      (lastFlushedBytes + tenMB ≤ savedBytes + block.length ∧ k = i) ∨
      k ∈ flushPoints (i + 1) (savedBytes + block.length)
        (if lastFlushedBytes + tenMB ≤ savedBytes + block.length then savedBytes + block.length
          else lastFlushedBytes) blocks := by
  rw [flushPoints]
  by_cases hdue : lastFlushedBytes + tenMB ≤ savedBytes + block.length
  · rw [if_pos hdue, if_pos hdue, List.mem_cons]
    exact or_congr_left ⟨fun hk => ⟨hdue, hk⟩, fun hk => hk.2⟩
  · rw [if_neg hdue, if_neg hdue]
    exact ⟨Or.inr, fun hk => hk.resolve_left fun hk => hdue hk.1⟩

/-- **The stream is in the file or the sink**, where nothing fails. -/
theorem saveLoop_ok (hw : w.opens = true) (h : Holds path bytes s)
    (hstream : w.streamFails = false) (hadd : ∀ k < blocks.length, w.addFails (i + k) = false)
    (hflush : ∀ k ∈ flushPoints i s.savedBytes s.lastFlushedBytes blocks, w.flush k = .ok) :
    ∃ t, saveLoop w path i blocks s = .ok t ∧ Holds path (bytes ++ blocks.flatten) t := by
  induction blocks generalizing i s bytes with
  | nil =>
      refine ⟨s, by simp [saveLoop, hstream], ?_⟩
      rwa [List.flatten_nil, List.append_nil]
  | cons block blocks ih =>
      have hzero : w.addFails i = false := hadd 0 (Nat.succ_pos _)
      have hhere : s.lastFlushedBytes + tenMB ≤ s.savedBytes + block.length →
          w.flush i = .ok := fun hdue => hflush i (mem_flushPoints_cons.mpr (.inl ⟨hdue, rfl⟩))
      obtain ⟨t, ht, hholds, hsaved, hlast⟩ := saveBlock_ok hw h hzero hhere
      have hrest : ∀ k ∈ flushPoints (i + 1) t.savedBytes t.lastFlushedBytes blocks,
          w.flush k = .ok := by
        intro k hk
        rw [hsaved, hlast] at hk
        exact hflush k (mem_flushPoints_cons.mpr (.inr hk))
      obtain ⟨u, hu, hall⟩ := ih hholds (fun k hk => by
        rw [Nat.add_assoc, Nat.add_comm 1]
        exact hadd (k + 1) (Nat.succ_lt_succ hk)) hrest
      refine ⟨u, by rw [saveLoop, ht]; exact hu, ?_⟩
      rwa [List.flatten_cons, ← List.append_assoc]

/-- **A failure in the loop** leaves the file. -/
theorem saveLoop_error (hw : w.opens = true) (h : Holds path bytes s)
    (hfails : w.streamFails = true ∨ (∃ k < blocks.length, w.addFails (i + k) = true) ∨
      ∃ k ∈ flushPoints i s.savedBytes s.lastFlushedBytes blocks, w.flush k ≠ .ok) :
    ∃ t, saveLoop w path i blocks s = .error t ∧ Left path t := by
  induction blocks generalizing i s bytes with
  | nil =>
      rcases hfails with hstream | ⟨k, hk, _⟩ | ⟨k, hk, _⟩
      · exact ⟨s, by simp [saveLoop, hstream], h.left⟩
      · exact absurd hk (Nat.not_lt_zero k)
      · exact absurd hk List.not_mem_nil
  | cons block blocks ih =>
      by_cases hhere : w.addFails i = true ∨
          (s.lastFlushedBytes + tenMB ≤ s.savedBytes + block.length ∧ w.flush i ≠ .ok)
      · obtain ⟨t, ht, hleft⟩ := saveBlock_error hw h hhere
        exact ⟨t, by rw [saveLoop, ht]; rfl, hleft⟩
      · rw [not_or, Bool.not_eq_true] at hhere
        obtain ⟨hadd, hflush⟩ := hhere
        have hok : s.lastFlushedBytes + tenMB ≤ s.savedBytes + block.length →
            w.flush i = .ok := fun hdue => Decidable.not_not.mp fun hne => hflush ⟨hdue, hne⟩
        obtain ⟨t, ht, hholds, hsaved, hlast⟩ := saveBlock_ok hw h hadd hok
        have hlater : w.streamFails = true ∨
            (∃ k < blocks.length, w.addFails (i + 1 + k) = true) ∨
            ∃ k ∈ flushPoints (i + 1) t.savedBytes t.lastFlushedBytes blocks,
              w.flush k ≠ .ok := by
          rcases hfails with hstream | ⟨k, hk, haddk⟩ | ⟨k, hk, hflushk⟩
          · exact Or.inl hstream
          · cases k with
            | zero =>
                rw [Nat.add_zero, hadd] at haddk
                cases haddk
            | succ k =>
                refine Or.inr (Or.inl ⟨k, Nat.lt_of_succ_lt_succ hk, ?_⟩)
                rwa [Nat.add_assoc, Nat.add_comm 1]
          · refine Or.inr (Or.inr ⟨k, ?_, hflushk⟩)
            rw [hsaved, hlast]
            rcases mem_flushPoints_cons.mp hk with ⟨hdue, rfl⟩ | hk
            · exact absurd (hok hdue) hflushk
            · exact hk
        obtain ⟨u, hu, hleft⟩ := ih hholds hlater
        exact ⟨u, by rw [saveLoop, ht]; exact hu, hleft⟩

/-! ## 5. The whole save -/

variable {disk : Disk} {saveToGallery : Bool}

theorem openWrite_holds (path : Text) (hw : w.opens = true) (disk : Disk) :
    Holds path [] (openWrite w path disk) := by
  refine ⟨⟨[], ?_, rfl⟩, rfl⟩
  simp [openWrite, hw]

/-- A file that is open is flushed before it is closed. -/
theorem sinkClose_open (h : s.closed = false) (outcome : Outcome) :
    sinkClose w path outcome s =
      (sinkFlush w path outcome s).map fun s => { s with closed := true } := by
  rw [sinkClose, h]
  rfl

/-- The rest of the `try`, after the loop. -/
theorem saveBody_of_loop (h : saveLoop w path 0 blocks (openWrite w path disk) = .ok s) :
    saveBody w path saveToGallery blocks (openWrite w path disk) =
      sinkFlush w path w.lastFlush s >>= fun s =>
        sinkClose w path w.close s >>= fun s => saveResult w path saveToGallery s := by
  rw [saveBody, h]
  rfl

/-- After the flush behind the loop the file is closed with what it holds. -/
theorem saveBody_flushed (hw : w.opens = true) (saveToGallery : Bool)
    (hs : saveLoop w path 0 blocks (openWrite w path disk) = .ok s) (h : Holds path bytes s)
    (hlast : w.lastFlush = .ok) :
    ∃ t, Holds path bytes t ∧ saveBody w path saveToGallery blocks (openWrite w path disk) =
      ((sinkFlush w path w.close t).map fun s => { s with closed := true }) >>= fun s =>
        saveResult w path saveToGallery s := by
  obtain ⟨hok, hholds⟩ := sinkFlush_ok hw h
  refine ⟨_, hholds, ?_⟩
  rw [saveBody_of_loop hs, hlast, hok, ← sinkClose_open hholds.unclosed]
  rfl

/-- **A save that is not interrupted** has the stream in the file when it is closed. -/
theorem saveBody_ok (path : Text) (hw : w.opens = true) (hfine : ¬ w.Interrupted blocks)
    (disk : Disk) (saveToGallery : Bool) :
    ∃ t, t.closed = true ∧ t.disk path = some blocks.flatten ∧
      saveBody w path saveToGallery blocks (openWrite w path disk) =
        saveResult w path saveToGallery t := by
  simp only [World.Interrupted, not_or, not_exists, not_and, ne_eq, Decidable.not_not,
    Bool.not_eq_true] at hfine
  obtain ⟨hstream, hadd, hflush, hlast, hclose⟩ := hfine
  obtain ⟨s, hs, hholds⟩ := saveLoop_ok (i := 0) hw (openWrite_holds path hw disk) hstream
    (fun k hk => by rw [Nat.zero_add]; exact hadd k hk) hflush
  rw [List.nil_append] at hholds
  obtain ⟨t, hholds, hbody⟩ := saveBody_flushed hw saveToGallery hs hholds hlast
  obtain ⟨hok, hholds⟩ := sinkFlush_ok hw hholds
  obtain ⟨content, hcontent, hbytes⟩ := hholds.file
  rw [List.append_nil] at hbytes
  refine ⟨{ t.reach path t.pending with pending := [], closed := true }, rfl,
    hcontent.trans (congrArg some hbytes), ?_⟩
  rw [hbody, hclose, hok]
  rfl

/-- **An interrupted save** leaves a file that is not closed. -/
theorem saveBody_error (path : Text) (hw : w.opens = true) (hint : w.Interrupted blocks)
    (disk : Disk) (saveToGallery : Bool) :
    ∃ t, saveBody w path saveToGallery blocks (openWrite w path disk) = .error t ∧
      Left path t := by
  have hopen := openWrite_holds path hw disk
  by_cases hloop : w.streamFails = true ∨ (∃ k < blocks.length, w.addFails (0 + k) = true) ∨
      ∃ k ∈ flushPoints 0 0 0 blocks, w.flush k ≠ .ok
  · obtain ⟨t, ht, hleft⟩ := saveLoop_error (i := 0) hw hopen hloop
    refine ⟨t, ?_, hleft⟩
    rw [saveBody, ht]
    rfl
  · simp only [not_or, not_exists, not_and, ne_eq, Decidable.not_not, Bool.not_eq_true,
      Nat.zero_add] at hloop
    obtain ⟨hstream, hadd, hflush⟩ := hloop
    obtain ⟨s, hs, hholds⟩ := saveLoop_ok (i := 0) hw hopen hstream
      (fun k hk => by rw [Nat.zero_add]; exact hadd k hk) hflush
    by_cases hlast : w.lastFlush = .ok
    · have hclose : w.close ≠ .ok := by
        rcases hint with h | ⟨k, hk, h⟩ | ⟨k, hk, h⟩ | h | h
        · rw [hstream] at h
          cases h
        · rw [hadd k hk] at h
          cases h
        · exact absurd (hflush k hk) h
        · exact absurd hlast h
        · exact h
      obtain ⟨u, hholds, hbody⟩ := saveBody_flushed hw saveToGallery hs hholds hlast
      obtain ⟨t, ht, hleft⟩ := sinkFlush_fails hw hholds.left hclose
      refine ⟨t, ?_, hleft⟩
      rw [hbody, ht]
      rfl
    · obtain ⟨t, ht, hleft⟩ := sinkFlush_fails hw hholds.left hlast
      refine ⟨t, ?_, hleft⟩
      rw [saveBody_of_loop hs, ht]
      rfl

/-- Nothing reaches a file that could not be opened. -/
theorem saveLoop_unopened (path : Text) (hw : w.opens = false) (i : Nat) (blocks : List Bytes)
    (s : SaveRun) :
    ∃ t, (saveLoop w path i blocks s = .ok t ∨ saveLoop w path i blocks s = .error t) ∧
      t.disk = s.disk ∧ t.closed = s.closed := by
  induction blocks generalizing i s with
  | nil =>
      refine ⟨s, ?_, rfl, rfl⟩
      cases hstream : w.streamFails <;> simp [saveLoop, hstream]
  | cons block blocks ih =>
      by_cases hadd : w.addFails i = true
      · refine ⟨s, Or.inr ?_, rfl, rfl⟩
        simp only [saveLoop, saveBlock, sinkAdd, hadd, if_true]
        rfl
      · rw [Bool.not_eq_true] at hadd
        obtain ⟨t, ha, heq⟩ := saveBlock_added path block s hadd
        by_cases hdue : s.lastFlushedBytes + tenMB ≤ s.savedBytes + block.length
        · refine ⟨t, Or.inr ?_, ha.disk, ha.closed⟩
          have hflush : sinkFlush w path (w.flush i) t = .error t := by simp [sinkFlush, hw]
          rw [if_pos hdue, hflush] at heq
          rw [saveLoop, heq]
          rfl
        · rw [if_neg hdue] at heq
          obtain ⟨u, hu, hdisk, hclosed⟩ := ih (i + 1) t
          refine ⟨u, ?_, hdisk.trans ha.disk, hclosed.trans ha.closed⟩
          rw [saveLoop, heq]
          exact hu

/-- A file that could not be opened: nothing is written, and the save throws. -/
theorem saveBody_unopened (path : Text) (blocks : List Bytes) (hw : w.opens = false)
    (disk : Disk) (saveToGallery : Bool) :
    ∃ t, saveBody w path saveToGallery blocks (openWrite w path disk) = .error t ∧
      t.disk = disk ∧ t.closed = false := by
  have hstart : (openWrite w path disk).disk = disk := by simp [openWrite, hw]
  obtain ⟨t, ht, hdisk, hclosed⟩ := saveLoop_unopened path hw 0 blocks
    (openWrite w path disk)
  refine ⟨t, ?_, hdisk.trans hstart, hclosed⟩
  rcases ht with ht | ht
  · have hflush : sinkFlush w path w.lastFlush t = .error t := by simp [sinkFlush, hw]
    rw [saveBody_of_loop ht, hflush]
    rfl
  · rw [saveBody, ht]
    rfl

/-- The clean-up deletes a file that it can close. -/
theorem cleanUp_deletes (h : s.closed = true ∨ (w.opens = true ∧ w.closeAgain = .ok)) :
    (cleanUp w path s).disk path = none := by
  have hclose : ∃ t, sinkClose w path w.closeAgain s = .ok t := by
    by_cases hclosed : s.closed = true
    · exact ⟨s, by rw [sinkClose, if_pos hclosed]⟩
    · obtain ⟨hw, hagain⟩ := h.resolve_left hclosed
      rw [Bool.not_eq_true] at hclosed
      rw [sinkClose_open hclosed, hagain]
      refine ⟨{ s.reach path s.pending with pending := [], closed := true }, ?_⟩
      simp [sinkFlush, hw, Except.map]
  obtain ⟨t, ht⟩ := hclose
  simp [cleanUp, ht, SaveRun.delete]

/-- A close that fails in the clean-up leaves the file. -/
theorem cleanUp_leaves (hw : w.opens = true) (h : Left path s) (hagain : w.closeAgain ≠ .ok) :
    (cleanUp w path s).disk path ≠ none := by
  obtain ⟨t, ht, hleft⟩ := sinkFlush_fails hw h hagain
  rw [cleanUp, sinkClose_open h.2, ht]
  exact hleft.1

/-! ## 6. A clean save -/

/-- **A save that throws leaves no file**, and one that returns a path has the stream there. -/
def CleanSave (w : World) (path : Text) (saveToGallery : Bool) (blocks : List Bytes)
    (disk : Disk) : Prop :=
  ((saveFile w path saveToGallery blocks disk).2 = none →
    (saveFile w path saveToGallery blocks disk).1 path = none) ∧
  ∀ returned, (saveFile w path saveToGallery blocks disk).2 = some (false, some returned) →
    (saveFile w path saveToGallery blocks disk).1 returned = some blocks.flatten

/-- **After the close**: the save throws and has touched nothing, or the file is where it says. -/
theorem saveResult_cases (w : World) (path : Text) (saveToGallery : Bool) (t : SaveRun) :
    saveResult w path saveToGallery t = .error t ∨
    ∃ u saved location, saveResult w path saveToGallery t = .ok (u, saved, location) ∧
      ∀ returned, saved = false → location = some returned → u.disk returned = t.disk path := by
  unfold saveResult
  cases saveToGallery with
  | false =>
      refine Or.inr ⟨t.onProgress, false, some path, rfl, fun returned _ hpath => ?_⟩
      obtain rfl := Option.some.inj hpath
      rfl
  | true =>
      rw [if_pos rfl]
      cases w.gallery with
      | saved => exact Or.inr ⟨_, _, _, rfl, fun returned h => by cases h⟩
      | otherFailure => exact Or.inl rfl
      | notSupportedFormat =>
          cases w.fallbackPath with
          | none => exact Or.inl rfl
          | some fallbackPath =>
              cases w.renames with
              | false => exact Or.inl rfl
              | true =>
                  refine Or.inr ⟨_, _, _, rfl, fun returned _ hpath => ?_⟩
                  obtain rfl := Option.some.inj hpath
                  exact Function.update_self ..

/-- After the close the save is clean, whatever the gallery does. -/
theorem cleanSave_closed (hclosed : t.closed = true) (hdisk : t.disk path = some blocks.flatten)
    (hbody : saveBody w path saveToGallery blocks (openWrite w path disk) =
      saveResult w path saveToGallery t) :
    CleanSave w path saveToGallery blocks disk := by
  rcases saveResult_cases w path saveToGallery t with h | ⟨u, saved, location, h, hcontent⟩
  · have hsave : saveFile w path saveToGallery blocks disk = ((cleanUp w path t).disk, none) := by
      rw [saveFile, hbody, h]
    rw [CleanSave, hsave]
    refine ⟨fun _ => cleanUp_deletes (Or.inl hclosed), fun returned h => ?_⟩
    cases h
  · have hsave : saveFile w path saveToGallery blocks disk = (u.disk, some (saved, location)) := by
      rw [saveFile, hbody, h]
    rw [CleanSave, hsave]
    refine ⟨fun h => ?_, fun returned h => ?_⟩
    · cases h
    · simp only [Option.some.injEq, Prod.mk.injEq] at h
      exact (hcontent returned h.1 h.2).trans hdisk

end Spec

/-- **A failed save leaves no file**, for a path without a file, exactly if the clean-up can close
    the file that an interrupted save has opened. -/
theorem failed_save_iff (w : World) (path : Text) (saveToGallery : Bool) (blocks : List Bytes)
    (disk : Disk) (hfree : disk path = none) :
    CleanSave w path saveToGallery blocks disk ↔
      (w.opens = true → w.Interrupted blocks → w.closeAgain = .ok) := by
  cases hw : w.opens with
  | false =>
      refine ⟨fun _ h => Bool.noConfusion h, fun _ => ?_⟩
      obtain ⟨t, ht, hdisk, hclosed⟩ := saveBody_unopened path blocks hw disk
        saveToGallery
      have hclose : sinkClose w path w.closeAgain t = .error t := by
        rw [sinkClose_open hclosed]
        simp [sinkFlush, hw, Except.map]
      have hsave : saveFile w path saveToGallery blocks disk = (disk, none) := by
        rw [saveFile, ht]
        simp only [cleanUp, hclose, hdisk]
      rw [CleanSave, hsave]
      exact ⟨fun _ => hfree, fun returned h => by cases h⟩
  | true =>
      by_cases hint : w.Interrupted blocks
      · obtain ⟨t, ht, hleft⟩ := saveBody_error path hw hint disk saveToGallery
        have hsave : saveFile w path saveToGallery blocks disk =
            ((cleanUp w path t).disk, none) := by
          rw [saveFile, ht]
        rw [CleanSave, hsave]
        constructor
        · intro hclean _ _
          by_contra hagain
          exact cleanUp_leaves hw hleft hagain (hclean.1 rfl)
        · intro hagain
          refine ⟨fun _ => cleanUp_deletes (Or.inr ⟨hw, hagain rfl hint⟩), fun returned h => ?_⟩
          cases h
      · obtain ⟨t, hclosed, hdisk, hbody⟩ := saveBody_ok path hw hint disk saveToGallery
        exact ⟨fun _ _ h => absurd h hint, fun _ => cleanSave_closed hclosed hdisk hbody⟩

/-- Nothing fails. -/
def calm : World where
  opens := true
  streamFails := false
  addFails _ := false
  flush _ := .ok
  lastFlush := .ok
  close := .ok
  closeAgain := .ok
  gallery := .saved
  fallbackPath := none
  renames := true
  elapsed _ := false

/-- The sender goes away after the second block. -/
def brokenStream : World := { calm with streamFails := true }

/-- The device is full after three bytes, and the sink does not forget it. -/
def deviceFull : World := { calm with lastFlush := .fails 3, closeAgain := .fails 0 }

theorem failed_save_iff_brokenStream :
    CleanSave brokenStream "/downloads/a.txt".toList false [[1, 2], [3]] fun _ => none :=
  (failed_save_iff brokenStream "/downloads/a.txt".toList false [[1, 2], [3]] (fun _ => none)
    rfl).mpr fun _ _ => rfl

/-- **A full device**: the save throws, and the file stays with what fitted in. -/
theorem save_leaves_file :
    (saveFile deviceFull "/downloads/a.txt".toList false [[1, 2, 3, 4, 5]] fun _ => none).2 = none ∧
    (saveFile deviceFull "/downloads/a.txt".toList false [[1, 2, 3, 4, 5]] fun _ => none).1
      "/downloads/a.txt".toList = some [1, 2, 3] ∧
    ¬ CleanSave deviceFull "/downloads/a.txt".toList false [[1, 2, 3, 4, 5]] fun _ => none := by
  have hthrown : (saveFile deviceFull "/downloads/a.txt".toList false [[1, 2, 3, 4, 5]]
    fun _ => none).2 = none := rfl
  have hfile : (saveFile deviceFull "/downloads/a.txt".toList false [[1, 2, 3, 4, 5]]
    fun _ => none).1 "/downloads/a.txt".toList = some [1, 2, 3] := rfl
  refine ⟨hthrown, hfile, fun hclean => ?_⟩
  have hgone := hclean.1 hthrown
  rw [hfile] at hgone
  cases hgone

end LocalSend.Files.Saving
