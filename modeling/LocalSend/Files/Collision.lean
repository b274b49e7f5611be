/-
  File:      LocalSend/Files/Collision.lean
  Subject:   THE NAME THAT IS FREE (the loop of `digestFilePathAndPrepareDirectory` in
             `file_saver.dart`, over `withCount` of `file_path_helper.dart`).

  * `destinationName`, `destinationPath` -- what the loop tries under a counter;
  * `freePath_eq` -- the loop ends at the first candidate that does not exist;
  * `withCount_injective` -- a name with a number is another one for every number;
  * **`freePath_firstFree`** -- with finitely many files the loop ends, at the first free candidate.

  A name that ends in a number in brackets is tried twice: as it is, and under its number
  (`numbered_twice`).
-/
import LocalSend.Files.Containment
import LocalSend.Files.Names
import Mathlib.Data.Set.Finite.Basic

namespace LocalSend.Files

open Lib.Posix

/-- The name under a counter. -/
def destinationName (platform : Platform) (actualFileName : Text) (counter : Nat) : Text :=
  if counter = 1 then actualFileName else withCount platform actualFileName counter

def destinationPath (platform : Platform) (dir actualFileName : Text) (counter : Nat) : Text :=
  joinAll [dir, destinationName platform actualFileName counter]

/-- **The first candidate that does not exist**, the original name first. -/
structure FirstFree (platform : Platform) (fs : FileSystem) (dir actualFileName : Text) (k : Nat) :
    Prop where
  pos : 1 ≤ k
  free : fs.fileExists (destinationPath platform dir actualFileName k) = false
  taken : ∀ j, 1 ≤ j → j < k → fs.fileExists (destinationPath platform dir actualFileName j) = true

variable {platform : Platform} {fs : FileSystem} {dir actualFileName name : Text}

/-! ## 1. The loop -/

theorem freePath_succ (rounds counter : Nat) :
    freePath platform fs dir actualFileName (rounds + 1) counter =
      if fs.fileExists (destinationPath platform dir actualFileName counter) = true then
        freePath platform fs dir actualFileName rounds (counter + 1)
      else some (destinationPath platform dir actualFileName counter) := rfl

/-- From any counter on: the candidates before the free one are passed. -/
theorem freePath_eq {k : Nat}
    (hfree : fs.fileExists (destinationPath platform dir actualFileName k) = false) :
    ∀ {rounds counter : Nat}, counter ≤ k → k - counter < rounds →
      (∀ j, counter ≤ j → j < k →
        fs.fileExists (destinationPath platform dir actualFileName j) = true) →
      freePath platform fs dir actualFileName rounds counter =
        some (destinationPath platform dir actualFileName k) := by
  intro rounds
  induction rounds with
  | zero =>
      intro counter _ hrounds _
      exact absurd hrounds (Nat.not_lt_zero _)
  | succ rounds ih =>
      intro counter hcounter hrounds htaken
      rw [freePath_succ]
      rcases Nat.eq_or_lt_of_le hcounter with rfl | hlt
      · rw [if_neg (by simp [hfree])]
      · rw [if_pos (htaken counter (Nat.le_refl _) hlt)]
        exact ih hlt (by omega) fun j hj hjk => htaken j (by omega) hjk

theorem FirstFree.freePath_eq {k : Nat} (h : FirstFree platform fs dir actualFileName k)
    {rounds : Nat} (hrounds : k ≤ rounds) :
    freePath platform fs dir actualFileName rounds 1 =
      some (destinationPath platform dir actualFileName k) := by
  have hpos := h.pos
  exact Files.freePath_eq h.free hpos (by omega) h.taken

/-- Where a candidate is free, one is the first. -/
theorem firstFree_of_free {k : Nat} (hpos : 1 ≤ k)
    (hfree : fs.fileExists (destinationPath platform dir actualFileName k) = false) :
    ∃ first, FirstFree platform fs dir actualFileName first := by
  have hsome : ∃ k, 1 ≤ k ∧ fs.fileExists (destinationPath platform dir actualFileName k) = false :=
    ⟨k, hpos, hfree⟩
  obtain ⟨hfirst, hfirstFree⟩ := Nat.find_spec hsome
  refine ⟨Nat.find hsome, hfirst, hfirstFree, ?_⟩
  intro j hj hlt
  have hnot := Nat.find_min hsome hlt
  simpa [hj] using hnot

/-! ## 2. Numbers -/

theorem repr_injective {i j : Nat} (h : (Nat.repr i).toList = (Nat.repr j).toList) : i = j := by
  rw [Nat.toList_repr, Nat.toList_repr] at h
  exact Lib.Digits.toDigits_inj (by decide) (by decide) h

/-- The name without its extension, the number in brackets at its end cut off. -/
def stem (name : Text) : Text :=
  let fileName := match lastIndexOf '.' name with
    | some index => name.take index
    | none => name
  (withoutNumber fileName).getD fileName

theorem withCount_eq (platform : Platform) (name : Text) (count : Nat) :
    withCount platform name count = withExtension
      (stem name ++ " (".toList ++ (Nat.repr count).toList ++ [')']) (extension platform name) := by
  cases hindex : lastIndexOf '.' name with
  | none => simp only [withCount, stem, extension, hindex]
  | some index => simp only [withCount, stem, extension, hindex]

theorem withExtension_injective {a b ext : Text} (h : withExtension a ext = withExtension b ext) :
    a = b := by
  unfold withExtension at h
  split at h
  · exact h
  · exact List.append_cancel_right h

/-- **A name gets another name with every number.** -/
theorem withCount_injective (platform : Platform) (name : Text) {i j : Nat}
    (h : withCount platform name i = withCount platform name j) : i = j := by
  rw [withCount_eq, withCount_eq] at h
  have hfront := List.append_cancel_right (withExtension_injective h)
  exact repr_injective (List.append_cancel_left hfront)

/-! ## 3. Places -/

/-- One name joined to any directory. -/
theorem components_joinAll (dir : Text) (hname : Segment name) :
    components (joinAll [dir, name]) = components dir ++ [name] := by
  have hrel : isAbsolute name = false := by
    cases name with
    | nil => rfl
    | cons c cs =>
        have hc : c ≠ '/' := fun hc => hname.separator (hc ▸ List.mem_cons_self)
        simp [isAbsolute, hc]
  have hlast : ∀ buffer separate, joinOnto buffer separate [name] =
      buffer ++ (if separate then ['/'] else []) ++ name := by
    intro buffer separate
    simp [joinOnto, hname.nonempty, hrel]
  rw [joinAll, joinOnto]
  split
  · rename_i hdir
    rw [hlast, hdir, components_nil, List.nil_append]
    exact components_eq_singleton hname.nonempty hname.separator
  · have hboth : ∀ buffer, components (joinOnto buffer (needsSeparator buffer) [name]) =
        components buffer ++ [name] := by
      intro buffer
      rw [hlast]
      exact components_append_name hname.nonempty hname.separator
    split
    · exact hboth dir
    · exact hboth dir

theorem destinationName_segment (hsane : platform.Sane) (hname : Segment actualFileName) (k : Nat) :
    Segment (destinationName platform actualFileName k) := by
  unfold destinationName
  split
  · exact hname
  · exact withCount_segment hsane hname.separator k

theorem place_destinationPath (hsane : platform.Sane) (hname : Segment actualFileName) (dir : Text)
    (k : Nat) : place (destinationPath platform dir actualFileName k) =
      place dir ++ [destinationName platform actualFileName k] := by
  have hsegment := destinationName_segment hsane hname k
  rw [destinationPath, place, components_joinAll dir hsegment, resolve_append_segment hsegment]
  rfl

/-- Candidates with different numbers are different files. -/
theorem destinationPath_injective (hsane : platform.Sane) (hname : Segment actualFileName) {i j : Nat}
    (hi : 2 ≤ i) (hj : 2 ≤ j) (h : place (destinationPath platform dir actualFileName i) =
      place (destinationPath platform dir actualFileName j)) : i = j := by
  rw [place_destinationPath hsane hname, place_destinationPath hsane hname] at h
  have hsame := List.singleton_inj.mp (List.append_cancel_left h)
  rw [destinationName, if_neg (by omega), destinationName, if_neg (by omega)] at hsame
  exact withCount_injective platform actualFileName hsame

/-- Among infinitely many candidates one is free. -/
theorem exists_free (hsane : platform.Sane) (hname : Segment actualFileName)
    (hfinite : {there | fs.kind there = some .file}.Finite) (dir : Text) :
    ∃ k, 1 ≤ k ∧ fs.fileExists (destinationPath platform dir actualFileName k) = false := by
  by_contra hnone
  have hall : ∀ k, fs.kind (place (destinationPath platform dir actualFileName (k + 2))) = some .file := by
    intro k
    have hexists : fs.fileExists (destinationPath platform dir actualFileName (k + 2)) = true := by
      by_contra hfree
      exact hnone ⟨k + 2, by omega, by simpa using hfree⟩
    exact fileExists_kind hexists
  have hinjective : Function.Injective fun k =>
      place (destinationPath platform dir actualFileName (k + 2)) := by
    intro i j hsame
    have hnumbers := destinationPath_injective hsane hname (by omega) (by omega) hsame
    omega
  exact Set.infinite_of_injective_forall_mem hinjective hall hfinite

/-! ## 4. The first free candidate -/

/-- **The loop ends at the first candidate that does not exist.** With finitely many files, in any
    directory, a received file is given its own name or the least number that is free. Names with
    different numbers are different, and a name is one of those with a number only if it ends in
    that number itself. -/
theorem freePath_firstFree (hsane : platform.Sane)
    (hfinite : {there | fs.kind there = some .file}.Finite) (dir fileName : Text) :
    (∃ k, FirstFree platform fs dir (platform.legalizeFilename (basename fileName)) k ∧
      ∀ rounds, k ≤ rounds →
        freePath platform fs dir (platform.legalizeFilename (basename fileName)) rounds 1 =
          some (destinationPath platform dir (platform.legalizeFilename (basename fileName)) k)) ∧
    (∀ name i j, withCount platform name i = withCount platform name j → i = j) ∧
    (∀ name j, withCount platform name j = name → ∃ front ext,
      name = withExtension (front ++ " (".toList ++ (Nat.repr j).toList ++ [')']) ext) := by
  refine ⟨?_, fun name i j h => withCount_injective platform name h, ?_⟩
  · obtain ⟨free, hpos, hfree⟩ := exists_free hsane (hsane.legal (basename fileName)) hfinite dir
    obtain ⟨k, hfirst⟩ := firstFree_of_free hpos hfree
    exact ⟨k, hfirst, fun rounds hrounds => hfirst.freePath_eq hrounds⟩
  · intro name j h
    rw [withCount_eq] at h
    exact ⟨_, _, h.symm⟩

/-- A directory for downloads with one file in it. -/
def oneDownload : FileSystem where
  kind there :=
    if there = [] ∨ there = ["dl".toList] then some .directory
    else if there = ["dl".toList, "a.txt".toList] then some .file
    else none
  mayCreate _ := true

theorem oneDownload_finite : {there | oneDownload.kind there = some .file}.Finite := by
  refine (Set.finite_singleton ["dl".toList, "a.txt".toList]).subset ?_
  intro there hfile
  change (if there = [] ∨ there = ["dl".toList] then some Kind.directory
    else if there = ["dl".toList, "a.txt".toList] then some .file else none) = some .file at hfile
  split at hfile
  · cases hfile
  · split at hfile
    · assumption
    · cases hfile

theorem freePath_firstFree_second : ∃ k,
    FirstFree plainPlatform oneDownload "/dl".toList "a.txt".toList k ∧
      freePath plainPlatform oneDownload "/dl".toList "a.txt".toList k 1 =
        some "/dl/a (2).txt".toList := by
  obtain ⟨⟨k, hfirst, hloop⟩, -⟩ :=
    freePath_firstFree plainPlatform_sane oneDownload_finite "/dl".toList "a.txt".toList
  have hname : plainPlatform.legalizeFilename (basename "a.txt".toList) = "a.txt".toList := by decide
  rw [hname] at hfirst
  rw [hname] at hloop
  obtain rfl : k = 2 := by
    have hpos := hfirst.pos
    by_contra hne
    have hone : oneDownload.fileExists (destinationPath plainPlatform "/dl".toList "a.txt".toList 1) = true := by
      decide
    have htwo : oneDownload.fileExists (destinationPath plainPlatform "/dl".toList "a.txt".toList 2) =
        false := by decide
    rcases Nat.eq_or_lt_of_le hpos with rfl | hlt
    · rw [hfirst.free] at hone
      cases hone
    · have htaken := hfirst.taken 2 (by omega) (by omega)
      rw [htwo] at htaken
      cases htaken
  exact ⟨2, hfirst, (hloop 2 (Nat.le_refl 2)).trans (by decide)⟩

/-- A name that ends in the number 2 is the candidate of two counters. -/
theorem numbered_twice :
    destinationPath plainPlatform "/dl".toList "a (2).txt".toList 1 =
      destinationPath plainPlatform "/dl".toList "a (2).txt".toList 2 := by
  decide

end LocalSend.Files
