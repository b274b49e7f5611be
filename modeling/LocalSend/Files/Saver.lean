/-
  File:      LocalSend/Files/Saver.lean
  Subject:   WHERE A RECEIVED FILE GOES (`file_saver.dart`, with `file_path_helper.dart`,
             `content_uri_helper.dart` and `android_channel.dart`).

  * `withCount`, `parentPath` -- the rewriting of names;
  * `convertTreeUriToDocumentUri`, `createMissingDirectoriesAndroid` -- the content:// side;
  * `FileSystem`, `createSync`, `FileSystem.fileExists` -- the file system side;
  * **`digestFilePathAndPrepareDirectory`** -- both together.
-/
import LocalSend.Lib.PosixPath
import LocalSend.Lib.Percent

namespace LocalSend.Files

open Lib.Posix
open Lib.Percent (encodeComponent decodeComponent)

/-- What the names go through outside the repository: `legalizeFilename` of `package:legalize`, for
    the operating system at hand, and the Unicode tables of `toLowerCase`. -/
structure Platform where
  legalizeFilename : Text → Text
  toLowerCase : Text → Text

/-! ## 1. Names -/

/-- The characters a dot of a regular expression does not match. -/
def isLineTerminator (c : Char) : Bool :=
  c ∈ ['\n', '\r', Char.ofNat 0x2028, Char.ofNat 0x2029]

/-- The characters `\s` of a regular expression matches. -/
def isSpace (c : Char) : Bool :=
  c ∈ [' ', '\t', '\n', Char.ofNat 0x0B, Char.ofNat 0x0C, '\r', Char.ofNat 0xA0, Char.ofNat 0x1680,
    Char.ofNat 0x2028, Char.ofNat 0x2029, Char.ofNat 0x202F, Char.ofNat 0x205F, Char.ofNat 0x3000,
    Char.ofNat 0xFEFF] || (0x2000 ≤ c.toNat && c.toNat ≤ 0x200A)

/-- The first group of `_fileNumberRegex`, a name without the number in brackets at its end. -/
def withoutNumber (fileName : Text) : Option Text :=
  match fileName.reverse with
  | ')' :: rest =>
    match rest.dropWhile Char.isDigit with
    | '(' :: space :: front =>
      if rest.takeWhile Char.isDigit ≠ [] ∧ isSpace space ∧ front.all fun c => !isLineTerminator c
      then some front.reverse else none
    | _ => none
  | _ => none

def lastIndexOf (c : Char) (text : Text) : Option Nat :=
  if c ∈ text then some (text.length - 1 - text.reverse.idxOf c) else none

def withExtension (name extension : Text) : Text :=
  if extension = [] then name else name ++ '.' :: extension

def withCount (platform : Platform) (name : Text) (count : Nat) : Text :=
  let fileName := match lastIndexOf '.' name with
    | some index => name.take index
    | none => name
  let extension := match lastIndexOf '.' name with
    | some index => platform.toLowerCase (name.drop (index + 1))
    | none => []
  withExtension
    ((withoutNumber fileName).getD fileName ++ " (".toList ++ (Nat.repr count).toList ++ [')'])
    extension

/-- The parts of a list with separators between. -/
def join (parts : List Text) : Text := List.intercalate ['/'] parts

/-- The name with a slash for every backslash. -/
def slashed (fileName : Text) : Text := fileName.map fun c => if c = '\\' then '/' else c

def parentPath (fileName : Text) : Text := join ((slashed fileName).splitOn '/').dropLast

/-! ## 2. Documents -/

def indexOf (pattern : Text) : Text → Option Nat
  | [] => if pattern = [] then some 0 else none
  | c :: rest =>
    if pattern <+: c :: rest then some 0 else (indexOf pattern rest).map fun index => index + 1

/-- What stands after the first `/tree/`. Where there is none, the index is -1, and the text from
    the fifth character on is taken. -/
def treePath (treeUri : Text) : Text :=
  match indexOf "/tree/".toList treeUri with
  | some index => treeUri.drop (index + 6)
  | none => treeUri.drop 5

/-- `ContentUriHelper.getPathFromTreeUri`; `none` also where the decoder throws. -/
def getPathFromTreeUri (uri : Text) : Option Text :=
  (indexOf "/tree/".toList uri).bind fun index => decodeComponent (uri.drop (index + 6))

def convertTreeUriToDocumentUri (treeUri : Text) (suffix : Option Text) : Text :=
  match suffix with
  | none => treeUri ++ "/document/".toList ++ treePath treeUri
  | some suffix =>
    treeUri ++ "/document/".toList ++ treePath treeUri ++ "%2F".toList ++ encodeComponent suffix

/-- A call of `createDirectory` on the method channel. -/
structure DirectoryRequest where
  documentUri : Text
  directoryName : Text
deriving DecidableEq, Repr

/-- The call for the part at an index. -/
def directoryRequest (parentUri : Text) (parts : List Text) (i : Nat) : DirectoryRequest where
  documentUri := convertTreeUriToDocumentUri parentUri
    (if i = 0 then none else some (join (parts.take i)))
  directoryName := parts.getD i []

/-- The loop of `createMissingDirectoriesAndroid`, with the rounds left: the calls it makes and the
    set it leaves. A call that fails throws out of the loop. -/
def createMissing (succeeds : DirectoryRequest → Bool) (parentUri : Text) (parts : List Text) :
    Nat → Nat → List Text → List DirectoryRequest × List Text
  | _, 0, createdDirectories => ([], createdDirectories)
  | i, rounds + 1, createdDirectories =>
    if join (parts.take (i + 1)) ∈ createdDirectories then
      createMissing succeeds parentUri parts (i + 1) rounds createdDirectories
    else if succeeds (directoryRequest parentUri parts i) then
      let (asked, created) := createMissing succeeds parentUri parts (i + 1) rounds
        (join (parts.take (i + 1)) :: createdDirectories)
      (directoryRequest parentUri parts i :: asked, created)
    else ([directoryRequest parentUri parts i], createdDirectories)

def createMissingDirectoriesAndroid (succeeds : DirectoryRequest → Bool)
    (parentUri fileName : Text) (createdDirectories : List Text) :
    List DirectoryRequest × List Text :=
  createMissing succeeds parentUri (fileName.splitOn '/') 0 ((fileName.splitOn '/').length - 1)
    createdDirectories

/-! ## 3. Files -/

inductive Kind where
  | file
  | directory
deriving DecidableEq, Repr

/-- What stands at each place, and where a directory may be made. -/
structure FileSystem where
  kind : List Text → Option Kind
  mayCreate : List Text → Bool

def FileSystem.make (fs : FileSystem) (here : List Text) : FileSystem :=
  { fs with kind := fun there => if there = here then some .directory else fs.kind there }

/-- `createSync(recursive: true)`, walking the components as they are written: what is missing is
    made before the walk goes on, also where a `..` follows. With the new file system, the places
    made; at a file or without permission it throws. -/
def createFrom (fs : FileSystem) (here : List Text) : List Text → FileSystem × List (List Text)
  | [] => (fs, [])
  | name :: names =>
    match fs.kind (enter here name) with
    | some .directory => createFrom fs (enter here name) names
    | some .file => (fs, [])
    | none =>
      if fs.mayCreate (enter here name) then
        let (after, made) := createFrom (fs.make (enter here name)) (enter here name) names
        (after, enter here name :: made)
      else (fs, [])

def createSync (fs : FileSystem) (dir : Text) : FileSystem × List (List Text) :=
  createFrom fs [] (components dir)

/-- What the system finds, entering only directories. -/
def find (fs : FileSystem) (here : List Text) : List Text → Option Kind
  | [] => fs.kind here
  | name :: names =>
    if fs.kind here = some .directory then find fs (enter here name) names else none

def FileSystem.fileExists (fs : FileSystem) (path : Text) : Bool :=
  find fs [] (components path) = some .file

/-- What is found stands at the place the path leads to. -/
theorem find_kind {fs : FileSystem} {here names : List Text} {kind : Kind}
    (h : find fs here names = some kind) : fs.kind (names.foldl enter here) = some kind := by
  induction names generalizing here with
  | nil => exact h
  | cons name names ih =>
      rw [find] at h
      split at h
      · exact ih h
      · cases h

theorem fileExists_kind {fs : FileSystem} {path : Text} (h : fs.fileExists path = true) :
    fs.kind (place path) = some .file :=
  find_kind (of_decide_eq_true h)

/-! ## 4. The destination -/

/-- What surrounds a call: the file system, what the method channel answers, and the set of the
    session the file belongs to. -/
structure Surroundings where
  fs : FileSystem
  succeeds : DirectoryRequest → Bool
  createdDirectories : List Text

/-- The record returned, with what the call did: the places where it made directories, and the
    directories it asked for. -/
structure Digest where
  destination : Text
  documentUri : Option Text
  finalName : Text
  made : List (List Text)
  asked : List DirectoryRequest
  createdDirectories : List Text
deriving DecidableEq, Repr

/-- The loop over the counter, in at most so many rounds. -/
def freePath (platform : Platform) (fs : FileSystem) (dir actualFileName : Text) :
    Nat → Nat → Option Text
  | 0, _ => none
  | rounds + 1, counter =>
    let destinationPath := joinAll [dir,
      if counter = 1 then actualFileName else withCount platform actualFileName counter]
    if fs.fileExists destinationPath then
      freePath platform fs dir actualFileName rounds (counter + 1)
    else some destinationPath

/-- The directory of a name below its parent directory. -/
def targetDir (parentDirectory fileName : Text) : Text :=
  joinAll (parentDirectory :: (split fileName).dropLast)

/-- The branch for content:// URIs. -/
def digestDocument (around : Surroundings) (parentDirectory fileName : Text) : Digest :=
  let missing :=
    if '/' ∈ fileName then
      createMissingDirectoriesAndroid around.succeeds parentDirectory fileName
        around.createdDirectories
    else ([], around.createdDirectories)
  { destination := convertTreeUriToDocumentUri parentDirectory (some fileName)
    documentUri := some (convertTreeUriToDocumentUri parentDirectory
      (if '/' ∈ fileName then some (parentPath fileName) else none))
    finalName := basename fileName
    made := []
    asked := missing.1
    createdDirectories := missing.2 }

/-- The branch for paths. `take` throws for the empty name, which has no parts. -/
def digestPath (platform : Platform) (around : Surroundings) (rounds : Nat)
    (parentDirectory fileName : Text) : Option Digest :=
  let actualFileName := platform.legalizeFilename (basename fileName)
  let dir := targetDir parentDirectory fileName
  if split fileName = [] then none
  else if 1 < (split fileName).length ∧ ¬isWithin parentDirectory dir then none
  else
    let (fs, made) := if 1 < (split fileName).length then createSync around.fs dir
      else (around.fs, [])
    (freePath platform fs dir actualFileName rounds 1).map fun destinationPath =>
      { destination := destinationPath
        documentUri := none
        finalName := basename destinationPath
        made := made
        asked := []
        createdDirectories := around.createdDirectories }

/-- **`digestFilePathAndPrepareDirectory`**; `none` where it throws or has not come to an end. -/
def digestFilePathAndPrepareDirectory (platform : Platform) (around : Surroundings) (rounds : Nat)
    (parentDirectory fileName : Text) : Option Digest :=
  if "content://".toList <+: parentDirectory then
    some (digestDocument around parentDirectory fileName)
  else digestPath platform around rounds parentDirectory fileName

end LocalSend.Files
