/-
  File:      LocalSend/Send/FileDtos.lean
  Subject:   WHAT A SELECTION IS SENT AS: the `FileDto`s of `createSession`
             (`send_session_service.dart`) and of `initializeWebSend` (`send_controller.dart`).

  The two build them apart: the one embeds the text of a message that is sent alone, the other that
  of the first file, and into every file.

  * `fileDto`, `createSession`, `initializeWebSend` -- what is built;
  * `DescribedAlike` -- both describe every file the same way, and give no file another one's text;
  * **`describedAlike_iff`** -- they do unless a message comes first and more files follow;
  * `Chosen` -- a file whose type is that of its name;
  * **`round_trip_iff`** -- it arrives as what it was exactly if its type is sent by its name, or is
    the one its MIME type stands for.
-/
import LocalSend.Common.FileDto
import LocalSend.Files.Names
import LocalSend.Lib.Percent
import LocalSend.Send.Service
import Mathlib.Data.List.Forall2

namespace LocalSend.Dto

/-! ## 1. The two builders -/

/-- The text of a simple message; outside UTF-8 there is an exception (`none`). -/
def messageOf (file : CrossFile) : Option (Option String) :=
  match file.fileType, file.bytes with
  | .text, some bytes => (Lib.Percent.decodeUtf8 bytes).map fun text => some (String.ofList text)
  | _, _ => some none

/-- The message of the first file. -/
def firstMessage : List CrossFile → Option (Option String)
  | [] => some none
  | first :: _ => messageOf first

def metadataOf (file : CrossFile) : Option FileMetadata :=
  if file.lastModified ≠ none ∨ file.lastAccessed ≠ none then
    some ⟨file.lastModified, file.lastAccessed⟩
  else none

def fileDto (preview : Option String) (legacy : Bool) (id : String) (file : CrossFile) :
    FileDto where
  id := id
  fileName := file.name
  size := file.size
  fileType := file.fileType
  hash := none
  preview := preview
  metadata := metadataOf file
  legacy := legacy

/-- One `FileDto` for each file, under the uuids `ids`, all with the same preview. -/
def fileDtos (preview : Option (Option String)) (legacy : Bool) (ids : List String)
    (files : List CrossFile) : Option (List FileDto) :=
  (ids.zip files).mapM fun f => preview.map fun preview => fileDto preview legacy f.1 f.2

/-- The files of the session `createSession` makes. -/
def createSession (target : Device) (ids : List String) (files : List CrossFile) :
    Option (List FileDto) :=
  fileDtos (if files.length = 1 then firstMessage files else some none) (target.version = "1.0")
    ids files

/-- The files `initializeWebSend` shares. -/
def initializeWebSend (ids : List String) (files : List CrossFile) : Option (List FileDto) :=
  fileDtos (firstMessage files) false ids files

variable {target : Device} {ids ids' : List String} {files : List CrossFile} {file : CrossFile}
  {preview : Option String} {legacy : Bool} {dto received : FileDto} {dtos : List FileDto}

theorem fileDtos_some (preview : Option String) (legacy : Bool) (ids : List String)
    (files : List CrossFile) :
    fileDtos (some preview) legacy ids files =
      some ((ids.zip files).map fun f => fileDto preview legacy f.1 f.2) :=
  List.mapM_pure

/-- Without a preview nothing is built. -/
theorem fileDtos_none (h : ids.length = files.length) (hfiles : files ≠ []) :
    fileDtos none legacy ids files = none := by
  cases files with
  | nil => exact absurd rfl hfiles
  | cons file files =>
      cases ids with
      | nil => cases h
      | cons id ids => rfl

/-- What is built, and with which preview. -/
theorem fileDtos_eq_some {preview : Option (Option String)} (h : ids.length = files.length)
    (hbuilt : fileDtos preview legacy ids files = some dtos) (hfiles : files ≠ []) :
    ∃ text, preview = some text ∧
      dtos = (ids.zip files).map fun f => fileDto text legacy f.1 f.2 := by
  cases preview with
  | none =>
      rw [fileDtos_none h hfiles] at hbuilt
      cases hbuilt
  | some text =>
      rw [fileDtos_some] at hbuilt
      cases hbuilt
      exact ⟨text, rfl, rfl⟩

/-- A selected file, as the send service keeps it. -/
def CrossFile.kept (file : LocalSend.CrossFile) : SendSession.CrossFile :=
  ⟨file.name, file.fileType, file.size, file.path, file.bytes⟩

/-- The fields of a `FileDto` that the send service keeps. -/
def FileDto.kept (dto : FileDto) : LocalSend.FileDto :=
  ⟨dto.id, dto.fileName, dto.size, dto.fileType, dto.preview⟩

theorem previewOf_kept (files : List CrossFile) :
    SendSession.previewOf (files.map CrossFile.kept) =
      if files.length = 1 then firstMessage files else some none := by
  match files with
  | [] => rfl
  | [file] => rfl
  | first :: second :: rest =>
    rw [if_neg (by simp)]
    rfl

/-- **The files the send service makes** for a session are those of `createSession`. -/
theorem createSession_kept (target : Device) (h : ids.length = files.length) :
    (createSession target ids files).map (List.map FileDto.kept) =
      (SendSession.previewOf (files.map CrossFile.kept)).map fun preview =>
        (ids.zip files).map fun f => ((CrossFile.kept f.2).queued preview f.1).file := by
  rw [previewOf_kept, createSession]
  cases hpreview : (if files.length = 1 then firstMessage files else some none) with
  | none =>
      have hfiles : files ≠ [] := by
        rintro rfl
        cases hpreview
      rw [fileDtos_none h hfiles]
      rfl
  | some preview =>
      rw [fileDtos_some, Option.map_some, Option.map_some, List.map_map]
      rfl

/-! ## 2. The same description -/

/-- The same, but for the id. -/
def SameButId (a b : FileDto) : Prop := { a with id := b.id } = b

/-- A preview is the text of the file itself. -/
def OwnText (file : CrossFile) (dto : FileDto) : Prop :=
  ∀ text, dto.preview = some text → messageOf file = some (some text)

/-- **A transfer to a device and a link describe the files alike**, and each with its own text. -/
structure DescribedAlike (target : Device) (ids ids' : List String) (files : List CrossFile) :
    Prop where
  alike : Option.Rel (List.Forall₂ SameButId) (createSession target ids files)
    (initializeWebSend ids' files)
  sent : ∀ dtos, createSession target ids files = some dtos → List.Forall₂ OwnText files dtos
  shared : ∀ dtos, initializeWebSend ids' files = some dtos → List.Forall₂ OwnText files dtos

/-- A message that has files after it. -/
def MessageFirst (files : List CrossFile) : Prop :=
  2 ≤ files.length ∧ ∃ first ∈ files.head?, first.fileType = .text ∧ first.bytes ≠ none

theorem messageOf_plain (h : ¬ (file.fileType = .text ∧ file.bytes ≠ none)) :
    messageOf file = some none := by
  unfold messageOf
  split
  · rename_i bytes htype hbytes
    exact absurd ⟨htype, by simp [hbytes]⟩ h
  · rfl

/-- A message is built with its text, or not at all. -/
theorem messageOf_message (htype : file.fileType = .text) (hbytes : file.bytes ≠ none) :
    messageOf file ≠ some none := by
  obtain ⟨bytes, hbytes⟩ := Option.ne_none_iff_exists'.mp hbytes
  simp only [messageOf, htype, hbytes]
  cases Lib.Percent.decodeUtf8 bytes <;> simp

theorem sameButId_zip (preview : Option String) (legacy : Bool) (hlen : ids.length = files.length)
    (hlen' : ids'.length = files.length) :
    List.Forall₂ SameButId ((ids.zip files).map fun f => fileDto preview legacy f.1 f.2)
      ((ids'.zip files).map fun f => fileDto preview legacy f.1 f.2) := by
  induction files generalizing ids ids' with
  | nil => simp
  | cons file files ih =>
      obtain ⟨id, ids, rfl⟩ := List.exists_cons_of_length_eq_add_one hlen
      obtain ⟨id', ids', rfl⟩ := List.exists_cons_of_length_eq_add_one hlen'
      exact .cons rfl (ih (Nat.succ.inj hlen) (Nat.succ.inj hlen'))

theorem ownText_zip {preview : Option String} (hlen : ids.length = files.length)
    (h : ∀ file ∈ files, ∀ text, preview = some text → messageOf file = some (some text)) :
    List.Forall₂ OwnText files ((ids.zip files).map fun f => fileDto preview legacy f.1 f.2) := by
  induction files generalizing ids with
  | nil => simp
  | cons file files ih =>
      obtain ⟨id, ids, rfl⟩ := List.exists_cons_of_length_eq_add_one hlen
      exact .cons (h file (by simp))
        (ih (Nat.succ.inj hlen) fun other hother => h other (by simp [hother]))

/-- Without a text there is nothing to confuse. -/
theorem ownText_none (hlen : ids.length = files.length)
    (hbuilt : fileDtos (some none) legacy ids files = some dtos) :
    List.Forall₂ OwnText files dtos := by
  rw [fileDtos_some] at hbuilt
  cases hbuilt
  refine ownText_zip hlen ?_
  rintro _ - _ ⟨⟩

/-- A file alone has its own text. -/
theorem ownText_single (hlen : ids.length = [file].length)
    (hbuilt : fileDtos (messageOf file) legacy ids [file] = some dtos) :
    List.Forall₂ OwnText [file] dtos := by
  obtain ⟨text, htext, rfl⟩ := fileDtos_eq_some hlen hbuilt (by simp)
  refine ownText_zip hlen ?_
  rintro other hother _ rfl
  obtain rfl := List.mem_singleton.mp hother
  exact htext

theorem firstMessage_plain (hlen : 2 ≤ files.length) (h : ¬ MessageFirst files) :
    firstMessage files = some none := by
  cases files with
  | nil => rfl
  | cons first files => exact messageOf_plain fun hmessage => h ⟨hlen, first, rfl, hmessage⟩

/-- Several files with no message in front. -/
theorem describedAlike_several (hversion : target.version ≠ "1.0")
    (hids : ids.length = files.length) (hids' : ids'.length = files.length)
    (hlen : 2 ≤ files.length) (h : ¬ MessageFirst files) :
    DescribedAlike target ids ids' files := by
  have hsession : createSession target ids files = fileDtos (some none) false ids files := by
    rw [createSession, if_neg (by omega), decide_eq_false hversion]
  have hshared : initializeWebSend ids' files = fileDtos (some none) false ids' files := by
    rw [initializeWebSend, firstMessage_plain hlen h]
  constructor
  · rw [hsession, hshared, fileDtos_some, fileDtos_some]
    exact .some (sameButId_zip none false hids hids')
  · intro dtos hbuilt
    exact ownText_none hids (hsession ▸ hbuilt)
  · intro dtos hbuilt
    exact ownText_none hids' (hshared ▸ hbuilt)

/-- One file, message or not. -/
theorem describedAlike_single (hversion : target.version ≠ "1.0") (hids : ids.length = [file].length)
    (hids' : ids'.length = [file].length) : DescribedAlike target ids ids' [file] := by
  have hsession : createSession target ids [file] = fileDtos (messageOf file) false ids [file] := by
    rw [createSession, decide_eq_false hversion]
    rfl
  constructor
  · rw [hsession, initializeWebSend, firstMessage]
    cases messageOf file with
    | none =>
        rw [fileDtos_none hids (by simp), fileDtos_none hids' (by simp)]
        exact .none
    | some text =>
        rw [fileDtos_some, fileDtos_some]
        exact .some (sameButId_zip text false hids hids')
  · intro dtos hbuilt
    exact ownText_single hids (hsession ▸ hbuilt)
  · intro dtos hbuilt
    exact ownText_single hids' hbuilt

/-- A message with files after it: the link has its text, the session has not. -/
theorem not_alike_messageFirst (hids : ids.length = files.length) (hids' : ids'.length = files.length)
    (h : MessageFirst files) :
    ¬ Option.Rel (List.Forall₂ SameButId) (createSession target ids files)
      (initializeWebSend ids' files) := by
  obtain ⟨hlen, first, hfirst, htype, hbytes⟩ := h
  cases files with
  | nil => cases hfirst
  | cons file files =>
      obtain rfl : file = first := Option.some_inj.mp hfirst
      obtain ⟨id, ids, rfl⟩ := List.exists_cons_of_length_eq_add_one hids
      obtain ⟨id', ids', rfl⟩ := List.exists_cons_of_length_eq_add_one hids'
      have hne : (file :: files).length ≠ 1 := by omega
      rw [createSession, if_neg hne, fileDtos_some, initializeWebSend, firstMessage]
      intro hrel
      cases hmessage : messageOf file with
      | none =>
          rw [hmessage, fileDtos_none hids' (by simp)] at hrel
          cases hrel
      | some text =>
          rw [hmessage, fileDtos_some] at hrel
          obtain ⟨hall⟩ := hrel
          -- The first file has no preview here, and one there.
          have hsame := (List.forall₂_cons.mp hall).1
          have hpreview : none = text := congrArg FileDto.preview hsame
          subst hpreview
          exact messageOf_message htype hbytes hmessage

/-- **The two describe the files alike unless a message comes first and more files follow.** -/
theorem describedAlike_iff (hversion : target.version ≠ "1.0") (hids : ids.length = files.length)
    (hids' : ids'.length = files.length) :
    DescribedAlike target ids ids' files ↔ ¬ MessageFirst files := by
  constructor
  · intro h hfirst
    exact not_alike_messageFirst hids hids' hfirst h.alike
  · intro h
    match files with
    | [] =>
      obtain rfl := List.length_eq_zero_iff.mp hids
      obtain rfl := List.length_eq_zero_iff.mp hids'
      refine ⟨.some .nil, ?_, ?_⟩
      · rintro _ ⟨⟩
        exact .nil
      · rintro _ ⟨⟩
        exact .nil
    | [file] => exact describedAlike_single hversion hids hids'
    | first :: second :: rest => exact describedAlike_several hversion hids hids' (by simp) h

def laptop : Device :=
  ⟨none, some "192.168.0.5", "2.1", 53317, true, "abc", "Laptop", none, .desktop, false, []⟩

/-- A message, of one letter. -/
def letter : CrossFile := ⟨"letter.txt", .text, 1, none, none, none, some [72], none, none⟩

def photo : CrossFile :=
  ⟨"photo.jpg", .image, 7, none, none, some "/sdcard/photo.jpg", none, some ⟨0, true⟩, none⟩

theorem describedAlike_iff_photos :
    DescribedAlike laptop ["a", "b"] ["c", "d"] [photo, letter] := by
  refine (describedAlike_iff (by decide) rfl rfl).mpr fun h => ?_
  obtain ⟨-, first, hfirst, htype, -⟩ := h
  obtain rfl := Option.some.inj hfirst
  cases htype

/-- A link to a message and a photo gives both the text of the message. -/
theorem message_in_photo : laptop.version ≠ "1.0" ∧
    ¬ DescribedAlike laptop ["a", "b"] ["c", "d"] [letter, photo] := by
  refine ⟨by decide, fun h => ?_⟩
  have hfirst : MessageFirst [letter, photo] := ⟨by decide, letter, rfl, rfl, by decide⟩
  exact not_alike_messageFirst rfl rfl hfirst h.alike

/-! ## 3. The type that arrives -/

/-- **A file chosen through the app**: its type is that of its name, and a message has a name that
    ends in `.txt`. -/
def Chosen (platform : Files.Platform) (file : CrossFile) : Prop :=
  file.fileType = Files.guessFileType platform file.name.toList ∨
    file.fileType = .text ∧ ∃ front, file.name.toList = front ++ ".txt".toList

/-- A message has the type of its name, too. -/
theorem Chosen.fileType {platform : Files.Platform}
    (hlower : platform.toLowerCase "txt".toList = "txt".toList) (h : Chosen platform file) :
    file.fileType = Files.guessFileType platform file.name.toList := by
  rcases h with h | ⟨htype, front, hname⟩
  · exact h
  · have hext : Files.extension platform file.name.toList = "txt".toList := by
      rw [hname]
      exact (Files.extension_append platform (by decide)).trans hlower
    rw [htype, Files.guessFileType, hext]
    rfl

/-- The `i`-th file is built from the `i`-th of the selection. -/
theorem createSession_file {i : Nat} (hids : ids.length = files.length)
    (hbuilt : createSession target ids files = some dtos) (hfile : files[i]? = some file)
    (hdto : dtos[i]? = some dto) :
    ∃ preview id, dto = fileDto preview (target.version = "1.0") id file := by
  have hfiles : files ≠ [] := by
    rintro rfl
    cases hfile
  obtain ⟨preview, -, rfl⟩ := fileDtos_eq_some hids hbuilt hfiles
  rw [List.getElem?_map] at hdto
  obtain ⟨⟨id, other⟩, hzip, rfl⟩ := Option.map_eq_some_iff.mp hdto
  obtain ⟨-, hother⟩ := List.getElem?_zip_eq_some.mp hzip
  obtain rfl : other = file := Option.some_inj.mp (hother.symm.trans hfile)
  exact ⟨preview, id, rfl⟩

section Types

variable {lookupMimeType : String → Option String} {dates : DateTimeMapper}

/-- **A file arrives as what it was exactly if its type does.** -/
theorem decode_encode_iff (lookupMimeType : String → Option String) (dates : DateTimeMapper)
    (dto : FileDto) :
    (∃ received, decode dates (encode lookupMimeType dates dto) = some received ∧
        Received dto received ∧ received.fileType = dto.fileType) ↔
      decodeFileType (dto.rawFileType lookupMimeType) = dto.fileType := by
  obtain ⟨received, hdecode, hreceived, htype⟩ := decode_encode lookupMimeType dates dto
  constructor
  · intro hfound
    obtain ⟨other, hother, -, hsame⟩ := hfound
    obtain rfl : received = other := Option.some_inj.mp (hdecode.symm.trans hother)
    rw [← htype, hsame]
  · intro h
    exact ⟨received, hdecode, hreceived, htype.trans h⟩

theorem rawFileType_iff
    (hlookup : ∀ name mime, lookupMimeType name = some mime → '/' ∈ mime.toList)
    (preview : Option String) (legacy : Bool) (id : String) (file : CrossFile) :
    decodeFileType ((fileDto preview legacy id file).rawFileType lookupMimeType) = file.fileType ↔
      legacy = true ∨ MimeFits file.fileType (lookupMimeType file.name) := by
  cases legacy with
  | true =>
      have hraw : (fileDto preview true id file).rawFileType lookupMimeType =
          typeName file.fileType := rfl
      rw [hraw, decodeFileType_typeName]
      simp
  | false =>
      have hraw : (fileDto preview false id file).rawFileType lookupMimeType =
          (lookupMimeType file.name).getD "application/octet-stream" := rfl
      rw [hraw, decodeFileType_iff hlookup]
      simp

/-- **The round trip of a file chosen through the app**, to a legacy device or another one: it is
    received as what it was exactly if its type is sent by its name, or the MIME type of its name
    is one of the type of its name. -/
theorem round_trip_iff {platform : Files.Platform}
    (hlower : platform.toLowerCase "txt".toList = "txt".toList)
    (hlookup : ∀ name mime, lookupMimeType name = some mime → '/' ∈ mime.toList)
    (hids : ids.length = files.length) (hchosen : ∀ file ∈ files, Chosen platform file)
    (hbuilt : createSession target ids files = some dtos) {i : Nat}
    (hfile : files[i]? = some file) (hdto : dtos[i]? = some dto) :
    (∃ received, decode dates (encode lookupMimeType dates dto) = some received ∧
        Received dto received ∧ received.fileType = dto.fileType) ↔
      target.version = "1.0" ∨
        MimeFits (Files.guessFileType platform file.name.toList) (lookupMimeType file.name) := by
  have htype := (hchosen file (List.mem_of_getElem? hfile)).fileType hlower
  obtain ⟨preview, id, rfl⟩ := createSession_file hids hbuilt hfile hdto
  rw [decode_encode_iff]
  have hraw := rawFileType_iff hlookup preview (target.version = "1.0") id file
  rw [decide_eq_true_iff, htype] at hraw
  rw [← hraw, ← htype]
  rfl

end Types

/-- Three of the MIME types there are. -/
def mimeTypes (name : String) : Option String :=
  if name.toList.drop (name.length - 4) = ".jpg".toList then some "image/jpeg"
  else if name.toList.drop (name.length - 5) = ".html".toList then some "text/html"
  else if name.toList.drop (name.length - 4) = ".txt".toList then some "text/plain"
  else none

theorem mimeTypes_slash (name mime : String) (h : mimeTypes name = some mime) :
    '/' ∈ mime.toList := by
  unfold mimeTypes at h
  split at h
  · cases h
    decide
  · split at h
    · cases h
      decide
    · split at h
      · cases h
        decide
      · cases h

/-- The start of the epoch by its text, every other time by its number. -/
def epochDates : DateTimeMapper where
  encode time :=
    if time.microsecondsSinceEpoch = 0 then .str "1970-01-01T00:00:00.000Z"
    else .int time.microsecondsSinceEpoch
  decode
    | .str _ => some ⟨0, true⟩
    | .int n => some ⟨n, true⟩
    | _ => none
  encode_ne_null time := by split <;> simp
  decode_encode time := by
    by_cases hzero : time.microsecondsSinceEpoch = 0
    · rw [if_pos hzero]
      exact ⟨_, rfl, hzero.symm⟩
    · rw [if_neg hzero]
      exact ⟨_, rfl, rfl⟩

theorem round_trip_iff_photo :
    (∃ received, decode epochDates (encode mimeTypes epochDates (fileDto none false "a" photo)) =
        some received ∧ Received (fileDto none false "a" photo) received ∧
        received.fileType = .image) := by
  have hchosen : ∀ file ∈ [photo], Chosen Files.asciiPlatform file := by
    intro file hfile
    obtain rfl := List.mem_singleton.mp hfile
    exact Or.inl (by decide)
  have hbuilt : createSession laptop ["a"] [photo] = some [fileDto none false "a" photo] := rfl
  have hfits : StartsWith "image/jpeg" "image/" := by decide
  exact (round_trip_iff (by decide) mimeTypes_slash rfl hchosen hbuilt (i := 0) rfl rfl).mpr
    (Or.inr hfits)

/-- A page, of one letter. -/
def page : CrossFile :=
  ⟨"page.html", .other, 1, none, none, some "/sdcard/page.html", none, none, none⟩

/-- A page is sent as a file of no type that is known, and received as a text. -/
theorem page_becomes_text : Chosen Files.asciiPlatform page ∧
    createSession laptop ["a"] [page] = some [fileDto none false "a" page] ∧
    ¬ ∃ received, decode epochDates (encode mimeTypes epochDates (fileDto none false "a" page)) =
        some received ∧ received.fileType = page.fileType := by
  refine ⟨Or.inl (by decide), rfl, ?_⟩
  intro hfound
  obtain ⟨received, hdecode, htype⟩ := hfound
  obtain ⟨other, hother, -, htext⟩ :=
    decode_encode mimeTypes epochDates (fileDto none false "a" page)
  obtain rfl : other = received := Option.some_inj.mp (hother.symm.trans hdecode)
  rw [htext] at htype
  revert htype
  decide

end LocalSend.Dto
