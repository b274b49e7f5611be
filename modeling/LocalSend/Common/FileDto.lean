/-
  File:      LocalSend/Common/FileDto.lean
  Subject:   A FILE ON THE WIRE (`common/lib/model/dto/file_dto.dart`): the record with all its
             fields, and the map that is sent for it.

  The type of a file is sent as the MIME type of its name, or, to a legacy device, as its own name;
  the receiver recomputes it from either.

  * `FileMetadata`, `FileDto` -- the records; `DateTimeMapper` -- how a time goes into a map;
  * `encode`, `decode` -- `FileDtoMapper`; `decodeFromMime`;
  * `Received` -- the same file, but for its type; `decode_encode` -- **what is sent is received**,
    with the type of `sentType`;
  * `MimeFits`, `decodeFromMime_iff` -- when a MIME type stands for a type.
-/
import LocalSend.Common.CrossFile
import Mathlib.Data.List.Basic
import Mathlib.Data.Option.Basic

namespace LocalSend.Dto

/-! ## 1. Records -/

/-- A value of a map. -/
inductive Dynamic where
  | null
  | str (text : String)
  | int (n : Int)
  | map (fields : List (String × Dynamic))

/-- `map[name]`. -/
def get (name : String) (fields : List (String × Dynamic)) : Dynamic :=
  (fields.lookup name).getD .null

/-- `as String`; `none` where the cast throws. -/
def asString : Dynamic → Option String
  | .str text => some text
  | _ => none

/-- `as int`. -/
def asInt : Dynamic → Option Int
  | .int n => some n
  | _ => none

/-- A value of a nullable type. -/
def nullable {α : Type} (read : Dynamic → Option α) : Dynamic → Option (Option α)
  | .null => some none
  | value => (read value).map some

/-- An entry that is left out without a value. -/
def entry (name : String) (value : Option Dynamic) : List (String × Dynamic) :=
  (value.map fun value => (name, value)).toList

/-- How `package:dart_mappable` puts a time into a map, and what is relied on: the moment comes
    back. -/
structure DateTimeMapper where
  encode : DateTime → Dynamic
  decode : Dynamic → Option DateTime
  encode_ne_null : ∀ time, encode time ≠ .null
  decode_encode : ∀ time, ∃ time', decode (encode time) = some time' ∧ time'.isAtSameMomentAs time

structure FileMetadata where
  lastModified : Option DateTime
  lastAccessed : Option DateTime
  deriving DecidableEq, Repr

structure FileDto where
  id : String
  fileName : String
  size : Int
  fileType : FileType
  hash : Option String
  preview : Option String
  metadata : Option FileMetadata
  /-- whether the type is sent by its name; not sent itself -/
  legacy : Bool
  deriving DecidableEq, Repr

/-! ## 2. The mapper -/

def FileMetadata.toJson (dates : DateTimeMapper) (m : FileMetadata) : Dynamic :=
  .map (entry "modified" (m.lastModified.map dates.encode) ++
    entry "accessed" (m.lastAccessed.map dates.encode))

def FileMetadata.fromJson (dates : DateTimeMapper) (fields : List (String × Dynamic)) :
    Option FileMetadata := do
  return ⟨← nullable dates.decode (get "modified" fields),
    ← nullable dates.decode (get "accessed" fields)⟩

/-- `FileType.name`. -/
def typeName : FileType → String
  | .image => "image"
  | .video => "video"
  | .pdf => "pdf"
  | .text => "text"
  | .apk => "apk"
  | .other => "other"

/-- `FileType.values`. -/
def types : List FileType := [.image, .video, .pdf, .text, .apk, .other]

def StartsWith (text start : String) : Prop := start.toList <+: text.toList

instance (text start : String) : Decidable (StartsWith text start) :=
  inferInstanceAs (Decidable (_ <+: _))

def decodeFromMime (mime : String) : FileType :=
  if StartsWith mime "image/" then .image
  else if StartsWith mime "video/" then .video
  else if mime = "application/pdf" then .pdf
  else if StartsWith mime "text/" then .text
  else if mime = "application/vnd.android.package-archive" then .apk
  else .other

/-! `lookupMimeType` is that of `package:mime`. -/

section Mapper

variable (lookupMimeType : String → Option String) (dates : DateTimeMapper)

def FileDto.lookupMime (dto : FileDto) : String :=
  (lookupMimeType dto.fileName).getD "application/octet-stream"

/-- The text that is sent for the type. -/
def FileDto.rawFileType (dto : FileDto) : String :=
  if dto.legacy then typeName dto.fileType else dto.lookupMime lookupMimeType

/-- `FileDtoMapper.encode`. -/
def encode (dto : FileDto) : Dynamic :=
  .map ([("id", .str dto.id), ("fileName", .str dto.fileName), ("size", .int dto.size),
      ("fileType", .str (dto.rawFileType lookupMimeType))] ++
    entry "hash" (dto.hash.map .str) ++ entry "preview" (dto.preview.map .str) ++
    entry "metadata" (dto.metadata.map (FileMetadata.toJson dates)))

/-- The type a text stands for. -/
def decodeFileType (rawFileType : String) : FileType :=
  if '/' ∈ rawFileType.toList then decodeFromMime rawFileType
  else (types.find? fun e => typeName e = rawFileType).getD .other

/-- The metadata of a map. -/
def decodeMetadata : Dynamic → Option (Option FileMetadata)
  | .map metadata => (FileMetadata.fromJson dates metadata).map some
  | _ => some none

/-- `FileDtoMapper.decode`; `none` where it throws. -/
def decode : Dynamic → Option FileDto
  | .map fields => do
    return {
      id := ← asString (get "id" fields)
      fileName := ← asString (get "fileName" fields)
      size := ← asInt (get "size" fields)
      fileType := decodeFileType (← asString (get "fileType" fields))
      hash := ← nullable asString (get "hash" fields)
      preview := ← nullable asString (get "preview" fields)
      metadata := ← decodeMetadata dates (get "metadata" fields)
      legacy := false }
  | _ => none

end Mapper

/-! ## 3. What is received -/

/-- The same moments. -/
structure FileMetadata.Same (a b : FileMetadata) : Prop where
  lastModified : Option.Rel DateTime.isAtSameMomentAs a.lastModified b.lastModified
  lastAccessed : Option.Rel DateTime.isAtSameMomentAs a.lastAccessed b.lastAccessed

/-- **The file that was sent**, whatever its type. -/
structure Received (dto received : FileDto) : Prop where
  id : received.id = dto.id
  fileName : received.fileName = dto.fileName
  size : received.size = dto.size
  hash : received.hash = dto.hash
  preview : received.preview = dto.preview
  metadata : Option.Rel FileMetadata.Same received.metadata dto.metadata

section Receive

variable {lookupMimeType : String → Option String} {dates : DateTimeMapper}

variable {name other : String} {value : Dynamic} {entries : List (String × Dynamic)}

theorem get_nil : get name [] = .null := rfl

theorem get_cons_self : get name ((name, value) :: entries) = value := by
  simp [get]

theorem get_cons_ne (h : name ≠ other) : get name ((other, value) :: entries) = get name entries := by
  have hother : (name == other) = false := beq_false_of_ne h
  simp only [get, List.lookup_cons, hother]

theorem get_entry (value : Option Dynamic) :
    get name (entry name value ++ entries) = value.getD (get name entries) := by
  cases value with
  | none => rfl
  | some value => exact get_cons_self

theorem get_entry_ne (h : name ≠ other) (value : Option Dynamic) :
    get name (entry other value ++ entries) = get name entries := by
  cases value with
  | none => rfl
  | some value => exact get_cons_ne h

theorem get_last (value : Option Dynamic) : get name (entry name value) = value.getD .null := by
  rw [← List.append_nil (entry _ _), get_entry, get_nil]

theorem get_last_ne (h : name ≠ other) (value : Option Dynamic) :
    get name (entry other value) = .null := by
  rw [← List.append_nil (entry _ _), get_entry_ne h, get_nil]

theorem nullable_of_ne {α : Type} (read : Dynamic → Option α) (h : value ≠ .null) :
    nullable read value = (read value).map some := by
  cases value with
  | null => exact absurd rfl h
  | str text => rfl
  | int n => rfl
  | map fields => rfl

theorem nullable_asString (text : Option String) :
    nullable asString ((text.map .str).getD .null) = some text := by
  cases text <;> rfl

/-- A time comes back. -/
theorem nullable_encode (dates : DateTimeMapper) (time : Option DateTime) :
    ∃ time', nullable dates.decode ((time.map dates.encode).getD .null) = some time' ∧
      Option.Rel DateTime.isAtSameMomentAs time' time := by
  cases time with
  | none => exact ⟨none, rfl, .none⟩
  | some time =>
      obtain ⟨time', hdecode, hmoment⟩ := dates.decode_encode time
      refine ⟨some time', ?_, .some hmoment⟩
      rw [Option.map_some, Option.getD_some,
        nullable_of_ne dates.decode (dates.encode_ne_null time), hdecode]
      rfl

/-- The metadata come back. -/
theorem decodeMetadata_toJson (dates : DateTimeMapper) (metadata : Option FileMetadata) :
    ∃ metadata', decodeMetadata dates
        ((metadata.map (FileMetadata.toJson dates)).getD .null) = some metadata' ∧
      Option.Rel FileMetadata.Same metadata' metadata := by
  cases metadata with
  | none => exact ⟨none, rfl, .none⟩
  | some m =>
      obtain ⟨modified, hmodified, hsame⟩ := nullable_encode dates m.lastModified
      obtain ⟨accessed, haccessed, hsame'⟩ := nullable_encode dates m.lastAccessed
      refine ⟨some ⟨modified, accessed⟩, ?_, .some ⟨hsame, hsame'⟩⟩
      simp (disch := decide) only [Option.map_some, Option.getD_some, FileMetadata.toJson,
        decodeMetadata, FileMetadata.fromJson, get_entry, get_entry_ne, get_last, get_last_ne,
        hmodified, haccessed]
      rfl

/-- **What is sent is received**, with the type its text stands for. -/
theorem decode_encode (lookupMimeType : String → Option String) (dates : DateTimeMapper)
    (dto : FileDto) : ∃ received,
      decode dates (encode lookupMimeType dates dto) = some received ∧ Received dto received ∧
        received.fileType = decodeFileType (dto.rawFileType lookupMimeType) := by
  obtain ⟨metadata, hmetadata, hsame⟩ := decodeMetadata_toJson dates dto.metadata
  refine ⟨⟨dto.id, dto.fileName, dto.size, decodeFileType (dto.rawFileType lookupMimeType),
    dto.hash, dto.preview, metadata, false⟩, ?_, ⟨rfl, rfl, rfl, rfl, rfl, hsame⟩, rfl⟩
  simp (disch := decide) only [encode, decode, List.append_assoc, List.cons_append,
    List.nil_append, get_cons_self, get_cons_ne, get_entry, get_entry_ne, get_last,
    get_last_ne, nullable_asString, hmetadata]
  rfl

end Receive

/-! ## 4. Types and MIME types -/

/-- **The MIME type of a name, if it has one, is one of the type's**: two of the types have one MIME
    type each, three a class of them, and the last one all the others. -/
def MimeFits : FileType → Option String → Prop
  | .image, some mime => StartsWith mime "image/"
  | .video, some mime => StartsWith mime "video/"
  | .pdf, some mime => mime = "application/pdf"
  | .text, some mime => StartsWith mime "text/"
  | .apk, some mime => mime = "application/vnd.android.package-archive"
  | .other, some mime => ¬ StartsWith mime "image/" ∧ ¬ StartsWith mime "video/" ∧
      mime ≠ "application/pdf" ∧ ¬ StartsWith mime "text/" ∧
      mime ≠ "application/vnd.android.package-archive"
  | fileType, none => fileType = .other

/-- Two classes of MIME types have nothing in common. -/
theorem not_prefix {a b : Char} {as bs cs : List Char} (h : a ≠ b) (ha : a :: as <+: cs) :
    ¬ b :: bs <+: cs := by
  intro h
  obtain ⟨rest, rfl⟩ := h
  exact h (List.cons_prefix_cons.mp ha).1

theorem decodeFromMime_iff (mime : String) (fileType : FileType) :
    decodeFromMime mime = fileType ↔ MimeFits fileType (some mime) := by
  have hpdf : ∀ start ∈ ["image/", "video/", "text/"],
      ¬ StartsWith "application/pdf" start := by decide
  have hapk : ∀ start ∈ ["image/", "video/", "text/"],
      ¬ StartsWith "application/vnd.android.package-archive" start := by decide
  -- A MIME type in one of the three classes is none of the two single ones.
  have hsingle : ∀ start ∈ ["image/", "video/", "text/"], StartsWith mime start →
      mime ≠ "application/pdf" ∧ mime ≠ "application/vnd.android.package-archive" := by
    intro start hstart hmime
    refine ⟨?_, ?_⟩
    · rintro rfl
      exact hpdf start hstart hmime
    · rintro rfl
      exact hapk start hstart hmime
  unfold decodeFromMime
  split
  · rename_i himage
    obtain ⟨hnotPdf, hnotApk⟩ := hsingle "image/" (by simp) himage
    have hvideo : ¬ StartsWith mime "video/" := not_prefix (by decide) himage
    have htext : ¬ StartsWith mime "text/" := not_prefix (by decide) himage
    cases fileType <;> simp [MimeFits, himage, hvideo, htext, hnotPdf, hnotApk]
  · rename_i himage
    split
    · rename_i hvideo
      obtain ⟨hnotPdf, hnotApk⟩ := hsingle "video/" (by simp) hvideo
      have htext : ¬ StartsWith mime "text/" := not_prefix (by decide) hvideo
      cases fileType <;> simp [MimeFits, himage, hvideo, htext, hnotPdf, hnotApk]
    · rename_i hvideo
      split
      · rename_i hmime
        subst hmime
        have htext := hpdf "text/" (by simp)
        cases fileType <;> simp [MimeFits, himage, hvideo, htext]
      · rename_i hnotPdf
        split
        · rename_i htext
          obtain ⟨_, hnotApk⟩ := hsingle "text/" (by simp) htext
          cases fileType <;> simp [MimeFits, himage, hvideo, htext, hnotPdf, hnotApk]
        · rename_i htext
          split
          · rename_i hmime
            subst hmime
            cases fileType <;> simp [MimeFits, himage, hvideo, htext]
          · rename_i hnotApk
            cases fileType <;> simp [MimeFits, himage, hvideo, htext, hnotPdf, hnotApk]

/-- The name of a type is read back. -/
theorem decodeFileType_typeName (fileType : FileType) :
    decodeFileType (typeName fileType) = fileType := by
  cases fileType <;> decide

/-- A MIME type is read by its class. -/
theorem decodeFileType_iff {lookupMimeType : String → Option String}
    (hlookup : ∀ name mime, lookupMimeType name = some mime → '/' ∈ mime.toList) (name : String)
    (fileType : FileType) :
    decodeFileType ((lookupMimeType name).getD "application/octet-stream") = fileType ↔
      MimeFits fileType (lookupMimeType name) := by
  cases hmime : lookupMimeType name with
  | none =>
      have hother : decodeFileType "application/octet-stream" = .other := by decide
      rw [Option.getD_none, hother]
      cases fileType <;> simp [MimeFits]
  | some mime =>
      rw [Option.getD_some, decodeFileType, if_pos (hlookup name mime hmime)]
      exact decodeFromMime_iff mime fileType

end LocalSend.Dto
