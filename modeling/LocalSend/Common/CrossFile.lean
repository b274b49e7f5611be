/-
  File:      LocalSend/Common/CrossFile.lean
  Subject:   The files of a selection (`app/lib/model/cross_file.dart`).
-/
import LocalSend.Common.Device

namespace LocalSend

/-- A point in time, and whether its fields are read in UTC or in the zone of the device. -/
structure DateTime where
  microsecondsSinceEpoch : Int
  isUtc : Bool
  deriving DecidableEq, Repr

def DateTime.isAtSameMomentAs (a b : DateTime) : Prop :=
  a.microsecondsSinceEpoch = b.microsecondsSinceEpoch

/-- An entity of the asset picker, by its number. -/
abbrev AssetEntity := Nat

/-- A file the user selected. -/
structure CrossFile where
  name : String
  fileType : FileType
  size : Int
  thumbnail : Option (List UInt8)
  asset : Option AssetEntity
  path : Option String
  /-- UTF-8 for a message -/
  bytes : Option (List UInt8)
  lastModified : Option DateTime
  lastAccessed : Option DateTime
  deriving DecidableEq, Repr

/-- `isSameFile`. -/
def CrossFile.isSameFile (file otherFile : CrossFile) : Bool :=
  file.path.getD "" = otherFile.path.getD ""

end LocalSend
