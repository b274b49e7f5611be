/-
  File:      LocalSend/Common/Device.lean
  Subject:   Devices and files as the app knows them (`common/lib/model`).
-/

namespace LocalSend

inductive DeviceType where
  | mobile | desktop | web | headless | server
  deriving DecidableEq, Repr

inductive DiscoveryMethod where
  | multicast
  | http (ip : String)
  | signaling (signalingServer : String)
  deriving DecidableEq, Repr

/-- A device; one found by signaling carries the id the signaling server gave it. -/
structure Device where
  signalingId : Option Nat
  ip : Option String
  version : String
  port : Int
  https : Bool
  fingerprint : String
  aliasName : String
  deviceModel : Option String
  deviceType : DeviceType
  download : Bool
  discoveryMethods : List DiscoveryMethod
  deriving DecidableEq, Repr

inductive FileType where
  | image | video | pdf | text | apk | other
  deriving DecidableEq, Repr

/-- Status of one file during a transfer. -/
inductive FileStatus where
  | queue | skipped | sending | failed | finished
  deriving DecidableEq, Repr

/-- `isFinishedOrError`, for one status. -/
def FileStatus.isFinishedOrError : FileStatus → Bool
  | .skipped | .failed | .finished => true
  | .queue | .sending => false

/-- Status of one transfer. -/
inductive SessionStatus where
  | waiting | recipientBusy | declined | tooManyAttempts | sending | finished
  | finishedWithErrors | canceledBySender | canceledByReceiver
  deriving DecidableEq, Repr

/-- The fields of a `FileDto` the receiver looks at. -/
structure FileDto where
  id : String
  fileName : String
  size : Int
  fileType : FileType
  preview : Option String
  deriving DecidableEq, Repr

end LocalSend
