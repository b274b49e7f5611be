import LocalSend.Lib.Machine
import LocalSend.Send.Status
import LocalSend.Receive.Acceptance
import LocalSend.Receive.Consistency
import LocalSend.Receive.Responses
import LocalSend.WebRtc.JsonWire
import LocalSend.WebRtc.Authorised
import LocalSend.WebRtc.Gate
import LocalSend.WebRtc.Acknowledge
import LocalSend.WebRtc.PinAgreement
import LocalSend.Signaling.Isolation
import LocalSend.Signaling.Greeting
import LocalSend.Signaling.Rooms
import LocalSend.Signaling.Admission
import LocalSend.Signaling.PeerInfo
import LocalSend.Signaling.Answers
import LocalSend.Files.Containment
import LocalSend.Files.ContentUri
import LocalSend.Files.Overlap
import LocalSend.Persistence.History
import LocalSend.Persistence.Favorites
import LocalSend.Persistence.PreferencesFile
import LocalSend.Persistence.BatchedWrites
import LocalSend.Transfer.Cancellation
import LocalSend.Crypto.Token
import LocalSend.Receive.PinLimit
import LocalSend.Server.Lifecycle
import LocalSend.Server.WebSend
import LocalSend.Receive.Attended
import LocalSend.Receive.Withdrawal
import LocalSend.Send.Distribution
import LocalSend.Isolates.Sync
import LocalSend.Isolates.Demux
import LocalSend.Isolates.MulticastListener
import LocalSend.Http.Agreement
import LocalSend.WebRtc.Pairing
import LocalSend.Signaling.JsonWire
import LocalSend.Signaling.OneEntry
import LocalSend.Signaling.RateLimit
import LocalSend.Http.Url
import LocalSend.Common.TaskRunner
import LocalSend.Files.Save
import LocalSend.Persistence.MemoryCache
import LocalSend.Server.Cancel
import LocalSend.Isolates.ListenerRestarts
import LocalSend.Crypto.Verification
import LocalSend.Signaling.AllDevices
import LocalSend.Http.Query
import LocalSend.Common.TaskRunnerFailures
import LocalSend.Send.SelectedFiles
import LocalSend.Send.FileDtos
import LocalSend.Files.TreeUri
import LocalSend.Files.Collision
import LocalSend.Receive.SelectedFiles
import LocalSend.Lib.RegExp
import LocalSend.Common.NetworkInterfaces
import LocalSend.Common.TransferTimes
import LocalSend.Send.Times
import LocalSend.Receive.Times
import LocalSend.Transfer.Times
import LocalSend.WebRtc.Framing
import LocalSend.Lib.Digits
import LocalSend.Signaling.IpGroup
import LocalSend.Common.ProgressNotifier
import LocalSend.Discovery.Scan
import LocalSend.Discovery.ScanProgress
import LocalSend.Discovery.Multicast
import LocalSend.Discovery.Acquaintance
import LocalSend.Signaling.Connect
import LocalSend.Http.Service
import LocalSend.Persistence.Initialize
import LocalSend.Persistence.Starts
import LocalSend.Isolates.UploadCancel
import LocalSend.Http.AppRequests
import LocalSend.WebRtc.Bridge
