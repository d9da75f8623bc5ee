import JsrD10f.Runs
import JsrD10f.LinkChain
import JsrD10f.RingList
import JsrD10f.RilEvent
import JsrD10f.EventMemory
import JsrD10f.EventLists
import JsrD10f.TimerList
import JsrD10f.TimerRuns
import JsrD10f.TimerWait
import JsrD10f.WatchTable
import JsrD10f.WatchRuns
import JsrD10f.ReadyEvents
import JsrD10f.EventLoop
import JsrD10f.EventOps
import JsrD10f.PendingRequests
import JsrD10f.RequestRuns
import JsrD10f.CommandConnection
import JsrD10f.Sessions
import JsrD10f.UnsolResponses
import JsrD10f.WakeLock
import JsrD10f.ParcelCursor
import JsrD10f.Dispatch
import JsrD10f.DispatchAccepts
import JsrD10f.CommandService
import JsrD10f.TextBuffer
import JsrD10f.XmlPull
import JsrD10f.StorageList
import JsrD10f.TokenReplace
import JsrD10f.MountService
import JsrD10f.Lights
import JsrD10f.WakelockBlocker
import JsrD10f.WakelockList
import JsrD10f.KeyHandler
import JsrD10f.Viewmem
import JsrD10f.FirstMatch
import JsrD10f.FsConfig
import JsrD10f.MmcArgs
import JsrD10f.MmcPartitioning
import JsrD10f.MmcSizes
import JsrD10f.MmcEffects
import JsrD10f.MmcRpmb
import JsrD10f.MmcNumbers
import JsrD10f.Records
import JsrD10f.ResponseStream
import JsrD10f.NitzTime
import JsrD10f.LegacyRadio
import JsrD10f.RequestFields
import JsrD10f.CountWords
import JsrD10f.ResponseFunctions
import JsrD10f.RejectedResponses
import JsrD10f.VendorMemory
import JsrD10f.ResponseReads
import JsrD10f.SignalStrength
import JsrD10f.DebugSocket
import JsrD10f.SmsCodec
import JsrD10f.BlockHash
import JsrD10f.Sha2
import JsrD10f.Sha2Stream
import JsrD10f.HmacSha2
import JsrD10f.RpmbMac
import JsrD10f.MmcSettings
import JsrD10f.EventApi
import JsrD10f.WakeUp
import JsrD10f.DoIo
import JsrD10f.BootFiles
import JsrD10f.Reading
import JsrD10f.AnswerCodec
import JsrD10f.Answers
import JsrD10f.UnsolReads
import JsrD10f.UnsolFrames
import JsrD10f.StartUp
