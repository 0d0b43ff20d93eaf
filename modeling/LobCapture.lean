import LobCapture.Lib.TopView
import LobCapture.Lib.Run
import LobCapture.Session.BookSession
import LobCapture.Book.TopFive
import LobCapture.Session.Invariant
import LobCapture.Session.History
import LobCapture.Session.Resync
import LobCapture.Lib.Patch
import LobCapture.Session.Exchange
import LobCapture.Session.Ledger
import LobCapture.Capture.Json
import LobCapture.Capture.Csv
import LobCapture.Capture.Emitter
import LobCapture.Capture.Live
import LobCapture.Capture.Replay
import LobCapture.Capture.Files
import LobCapture.Lib.Queue
import LobCapture.Capture.Mirror
import LobCapture.Capture.Reproduction
import LobCapture.Session.Provenance
import LobCapture.Capture.Actions
import LobCapture.Capture.Sights
import LobCapture.Capture.Symbol
import LobCapture.Capture.Rows
import LobCapture.Capture.Epochs
import LobCapture.Capture.Traffic
import LobCapture.Capture.Buffers
import LobCapture.Capture.Shards
import LobCapture.Capture.Records
import LobCapture.Capture.Bare
import LobCapture.Capture.Anchors
import LobCapture.Capture.Checkpoints
import LobCapture.Lib.Ring
import LobCapture.Sink.SpscByteRing
import LobCapture.Sink.Stdio
import LobCapture.Sink.CsvSink
import LobCapture.Sink.Async
import LobCapture.Sink.Inline
import LobCapture.Sink.Errors
import LobCapture.Capture.Cut
import LobCapture.Capture.Envelope
import LobCapture.Capture.Scaled
import LobCapture.Capture.Args
import LobCapture.Sink.RingThreads
import LobCapture.Sink.Driver
import LobCapture.Capture.ExitCodes
import LobCapture.Lib.JsonText
import LobCapture.Capture.DepthScan
import LobCapture.Capture.Payload
import LobCapture.Capture.Simd
import LobCapture.Lib.Printf
import LobCapture.Capture.Formats
import LobCapture.Lib.Guarded
import LobCapture.Capture.Bounds
import LobCapture.Capture.Genuine
import LobCapture.Client.Connections
import LobCapture.Lib.Fair
import LobCapture.Client.Shutdown
import LobCapture.Sink.Progress
import LobCapture.Lib.ReleaseAcquire
import LobCapture.Sink.WeakRing
import LobCapture.Sink.WeakAsync
import LobCapture.Sink.WeakNewest
