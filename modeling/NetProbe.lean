import NetProbe.Lib.Outcome
import NetProbe.Lib.ByteBuffer
import NetProbe.Lib.Decimal
import NetProbe.Lib.Text
import NetProbe.Lib.ByteStuffing
import NetProbe.Lib.Machine
import NetProbe.Lib.Simulation
import NetProbe.Lib.LabelledTree
import NetProbe.Lib.ListHeap
import NetProbe.Lib.RandomAccess
import NetProbe.Lib.SegmentedLog
import NetProbe.Lib.ThreadPool
import NetProbe.Common.Qid
import NetProbe.Common.DataCache
import NetProbe.Common.AppEnvironment
import NetProbe.Common.MediaPlayerListener
import NetProbe.Common.Listening
import NetProbe.Qualcomm.Hdlc
import NetProbe.Qualcomm.Resync
import NetProbe.Qualcomm.DiagFiles
import NetProbe.Qualcomm.Packet
import NetProbe.Qualcomm.Dispatcher
import NetProbe.Qualcomm.Registration
import NetProbe.Qualcomm.Pipeline
import NetProbe.Qualcomm.Lifecycle
import NetProbe.Qualcomm.Fields
import NetProbe.Qualcomm.CellTables
import NetProbe.Qualcomm.SearchResults
import NetProbe.Qualcomm.SearchTables
import NetProbe.Qualcomm.Queries
import NetProbe.Ui.PagerQueue
import NetProbe.Ui.Table
import NetProbe.Ui.Pagers
import NetProbe.Ui.Display
import NetProbe.Ui.TestConfigSetting
import NetProbe.Download.Config
import NetProbe.Download.Parsing
import NetProbe.Download.SourceUrl
import NetProbe.Download.Blocks
import NetProbe.Download.Tiling
import NetProbe.Download.Session
import NetProbe.Download.Coordinator
import NetProbe.Download.Accounting
import NetProbe.Download.Transfer
import NetProbe.Download.Steps
import NetProbe.Download.Resume
import NetProbe.Download.Requests
import NetProbe.Download.Progress
import NetProbe.Download.Complete
import NetProbe.Download.Overflow
import NetProbe.Download.Reuse
import NetProbe.Tests.Config
import NetProbe.Tests.Manager
import NetProbe.Tests.Runs
import NetProbe.Tests.Order
import NetProbe.Tests.Voice
import NetProbe.Tests.VoiceCalls
import NetProbe.Tests.Watchdog
import NetProbe.Tests.Loads
import NetProbe.Tests.WebView
