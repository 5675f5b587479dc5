import Xpedite.Txn.LoaderCore
import Xpedite.Txn.LoaderRefines
import Xpedite.Txn.Outline
import Xpedite.Txn.Streams
import Xpedite.Txn.Bounded
import Xpedite.Txn.Isolation
import Xpedite.Lib.Leaves
import Xpedite.Txn.Join
import Xpedite.Txn.Fragments
import Xpedite.Txn.Collection
import Xpedite.Txn.Following
import Xpedite.Txn.Charted
import Xpedite.Txn.Conservation
import Xpedite.Txn.TxnIdentity
import Xpedite.Lib.Digits
import Xpedite.Txn.Links
import Xpedite.Txn.LoadOrder
import Xpedite.Lib.Runs
import Xpedite.Pool.PoolCore
import Xpedite.Pool.PoolInvariant
import Xpedite.Pool.PoolDelivery
import Xpedite.Transport.FramerCore
import Xpedite.Transport.Tape
import Xpedite.Transport.FramerExact
import Xpedite.Analytics.RouteAggregator
import Xpedite.Lib.Utf8
import Xpedite.Transport.DatagramCore
import Xpedite.Transport.Datagram
import Xpedite.Lib.Memory
import Xpedite.Samples.SampleCore
import Xpedite.Samples.SampleStream
import Xpedite.Samples.Trampoline
import Xpedite.Lib.OStream
import Xpedite.Samples.CsvCore
import Xpedite.Samples.Csv
import Xpedite.Samples.LinkId
import Xpedite.Samples.FileCore
import Xpedite.Samples.File
import Xpedite.Samples.FileRoundTrip
import Xpedite.Samples.Collector
import Xpedite.Perf.PerfEvents
import Xpedite.Framework.HandlerCore
import Xpedite.Framework.PmcBound
import Xpedite.Framework.SessionCore
import Xpedite.Framework.LocalProfile
import Xpedite.Framework.Disconnect
import Xpedite.Framework.ParserCore
import Xpedite.Framework.Parser
import Xpedite.Framework.EventSelect
import Xpedite.Framework.ProfileStop
import Xpedite.Lib.Blocks
import Xpedite.Profiler.PmuRequestCore
import Xpedite.Profiler.PmuWire
import Xpedite.Profiler.Columns
import Xpedite.Session.Local
import Xpedite.Session.ManagerCore
import Xpedite.Session.Manager
import Xpedite.Perf.SessionsCore
import Xpedite.Perf.FailedEnable
import Xpedite.Perf.AttachedSets
import Xpedite.Perf.LateThreads
import Xpedite.Framework.PollInterval
import Xpedite.Framework.Recorders
import Xpedite.Lib.Fields
import Xpedite.Lib.OrderedDict
import Xpedite.Probes.ListingCore
import Xpedite.Probes.Listing
import Xpedite.Probes.AppInfo
import Xpedite.Lib.LinkedList
import Xpedite.Probes.ProbeListCore
import Xpedite.Probes.ProbeList
import Xpedite.Timelines.ConflatorCore
import Xpedite.Lib.Greedy
import Xpedite.Timelines.Routes
import Xpedite.Timelines.Series
import Xpedite.Timelines.Spans
import Xpedite.Timelines.Paced
import Xpedite.Timelines.Conflate
import Xpedite.Timelines.Filter
import Xpedite.Analytics.TreeCollectionsCore
import Xpedite.Analytics.TreeCollections
import Xpedite.Report.GeneratorCore
import Xpedite.Report.Histograms
import Xpedite.Kernel.PmuArchCore
import Xpedite.Kernel.PmuDeviceCore
import Xpedite.Kernel.PmuArch
import Xpedite.Kernel.PmuSession
import Xpedite.Benchmark.InfoCore
import Xpedite.Benchmark.Info
import Xpedite.Benchmark.Store
import Xpedite.Jupyter.DataFile
import Xpedite.Samples.Truncated
import Xpedite.Txn.Segmentation
import Xpedite.Txn.Rising
import Xpedite.Lib.StableSort
import Xpedite.Lib.Walks
import Xpedite.Profiler.Allocation
import Xpedite.Profiler.Contention
import Xpedite.Txn.FanOut
import Xpedite.Profiler.AllocatorObjects
import Xpedite.Lib.Filling
import Xpedite.Samples.Scan
import Xpedite.Collection.SamplesBufferCore
import Xpedite.Collection.Layout
import Xpedite.Collection.Reachable
import Xpedite.Collection.Collected
import Xpedite.Collection.DataSamples
import Xpedite.Collection.Leftovers
import Xpedite.Lib.Admission
import Xpedite.Samples.Storage
import Xpedite.Kernel.PmuAtomic
import Xpedite.Probes.CallSite
import Xpedite.Framework.ProbeLocation
import Xpedite.Lib.Breakdown
import Xpedite.Timelines.TimelineTree
import Xpedite.Timelines.Offsets
import Xpedite.Timelines.Gaps
import Xpedite.Timelines.Accounts
import Xpedite.Lib.LooseDict
import Xpedite.Indexing.ProbeIndexCore
import Xpedite.Indexing.ProbeIndex
import Xpedite.Indexing.Finalize
import Xpedite.Timelines.TreeDepth
import Xpedite.Transport.BufferCore
import Xpedite.Transport.EnsureRoom
import Xpedite.Lib.Pattern
import Xpedite.Events.EventsDbCore
import Xpedite.Lib.Numerals
import Xpedite.Events.CmaskQualifier
import Xpedite.Events.EventsDb
import Xpedite.Lib.UpperBound
import Xpedite.Vivify.StackUnwindCore
import Xpedite.Vivify.MapCache
import Xpedite.Vivify.AccessMem
import Xpedite.Intercept.TlScopedRuns
import Xpedite.Profiles.Profiles
import Xpedite.Session.Admin
import Xpedite.Profiler.Enable
import Xpedite.Benchmark.StoreCore
import Xpedite.Enabling.ProbeAdmin
import Xpedite.Probes.ProbeCtl
