import ScreenSearch.Lib.Text
import ScreenSearch.Lib.Sort
import ScreenSearch.Lib.Assoc
import ScreenSearch.Lib.Batch
import ScreenSearch.Lib.Process
import ScreenSearch.Traits.Memory
import ScreenSearch.Store.Memory
import ScreenSearch.Traits.Jobs
import ScreenSearch.Store.Jobs
import ScreenSearch.Store.ReportRows
import ScreenSearch.Store.ReportRefines
import ScreenSearch.Store.ReportHistory
import ScreenSearch.Memory.Delivery
import ScreenSearch.Memory.Reading
import ScreenSearch.Memory.Retarget
import ScreenSearch.Traits.Reports
import ScreenSearch.Inference.Answer
import ScreenSearch.Kernel.Reports
import ScreenSearch.Traits.Sessions
import ScreenSearch.Sessions.Taxonomy
import ScreenSearch.Sessions.Confidence
import ScreenSearch.Sessions.Micro
import ScreenSearch.Sessions.Timeline
import ScreenSearch.Sessions.Segmenter
import ScreenSearch.Sessions.Ownership
import ScreenSearch.Sessions.Bands
import ScreenSearch.Sessions.WalkInvariant
import ScreenSearch.Sessions.Simulation
import ScreenSearch.Sessions.Cut
import ScreenSearch.Sessions.Order
import ScreenSearch.Sessions.Retention
import ScreenSearch.Sessions.Extent
import ScreenSearch.Sessions.Bounds
import ScreenSearch.Lib.Threads
import ScreenSearch.Store.ReportFiles
import ScreenSearch.Memory.FileEdits
import ScreenSearch.Sessions.Split
import ScreenSearch.Kernel.BackfillCut
import ScreenSearch.Store.Sessions
import ScreenSearch.Store.Frozen
import ScreenSearch.Store.SessionQueries
import ScreenSearch.Kernel.Scheduler
import ScreenSearch.Kernel.LivePlan
import ScreenSearch.Kernel.Release
import ScreenSearch.Kernel.Reconcile
import ScreenSearch.Sessions.Closed
import ScreenSearch.Kernel.Idempotent
import ScreenSearch.Kernel.SecondPass
import ScreenSearch.Lib.Keyset
import ScreenSearch.Traits.History
import ScreenSearch.Store.Frames
import ScreenSearch.Store.FramePages
import ScreenSearch.Traits.SavedReports
import ScreenSearch.Store.ReportPages
import ScreenSearch.Lib.Bytes
import ScreenSearch.Lib.Base64
import ScreenSearch.Api.History
import ScreenSearch.Lib.Mirror
import ScreenSearch.Traits.TextSpans
import ScreenSearch.Store.SearchTables
import ScreenSearch.Store.SearchMirrors
import ScreenSearch.Store.SearchEffects
import ScreenSearch.TextFilter.Classify
import ScreenSearch.Kernel.EmbedWorkers
import ScreenSearch.Kernel.FreshEmbeddings
import ScreenSearch.Traits.Capture
import ScreenSearch.Lib.BoundedFifo
import ScreenSearch.Capture.NextFrame
import ScreenSearch.Capture.Wgc
import ScreenSearch.Capture.Fidelity
import ScreenSearch.Kernel.CaptureNow
import ScreenSearch.Kernel.OwnFrames
import ScreenSearch.Lib.Shares
import ScreenSearch.Inference.Models
import ScreenSearch.Inference.Supervisor
import ScreenSearch.Inference.LeaseSafety
import ScreenSearch.Lib.DurableFile
import ScreenSearch.Inference.PartsManifest
import ScreenSearch.Inference.ChunkedDownload
import ScreenSearch.Inference.ChunkSafety
import ScreenSearch.Inference.Published
import ScreenSearch.Inference.Preload
import ScreenSearch.Inference.PinSteps
import ScreenSearch.Inference.Pinning
import ScreenSearch.Kernel.WorkerPool
import ScreenSearch.Kernel.PoolExclusion
import ScreenSearch.Kernel.WorkerLifecycle
import ScreenSearch.Kernel.OnePool
import ScreenSearch.Store.FilterBackfill
import ScreenSearch.Store.BackfillRuns
import ScreenSearch.Kernel.CaptureObservations
import ScreenSearch.Api.Reports
import ScreenSearch.Api.LocalApi
import ScreenSearch.Api.ConfigRuns
import ScreenSearch.Lib.Json
import ScreenSearch.Api.Export
import ScreenSearch.Api.Permissions
import ScreenSearch.Api.Routes
import ScreenSearch.Api.Connections
import ScreenSearch.Memory.ReportService
import ScreenSearch.Kernel.CaptureLifecycle
import ScreenSearch.Capture.UiaClient
import ScreenSearch.Store.HistoryAllocator
import ScreenSearch.TextFilter.KeptText
import ScreenSearch.Store.FilterRemoves
import ScreenSearch.Kernel.VisionScheduler
import ScreenSearch.Kernel.VisionOnce
import ScreenSearch.Lib.Ddl
import ScreenSearch.Store.Schema
import ScreenSearch.Store.Migrations
import ScreenSearch.App.Retention
import ScreenSearch.App.RetentionLaw
import ScreenSearch.App.Updater
import ScreenSearch.Uia.Breaker
import ScreenSearch.Capture.Trigger
import ScreenSearch.Uia.Walk
import ScreenSearch.Uia.WalkLaw
import ScreenSearch.Uia.ReadingOrder
import ScreenSearch.TextFilter.ClassifyLaw
import ScreenSearch.TextFilter.ReconcileLaw
import ScreenSearch.TextFilter.MergeLaw
import ScreenSearch.Lib.Matching
import ScreenSearch.Harness.Score
import ScreenSearch.Lib.Runs
import ScreenSearch.Kernel.Resume
import ScreenSearch.Lib.Feeding
import ScreenSearch.Inference.ThinkSplitter
import ScreenSearch.Inference.Stream
import ScreenSearch.Mcp.Sse
import ScreenSearch.Mcp.Rpc
import ScreenSearch.Mcp.Tools
import ScreenSearch.Mcp.Session
import ScreenSearch.Lib.FormUrlencoded
import ScreenSearch.Mcp.Queries
import ScreenSearch.Mcp.FrameWalk
import ScreenSearch.Lib.Dwell
import ScreenSearch.Kernel.Throttle
import ScreenSearch.Lib.Ranking
import ScreenSearch.Store.KnnEscalation
import ScreenSearch.Store.HybridSearch
import ScreenSearch.Kernel.ReportPasses
import ScreenSearch.Lib.Spread
import ScreenSearch.Lib.Buckets
import ScreenSearch.Store.Timeline
import ScreenSearch.Kernel.Coverage
import ScreenSearch.Inference.PromptBound
import ScreenSearch.Lib.Tiling
import ScreenSearch.Kernel.DayGrid
import ScreenSearch.Store.PruneRuns
import ScreenSearch.Lib.Thinning
import ScreenSearch.Sessions.Exchange
import ScreenSearch.Sessions.ExchangeTurns
import ScreenSearch.Lib.PrettyJson
import ScreenSearch.Memory.Notes
import ScreenSearch.Lib.Leftmost
import ScreenSearch.Memory.Mask
import ScreenSearch.Memory.MaskLaw
import ScreenSearch.Lib.Weighted
import ScreenSearch.Memory.Digest
import ScreenSearch.Sessions.Disjoint
import ScreenSearch.Memory.Leaving
import ScreenSearch.Memory.Dispatch
import ScreenSearch.Memory.Lives
import ScreenSearch.Lib.CommandLine
import ScreenSearch.Inference.Launch
import ScreenSearch.Traits.Settings
import ScreenSearch.Kernel.Settings
import ScreenSearch.Kernel.SettingsLoad
import ScreenSearch.Kernel.SettingsRuns
import ScreenSearch.Kernel.SettingsMigration
