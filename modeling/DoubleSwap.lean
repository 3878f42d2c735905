import DoubleSwap.Text.Words
import DoubleSwap.Text.Decimal
import DoubleSwap.Data.Fallible
import DoubleSwap.Data.StableSort
import DoubleSwap.Data.GroupDict
import DoubleSwap.Analyser.Records
import DoubleSwap.Analyser.Classifier
import DoubleSwap.Analyser.Merge
import DoubleSwap.Analyser.Collection
import DoubleSwap.Analyser.ProcessSelection
import DoubleSwap.Loggers.Clock
import DoubleSwap.Analyser.PageOrder
import DoubleSwap.Analyser.LogOrder
import DoubleSwap.Analyser.Translation
import DoubleSwap.Analyser.StaleReport
import DoubleSwap.Transition.Runs
import DoubleSwap.Data.KeyedLog
import DoubleSwap.Qemu.Slots
import DoubleSwap.Qemu.SlotLog
import DoubleSwap.Qemu.SlotTable
import DoubleSwap.Transition.Deferred
import DoubleSwap.Loggers.WorkQueue
import DoubleSwap.Host.SwapIn
import DoubleSwap.Host.ReverseMap
import DoubleSwap.Host.SwapOutRecords
import DoubleSwap.Redis.Rio
import DoubleSwap.Redis.Objects
import DoubleSwap.Redis.Dump
import DoubleSwap.Redis.Transparency
import DoubleSwap.Data.Occurrence
import DoubleSwap.Analyser.Interleaving
import DoubleSwap.Analyser.StartMark
import DoubleSwap.Analyser.Accounting
import DoubleSwap.Analyser.RedisScript
import DoubleSwap.Analyser.SlotTranslation
import DoubleSwap.Analyser.OutsideFrames
import DoubleSwap.Redis.SaveRio
import DoubleSwap.Redis.ProgressPlots
import DoubleSwap.Plots.Datetime
import DoubleSwap.Plots.SavedAxis
import DoubleSwap.Data.ParallelLists
import DoubleSwap.Plots.CpuSamples
import DoubleSwap.Loggers.LargePageout
import DoubleSwap.Loggers.RecordRoundTrip
import DoubleSwap.Host.StartTimes
import DoubleSwap.Data.Bracketed
import DoubleSwap.Mosquitto.MessageStore
import DoubleSwap.Traces.Brackets
import DoubleSwap.Data.Milestones
import DoubleSwap.Redis.ProgressLines
import DoubleSwap.Traces.TracedPages
import DoubleSwap.Mosquitto.ProgressLines
import DoubleSwap.Injector.InjectKeys
import DoubleSwap.Transition.Mutex
import DoubleSwap.Injector.Batches
import DoubleSwap.Injector.TotalInjected
import DoubleSwap.Data.Strides
import DoubleSwap.Disturber.WriteMemory
import DoubleSwap.Mosquitto.MainLoop
import DoubleSwap.Data.Reading
import DoubleSwap.Redis.LoadString
import DoubleSwap.Redis.LoadCollections
import DoubleSwap.Redis.LoadStream
import DoubleSwap.Redis.LoadOlder
import DoubleSwap.Redis.LoadObject
import DoubleSwap.Redis.ListpackTuples
import DoubleSwap.Redis.RoundTrip
import DoubleSwap.Redis.LoadRio
import DoubleSwap.Redis.Sequential
import DoubleSwap.Redis.SaveFile
import DoubleSwap.Redis.DumpRoundTrip
import DoubleSwap.Redis.AcceptedFiles
import DoubleSwap.Redis.AcceptedObjects
import DoubleSwap.Data.Storage
import DoubleSwap.Redis.SaveDisk
import DoubleSwap.Redis.WriterInvariants
import DoubleSwap.Redis.AtomicSave
import DoubleSwap.Redis.WholeDumps
import DoubleSwap.Redis.Persistence
