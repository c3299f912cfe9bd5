import FileEvents.Transition.Machine
import FileEvents.Transition.Parallel
import FileEvents.Calls.Program
import FileEvents.Calls.Partner
import FileEvents.Delivery.BoundedQueue
import FileEvents.Delivery.GapLog
import FileEvents.Delivery.ClosedStream
import FileEvents.Delivery.ListedSet
import FileEvents.Concurrency.Monitor
import FileEvents.Concurrency.Workload
import FileEvents.Concurrency.Sites
import FileEvents.Ownership.Store
import FileEvents.Paths.Walk
import FileEvents.Paths.Pathname
import FileEvents.Wire.Bytes
import FileEvents.Wire.Masks
import FileEvents.Wire.Batches
import FileEvents.Text
import FileEvents.Callback.Events
import FileEvents.Callback.NativeFileWatcherCallback
import FileEvents.Callback.OverflowGaps
import FileEvents.Callback.ProcessorThread
import FileEvents.Native.Termination
import FileEvents.Native.Lifecycle
import FileEvents.Native.Watcher
import FileEvents.Native.EndOfWatcher
import FileEvents.Native.CppException
import FileEvents.Native.UnorderedMap
import FileEvents.Native.ModifiedUtf8
import FileEvents.Native.JvmText
import FileEvents.Linux.Inotify
import FileEvents.Linux.Server
import FileEvents.Linux.System
import FileEvents.Linux.Consistency
import FileEvents.Linux.Invariant
import FileEvents.Linux.RunLoop
import FileEvents.Linux.Reregistration
import FileEvents.Linux.EndedRegistrations
import FileEvents.Linux.WatchedSet
import FileEvents.Linux.EventDelivery
import FileEvents.Linux.OverflowCoverage
import FileEvents.Linux.EndOfWatch
import FileEvents.Linux.EventBuffer
import FileEvents.Linux.BadEvent
import FileEvents.Linux.AvailableBytes
import FileEvents.Linux.LiveEntries
import FileEvents.Linux.MovedPaths
import FileEvents.Linux.MovedDirectories
import FileEvents.Linux.PartialRegistration
import FileEvents.Apple.Server
import FileEvents.Apple.System
import FileEvents.Apple.Unwatched
import FileEvents.Apple.EventFlags
import FileEvents.Apple.RunLoop
import FileEvents.Apple.BlockingQueue
import FileEvents.Apple.Streams
import FileEvents.Native.Shutdown
import FileEvents.Apple.OrderlyShutdown
import FileEvents.Windows.WatchPoint
import FileEvents.Windows.Server
import FileEvents.Windows.NotifyBuffer
import FileEvents.Windows.LongPath
import FileEvents.Windows.LongWatchedPath
import FileEvents.Windows.System
import FileEvents.Windows.StatusInvariant
import FileEvents.Windows.Terminating
import FileEvents.Windows.Handles
import FileEvents.Windows.Destructors
import FileEvents.Windows.EndOfWatch
import FileEvents.Windows.MovedPaths
import FileEvents.Windows.RunLoopEnd
import FileEvents.Windows.Command
import FileEvents.Native.Timeouts
import FileEvents.Windows.CommandQueue
import FileEvents.Windows.SerialRun
import FileEvents.Windows.WatchedPaths
import FileEvents.Windows.CommandSteps
import FileEvents.Windows.NestedCallbacks
import FileEvents.Windows.Atomicity
import FileEvents.Native.ReportedPaths
import FileEvents.Native.Jni
import FileEvents.Native.LocalReferences
import FileEvents.Native.PassedPaths
import FileEvents.Text.Formats
import FileEvents.Linux.ReportedBytes
import FileEvents.Native.Calls
import FileEvents.Native.LinuxServer
import FileEvents.Native.WindowsServer
import FileEvents.Native.AppleServer
import FileEvents.Native.EntryPoints
import FileEvents.Native.Containment
import FileEvents.Native.ServerContainment
import FileEvents.Native.ExceptionSafety
import FileEvents.Linux.RunLoopEnd
