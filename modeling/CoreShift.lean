import CoreShift.Interaction.Exec
import CoreShift.Interaction.Replay
import CoreShift.System
import CoreShift.Reactor
import CoreShift.Io.Buffer
import CoreShift.Io.Writer
import CoreShift.Io.Drain
import CoreShift.Spawn.Process
import CoreShift.Sys
import CoreShift.Spawn.Fork
import CoreShift.Spawn.Posix
import CoreShift.Spawn.Spawn
import CoreShift.Interaction.Guarded
import CoreShift.Observe
import CoreShift.Io.Capture
import CoreShift.Io.Work
import CoreShift.Spawn.Iteration
import CoreShift.Interaction.Unique
import CoreShift.Spawn.ReapedPid
import CoreShift.Spawn.Timeout
import CoreShift.Io.Ending
import CoreShift.Spawn.Completion
import CoreShift.Spawn.Creation
import CoreShift.Spawn.Orphan
import CoreShift.Spawn.Stdio
import CoreShift.Kernel.Channel
import CoreShift.Spawn.World
import CoreShift.Spawn.Refused
import CoreShift.Spawn.Escalation
import CoreShift.Spawn.PollTimeout
import CoreShift.Io.Delivery
import CoreShift.Io.Report
import CoreShift.Spawn.Backends
import CoreShift.Spawn.StartFailure
import CoreShift.Inotify.Decode
import CoreShift.Inotify.Records
import CoreShift.Shutdown.Install
import CoreShift.Shutdown.Delivery
import CoreShift.Interaction.Interleaved
import CoreShift.Kernel.EdgeTriggered
import CoreShift.Spawn.Readiness
import CoreShift.Spawn.Wakeup
import CoreShift.Io.EarlyExit
import CoreShift.Io.Schedules
import CoreShift.Inotify.Safety
import CoreShift.Inotify.ReadEvents
import CoreShift.Shutdown.Histories
import CoreShift.Sys.ExecArguments
import CoreShift.Wire.Text
import CoreShift.Sys.ProcStatus
import CoreShift.Reactor.Setup
import CoreShift.Interaction.Counter
import CoreShift.Spawn.Routing
import CoreShift.Interaction.Ownership
import CoreShift.Spawn.Leak
import CoreShift.Memory.RawVec
import CoreShift.Reactor.EventBuffer
import CoreShift.Interaction.Borrowing
import CoreShift.Spawn.StartCalls
import CoreShift.Spawn.Upkeep
import CoreShift.Interaction.Threads
import CoreShift.Spawn.Threads
import CoreShift.Kernel.Fifo
import CoreShift.Spawn.Family
import CoreShift.Spawn.Course
import CoreShift.Spawn.Plumbing
import CoreShift.Spawn.Launch
import CoreShift.Spawn.Conveyed
import CoreShift.Spawn.Output
import CoreShift.Spawn.Liveness
import CoreShift.Interaction.Stutter
import CoreShift.Spawn.Interrupts
import CoreShift.Spawn.Custody
import CoreShift.Kernel.Inherited
import CoreShift.Spawn.Image
import CoreShift.Sys.Cmdline
import CoreShift.Reactor.Sigchld
