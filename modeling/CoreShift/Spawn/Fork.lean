import CoreShift.Spawn.Options

namespace CoreShift

open Interaction

/-- Both Linux and Android ask the kernel in the same way. The results are ignored. -/
def closeRangeFast (keepFd : Option Nat) : Prog Unit :=
  match keepFd with
  | some fd => do
    let _ ← ask (.closeRange 3 (max (fd - 1) 2) 0)
    let _ ← ask (.closeRange (fd + 1) 0xffffffff 0)
    return ()
  | none => do
    let _ ← ask (.closeRange 3 0xffffffff 0)
    return ()

namespace SpawnFork

def dupTo (source other : Option Fd) (target : Nat) : Prog Unit :=
  match source, other with
  | some fd, some _ => do
    let _ ← ask (.dup2 fd.raw target)
    return ()
  | _, _ => return ()

/-- A process that has called `_exit` does nothing any more. -/
def exit {α : Type} (status : Int) : Prog α := do
  let never ← ask (.exit status)
  nomatch never

def wire (pipes : Pipes) : Prog Unit := do
  dupTo pipes.stdinR pipes.stdinW 0
  dupTo pipes.stdoutW pipes.stdoutR 1
  dupTo pipes.stderrW pipes.stderrR 2
  pipes.closeAll
  closeRangeFast none

/-- The end of what the child does. `execve` returns only to report an error. -/
def launch {α : Type} (opts : SpawnOptions) : Prog α := do
  if let some pg := opts.pgroup.leader then
    let _ ← ask (.setpgid 0 pg)
  let _ ← SignalRuntime.unblockAll
  SignalRuntime.resetDefault SIGPIPE
  let _ ← ask (.execve opts.ctx.exePtr opts.ctx.getArgvPtrs opts.ctx.getEnvpPtrs)
  exit 127

def launchOrExit {α : Type} (opts : SpawnOptions) : Except Errno Unit → Prog α
  | .error _ => exit 127
  | .ok () => launch opts

def enter {α : Type} (opts : SpawnOptions) : Prog α := do
  let entered ← match opts.ctx.cwd with
    | some cwd => ask (.chdir cwd)
    | none => pure (.ok ())
  launchOrExit opts entered

def child {α : Type} (opts : SpawnOptions) (pipes : Pipes) : Prog α := do
  wire pipes
  if opts.pgroup.isolated then
    let _ ← ask .setsid
  enter opts

end SpawnFork

/-- `fork` returns in both processes: with 0 the run is the child's, else it is the parent's. -/
def spawnForkInternal (opts : SpawnOptions) : Prog (Except SysError (Int × DrainState)) := do
  match ← Pipes.new opts.stdin opts.captureStdout opts.captureStderr with
  | .error e => return .error e
  | .ok pipes =>
    match ← ask .fork with
    | .error e =>
      pipes.closeAll
      return .error (.sys e "fork")
    | .ok pid =>
      if pid = 0 then SpawnFork.child opts pipes
      else drainPipes pipes opts pid

end CoreShift
