import CoreShift.Io.Drain
import CoreShift.Sys

namespace CoreShift

open Interaction

inductive SpawnBackend where
  | auto
  | posixSpawn
  | fork
  deriving DecidableEq, Repr

structure SpawnOptions where
  ctx : ExecContext
  stdin : Option Bytes
  captureStdout : Bool
  captureStderr : Bool
  wait : Bool
  pgroup : ProcessGroup
  maxOutput : Nat
  timeoutMs : Option UInt32
  killGraceMs : UInt32
  cancel : CancelPolicy
  backend : SpawnBackend
  earlyExit : Bool
  deriving DecidableEq

inductive Backend where
  | posixSpawn
  | fork
  deriving DecidableEq, Repr

/-- The target the crate is built for; on Android with the number that `ro.build.version.sdk`
    reads as, when it reads as one. -/
inductive Platform where
  | linux
  | android (api : Option Nat)
  deriving DecidableEq, Repr

def selectBackend : Platform → Backend
  | .linux => .posixSpawn
  | .android (some api) => if api < 32 then .fork else .posixSpawn
  | .android none => .posixSpawn

def forceFork (opts : SpawnOptions) : Bool := opts.pgroup.isolated || opts.ctx.cwd.isSome

def resolveBackend (platform : Platform) (opts : SpawnOptions) : Backend :=
  if forceFork opts then .fork
  else
    match opts.backend with
    | .auto => selectBackend platform
    | .posixSpawn => .posixSpawn
    | .fork => .fork

def makePipe : Prog (Except SysError (Fd × Fd)) := do
  match syscallRet (← ask (.pipe2 (O_CLOEXEC ||| O_NONBLOCK))) "pipe2" with
  | .error e => return .error e
  | .ok (r, w) => return .ok (⟨r⟩, ⟨w⟩)

structure Pipes where
  stdinR : Option Fd
  stdinW : Option Fd
  stdoutR : Option Fd
  stdoutW : Option Fd
  stderrR : Option Fd
  stderrW : Option Fd
  deriving DecidableEq, Repr

namespace Pipes

def pipeIf (wanted : Bool) : Prog (Except SysError (Option Fd × Option Fd)) :=
  if wanted then do
    match ← makePipe with
    | .error e => return .error e
    | .ok (r, w) => return .ok (some r, some w)
  else return .ok (none, none)

/-- A failure drops the ends that were made before it. -/
def new (inBuf : Option Bytes) (out err : Bool) : Prog (Except SysError Pipes) := do
  match ← pipeIf inBuf.isSome with
  | .error e => return .error e
  | .ok (stdinR, stdinW) =>
    match ← pipeIf out with
    | .error e =>
      dropFd stdinW
      dropFd stdinR
      return .error e
    | .ok (stdoutR, stdoutW) =>
      match ← pipeIf err with
      | .error e =>
        dropFd stdoutW
        dropFd stdoutR
        dropFd stdinW
        dropFd stdinR
        return .error e
      | .ok (stderrR, stderrW) => return .ok { stdinR, stdinW, stdoutR, stdoutW, stderrR, stderrW }

def closeAll (p : Pipes) : Prog Unit := do
  dropFd p.stdinR
  dropFd p.stdinW
  dropFd p.stdoutR
  dropFd p.stdoutW
  dropFd p.stderrR
  dropFd p.stderrW

/-- `if let Err(e) = step { pipes.close_all(); return Err(e); }`, and then the rest. -/
def orClose {α β : Type} (p : Pipes) (step : Except SysError α) (rest : α → Prog (Except SysError β)) :
    Prog (Except SysError β) :=
  match step with
  | .error e => do
    p.closeAll
    return .error e
  | .ok value => rest value

end Pipes

/-- The tail of both backends: the child's ends are dropped, and the parent's ends drained. -/
def drainPipes (p : Pipes) (opts : SpawnOptions) (pid : Int) : Prog (Except SysError (Int × DrainState)) := do
  dropFd p.stdinR
  dropFd p.stdoutW
  dropFd p.stderrW
  -- `filter` drops the write end when there is nothing to write
  if opts.stdin.isNone then dropFd p.stdinW
  let stdinW := if opts.stdin.isSome then p.stdinW else none
  match ← DrainState.new stdinW opts.stdin p.stdoutR p.stderrR opts.maxOutput opts.earlyExit with
  | .error e => return .error e
  | .ok drain => return .ok (pid, drain)

end CoreShift
