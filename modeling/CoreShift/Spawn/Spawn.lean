import CoreShift.Spawn.Fork
import CoreShift.Spawn.Posix
import CoreShift.Spawn.WaitLoop

namespace CoreShift

open Interaction

/-- The process and its drain, as `RunningProcess` holds them. -/
def spawnStart (platform : Platform) (opts : SpawnOptions) : Prog (Except SysError (Int × DrainState)) :=
  if !opts.wait && (opts.stdin.isSome || opts.captureStdout || opts.captureStderr) then
    return .error (.sys EINVAL "background I/O capture not supported (wait must be true)")
  else
    match resolveBackend platform opts with
    | .posixSpawn => spawnPosixInternal opts
    | .fork => spawnForkInternal opts

def WaitConfig.ofOptions (opts : SpawnOptions) (pid : Int) : WaitConfig :=
  { pid
    timeoutMs := opts.timeoutMs
    killGraceMs := opts.killGraceMs
    cancel := opts.cancel
    pgroup := opts.pgroup }

/-- The rest of `spawn`, once `spawn_start` has returned. -/
def settle (opts : SpawnOptions) (reactor : Reactor) :
    Except SysError (Int × DrainState) → Prog (Except SysError Output)
  | .error e => do
    reactor.drop
    return .error e
  | .ok (pid, drain) => do
    let (drain, reactor, result) ← drain.registerWithReactor reactor
    match result with
    | .error e =>
      drain.drop
      reactor.drop
      return .error e
    | .ok () =>
      if !opts.wait then
        let (stdout, stderr) ← drain.intoParts
        reactor.drop
        return .ok { pid, status := none, stdout, stderr, timedOut := false }
      else waitLoop (.ofOptions opts pid) drain reactor

def spawn (platform : Platform) (opts : SpawnOptions) : Prog (Except SysError Output) := do
  match ← Reactor.new with
  | .error e => return .error e
  | .ok reactor => settle opts reactor (← spawnStart platform opts)

end CoreShift
