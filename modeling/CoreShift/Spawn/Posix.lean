import CoreShift.Spawn.Options

namespace CoreShift

open Interaction

def POSIX_SPAWN_SETPGROUP : Nat := 2
def POSIX_SPAWN_SETSIGDEF : Nat := 4
def POSIX_SPAWN_SETSIGMASK : Nat := 8

namespace SpawnPosix

def add : FileAction → Prog (Except Errno Unit)
  | .dup2 fd newfd => ask (.fileActionsAddDup2 fd newfd)
  | .close fd => ask (.fileActionsAddClose fd)

def record : List (FileAction × String) → List FileAction → Prog (Except SysError (List FileAction))
  | [], actions => return .ok actions
  | (action, op) :: rest, actions => do
    match posixRet (← add action) op with
    | .error e => return .error e
    | .ok () => record rest (actions ++ [action])

def stdinActions : Option Fd → Option Fd → List (FileAction × String)
  | some r, some w =>
    [(.dup2 r.raw 0, "dup2 stdin"),
     (.close r.raw, "close stdin pipe"),
     (.close w.raw, "close stdin write pipe")]
  | _, _ => []

def stdoutActions : Option Fd → Option Fd → List (FileAction × String)
  | some r, some w =>
    [(.dup2 w.raw 1, "dup2 stdout"),
     (.close w.raw, "close stdout pipe"),
     (.close r.raw, "close stdout read pipe")]
  | _, _ => []

def stderrActions : Option Fd → Option Fd → List (FileAction × String)
  | some r, some w =>
    [(.dup2 w.raw 2, "dup2 stderr"),
     (.close w.raw, "close stderr pipe"),
     (.close r.raw, "close stderr read pipe")]
  | _, _ => []

def pipeActions (p : Pipes) : List (FileAction × String) :=
  stdinActions p.stdinR p.stdinW ++ stdoutActions p.stdoutR p.stdoutW ++ stderrActions p.stderrR p.stderrW

def handledFds (p : Pipes) : List Nat :=
  ([p.stdinR, p.stdinW, p.stdoutR, p.stdoutW, p.stderrR, p.stderrW].filterMap id).map Fd.raw

/-- One entry of `/proc/self/fd`. A close that cannot be recorded is passed over. -/
def listRound (dirFd : Nat) (handled : List Nat) (actions : List FileAction) :
    Prog (List FileAction ⊕ List FileAction) := do
  match ← ask (.readdir dirFd) with
  | none => return .inr actions
  | some entry =>
    match entry.fd with
    | none => return .inl actions
    | some fd =>
      if 2 < fd ∧ fd ≠ dirFd ∧ fd ∉ handled then
        match ← ask (.fileActionsAddClose fd) with
        | .ok () => return .inl (actions ++ [.close fd])
        | .error _ => return .inl actions
      else return .inl actions

/-- Close every other descriptor that is open now. Nothing is recorded when the directory cannot
    be read. -/
def closeListed (handled : List Nat) (actions : List FileAction) : Prog (List FileAction) := do
  match ← ask .openProcSelfFd with
  | .error _ => return actions
  | .ok dirFd =>
    if ← ask (.fdopendir dirFd) then
      let actions ← iterate (listRound dirFd handled) actions
      let _ ← ask (.closedir dirFd)
      return actions
    else
      let _ ← ask (.close dirFd)
      return actions

def setLeader (attr : SpawnAttr) : Option Int → Prog (Except SysError (SpawnAttr × Nat))
  | some pg => do
    match posixRet (← ask (.spawnattrSetpgroup pg)) "setpgroup" with
    | .error e => return .error e
    | .ok () => return .ok ({ attr with pgroup := pg }, 0 ||| POSIX_SPAWN_SETPGROUP)
  | none => return .ok (attr, 0)

def buildAttr (pgroup : ProcessGroup) : Prog (Except SysError SpawnAttr) := do
  match posixRet (← ask .spawnattrInit) "attr_init" with
  | .error e => return .error e
  | .ok () =>
    match ← setLeader { flags := 0, pgroup := 0, sigmask := [], sigdefault := [] } pgroup.leader with
    | .error e => return .error e
    | .ok (attr, flags) =>
      let flags := flags ||| (POSIX_SPAWN_SETSIGMASK ||| POSIX_SPAWN_SETSIGDEF)
      match posixRet (← ask (.spawnattrSetflags flags)) "setflags" with
      | .error e => return .error e
      | .ok () =>
        let emptyMask := SignalRuntime.emptySet
        let default := SignalRuntime.setWith [SIGPIPE]
        match posixRet (← ask (.spawnattrSetsigmask emptyMask)) "setsigmask" with
        | .error e => return .error e
        | .ok () =>
          match posixRet (← ask (.spawnattrSetsigdefault default)) "setsigdefault" with
          | .error e => return .error e
          | .ok () => return .ok { attr with flags, sigmask := emptyMask, sigdefault := default }

end SpawnPosix

open SpawnPosix in
/-- The guards that free the memory of the two libc objects are left out: they touch no descriptor. -/
def spawnPosixInternal (opts : SpawnOptions) : Prog (Except SysError (Int × DrainState)) := do
  match ← Pipes.new opts.stdin opts.captureStdout opts.captureStderr with
  | .error e => return .error e
  | .ok pipes =>
    let exePtr := opts.ctx.exePtr
    let argv := opts.ctx.getArgvPtrs
    let envp := opts.ctx.getEnvpPtrs
    pipes.orClose (posixRet (← ask .fileActionsInit) "file_actions_init") fun () => do
    pipes.orClose (← record (pipeActions pipes) []) fun actions => do
    let actions ← closeListed (handledFds pipes) actions
    pipes.orClose (← buildAttr opts.pgroup) fun attr => do
    pipes.orClose (posixRet (← ask (.posixSpawn exePtr actions attr argv envp)) "posix_spawn") fun pid =>
    drainPipes pipes opts pid

end CoreShift
