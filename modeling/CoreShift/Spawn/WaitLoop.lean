import CoreShift.Spawn.Options
import CoreShift.Spawn.Process

namespace CoreShift

open Interaction

structure Output where
  pid : Int
  status : Option ExitStatus
  stdout : Bytes
  stderr : Bytes
  timedOut : Bool
  deriving DecidableEq, Repr

inductive KillState where
  | none
  | termSent
  | killSent
  deriving DecidableEq, Repr

structure WaitConfig where
  pid : Int
  timeoutMs : Option UInt32
  killGraceMs : UInt32
  cancel : CancelPolicy
  pgroup : ProcessGroup
  deriving DecidableEq, Repr

structure LoopState where
  drain : DrainState
  reactor : Reactor
  statusRaw : Option ExitStatus
  state : KillState
  timedOut : Bool
  deriving DecidableEq, Repr

/-- `Duration::from_millis`, in nanoseconds. -/
def fromMillis (ms : Nat) : Nat := ms * 1000000

/-- `Duration::as_millis`, of nanoseconds. -/
def asMillis (duration : Nat) : Nat := duration / 1000000

def I32_MAX : Nat := 2147483647

namespace WaitLoop

def targetIsGroup (cfg : WaitConfig) : Bool := cfg.pgroup.isolated || cfg.pgroup.leader.isSome

def signal (cfg : WaitConfig) (sig : Int) : Prog (Except SysError Unit) :=
  let process : Process := ⟨cfg.pid⟩
  if targetIsGroup cfg then process.killPgroup sig else process.kill sig

/-- The timeout handling at the head of an iteration: the new state, and the poll timeout. -/
def checkDeadline (cfg : WaitConfig) (startTime : Nat) (st : LoopState) : Prog (LoopState × Int) :=
  match cfg.timeoutMs with
  | none => return (st, -1)
  | some ms => do
    let dl := fromMillis ms.toNat
    let now ← ask .instantNow
    let elapsed := now - startTime
    if dl ≤ elapsed then
      let st := { st with timedOut := true }
      let elapsedOver := asMillis (elapsed - dl)
      match st.state with
      | .none =>
        if cfg.cancel = .graceful then
          match ← signal cfg SIGTERM with
          | .error _ => return ({ st with state := .killSent }, 100)
          | .ok () => return ({ st with state := .termSent }, 100)
        else if cfg.cancel = .kill then
          let _ ← signal cfg SIGKILL
          return ({ st with state := .killSent }, 100)
        else return (st, 100)
      | .termSent =>
        if cfg.killGraceMs.toNat < elapsedOver then
          let _ ← signal cfg SIGKILL
          return ({ st with state := .killSent }, 100)
        else return (st, 100)
      | .killSent => return (st, 100)
    else
      let remaining := dl - elapsed
      return (st, Reactor.asI32 (min (asMillis remaining) I32_MAX))

/-- `if status_raw.is_none() && let Some(s) = process.wait_step()?`. -/
def collectStatus (cfg : WaitConfig) (st : LoopState) : Prog (LoopState × Except SysError Unit) :=
  match st.statusRaw with
  | some _ => return (st, .ok ())
  | none => do
    match ← (Process.mk cfg.pid).waitStep with
    | .error e => return (st, .error e)
    | .ok none => return (st, .ok ())
    | .ok (some s) => return ({ st with statusRaw := some s }, .ok ())

/-- Leaving with an error drops the parameters in reverse order. -/
def abandon (st : LoopState) (e : SysError) : Prog (LoopState ⊕ Except SysError Output) := do
  st.reactor.drop
  st.drain.drop
  return .inr (.error e)

def releaseAll (reactor : Reactor) : List FdSlot → Prog Unit
  | [] => return ()
  | slot :: rest => do
    DrainState.release reactor slot
    releaseAll reactor rest

def deliver (cfg : WaitConfig) (st : LoopState) (s : ExitStatus) : Prog (LoopState ⊕ Except SysError Output) := do
  let (drain, slots) := st.drain.takeAllSlots
  releaseAll st.reactor slots
  let (stdout, stderr) ← drain.intoParts
  st.reactor.drop
  return .inr (.ok { pid := cfg.pid, status := some s, stdout, stderr, timedOut := st.timedOut })

def finish (cfg : WaitConfig) (st : LoopState) : Prog (LoopState ⊕ Except SysError Output) := do
  let s ← match st.statusRaw with
    | some s => pure (.ok s)
    | none => (Process.mk cfg.pid).waitBlocking
  match s with
  | .error e => abandon st e
  | .ok s => deliver cfg st s

/-- What the loop does with one event. A token that matches no slot is passed over. -/
def handleEvent (reactor : Reactor) (drain : DrainState) (ev : Reactor.Event) :
    Prog (DrainState × Except SysError Unit) :=
  if drain.stdoutMatches ev.token then
    if ev.readable then drain.handleStdoutReady reactor
    else if ev.error then do
      return (← drain.dropStdout reactor, .ok ())
    else return (drain, .ok ())
  else if drain.stderrMatches ev.token then
    if ev.readable then drain.handleStderrReady reactor
    else if ev.error then do
      return (← drain.dropStderr reactor, .ok ())
    else return (drain, .ok ())
  else if drain.stdinMatches ev.token then
    if ev.writable then drain.handleStdinWritable reactor
    else if ev.error then do
      return (← drain.dropStdin reactor, .ok ())
    else return (drain, .ok ())
  else return (drain, .ok ())

def dispatch (reactor : Reactor) : DrainState → List Reactor.Event → Prog (DrainState × Except SysError Unit)
  | drain, [] => return (drain, .ok ())
  | drain, ev :: rest => do
    let (drain, result) ← handleEvent reactor drain ev
    match result with
    | .error e => return (drain, .error e)
    | .ok () => dispatch reactor drain rest

def waitTimeout (statusRaw : Option ExitStatus) (pollTimeout : Int) : Int :=
  if statusRaw.isSome then
    if pollTimeout = -1 ∨ 1 < pollTimeout then 1 else pollTimeout
  else pollTimeout

def poll (st : LoopState) (pollTimeout : Int) : Prog (LoopState ⊕ Except SysError Output) := do
  let timeout := waitTimeout st.statusRaw pollTimeout
  let (reactor, events, result) ← st.reactor.wait ⟨[], 0⟩ 64 timeout
  let st := { st with reactor }
  match result with
  | .error e => abandon st e
  | .ok nevents =>
    let (drain, result) ← dispatch reactor st.drain (events.items.take nevents)
    let st := { st with drain }
    match result with
    | .error e => abandon st e
    | .ok () => return .inl st

def body (cfg : WaitConfig) (startTime : Nat) (st : LoopState) : Prog (LoopState ⊕ Except SysError Output) := do
  let (st, pollTimeout) ← checkDeadline cfg startTime st
  let (st, result) ← collectStatus cfg st
  match result with
  | .error e => abandon st e
  | .ok () => if st.drain.isDone then finish cfg st else poll st pollTimeout

end WaitLoop

open WaitLoop in
def waitLoop (cfg : WaitConfig) (drain : DrainState) (reactor : Reactor) : Prog (Except SysError Output) := do
  match ← (Process.mk cfg.pid).waitStep with
  | .error e =>
    reactor.drop
    drain.drop
    return .error e
  | .ok statusRaw =>
    let startTime ← ask .instantNow
    iterate (body cfg startTime) { drain, reactor, statusRaw, state := .none, timedOut := false }

end CoreShift
