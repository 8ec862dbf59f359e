import CoreShift.Io.Writer

namespace CoreShift

open Interaction

structure FdSlot where
  token : Option Token
  fd : Fd
  deriving DecidableEq, Repr

def dropSlot : Option FdSlot → Prog Unit
  | none => return ()
  | some slot => slot.fd.drop

/-- The callback is client code: the state says whether there is one, and `Call.earlyExit` asks it. -/
structure DrainState where
  stdoutSlot : Option FdSlot
  stderrSlot : Option FdSlot
  stdinSlot : Option FdSlot
  buffer : BufferState
  writer : WriterState
  earlyExit : Bool
  deriving DecidableEq, Repr

namespace DrainState

def adopt : Option Fd → Prog (Except SysError (Option FdSlot))
  | none => return .ok none
  | some fd => do
    match ← fd.setNonblock with
    | .error e => return .error e
    | .ok () => return .ok (some { token := none, fd })

/-- A failure drops the slots that were filled, and then the descriptors that were not moved. -/
def new (stdinFd : Option Fd) (stdinBuf : Option Bytes) (stdoutFd stderrFd : Option Fd) (limit : Nat)
    (earlyExit : Bool) : Prog (Except SysError DrainState) := do
  let taken := if stdinBuf.isSome then stdinFd else none
  let left := if stdinBuf.isSome then none else stdinFd
  match ← adopt taken with
  | .error e =>
    dropFd stderrFd
    dropFd stdoutFd
    dropFd stdinFd
    return .error e
  | .ok stdinSlot =>
    match ← adopt stdoutFd with
    | .error e =>
      dropSlot stdinSlot
      dropFd stderrFd
      dropFd stdoutFd
      dropFd left
      return .error e
    | .ok stdoutSlot =>
      match ← adopt stderrFd with
      | .error e =>
        dropSlot stdoutSlot
        dropSlot stdinSlot
        dropFd stderrFd
        dropFd left
        return .error e
      | .ok stderrSlot =>
        dropFd left
        return .ok {
          stdinSlot
          stdoutSlot
          stderrSlot
          buffer := .new limit
          writer := .new stdinBuf
          earlyExit }

def isDone (d : DrainState) : Bool :=
  d.stdinSlot.isNone && d.stdoutSlot.isNone && d.stderrSlot.isNone

def outSlot (d : DrainState) (isStdout : Bool) : Option FdSlot :=
  if isStdout then d.stdoutSlot else d.stderrSlot

def clearOut (d : DrainState) (isStdout : Bool) : DrainState :=
  if isStdout then { d with stdoutSlot := none } else { d with stderrSlot := none }

def writeStdin (d : DrainState) : Prog (DrainState × Except SysError Bool) :=
  match d.stdinSlot with
  | none => return (d, .ok true)
  | some slot => do
    let (writer, result) ← d.writer.writeToFd slot.fd
    let d := { d with writer }
    match result with
    | .error e => return (d, .error e)
    | .ok done =>
      if done then
        slot.fd.drop
        return ({ d with stdinSlot := none }, .ok true)
      else return (d, .ok false)

def readFd (d : DrainState) (isStdout : Bool) : Prog (DrainState × Except SysError Bool) :=
  match d.outSlot isStdout with
  | none => return (d, .ok true)
  | some slot => do
    let (buffer, result) ← d.buffer.readFromFd slot.fd isStdout d.earlyExit
    let d := { d with buffer }
    match result with
    | .error e => return (d, .error e)
    | .ok eof =>
      if eof then
        slot.fd.drop
        return (d.clearOut isStdout, .ok true)
      else return (d, .ok false)

def takeAllSlots (d : DrainState) : DrainState × List FdSlot :=
  ({ d with stdinSlot := none, stdoutSlot := none, stderrSlot := none },
    d.stdinSlot.toList ++ d.stdoutSlot.toList ++ d.stderrSlot.toList)

/-- A slot is taken out while it is registered, so that a failed registration drops it. -/
def registerSlot (reactor : Reactor) (readable writable : Bool) :
    Option FdSlot → Prog (Reactor × Option FdSlot × Except SysError Unit)
  | none => return (reactor, none, .ok ())
  | some slot => do
    let (reactor, result) ← reactor.add slot.fd readable writable
    match result with
    | .error e =>
      slot.fd.drop
      return (reactor, none, .error e)
    | .ok token => return (reactor, some { slot with token := some token }, .ok ())

def registerWithReactor (d : DrainState) (reactor : Reactor) :
    Prog (DrainState × Reactor × Except SysError Unit) := do
  let (reactor, stdinSlot, result) ← registerSlot reactor false true d.stdinSlot
  let d := { d with stdinSlot }
  match result with
  | .error e => return (d, reactor, .error e)
  | .ok () =>
    let (reactor, stdoutSlot, result) ← registerSlot reactor true false d.stdoutSlot
    let d := { d with stdoutSlot }
    match result with
    | .error e => return (d, reactor, .error e)
    | .ok () =>
      let (reactor, stderrSlot, result) ← registerSlot reactor true false d.stderrSlot
      return ({ d with stderrSlot }, reactor, result)

def slotMatches (slot : Option FdSlot) (token : Token) : Bool :=
  slot.any fun slot => slot.token = some token

def stdoutMatches (d : DrainState) (token : Token) : Bool := slotMatches d.stdoutSlot token
def stderrMatches (d : DrainState) (token : Token) : Bool := slotMatches d.stderrSlot token
def stdinMatches (d : DrainState) (token : Token) : Bool := slotMatches d.stdinSlot token

def release (reactor : Reactor) (slot : FdSlot) : Prog Unit := do
  reactor.del slot.fd
  slot.fd.drop

def dropOut (d : DrainState) (isStdout : Bool) (reactor : Reactor) : Prog DrainState :=
  match d.outSlot isStdout with
  | none => return d
  | some slot => do
    release reactor slot
    return d.clearOut isStdout

def dropStdout (d : DrainState) (reactor : Reactor) : Prog DrainState := d.dropOut true reactor
def dropStderr (d : DrainState) (reactor : Reactor) : Prog DrainState := d.dropOut false reactor

def dropStdin (d : DrainState) (reactor : Reactor) : Prog DrainState :=
  match d.stdinSlot with
  | none => return { d with writer := { d.writer with buf := none } }
  | some slot => do
    release reactor slot
    return { d with stdinSlot := none, writer := { d.writer with buf := none } }

def handleOutReady (d : DrainState) (isStdout : Bool) (reactor : Reactor) :
    Prog (DrainState × Except SysError Unit) :=
  match d.outSlot isStdout with
  | none => return (d, .ok ())
  | some slot => do
    let (buffer, result) ← d.buffer.readFromFd slot.fd isStdout d.earlyExit
    let d := { d with buffer }
    match result with
    | .error e => return (d, .error e)
    | .ok eof =>
      if eof then
        let d ← d.dropOut isStdout reactor
        return (d, .ok ())
      else return (d, .ok ())

def handleStdoutReady (d : DrainState) (reactor : Reactor) : Prog (DrainState × Except SysError Unit) :=
  d.handleOutReady true reactor

def handleStderrReady (d : DrainState) (reactor : Reactor) : Prog (DrainState × Except SysError Unit) :=
  d.handleOutReady false reactor

def handleStdinWritable (d : DrainState) (reactor : Reactor) : Prog (DrainState × Except SysError Unit) :=
  match d.stdinSlot with
  | none => return (d, .ok ())
  | some slot => do
    let (writer, result) ← d.writer.writeToFd slot.fd
    let d := { d with writer }
    match result with
    | .error e => return (d, .error e)
    | .ok done =>
      if done then
        let d ← d.dropStdin reactor
        return (d, .ok ())
      else return (d, .ok ())

def drop (d : DrainState) : Prog Unit := do
  dropSlot d.stdoutSlot
  dropSlot d.stderrSlot
  dropSlot d.stdinSlot

def intoParts (d : DrainState) : Prog (Bytes × Bytes) := do
  d.drop
  return d.buffer.intoParts

end DrainState

end CoreShift
