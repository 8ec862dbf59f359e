import CoreShift.System

namespace CoreShift

open Interaction

/-- An owned descriptor. A negative number cannot be wrapped, as `Fd::new` refuses it. -/
structure Fd where
  raw : Nat
  deriving DecidableEq, Repr

namespace Fd

/-- What `read_raw` and `write_raw` make of the last answer of their call: `EAGAIN` is no error. -/
def rawResult {α β : Type} (op : String) (value : α → β) : Except Errno α → Except SysError (Option β)
  | .error e => if e = EAGAIN ∨ e = EWOULDBLOCK then .ok none else .error (.sys e op)
  | .ok answer => .ok (some (value answer))

def readRaw (fd : Fd) (count : Nat) : Prog (Except SysError (Option Bytes)) := do
  let n ← retry (.read fd.raw count) interrupted
  return rawResult "read" Subtype.val n

def writeRaw (fd : Fd) (bytes : Bytes) : Prog (Except SysError (Option Nat)) := do
  let n ← retry (.write fd.raw bytes) interrupted
  return rawResult "write" Subtype.val n

inductive RawIo {α β : Type} (c : Call) (event : Except Errno α → Event os) (op : String) (value : α → β) :
    Trace → Outcome os (Except SysError (Option β)) → Prop where
  | waiting (k : Nat) : RawIo c event op value (List.replicate k (event (.error EINTR))) (.waiting c)
  | moved (k : Nat) (answer : α) :
      RawIo c event op value (List.replicate k (event (.error EINTR)) ++ [event (.ok answer)])
        (.done (.ok (some (value answer))))
  | blocked (k : Nat) :
      RawIo c event op value (List.replicate k (event (.error EINTR)) ++ [event (.error EAGAIN)])
        (.done (.ok none))
  | failed (k : Nat) (e : Errno) (notInterrupted : e ≠ EINTR) (notBlocked : e ≠ EAGAIN) :
      RawIo c event op value (List.replicate k (event (.error EINTR)) ++ [event (.error e)])
        (.done (.error (.sys e op)))

theorem RawIo.of_answer {α β : Type} {c : Call} {event : Except Errno α → Event os} {op : String}
    {value : α → β} (k : Nat) (answer : Except Errno α) (stops : interrupted answer = false) :
    RawIo c event op value (List.replicate k (event (.error EINTR)) ++ [event answer])
      (.done (rawResult op value answer)) := by
  cases answer with
  | ok answer => exact .moved k answer
  | error e =>
    have notInterrupted : e ≠ EINTR := by simpa [interrupted] using stops
    by_cases blocked : e = EAGAIN
    · subst blocked
      exact .blocked k
    · have other : ¬(e = EAGAIN ∨ e = EWOULDBLOCK) := fun h => blocked (h.elim id id)
      simpa only [rawResult, other, ↓reduceIte] using RawIo.failed k e notInterrupted blocked

def readSlice (fd : Fd) (count : Nat) : Prog (Except SysError (Option Bytes)) := fd.readRaw count

def writeSlice (fd : Fd) (bytes : Bytes) : Prog (Except SysError (Option Nat)) := fd.writeRaw bytes

theorem exec_readSlice {fd : Fd} {count : Nat} {t o} (run : Exec (fd.readSlice count) t o) :
    RawIo (.read fd.raw count) (⟨.read fd.raw count, ·⟩) "read" Subtype.val t o := by
  obtain ⟨k, ⟨rfl, rfl⟩ | ⟨answer, stops, rfl, rfl⟩⟩ := exec_retry_map eq_of_interrupted run
  · exact .waiting k
  · exact .of_answer k answer stops

theorem exec_writeSlice {fd : Fd} {bytes : Bytes} {t o} (run : Exec (fd.writeSlice bytes) t o) :
    RawIo (.write fd.raw bytes) (⟨.write fd.raw bytes, ·⟩) "write" Subtype.val t o := by
  obtain ⟨k, ⟨rfl, rfl⟩ | ⟨answer, stops, rfl, rfl⟩⟩ := exec_retry_map eq_of_interrupted run
  · exact .waiting k
  · exact .of_answer k answer stops

def setNonblock (fd : Fd) : Prog (Except SysError Unit) := do
  match syscallRet (← ask (.fcntlGetFl fd.raw)) "fcntl(F_GETFL)" with
  | .error e => return .error e
  | .ok flags => return syscallRet (← ask (.fcntlSetFl fd.raw (flags ||| O_NONBLOCK))) "fcntl(F_SETFL)"

def drop (fd : Fd) : Prog Unit := do
  let _ ← ask (.close fd.raw)
  return ()

end Fd

def dropFd : Option Fd → Prog Unit
  | none => return ()
  | some fd => fd.drop

def EPOLLIN : UInt32 := 0x001
def EPOLLOUT : UInt32 := 0x004
def EPOLLERR : UInt32 := 0x008
def EPOLLHUP : UInt32 := 0x010
def EPOLLET : UInt32 := 0x80000000

structure Token where
  val : UInt64
  deriving DecidableEq, Repr

/-- A `Vec` with the capacity that its allocations left it. -/
structure RoomyVec (α : Type) where
  items : List α
  capacity : Nat
  deriving DecidableEq, Repr

/-- `if v.capacity() < max { v.reserve(max.saturating_sub(v.len())) }`. -/
def RoomyVec.reserveFor {α : Type} (v : RoomyVec α) (max : Nat) : Prog (RoomyVec α) := do
  if v.capacity < max then
    let capacity ← ask (.reserve v.items.length v.capacity (max - v.items.length))
    return { v with capacity := capacity.val }
  else return v

structure Reactor where
  epfd : Nat
  nextToken : UInt64
  eventsBuf : RoomyVec EpollEvent
  signalfd : Option Fd
  sigchldToken : Option Token
  inotifyToken : Option Token
  deriving DecidableEq, Repr

namespace Reactor

structure Event where
  token : Token
  readable : Bool
  writable : Bool
  error : Bool
  deriving DecidableEq, Repr

def new : Prog (Except SysError Reactor) := do
  match syscallRet (← ask .epollCreate1) "epoll_create1" with
  | .error e => return .error e
  | .ok epfd =>
    let capacity ← ask (.reserve 0 0 64)
    return .ok {
      epfd
      nextToken := 1
      eventsBuf := ⟨[], capacity.val⟩
      signalfd := none
      sigchldToken := none
      inotifyToken := none }

def addWithToken (r : Reactor) (rawFd : Nat) (token : Token) (readable writable : Bool) :
    Prog (Except SysError Unit) := do
  let events := EPOLLET
  let events := if readable then events ||| EPOLLIN else events
  let events := if writable then events ||| EPOLLOUT else events
  return syscallRet (← ask (.epollCtlAdd r.epfd rawFd events token.val)) "epoll_ctl_add"

/-- The counter advances whether or not the registration succeeds. -/
def add (r : Reactor) (fd : Fd) (readable writable : Bool) : Prog (Reactor × Except SysError Token) := do
  let token : Token := ⟨r.nextToken⟩
  let r := { r with nextToken := r.nextToken + 1 }
  match ← r.addWithToken fd.raw token readable writable with
  | .error e => return (r, .error e)
  | .ok () => return (r, .ok token)

def interestIn (readable writable : Bool) : UInt32 :=
  if writable then (if readable then EPOLLET ||| EPOLLIN else EPOLLET) ||| EPOLLOUT
  else if readable then EPOLLET ||| EPOLLIN else EPOLLET

def advanced (r : Reactor) : Reactor := { r with nextToken := r.nextToken + 1 }

theorem exec_add {r r' : Reactor} {fd : Fd} {readable writable : Bool} {t : Trace} {result : Except SysError Token}
    (run : Exec (r.add fd readable writable) t (.done (r', result))) :
    r' = r.advanced ∧ ∃ answer : Except Errno Unit,
      t = [⟨.epollCtlAdd r.epfd fd.raw (interestIn readable writable) r.nextToken, answer⟩] ∧
      result = (syscallRet answer "epoll_ctl_add").map fun _ => ⟨r.nextToken⟩ := by
  obtain ⟨asked, answer, returned, rfl, added, rest⟩ := exec_bind_done.mp run
  obtain ⟨asked', given, returned', rfl, exchange, rest'⟩ := exec_bind_done.mp added
  rw [exec_ask_done] at exchange
  obtain ⟨rfl, same⟩ := (exec_pure_iff _ _ _).mp rest'
  cases same
  subst exchange
  cases given with
  | error e =>
    obtain ⟨rfl, same⟩ := (exec_pure_iff _ _ _).mp rest
    cases same
    exact ⟨rfl, .error e, rfl, rfl⟩
  | ok u =>
    obtain ⟨rfl, same⟩ := (exec_pure_iff _ _ _).mp rest
    cases same
    exact ⟨rfl, .ok u, rfl, rfl⟩

/-- A failed registration drops the descriptor. -/
def setupInotify (r : Reactor) : Prog (Reactor × Except SysError Fd) := do
  match syscallRet (← ask (.inotifyInit1 (IN_CLOEXEC ||| IN_NONBLOCK))) "inotify_init1" with
  | .error e => return (r, .error e)
  | .ok fd =>
    let fdObj : Fd := ⟨fd⟩
    let (r, added) ← r.add fdObj true false
    match added with
    | .error e =>
      fdObj.drop
      return (r, .error e)
    | .ok token => return ({ r with inotifyToken := some token }, .ok fdObj)

/-- The assignment of the new `signalfd` drops the one before it. -/
def setupSignalfd (r : Reactor) : Prog (Reactor × Except SysError Unit) := do
  let mask := [SIGCHLD]
  match syscallRet (← ask (.sigprocmask SIG_BLOCK mask)) "sigprocmask" with
  | .error e => return (r, .error e)
  | .ok () =>
    match syscallRet (← ask (.signalfd (-1) mask (SFD_NONBLOCK ||| SFD_CLOEXEC))) "signalfd" with
    | .error e => return (r, .error e)
    | .ok sfd =>
      let fd : Fd := ⟨sfd⟩
      let (r, added) ← r.add fd true false
      match added with
      | .error e =>
        fd.drop
        return (r, .error e)
      | .ok token =>
        dropFd r.signalfd
        return ({ r with signalfd := some fd, sigchldToken := some token }, .ok ())

def delRaw (r : Reactor) (raw : Nat) : Prog Unit := do
  let _ ← ask (.epollCtlDel r.epfd raw)
  return ()

def del (r : Reactor) (fd : Fd) : Prog Unit := r.delRaw fd.raw

/-- `max_events as i32`. -/
def asI32 (n : Nat) : Int := (BitVec.ofNat 32 n).toInt

def translate (ev : EpollEvent) : Event :=
  let isRead := ev.events &&& EPOLLIN != 0
  let isWrite := ev.events &&& EPOLLOUT != 0
  let isErr := ev.events &&& (EPOLLERR ||| EPOLLHUP) != 0
  { token := ⟨ev.data⟩
    readable := isRead || isErr
    writable := isWrite || isErr
    error := isErr }

def wait (r : Reactor) (buffer : RoomyVec Event) (maxEvents : Nat) (timeout : Int) :
    Prog (Reactor × RoomyVec Event × Except SysError Nat) := do
  let buffer := { buffer with items := [] }
  if maxEvents = 0 then return (r, buffer, .ok 0)
  else
    let buffer ← buffer.reserveFor maxEvents
    let eventsBuf ← r.eventsBuf.reserveFor maxEvents
    match ← ask (.epollWait r.epfd (asI32 maxEvents) timeout) with
    | .ok ready =>
      if 0 < ready.val.length then
        -- `set_len(n)` makes the entries that the kernel stored the contents of the vector
        let r := { r with eventsBuf := { eventsBuf with items := ready.val } }
        let buffer := { buffer with items := buffer.items ++ ready.val.map translate }
        return (r, buffer, .ok ready.val.length)
      else return ({ r with eventsBuf }, buffer, .ok 0)
    | .error e =>
      if e = EINTR then return ({ r with eventsBuf }, buffer, .ok 0)
      else return ({ r with eventsBuf }, buffer, .error (.sys e "epoll_wait"))

/-- `Drop` closes the epoll descriptor; the fields are dropped after it. -/
def drop (r : Reactor) : Prog Unit := do
  let _ ← ask (.close r.epfd)
  dropFd r.signalfd

end Reactor

end CoreShift
