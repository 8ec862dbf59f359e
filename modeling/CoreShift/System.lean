import CoreShift.Interaction.Replay

namespace CoreShift

open Interaction

abbrev Bytes := List UInt8
abbrev Errno := Int

def EPERM : Errno := 1
def ESRCH : Errno := 3
def EINTR : Errno := 4
def ECHILD : Errno := 10
def EAGAIN : Errno := 11
def EWOULDBLOCK : Errno := 11
def EINVAL : Errno := 22
def EPIPE : Errno := 32

def SIGINT : Int := 2
def SIGKILL : Int := 9
def SIGPIPE : Int := 13
def SIGTERM : Int := 15
def SIGCHLD : Int := 17

def O_NONBLOCK : Nat := 0o4000
def O_CLOEXEC : Nat := 0o2000000

def SIG_BLOCK : Nat := 0
def SIG_SETMASK : Nat := 2

def IN_NONBLOCK : Nat := 0o4000
def IN_CLOEXEC : Nat := 0o2000000

def SFD_NONBLOCK : Nat := 0o4000
def SFD_CLOEXEC : Nat := 0o2000000

/-- Bytes without a NUL, as `CString` owns them; the terminator is not part of the value. -/
abbrev CString := { bytes : Bytes // (0 : UInt8) ∉ bytes }

/-- A `*mut c_char` of the argument arrays: null, or the storage of one `CString`. -/
abbrev CStrPtr := Option CString

structure EpollEvent where
  events : UInt32
  data : UInt64
  deriving DecidableEq, Repr

/-- An entry of `/proc/self/fd`: the descriptor its name reads as, when it reads as one. -/
structure DirEntry where
  fd : Option Nat
  deriving DecidableEq, Repr

/-- What `posix_spawn_file_actions_t` records, in the order of recording. -/
inductive FileAction where
  | dup2 (fd newfd : Nat)
  | close (fd : Nat)
  deriving DecidableEq, Repr

/-- What `posix_spawnattr_t` records. -/
structure SpawnAttr where
  flags : Nat
  pgroup : Int
  sigmask : List Int
  sigdefault : List Int
  deriving DecidableEq, Repr

/-- Everything that the crate asks of the world outside it: system calls and libc objects, the
    clock, the capacity a growing `Vec` gets, and the client's early-exit callback. -/
inductive Call where
  | read (fd count : Nat)
  | write (fd : Nat) (bytes : Bytes)
  | close (fd : Nat)
  | fcntlGetFl (fd : Nat)
  | fcntlSetFl (fd flags : Nat)
  | pipe2 (flags : Nat)
  | dup2 (fd newfd : Nat)
  | closeRange (first last flags : Nat)
  | openProcSelfFd
  | fdopendir (fd : Nat)
  | readdir (fd : Nat)
  | closedir (fd : Nat)
  | epollCreate1
  | epollCtlAdd (epfd fd : Nat) (events : UInt32) (data : UInt64)
  | epollCtlDel (epfd fd : Nat)
  | epollWait (epfd : Nat) (maxEvents timeout : Int)
  | inotifyInit1 (flags : Nat)
  | signalfd (fd : Int) (set : List Int) (flags : Nat)
  | fork
  | execve (path : CString) (argv : List CStrPtr) (envp : Option (List CStrPtr))
  | exit (status : Int)
  | waitpidNoHang (pid : Int)
  | waitpid (pid : Int)
  | kill (pid sig : Int)
  | setsid
  | setpgid (pid pgid : Int)
  | chdir (path : CString)
  | sigprocmask (how : Nat) (set : List Int)
  | signalDefault (sig : Int)
  | fileActionsInit
  | fileActionsAddDup2 (fd newfd : Nat)
  | fileActionsAddClose (fd : Nat)
  | spawnattrInit
  | spawnattrSetpgroup (pgroup : Int)
  | spawnattrSetflags (flags : Nat)
  | spawnattrSetsigmask (set : List Int)
  | spawnattrSetsigdefault (set : List Int)
  | posixSpawn (path : CString) (actions : List FileAction) (attr : SpawnAttr)
      (argv : List CStrPtr) (envp : Option (List CStrPtr))
  | instantNow
  | reserve (len capacity additional : Nat)
  | earlyExit (slice : Bytes)
  deriving DecidableEq

/-- The answers, with what the documentation of each call fixes in their types: a read returns at
    most the requested count, a write accepts at most what it was given, only a non-blocking
    `waitpid` returns without a status, `execve` returns only to report an error, and `reserve`
    leaves room for what was asked. The libc functions that return their error code are answered
    like those that set `errno`. -/
@[reducible] def Call.Answer : Call → Type
  | .read _ count => Except Errno { data : Bytes // data.length ≤ count }
  | .write _ bytes => Except Errno { n : Nat // n ≤ bytes.length }
  | .fcntlGetFl _ => Except Errno Nat
  | .pipe2 _ => Except Errno (Nat × Nat)
  | .openProcSelfFd | .epollCreate1 | .inotifyInit1 _ | .signalfd _ _ _ => Except Errno Nat
  | .fdopendir _ => Bool
  | .readdir _ => Option DirEntry
  | .epollWait _ maxEvents _ => Except Errno { events : List EpollEvent // events.length ≤ maxEvents.toNat }
  | .fork | .posixSpawn .. => Except Errno Int
  | .execve .. => Errno
  | .exit _ => Empty
  | .waitpidNoHang _ => Except Errno (Option UInt32)
  | .waitpid _ => Except Errno UInt32
  | .instantNow => Nat
  | .reserve len _ additional => { capacity : Nat // len + additional ≤ capacity }
  | .earlyExit _ => Bool
  | _ => Except Errno Unit

abbrev os : Interface := ⟨Call, Call.Answer⟩
abbrev Prog := Program os
abbrev Trace := List (Event os)

abbrev ask (c : Call) : Prog c.Answer := Program.ask (I := os) c

abbrev retry (c : Call) (again : c.Answer → Bool) : Prog c.Answer := Program.retry (I := os) c again

abbrev iterate {β γ : Type} (body : β → Prog (β ⊕ γ)) (start : β) : Prog γ :=
  Program.iterate body start

def interrupted {α : Type} : Except Errno α → Bool
  | .error e => e = EINTR
  | .ok _ => false

theorem eq_of_interrupted {α : Type} (answer : Except Errno α) (again : interrupted answer = true) :
    answer = .error EINTR := by
  cases answer with
  | error e => simpa [interrupted] using again
  | ok value => cases again

inductive SysError where
  | syscall (code : Int) (op : String)
  deriving DecidableEq, Repr

def SysError.sys (code : Int) (op : String) : SysError := .syscall code op

def SysError.code : SysError → Int
  | .syscall code _ => code

@[simp] theorem SysError.code_sys (code : Int) (op : String) : (SysError.sys code op).code = code := rfl

def syscallRet {α : Type} (ret : Except Errno α) (op : String) : Except SysError α :=
  ret.mapError (SysError.sys · op)

def posixRet {α : Type} (ret : Except Errno α) (op : String) : Except SysError α :=
  ret.mapError (SysError.sys · op)

end CoreShift
