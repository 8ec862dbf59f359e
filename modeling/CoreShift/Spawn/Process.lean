import CoreShift.System

namespace CoreShift

open Interaction

inductive ExitStatus where
  | exited (code : Int)
  | signaled (sig : Int)
  deriving DecidableEq, Repr

def WIFEXITED (status : UInt32) : Bool := status &&& 0x7f == 0
def WEXITSTATUS (status : UInt32) : Int := ((status >>> 8) &&& 0xff).toNat
def WIFSIGNALED (status : UInt32) : Bool := status &&& 0x7f != 0 && status &&& 0x7f != 0x7f
def WTERMSIG (status : UInt32) : Int := (status &&& 0x7f).toNat

def decodeStatus (status : UInt32) : ExitStatus :=
  if WIFEXITED status then .exited (WEXITSTATUS status)
  else if WIFSIGNALED status then .signaled (WTERMSIG status)
  else .exited (-1)

structure Process where
  pid : Int
  deriving DecidableEq, Repr

namespace Process

def waitStep (p : Process) : Prog (Except SysError (Option ExitStatus)) := do
  let r ← retry (.waitpidNoHang p.pid) interrupted
  return match r with
    | .error e => .error (.sys e "waitpid_step")
    | .ok none => .ok none
    | .ok (some status) => .ok (some (decodeStatus status))

def waitBlocking (p : Process) : Prog (Except SysError ExitStatus) := do
  let r ← retry (.waitpid p.pid) interrupted
  return match r with
    | .error e => .error (.sys e "waitpid_blocking")
    | .ok status => .ok (decodeStatus status)

/-- A target that does not exist is no error. -/
def signalTo (target : Int) (op : String) (sig : Int) : Prog (Except SysError Unit) := do
  match ← ask (.kill target sig) with
  | .error e => return if e = ESRCH then .ok () else .error (.sys e op)
  | .ok () => return .ok ()

def kill (p : Process) (sig : Int) : Prog (Except SysError Unit) := signalTo p.pid "kill" sig

def killPgroup (p : Process) (sig : Int) : Prog (Except SysError Unit) := signalTo (-p.pid) "kill_pgroup" sig

inductive Stepped (pid : Int) : Trace → Outcome os (Except SysError (Option ExitStatus)) → Prop where
  | waiting (k : Nat) :
      Stepped pid (List.replicate k ⟨.waitpidNoHang pid, .error EINTR⟩) (.waiting (.waitpidNoHang pid))
  | running (k : Nat) :
      Stepped pid (List.replicate k ⟨.waitpidNoHang pid, .error EINTR⟩ ++ [⟨.waitpidNoHang pid, .ok none⟩])
        (.done (.ok none))
  | reaped (k : Nat) (status : UInt32) :
      Stepped pid
        (List.replicate k ⟨.waitpidNoHang pid, .error EINTR⟩ ++ [⟨.waitpidNoHang pid, .ok (some status)⟩])
        (.done (.ok (some (decodeStatus status))))
  | failed (k : Nat) (e : Errno) (notInterrupted : e ≠ EINTR) :
      Stepped pid (List.replicate k ⟨.waitpidNoHang pid, .error EINTR⟩ ++ [⟨.waitpidNoHang pid, .error e⟩])
        (.done (.error (.sys e "waitpid_step")))

theorem exec_waitStep {p : Process} {t o} (run : Exec p.waitStep t o) : Stepped p.pid t o := by
  obtain ⟨k, ⟨rfl, rfl⟩ | ⟨answer, stops, rfl, rfl⟩⟩ := exec_retry_map eq_of_interrupted run
  · exact .waiting k
  · rcases answer with e | _ | status
    · have notInterrupted : e ≠ EINTR := by simpa [interrupted] using stops
      exact .failed k e notInterrupted
    · exact .running k
    · exact .reaped k status

theorem Stepped.calls {pid : Int} {t : Trace} {o} (step : Stepped pid t o) :
    ∀ e ∈ t, e.call = .waitpidNoHang pid := by
  have interrupted : ∀ k, ∀ e ∈ List.replicate k (⟨.waitpidNoHang pid, .error EINTR⟩ : Event os),
      e.call = .waitpidNoHang pid := by
    intro k e member
    rw [List.eq_of_mem_replicate member]
  cases step with
  | waiting k => exact interrupted k
  | running k | reaped k | failed k =>
    intro e member
    rcases List.mem_append.mp member with member | member
    · exact interrupted k e member
    · rw [List.mem_singleton.mp member]

inductive Blocked (pid : Int) : Trace → Outcome os (Except SysError ExitStatus) → Prop where
  | waiting (k : Nat) : Blocked pid (List.replicate k ⟨.waitpid pid, .error EINTR⟩) (.waiting (.waitpid pid))
  | reaped (k : Nat) (status : UInt32) :
      Blocked pid (List.replicate k ⟨.waitpid pid, .error EINTR⟩ ++ [⟨.waitpid pid, .ok status⟩])
        (.done (.ok (decodeStatus status)))
  | failed (k : Nat) (e : Errno) (notInterrupted : e ≠ EINTR) :
      Blocked pid (List.replicate k ⟨.waitpid pid, .error EINTR⟩ ++ [⟨.waitpid pid, .error e⟩])
        (.done (.error (.sys e "waitpid_blocking")))

theorem exec_waitBlocking {p : Process} {t o} (run : Exec p.waitBlocking t o) : Blocked p.pid t o := by
  obtain ⟨k, ⟨rfl, rfl⟩ | ⟨answer, stops, rfl, rfl⟩⟩ := exec_retry_map eq_of_interrupted run
  · exact .waiting k
  · cases answer with
    | error e =>
      have notInterrupted : e ≠ EINTR := by simpa [interrupted] using stops
      exact .failed k e notInterrupted
    | ok status => exact .reaped k status

inductive Signaled (target sig : Int) : Trace → Outcome os (Except SysError Unit) → Prop where
  | waiting : Signaled target sig [] (.waiting (.kill target sig))
  | delivered (answer : Except Errno Unit) (gone : ∀ e, answer = .error e → e = ESRCH) :
      Signaled target sig [⟨.kill target sig, answer⟩] (.done (.ok ()))
  | refused (e : Errno) (other : e ≠ ESRCH) (op : String) :
      Signaled target sig [⟨.kill target sig, .error e⟩] (.done (.error (.sys e op)))

theorem exec_signalTo {target sig : Int} {op : String} {t o} (run : Exec (signalTo target op sig) t o) :
    Signaled target sig t o := by
  rcases exec_bind_cases run with ⟨c, rfl, stopped⟩ | ⟨first, answer, second, rfl, asked, rest⟩
  · obtain ⟨rfl, rfl⟩ := (exec_ask_waiting _ _ _).mp stopped
    exact .waiting
  · rw [exec_ask_done] at asked
    subst asked
    rcases answer with e | ⟨⟩ <;> obtain ⟨rfl, rfl⟩ := (exec_pure_iff _ _ _).mp rest
    · by_cases gone : e = ESRCH
      · rw [if_pos gone]
        exact .delivered _ (fun _ same => by cases same; exact gone)
      · rw [if_neg gone]
        exact .refused e gone op
    · exact .delivered _ (fun _ same => by cases same)

end Process

end CoreShift
