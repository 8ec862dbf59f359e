import CoreShift.Observe
import CoreShift.Spawn.Iteration

namespace CoreShift

open Interaction

def usesPid (pid : Int) : Call → Bool
  | .kill target _ => target = pid ∨ target = -pid
  | .waitpid pid' | .waitpidNoHang pid' => pid' = pid
  | _ => false

theorem statuses_of_unused {pid : Int} {t : Trace} (unused : ∀ e ∈ t, usesPid pid e.call = false) :
    statuses pid t = [] := by
  apply statuses_of_forall
  intro e member
  have idle := unused e member
  obtain ⟨call, answer⟩ := e
  cases call
  case waitpid other =>
    have different : other ≠ pid := by simpa [usesPid] using idle
    cases answer <;> simp [statusBy, different]
  case waitpidNoHang other =>
    have different : other ≠ pid := by simpa [usesPid] using idle
    rcases answer with e | _ | status <;> simp [statusBy, different]
  all_goals rfl

theorem statuses_replicate (pid : Int) (k : Nat) {e : Event os} (silent : statusBy pid e = []) :
    statuses pid (List.replicate k e) = [] :=
  statuses_of_forall fun _ member => by rw [List.eq_of_mem_replicate member, silent]

def decoded (pid : Int) (t : Trace) : List ExitStatus := (statuses pid t).map decodeStatus

@[simp] theorem decoded_append (pid : Int) (t t' : Trace) :
    decoded pid (t ++ t') = decoded pid t ++ decoded pid t' := by
  simp [decoded]

theorem decoded_of_unused {pid : Int} {t : Trace} (unused : ∀ e ∈ t, usesPid pid e.call = false) :
    decoded pid t = [] := by
  rw [decoded, statuses_of_unused unused]
  rfl

theorem decoded_eq_nil {pid : Int} {t : Trace} : decoded pid t = [] ↔ statuses pid t = [] :=
  List.map_eq_nil_iff

namespace Process

def known : Outcome os (Except SysError (Option ExitStatus)) → List ExitStatus
  | .done (.ok status) => status.toList
  | _ => []

theorem Stepped.decoded {pid : Int} {t : Trace} {o} (step : Stepped pid t o) :
    CoreShift.decoded pid t = known o := by
  have quiet := fun k => statuses_replicate pid k (e := ⟨.waitpidNoHang pid, .error EINTR⟩) rfl
  cases step <;> simp [CoreShift.decoded, quiet, statusBy, known]

theorem Blocked.decoded {pid : Int} {t : Trace} {o} (wait : Blocked pid t o) :
    CoreShift.decoded pid t = (match o with | .done (.ok status) => [status] | _ => []) := by
  have quiet := fun k => statuses_replicate pid k (e := ⟨.waitpid pid, .error EINTR⟩) rfl
  cases wait <;> simp [CoreShift.decoded, quiet, statusBy]

end Process

namespace WaitLoop

variable {cfg : WaitConfig} {startTime : Nat} {st : LoopState} {t : Trace}

theorem unused_of_poll (pid : Int) {c : Call} (poll : isPollCall c = true) : usesPid pid c = false := by
  cases c <;> first | rfl | cases poll

theorem unused_of_issues {α : Type} {p : Prog α} {o} (pid : Int) (issues : p.Issues (isPollCall · = true))
    (run : Exec p t o) :
    (∀ e ∈ t, usesPid pid e.call = false) ∧ ∀ c, o.pending = some c → usesPid pid c = false := by
  have issued := run.issues issues
  refine ⟨fun e member => unused_of_poll pid (issued.1 e member), fun c waits => ?_⟩
  cases o with
  | done value => cases waits
  | waiting c' => cases waits; exact unused_of_poll pid (issued.2 c rfl)

theorem Deadline.statuses {o} (check : Deadline cfg startTime st t o) (pid : Int) :
    CoreShift.statuses pid t = [] := by
  cases check <;> rfl

theorem Deadline.decoded {o} (check : Deadline cfg startTime st t o) (pid : Int) :
    CoreShift.decoded pid t = [] := by
  rw [decoded_eq_nil, check.statuses]

theorem Deadline.unchanged {checked : LoopState} {timeout : Int}
    (check : Deadline cfg startTime st t (.done (checked, timeout))) :
    checked.statusRaw = st.statusRaw ∧ checked.drain = st.drain ∧ checked.reactor = st.reactor := by
  cases check <;> exact ⟨rfl, rfl, rfl⟩

theorem Collected.unchanged {collected : LoopState} {result : Except SysError Unit}
    (collect : Collected cfg st t (.done (collected, result))) :
    collected.state = st.state ∧ collected.drain = st.drain ∧ collected.reactor = st.reactor := by
  cases collect <;> exact ⟨rfl, rfl, rfl⟩

theorem Collected.decoded {collected : LoopState} {result : Except SysError Unit}
    (collect : Collected cfg st t (.done (collected, result))) :
    collected.statusRaw.toList = st.statusRaw.toList ++ CoreShift.decoded cfg.pid t := by
  cases collect with
  | already _ => simp [CoreShift.decoded]
  | running _ step => simp [step.decoded, Process.known]
  | reaped missing step => simp [step.decoded, Process.known, missing]
  | failed _ step => simp [step.decoded, Process.known]

theorem poll_decoded {st' : LoopState} {timeout : Int} (pid : Int)
    (polled : Exec (poll st timeout) t (.done (.inl st'))) :
    decoded pid t = [] ∧ st'.statusRaw = st.statusRaw ∧ st'.state = st.state := by
  have quiet := decoded_of_unused (unused_of_issues pid (poll_issues _ _) polled).1
  obtain ⟨_, _, _, _, _, _, _, _, _, rfl⟩ := exec_poll_next polled
  exact ⟨quiet, rfl, rfl⟩

theorem Head.decoded {drain : DrainState} {reactor : Reactor} (head : Head cfg drain reactor startTime t st) :
    CoreShift.decoded cfg.pid t = st.statusRaw.toList := by
  induction head with
  | start step =>
    rw [decoded_append, (Process.exec_waitStep step).decoded]
    simp [Process.known, CoreShift.decoded, statusBy]
  | next _ round ih =>
    obtain ⟨t₁, t₂, t₃, checked, collected, timeout, rfl, check, collect, _, polled⟩ := (exec_body round).polled
    have after := poll_decoded cfg.pid polled
    have before := collect.decoded
    rw [check.unchanged.1] at before
    rw [decoded_append, decoded_append, decoded_append, check.decoded, after.1, after.2.1, before, ih]
    simp

end WaitLoop

end CoreShift
