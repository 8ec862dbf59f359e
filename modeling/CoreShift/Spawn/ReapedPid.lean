import CoreShift.Spawn.Status

namespace CoreShift

open Interaction

/-- No exchange, and no call that waits for an answer, uses a pid after its child was reaped. -/
def Untouched (pid : Int) (t : Trace) (pending : Option Call) : Prop :=
  Guarded (fun before => statuses pid before = []) (fun e => usesPid pid e.call = true) t ∧
    ∀ c, pending = some c → usesPid pid c = true → statuses pid t = []

section
variable {pid : Int} {t t' : Trace} {pending pending' : Option Call}

theorem Untouched.of_fresh (fresh : statuses pid t = []) : Untouched pid t pending := by
  refine ⟨fun before e after split _ => ?_, fun _ _ _ => fresh⟩
  rw [split, statuses_append, List.append_eq_nil_iff] at fresh
  exact fresh.1

theorem Untouched.after_fresh (fresh : statuses pid t = []) (untouched : Untouched pid t' pending) :
    Untouched pid (t ++ t') pending := by
  have before : Untouched pid t none := .of_fresh fresh
  refine ⟨guarded_append.mpr ⟨before.1, ?_⟩, ?_⟩
  · simpa only [statuses_append, fresh, List.nil_append] using untouched.1
  · simpa only [statuses_append, fresh, List.nil_append] using untouched.2

theorem Untouched.then_unused (untouched : Untouched pid t pending')
    (unused : (∀ e ∈ t', usesPid pid e.call = false) ∧ ∀ c, pending = some c → usesPid pid c = false) :
    Untouched pid (t ++ t') pending := by
  refine ⟨guarded_append.mpr ⟨untouched.1, ?_⟩, fun c waits uses => ?_⟩
  · exact guarded_of_forall fun e member => by simp [unused.1 e member]
  · simp [unused.2 c waits] at uses

theorem Untouched.of_unused
    (unused : (∀ e ∈ t, usesPid pid e.call = false) ∧ ∀ c, pending = some c → usesPid pid c = false) :
    Untouched pid t pending := by
  have start : Untouched pid [] none := .of_fresh rfl
  simpa using start.then_unused unused

end

namespace Process

variable {pid : Int} {t : Trace}

theorem Stepped.untouched {o} (step : Stepped pid t o) : Untouched pid t o.pending := by
  have quiet := fun k => statuses_replicate pid k (e := ⟨.waitpidNoHang pid, .error EINTR⟩) rfl
  have last : ∀ e, Untouched pid [e] none := fun e => ⟨by simp, by simp⟩
  cases step with
  | waiting k => exact .of_fresh (quiet k)
  | running k => exact .after_fresh (quiet k) (last _)
  | reaped k status => exact .after_fresh (quiet k) (last _)
  | failed k e notInterrupted => exact .after_fresh (quiet k) (last _)

theorem Blocked.untouched {o} (wait : Blocked pid t o) : Untouched pid t o.pending := by
  have quiet := fun k => statuses_replicate pid k (e := ⟨.waitpid pid, .error EINTR⟩) rfl
  have last : ∀ e, Untouched pid [e] none := fun e => ⟨by simp, by simp⟩
  cases wait with
  | waiting k => exact .of_fresh (quiet k)
  | reaped k status => exact .after_fresh (quiet k) (last _)
  | failed k e notInterrupted => exact .after_fresh (quiet k) (last _)

end Process

namespace WaitLoop

variable {cfg : WaitConfig} {startTime : Nat} {st : LoopState} {t : Trace}

theorem Collected.untouched {o} (collect : Collected cfg st t o) : Untouched cfg.pid t o.pending := by
  cases collect with
  | already present => exact .of_fresh rfl
  | waiting missing step => exact step.untouched
  | running missing step => exact step.untouched
  | reaped missing step => exact step.untouched
  | failed missing step => exact step.untouched

theorem Finished.untouched {o} (finished : Finished cfg st t o) : Untouched cfg.pid t o.pending := by
  cases finished with
  | present present delivered => exact .of_unused (unused_of_issues _ (deliver_issues _ _ _) delivered)
  | waiting missing wait => exact wait.untouched
  | waited missing wait delivered =>
    exact wait.untouched.then_unused (unused_of_issues _ (deliver_issues _ _ _) delivered)
  | failed missing wait abandoned =>
    exact wait.untouched.then_unused (unused_of_issues _ (abandon_issues _ _) abandoned)

theorem Finished.unused {o} {s : ExitStatus} (finished : Finished cfg st t o) (collected : st.statusRaw = some s) :
    (∀ e ∈ t, usesPid cfg.pid e.call = false) ∧ ∀ c, o.pending = some c → usesPid cfg.pid c = false := by
  cases finished with
  | present present delivered => exact unused_of_issues _ (deliver_issues _ _ _) delivered
  | waiting missing | waited missing | failed missing => simp [collected] at missing

theorem Iteration.untouched {o} (iteration : Iteration cfg startTime st t o) :
    Untouched cfg.pid t o.pending := by
  cases iteration with
  | checking check => exact .of_fresh (check.statuses _)
  | collecting check collect => exact .after_fresh (check.statuses _) collect.untouched
  | abandoning check collect abandoned =>
    refine .after_fresh (check.statuses _) (collect.untouched.then_unused ?_)
    exact unused_of_issues _ (abandon_issues _ _) abandoned
  | polling check collect pending polled =>
    refine .after_fresh (check.statuses _) (collect.untouched.then_unused ?_)
    exact unused_of_issues _ (poll_issues _ _) polled
  | @finishing _ _ _ _ checked collected _ check collect drained finished =>
    have finished := exec_finish finished
    apply Untouched.after_fresh (check.statuses _)
    cases present : collected.statusRaw with
    | none =>
      have reported := collect.decoded
      rw [present] at reported
      have fresh := decoded_eq_nil.mp (List.append_eq_nil_iff.mp reported.symm).2
      exact .after_fresh fresh finished.untouched
    | some s => exact collect.untouched.then_unused (finished.unused present)

theorem Deadline.unused {o} (check : Deadline cfg startTime st t o) (pid : Int)
    (quiet : ∀ now t', t = ⟨.instantNow, now⟩ :: t' → due cfg startTime st.state now = none) :
    (∀ e ∈ t, usesPid pid e.call = false) ∧ ∀ c, o.pending = some c → usesPid pid c = false := by
  cases check with
  | unlimited unlimited => exact ⟨by simp, by simp [Outcome.pending]⟩
  | clock limited => exact ⟨by simp, by simp [Outcome.pending, usesPid]⟩
  | early limited now before => exact ⟨by simp [usesPid], by simp [Outcome.pending]⟩
  | late limited now passed silent => exact ⟨by simp [usesPid], by simp [Outcome.pending]⟩
  | signaling now sends => simp [quiet now _ rfl] at sends
  | signaled now sends answer => simp [quiet now _ rfl] at sends

theorem Iteration.unused {o} {s : ExitStatus} (iteration : Iteration cfg startTime st t o)
    (present : st.statusRaw = some s)
    (quiet : ∀ now t', t = ⟨.instantNow, now⟩ :: t' → due cfg startTime st.state now = none) :
    (∀ e ∈ t, usesPid cfg.pid e.call = false) ∧ ∀ c, o.pending = some c → usesPid cfg.pid c = false := by
  have step : ∀ {t₁ t₂ : Trace} {checked : LoopState} {timeout : Int} {pending : Option Call}, t = t₁ ++ t₂ →
      Deadline cfg startTime st t₁ (.done (checked, timeout)) →
      ((∀ e ∈ t₂, usesPid cfg.pid e.call = false) ∧ ∀ c, pending = some c → usesPid cfg.pid c = false) →
      (∀ e ∈ t, usesPid cfg.pid e.call = false) ∧ ∀ c, pending = some c → usesPid cfg.pid c = false := by
    intro t₁ t₂ checked timeout pending split check rest
    have first := check.unused cfg.pid fun now t' same => quiet now (t' ++ t₂) (by rw [split, same]; rfl)
    refine ⟨fun e member => ?_, rest.2⟩
    rw [split] at member
    rcases List.mem_append.mp member with member | member
    · exact first.1 e member
    · exact rest.1 e member
  cases iteration with
  | checking check => exact check.unused _ quiet
  | collecting check collect =>
    cases collect with
    | waiting missing => simp [check.unchanged.1, present] at missing
  | abandoning check collect abandoned =>
    cases collect with
    | failed missing => simp [check.unchanged.1, present] at missing
  | finishing check collect drained finished =>
    cases collect with
    | already _ => exact step rfl check ((exec_finish finished).unused (check.unchanged.1.trans present))
    | running missing | reaped missing => simp [check.unchanged.1, present] at missing
  | polling check collect pending polled =>
    cases collect with
    | already _ => exact step rfl check (unused_of_issues _ (poll_issues _ _) polled)
    | running missing | reaped missing => simp [check.unchanged.1, present] at missing

/-- At no head of an iteration that has the status is a signal due at the reading that follows. -/
def QuietAfterStatus (cfg : WaitConfig) (drain : DrainState) (reactor : Reactor) (t : Trace) : Prop :=
  ∀ startTime before now after st, t = before ++ ⟨.instantNow, now⟩ :: after →
    Head cfg drain reactor startTime before st → st.statusRaw ≠ none →
    due cfg startTime st.state now = none

section
variable {drain : DrainState} {reactor : Reactor}

theorem QuietAfterStatus.first {t' : Trace} (quiet : QuietAfterStatus cfg drain reactor (t ++ t')) :
    QuietAfterStatus cfg drain reactor t :=
  fun startTime before now after st split =>
    quiet startTime before now (after ++ t') st (by rw [split]; simp)

theorem QuietAfterStatus.iteration {before : Trace} {pending : Option Call} {o}
    (quiet : QuietAfterStatus cfg drain reactor (before ++ t))
    (head : Head cfg drain reactor startTime before st) (untouched : Untouched cfg.pid before pending)
    (iteration : Iteration cfg startTime st t o) : Untouched cfg.pid (before ++ t) o.pending := by
  cases present : st.statusRaw with
  | none =>
    have reported := head.decoded
    rw [present] at reported
    exact .after_fresh (decoded_eq_nil.mp reported) iteration.untouched
  | some s =>
    apply untouched.then_unused
    apply iteration.unused present
    intro now t' same
    exact quiet startTime before now t' st (by rw [same]) head (by simp [present])

theorem Head.untouched (head : Head cfg drain reactor startTime t st)
    (quiet : QuietAfterStatus cfg drain reactor t) : Untouched cfg.pid t none := by
  induction head with
  | start step =>
    have clock : (∀ e ∈ ([⟨.instantNow, startTime⟩] : Trace), usesPid cfg.pid e.call = false) ∧
        ∀ c, (none : Option Call) = some c → usesPid cfg.pid c = false := ⟨by simp [usesPid], by simp⟩
    exact (Process.exec_waitStep step).untouched.then_unused clock
  | next before round ih => exact quiet.iteration before (ih quiet.first) (exec_body round)

theorem waitLoop_untouched {o} (run : Exec (waitLoop cfg drain reactor) t o)
    (quiet : QuietAfterStatus cfg drain reactor t) : Untouched cfg.pid t o.pending := by
  rcases exec_waitLoop run with ⟨c, rfl, step⟩ | ⟨t₁, t₂, e, rfl, step, rest⟩ | ⟨s, rfl, step⟩ |
    ⟨startTime, t₁, t₂, st, rfl, head, last⟩
  · exact step.untouched
  · apply step.untouched.then_unused
    refine unused_of_issues _ ?_ rest
    exact .bind (reactor_drop_issues _) fun _ => .bind (drain_drop_issues _) fun _ => trivial
  · have waiting : (∀ e ∈ ([] : Trace), usesPid cfg.pid e.call = false) ∧
        ∀ c, (Outcome.waiting (I := os) (α := Except SysError Output) .instantNow).pending = some c →
          usesPid cfg.pid c = false := ⟨by simp, by simp [Outcome.pending, usesPid]⟩
    simpa using step.untouched.then_unused waiting
  · rcases last with ⟨c, rfl, stopped⟩ | ⟨result, rfl, left⟩
    · exact quiet.iteration head (head.untouched quiet.first) (exec_body stopped)
    · exact quiet.iteration head (head.untouched quiet.first) (exec_body left)

theorem usesPid_target (cfg : WaitConfig) (sig : Int) : usesPid cfg.pid (.kill (target cfg) sig) = true := by
  unfold target
  split <;> simp [usesPid]

theorem quiet_of_untouched {o} (run : Exec (waitLoop cfg drain reactor) t o)
    (untouched : Untouched cfg.pid t o.pending) : QuietAfterStatus cfg drain reactor t := by
  intro startTime before now after st split head present
  cases sends : due cfg startTime st.state now with
  | none => rfl
  | some sig =>
    have reaped : statuses cfg.pid before ≠ [] := by
      intro fresh
      have reported := head.decoded
      rw [decoded_eq_nil.mpr fresh] at reported
      exact present (Option.toList_eq_nil_iff.mp reported.symm)
    have signaling := head.waiting (exec_due sends)
    have whole : t = (before ++ [⟨.instantNow, now⟩]) ++ after := by simp [split]
    rw [whole] at run
    rcases signaling.extends run with ⟨rfl, rfl⟩ | ⟨c, answer, rest, same, rfl⟩
    · have fresh := untouched.2 _ rfl (usesPid_target cfg sig)
      rw [split, statuses_append, List.append_eq_nil_iff] at fresh
      exact absurd fresh.1 reaped
    · cases same
      have fresh : statuses cfg.pid (before ++ [⟨.instantNow, now⟩]) = [] :=
        untouched.1 _ _ rest whole (usesPid_target cfg sig)
      rw [statuses_append, List.append_eq_nil_iff] at fresh
      exact absurd fresh.1 reaped

/-- A run of `wait_loop` leaves the pid alone after `waitpid` returned the status of the child if and
    only if no signal comes due in an iteration that begins with the status. -/
theorem waitLoop_untouched_iff {o} (run : Exec (waitLoop cfg drain reactor) t o) :
    Untouched cfg.pid t o.pending ↔ QuietAfterStatus cfg drain reactor t :=
  ⟨quiet_of_untouched run, waitLoop_untouched run⟩

def heldOpen : DrainState :=
  { stdoutSlot := some ⟨some ⟨1⟩, ⟨5⟩⟩
    stderrSlot := none
    stdinSlot := none
    buffer := .new 16
    writer := .new none
    earlyExit := false }

def idleReactor : Reactor := ⟨3, 2, ⟨[], 64⟩, none, none, none⟩

theorem waitLoop_untouched_without_timeout :
    ∃ t o, Exec (waitLoop ⟨42, none, 0, .kill, ⟨none, false⟩⟩ heldOpen idleReactor) t o ∧
      statuses 42 t = [0] ∧ Untouched 42 t o.pending := by
  have run : Exec (waitLoop ⟨42, none, 0, .kill, ⟨none, false⟩⟩ heldOpen idleReactor)
      [⟨.waitpidNoHang 42, .ok (some 0)⟩, ⟨.instantNow, (5 : Nat)⟩, ⟨.reserve 0 0 64, ⟨64, by decide⟩⟩]
      (.waiting (.epollWait 3 64 1)) := .of_replay 3 rfl
  exact ⟨_, _, run, rfl, (waitLoop_untouched_iff run).mpr fun _ _ _ _ _ _ _ _ => rfl⟩

/-- The child is reaped, its descendant keeps stdout open, and the deadline passes. -/
theorem reaped_pid_signaled :
    ¬∀ (cfg : WaitConfig) (drain : DrainState) (reactor : Reactor) (t : Trace) o,
      Exec (waitLoop cfg drain reactor) t o → Untouched cfg.pid t o.pending := by
  intro always
  have reaped : Head ⟨42, some 100, 0, .kill, ⟨none, false⟩⟩ heldOpen idleReactor 0
      ([⟨.waitpidNoHang 42, .ok (some 0)⟩] ++ [⟨.instantNow, (0 : Nat)⟩])
      ⟨heldOpen, idleReactor, some (.exited 0), .none, false⟩ := .start (.of_replay 3 rfl)
  have late : due ⟨42, some 100, 0, .kill, ⟨none, false⟩⟩ 0 .none 200000000 = some SIGKILL := by
    decide +kernel
  have fresh := (always _ _ _ _ _ (reaped.waiting (exec_due late))).2 _ rfl rfl
  cases fresh

end

end WaitLoop

end CoreShift
