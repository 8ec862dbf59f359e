import CoreShift.Spawn.Escalation
import CoreShift.Spawn.Faults

namespace CoreShift

open Interaction

namespace Duration

/-- `Duration::sub`, which panics when the result would be negative. -/
def checkedSub (a b : Nat) : Option Nat := if b ≤ a then some (a - b) else none

/-- `n as i32`, where it keeps the value. -/
def exactI32 (n : Nat) : Option Int := if n ≤ I32_MAX then some n else none

theorem checkedSub_of_le {a b : Nat} (le : b ≤ a) : checkedSub a b = some (a - b) := if_pos le

theorem exactI32_of_le {n : Nat} (le : n ≤ I32_MAX) : exactI32 n = some (n : Int) := if_pos le

end Duration

theorem Reactor.asI32_of_le {n : Nat} (le : n ≤ I32_MAX) : Reactor.asI32 n = n := by
  unfold I32_MAX at le
  have value : (BitVec.ofNat 32 n).toNat = n := by
    rw [BitVec.toNat_ofNat]
    omega
  have positive : 2 * (BitVec.ofNat 32 n).toNat < 2 ^ 32 := by omega
  unfold asI32
  rw [BitVec.toInt_eq_toNat_of_lt positive, value]

namespace WaitLoop

open Duration

variable {cfg : WaitConfig} {startTime : Nat} {st : LoopState} {t : Trace}

/-- The arithmetic of the timeout handling, with what Rust checks of it: the milliseconds past the
    deadline, or the poll timeout. -/
def deadlineArithmetic (dl elapsed : Nat) : Option (Nat ⊕ Int) :=
  if dl ≤ elapsed then do
    let passed ← checkedSub elapsed dl
    return .inl (asMillis passed)
  else do
    let remaining ← checkedSub dl elapsed
    let timeout ← exactI32 (min (asMillis remaining) I32_MAX)
    return .inr timeout

theorem deadlineArithmetic_late {dl elapsed : Nat} (passed : dl ≤ elapsed) :
    deadlineArithmetic dl elapsed = some (.inl (asMillis (elapsed - dl))) := by
  rw [deadlineArithmetic, if_pos passed, checkedSub_of_le passed]
  rfl

theorem deadlineArithmetic_early {dl elapsed : Nat} (before : elapsed < dl) :
    deadlineArithmetic dl elapsed = some (.inr (min (asMillis (dl - elapsed)) I32_MAX : Nat)) := by
  have fits : min (asMillis (dl - elapsed)) I32_MAX ≤ I32_MAX := Nat.min_le_right _ _
  rw [deadlineArithmetic, if_neg (Nat.not_le_of_lt before), checkedSub_of_le (Nat.le_of_lt before)]
  show (exactI32 (min (asMillis (dl - elapsed)) I32_MAX)).bind _ = _
  rw [exactI32_of_le fits]
  rfl

def escalate (cfg : WaitConfig) (st : LoopState) (elapsedOver : Nat) : Prog (LoopState × Int) :=
  match dueSignal cfg st.state elapsedOver with
  | some sig => do
    let result ← signal cfg sig
    let state := if sig = SIGTERM ∧ result = .ok () then .termSent else .killSent
    return ({ st with timedOut := true, state }, 100)
  | none => return ({ st with timedOut := true }, 100)

theorem checkDeadline_checked (startTime : Nat) (st : LoopState) {ms : UInt32} (limited : cfg.timeoutMs = some ms)
    (panicked : Prog (LoopState × Int)) :
    checkDeadline cfg startTime st = (ask .instantNow >>= fun now =>
      ((deadlineArithmetic (fromMillis ms.toNat) (now - startTime)).map fun value =>
        value.elim (escalate cfg st) fun timeout => pure (st, timeout)).getD panicked) := by
  rw [checkDeadline_eq startTime st limited]
  congr 1
  funext now
  unfold afterReading
  rw [due_limited limited]
  generalize fromMillis ms.toNat = deadline
  by_cases passed : deadline ≤ now - startTime
  · rw [deadlineArithmetic_late passed]
    simp only [passed, ↓reduceIte]
    rfl
  · have fits : min (asMillis (deadline - (now - startTime))) I32_MAX ≤ I32_MAX := Nat.min_le_right _ _
    rw [deadlineArithmetic_early (Nat.lt_of_not_le passed)]
    simp only [passed, ↓reduceIte]
    rw [Reactor.asI32_of_le fits]
    rfl

theorem Deadline.timeout {checked : LoopState} {timeout : Int}
    (check : Deadline cfg startTime st t (.done (checked, timeout))) :
    (cfg.timeoutMs = none ∧ readings t = [] ∧ timeout = -1) ∨
      ∃ ms now, cfg.timeoutMs = some ms ∧ readings t = [now] ∧ 0 ≤ timeout ∧
        (now - startTime < fromMillis ms.toNat →
          timeout ≤ (asMillis (fromMillis ms.toNat - (now - startTime)) : Nat)) ∧
        (fromMillis ms.toNat ≤ now - startTime → timeout ≤ 100) := by
  cases check with
  | unlimited unlimited => exact .inl ⟨unlimited, rfl, rfl⟩
  | @early ms limited now before =>
    have fits : min (asMillis (fromMillis ms.toNat - (now - startTime))) I32_MAX ≤ I32_MAX := Nat.min_le_right _ _
    refine .inr ⟨ms, now, limited, rfl, ?_⟩
    rw [Reactor.asI32_of_le fits]
    omega
  | @late ms limited now passed silent =>
    refine .inr ⟨ms, now, limited, rfl, by decide, ?_⟩
    omega
  | signaled now sends answer =>
    obtain ⟨ms, limited, passed, _⟩ := due_cases sends
    refine .inr ⟨ms, now, limited, rfl, by decide, ?_⟩
    omega

theorem not_instantNow_of_poll {c : Call} (poll : isPollCall c = true) : c ≠ .instantNow := by
  intro same
  subst same
  cases poll

theorem isDrainCall_of_close {c : Call} (close : isClose c = true) : isDrainCall c = true := by
  cases c <;> first | rfl | cases close

theorem deliver_drains (cfg : WaitConfig) (st : LoopState) (s : ExitStatus) :
    (deliver cfg st s).Issues (isDrainCall · = true) := by
  have releases : ∀ slots, (releaseAll st.reactor slots).Issues (isDrainCall · = true) := by
    intro slots
    induction slots with
    | nil => trivial
    | cons slot rest ih => exact .bind (DrainState.release_issues _ _) fun _ => ih
  refine .bind (releases _) fun _ => .bind (.bind (DrainState.drop_issues _) fun _ => trivial) fun _ => ?_
  exact .bind ((reactor_drop_closes _).mono fun _ => isDrainCall_of_close) fun _ => trivial

theorem abandon_drains (st : LoopState) (e : SysError) : (abandon st e).Issues (isDrainCall · = true) :=
  (abandon_closes st e).mono fun _ => isDrainCall_of_close

theorem not_epollWait_of_drain {α : Type} {p : Prog α} {epfd : Nat} {n timeout : Int}
    (issues : p.Issues (isDrainCall · = true)) : ¬Exec p t (.waiting (.epollWait epfd n timeout)) := by
  intro run
  cases (run.issues issues).2 _ rfl

theorem exec_wait_waiting {reactor : Reactor} {buffer : RoomyVec Reactor.Event} {maxEvents epfd : Nat}
    {n timeout passed : Int}
    (run : Exec (reactor.wait buffer maxEvents timeout) t (.waiting (.epollWait epfd n passed))) :
    (epfd = reactor.epfd ∧ n = Reactor.asI32 maxEvents ∧ passed = timeout) ∧
      ∀ e ∈ t, ∃ len capacity additional, e.call = .reserve len capacity additional := by
  have reserves : ∀ {α : Type} {v : RoomyVec α} {u : Trace},
      ¬Exec (v.reserveFor maxEvents) u (.waiting (.epollWait epfd n passed)) := by
    intro α v u run
    unfold RoomyVec.reserveFor at run
    split at run
    · rcases run.ask_cases with ⟨-, same⟩ | ⟨answer, u', rfl, later⟩
      · cases same
      · cases later
    · cases run
  unfold Reactor.wait at run
  by_cases none : maxEvents = 0
  · simp only [none, ↓reduceIte] at run
    cases run
  · simp only [none, ↓reduceIte] at run
    rcases exec_bind_waiting.mp run with stopped | ⟨t₁, _, t₂, rfl, reserved, run⟩
    · exact absurd stopped reserves
    rcases exec_bind_waiting.mp run with stopped | ⟨t₃, _, t₄, rfl, reserved', run⟩
    · exact absurd stopped reserves
    rcases run.ask_cases with ⟨rfl, same⟩ | ⟨answer, u, rfl, later⟩
    · cases same
      refine ⟨⟨rfl, rfl, rfl⟩, List.forall_mem_append.mpr ⟨(exec_reserveFor reserved).2, ?_⟩⟩
      exact List.forall_mem_append.mpr ⟨(exec_reserveFor reserved').2, by simp⟩
    · exfalso
      split at later
      · split at later <;> cases later
      · split at later <;> cases later

theorem exec_poll_waiting {epfd : Nat} {n timeout passed : Int}
    (run : Exec (poll st timeout) t (.waiting (.epollWait epfd n passed))) :
    (epfd = st.reactor.epfd ∧ n = 64 ∧ passed = waitTimeout st.statusRaw timeout) ∧
      ∀ e ∈ t, ∃ len capacity additional, e.call = .reserve len capacity additional := by
  rcases exec_bind_waiting.mp run with stopped | ⟨u₁, ⟨reactor, events, result⟩, u₂, rfl, waited, run⟩
  · obtain ⟨⟨epoll, events, same⟩, reserves⟩ := exec_wait_waiting stopped
    exact ⟨⟨epoll, events.trans (Reactor.asI32_of_le (by decide)), same⟩, reserves⟩
  exfalso
  rcases result with e | nevents
  · exact not_epollWait_of_drain (abandon_drains _ _) run
  rcases exec_bind_waiting.mp run with stopped | ⟨v₁, ⟨drain, result⟩, v₂, rfl, dispatched, run⟩
  · exact not_epollWait_of_drain (dispatch_issues _ _ _) stopped
  rcases result with e | ⟨⟩
  · exact not_epollWait_of_drain (abandon_drains _ _) run
  · cases run

theorem Iteration.unfinished {epfd : Nat} {n passed : Int}
    (iteration : Iteration cfg startTime st t (.waiting (.epollWait epfd n passed))) :
    ∃ t₁ t₂ t₃ checked collected timeout, t = t₁ ++ (t₂ ++ t₃) ∧
      Deadline cfg startTime st t₁ (.done (checked, timeout)) ∧
      Collected cfg checked t₂ (.done (collected, .ok ())) ∧ collected.drain.isDone = false ∧
      Exec (poll collected timeout) t₃ (.waiting (.epollWait epfd n passed)) := by
  cases iteration with
  | checking check => cases check
  | collecting check collect =>
    cases collect with
    | waiting missing step => cases step
  | abandoning check collect abandoned => exact absurd abandoned (not_epollWait_of_drain (abandon_drains _ _))
  | polling check collect pending polled => exact ⟨_, _, _, _, _, _, rfl, check, collect, pending, polled⟩
  | finishing check collect drained finished =>
    cases exec_finish finished with
    | present present delivered => exact absurd delivered (not_epollWait_of_drain (deliver_drains _ _ _))
    | waiting missing wait => cases wait
    | waited missing wait delivered => exact absurd delivered (not_epollWait_of_drain (deliver_drains _ _ _))
    | failed missing wait abandoned => exact absurd abandoned (not_epollWait_of_drain (abandon_drains _ _))

theorem Iteration.epollWait {epfd : Nat} {n passed : Int}
    (iteration : Iteration cfg startTime st t (.waiting (.epollWait epfd n passed))) :
    ∃ t₁ t₂ t₃ checked collected timeout, t = t₁ ++ (t₂ ++ t₃) ∧
      Deadline cfg startTime st t₁ (.done (checked, timeout)) ∧
      Collected cfg checked t₂ (.done (collected, .ok ())) ∧
      Exec (poll collected timeout) t₃ (.waiting (.epollWait epfd n passed)) := by
  obtain ⟨t₁, t₂, t₃, checked, collected, timeout, rfl, check, collect, _, polled⟩ := iteration.unfinished
  exact ⟨t₁, t₂, t₃, checked, collected, timeout, rfl, check, collect, polled⟩

theorem Head.readings {drain : DrainState} {reactor : Reactor} (head : Head cfg drain reactor startTime t st) :
    ∃ later, CoreShift.readings t = startTime :: later := by
  induction head with
  | start step =>
    have quiet : (Process.mk cfg.pid).waitStep.Issues (· ≠ Call.instantNow) :=
      .bind (.retry _ (by simp)) fun _ => trivial
    rw [readings_append, readings_of_issues quiet step]
    exact ⟨[], rfl⟩
  | next before round ih =>
    obtain ⟨later, same⟩ := ih
    rw [readings_append, same]
    exact ⟨_, rfl⟩

/-- The bounds of a poll timeout, told by what the run has seen: the statuses of the child, the first
    reading of the clock and the last one. -/
def TimeoutBounds (cfg : WaitConfig) (t : Trace) (timeout : Int) : Prop :=
  match cfg.timeoutMs with
  | none => timeout = if statuses cfg.pid t = [] then -1 else 1
  | some ms => 0 ≤ timeout ∧ ∃ startTime earlier now, readings t = startTime :: (earlier ++ [now]) ∧
      (now - startTime < fromMillis ms.toNat →
        timeout ≤ (asMillis (fromMillis ms.toNat - (now - startTime)) : Nat)) ∧
      (fromMillis ms.toNat ≤ now - startTime → timeout ≤ 100)

theorem waitTimeout_between (statusRaw : Option ExitStatus) {pollTimeout : Int} (nonneg : 0 ≤ pollTimeout) :
    0 ≤ waitTimeout statusRaw pollTimeout ∧ waitTimeout statusRaw pollTimeout ≤ pollTimeout := by
  unfold waitTimeout
  split
  · split <;> omega
  · omega

/-- The `epoll_wait` of any iteration sleeps until the deadline at most, and the arithmetic of the
    timeout handling neither underflows nor truncates. -/
theorem poll_timeout_bounded {drain : DrainState} {reactor : Reactor} {epfd : Nat} {n timeout : Int}
    (run : Exec (waitLoop cfg drain reactor) t (.waiting (.epollWait epfd n timeout))) :
    TimeoutBounds cfg t timeout ∧ n = 64 ∧
      ∀ startTime st ms panicked, cfg.timeoutMs = some ms →
        checkDeadline cfg startTime st = (ask .instantNow >>= fun now =>
          ((deadlineArithmetic (fromMillis ms.toNat) (now - startTime)).map fun value =>
            value.elim (escalate cfg st) fun timeout => pure (st, timeout)).getD panicked) := by
  have checked := fun startTime st ms panicked limited => @checkDeadline_checked cfg startTime st ms limited panicked
  rcases exec_waitLoop run with ⟨c, same, step⟩ | ⟨t₁, t₂, e, rfl, step, rest⟩ | ⟨s, impossible, step⟩ |
    ⟨startTime, t₁, t₂, st, rfl, head, ⟨c, same, stopped⟩ | ⟨result, impossible, _⟩⟩
  · cases same
    cases step
  · refine absurd rest (not_epollWait_of_drain ?_)
    refine .bind ((reactor_drop_closes _).mono fun _ => isDrainCall_of_close) fun _ => ?_
    exact .bind (DrainState.drop_issues _) fun _ => trivial
  · cases impossible
  · cases same
    obtain ⟨u₁, u₂, u₃, _, collected, pollTimeout, rfl, check, collect, polled⟩ := (exec_body stopped).epollWait
    obtain ⟨⟨_, events, rfl⟩, _⟩ := exec_poll_waiting polled
    refine ⟨?_, events, checked⟩
    have known : collected.statusRaw.toList = decoded cfg.pid (t₁ ++ (u₁ ++ (u₂ ++ u₃))) := by
      have silent := decoded_of_unused (unused_of_issues cfg.pid (poll_issues _ _) polled).1
      rw [decoded_append, decoded_append, decoded_append, silent, check.decoded, head.decoded, collect.decoded,
        check.unchanged.1]
      simp
    have clock : ∃ later, readings (t₁ ++ (u₁ ++ (u₂ ++ u₃))) = startTime :: (later ++ readings u₁) := by
      obtain ⟨later, first⟩ := head.readings
      have collecting : readings u₂ = [] := by
        apply readings_of_forall
        intro e member
        rw [collect.calls e member]
        simp
      have polling : readings u₃ = [] :=
        readings_of_issues ((poll_issues _ _).mono fun _ => not_instantNow_of_poll) polled
      refine ⟨later, ?_⟩
      rw [readings_append, readings_append, readings_append, first, collecting, polling]
      simp
    obtain ⟨later, clock⟩ := clock
    unfold TimeoutBounds
    rcases check.timeout with ⟨unlimited, _, rfl⟩ | ⟨ms, now, limited, reading, positive, early, late⟩
    · rw [unlimited]
      cases present : collected.statusRaw with
      | none =>
        rw [present] at known
        have fresh := decoded_eq_nil.mp known.symm
        rw [if_pos fresh]
        rfl
      | some s =>
        rw [present] at known
        have reaped : statuses cfg.pid (t₁ ++ (u₁ ++ (u₂ ++ u₃))) ≠ [] := by
          intro fresh
          rw [decoded_eq_nil.mpr fresh] at known
          cases known
        rw [if_neg reaped]
        rfl
    · rw [limited]
      obtain ⟨above, below⟩ := waitTimeout_between collected.statusRaw positive
      refine ⟨above, startTime, later, now, by rw [clock, reading], ?_, ?_⟩
      · intro before
        have bound := early before
        omega
      · intro passed
        have bound := late passed
        omega
  · cases impossible

def firstPoll : Trace :=
  [⟨.waitpidNoHang 42, .ok none⟩, ⟨.instantNow, (0 : Nat)⟩, ⟨.instantNow, (0 : Nat)⟩,
    ⟨.waitpidNoHang 42, .ok none⟩, ⟨.reserve 0 0 64, ⟨64, room_for_events⟩⟩]

theorem firstPoll_bounded :
    ∃ timeout, Exec (waitLoop gracefully twoPipes ⟨3, 3, ⟨[], 64⟩, none, none, none⟩) firstPoll
        (.waiting (.epollWait 3 64 timeout)) ∧ TimeoutBounds gracefully firstPoll timeout := by
  have head : Head gracefully twoPipes ⟨3, 3, ⟨[], 64⟩, none, none, none⟩ 0
      ([⟨.waitpidNoHang 42, .ok none⟩] ++ [⟨.instantNow, (0 : Nat)⟩])
      ⟨twoPipes, ⟨3, 3, ⟨[], 64⟩, none, none, none⟩, none, .none, false⟩ := .start (.of_replay 3 rfl)
  have early := @exec_early gracefully 0 0 ⟨twoPipes, ⟨3, 3, ⟨[], 64⟩, none, none, none⟩, none, .none, false⟩ 100 rfl
    (by decide +kernel)
  have run : ∃ timeout, Exec (waitLoop gracefully twoPipes ⟨3, 3, ⟨[], 64⟩, none, none, none⟩) firstPoll
      (.waiting (.epollWait 3 64 timeout)) := ⟨_, head.waiting (early.bind_done (.of_replay 3 rfl))⟩
  obtain ⟨timeout, run⟩ := run
  exact ⟨timeout, run, (poll_timeout_bounded run).1⟩

end WaitLoop

end CoreShift
