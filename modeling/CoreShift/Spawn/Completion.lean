import CoreShift.Io.Settled
import CoreShift.Spawn.Status

namespace CoreShift

open Interaction

namespace WaitLoop

inductive EventServed (reactor : Reactor) (d : DrainState) : Trace → DrainState → Option SysError → Prop where
  | out {isStdout : Bool} {t : Trace} {d' : DrainState} {e : Option SysError}
      (served : DrainState.OutServed d isStdout (DrainState.Released reactor) t d' e) : EventServed reactor d t d' e
  | stdin {t : Trace} {d' : DrainState} {e : Option SysError}
      (served : DrainState.StdinServed d reactor t d' e) : EventServed reactor d t d' e
  | passed : EventServed reactor d [] d none

theorem exec_handleEvent_done {reactor : Reactor} {d d' : DrainState} {raw : EpollEvent} {t : Trace}
    {result : Except SysError Unit}
    (run : Exec (handleEvent reactor d (Reactor.translate raw)) t (.done (d', result))) :
    EventServed reactor d t d' (errorOf result) := by
  have readable : (Reactor.translate raw).error = true → (Reactor.translate raw).readable = true := by
    intro error
    exact Bool.or_eq_true _ _ ▸ .inr error
  have writable : (Reactor.translate raw).error = true → (Reactor.translate raw).writable = true := by
    intro error
    exact Bool.or_eq_true _ _ ▸ .inr error
  have passed : Exec (pure (d, .ok ()) : Prog (DrainState × Except SysError Unit)) t (.done (d', result)) →
      EventServed reactor d t d' (errorOf result) := by
    intro run
    obtain ⟨rfl, same⟩ := (exec_pure_iff _ _ _).mp run
    cases same
    exact .passed
  unfold handleEvent at run
  split at run
  · split at run
    · exact .out (DrainState.exec_handleOutReady_done run)
    · split at run
      · exact absurd (readable ‹_›) ‹_›
      · exact passed run
  · split at run
    · split at run
      · exact .out (DrainState.exec_handleOutReady_done run)
      · split at run
        · exact absurd (readable ‹_›) ‹_›
        · exact passed run
    · split at run
      · split at run
        · exact .stdin (DrainState.exec_handleStdinWritable_done run)
        · split at run
          · exact absurd (writable ‹_›) ‹_›
          · exact passed run
      · exact passed run

structure Draining (d₀ : DrainState) (epfd : Nat) (t : Trace) (d : DrainState) : Prop where
  settled : d₀.Settled epfd t d
  written : d₀.Written t d

theorem draining_start (d : DrainState) (epfd : Nat) : Draining d epfd [] d :=
  ⟨DrainState.settled_start d epfd, fun _ _ => rfl⟩

def isIdle : Call → Bool
  | .close _ | .write _ _ => false
  | _ => true

section
variable {d₀ d d' : DrainState} {epfd : Nat} {t t' : Trace}

theorem Draining.idle (draining : Draining d₀ epfd t d) (idle : ∀ e ∈ t', isIdle e.call = true) :
    Draining d₀ epfd (t ++ t') d := by
  refine ⟨draining.settled.extend (fun e member fd close => ?_) fun _ => rfl, ?_⟩
  · have still := idle e member
    rw [close] at still
    cases still
  · refine draining.written.quiet (.inr rfl) rfl fun fd => accepted_of_forall fun e member => ?_
    have still := idle e member
    obtain ⟨call, answer⟩ := e
    cases call
    case write => cases still
    all_goals rfl

theorem Draining.event {reactor : Reactor} (distinct : d₀.Distinct) (draining : Draining d₀ reactor.epfd t d)
    (served : EventServed reactor d t' d' none) : Draining d₀ reactor.epfd (t ++ t') d' := by
  cases served with
  | out served =>
    have after := draining.settled.outServed distinct draining.written served
    exact ⟨after.1, after.2⟩
  | stdin served =>
    have after := draining.settled.stdinServed distinct draining.written served
    exact ⟨after.1, after.2⟩
  | passed => simpa using draining

theorem Draining.dispatch {reactor : Reactor} {events : List Reactor.Event} (distinct : d₀.Distinct)
    (draining : Draining d₀ reactor.epfd t d) (translated : ∀ ev ∈ events, ∃ raw, ev = Reactor.translate raw)
    (run : Exec (dispatch reactor d events) t' (.done (d', .ok ()))) :
    Draining d₀ reactor.epfd (t ++ t') d' := by
  induction events generalizing d t t' with
  | nil =>
    obtain ⟨rfl, same⟩ := (exec_pure_iff _ _ _).mp run
    cases same
    simpa using draining
  | cons ev rest ih =>
    obtain ⟨first, ⟨served, result⟩, second, rfl, handled, run⟩ := exec_bind_done.mp run
    obtain ⟨raw, rfl⟩ := translated ev (by simp)
    rcases result with e | ⟨⟩
    · cases ((exec_pure_iff _ _ _).mp run).2
    · rw [← List.append_assoc]
      refine ih (draining.event distinct (exec_handleEvent_done handled)) ?_ run
      exact fun ev member => translated ev (List.mem_cons_of_mem _ member)

end

variable {cfg : WaitConfig} {startTime : Nat} {st : LoopState} {drain : DrainState} {reactor : Reactor} {t : Trace}

theorem Deadline.idle {o} (check : Deadline cfg startTime st t o) : ∀ e ∈ t, isIdle e.call = true := by
  cases check <;> simp [isIdle]

theorem stepped_idle {o} (step : Process.Stepped cfg.pid t o) : ∀ e ∈ t, isIdle e.call = true := by
  intro e member
  rw [step.calls e member]
  rfl

theorem Collected.idle {o} (collect : Collected cfg st t o) : ∀ e ∈ t, isIdle e.call = true := by
  intro e member
  rw [collect.calls e member]
  rfl

theorem isIdle_of_wait {c : Call} (wait : isWaitCall c = true) : isIdle c = true := by
  cases c <;> first | rfl | cases wait

theorem Head.draining (distinct : drain.Distinct) (head : Head cfg drain reactor startTime t st) :
    Draining drain reactor.epfd t st.drain ∧ st.reactor.epfd = reactor.epfd := by
  induction head with
  | @start t _ step =>
    have idle : ∀ e ∈ t ++ [(⟨.instantNow, startTime⟩ : Event os)], isIdle e.call = true := by
      intro e member
      rcases List.mem_append.mp member with member | member
      · exact stepped_idle (Process.exec_waitStep step) e member
      · rw [List.mem_singleton.mp member]
        rfl
    have started := (draining_start drain reactor.epfd).idle idle
    rw [List.nil_append] at started
    exact ⟨started, rfl⟩
  | next _ round ih =>
    obtain ⟨t₁, t₂, t₃, checked, collected, timeout, rfl, check, collect, _, polled⟩ := (exec_body round).polled
    obtain ⟨w, u, reactor', events, n, d', rfl, waited, dispatched, rfl⟩ := exec_poll_next polled
    obtain ⟨same, translated⟩ := exec_wait_ok waited
    have idle := fun e member => isIdle_of_wait ((waited.issues (wait_issues _ _ _ _)).1 e member)
    rw [collect.unchanged.2.2, check.unchanged.2.2, ih.2] at same
    rw [collect.unchanged.2.1, check.unchanged.2.1] at dispatched
    have before := ((ih.1.idle check.idle).idle collect.idle).idle idle
    rw [← same] at before ⊢
    have after := before.dispatch distinct (fun ev member => translated ev (List.mem_of_mem_take member)) dispatched
    exact ⟨by simpa only [List.append_assoc] using after, rfl⟩

theorem abandon_fails {e : SysError} {out : Output} (run : Exec (abandon st e) t (.done (.inr (.ok out)))) : False := by
  obtain ⟨_, _, _, _, _, rest⟩ := exec_bind_done.mp run
  obtain ⟨_, _, _, _, _, rest⟩ := exec_bind_done.mp rest
  cases ((exec_pure_iff _ _ _).mp rest).2

theorem poll_fails {timeout : Int} {out : Output} (run : Exec (poll st timeout) t (.done (.inr (.ok out)))) :
    False := by
  obtain ⟨_, ⟨reactor, events, result⟩, _, rfl, _, rest⟩ := exec_bind_done.mp run
  rcases result with e | n
  · exact abandon_fails rest
  obtain ⟨_, ⟨drain, result⟩, _, rfl, _, rest⟩ := exec_bind_done.mp rest
  rcases result with e | ⟨⟩
  · exact abandon_fails rest
  · cases ((exec_pure_iff _ _ _).mp rest).2

theorem exec_deliver_status {s : ExitStatus} {out : Output}
    (run : Exec (deliver cfg st s) t (.done (.inr (.ok out)))) : out.status = some s ∧ decoded cfg.pid t = [] := by
  have quiet := decoded_of_unused (unused_of_issues cfg.pid (deliver_issues _ _ _) run).1
  obtain ⟨_, _, _, rfl, _, rest⟩ := exec_bind_done.mp run
  obtain ⟨_, ⟨stdout, stderr⟩, _, rfl, _, rest⟩ := exec_bind_done.mp rest
  obtain ⟨_, _, _, rfl, _, rest⟩ := exec_bind_done.mp rest
  cases ((exec_pure_iff _ _ _).mp rest).2
  exact ⟨rfl, quiet⟩

theorem Finished.status {out : Output} (finished : Finished cfg st t (.done (.inr (.ok out)))) :
    ∃ s, out.status = some s ∧ st.statusRaw.toList ++ decoded cfg.pid t = [s] := by
  cases finished with
  | @present _ _ s present delivered =>
    obtain ⟨same, quiet⟩ := exec_deliver_status delivered
    exact ⟨s, same, by simp [present, quiet]⟩
  | @waited _ _ _ s missing wait delivered =>
    obtain ⟨same, quiet⟩ := exec_deliver_status delivered
    exact ⟨s, same, by simp [missing, wait.decoded, quiet]⟩
  | failed _ _ abandoned => exact (abandon_fails abandoned).elim

theorem Iteration.completed {out : Output} (iteration : Iteration cfg startTime st t (.done (.inr (.ok out)))) :
    st.drain.isDone = true ∧ ∃ s, out.status = some s ∧ st.statusRaw.toList ++ decoded cfg.pid t = [s] := by
  cases iteration with
  | abandoning _ _ abandoned => exact (abandon_fails abandoned).elim
  | polling _ _ _ polled => exact (poll_fails polled).elim
  | finishing check collect drained finished =>
    rw [collect.unchanged.2.1, check.unchanged.2.1] at drained
    refine ⟨drained, ?_⟩
    obtain ⟨s, same, reported⟩ := (exec_finish finished).status
    refine ⟨s, same, ?_⟩
    rw [collect.decoded, check.unchanged.1, List.append_assoc] at reported
    rwa [decoded_append, decoded_append, check.decoded, List.nil_append]

def LoopCall (cfg : WaitConfig) : Call → Prop
  | .kill target' sig => target' = target cfg ∧ (sig = SIGTERM ∨ sig = SIGKILL)
  | .waitpid pid | .waitpidNoHang pid => pid = cfg.pid
  | .instantNow => True
  | c => isPollCall c = true

theorem loopCall_of_poll {c : Call} (poll : isPollCall c = true) : LoopCall cfg c := by
  cases c <;> first | exact poll | cases poll

theorem waitStep_calls (cfg : WaitConfig) : (Process.mk cfg.pid).waitStep.Issues (LoopCall cfg) :=
  .bind (.retry _ rfl) fun _ => trivial

theorem signal_calls (cfg : WaitConfig) {sig : Int} (known : sig = SIGTERM ∨ sig = SIGKILL) :
    (signal cfg sig).Issues (LoopCall cfg) := by
  unfold signal
  split
  · have own : -cfg.pid = target cfg := by rw [target, if_pos ‹_›]
    refine .bind ((Program.issues_ask _ _).mpr ⟨own, known⟩) fun answer => ?_
    rcases answer with e | ⟨⟩ <;> trivial
  · have own : cfg.pid = target cfg := by rw [target, if_neg ‹_›]
    refine .bind ((Program.issues_ask _ _).mpr ⟨own, known⟩) fun answer => ?_
    rcases answer with e | ⟨⟩ <;> trivial

theorem dueSignal_known {state : KillState} {passed : Nat} {sig : Int} (sends : dueSignal cfg state passed = some sig) :
    sig = SIGTERM ∨ sig = SIGKILL := by
  unfold dueSignal at sends
  split at sends
  · split at sends
    · cases sends
    · exact .inl (Option.some.inj sends).symm
    · exact .inr (Option.some.inj sends).symm
  · split at sends
    · exact .inr (Option.some.inj sends).symm
    · cases sends
  · cases sends

theorem due_known {state : KillState} {now : Nat} {sig : Int} (sends : due cfg startTime state now = some sig) :
    sig = SIGTERM ∨ sig = SIGKILL := by
  unfold due at sends
  split at sends
  · cases sends
  · split at sends
    · exact dueSignal_known sends
    · cases sends

theorem body_calls (cfg : WaitConfig) (startTime : Nat) (st : LoopState) :
    (body cfg startTime st).Issues (LoopCall cfg) := by
  have abandons : ∀ st e, (abandon st e).Issues (LoopCall cfg) :=
    fun st e => (abandon_issues st e).mono fun _ => loopCall_of_poll
  have delivers : ∀ st s, (deliver cfg st s).Issues (LoopCall cfg) :=
    fun st s => (deliver_issues cfg st s).mono fun _ => loopCall_of_poll
  have finishes : ∀ st, (finish cfg st).Issues (LoopCall cfg) := by
    intro st
    unfold finish
    split
    · exact delivers _ _
    · refine .bind (.bind (.retry _ rfl) fun _ => trivial) fun s => ?_
      rcases s with e | s
      · exact abandons _ _
      · exact delivers _ _
  have checks : (checkDeadline cfg startTime st).Issues (LoopCall cfg) := by
    cases limited : cfg.timeoutMs with
    | none =>
      simp only [checkDeadline, limited]
      trivial
    | some ms =>
      rw [checkDeadline_eq startTime st limited]
      refine .bind ((Program.issues_ask _ _).mpr trivial) fun now => ?_
      unfold afterReading
      split
      · exact .bind (signal_calls cfg (due_known ‹_›)) fun _ => trivial
      · split <;> trivial
  have collects : ∀ st, (collectStatus cfg st).Issues (LoopCall cfg) := by
    intro st
    unfold collectStatus
    split
    · trivial
    · refine .bind (waitStep_calls cfg) fun result => ?_
      rcases result with e | _ | s <;> trivial
  refine .bind checks fun checked => .bind (collects _) fun collected => ?_
  obtain ⟨st, result⟩ := collected
  rcases result with e | ⟨⟩
  · exact abandons _ _
  · show (if st.drain.isDone = true then finish cfg st else poll st checked.2).Issues _
    split
    · exact finishes _
    · exact (poll_issues _ _).mono fun _ => loopCall_of_poll

theorem waitLoop_calls (cfg : WaitConfig) (drain : DrainState) (reactor : Reactor) :
    (waitLoop cfg drain reactor).Issues (LoopCall cfg) := by
  refine .bind (waitStep_calls cfg) fun result => ?_
  rcases result with e | status
  · refine .bind ((reactor_drop_issues _).mono fun _ => loopCall_of_poll) fun _ => ?_
    exact .bind ((drain_drop_issues _).mono fun _ => loopCall_of_poll) fun _ => trivial
  · exact .bind ((Program.issues_ask _ _).mpr trivial) fun _ => .iterate _ fun st => body_calls _ _ _

def isLoopCall : Call → Bool
  | .instantNow | .kill _ _ | .waitpid _ | .waitpidNoHang _ => true
  | c => isPollCall c

theorem isLoopCall_of_poll {c : Call} (poll : isPollCall c = true) : isLoopCall c = true := by
  cases c <;> first | rfl | exact poll

theorem isLoopCall_of_own {c : Call} (own : LoopCall cfg c) : isLoopCall c = true := by
  cases c <;> first | rfl | exact own

theorem body_issues (cfg : WaitConfig) (startTime : Nat) (st : LoopState) :
    (body cfg startTime st).Issues (isLoopCall · = true) :=
  (body_calls cfg startTime st).mono fun _ => isLoopCall_of_own

theorem waitLoop_issues (cfg : WaitConfig) (drain : DrainState) (reactor : Reactor) :
    (waitLoop cfg drain reactor).Issues (isLoopCall · = true) :=
  (waitLoop_calls cfg drain reactor).mono fun _ => isLoopCall_of_own

theorem unregistered_of_closed {epfd fd : Nat} (closed : DrainState.Closed fd t)
    (issued : ∀ e ∈ t, isLoopCall e.call = true) (start : Bool) : registered epfd fd start t = false := by
  have keeps : ∀ e : Event os, isLoopCall e.call = true → registeredBy epfd fd false e = false := by
    intro e issued
    obtain ⟨call, answer⟩ := e
    cases call
    case epollCtlAdd => cases issued
    case epollCtlDel => rcases answer with e | ⟨⟩ <;> rfl
    all_goals rfl
  have stays : ∀ t : Trace, (∀ e ∈ t, isLoopCall e.call = true) → registered epfd fd false t = false := by
    intro t issued
    induction t with
    | nil => rfl
    | cons e t ih =>
      show registered epfd fd (registeredBy epfd fd false e) t = false
      rw [keeps e (issued e (by simp))]
      exact ih fun e member => issued e (List.mem_cons_of_mem _ member)
  induction t generalizing start with
  | nil =>
    obtain ⟨e, member, _⟩ := closed
    cases member
  | cons e t ih =>
    have later := fun e member => issued e (List.mem_cons_of_mem _ member)
    obtain ⟨e', member, close⟩ := closed
    rcases List.mem_cons.mp member with rfl | member
    · have leaves : registeredBy epfd fd start e' = false := by
        obtain ⟨call, answer⟩ := e'
        cases close
        simp [registeredBy]
      show registered epfd fd (registeredBy epfd fd start e') t = false
      rw [leaves]
      exact stays t later
    · exact ih ⟨e', member, close⟩ later _

/-- A run of `wait_loop` that returns an output closed each stream after it had ended, deregistered
    it, and reaped the child once, with the status that it returns. -/
theorem waitLoop_completed {out : Output} (distinct : drain.Distinct)
    (run : Exec (waitLoop cfg drain reactor) t (.done (.ok out))) :
    (∀ s slot, drain.slotOf s = some slot →
      Guarded (DrainState.Ended drain.writer.rest s slot.fd.raw) (fun e => e.call = .close slot.fd.raw) t ∧
        DrainState.Closed slot.fd.raw t ∧ DrainState.Deregistered reactor.epfd slot.fd.raw t ∧
        ∀ start, registered reactor.epfd slot.fd.raw start t = false) ∧
      ∃ status, statuses cfg.pid t = [status] ∧ out.status = some (decodeStatus status) := by
  have issued := (run.issues (waitLoop_issues _ _ _)).1
  rcases exec_waitLoop run with ⟨_, impossible, _⟩ | ⟨t₁, t₂, e, rfl, step, rest⟩ | ⟨_, impossible, _⟩ |
    ⟨startTime, t₁, t₂, st, rfl, head, ⟨_, impossible, _⟩ | ⟨result, same, last⟩⟩
  · cases impossible
  · obtain ⟨_, _, _, _, _, rest⟩ := exec_bind_done.mp rest
    obtain ⟨_, _, _, _, _, rest⟩ := exec_bind_done.mp rest
    cases ((exec_pure_iff _ _ _).mp rest).2
  · cases impossible
  · cases impossible
  cases same
  obtain ⟨done, s, status, reported⟩ := (exec_body last).completed
  refine ⟨fun stream slot begun => ?_, ?_⟩
  · have empty : st.drain.slotOf stream = none := by
      simp only [DrainState.isDone, Bool.and_eq_true, Option.isNone_iff_eq_none] at done
      cases stream with
      | stdin => exact done.1.1
      | stdout => exact done.1.2
      | stderr => exact done.2
    have settled := (head.draining distinct).1.settled
    obtain ⟨ended, deregistered, closed⟩ := settled.gone stream slot begun empty
    refine ⟨?_, closed.mono t₂, deregistered.mono t₂, unregistered_of_closed (closed.mono t₂) issued⟩
    exact guarded_append.mpr ⟨settled.guarded stream slot begun, guarded_of_ready ended.mono⟩
  · have all : decoded cfg.pid (t₁ ++ t₂) = [s] := by
      rw [decoded_append, head.decoded, reported]
    obtain ⟨code, same, rfl⟩ := List.map_eq_singleton_iff.mp all
    exact ⟨code, same, status⟩

def twoPipes : DrainState :=
  { stdoutSlot := some ⟨some ⟨2⟩, ⟨5⟩⟩
    stderrSlot := none
    stdinSlot := some ⟨some ⟨1⟩, ⟨4⟩⟩
    buffer := .new 4
    writer := .new (some [7])
    earlyExit := false }

theorem twoPipes_distinct : twoPipes.Distinct := by
  intro s s' slot slot' filled filled' same
  cases s <;> cases s' <;> cases filled <;> cases filled' <;> first | rfl | cases same

theorem room_for_events : 0 + 64 ≤ 64 := by
  decide

theorem waitLoop_completed_twoPipes :
    ∃ t out, Exec (waitLoop ⟨42, none, 0, .kill, ⟨none, false⟩⟩ twoPipes ⟨3, 3, ⟨[], 64⟩, none, none, none⟩) t
        (.done (.ok out)) ∧ out.stdout = [1] ∧ out.status = some (.exited 0) ∧ statuses 42 t = [0] ∧
      Guarded (DrainState.Ended [7] .stdin 4) (fun e => e.call = .close 4) t := by
  have run : Exec (waitLoop ⟨42, none, 0, .kill, ⟨none, false⟩⟩ twoPipes ⟨3, 3, ⟨[], 64⟩, none, none, none⟩)
      [⟨.waitpidNoHang 42, .ok none⟩, ⟨.instantNow, (5 : Nat)⟩, ⟨.waitpidNoHang 42, .ok none⟩,
        ⟨.reserve 0 0 64, ⟨64, by decide⟩⟩,
        ⟨.epollWait 3 64 (-1), .ok ⟨[⟨0x011, 2⟩, ⟨0x004, 9⟩, ⟨0x004, 1⟩], by decide⟩⟩,
        ⟨.read 5 4, .ok ⟨[1], by decide⟩⟩, ⟨.read 5 3, .ok ⟨[], by decide⟩⟩,
        ⟨.epollCtlDel 3 5, .ok ()⟩, ⟨.close 5, .ok ()⟩,
        ⟨.write 4 [7], .ok ⟨1, by decide⟩⟩, ⟨.epollCtlDel 3 4, .ok ()⟩, ⟨.close 4, .ok ()⟩,
        ⟨.waitpidNoHang 42, .error EINTR⟩, ⟨.waitpidNoHang 42, .ok (some 0)⟩, ⟨.close 3, .ok ()⟩]
      (.done (.ok ⟨42, some (.exited 0), [1], [], false⟩)) := .of_replay 4 rfl
  obtain ⟨streams, status, reported, same⟩ := waitLoop_completed twoPipes_distinct run
  exact ⟨_, _, run, rfl, rfl, rfl, (streams .stdin _ rfl).1⟩

end WaitLoop

end CoreShift
