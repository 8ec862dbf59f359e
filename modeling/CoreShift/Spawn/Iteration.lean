import CoreShift.Interaction.Unique
import CoreShift.Io.Handlers
import CoreShift.Spawn.WaitLoop

namespace CoreShift

open Interaction

namespace WaitLoop

def target (cfg : WaitConfig) : Int := if targetIsGroup cfg then -cfg.pid else cfg.pid

def dueSignal (cfg : WaitConfig) (state : KillState) (overdue : Nat) : Option Int :=
  match state with
  | .none =>
    match cfg.cancel with
    | .none => none
    | .graceful => some SIGTERM
    | .kill => some SIGKILL
  | .termSent => if cfg.killGraceMs.toNat < overdue then some SIGKILL else none
  | .killSent => none

def due (cfg : WaitConfig) (startTime : Nat) (state : KillState) (now : Nat) : Option Int :=
  match cfg.timeoutMs with
  | none => none
  | some ms =>
    if fromMillis ms.toNat ≤ now - startTime then
      dueSignal cfg state (asMillis (now - startTime - fromMillis ms.toNat))
    else none

/-- A SIGTERM that cannot be sent counts as the last step of the escalation. -/
def afterSignal (sig : Int) (answer : Except Errno Unit) : KillState :=
  if sig = SIGTERM then
    match answer with
    | .ok () => .termSent
    | .error e => if e = ESRCH then .termSent else .killSent
  else .killSent

theorem signal_eq (cfg : WaitConfig) (sig : Int) : ∃ op, signal cfg sig = Process.signalTo (target cfg) op sig := by
  unfold signal target
  by_cases group : targetIsGroup cfg = true
  · rw [if_pos group, if_pos group]
    exact ⟨"kill_pgroup", rfl⟩
  · rw [if_neg group, if_neg group]
    exact ⟨"kill", rfl⟩

theorem exec_signal {cfg : WaitConfig} {sig : Int} {t : Trace} {o} (run : Exec (signal cfg sig) t o) :
    Process.Signaled (target cfg) sig t o := by
  obtain ⟨op, same⟩ := signal_eq cfg sig
  rw [same] at run
  exact Process.exec_signalTo run

theorem exec_signal_answer (cfg : WaitConfig) (sig : Int) (answer : Except Errno Unit) :
    ∃ result, Exec (signal cfg sig) [⟨.kill (target cfg) sig, answer⟩] (.done result) ∧
      (result = .ok () ↔ ∀ e, answer = .error e → e = ESRCH) := by
  obtain ⟨op, same⟩ := signal_eq cfg sig
  rw [same]
  rcases answer with e | ⟨⟩
  · refine ⟨if e = ESRCH then .ok () else .error (.sys e op), .asked ?_, ?_⟩
    · exact .ret _
    · by_cases gone : e = ESRCH <;> simp [gone]
  · refine ⟨.ok (), .asked ?_, by simp⟩
    exact .ret _

inductive Deadline (cfg : WaitConfig) (startTime : Nat) (st : LoopState) :
    Trace → Outcome os (LoopState × Int) → Prop where
  | unlimited (unlimited : cfg.timeoutMs = none) : Deadline cfg startTime st [] (.done (st, -1))
  | clock {ms : UInt32} (limited : cfg.timeoutMs = some ms) :
      Deadline cfg startTime st [] (.waiting .instantNow)
  | early {ms : UInt32} (limited : cfg.timeoutMs = some ms) (now : Nat)
      (before : now - startTime < fromMillis ms.toNat) :
      Deadline cfg startTime st [⟨.instantNow, now⟩]
        (.done (st, Reactor.asI32 (min (asMillis (fromMillis ms.toNat - (now - startTime))) I32_MAX)))
  | late {ms : UInt32} (limited : cfg.timeoutMs = some ms) (now : Nat)
      (passed : fromMillis ms.toNat ≤ now - startTime) (silent : due cfg startTime st.state now = none) :
      Deadline cfg startTime st [⟨.instantNow, now⟩] (.done ({ st with timedOut := true }, 100))
  | signaling (now : Nat) {sig : Int} (sends : due cfg startTime st.state now = some sig) :
      Deadline cfg startTime st [⟨.instantNow, now⟩] (.waiting (.kill (target cfg) sig))
  | signaled (now : Nat) {sig : Int} (sends : due cfg startTime st.state now = some sig)
      (answer : Except Errno Unit) :
      Deadline cfg startTime st [⟨.instantNow, now⟩, ⟨.kill (target cfg) sig, answer⟩]
        (.done ({ st with timedOut := true, state := afterSignal sig answer }, 100))

def afterReading (cfg : WaitConfig) (startTime : Nat) (st : LoopState) (ms : UInt32) (now : Nat) :
    Prog (LoopState × Int) :=
  match due cfg startTime st.state now with
  | some sig => do
    let result ← signal cfg sig
    let state := if sig = SIGTERM ∧ result = .ok () then .termSent else .killSent
    return ({ st with timedOut := true, state }, 100)
  | none =>
    if fromMillis ms.toNat ≤ now - startTime then return ({ st with timedOut := true }, 100)
    else
      return (st, Reactor.asI32 (min (asMillis (fromMillis ms.toNat - (now - startTime))) I32_MAX))

theorem due_limited {cfg : WaitConfig} {ms : UInt32} (limited : cfg.timeoutMs = some ms) (startTime : Nat)
    (state : KillState) (now : Nat) :
    due cfg startTime state now =
      if fromMillis ms.toNat ≤ now - startTime then
        dueSignal cfg state (asMillis (now - startTime - fromMillis ms.toNat))
      else none := by
  simp only [due, limited]

theorem checkDeadline_eq {cfg : WaitConfig} (startTime : Nat) (st : LoopState) {ms : UInt32}
    (limited : cfg.timeoutMs = some ms) :
    checkDeadline cfg startTime st = (ask .instantNow >>= fun now => afterReading cfg startTime st ms now) := by
  have killed : ∀ result : Except SysError Unit,
      (if SIGKILL = SIGTERM ∧ result = .ok () then KillState.termSent else .killSent) = .killSent :=
    fun _ => if_neg fun both => absurd both.1 (by decide)
  unfold checkDeadline
  simp only [limited]
  congr 1
  funext now
  unfold afterReading
  rw [due_limited limited]
  -- the kernel must not compute with the factor of a million
  generalize fromMillis ms.toNat = deadline
  by_cases passed : deadline ≤ now - startTime
  · simp only [passed, ↓reduceIte]
    generalize asMillis (now - startTime - deadline) = overdue
    cases state : st.state with
    | none =>
      cases policy : cfg.cancel with
      | none => simp only [reduceCtorEq, ↓reduceIte, dueSignal, policy, ← state]
      | graceful =>
        simp only [↓reduceIte, dueSignal, policy]
        congr 1
        funext result
        rcases result with e | ⟨⟩
        · simp
        · simp
      | kill => simp only [reduceCtorEq, ↓reduceIte, dueSignal, policy, killed]
    | termSent =>
      by_cases grace : cfg.killGraceMs.toNat < overdue
      · have sends : dueSignal cfg .termSent overdue = some SIGKILL := if_pos grace
        simp only [grace, ↓reduceIte, sends, killed]
      · have silent : dueSignal cfg .termSent overdue = none := if_neg grace
        simp only [grace, ↓reduceIte, silent]
    | killSent => simp only [dueSignal, ← state]
  · simp only [passed, ↓reduceIte]

theorem afterSignal_eq (sig : Int) {answer : Except Errno Unit} {result : Except SysError Unit}
    (sent : result = .ok () ↔ ∀ e, answer = .error e → e = ESRCH) :
    (if sig = SIGTERM ∧ result = .ok () then KillState.termSent else .killSent) = afterSignal sig answer := by
  by_cases terminate : sig = SIGTERM
  · rcases answer with e | ⟨⟩
    · by_cases gone : e = ESRCH <;> simp [afterSignal, terminate, sent, gone]
    · simp [afterSignal, terminate, sent]
  · simp [afterSignal, terminate]

theorem exec_checkDeadline {cfg : WaitConfig} {startTime : Nat} {st : LoopState} {t : Trace} {o}
    (run : Exec (checkDeadline cfg startTime st) t o) : Deadline cfg startTime st t o := by
  cases limited : cfg.timeoutMs with
  | none =>
    simp only [checkDeadline, limited, exec_pure_iff] at run
    obtain ⟨rfl, rfl⟩ := run
    exact .unlimited limited
  | some ms =>
    rw [checkDeadline_eq startTime st limited] at run
    rcases exec_bind_cases run with ⟨c, rfl, stopped⟩ | ⟨first, now, second, rfl, asked, rest⟩
    · obtain ⟨rfl, rfl⟩ := (exec_ask_waiting _ _ _).mp stopped
      exact .clock limited
    rw [exec_ask_done] at asked
    subst asked
    cases sends : due cfg startTime st.state now with
    | none =>
      simp only [afterReading, sends] at rest
      split at rest
      · obtain ⟨rfl, rfl⟩ := (exec_pure_iff _ _ _).mp rest
        exact .late limited now ‹_› sends
      · obtain ⟨rfl, rfl⟩ := (exec_pure_iff _ _ _).mp rest
        exact .early limited now (Nat.lt_of_not_le ‹_›)
    | some sig =>
      simp only [afterReading, sends] at rest
      rcases exec_bind_cases rest with ⟨c, rfl, stopped⟩ | ⟨first, result, second, rfl, sent, rest⟩
      · cases exec_signal stopped with
        | waiting => exact .signaling now sends
      · obtain ⟨rfl, rfl⟩ := (exec_pure_iff _ _ _).mp rest
        have finished := fun answer => Deadline.signaled now sends answer
        cases exec_signal sent with
        | delivered answer gone =>
          rw [afterSignal_eq sig (by simpa using gone)]
          exact finished answer
        | refused e other op =>
          have refused : ¬∀ e', (Except.error e : Except Errno Unit) = .error e' → e' = ESRCH :=
            fun gone => other (gone e rfl)
          rw [afterSignal_eq sig (iff_of_false (by simp) refused)]
          exact finished (.error e)

theorem exec_due {cfg : WaitConfig} {startTime now : Nat} {st : LoopState} {sig : Int}
    (sends : due cfg startTime st.state now = some sig) :
    Exec (body cfg startTime st) [⟨.instantNow, now⟩] (.waiting (.kill (target cfg) sig)) := by
  have signals : Exec (signal cfg sig) [] (.waiting (.kill (target cfg) sig)) := by
    obtain ⟨op, same⟩ := signal_eq cfg sig
    rw [same]
    exact .bind_waiting (.waiting _ _)
  cases limited : cfg.timeoutMs with
  | none => simp [due, limited] at sends
  | some ms =>
    apply Exec.bind_waiting
    rw [checkDeadline_eq startTime st limited]
    apply Exec.asked
    simp only [afterReading, sends]
    exact signals.bind_waiting

theorem exec_signaled {cfg : WaitConfig} {startTime now : Nat} {st : LoopState} {sig : Int}
    (sends : due cfg startTime st.state now = some sig) (answer : Except Errno Unit) :
    Exec (checkDeadline cfg startTime st) [⟨.instantNow, now⟩, ⟨.kill (target cfg) sig, answer⟩]
      (.done ({ st with timedOut := true, state := afterSignal sig answer }, 100)) := by
  obtain ⟨result, sent, same⟩ := exec_signal_answer cfg sig answer
  cases limited : cfg.timeoutMs with
  | none => simp [due, limited] at sends
  | some ms =>
    rw [checkDeadline_eq startTime st limited]
    apply Exec.asked
    simp only [afterReading, sends]
    rw [← afterSignal_eq sig same]
    exact sent.bind_done (.ret _)

theorem exec_early {cfg : WaitConfig} {startTime now : Nat} (st : LoopState) {ms : UInt32}
    (limited : cfg.timeoutMs = some ms) (before : now - startTime < fromMillis ms.toNat) :
    Exec (checkDeadline cfg startTime st) [⟨.instantNow, now⟩]
      (.done (st, Reactor.asI32 (min (asMillis (fromMillis ms.toNat - (now - startTime))) I32_MAX))) := by
  have silent : due cfg startTime st.state now = none := by
    rw [due_limited limited, if_neg (Nat.not_le_of_lt before)]
  rw [checkDeadline_eq startTime st limited]
  apply Exec.asked
  simp only [afterReading, silent]
  rw [if_neg (Nat.not_le_of_lt before)]
  exact .ret _

def fetched {maxEvents : Nat} : Except Errno { events : List EpollEvent // events.length ≤ maxEvents } → List EpollEvent
  | .ok ready => ready.val
  | .error _ => []

theorem exec_reserveFor {α : Type} {v w : RoomyVec α} {max : Nat} {t : Trace}
    (run : Exec (v.reserveFor max) t (.done w)) :
    w.items = v.items ∧ ∀ e ∈ t, ∃ len capacity additional, e.call = .reserve len capacity additional := by
  unfold RoomyVec.reserveFor at run
  split at run
  · obtain ⟨asked, capacity, returned, same, reserved, rest⟩ := exec_bind_done.mp run
    rw [exec_ask_done] at reserved
    obtain ⟨none, result⟩ := (exec_pure_iff _ _ _).mp rest
    cases result
    rw [same, reserved, none]
    exact ⟨rfl, fun e member => ⟨_, _, _, congrArg Event.call (List.mem_singleton.mp member)⟩⟩
  · obtain ⟨none, result⟩ := (exec_pure_iff _ _ _).mp run
    cases result
    rw [none]
    exact ⟨rfl, by simp⟩

theorem exec_wait_fetched {reactor reactor' : Reactor} {buffer events : RoomyVec Reactor.Event} {maxEvents n : Nat}
    {timeout : Int} {t : Trace} (some : maxEvents ≠ 0)
    (run : Exec (reactor.wait buffer maxEvents timeout) t (.done (reactor', events, .ok n))) :
    ∃ reserves answer, t = reserves ++ [⟨.epollWait reactor.epfd (Reactor.asI32 maxEvents) timeout, answer⟩] ∧
      (∀ e ∈ reserves, ∃ len capacity additional, e.call = .reserve len capacity additional) ∧
      reactor'.epfd = reactor.epfd ∧ events.items = (fetched answer).map Reactor.translate ∧
      n = (fetched answer).length := by
  simp only [Reactor.wait, some, ↓reduceIte] at run
  obtain ⟨t₁, given, _, rfl, reserved, run⟩ := exec_bind_done.mp run
  obtain ⟨t₂, raw, _, rfl, reserved', run⟩ := exec_bind_done.mp run
  obtain ⟨t₃, answer, t₄, rfl, waited, rest⟩ := exec_bind_done.mp run
  rw [exec_ask_done] at waited
  have nothing : given.items = [] := (exec_reserveFor reserved).1
  have made : ∀ e ∈ t₁ ++ t₂, ∃ len capacity additional, e.call = .reserve len capacity additional :=
    List.forall_mem_append.mpr ⟨(exec_reserveFor reserved).2, (exec_reserveFor reserved').2⟩
  have whole : ∀ u : Trace, u = [] → t₁ ++ (t₂ ++ (t₃ ++ u)) =
      t₁ ++ t₂ ++ [⟨.epollWait reactor.epfd (Reactor.asI32 maxEvents) timeout, answer⟩] := by
    intro u none
    rw [none, waited, List.append_nil, List.append_assoc]
  rcases answer with e | ready
  · simp only at rest
    split at rest
    · obtain ⟨none, result⟩ := (exec_pure_iff _ _ _).mp rest
      cases result
      exact ⟨t₁ ++ t₂, _, whole t₄ none, made, rfl, nothing, rfl⟩
    · cases ((exec_pure_iff _ _ _).mp rest).2
  · simp only at rest
    split at rest
    · obtain ⟨none, result⟩ := (exec_pure_iff _ _ _).mp rest
      cases result
      refine ⟨t₁ ++ t₂, _, whole t₄ none, made, rfl, ?_, rfl⟩
      rw [nothing]
      rfl
    · obtain ⟨none, result⟩ := (exec_pure_iff _ _ _).mp rest
      cases result
      have empty : ready.val = [] := List.length_eq_zero_iff.mp (by omega)
      refine ⟨t₁ ++ t₂, _, whole t₄ none, made, rfl, ?_, ?_⟩
      · simp [fetched, nothing, empty]
      · simp [fetched, empty]

theorem exec_wait_ok {reactor reactor' : Reactor} {buffer events : RoomyVec Reactor.Event} {maxEvents n : Nat}
    {timeout : Int} {t : Trace} (run : Exec (reactor.wait buffer maxEvents timeout) t
      (.done (reactor', events, .ok n))) :
    reactor'.epfd = reactor.epfd ∧ ∀ ev ∈ events.items, ∃ raw, ev = Reactor.translate raw := by
  by_cases none : maxEvents = 0
  · simp only [Reactor.wait, none, ↓reduceIte, exec_pure_iff, Outcome.done.injEq, Prod.mk.injEq] at run
    obtain ⟨-, rfl, rfl, -⟩ := run
    exact ⟨rfl, by simp⟩
  · obtain ⟨_, answer, _, _, same, items, _⟩ := exec_wait_fetched none run
    refine ⟨same, fun ev member => ?_⟩
    rw [items] at member
    obtain ⟨raw, _, translated⟩ := List.mem_map.mp member
    exact ⟨raw, translated.symm⟩

inductive Collected (cfg : WaitConfig) (st : LoopState) :
    Trace → Outcome os (LoopState × Except SysError Unit) → Prop where
  | already {s : ExitStatus} (present : st.statusRaw = some s) : Collected cfg st [] (.done (st, .ok ()))
  | waiting {t : Trace} {c : Call} (missing : st.statusRaw = none)
      (step : Process.Stepped cfg.pid t (.waiting c)) : Collected cfg st t (.waiting c)
  | running {t : Trace} (missing : st.statusRaw = none) (step : Process.Stepped cfg.pid t (.done (.ok none))) :
      Collected cfg st t (.done (st, .ok ()))
  | reaped {t : Trace} {s : ExitStatus} (missing : st.statusRaw = none)
      (step : Process.Stepped cfg.pid t (.done (.ok (some s)))) :
      Collected cfg st t (.done ({ st with statusRaw := some s }, .ok ()))
  | failed {t : Trace} {e : SysError} (missing : st.statusRaw = none)
      (step : Process.Stepped cfg.pid t (.done (.error e))) : Collected cfg st t (.done (st, .error e))

theorem exec_collectStatus {cfg : WaitConfig} {st : LoopState} {t : Trace} {o}
    (run : Exec (collectStatus cfg st) t o) : Collected cfg st t o := by
  unfold collectStatus at run
  split at run
  · rename_i present
    obtain ⟨rfl, rfl⟩ := (exec_pure_iff _ _ _).mp run
    exact .already present
  · rename_i missing
    rcases exec_bind_cases run with ⟨c, rfl, stopped⟩ | ⟨first, result, second, rfl, stepped, rest⟩
    · exact .waiting missing (Process.exec_waitStep stopped)
    · have step := Process.exec_waitStep stepped
      rcases result with e | _ | s <;> obtain ⟨rfl, rfl⟩ := (exec_pure_iff _ _ _).mp rest <;>
        rw [List.append_nil]
      · exact .failed missing step
      · exact .running missing step
      · exact .reaped missing step

theorem Collected.calls {cfg : WaitConfig} {st : LoopState} {t : Trace} {o} (collect : Collected cfg st t o) :
    ∀ e ∈ t, e.call = .waitpidNoHang cfg.pid := by
  cases collect with
  | already => simp
  | waiting _ step | running _ step | reaped _ step | failed _ step => exact step.calls

inductive Finished (cfg : WaitConfig) (st : LoopState) :
    Trace → Outcome os (LoopState ⊕ Except SysError Output) → Prop where
  | present {t : Trace} {o} {s : ExitStatus} (present : st.statusRaw = some s)
      (delivered : Exec (deliver cfg st s) t o) : Finished cfg st t o
  | waiting {t : Trace} {c : Call} (missing : st.statusRaw = none)
      (wait : Process.Blocked cfg.pid t (.waiting c)) : Finished cfg st t (.waiting c)
  | waited {t t' : Trace} {o} {s : ExitStatus} (missing : st.statusRaw = none)
      (wait : Process.Blocked cfg.pid t (.done (.ok s))) (delivered : Exec (deliver cfg st s) t' o) :
      Finished cfg st (t ++ t') o
  | failed {t t' : Trace} {o} {e : SysError} (missing : st.statusRaw = none)
      (wait : Process.Blocked cfg.pid t (.done (.error e))) (abandoned : Exec (abandon st e) t' o) :
      Finished cfg st (t ++ t') o

theorem exec_finish {cfg : WaitConfig} {st : LoopState} {t : Trace} {o} (run : Exec (finish cfg st) t o) :
    Finished cfg st t o := by
  unfold finish at run
  split at run
  · rename_i s present
    exact .present present run
  · rename_i missing
    rcases exec_bind_cases run with ⟨c, rfl, stopped⟩ | ⟨first, result, second, rfl, waited, rest⟩
    · exact .waiting missing (Process.exec_waitBlocking stopped)
    · have wait := Process.exec_waitBlocking waited
      rcases result with e | s
      · exact .failed missing wait rest
      · exact .waited missing wait rest

def isWaitCall : Call → Bool
  | .epollWait _ _ _ | .reserve _ _ _ => true
  | _ => false

def isPollCall (c : Call) : Bool := isWaitCall c || isDrainCall c

theorem isPollCall_of_wait {c : Call} (wait : isWaitCall c = true) : isPollCall c = true := by
  simp [isPollCall, wait]

theorem isPollCall_of_drain {c : Call} (drain : isDrainCall c = true) : isPollCall c = true := by
  simp [isPollCall, drain]

theorem reactor_drop_issues (reactor : Reactor) : reactor.drop.Issues (isPollCall · = true) := by
  refine .bind ((Program.issues_ask _ _).mpr rfl) fun _ => ?_
  unfold dropFd
  split
  · trivial
  · exact .bind ((Program.issues_ask _ _).mpr rfl) fun _ => trivial

theorem drain_drop_issues (drain : DrainState) : drain.drop.Issues (isPollCall · = true) :=
  (DrainState.drop_issues drain).mono fun _ => isPollCall_of_drain

theorem abandon_issues (st : LoopState) (e : SysError) : (abandon st e).Issues (isPollCall · = true) :=
  .bind (reactor_drop_issues _) fun _ => .bind (drain_drop_issues _) fun _ => trivial

theorem releaseAll_issues (reactor : Reactor) (slots : List FdSlot) :
    (releaseAll reactor slots).Issues (isPollCall · = true) := by
  induction slots with
  | nil => trivial
  | cons slot rest ih =>
    exact .bind ((DrainState.release_issues _ _).mono fun _ => isPollCall_of_drain) fun _ => ih

theorem deliver_issues (cfg : WaitConfig) (st : LoopState) (s : ExitStatus) :
    (deliver cfg st s).Issues (isPollCall · = true) :=
  .bind (releaseAll_issues _ _) fun _ =>
    .bind (.bind (drain_drop_issues _) fun _ => trivial) fun _ =>
      .bind (reactor_drop_issues _) fun _ => trivial

theorem handleEvent_issues (reactor : Reactor) (drain : DrainState) (ev : Reactor.Event) :
    (handleEvent reactor drain ev).Issues (isDrainCall · = true) := by
  unfold handleEvent
  split
  · split
    · exact DrainState.handleOutReady_issues _ _ _
    · split
      · exact .bind (DrainState.dropOut_issues _ _ _) fun _ => trivial
      · trivial
  · split
    · split
      · exact DrainState.handleOutReady_issues _ _ _
      · split
        · exact .bind (DrainState.dropOut_issues _ _ _) fun _ => trivial
        · trivial
    · split
      · split
        · exact DrainState.handleStdinWritable_issues _ _
        · split
          · exact .bind (DrainState.dropStdin_issues _ _) fun _ => trivial
          · trivial
      · trivial

theorem dispatch_issues (reactor : Reactor) (drain : DrainState) (events : List Reactor.Event) :
    (dispatch reactor drain events).Issues (isDrainCall · = true) := by
  induction events generalizing drain with
  | nil => trivial
  | cons ev rest ih =>
    refine .bind (handleEvent_issues _ _ _) fun answer => ?_
    obtain ⟨drain, result⟩ := answer
    rcases result with e | ⟨⟩
    · trivial
    · exact ih drain

theorem reserveFor_issues {α : Type} (v : RoomyVec α) (max : Nat) :
    (v.reserveFor max).Issues (isWaitCall · = true) := by
  unfold RoomyVec.reserveFor
  split
  · exact .bind ((Program.issues_ask _ _).mpr rfl) fun _ => trivial
  · trivial

theorem wait_issues (reactor : Reactor) (buffer : RoomyVec Reactor.Event) (maxEvents : Nat) (timeout : Int) :
    (reactor.wait buffer maxEvents timeout).Issues (isWaitCall · = true) := by
  by_cases none : maxEvents = 0
  · simp only [Reactor.wait, none, ↓reduceIte]
    trivial
  · simp only [Reactor.wait, none, ↓reduceIte]
    refine .bind (reserveFor_issues _ _) fun _ => .bind (reserveFor_issues _ _) fun _ =>
      .bind ((Program.issues_ask _ _).mpr rfl) fun answer => ?_
    split
    · split <;> trivial
    · split <;> trivial

theorem poll_issues (st : LoopState) (pollTimeout : Int) :
    (poll st pollTimeout).Issues (isPollCall · = true) := by
  refine .bind ((wait_issues _ _ _ _).mono fun _ => isPollCall_of_wait) fun answer => ?_
  obtain ⟨reactor, events, result⟩ := answer
  rcases result with e | nevents
  · exact abandon_issues _ _
  · refine .bind ((dispatch_issues _ _ _).mono fun _ => isPollCall_of_drain) fun answer => ?_
    obtain ⟨drain, result⟩ := answer
    rcases result with e | ⟨⟩
    · exact abandon_issues _ _
    · trivial

theorem abandon_leaves (st st' : LoopState) (e : SysError) (t : Trace) :
    ¬Exec (abandon st e) t (.done (.inl st')) := by
  intro run
  obtain ⟨_, _, _, _, _, rest⟩ := exec_bind_done.mp run
  obtain ⟨_, _, _, _, _, rest⟩ := exec_bind_done.mp rest
  cases ((exec_pure_iff _ _ _).mp rest).2

theorem deliver_leaves (cfg : WaitConfig) (st st' : LoopState) (s : ExitStatus) (t : Trace) :
    ¬Exec (deliver cfg st s) t (.done (.inl st')) := by
  intro run
  obtain ⟨_, _, _, _, _, rest⟩ := exec_bind_done.mp run
  obtain ⟨_, _, _, _, _, rest⟩ := exec_bind_done.mp rest
  obtain ⟨_, _, _, _, _, rest⟩ := exec_bind_done.mp rest
  cases ((exec_pure_iff _ _ _).mp rest).2

theorem exec_poll_next {st st' : LoopState} {pollTimeout : Int} {t : Trace}
    (run : Exec (poll st pollTimeout) t (.done (.inl st'))) :
    ∃ t₁ t₂ reactor events n drain, t = t₁ ++ t₂ ∧
      Exec (st.reactor.wait ⟨[], 0⟩ 64 (waitTimeout st.statusRaw pollTimeout)) t₁
        (.done (reactor, events, .ok n)) ∧
      Exec (dispatch reactor st.drain (events.items.take n)) t₂ (.done (drain, .ok ())) ∧
      st' = { st with reactor, drain } := by
  obtain ⟨t₁, ⟨reactor, events, result⟩, t₂, rfl, waited, rest⟩ := exec_bind_done.mp run
  rcases result with e | n
  · exact absurd rest (abandon_leaves _ _ _ _)
  obtain ⟨t₂, ⟨drain, result⟩, t₃, rfl, dispatched, rest⟩ := exec_bind_done.mp rest
  rcases result with e | ⟨⟩
  · exact absurd rest (abandon_leaves _ _ _ _)
  obtain ⟨rfl, same⟩ := (exec_pure_iff _ _ _).mp rest
  cases same
  exact ⟨t₁, t₂, reactor, events, n, drain, by simp, waited, dispatched, rfl⟩

inductive Iteration (cfg : WaitConfig) (startTime : Nat) (st : LoopState) :
    Trace → Outcome os (LoopState ⊕ Except SysError Output) → Prop where
  | checking {t : Trace} {c : Call} (check : Deadline cfg startTime st t (.waiting c)) :
      Iteration cfg startTime st t (.waiting c)
  | collecting {t t' : Trace} {c : Call} {checked : LoopState} {poll : Int}
      (check : Deadline cfg startTime st t (.done (checked, poll)))
      (collect : Collected cfg checked t' (.waiting c)) : Iteration cfg startTime st (t ++ t') (.waiting c)
  | abandoning {t t' t'' : Trace} {o} {checked collected : LoopState} {poll : Int} {e : SysError}
      (check : Deadline cfg startTime st t (.done (checked, poll)))
      (collect : Collected cfg checked t' (.done (collected, .error e)))
      (abandoned : Exec (abandon collected e) t'' o) : Iteration cfg startTime st (t ++ (t' ++ t'')) o
  | finishing {t t' t'' : Trace} {o} {checked collected : LoopState} {poll : Int}
      (check : Deadline cfg startTime st t (.done (checked, poll)))
      (collect : Collected cfg checked t' (.done (collected, .ok ())))
      (drained : collected.drain.isDone = true) (finished : Exec (finish cfg collected) t'' o) :
      Iteration cfg startTime st (t ++ (t' ++ t'')) o
  | polling {t t' t'' : Trace} {o} {checked collected : LoopState} {timeout : Int}
      (check : Deadline cfg startTime st t (.done (checked, timeout)))
      (collect : Collected cfg checked t' (.done (collected, .ok ())))
      (pending : collected.drain.isDone = false) (polled : Exec (poll collected timeout) t'' o) :
      Iteration cfg startTime st (t ++ (t' ++ t'')) o

theorem exec_body {cfg : WaitConfig} {startTime : Nat} {st : LoopState} {t : Trace} {o}
    (run : Exec (body cfg startTime st) t o) : Iteration cfg startTime st t o := by
  rcases exec_bind_cases run with ⟨c, rfl, stopped⟩ | ⟨first, ⟨checked, timeout⟩, second, rfl, check, run⟩
  · exact .checking (exec_checkDeadline stopped)
  have check := exec_checkDeadline check
  rcases exec_bind_cases run with ⟨c, rfl, stopped⟩ | ⟨second, ⟨collected, result⟩, third, rfl, collect, run⟩
  · exact .collecting check (exec_collectStatus stopped)
  have collect := exec_collectStatus collect
  rcases result with e | ⟨⟩
  · exact .abandoning check collect run
  · by_cases drained : collected.drain.isDone = true
    · simp only [drained, ↓reduceIte] at run
      exact .finishing check collect drained run
    · simp only [drained, Bool.false_eq_true, ↓reduceIte] at run
      exact .polling check collect (Bool.eq_false_iff.mpr drained) run

theorem Iteration.polled {cfg : WaitConfig} {startTime : Nat} {st st' : LoopState} {t : Trace}
    (iteration : Iteration cfg startTime st t (.done (.inl st'))) :
    ∃ t₁ t₂ t₃ checked collected timeout, t = t₁ ++ (t₂ ++ t₃) ∧
      Deadline cfg startTime st t₁ (.done (checked, timeout)) ∧
      Collected cfg checked t₂ (.done (collected, .ok ())) ∧ collected.drain.isDone = false ∧
      Exec (poll collected timeout) t₃ (.done (.inl st')) := by
  cases iteration with
  | abandoning check collect abandoned => exact absurd abandoned (abandon_leaves _ _ _ _)
  | finishing check collect drained finished =>
    cases exec_finish finished with
    | present present delivered => exact absurd delivered (deliver_leaves _ _ _ _ _)
    | waited missing wait delivered => exact absurd delivered (deliver_leaves _ _ _ _ _)
    | failed missing wait abandoned => exact absurd abandoned (abandon_leaves _ _ _ _)
  | polling check collect pending polled => exact ⟨_, _, _, _, _, _, rfl, check, collect, pending, polled⟩

/-- `Head cfg drain reactor startTime t st`: after the exchanges `t` a call of `wait_loop` stands at
    the head of an iteration, with the variables `st`. -/
inductive Head (cfg : WaitConfig) (drain : DrainState) (reactor : Reactor) (startTime : Nat) :
    Trace → LoopState → Prop where
  | start {t : Trace} {statusRaw : Option ExitStatus}
      (step : Exec (Process.mk cfg.pid).waitStep t (.done (.ok statusRaw))) :
      Head cfg drain reactor startTime (t ++ [⟨.instantNow, startTime⟩])
        { drain, reactor, statusRaw, state := .none, timedOut := false }
  | next {t t' : Trace} {st st' : LoopState} (before : Head cfg drain reactor startTime t st)
      (round : Exec (body cfg startTime st) t' (.done (.inl st'))) :
      Head cfg drain reactor startTime (t ++ t') st'

theorem Head.rounds {cfg : WaitConfig} {drain : DrainState} {reactor : Reactor} {startTime : Nat}
    {t t' : Trace} {st st' : LoopState} (head : Head cfg drain reactor startTime t st)
    (rounds : Iterates (body cfg startTime) st t' st') : Head cfg drain reactor startTime (t ++ t') st' := by
  induction rounds with
  | start => simpa using head
  | next _ round ih =>
    rw [← List.append_assoc]
    exact ih.next round

theorem Head.waiting {cfg : WaitConfig} {drain : DrainState} {reactor : Reactor} {startTime : Nat}
    {t t' : Trace} {st : LoopState} {c : Call} (head : Head cfg drain reactor startTime t st)
    (stopped : Exec (body cfg startTime st) t' (.waiting c)) :
    Exec (waitLoop cfg drain reactor) (t ++ t') (.waiting c) := by
  have looped : Exec (iterate (body cfg startTime) st) t' (.waiting c) := .inside stopped
  clear stopped
  generalize (Outcome.waiting c : Outcome os (Except SysError Output)) = o at looped
  induction head generalizing t' with
  | start step =>
    rw [List.append_assoc]
    exact step.bind_done looped.asked
  | next before round ih =>
    rw [List.append_assoc]
    exact ih (.again round looped)

theorem Head.rest {cfg : WaitConfig} {drain : DrainState} {reactor : Reactor} {startTime : Nat}
    {t t' : Trace} {st : LoopState} {o} (head : Head cfg drain reactor startTime t st)
    (run : Exec (waitLoop cfg drain reactor) (t ++ t') o) : Exec (iterate (body cfg startTime) st) t' o := by
  induction head generalizing t' with
  | start step =>
    rw [List.append_assoc] at run
    rcases exec_call_iff.mp (step.rest run) with ⟨impossible, _⟩ | ⟨answer, rest, same, looped⟩
    · cases impossible
    · cases same
      exact looped
  | next before round ih =>
    rw [List.append_assoc] at run
    exact round.nextRound (ih run)

theorem exec_waitLoop {cfg : WaitConfig} {drain : DrainState} {reactor : Reactor} {t : Trace} {o}
    (run : Exec (waitLoop cfg drain reactor) t o) :
    (∃ c, o = .waiting c ∧ Process.Stepped cfg.pid t (.waiting c)) ∨
      (∃ t₁ t₂ e, t = t₁ ++ t₂ ∧ Process.Stepped cfg.pid t₁ (.done (.error e)) ∧
        Exec (do
          reactor.drop
          drain.drop
          return .error e : Prog (Except SysError Output)) t₂ o) ∨
      (∃ s, o = .waiting .instantNow ∧ Process.Stepped cfg.pid t (.done (.ok s))) ∨
      ∃ startTime t₁ t₂ st, t = t₁ ++ t₂ ∧ Head cfg drain reactor startTime t₁ st ∧
        ((∃ c, o = .waiting c ∧ Exec (body cfg startTime st) t₂ (.waiting c)) ∨
          ∃ result, o = .done result ∧ Exec (body cfg startTime st) t₂ (.done (.inr result))) := by
  rcases exec_bind_cases run with ⟨c, rfl, stopped⟩ | ⟨first, result, second, rfl, step, run⟩
  · exact .inl ⟨c, rfl, Process.exec_waitStep stopped⟩
  rcases result with e | statusRaw
  · exact .inr (.inl ⟨_, _, e, rfl, Process.exec_waitStep step, run⟩)
  refine .inr (.inr ?_)
  rcases exec_bind_cases run with ⟨c, rfl, stopped⟩ | ⟨second, startTime, third, rfl, asked, looped⟩
  · obtain ⟨rfl, rfl⟩ := (exec_ask_waiting _ _ _).mp stopped
    exact .inl ⟨statusRaw, rfl, by simpa using Process.exec_waitStep step⟩
  rw [exec_ask_done] at asked
  subst asked
  obtain ⟨rounds, st, last, rfl, reached, finish⟩ := exec_iterate_cases looped
  have head : Head cfg drain reactor startTime (first ++ [⟨.instantNow, startTime⟩] ++ rounds) st :=
    (Head.start step).rounds reached
  refine .inr ⟨startTime, _, last, st, by simp, head, ?_⟩
  rcases finish with ⟨c, rfl, stopped⟩ | ⟨result, rfl, left⟩
  · exact .inl ⟨c, rfl, stopped⟩
  · exact .inr ⟨result, rfl, left⟩

end WaitLoop

end CoreShift
