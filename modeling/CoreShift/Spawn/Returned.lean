import CoreShift.Io.Capture
import CoreShift.Spawn.Completion
import CoreShift.Spawn.Orphan

namespace CoreShift

open Interaction

namespace WriterState

theorem round_takes_nothing {fd : Nat} {buf : Bytes} {off : Nat} {t : Trace} {last : WriterState × Except SysError Bool}
    (round : Round fd buf off t (.done (.inr last))) : accepted fd t = [] := by
  generalize outcome : Outcome.done (I := os) (Sum.inr last) = o at round
  cases round with
  | finished | refused | blocked | broken | failed => simp [acceptedBy]
  | waiting | accepted => cases outcome

theorem writeToFd_prefix {w w' : WriterState} {fd : Fd} {t : Trace} {result : Except SysError Bool}
    (run : Exec (w.writeToFd fd) t (.done (w', result))) : accepted fd.raw t <+: w.rest := by
  cases pending : w.buf with
  | none =>
    simp only [writeToFd, pending] at run
    rw [((exec_pure_iff _ _ _).mp run).1, accepted_nil]
    exact List.nil_prefix
  | some buf =>
    obtain ⟨rounds, last, off, rfl, reached, finish⟩ := exec_writeToFd_done pending run
    rw [accepted_append, round_takes_nothing finish, List.append_nil]
    simp only [rest, pending]
    exact ⟨_, accepted_rest (iterates_accepted reached)⟩

end WriterState

namespace DrainState

def Supplied (d₀ : DrainState) (t : Trace) : Prop :=
  ∀ slot, d₀.stdinSlot = some slot → accepted slot.fd.raw t <+: d₀.writer.rest

theorem supplied_start (d : DrainState) : Supplied d [] := fun _ _ => List.nil_prefix

theorem Supplied.quiet {d₀ : DrainState} {t t' : Trace} (supplied : Supplied d₀ t)
    (quiet : ∀ fd, accepted fd t' = []) : Supplied d₀ (t ++ t') := by
  intro slot begun
  rw [accepted_append, quiet, List.append_nil]
  exact supplied slot begun

theorem outServed_accepted {d d' : DrainState} {isStdout : Bool} {reactor : Reactor} {t : Trace} {e : Option SysError}
    (served : OutServed d isStdout (Released reactor) t d' e) (fd : Nat) : accepted fd t = [] := by
  have reads : ∀ {slot : FdSlot} {t : Trace} {o}, Exec (d.buffer.readFromFd slot.fd isStdout d.earlyExit) t o →
      accepted fd t = [] := by
    intro slot t o run
    apply accepted_of_forall
    intro e member
    obtain ⟨call, answer⟩ := e
    rcases (run.issues (BufferState.readFromFd_issues _ _ _ _)).1 _ member with ⟨count, same⟩ | ⟨slice, same⟩ <;>
      cases same <;> rfl
  cases served with
  | absent => rfl
  | blocked filled read | failed filled read => exact reads read
  | closed filled read closes => rw [accepted_append, reads read, released_accepted closes, List.append_nil]

end DrainState

namespace WaitLoop

section
variable {d₀ d d' : DrainState} {epfd : Nat} {reactor : Reactor} {t t' : Trace} {e : Option SysError}

theorem supplied_event (draining : Draining d₀ epfd t d) (supplied : d₀.Supplied t)
    (served : EventServed reactor d t' d' e) : d₀.Supplied (t ++ t') := by
  have writes : ∀ {slot : FdSlot} {t' : Trace} {writer : WriterState} {result : Except SysError Bool},
      d.stdinSlot = some slot → Exec (d.writer.writeToFd slot.fd) t' (.done (writer, result)) →
      d₀.Supplied (t ++ t') := by
    intro slot t' writer result filled wrote slot' begun
    cases (draining.settled.kept .stdin slot filled).symm.trans begun
    obtain ⟨rest, whole⟩ := WriterState.writeToFd_prefix wrote
    rw [accepted_append, ← draining.written slot filled, ← whole, ← List.append_assoc]
    exact List.prefix_append _ _
  cases served with
  | out served => exact supplied.quiet (DrainState.outServed_accepted served)
  | stdin served =>
    cases served with
    | absent => simpa using supplied
    | blocked filled wrote | failed filled wrote => exact writes filled wrote
    | closed filled wrote closes =>
      rw [← List.append_assoc]
      exact (writes filled wrote).quiet (DrainState.released_accepted closes)
  | passed => simpa using supplied

end

def isAside : Call → Bool
  | .read _ _ | .write _ _ | .close _ => false
  | _ => true

section
variable {cfg : WaitConfig} {startTime : Nat} {st : LoopState} {drain : DrainState} {reactor : Reactor} {t : Trace}

theorem Deadline.aside {o} (check : Deadline cfg startTime st t o) : ∀ e ∈ t, isAside e.call = true := by
  cases check <;> simp [isAside]

theorem Collected.aside {o} (collect : Collected cfg st t o) : ∀ e ∈ t, isAside e.call = true := by
  intro e member
  rw [collect.calls e member]
  rfl

theorem isAside_of_wait {c : Call} (wait : isWaitCall c = true) : isAside c = true := by
  cases c <;> first | rfl | cases wait

theorem Head.carries {P : Trace → DrainState → Prop} (start : P [] drain)
    (aside : ∀ t t' d, P t d → (∀ e ∈ t', isAside e.call = true) → P (t ++ t') d)
    (event : ∀ r t t' d d', r.epfd = reactor.epfd → P t d → EventServed r d t' d' none → P (t ++ t') d')
    (head : Head cfg drain reactor startTime t st) : P t st.drain ∧ st.reactor.epfd = reactor.epfd := by
  have dispatched : ∀ (r : Reactor) (events : List Reactor.Event) (t t' : Trace) (d d' : DrainState),
      r.epfd = reactor.epfd → P t d → (∀ ev ∈ events, ∃ raw, ev = Reactor.translate raw) →
      Exec (dispatch r d events) t' (.done (d', .ok ())) → P (t ++ t') d' := by
    intro r events t t' d d' same before translated run
    induction events generalizing t t' d with
    | nil =>
      obtain ⟨rfl, done⟩ := (exec_pure_iff _ _ _).mp run
      cases done
      rwa [List.append_nil]
    | cons ev rest ih =>
      obtain ⟨first, ⟨served, result⟩, second, rfl, handled, run⟩ := exec_bind_done.mp run
      obtain ⟨raw, rfl⟩ := translated ev (List.mem_cons_self ..)
      rcases result with e | ⟨⟩
      · cases ((exec_pure_iff _ _ _).mp run).2
      · rw [← List.append_assoc]
        have after := event r t first d served same before (exec_handleEvent_done handled)
        exact ih _ _ _ after (fun ev member => translated ev (List.mem_cons_of_mem _ member)) run
  induction head with
  | @start t _ step =>
    refine ⟨aside [] _ _ start fun e member => ?_, rfl⟩
    rcases List.mem_append.mp member with member | member
    · rw [(Process.exec_waitStep step).calls e member]
      rfl
    · rw [List.mem_singleton.mp member]
      rfl
  | next _ round ih =>
    obtain ⟨t₁, t₂, t₃, checked, collected, timeout, rfl, check, collect, _, polled⟩ := (exec_body round).polled
    obtain ⟨w, u, reactor', events, n, d', rfl, waited, served, rfl⟩ := exec_poll_next polled
    obtain ⟨same, translated⟩ := exec_wait_ok waited
    have waits := fun e member => isAside_of_wait ((waited.issues (wait_issues _ _ _ _)).1 e member)
    rw [collect.unchanged.2.2, check.unchanged.2.2, ih.2] at same
    rw [collect.unchanged.2.1, check.unchanged.2.1] at served
    have before := aside _ _ _ (aside _ _ _ (aside _ _ _ ih.1 check.aside) collect.aside) waits
    have after := dispatched _ _ _ _ _ _ same before
      (fun ev member => translated ev (List.mem_of_mem_take member)) served
    exact ⟨by simpa only [List.append_assoc] using after, same⟩

end

def outFds (d : DrainState) (isStdout : Bool) : Option Nat := (d.outSlot isStdout).map fun slot => slot.fd.raw

structure Progress (d₀ : DrainState) (epfd : Nat) (t : Trace) (d : DrainState) : Prop where
  draining : Draining d₀ epfd t d
  supplied : d₀.Supplied t
  captured : DrainState.Captured (outFds d₀) d₀.buffer.limit t d

section
variable {d₀ d d' : DrainState} {epfd : Nat} {t t' : Trace}

theorem distinct_outFds (distinct : d₀.Distinct) (fd : Nat) (first : outFds d₀ true = some fd) :
    outFds d₀ false ≠ some fd := by
  intro second
  obtain ⟨out, filled, rfl⟩ := Option.map_eq_some_iff.mp first
  obtain ⟨err, filled', same⟩ := Option.map_eq_some_iff.mp second
  cases distinct .stderr .stdout err out filled' filled (congrArg Fd.mk same)

theorem Progress.aside (progress : Progress d₀ epfd t d) (aside : ∀ e ∈ t', isAside e.call = true) :
    Progress d₀ epfd (t ++ t') d := by
  have silent : ∀ e ∈ t', isIdle e.call = true ∧ (∀ fd, acceptedBy fd e = []) ∧ ∀ fd, deliveredBy fd e = [] := by
    intro e member
    have still := aside e member
    obtain ⟨call, answer⟩ := e
    cases call
    case read | write | close => cases still
    all_goals exact ⟨rfl, fun _ => rfl, fun _ => rfl⟩
  exact ⟨progress.draining.idle fun e member => (silent e member).1,
    progress.supplied.quiet fun fd => accepted_of_forall fun e member => (silent e member).2.1 fd,
    progress.captured.quiet fun fd => delivered_of_forall fun e member => (silent e member).2.2 fd⟩

theorem Progress.event {reactor : Reactor} (distinct : d₀.Distinct) (progress : Progress d₀ reactor.epfd t d)
    (served : EventServed reactor d t' d' none) : Progress d₀ reactor.epfd (t ++ t') d' := by
  refine ⟨progress.draining.event distinct served, supplied_event progress.draining progress.supplied served, ?_⟩
  have captured := progress.captured
  cases served with
  | out served =>
    exact captured.served (distinct_outFds distinct) (fun _ _ released => DrainState.released_quiet released) served
  | stdin served =>
    have quiet : ∀ {slot : FdSlot} {t : Trace} {o}, Exec (d.writer.writeToFd slot.fd) t o →
        ∀ n, delivered n t = [] := by
      intro slot t o run n
      apply delivered_of_forall
      intro e member
      obtain ⟨call, answer⟩ := e
      obtain ⟨bytes, same⟩ := (run.issues (WriterState.writeToFd_issues _ _)).1 _ member
      cases same
      rfl
    cases served with
    | absent => simpa using captured
    | blocked filled wrote =>
      have after := captured.quiet (quiet wrote)
      exact ⟨after.bounded, after.bytes, after.slots⟩
    | closed filled wrote closes =>
      rw [← List.append_assoc]
      have after := (captured.quiet (quiet wrote)).quiet (DrainState.released_quiet closes)
      exact ⟨after.bounded, after.bytes, after.slots⟩
  | passed => simpa using captured

theorem Progress.start {d : DrainState} (empty : ∀ isStdout, d.buffer.dest isStdout = []) (epfd : Nat) :
    Progress d epfd [] d where
  draining := draining_start d epfd
  supplied := DrainState.supplied_start d
  captured := by
    refine ⟨rfl, fun isStdout => ?_, fun isStdout slot filled => ?_⟩
    · rw [DrainState.deliveredOn_nil, fill_nil, empty]
    · rw [outFds, filled, Option.map_some]

end

def isStationary : Call → Bool
  | .read _ _ | .write _ _ => false
  | _ => true

def Stationary (t : Trace) : Prop := ∀ e ∈ t, isStationary e.call = true

theorem Stationary.append {t t' : Trace} (first : Stationary t) (second : Stationary t') : Stationary (t ++ t') :=
  List.forall_mem_append.mpr ⟨first, second⟩

theorem stationary_of_aside {t : Trace} (aside : ∀ e ∈ t, isAside e.call = true) : Stationary t := by
  intro e member
  have still := aside e member
  obtain ⟨call, answer⟩ := e
  cases call <;> first | rfl | cases still

theorem Stationary.accepted {t : Trace} (stationary : Stationary t) (fd : Nat) : accepted fd t = [] := by
  apply accepted_of_forall
  intro e member
  have still := stationary e member
  obtain ⟨call, answer⟩ := e
  cases call <;> first | rfl | cases still

theorem Stationary.delivered {t : Trace} (stationary : Stationary t) (fd : Nat) : delivered fd t = [] := by
  apply delivered_of_forall
  intro e member
  have still := stationary e member
  obtain ⟨call, answer⟩ := e
  cases call <;> first | rfl | cases still

section
variable {cfg : WaitConfig} {startTime : Nat} {st : LoopState} {drain : DrainState} {reactor : Reactor} {t : Trace}

theorem deliver_stationary (cfg : WaitConfig) (st : LoopState) (s : ExitStatus) :
    (deliver cfg st s).Issues (isStationary · = true) := by
  have releases : ∀ slots, (releaseAll st.reactor slots).Issues (isStationary · = true) := by
    intro slots
    induction slots with
    | nil => trivial
    | cons slot rest ih =>
      refine .bind (.bind (.bind ((Program.issues_ask _ _).mpr rfl) fun _ => trivial) fun _ => ?_) fun _ => ih
      exact .bind ((Program.issues_ask _ _).mpr rfl) fun _ => trivial
  have closes : ∀ {c : Call}, isClose c = true → isStationary c = true := by
    intro c close
    cases c <;> first | rfl | cases close
  refine .bind (releases _) fun _ => .bind (.bind ((DrainState.drop_closes _).mono fun _ => closes) fun _ => trivial)
    fun _ => ?_
  exact .bind ((reactor_drop_closes _).mono fun _ => closes) fun _ => trivial

theorem exec_deliver_bytes {s : ExitStatus} {out : Output}
    (run : Exec (deliver cfg st s) t (.done (.inr (.ok out)))) :
    out.stdout = st.drain.buffer.stdout ∧ out.stderr = st.drain.buffer.stderr := by
  obtain ⟨_, _, _, rfl, _, rest⟩ := exec_bind_done.mp run
  obtain ⟨_, ⟨stdout, stderr⟩, _, rfl, parts, rest⟩ := exec_bind_done.mp rest
  obtain ⟨_, _, _, rfl, _, rest⟩ := exec_bind_done.mp rest
  cases ((exec_pure_iff _ _ _).mp rest).2
  obtain ⟨_, _, _, rfl, _, rest⟩ := exec_bind_done.mp parts
  cases ((exec_pure_iff _ _ _).mp rest).2
  exact ⟨rfl, rfl⟩

theorem blocked_stationary {pid : Int} {o} (wait : Process.Blocked pid t o) : Stationary t := by
  have single : ∀ answer, isStationary (⟨.waitpid pid, answer⟩ : Event os).call = true := fun _ => rfl
  have interrupted : ∀ k, Stationary (List.replicate k ⟨.waitpid pid, .error EINTR⟩) := by
    intro k e member
    rw [List.eq_of_mem_replicate member]
    rfl
  cases wait with
  | waiting k => exact interrupted k
  | reaped k status => exact (interrupted k).append (List.forall_mem_singleton.mpr (single _))
  | failed k e => exact (interrupted k).append (List.forall_mem_singleton.mpr (single _))

theorem Iteration.delivers {out : Output} (iteration : Iteration cfg startTime st t (.done (.inr (.ok out)))) :
    Stationary t ∧ out.stdout = st.drain.buffer.stdout ∧ out.stderr = st.drain.buffer.stderr := by
  cases iteration with
  | abandoning _ _ abandoned => exact (abandon_fails abandoned).elim
  | polling _ _ _ polled => exact (poll_fails polled).elim
  | finishing check collect drained finished =>
    have before := (stationary_of_aside check.aside).append (stationary_of_aside collect.aside)
    rw [← List.append_assoc, ← check.unchanged.2.1, ← collect.unchanged.2.1]
    cases exec_finish finished with
    | present present delivered =>
      have after := (delivered.issues (deliver_stationary _ _ _)).1
      exact ⟨before.append after, exec_deliver_bytes delivered⟩
    | waited missing wait delivered =>
      have after := (delivered.issues (deliver_stationary _ _ _)).1
      exact ⟨before.append ((blocked_stationary wait).append after), exec_deliver_bytes delivered⟩
    | failed _ _ abandoned => exact (abandon_fails abandoned).elim

structure Served (d : DrainState) (t : Trace) (out : Output) : Prop where
  stdout : out.stdout = (DrainState.deliveredOn (outFds d true) t).take d.buffer.limit
  stderr : out.stderr = (DrainState.deliveredOn (outFds d false) t).take d.buffer.limit
  supplied : d.Supplied t
  ended : ∀ s slot, d.slotOf s = some slot → DrainState.Ended d.writer.rest s slot.fd.raw t
  guarded : ∀ s slot, d.slotOf s = some slot →
    Guarded (DrainState.Ended d.writer.rest s slot.fd.raw) (fun e => e.call = .close slot.fd.raw) t

theorem waitLoop_served {out : Output} (distinct : drain.Distinct) (empty : ∀ isStdout, drain.buffer.dest isStdout = [])
    (run : Exec (waitLoop cfg drain reactor) t (.done (.ok out))) : Served drain t out := by
  rcases exec_waitLoop run with ⟨_, impossible, _⟩ | ⟨t₁, t₂, e, rfl, step, rest⟩ | ⟨_, impossible, _⟩ |
    ⟨startTime, t₁, t₂, st, rfl, head, ⟨_, impossible, _⟩ | ⟨result, same, last⟩⟩
  · cases impossible
  · obtain ⟨_, _, _, _, _, rest⟩ := exec_bind_done.mp rest
    obtain ⟨_, _, _, _, _, rest⟩ := exec_bind_done.mp rest
    cases ((exec_pure_iff _ _ _).mp rest).2
  · cases impossible
  · cases impossible
  cases same
  have iteration := exec_body last
  obtain ⟨done, -⟩ := iteration.completed
  obtain ⟨still, stdout, stderr⟩ := iteration.delivers
  obtain ⟨progress, -⟩ :=
    head.carries (Progress.start empty reactor.epfd) (fun _ _ _ before aside => before.aside aside)
    (fun r _ _ _ _ same before served => by
      rw [← same] at before ⊢
      exact before.event distinct served)
  have captured := (progress.captured.quiet still.delivered).bytes
  have gone : ∀ s slot, drain.slotOf s = some slot → DrainState.Ended drain.writer.rest s slot.fd.raw t₁ := by
    intro s slot begun
    have none : st.drain.slotOf s = none := by
      simp only [DrainState.isDone, Bool.and_eq_true, Option.isNone_iff_eq_none] at done
      cases s with
      | stdin => exact done.1.1
      | stdout => exact done.1.2
      | stderr => exact done.2
    exact (progress.draining.settled.gone s slot begun none).1
  refine ⟨stdout.trans (captured true), stderr.trans (captured false), progress.supplied.quiet still.accepted,
    fun s slot begun => (gone s slot begun).mono t₂, fun s slot begun => ?_⟩
  exact guarded_append.mpr ⟨progress.draining.settled.guarded s slot begun, guarded_of_ready (gone s slot begun).mono⟩

end

end WaitLoop

namespace DrainState

structure Enlisted (d d' : DrainState) : Prop where
  fds : ∀ s, (d'.slotOf s).map FdSlot.fd = (d.slotOf s).map FdSlot.fd
  buffer : d'.buffer = d.buffer
  writer : d'.writer = d.writer

theorem exec_registerSlot_fd {r r' : Reactor} {readable writable : Bool} {slot slot' : Option FdSlot} {t : Trace}
    (run : Exec (registerSlot r readable writable slot) t (.done (r', slot', .ok ()))) :
    slot'.map FdSlot.fd = slot.map FdSlot.fd ∧ ∀ e ∈ t, WaitLoop.isAside e.call = true := by
  cases slot with
  | none =>
    obtain ⟨rfl, result⟩ := (exec_pure_iff _ _ _).mp run
    cases result
    exact ⟨rfl, by simp⟩
  | some slot =>
    obtain ⟨_, ⟨reactor, result⟩, _, rfl, adding, rest⟩ := exec_bind_done.mp run
    obtain ⟨rfl, answer, rfl, rfl⟩ := Reactor.exec_add adding
    cases answer with
    | error e =>
      obtain ⟨_, _, _, _, _, impossible⟩ := exec_bind_done.mp rest
      cases ((exec_pure_iff _ _ _).mp impossible).2
    | ok u =>
      obtain ⟨rfl, same⟩ := (exec_pure_iff _ _ _).mp rest
      cases same
      exact ⟨rfl, by simp [WaitLoop.isAside]⟩

theorem exec_registerWithReactor_ok {d d' : DrainState} {r r' : Reactor} {t : Trace}
    (run : Exec (d.registerWithReactor r) t (.done (d', r', .ok ()))) :
    Enlisted d d' ∧ ∀ e ∈ t, WaitLoop.isAside e.call = true := by
  obtain ⟨t₁, ⟨r₁, slot₁, result₁⟩, _, rfl, first, rest⟩ := exec_bind_done.mp run
  rcases result₁ with e | ⟨⟩
  · cases ((exec_pure_iff _ _ _).mp rest).2
  obtain ⟨t₂, ⟨r₂, slot₂, result₂⟩, _, rfl, second, rest⟩ := exec_bind_done.mp rest
  rcases result₂ with e | ⟨⟩
  · cases ((exec_pure_iff _ _ _).mp rest).2
  obtain ⟨t₃, ⟨r₃, slot₃, result₃⟩, t₄, rfl, third, rest⟩ := exec_bind_done.mp rest
  simp only [exec_pure_iff, Outcome.done.injEq, Prod.mk.injEq] at rest
  obtain ⟨rfl, rfl, rfl, rfl⟩ := rest
  obtain ⟨stdin, aside₁⟩ := exec_registerSlot_fd first
  obtain ⟨stdout, aside₂⟩ := exec_registerSlot_fd second
  obtain ⟨stderr, aside₃⟩ := exec_registerSlot_fd third
  refine ⟨⟨fun s => ?_, rfl, rfl⟩, ?_⟩
  · cases s with
    | stdin => exact stdin
    | stdout => exact stdout
    | stderr => exact stderr
  · rw [List.append_nil]
    exact List.forall_mem_append.mpr ⟨aside₁, List.forall_mem_append.mpr ⟨aside₂, aside₃⟩⟩

section
variable {d d' : DrainState}

theorem Enlisted.slot (enlisted : Enlisted d d') {s : Stream} {slot : FdSlot} (filled : d.slotOf s = some slot) :
    ∃ slot', d'.slotOf s = some slot' ∧ slot'.fd = slot.fd := by
  have same := enlisted.fds s
  rw [filled, Option.map_some, Option.map_eq_some_iff] at same
  exact same

theorem Enlisted.back (enlisted : Enlisted d d') {s : Stream} {slot' : FdSlot} (filled : d'.slotOf s = some slot') :
    ∃ slot, d.slotOf s = some slot ∧ slot.fd = slot'.fd := by
  have same := enlisted.fds s
  rw [filled, Option.map_some, eq_comm, Option.map_eq_some_iff] at same
  exact same

theorem Enlisted.distinct (enlisted : Enlisted d d') (distinct : d.Distinct) : d'.Distinct := by
  intro s s' slot slot' filled filled' same
  obtain ⟨first, begun, fd⟩ := enlisted.back filled
  obtain ⟨second, begun', fd'⟩ := enlisted.back filled'
  exact distinct s s' first second begun begun' (fd.trans (same.trans fd'.symm))

theorem Enlisted.outFds (enlisted : Enlisted d d') : WaitLoop.outFds d' = WaitLoop.outFds d := by
  funext isStdout
  have same := congrArg (Option.map Fd.raw) (enlisted.fds (outStream isStdout))
  rwa [slotOf_outStream, slotOf_outStream, Option.map_map, Option.map_map] at same

end

end DrainState

namespace WaitLoop

theorem Served.before {d d' : DrainState} {t t' : Trace} {out : Output} (served : Served d' t' out)
    (enlisted : d.Enlisted d') (aside : ∀ e ∈ t, isAside e.call = true) : Served d (t ++ t') out := by
  have still := stationary_of_aside aside
  have delivered : ∀ isStdout, DrainState.deliveredOn (outFds d isStdout) (t ++ t') =
      DrainState.deliveredOn (outFds d' isStdout) t' := by
    intro isStdout
    rw [DrainState.deliveredOn_append, DrainState.deliveredOn_of_forall still.delivered, List.nil_append,
      enlisted.outFds]
  have ended : ∀ {s fd u}, DrainState.Ended d'.writer.rest s fd u → DrainState.Ended d.writer.rest s fd (t ++ u) := by
    intro s fd u ended
    rw [← enlisted.writer]
    cases s with
    | stdin =>
      refine ended.imp (fun whole => ?_) (·.mono (List.subset_append_right ..))
      rwa [accepted_append, still.accepted, List.nil_append]
    | stdout => exact ended.imp (·.mono (List.subset_append_right ..)) (·.mono (List.subset_append_right ..))
    | stderr => exact SawEof.mono ended (List.subset_append_right ..)
  refine ⟨?_, ?_, fun slot filled => ?_, fun s slot filled => ?_, fun s slot filled => ?_⟩
  · rw [delivered, ← enlisted.buffer]
    exact served.stdout
  · rw [delivered, ← enlisted.buffer]
    exact served.stderr
  · obtain ⟨slot', filled', same⟩ := enlisted.slot (s := .stdin) filled
    have taken := served.supplied slot' filled'
    rwa [enlisted.writer, same, ← List.nil_append (accepted _ t'), ← still.accepted, ← accepted_append] at taken
  · obtain ⟨slot', filled', same⟩ := enlisted.slot filled
    have gone := served.ended s slot' filled'
    rw [same] at gone
    exact ended gone
  · obtain ⟨slot', filled', same⟩ := enlisted.slot filled
    have gone := served.guarded s slot' filled'
    rw [same] at gone
    refine guarded_append.mpr ⟨guarded_of_forall fun e member close => ?_, gone.mono fun _ => ended⟩
    have opened := aside e member
    rw [close] at opened
    cases opened

end WaitLoop

theorem settle_served {opts : SpawnOptions} {reactor : Reactor} {pid : Int} {drain : DrainState} {t : Trace}
    {out : Output} (distinct : drain.Distinct) (empty : ∀ isStdout, drain.buffer.dest isStdout = [])
    (waits : opts.wait = true ∨ ∀ s, drain.slotOf s = none)
    (run : Exec (settle opts reactor (.ok (pid, drain))) t (.done (.ok out))) : WaitLoop.Served drain t out := by
  obtain ⟨t₁, ⟨drain', reactor', result⟩, t₂, rfl, registered, rest⟩ := exec_bind_done.mp run
  rcases result with e | ⟨⟩
  · obtain ⟨_, _, _, _, _, rest⟩ := exec_bind_done.mp rest
    obtain ⟨_, _, _, _, _, rest⟩ := exec_bind_done.mp rest
    cases ((exec_pure_iff _ _ _).mp rest).2
  obtain ⟨enlisted, aside⟩ := DrainState.exec_registerWithReactor_ok registered
  have empty' : ∀ isStdout, drain'.buffer.dest isStdout = [] := by
    rw [enlisted.buffer]
    exact empty
  change Exec (if !opts.wait then _ else _) _ _ at rest
  split at rest
  · rename_i background
    have none : ∀ s, drain.slotOf s = none := by
      rcases waits with wait | none
      · simp [wait] at background
      · exact none
    have unread : ∀ isStdout t, DrainState.deliveredOn (WaitLoop.outFds drain isStdout) t = [] := by
      intro isStdout t
      have absent := none (DrainState.outStream isStdout)
      rw [DrainState.slotOf_outStream] at absent
      rw [WaitLoop.outFds, absent]
      rfl
    have nothing : out.stdout = [] ∧ out.stderr = [] := by
      obtain ⟨_, ⟨stdout, stderr⟩, _, rfl, parts, rest⟩ := exec_bind_done.mp rest
      obtain ⟨_, _, _, rfl, _, rest⟩ := exec_bind_done.mp rest
      cases ((exec_pure_iff _ _ _).mp rest).2
      obtain ⟨_, _, _, rfl, _, rest⟩ := exec_bind_done.mp parts
      cases ((exec_pure_iff _ _ _).mp rest).2
      exact ⟨empty' true, empty' false⟩
    have absent : ∀ {P : Prop} {s slot}, drain.slotOf s = some slot → P := by
      intro P s slot filled
      rw [none s] at filled
      cases filled
    refine ⟨?_, ?_, fun slot filled => absent (s := .stdin) filled, fun s slot => absent, fun s slot => absent⟩
    · rw [unread, nothing.1, List.take_nil]
    · rw [unread, nothing.2, List.take_nil]
  · exact (WaitLoop.waitLoop_served (enlisted.distinct distinct) empty' rest).before enlisted aside

end CoreShift
