import CoreShift.Io.Drain

namespace CoreShift

open Interaction

def errorOf {α : Type} : Except SysError α → Option SysError
  | .error e => some e
  | .ok _ => none

namespace BufferState

def Reads (fd : Nat) (c : Call) : Prop := (∃ count, c = .read fd count) ∨ ∃ slice, c = .earlyExit slice

theorem readFromFd_issues_of {allowed : Call → Prop} {b : BufferState} {fd : Fd} {isStdout earlyExit : Bool}
    (reads : ∀ count, allowed (.read fd.raw count))
    (asks : (isStdout && earlyExit) = true → ∀ slice, allowed (.earlyExit slice)) :
    (b.readFromFd fd isStdout earlyExit).Issues allowed := by
  have read : ∀ count, (fd.readSlice count).Issues allowed := fun count =>
    .bind (.retry _ (reads count)) fun _ => trivial
  refine .bind (.iterate _ fun dest => ?_) fun _ => trivial
  by_cases full : b.limit - dest.length = 0
  · simp only [readRound, full, ↓reduceIte]
    refine .bind (read _) fun answer => ?_
    split
    · split <;> trivial
    · trivial
    · trivial
  · simp only [readRound, full, ↓reduceIte]
    refine .bind (read _) fun answer => ?_
    split
    · split
      · split
        · rename_i consulted
          exact .bind ((Program.issues_ask _ _).mpr (asks consulted _)) fun _ => trivial
        · trivial
      · trivial
    · trivial
    · trivial

theorem readFromFd_issues (b : BufferState) (fd : Fd) (isStdout earlyExit : Bool) :
    (b.readFromFd fd isStdout earlyExit).Issues (Reads fd.raw) :=
  readFromFd_issues_of (fun count => .inl ⟨count, rfl⟩) fun _ slice => .inr ⟨slice, rfl⟩

end BufferState

namespace WriterState

theorem writeToFd_issues (w : WriterState) (fd : Fd) :
    (w.writeToFd fd).Issues fun c : Call => ∃ bytes, c = .write fd.raw bytes := by
  unfold writeToFd
  split
  · refine .iterate _ fun off => ?_
    unfold writeRound
    split
    · refine .bind (.bind (.retry _ ⟨_, rfl⟩) fun _ => trivial) fun answer => ?_
      split
      · split <;> trivial
      · trivial
      · split <;> trivial
    · trivial
  · trivial

end WriterState

def isDrainCall : Call → Bool
  | .read _ _ | .write _ _ | .close _ | .epollCtlDel _ _ | .earlyExit _ => true
  | _ => false

def Concerns (fd : Nat) : Call → Prop
  | .read fd' _ | .write fd' _ | .close fd' | .epollCtlDel _ fd' => fd' = fd
  | .earlyExit _ => True
  | _ => False

structure Admits (allowed : Call → Prop) (isStdout : Bool) (fd : Nat) : Prop where
  read : ∀ count, allowed (.read fd count)
  write : ∀ bytes, allowed (.write fd bytes)
  close : allowed (.close fd)
  delete : ∀ epfd, allowed (.epollCtlDel epfd fd)
  ask : isStdout = true → ∀ slice, allowed (.earlyExit slice)

theorem admits_concerns (isStdout : Bool) (fd : Nat) : Admits (Concerns fd) isStdout fd :=
  ⟨fun _ => rfl, fun _ => rfl, rfl, fun _ => rfl, fun _ _ => trivial⟩

theorem admits_drain (isStdout : Bool) (fd : Nat) : Admits (isDrainCall · = true) isStdout fd :=
  ⟨fun _ => rfl, fun _ => rfl, rfl, fun _ => rfl, fun _ _ => rfl⟩

namespace DrainState

theorem exec_adopt_ok {fd : Option Fd} {slot : Option FdSlot} {t : Trace}
    (run : Exec (adopt fd) t (.done (.ok slot))) : slot = fd.map (FdSlot.mk none) := by
  cases fd with
  | none =>
    simp only [adopt, exec_pure_iff, Outcome.done.injEq, Except.ok.injEq] at run
    exact run.2
  | some fd =>
    obtain ⟨first, result, second, rfl, nonblocking, rest⟩ := exec_bind_done.mp run
    cases result <;> simp only [exec_pure_iff, Outcome.done.injEq] at rest
    · cases rest.2
    · cases rest.2
      rfl

theorem exec_new_ok {stdinFd : Option Fd} {stdinBuf : Option Bytes} {stdoutFd stderrFd : Option Fd}
    {limit : Nat} {earlyExit : Bool} {t : Trace} {d : DrainState}
    (run : Exec (new stdinFd stdinBuf stdoutFd stderrFd limit earlyExit) t (.done (.ok d))) :
    d = {
      stdinSlot := (if stdinBuf.isSome then stdinFd else none).map (FdSlot.mk none)
      stdoutSlot := stdoutFd.map (FdSlot.mk none)
      stderrSlot := stderrFd.map (FdSlot.mk none)
      buffer := .new limit
      writer := .new stdinBuf
      earlyExit } := by
  -- a failure ends in drops and an error, so the three results are all successes
  have failed : ∀ {p : Prog Unit} {e : SysError} {t : Trace},
      ¬Exec (p >>= fun _ => pure (.error e)) t (.done (Except.ok d)) := by
    intro p e t run
    obtain ⟨_, _, _, _, _, rest⟩ := exec_bind_done.mp run
    cases ((exec_pure_iff _ _ _).mp rest).2
  obtain ⟨first, stdin, tail, rfl, taken, run⟩ := exec_bind_done.mp run
  rcases stdin with e | stdinSlot
  · simp only [← bind_assoc] at run
    exact absurd run failed
  obtain ⟨second, stdout, tail', rfl, adopted, run⟩ := exec_bind_done.mp run
  rcases stdout with e | stdoutSlot
  · simp only [← bind_assoc] at run
    exact absurd run failed
  obtain ⟨third, stderr, tail'', rfl, adopted', run⟩ := exec_bind_done.mp run
  rcases stderr with e | stderrSlot
  · simp only [← bind_assoc] at run
    exact absurd run failed
  obtain ⟨left, _, returned, rfl, dropped, run⟩ := exec_bind_done.mp run
  simp only [exec_pure_iff, Outcome.done.injEq, Except.ok.injEq] at run
  rw [run.2, exec_adopt_ok taken, exec_adopt_ok adopted, exec_adopt_ok adopted']

theorem new_issues_of {allowed : Call → Prop} (gets : ∀ fd, allowed (.fcntlGetFl fd))
    (sets : ∀ fd flags, allowed (.fcntlSetFl fd (flags ||| O_NONBLOCK))) (closes : ∀ fd, allowed (.close fd))
    (stdinFd : Option Fd) (stdinBuf : Option Bytes) (stdoutFd stderrFd : Option Fd) (limit : Nat) (earlyExit : Bool) :
    (new stdinFd stdinBuf stdoutFd stderrFd limit earlyExit).Issues allowed := by
  have adopted : ∀ fd, (adopt fd).Issues allowed := by
    intro fd
    cases fd with
    | none => trivial
    | some fd =>
      refine .bind ?_ fun result => by rcases result with e | ⟨⟩ <;> trivial
      refine .bind ((Program.issues_ask _ _).mpr (gets _)) fun flags => ?_
      rcases flags with e | flags
      · trivial
      · exact .bind ((Program.issues_ask _ _).mpr (sets _ flags)) fun _ => trivial
  have closed : ∀ fd : Fd, fd.drop.Issues allowed := fun fd =>
    .bind ((Program.issues_ask _ _).mpr (closes _)) fun _ => trivial
  have fds : ∀ fd, (dropFd fd).Issues allowed := by
    intro fd
    cases fd with
    | none => trivial
    | some fd => exact closed fd
  have slots : ∀ slot, (dropSlot slot).Issues allowed := by
    intro slot
    cases slot with
    | none => trivial
    | some slot => exact closed slot.fd
  refine .bind (adopted _) fun result => ?_
  rcases result with e | stdinSlot
  · exact .bind (fds _) fun _ => .bind (fds _) fun _ => .bind (fds _) fun _ => trivial
  refine .bind (adopted _) fun result => ?_
  rcases result with e | stdoutSlot
  · exact .bind (slots _) fun _ => .bind (fds _) fun _ => .bind (fds _) fun _ => .bind (fds _) fun _ => trivial
  refine .bind (adopted _) fun result => ?_
  rcases result with e | stderrSlot
  · exact .bind (slots _) fun _ => .bind (slots _) fun _ => .bind (fds _) fun _ => .bind (fds _) fun _ => trivial
  · exact .bind (fds _) fun _ => trivial

def Dropped (slot : FdSlot) (t : Trace) : Prop := ∃ answer, t = [⟨.close slot.fd.raw, answer⟩]

def Released (reactor : Reactor) (slot : FdSlot) (t : Trace) : Prop :=
  ∃ deleted answer, t = [⟨.epollCtlDel reactor.epfd slot.fd.raw, deleted⟩, ⟨.close slot.fd.raw, answer⟩]

inductive OutServed (d : DrainState) (isStdout : Bool) (closing : FdSlot → Trace → Prop) :
    Trace → DrainState → Option SysError → Prop where
  | absent (empty : d.outSlot isStdout = none) : OutServed d isStdout closing [] d none
  | blocked {slot : FdSlot} {buffer : BufferState} {t : Trace} (filled : d.outSlot isStdout = some slot)
      (read : Exec (d.buffer.readFromFd slot.fd isStdout d.earlyExit) t (.done (buffer, .ok false))) :
      OutServed d isStdout closing t { d with buffer } none
  | failed {slot : FdSlot} {buffer : BufferState} {t : Trace} {e : SysError}
      (filled : d.outSlot isStdout = some slot)
      (read : Exec (d.buffer.readFromFd slot.fd isStdout d.earlyExit) t (.done (buffer, .error e))) :
      OutServed d isStdout closing t { d with buffer } (some e)
  | closed {slot : FdSlot} {buffer : BufferState} {t cleanup : Trace}
      (filled : d.outSlot isStdout = some slot)
      (read : Exec (d.buffer.readFromFd slot.fd isStdout d.earlyExit) t (.done (buffer, .ok true)))
      (closes : closing slot cleanup) :
      OutServed d isStdout closing (t ++ cleanup) ({ d with buffer }.clearOut isStdout) none

inductive StdinServed (d : DrainState) (reactor : Reactor) : Trace → DrainState → Option SysError → Prop where
  | absent (empty : d.stdinSlot = none) : StdinServed d reactor [] d none
  | blocked {slot : FdSlot} {writer : WriterState} {t : Trace} (filled : d.stdinSlot = some slot)
      (written : Exec (d.writer.writeToFd slot.fd) t (.done (writer, .ok false))) :
      StdinServed d reactor t { d with writer } none
  | failed {slot : FdSlot} {writer : WriterState} {t : Trace} {e : SysError} (filled : d.stdinSlot = some slot)
      (written : Exec (d.writer.writeToFd slot.fd) t (.done (writer, .error e))) :
      StdinServed d reactor t { d with writer } (some e)
  | closed {slot : FdSlot} {writer : WriterState} {t cleanup : Trace} (filled : d.stdinSlot = some slot)
      (written : Exec (d.writer.writeToFd slot.fd) t (.done (writer, .ok true)))
      (closes : Released reactor slot cleanup) :
      StdinServed d reactor (t ++ cleanup)
        { d with stdinSlot := none, writer := { writer with buf := none } } none

theorem exec_drop_done {slot : FdSlot} {t : Trace} {u : Unit} (run : Exec slot.fd.drop t (.done u)) :
    Dropped slot t := by
  obtain ⟨first, answer, second, rfl, asked, rest⟩ := exec_bind_done.mp run
  rw [exec_ask_done] at asked
  obtain ⟨rfl, -⟩ := (exec_pure_iff _ _ _).mp rest
  exact ⟨answer, by simp [asked]⟩

theorem exec_release_done {reactor : Reactor} {slot : FdSlot} {t : Trace} {u : Unit}
    (run : Exec (release reactor slot) t (.done u)) : Released reactor slot t := by
  obtain ⟨first, answer, second, rfl, deleted, rest⟩ := exec_bind_done.mp run
  obtain ⟨asked, result, returned, rfl, exchange, rest'⟩ := exec_bind_done.mp deleted
  rw [exec_ask_done] at exchange
  obtain ⟨rfl, -⟩ := (exec_pure_iff _ _ _).mp rest'
  obtain ⟨closed, rfl⟩ := exec_drop_done rest
  exact ⟨result, closed, by simp [exchange]⟩

theorem exec_dropOut_done {d d' : DrainState} {isStdout : Bool} {reactor : Reactor} {slot : FdSlot} {t : Trace}
    (filled : d.outSlot isStdout = some slot) (run : Exec (d.dropOut isStdout reactor) t (.done d')) :
    Released reactor slot t ∧ d' = d.clearOut isStdout := by
  simp only [dropOut, filled] at run
  obtain ⟨first, _, second, rfl, released, rest⟩ := exec_bind_done.mp run
  simp only [exec_pure_iff, Outcome.done.injEq] at rest
  obtain ⟨rfl, rfl⟩ := rest
  exact ⟨by simpa using exec_release_done released, rfl⟩

theorem exec_dropStdin_done {d d' : DrainState} {reactor : Reactor} {slot : FdSlot} {t : Trace}
    (filled : d.stdinSlot = some slot) (run : Exec (d.dropStdin reactor) t (.done d')) :
    Released reactor slot t ∧
      d' = { d with stdinSlot := none, writer := { d.writer with buf := none } } := by
  simp only [dropStdin, filled] at run
  obtain ⟨first, _, second, rfl, released, rest⟩ := exec_bind_done.mp run
  simp only [exec_pure_iff, Outcome.done.injEq] at rest
  obtain ⟨rfl, rfl⟩ := rest
  exact ⟨by simpa using exec_release_done released, rfl⟩

@[simp] theorem outSlot_buffer (d : DrainState) (buffer : BufferState) (isStdout : Bool) :
    { d with buffer }.outSlot isStdout = d.outSlot isStdout := rfl

theorem exec_readFd_done {d d' : DrainState} {isStdout : Bool} {t : Trace} {result : Except SysError Bool}
    (run : Exec (d.readFd isStdout) t (.done (d', result))) :
    OutServed d isStdout Dropped t d' (errorOf result) := by
  cases filled : d.outSlot isStdout <;> simp only [readFd, filled] at run
  · simp only [exec_pure_iff, Outcome.done.injEq, Prod.mk.injEq] at run
    obtain ⟨rfl, rfl, rfl⟩ := run
    exact .absent filled
  · rename_i slot
    obtain ⟨first, ⟨buffer, outcome⟩, second, rfl, read, rest⟩ := exec_bind_done.mp run
    rcases outcome with e | eof <;> simp only at rest
    · simp only [exec_pure_iff, Outcome.done.injEq, Prod.mk.injEq] at rest
      obtain ⟨rfl, rfl, rfl⟩ := rest
      rw [List.append_nil]
      exact .failed filled read
    · cases eof <;> simp only [Bool.false_eq_true, ↓reduceIte] at rest
      · simp only [exec_pure_iff, Outcome.done.injEq, Prod.mk.injEq] at rest
        obtain ⟨rfl, rfl, rfl⟩ := rest
        rw [List.append_nil]
        exact .blocked filled read
      · obtain ⟨closing, _, returned, rfl, dropped, rest⟩ := exec_bind_done.mp rest
        simp only [exec_pure_iff, Outcome.done.injEq, Prod.mk.injEq] at rest
        obtain ⟨rfl, rfl, rfl⟩ := rest
        rw [List.append_nil]
        exact .closed filled read (exec_drop_done dropped)

theorem exec_handleOutReady_done {d d' : DrainState} {isStdout : Bool} {reactor : Reactor} {t : Trace}
    {result : Except SysError Unit} (run : Exec (d.handleOutReady isStdout reactor) t (.done (d', result))) :
    OutServed d isStdout (Released reactor) t d' (errorOf result) := by
  cases filled : d.outSlot isStdout <;> simp only [handleOutReady, filled] at run
  · simp only [exec_pure_iff, Outcome.done.injEq, Prod.mk.injEq] at run
    obtain ⟨rfl, rfl, rfl⟩ := run
    exact .absent filled
  · rename_i slot
    obtain ⟨first, ⟨buffer, outcome⟩, second, rfl, read, rest⟩ := exec_bind_done.mp run
    rcases outcome with e | eof <;> simp only at rest
    · simp only [exec_pure_iff, Outcome.done.injEq, Prod.mk.injEq] at rest
      obtain ⟨rfl, rfl, rfl⟩ := rest
      rw [List.append_nil]
      exact .failed filled read
    · cases eof <;> simp only [Bool.false_eq_true, ↓reduceIte] at rest
      · simp only [exec_pure_iff, Outcome.done.injEq, Prod.mk.injEq] at rest
        obtain ⟨rfl, rfl, rfl⟩ := rest
        rw [List.append_nil]
        exact .blocked filled read
      · obtain ⟨closing, cleared, returned, rfl, dropped, rest⟩ := exec_bind_done.mp rest
        simp only [exec_pure_iff, Outcome.done.injEq, Prod.mk.injEq] at rest
        obtain ⟨rfl, rfl, rfl⟩ := rest
        obtain ⟨released, rfl⟩ := exec_dropOut_done (by simpa using filled) dropped
        rw [List.append_nil]
        exact .closed filled read released

theorem exec_handleStdinWritable_done {d d' : DrainState} {reactor : Reactor} {t : Trace}
    {result : Except SysError Unit} (run : Exec (d.handleStdinWritable reactor) t (.done (d', result))) :
    StdinServed d reactor t d' (errorOf result) := by
  unfold handleStdinWritable at run
  split at run <;> rename_i filled
  · simp only [exec_pure_iff, Outcome.done.injEq, Prod.mk.injEq] at run
    obtain ⟨rfl, rfl, rfl⟩ := run
    exact .absent filled
  · rename_i slot
    obtain ⟨first, ⟨writer, outcome⟩, second, rfl, written, rest⟩ := exec_bind_done.mp run
    rcases outcome with e | done <;> simp only at rest
    · simp only [exec_pure_iff, Outcome.done.injEq, Prod.mk.injEq] at rest
      obtain ⟨rfl, rfl, rfl⟩ := rest
      rw [List.append_nil]
      exact .failed filled written
    · cases done <;> simp only [Bool.false_eq_true, ↓reduceIte] at rest
      · simp only [exec_pure_iff, Outcome.done.injEq, Prod.mk.injEq] at rest
        obtain ⟨rfl, rfl, rfl⟩ := rest
        rw [List.append_nil]
        exact .blocked filled written
      · obtain ⟨closing, cleared, returned, rfl, dropped, rest⟩ := exec_bind_done.mp rest
        simp only [exec_pure_iff, Outcome.done.injEq, Prod.mk.injEq] at rest
        obtain ⟨rfl, rfl, rfl⟩ := rest
        obtain ⟨released, rfl⟩ := exec_dropStdin_done (d := { d with writer }) filled dropped
        rw [List.append_nil]
        exact .closed filled written released

theorem dropSlot_issues (slot : Option FdSlot) : (dropSlot slot).Issues (isDrainCall · = true) := by
  cases slot
  · trivial
  · exact .bind ((Program.issues_ask _ _).mpr rfl) fun _ => trivial

section
variable {allowed : Call → Prop} {d : DrainState} {isStdout : Bool} {slot : FdSlot} (reactor : Reactor)

theorem release_issues_of (admits : Admits allowed isStdout slot.fd.raw) : (release reactor slot).Issues allowed :=
  .bind (.bind ((Program.issues_ask _ _).mpr (admits.delete _)) fun _ => trivial)
    fun _ => .bind ((Program.issues_ask _ _).mpr admits.close) fun _ => trivial

theorem writeToFd_issues_of {w : WriterState} (admits : Admits allowed isStdout slot.fd.raw) :
    (w.writeToFd slot.fd).Issues allowed := by
  refine (WriterState.writeToFd_issues _ _).mono fun c writes => ?_
  obtain ⟨bytes, rfl⟩ := writes
  exact admits.write bytes

theorem readFromFd_issues_of {b : BufferState} {earlyExit : Bool} (admits : Admits allowed isStdout slot.fd.raw) :
    (b.readFromFd slot.fd isStdout earlyExit).Issues allowed :=
  BufferState.readFromFd_issues_of admits.read fun shown => admits.ask (Bool.and_eq_true_iff.mp shown).1

theorem dropOut_issues_of (admits : ∀ slot, d.outSlot isStdout = some slot → Admits allowed isStdout slot.fd.raw) :
    (d.dropOut isStdout reactor).Issues allowed := by
  unfold dropOut
  split
  · trivial
  · rename_i slot filled
    exact .bind (release_issues_of reactor (admits slot filled)) fun _ => trivial

theorem dropStdin_issues_of (admits : ∀ slot, d.stdinSlot = some slot → Admits allowed false slot.fd.raw) :
    (d.dropStdin reactor).Issues allowed := by
  unfold dropStdin
  split
  · trivial
  · rename_i slot filled
    exact .bind (release_issues_of reactor (admits slot filled)) fun _ => trivial

theorem handleOutReady_issues_of
    (admits : ∀ slot, d.outSlot isStdout = some slot → Admits allowed isStdout slot.fd.raw) :
    (d.handleOutReady isStdout reactor).Issues allowed := by
  unfold handleOutReady
  split
  · trivial
  · rename_i slot filled
    refine .bind (readFromFd_issues_of (admits slot filled)) fun answer => ?_
    obtain ⟨buffer, result⟩ := answer
    rcases result with e | eof
    · trivial
    · cases eof
      · trivial
      · exact .bind (dropOut_issues_of reactor admits) fun _ => trivial

theorem handleStdinWritable_issues_of
    (admits : ∀ slot, d.stdinSlot = some slot → Admits allowed false slot.fd.raw) :
    (d.handleStdinWritable reactor).Issues allowed := by
  unfold handleStdinWritable
  split
  · trivial
  · rename_i slot filled
    refine .bind (writeToFd_issues_of (admits slot filled)) fun answer => ?_
    obtain ⟨writer, result⟩ := answer
    rcases result with e | done
    · trivial
    · cases done
      · trivial
      · exact .bind (dropStdin_issues_of reactor admits) fun _ => trivial

theorem readFd_issues_of (admits : ∀ slot, d.outSlot isStdout = some slot → Admits allowed isStdout slot.fd.raw) :
    (d.readFd isStdout).Issues allowed := by
  unfold readFd
  split
  · trivial
  · rename_i slot filled
    refine .bind (readFromFd_issues_of (admits slot filled)) fun answer => ?_
    obtain ⟨buffer, result⟩ := answer
    rcases result with e | eof
    · trivial
    · cases eof
      · trivial
      · exact .bind (.bind ((Program.issues_ask _ _).mpr (admits slot filled).close) fun _ => trivial) fun _ => trivial

theorem writeStdin_issues_of (admits : ∀ slot, d.stdinSlot = some slot → Admits allowed false slot.fd.raw) :
    d.writeStdin.Issues allowed := by
  unfold writeStdin
  split
  · trivial
  · rename_i slot filled
    refine .bind (writeToFd_issues_of (admits slot filled)) fun answer => ?_
    obtain ⟨writer, result⟩ := answer
    rcases result with e | done
    · trivial
    · cases done
      · trivial
      · exact .bind (.bind ((Program.issues_ask _ _).mpr (admits slot filled).close) fun _ => trivial) fun _ => trivial

theorem concerns_of_filled {found : Option FdSlot} (filled : found = some slot) :
    ∀ slot', found = some slot' → Admits (Concerns slot.fd.raw) isStdout slot'.fd.raw := by
  intro slot' same
  cases filled.symm.trans same
  exact admits_concerns isStdout _

end

theorem release_issues (reactor : Reactor) (slot : FdSlot) : (release reactor slot).Issues (isDrainCall · = true) :=
  release_issues_of reactor (admits_drain false _)

theorem dropOut_issues (d : DrainState) (isStdout : Bool) (reactor : Reactor) :
    (d.dropOut isStdout reactor).Issues (isDrainCall · = true) :=
  dropOut_issues_of reactor fun _ _ => admits_drain _ _

theorem dropStdin_issues (d : DrainState) (reactor : Reactor) :
    (d.dropStdin reactor).Issues (isDrainCall · = true) :=
  dropStdin_issues_of reactor fun _ _ => admits_drain _ _

theorem handleOutReady_issues (d : DrainState) (isStdout : Bool) (reactor : Reactor) :
    (d.handleOutReady isStdout reactor).Issues (isDrainCall · = true) :=
  handleOutReady_issues_of reactor fun _ _ => admits_drain _ _

theorem handleStdinWritable_issues (d : DrainState) (reactor : Reactor) :
    (d.handleStdinWritable reactor).Issues (isDrainCall · = true) :=
  handleStdinWritable_issues_of reactor fun _ _ => admits_drain _ _

theorem drop_issues (d : DrainState) : d.drop.Issues (isDrainCall · = true) :=
  .bind (dropSlot_issues _) fun _ => .bind (dropSlot_issues _) fun _ => dropSlot_issues _

end DrainState

end CoreShift
