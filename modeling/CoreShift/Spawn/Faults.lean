import CoreShift.Interaction.Faults
import CoreShift.Spawn.Completion
import CoreShift.Spawn.Creation

namespace CoreShift

open Interaction

/-- The answers that no caller of a call goes on from, once there is a child. -/
def isFault : Event os → Bool
  | ⟨.fcntlGetFl _, .error _⟩ | ⟨.fcntlSetFl _ _, .error _⟩ | ⟨.epollCtlAdd _ _ _ _, .error _⟩ => true
  | ⟨.epollWait _ _ _, .error e⟩ | ⟨.waitpidNoHang _, .error e⟩ | ⟨.waitpid _, .error e⟩ => e ≠ EINTR
  | ⟨.read _ _, .error e⟩ => e ≠ EINTR ∧ e ≠ EAGAIN
  | ⟨.write _ _, .error e⟩ => e ≠ EINTR ∧ e ≠ EAGAIN ∧ e ≠ EPIPE
  | _ => false

theorem isFault_read (fd count : Nat) (e : Errno) :
    isFault ⟨.read fd count, .error e⟩ = decide (e ≠ EINTR ∧ e ≠ EAGAIN) := rfl

theorem isFault_write (fd : Nat) (bytes : Bytes) (e : Errno) :
    isFault ⟨.write fd bytes, .error e⟩ = decide (e ≠ EINTR ∧ e ≠ EAGAIN ∧ e ≠ EPIPE) := rfl

theorem isFault_epollWait (epfd : Nat) (maxEvents timeout : Int) (e : Errno) :
    isFault ⟨.epollWait epfd maxEvents timeout, .error e⟩ = decide (e ≠ EINTR) := rfl

theorem isFault_waitpidNoHang (pid : Int) (e : Errno) :
    isFault ⟨.waitpidNoHang pid, .error e⟩ = decide (e ≠ EINTR) := rfl

theorem isFault_waitpid (pid : Int) (e : Errno) : isFault ⟨.waitpid pid, .error e⟩ = decide (e ≠ EINTR) := rfl

def mayFail : Call → Bool
  | .fcntlGetFl _ | .fcntlSetFl _ _ | .epollCtlAdd _ _ _ _ | .epollWait _ _ _ | .waitpidNoHang _ | .waitpid _
  | .read _ _ | .write _ _ => true
  | _ => false

def isClose : Call → Bool
  | .close _ => true
  | _ => false

def Fails {α : Type} (result : Except SysError α) : Prop := ∃ e, result = .error e

@[simp] theorem fails_error {α : Type} (e : SysError) : Fails (.error e : Except SysError α) := ⟨e, rfl⟩

@[simp] theorem not_fails_ok {α : Type} (value : α) : ¬Fails (.ok value) := by
  intro fails
  obtain ⟨e, same⟩ := fails
  cases same

/-- A part of `spawn` that fails exactly on a fault, after which it only closes descriptors. -/
abbrev Sound {α : Type} (failed : α → Prop) (p : Prog α) : Prop :=
  FailsOn (fun e => isFault e = true) (isClose · = true) failed p

section
variable {α β σ : Type}

theorem sound_harmless {p : Prog α} {failed : α → Prop} (issues : p.Issues (mayFail · = false))
    (succeeds : ∀ value, ¬failed value) : Sound failed p := by
  refine failsOn_of_issues issues (fun e harmless fault => ?_) succeeds
  obtain ⟨call, answer⟩ := e
  cases call <;> first | cases fault | cases harmless

theorem Sound.andThen {p : Prog (Except SysError α)} {rest : Except SysError α → Prog β} {failed : β → Prop}
    (first : Sound Fails p) (goesOn : ∀ value, Sound failed (rest (.ok value)))
    (cleans : ∀ e, (rest (.error e)).Issues (isClose · = true)) (fails : ∀ e, (rest (.error e)).Returns failed) :
    Sound failed (p >>= rest) := by
  refine first.bind (fun result succeeds => ?_) (fun result here => ?_) (fun result here => ?_)
  · rcases result with e | value
    · exact absurd (fails_error e) succeeds
    · exact goesOn value
  · obtain ⟨e, rfl⟩ := here
    exact cleans e
  · obtain ⟨e, rfl⟩ := here
    exact fails e

theorem Sound.andThenWith {p : Prog (σ × Except SysError α)} {rest : σ × Except SysError α → Prog β}
    {failed : β → Prop} (first : Sound (fun v => Fails v.2) p) (goesOn : ∀ s value, Sound failed (rest (s, .ok value)))
    (cleans : ∀ s e, (rest (s, .error e)).Issues (isClose · = true))
    (fails : ∀ s e, (rest (s, .error e)).Returns failed) : Sound failed (p >>= rest) := by
  refine first.bind (fun v succeeds => ?_) (fun v here => ?_) (fun v here => ?_) <;> obtain ⟨s, result⟩ := v
  · rcases result with e | value
    · exact absurd (fails_error e) succeeds
    · exact goesOn s value
  · obtain ⟨e, same⟩ := here
    cases same
    exact cleans s e
  · obtain ⟨e, same⟩ := here
    cases same
    exact fails s e

theorem Sound.andThenLast {τ : Type} {p : Prog (σ × τ × Except SysError α)}
    {rest : σ × τ × Except SysError α → Prog β} {failed : β → Prop} (first : Sound (fun v => Fails v.2.2) p)
    (goesOn : ∀ s u value, Sound failed (rest (s, u, .ok value)))
    (cleans : ∀ s u e, (rest (s, u, .error e)).Issues (isClose · = true))
    (fails : ∀ s u e, (rest (s, u, .error e)).Returns failed) : Sound failed (p >>= rest) := by
  refine first.bind (fun v succeeds => ?_) (fun v here => ?_) (fun v here => ?_) <;> obtain ⟨s, u, result⟩ := v
  · rcases result with e | value
    · exact absurd (fails_error e) succeeds
    · exact goesOn s u value
  · obtain ⟨e, same⟩ := here
    cases same
    exact cleans s u e
  · obtain ⟨e, same⟩ := here
    cases same
    exact fails s u e

theorem sound_after {p : Prog α} {rest : α → Prog β} {failed : β → Prop} (issues : p.Issues (mayFail · = false))
    (goesOn : ∀ value, Sound failed (rest value)) : Sound failed (p >>= rest) :=
  have first : Sound (fun _ => False) p := sound_harmless issues fun _ => id
  first.bind (fun value _ => goesOn value) (fun _ => False.elim) (fun _ => False.elim)

theorem ask_sound (c : Call) : Sound (fun answer => isFault ⟨c, answer⟩ = true) (ask c) :=
  failsOn_ask fun _ => Iff.rfl

theorem retry_sound (c : Call) (again : c.Answer → Bool)
    (harmless : ∀ answer, again answer = true → isFault ⟨c, answer⟩ = false) :
    Sound (fun answer => isFault ⟨c, answer⟩ = true) (retry c again) :=
  failsOn_retry fun answer repeats => by simp [harmless answer repeats]

end

theorem drop_closes (fd : Fd) : fd.drop.Issues (isClose · = true) :=
  .bind ((Program.issues_ask _ _).mpr rfl) fun _ => trivial

theorem dropFd_closes (fd : Option Fd) : (dropFd fd).Issues (isClose · = true) := by
  cases fd with
  | none => trivial
  | some fd => exact drop_closes fd

theorem dropSlot_closes (slot : Option FdSlot) : (dropSlot slot).Issues (isClose · = true) := by
  cases slot with
  | none => trivial
  | some slot => exact drop_closes slot.fd

theorem harmless_of_close {c : Call} (close : isClose c = true) : mayFail c = false := by
  cases c <;> first | rfl | cases close

theorem reactor_drop_closes (reactor : Reactor) : reactor.drop.Issues (isClose · = true) :=
  .bind ((Program.issues_ask _ _).mpr rfl) fun _ => dropFd_closes _

namespace DrainState

theorem drop_closes (d : DrainState) : d.drop.Issues (isClose · = true) :=
  .bind (dropSlot_closes _) fun _ => .bind (dropSlot_closes _) fun _ => dropSlot_closes _

theorem adopt_sound (fd : Option Fd) : Sound Fails (adopt fd) := by
  cases fd with
  | none => exact failsOn_pure (not_fails_ok _)
  | some fd =>
    have flags : Sound Fails fd.setNonblock := by
      refine (ask_sound (.fcntlGetFl fd.raw)).bind (fun answer succeeds => ?_) (fun answer fault => ?_)
        (fun answer fault => ?_)
      · rcases answer with e | flags
        · exact absurd rfl succeeds
        · refine (ask_sound (.fcntlSetFl fd.raw (flags ||| O_NONBLOCK))).map fun _ answer _ => ?_
          rcases answer with e | ⟨⟩
          · exact iff_of_true (fails_error _) rfl
          · exact iff_of_false (not_fails_ok _) Bool.false_ne_true
      · rcases answer with e | flags
        · trivial
        · cases fault
      · rcases answer with e | flags
        · exact fails_error _
        · cases fault
    exact flags.andThen (fun ⟨⟩ => failsOn_pure (not_fails_ok _)) (fun _ => trivial) fun e => fails_error e

theorem new_sound (stdinFd : Option Fd) (stdinBuf : Option Bytes) (stdoutFd stderrFd : Option Fd) (limit : Nat)
    (earlyExit : Bool) : Sound Fails (new stdinFd stdinBuf stdoutFd stderrFd limit earlyExit) := by
  refine (adopt_sound _).andThen (fun stdinSlot => ?_) (fun e => ?_) fun e => ?_
  · refine (adopt_sound _).andThen (fun stdoutSlot => ?_) (fun e => ?_) fun e => ?_
    · refine (adopt_sound _).andThen (fun stderrSlot => ?_) (fun e => ?_) fun e => ?_
      · exact sound_after ((dropFd_closes _).mono fun _ => harmless_of_close)
          fun _ => failsOn_pure (not_fails_ok _)
      · exact .bind (dropSlot_closes _) fun _ => .bind (dropSlot_closes _) fun _ => .bind (dropFd_closes _) fun _ =>
          .bind (dropFd_closes _) fun _ => trivial
      · exact .bind fun _ => .bind fun _ => .bind fun _ => .bind fun _ => fails_error e
    · exact .bind (dropSlot_closes _) fun _ => .bind (dropFd_closes _) fun _ => .bind (dropFd_closes _) fun _ =>
        .bind (dropFd_closes _) fun _ => trivial
    · exact .bind fun _ => .bind fun _ => .bind fun _ => .bind fun _ => fails_error e
  · exact .bind (dropFd_closes _) fun _ => .bind (dropFd_closes _) fun _ => .bind (dropFd_closes _) fun _ => trivial
  · exact .bind fun _ => .bind fun _ => .bind fun _ => fails_error e

theorem registerSlot_sound (reactor : Reactor) (readable writable : Bool) (slot : Option FdSlot) :
    Sound (fun v => Fails v.2.2) (registerSlot reactor readable writable slot) := by
  cases slot with
  | none => exact failsOn_pure (not_fails_ok _)
  | some slot =>
    have adds : Sound (fun v => Fails v.2) (reactor.add slot.fd readable writable) := by
      have adds : ∀ (r : Reactor) (token : Token),
          Sound Fails (r.addWithToken slot.fd.raw token readable writable) := by
        intro r token
        refine (ask_sound (.epollCtlAdd _ _ _ _)).map fun _ answer _ => ?_
        rcases answer with e | ⟨⟩
        · exact iff_of_true (fails_error _) rfl
        · exact iff_of_false (not_fails_ok _) Bool.false_ne_true
      exact (adds _ _).andThen (fun ⟨⟩ => failsOn_pure (not_fails_ok _)) (fun _ => trivial) fun e => fails_error e
    refine adds.andThenWith (fun r token => failsOn_pure (not_fails_ok _)) (fun r e => ?_) fun r e => ?_
    · exact .bind (CoreShift.drop_closes _) fun _ => trivial
    · exact .bind fun _ => fails_error e

theorem registerWithReactor_sound (d : DrainState) (reactor : Reactor) :
    Sound (fun v => Fails v.2.2) (d.registerWithReactor reactor) := by
  refine (registerSlot_sound _ _ _ _).andThenLast (fun r slot ⟨⟩ => ?_) (fun _ _ _ => trivial)
    fun _ _ e => fails_error e
  refine (registerSlot_sound _ _ _ _).andThenLast (fun r slot ⟨⟩ => ?_) (fun _ _ _ => trivial)
    fun _ _ e => fails_error e
  exact (registerSlot_sound _ _ _ _).map fun _ _ _ => Iff.rfl

end DrainState

theorem rawResult_error {α β : Type} (op : String) (value : α → β) (e : Errno) :
    Fd.rawResult op value (.error e) = if e = EAGAIN then .ok none else .error (.sys e op) := by
  by_cases blocked : e = EAGAIN
  · simp [Fd.rawResult, blocked]
  · have other : ¬(e = EAGAIN ∨ e = EWOULDBLOCK) := fun h => blocked (h.elim id id)
    simp only [Fd.rawResult]
    rw [if_neg other, if_neg blocked]

theorem readSlice_sound (fd : Fd) (count : Nat) : Sound Fails (fd.readSlice count) := by
  refine (retry_sound (.read fd.raw count) interrupted fun answer again => ?_).map fun _ answer run => ?_
  · rw [eq_of_interrupted answer again]
    simp [isFault_read]
  · rcases answer with e | data
    · have notInterrupted : e ≠ EINTR := by simpa [interrupted] using exec_retry_stops run
      by_cases blocked : e = EAGAIN
      · simp [rawResult_error, isFault_read, blocked]
      · simp [rawResult_error, isFault_read, blocked, notInterrupted]
    · exact iff_of_false (not_fails_ok _) Bool.false_ne_true

/-- A write to a pipe without a reader is no failure of the writer. -/
theorem writeSlice_sound (fd : Fd) (bytes : Bytes) :
    Sound (fun result => ∃ e, result = .error e ∧ e.code ≠ EPIPE) (fd.writeSlice bytes) := by
  refine (retry_sound (.write fd.raw bytes) interrupted fun answer again => ?_).map fun _ answer run => ?_
  · rw [eq_of_interrupted answer again]
    simp [isFault_write]
  · rcases answer with e | n
    · have notInterrupted : e ≠ EINTR := by simpa [interrupted] using exec_retry_stops run
      by_cases blocked : e = EAGAIN
      · simp [rawResult_error, isFault_write, blocked]
      · simp [rawResult_error, isFault_write, blocked, notInterrupted]
    · exact iff_of_false (by simp [Fd.rawResult]) Bool.false_ne_true

namespace BufferState

theorem readFromFd_sound (b : BufferState) (fd : Fd) (isStdout earlyExit : Bool) :
    Sound (fun v => Fails v.2) (b.readFromFd fd isStdout earlyExit) := by
  have round : ∀ dest, Sound (Sum.elim (fun _ => False) fun v => Fails v.2)
      (readRound fd isStdout earlyExit b.limit dest) := by
    intro dest
    by_cases full : b.limit - dest.length = 0
    · simp only [readRound, full, ↓reduceIte]
      refine (readSlice_sound _ _).andThen (fun data => ?_) (fun _ => trivial) fun e => fails_error e
      rcases data with _ | data
      · exact failsOn_pure (not_fails_ok _)
      · show Sound _ (if 0 < data.length then _ else _)
        split
        · exact failsOn_pure not_false
        · exact failsOn_pure (not_fails_ok _)
    · simp only [readRound, full, ↓reduceIte]
      refine (readSlice_sound _ _).andThen (fun data => ?_) (fun _ => trivial) fun e => fails_error e
      rcases data with _ | data
      · exact failsOn_pure (not_fails_ok _)
      · show Sound _ (if 0 < data.length then _ else _)
        split
        · split
          · refine sound_after ((Program.issues_ask _ _).mpr rfl) fun stop => ?_
            split
            · exact failsOn_pure (not_fails_ok _)
            · exact failsOn_pure not_false
          · exact failsOn_pure not_false
        · exact failsOn_pure (not_fails_ok _)
  have rounds : Sound (fun v => Fails v.2)
      (iterate (readRound fd isStdout earlyExit b.limit) (b.dest isStdout)) := .iterate _ round
  exact rounds.map fun _ _ _ => Iff.rfl

end BufferState

namespace WriterState

theorem writeToFd_sound (w : WriterState) (fd : Fd) : Sound (fun v => Fails v.2) (w.writeToFd fd) := by
  have round : ∀ buf off, Sound (Sum.elim (fun _ => False) fun v => Fails v.2) (writeRound fd buf off) := by
    intro buf off
    unfold writeRound
    split
    · refine (writeSlice_sound _ _).bind (fun result succeeds => ?_) (fun result here => ?_) (fun result here => ?_)
      · rcases result with e | _ | n
        · have broken : e.code = EPIPE := by simpa using succeeds
          simp only [broken, ↓reduceIte]
          exact failsOn_pure (not_fails_ok _)
        · exact failsOn_pure (not_fails_ok _)
        · show Sound _ (if 0 < n then _ else _)
          split
          · exact failsOn_pure not_false
          · exact failsOn_pure (not_fails_ok _)
      · obtain ⟨e, rfl, other⟩ := here
        simp only [other, ↓reduceIte]
        trivial
      · obtain ⟨e, rfl, other⟩ := here
        simp only [other, ↓reduceIte]
        exact fails_error e
    · exact failsOn_pure (not_fails_ok _)
  unfold writeToFd
  split
  · exact .iterate _ (round _)
  · exact failsOn_pure (not_fails_ok _)

end WriterState

namespace DrainState

theorem release_harmless (reactor : Reactor) (slot : FdSlot) :
    (release reactor slot).Issues (mayFail · = false) :=
  .bind (.bind ((Program.issues_ask _ _).mpr rfl) fun _ => trivial)
    fun _ => .bind ((Program.issues_ask _ _).mpr rfl) fun _ => trivial

theorem dropOut_harmless (d : DrainState) (isStdout : Bool) (reactor : Reactor) :
    (d.dropOut isStdout reactor).Issues (mayFail · = false) := by
  unfold dropOut
  split
  · trivial
  · exact .bind (release_harmless _ _) fun _ => trivial

theorem dropStdin_harmless (d : DrainState) (reactor : Reactor) :
    (d.dropStdin reactor).Issues (mayFail · = false) := by
  unfold dropStdin
  split
  · trivial
  · exact .bind (release_harmless _ _) fun _ => trivial

theorem handleOutReady_sound (d : DrainState) (isStdout : Bool) (reactor : Reactor) :
    Sound (fun v => Fails v.2) (d.handleOutReady isStdout reactor) := by
  unfold handleOutReady
  split
  · exact failsOn_pure (not_fails_ok _)
  · refine (BufferState.readFromFd_sound _ _ _ _).andThenWith (fun buffer eof => ?_) (fun _ _ => trivial)
      fun _ e => fails_error e
    cases eof
    · exact failsOn_pure (not_fails_ok _)
    · exact sound_after (dropOut_harmless _ _ _) fun _ => failsOn_pure (not_fails_ok _)

theorem handleStdinWritable_sound (d : DrainState) (reactor : Reactor) :
    Sound (fun v => Fails v.2) (d.handleStdinWritable reactor) := by
  unfold handleStdinWritable
  split
  · exact failsOn_pure (not_fails_ok _)
  · refine (WriterState.writeToFd_sound _ _).andThenWith (fun writer done => ?_) (fun _ _ => trivial)
      fun _ e => fails_error e
    cases done
    · exact failsOn_pure (not_fails_ok _)
    · exact sound_after (dropStdin_harmless _ _) fun _ => failsOn_pure (not_fails_ok _)

end DrainState

theorem waitStep_sound (p : Process) : Sound Fails p.waitStep := by
  refine (retry_sound (.waitpidNoHang p.pid) interrupted fun answer again => ?_).map fun _ answer run => ?_
  · rw [eq_of_interrupted answer again]
    simp [isFault_waitpidNoHang]
  · rcases answer with e | _ | status
    · have notInterrupted : e ≠ EINTR := by simpa [interrupted] using exec_retry_stops run
      simp [isFault_waitpidNoHang, notInterrupted]
    · exact iff_of_false (not_fails_ok _) Bool.false_ne_true
    · exact iff_of_false (not_fails_ok _) Bool.false_ne_true

theorem waitBlocking_sound (p : Process) : Sound Fails p.waitBlocking := by
  refine (retry_sound (.waitpid p.pid) interrupted fun answer again => ?_).map fun _ answer run => ?_
  · rw [eq_of_interrupted answer again]
    simp [isFault_waitpid]
  · rcases answer with e | status
    · have notInterrupted : e ≠ EINTR := by simpa [interrupted] using exec_retry_stops run
      simp [isFault_waitpid, notInterrupted]
    · exact iff_of_false (not_fails_ok _) Bool.false_ne_true

theorem wait_sound (reactor : Reactor) (buffer : RoomyVec Reactor.Event) (maxEvents : Nat) (timeout : Int) :
    Sound (fun v => Fails v.2.2) (reactor.wait buffer maxEvents timeout) := by
  have reserves : ∀ {α : Type} (v : RoomyVec α), (v.reserveFor maxEvents).Issues (mayFail · = false) := by
    intro α v
    unfold RoomyVec.reserveFor
    split
    · exact .bind ((Program.issues_ask _ _).mpr rfl) fun _ => trivial
    · trivial
  by_cases none : maxEvents = 0
  · simp only [Reactor.wait, none, ↓reduceIte]
    exact failsOn_pure (not_fails_ok _)
  · simp only [Reactor.wait, none, ↓reduceIte]
    refine sound_after (reserves _) fun _ => sound_after (reserves _) fun _ => ?_
    refine (ask_sound (.epollWait _ _ _)).bind (fun answer succeeds => ?_) (fun answer fault => ?_)
      (fun answer fault => ?_)
    · rcases answer with e | ready
      · have again : e = EINTR := by simpa [isFault_epollWait] using succeeds
        simp only [again, ↓reduceIte]
        exact failsOn_pure (not_fails_ok _)
      · show Sound _ (if 0 < ready.val.length then _ else _)
        split
        · exact failsOn_pure (not_fails_ok _)
        · exact failsOn_pure (not_fails_ok _)
    · rcases answer with e | ready
      · have other : e ≠ EINTR := by simpa [isFault_epollWait] using fault
        simp only [other, ↓reduceIte]
        trivial
      · cases fault
    · rcases answer with e | ready
      · have other : e ≠ EINTR := by simpa [isFault_epollWait] using fault
        simp only [other, ↓reduceIte]
        exact fails_error _
      · cases fault

namespace WaitLoop

theorem handleEvent_sound (reactor : Reactor) (drain : DrainState) (ev : Reactor.Event) :
    Sound (fun v => Fails v.2) (handleEvent reactor drain ev) := by
  have passed : Sound (fun v => Fails v.2) (pure (drain, .ok ()) : Prog (DrainState × Except SysError Unit)) :=
    failsOn_pure (not_fails_ok _)
  have drops : ∀ {p : Prog DrainState}, p.Issues (mayFail · = false) →
      Sound (fun v => Fails v.2) (do return (← p, .ok ()) : Prog (DrainState × Except SysError Unit)) :=
    fun harmless => sound_after harmless fun _ => failsOn_pure (not_fails_ok _)
  unfold handleEvent
  split
  · split
    · exact DrainState.handleOutReady_sound _ _ _
    · split
      · exact drops (DrainState.dropOut_harmless _ _ _)
      · exact passed
  · split
    · split
      · exact DrainState.handleOutReady_sound _ _ _
      · split
        · exact drops (DrainState.dropOut_harmless _ _ _)
        · exact passed
    · split
      · split
        · exact DrainState.handleStdinWritable_sound _ _
        · split
          · exact drops (DrainState.dropStdin_harmless _ _)
          · exact passed
      · exact passed

theorem dispatch_sound (reactor : Reactor) (drain : DrainState) (events : List Reactor.Event) :
    Sound (fun v => Fails v.2) (dispatch reactor drain events) := by
  induction events generalizing drain with
  | nil => exact failsOn_pure (not_fails_ok _)
  | cons ev rest ih =>
    exact (handleEvent_sound _ _ _).andThenWith (fun drain ⟨⟩ => ih drain) (fun _ _ => trivial)
      fun _ e => fails_error e

abbrev Leaves : LoopState ⊕ Except SysError Output → Prop := Sum.elim (fun _ => False) Fails

theorem abandon_closes (st : LoopState) (e : SysError) : (abandon st e).Issues (isClose · = true) :=
  .bind (reactor_drop_closes _) fun _ => .bind (DrainState.drop_closes _) fun _ => trivial

theorem abandon_leaves_error (st : LoopState) (e : SysError) : (abandon st e).Returns Leaves :=
  .bind fun _ => .bind fun _ => fails_error e

theorem deliver_sound (cfg : WaitConfig) (st : LoopState) (s : ExitStatus) : Sound Leaves (deliver cfg st s) := by
  have releases : ∀ slots, (releaseAll st.reactor slots).Issues (mayFail · = false) := by
    intro slots
    induction slots with
    | nil => trivial
    | cons slot rest ih => exact .bind (DrainState.release_harmless _ _) fun _ => ih
  have drops : ∀ d : DrainState, d.intoParts.Issues (mayFail · = false) :=
    fun d => .bind ((DrainState.drop_closes d).mono fun _ => harmless_of_close) fun _ => trivial
  exact sound_after (releases _) fun _ => sound_after (drops _) fun _ =>
    sound_after ((reactor_drop_closes _).mono fun _ => harmless_of_close) fun _ => failsOn_pure (not_fails_ok _)

theorem finish_sound (cfg : WaitConfig) (st : LoopState) : Sound Leaves (finish cfg st) := by
  unfold finish
  split
  · exact deliver_sound _ _ _
  · exact (waitBlocking_sound _).andThen (fun s => deliver_sound _ _ _) (abandon_closes st) (abandon_leaves_error st)

theorem poll_sound (st : LoopState) (timeout : Int) : Sound Leaves (poll st timeout) := by
  refine (wait_sound _ _ _ _).andThenLast (fun reactor events n => ?_) (fun _ _ e => abandon_closes _ e)
    fun _ _ e => abandon_leaves_error _ e
  exact (dispatch_sound _ _ _).andThenWith (fun drain ⟨⟩ => failsOn_pure not_false) (fun _ e => abandon_closes _ e)
    fun _ e => abandon_leaves_error _ e

theorem checkDeadline_harmless (cfg : WaitConfig) (startTime : Nat) (st : LoopState) :
    (checkDeadline cfg startTime st).Issues (mayFail · = false) := by
  have signals : ∀ sig, (signal cfg sig).Issues (mayFail · = false) := by
    intro sig
    unfold signal
    split
    · refine .bind ((Program.issues_ask _ _).mpr rfl) fun answer => ?_
      rcases answer with e | ⟨⟩ <;> trivial
    · refine .bind ((Program.issues_ask _ _).mpr rfl) fun answer => ?_
      rcases answer with e | ⟨⟩ <;> trivial
  cases limited : cfg.timeoutMs with
  | none =>
    simp only [checkDeadline, limited]
    trivial
  | some ms =>
    rw [checkDeadline_eq startTime st limited]
    refine .bind ((Program.issues_ask _ _).mpr rfl) fun now => ?_
    unfold afterReading
    split
    · exact .bind (signals _) fun _ => trivial
    · split <;> trivial

theorem collectStatus_sound (cfg : WaitConfig) (st : LoopState) :
    Sound (fun v => Fails v.2) (collectStatus cfg st) := by
  unfold collectStatus
  split
  · exact failsOn_pure (not_fails_ok _)
  · refine (waitStep_sound _).andThen (fun status => ?_) (fun _ => trivial) fun e => fails_error e
    rcases status with _ | s
    · exact failsOn_pure (not_fails_ok _)
    · exact failsOn_pure (not_fails_ok _)

theorem body_sound (cfg : WaitConfig) (startTime : Nat) (st : LoopState) : Sound Leaves (body cfg startTime st) := by
  refine sound_after (checkDeadline_harmless _ _ _) fun checked => ?_
  refine (collectStatus_sound _ _).andThenWith (fun st ⟨⟩ => ?_) (fun _ e => abandon_closes _ e)
    fun _ e => abandon_leaves_error _ e
  show Sound _ (if st.drain.isDone = true then finish cfg st else poll st checked.2)
  split
  · exact finish_sound _ _
  · exact poll_sound _ _

theorem waitLoop_sound (cfg : WaitConfig) (drain : DrainState) (reactor : Reactor) :
    Sound Fails (waitLoop cfg drain reactor) := by
  refine (waitStep_sound _).andThen (fun status => ?_) (fun e => ?_) fun e => ?_
  · exact sound_after ((Program.issues_ask _ _).mpr rfl) fun _ => .iterate _ fun _ => body_sound _ _ _
  · exact .bind (reactor_drop_closes _) fun _ => .bind (DrainState.drop_closes _) fun _ => trivial
  · exact .bind fun _ => .bind fun _ => fails_error e

end WaitLoop

end CoreShift
