import CoreShift.Interaction.Stutter
import CoreShift.Spawn.StartCalls

namespace CoreShift

open Interaction

def isRetried : Call → Bool
  | .read _ _ | .write _ _ | .waitpid _ | .waitpidNoHang _ => true
  | _ => false

def isInterrupt : Event os → Bool
  | ⟨.read _ _, answer⟩ => interrupted answer
  | ⟨.write _ _, answer⟩ => interrupted answer
  | ⟨.waitpid _, answer⟩ => interrupted answer
  | ⟨.waitpidNoHang _, answer⟩ => interrupted answer
  | _ => false

abbrev Steady {α : Type} (p : Prog α) : Prop := Indifferent isInterrupt p

theorem not_interrupt {c : Call} (answer : c.Answer) (other : isRetried c = false) :
    isInterrupt ⟨c, answer⟩ = false := by
  cases c
  case read | write | waitpid | waitpidNoHang => cases other
  all_goals rfl

theorem steady_of_issues {α : Type} {p : Prog α} (issues : p.Issues (isRetried · = false)) : Steady p :=
  .of_issues issues fun _ => not_interrupt

theorem steady_ask {c : Call} (other : isRetried c = false) : Steady (ask c) :=
  steady_of_issues ((Program.issues_ask _ _).mpr other)

theorem not_retried_of_close {c : Call} (close : isClose c = true) : isRetried c = false := by
  cases c <;> first | rfl | cases close

theorem not_retried_of_start {c : Call} (start : isStartCall c = true) : isRetried c = false := by
  cases c <;> first | rfl | cases start

theorem not_retried_of_wait {c : Call} (wait : WaitLoop.isWaitCall c = true) : isRetried c = false := by
  cases c <;> first | rfl | cases wait

theorem Fd.readSlice_steady (fd : Fd) (count : Nat) : Steady (fd.readSlice count) :=
  .bind (.retry fun _ => rfl) fun _ => .pure _

theorem Fd.writeSlice_steady (fd : Fd) (bytes : Bytes) : Steady (fd.writeSlice bytes) :=
  .bind (.retry fun _ => rfl) fun _ => .pure _

theorem Process.waitStep_steady (p : Process) : Steady p.waitStep := .bind (.retry fun _ => rfl) fun _ => .pure _

theorem Process.waitBlocking_steady (p : Process) : Steady p.waitBlocking :=
  .bind (.retry fun _ => rfl) fun _ => .pure _

theorem Reactor.drop_steady (reactor : Reactor) : Steady reactor.drop :=
  steady_of_issues ((reactor_drop_closes reactor).mono fun _ => not_retried_of_close)

namespace BufferState

theorem readRound_steady (fd : Fd) (isStdout earlyExit : Bool) (limit : Nat) (dest : Bytes) :
    Steady (readRound fd isStdout earlyExit limit dest) := by
  unfold readRound
  by_cases full : limit - dest.length = 0
  · simp only [full, ↓reduceIte]
    refine .bind (fd.readSlice_steady _) fun answer => ?_
    rcases answer with e | _ | data
    · exact .pure _
    · exact .pure _
    · show Steady (if 0 < data.length then _ else _)
      split <;> exact .pure _
  · simp only [full, ↓reduceIte]
    refine .bind (fd.readSlice_steady _) fun answer => ?_
    rcases answer with e | _ | data
    · exact .pure _
    · exact .pure _
    · show Steady (if 0 < data.length then _ else _)
      split
      · split
        · exact .bind (steady_ask rfl) fun _ => .pure _
        · exact .pure _
      · exact .pure _

theorem readFromFd_steady (b : BufferState) (fd : Fd) (isStdout earlyExit : Bool) :
    Steady (b.readFromFd fd isStdout earlyExit) :=
  .bind (.iterate (readRound_steady fd isStdout earlyExit b.limit) _) fun _ => .pure _

end BufferState

namespace WriterState

theorem writeRound_steady (fd : Fd) (buf : Bytes) (off : Nat) : Steady (writeRound fd buf off) := by
  unfold writeRound
  split
  · refine .bind (fd.writeSlice_steady _) fun answer => ?_
    rcases answer with e | _ | n
    · show Steady (if e.code = EPIPE then _ else _)
      split <;> exact .pure _
    · exact .pure _
    · show Steady (if 0 < n then _ else _)
      split <;> exact .pure _
  · exact .pure _

theorem writeToFd_steady (w : WriterState) (fd : Fd) : Steady (w.writeToFd fd) := by
  unfold writeToFd
  split
  · exact .iterate (writeRound_steady fd _) _
  · exact .pure _

end WriterState

namespace DrainState

theorem drop_steady (d : DrainState) : Steady d.drop :=
  steady_of_issues ((drop_closes d).mono fun _ => not_retried_of_close)

theorem release_steady (reactor : Reactor) (slot : FdSlot) : Steady (release reactor slot) :=
  .bind (.bind (steady_ask rfl) fun _ => .pure _) fun _ =>
    steady_of_issues ((CoreShift.drop_closes slot.fd).mono fun _ => not_retried_of_close)

theorem dropOut_steady (d : DrainState) (isStdout : Bool) (reactor : Reactor) :
    Steady (d.dropOut isStdout reactor) := by
  unfold dropOut
  split
  · exact .pure _
  · exact .bind (release_steady _ _) fun _ => .pure _

theorem dropStdin_steady (d : DrainState) (reactor : Reactor) : Steady (d.dropStdin reactor) := by
  unfold dropStdin
  split
  · exact .pure _
  · exact .bind (release_steady _ _) fun _ => .pure _

theorem handleOutReady_steady (d : DrainState) (isStdout : Bool) (reactor : Reactor) :
    Steady (d.handleOutReady isStdout reactor) := by
  unfold handleOutReady
  split
  · exact .pure _
  · refine .bind (d.buffer.readFromFd_steady _ _ _) fun answer => ?_
    obtain ⟨buffer, result⟩ := answer
    rcases result with e | eof
    · exact .pure _
    · show Steady (if eof then _ else _)
      split
      · exact .bind (dropOut_steady _ _ _) fun _ => .pure _
      · exact .pure _

theorem handleStdinWritable_steady (d : DrainState) (reactor : Reactor) : Steady (d.handleStdinWritable reactor) := by
  unfold handleStdinWritable
  split
  · exact .pure _
  · refine .bind (d.writer.writeToFd_steady _) fun answer => ?_
    obtain ⟨writer, result⟩ := answer
    rcases result with e | done
    · exact .pure _
    · show Steady (if done then _ else _)
      split
      · exact .bind (dropStdin_steady _ _) fun _ => .pure _
      · exact .pure _

theorem registerWithReactor_steady (d : DrainState) (reactor : Reactor) : Steady (d.registerWithReactor reactor) :=
  steady_of_issues (registerWithReactor_issues_of (fun _ _ _ _ => rfl) (fun _ => not_retried_of_close) d reactor)

end DrainState

namespace WaitLoop

theorem handleEvent_steady (reactor : Reactor) (d : DrainState) (ev : Reactor.Event) :
    Steady (handleEvent reactor d ev) := by
  have closing : ∀ p : Prog DrainState, Steady p →
      Steady (p >>= fun drain => (pure (drain, .ok ()) : Prog (DrainState × Except SysError Unit))) :=
    fun p steady => .bind steady fun _ => .pure _
  unfold handleEvent
  split
  · split
    · exact d.handleOutReady_steady true reactor
    · split
      · exact closing _ (d.dropOut_steady true reactor)
      · exact .pure _
  · split
    · split
      · exact d.handleOutReady_steady false reactor
      · split
        · exact closing _ (d.dropOut_steady false reactor)
        · exact .pure _
    · split
      · split
        · exact d.handleStdinWritable_steady reactor
        · split
          · exact closing _ (d.dropStdin_steady reactor)
          · exact .pure _
      · exact .pure _

theorem dispatch_steady (reactor : Reactor) (events : List Reactor.Event) (d : DrainState) :
    Steady (dispatch reactor d events) := by
  induction events generalizing d with
  | nil => exact .pure _
  | cons ev rest ih =>
    refine .bind (handleEvent_steady _ _ _) fun answer => ?_
    obtain ⟨drain, result⟩ := answer
    rcases result with e | ⟨⟩
    · exact .pure _
    · exact ih drain

theorem abandon_steady (st : LoopState) (e : SysError) : Steady (abandon st e) :=
  .bind st.reactor.drop_steady fun _ => .bind st.drain.drop_steady fun _ => .pure _

theorem releaseAll_steady (reactor : Reactor) (slots : List FdSlot) : Steady (releaseAll reactor slots) := by
  induction slots with
  | nil => exact .pure _
  | cons slot rest ih => exact .bind (DrainState.release_steady _ _) fun _ => ih

theorem deliver_steady (cfg : WaitConfig) (st : LoopState) (s : ExitStatus) : Steady (deliver cfg st s) :=
  .bind (releaseAll_steady _ _) fun _ =>
    .bind (.bind (DrainState.drop_steady _) fun _ => .pure _) fun _ =>
      .bind (Reactor.drop_steady _) fun _ => .pure _

theorem finish_steady (cfg : WaitConfig) (st : LoopState) : Steady (finish cfg st) := by
  unfold finish
  split
  · exact deliver_steady cfg st _
  · refine .bind (Process.waitBlocking_steady _) fun s => ?_
    rcases s with e | s
    · exact abandon_steady st e
    · exact deliver_steady cfg st s

theorem signal_steady (cfg : WaitConfig) (sig : Int) : Steady (signal cfg sig) := by
  unfold signal
  split
  · refine .bind (steady_ask rfl) fun answer => ?_
    rcases answer with e | ⟨⟩ <;> exact .pure _
  · refine .bind (steady_ask rfl) fun answer => ?_
    rcases answer with e | ⟨⟩ <;> exact .pure _

theorem checkDeadline_steady (cfg : WaitConfig) (startTime : Nat) (st : LoopState) :
    Steady (checkDeadline cfg startTime st) := by
  cases limited : cfg.timeoutMs with
  | none =>
    simp only [checkDeadline, limited]
    exact .pure _
  | some ms =>
    rw [checkDeadline_eq startTime st limited]
    refine .bind (steady_ask rfl) fun now => ?_
    unfold afterReading
    split
    · exact .bind (signal_steady _ _) fun _ => .pure _
    · split <;> exact .pure _

theorem collectStatus_steady (cfg : WaitConfig) (st : LoopState) : Steady (collectStatus cfg st) := by
  unfold collectStatus
  split
  · exact .pure _
  · refine .bind (Process.waitStep_steady _) fun result => ?_
    rcases result with e | _ | s <;> exact .pure _

theorem poll_steady (st : LoopState) (pollTimeout : Int) : Steady (poll st pollTimeout) := by
  have waits := fun reactor : Reactor => steady_of_issues ((wait_issues reactor ⟨[], 0⟩ 64
    (waitTimeout st.statusRaw pollTimeout)).mono fun _ => not_retried_of_wait)
  refine .bind (waits _) fun answer => ?_
  obtain ⟨reactor, events, result⟩ := answer
  rcases result with e | nevents
  · exact abandon_steady _ _
  · refine .bind (dispatch_steady _ _ _) fun answer => ?_
    obtain ⟨drain, result⟩ := answer
    rcases result with e | ⟨⟩
    · exact abandon_steady _ _
    · exact .pure _

theorem body_steady (cfg : WaitConfig) (startTime : Nat) (st : LoopState) : Steady (body cfg startTime st) := by
  refine .bind (checkDeadline_steady cfg startTime st) fun checked => ?_
  refine .bind (collectStatus_steady cfg checked.1) fun answer => ?_
  obtain ⟨st, result⟩ := answer
  rcases result with e | ⟨⟩
  · exact abandon_steady st e
  · show Steady (if st.drain.isDone = true then finish cfg st else poll st checked.2)
    split
    · exact finish_steady cfg st
    · exact poll_steady st checked.2

theorem waitLoop_steady (cfg : WaitConfig) (drain : DrainState) (reactor : Reactor) :
    Steady (waitLoop cfg drain reactor) := by
  refine .bind (Process.waitStep_steady _) fun result => ?_
  rcases result with e | status
  · exact .bind reactor.drop_steady fun _ => .bind drain.drop_steady fun _ => .pure _
  · exact .bind (steady_ask rfl) fun startTime => .iterate (body_steady cfg startTime) _

end WaitLoop

theorem settle_steady (opts : SpawnOptions) (reactor : Reactor) (started : Except SysError (Int × DrainState)) :
    Steady (settle opts reactor started) := by
  rcases started with e | ⟨pid, drain⟩
  · exact .bind reactor.drop_steady fun _ => .pure _
  refine .bind (drain.registerWithReactor_steady reactor) fun answer => ?_
  obtain ⟨drain, reactor, result⟩ := answer
  rcases result with e | ⟨⟩
  · exact .bind drain.drop_steady fun _ => .bind reactor.drop_steady fun _ => .pure _
  · show Steady (if !opts.wait then _ else _)
    split
    · exact .bind (.bind drain.drop_steady fun _ => .pure _) fun _ => .bind reactor.drop_steady fun _ => .pure _
    · exact WaitLoop.waitLoop_steady _ _ _

theorem spawn_steady (platform : Platform) (opts : SpawnOptions) : Steady (spawn platform opts) := by
  have creating : Steady Reactor.new := by
    refine .bind (steady_ask rfl) fun answer => ?_
    rcases answer with e | epfd
    · exact .pure _
    · exact .bind (steady_ask rfl) fun _ => .pure _
  refine .bind creating fun made => ?_
  rcases made with e | reactor
  · exact .pure _
  · have starting := steady_of_issues ((spawnStart_starts platform opts).mono fun _ => not_retried_of_start)
    exact .bind starting fun started => settle_steady opts reactor started

/-- Calls that a signal interrupts leave no trace in what `spawn` does and returns: a run stands where it
    stands without them, and where it would stand with any more of them. -/
theorem interrupts_invisible {platform : Platform} {opts : SpawnOptions} {t : Trace} {o}
    (run : Exec (spawn platform opts) t o) :
    Exec (spawn platform opts) (visible isInterrupt t) o ∧
      (∀ t', Delayed isInterrupt o.pending t t' → Exec (spawn platform opts) t' o) ∧
      ∀ t' o', Exec (spawn platform opts) t' o' → visible isInterrupt t = visible isInterrupt t' → o = o' :=
  have steady := spawn_steady platform opts
  ⟨steady.drops t o run, fun t' delayed => steady.puts t t' o run delayed, fun _ _ run' agree =>
    steady.agree run run' agree⟩

theorem room_for_one : 1 ≤ (64 : Int).toNat := by decide

theorem one_of_sixteen : 1 ≤ 16 := by decide

theorem none_of_fifteen : 0 ≤ 15 := by decide

def oftenInterrupted : Trace :=
  [⟨.close 5, .ok ()⟩, ⟨.fcntlGetFl 4, .ok 0⟩, ⟨.fcntlSetFl 4 0o4000, .ok ()⟩, ⟨.epollCtlAdd 3 4 0x80000001 1, .ok ()⟩,
    ⟨.waitpidNoHang 42, .error EINTR⟩, ⟨.waitpidNoHang 42, .ok (some 0)⟩, ⟨.instantNow, (0 : Nat)⟩,
    ⟨.reserve 0 0 64, ⟨64, WaitLoop.room_for_events⟩⟩, ⟨.epollWait 3 64 1, .ok ⟨[⟨EPOLLIN, 1⟩], room_for_one⟩⟩,
    ⟨.read 4 16, .error EINTR⟩, ⟨.read 4 16, .error EINTR⟩, ⟨.read 4 16, .ok ⟨[104], one_of_sixteen⟩⟩,
    ⟨.read 4 15, .ok ⟨[], none_of_fifteen⟩⟩, ⟨.epollCtlDel 3 4, .ok ()⟩, ⟨.close 4, .ok ()⟩, ⟨.close 3, .ok ()⟩]

theorem uninterrupted : Exec (spawn .linux capturing)
    (visible isInterrupt (capturingStart ++ capturingChild :: oftenInterrupted))
    (.done (.ok ⟨42, some (.exited 0), [104], [], false⟩)) := by
  have run : Exec (spawn .linux capturing) (capturingStart ++ capturingChild :: oftenInterrupted)
      (.done (.ok ⟨42, some (.exited 0), [104], [], false⟩)) := .of_replay 5 rfl
  exact (interrupts_invisible run).1

end CoreShift
