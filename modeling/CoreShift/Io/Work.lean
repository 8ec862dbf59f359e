import CoreShift.Io.Capture

namespace CoreShift

open Interaction

def isSyscall : Call → Bool
  | .instantNow | .reserve _ _ _ | .earlyExit _ => false
  | _ => true

def syscalls (t : Trace) : Nat := t.countP fun e => isSyscall e.call

def isRepeat : Event os → Bool
  | ⟨.read _ _, answer⟩ => interrupted answer
  | ⟨.write _ _, answer⟩ => interrupted answer
  | _ => false

def repeats (t : Trace) : Nat := t.countP isRepeat

/-- The reads that bring something from a descriptor after `room` bytes came from it. -/
def discards (fd : Nat) : Nat → Trace → Nat
  | _, [] => 0
  | room, e :: t =>
    (if room = 0 ∧ deliveredBy fd e ≠ [] then 1 else 0) + discards fd (room - (deliveredBy fd e).length) t

@[simp] theorem syscalls_append (t t' : Trace) : syscalls (t ++ t') = syscalls t + syscalls t' :=
  List.countP_append

@[simp] theorem repeats_append (t t' : Trace) : repeats (t ++ t') = repeats t + repeats t' :=
  List.countP_append

theorem discards_append (fd room : Nat) (t t' : Trace) :
    discards fd room (t ++ t') =
      discards fd room t + discards fd (room - (delivered fd t).length) t' := by
  induction t generalizing room with
  | nil => simp [discards]
  | cons e t ih =>
    have room' : room - (deliveredBy fd e).length - (delivered fd t).length =
        room - (delivered fd (e :: t)).length := by
      rw [delivered_cons, List.length_append]
      omega
    rw [List.cons_append, discards, ih, room', discards, Nat.add_assoc]

theorem syscalls_le_length (t : Trace) : syscalls t ≤ t.length := List.countP_le_length

theorem syscalls_replicate (k : Nat) (e : Event os) (call : isSyscall e.call = true) :
    syscalls (List.replicate k e) = k := by
  simp [syscalls, List.countP_replicate, call]

theorem repeats_replicate (k : Nat) (e : Event os) (again : isRepeat e = true) :
    repeats (List.replicate k e) = k := by
  simp [repeats, List.countP_replicate, again]

theorem discards_replicate (fd fd' count room k : Nat) (e : Errno) :
    discards fd room (List.replicate k ⟨.read fd' count, .error e⟩) = 0 := by
  induction k with
  | zero => rfl
  | succ k ih =>
    rw [List.replicate_succ]
    simp [discards, deliveredBy, ih]

theorem discards_add_repeats_le (fd room : Nat) (t : Trace) : discards fd room t + repeats t ≤ syscalls t := by
  induction t generalizing room with
  | nil => exact Nat.le_refl _
  | cons e t ih =>
    have rest := ih (room - (deliveredBy fd e).length)
    have here : (if room = 0 ∧ deliveredBy fd e ≠ [] then 1 else 0) + repeats [e] ≤ syscalls [e] := by
      obtain ⟨call, answer⟩ := e
      cases call
      case read fd' count =>
        cases answer <;> simp [deliveredBy, repeats, isRepeat, interrupted, syscalls, isSyscall]
        all_goals split <;> simp
      case write fd' bytes =>
        cases answer <;> simp [deliveredBy, repeats, isRepeat, interrupted, syscalls, isSyscall]
        split <;> simp
      all_goals simp [deliveredBy, repeats, isRepeat]
    have split : discards fd room (e :: t) = (if room = 0 ∧ deliveredBy fd e ≠ [] then 1 else 0) +
      discards fd (room - (deliveredBy fd e).length) t := rfl
    rw [split, show e :: t = [e] ++ t from rfl, repeats_append, syscalls_append]
    omega

theorem repeats_le_syscalls (t : Trace) : repeats t ≤ syscalls t := by
  have both := discards_add_repeats_le 0 0 t
  omega

namespace BufferState

theorem round_syscalls {fd : Nat} {isStdout earlyExit : Bool} {limit : Nat} {dest : Bytes} {t : Trace} {o}
    (round : Round fd isStdout earlyExit limit dest t o) : syscalls t ≤ repeats t + 1 := by
  have repeated : ∀ k, syscalls (List.replicate k ⟨.read fd (readCount limit dest), .error EINTR⟩) =
      repeats (List.replicate k ⟨.read fd (readCount limit dest), .error EINTR⟩) := fun k => by
    rw [syscalls_replicate k _ rfl, repeats_replicate k _ rfl]
  cases round <;> simp only [syscalls_append, repeats_append, repeated]
  case waiting => omega
  all_goals rw [Nat.add_assoc]
  all_goals apply Nat.add_le_add_left
  all_goals simp [syscalls, isSyscall]

theorem round_progress {fd : Nat} {isStdout earlyExit : Bool} {limit : Nat} {dest dest' : Bytes} {t : Trace}
    (round : Round fd isStdout earlyExit limit dest t (.done (.inl dest'))) :
    dest.length + 1 ≤ dest'.length + discards fd (limit - dest.length) t := by
  generalize outcome : Outcome.done (I := os) (Sum.inl dest') = o at round
  cases round with
  | data k data present silent =>
    cases outcome
    rw [discards_append, discards_replicate, delivered_replicate, List.length_append, List.length_take]
    by_cases full : limit - dest.length = 0
    · have nonempty : data.val ≠ [] := List.ne_nil_of_length_pos present
      simp [discards, deliveredBy, full, nonempty]
    · omega
  | consulted k data present asked stop =>
    cases stop
    · cases outcome
      rw [List.length_append]
      omega
    · cases outcome
  | waiting | eof | blocked | failed | consulting => cases outcome

theorem iterates_length {fd : Fd} {isStdout earlyExit : Bool} {limit : Nat} {start dest : Bytes} {t : Trace}
    (rounds : Iterates (readRound fd isStdout earlyExit limit) start t dest) :
    dest.length = start.length + min (limit - start.length) (delivered fd.raw t).length := by
  rw [iterates_kept rounds, fill, List.length_append, List.length_take]

theorem iterates_syscalls {fd : Fd} {isStdout earlyExit : Bool} {limit : Nat} {start dest : Bytes} {t : Trace}
    (rounds : Iterates (readRound fd isStdout earlyExit limit) start t dest) :
    start.length + syscalls t ≤ dest.length + discards fd.raw (limit - start.length) t + repeats t := by
  induction rounds with
  | start => simp [syscalls, repeats, discards]
  | @next t t' state following before round ih =>
    have taken := iterates_length before
    have room : limit - state.length = limit - start.length - (delivered fd.raw t).length := by omega
    have round := exec_readRound round
    have cost := round_syscalls round
    have progress := round_progress round
    rw [room] at progress
    rw [syscalls_append, repeats_append, discards_append]
    omega

theorem readFromFd_syscalls {b : BufferState} {fd : Fd} {isStdout earlyExit : Bool} {t : Trace} {o}
    (run : Exec (b.readFromFd fd isStdout earlyExit) t o) :
    syscalls t ≤ b.limit + 1 + (discards fd.raw (b.limit - (b.dest isStdout).length) t + repeats t) := by
  have bounded : ∀ {rounds last dest o}, Iterates (readRound fd isStdout earlyExit b.limit)
      (b.dest isStdout) rounds dest → Round fd.raw isStdout earlyExit b.limit dest last o →
      syscalls (rounds ++ last) ≤ b.limit + 1 +
        (discards fd.raw (b.limit - (b.dest isStdout).length) (rounds ++ last) + repeats (rounds ++ last)) := by
    intro rounds last dest o reached finish
    have taken := iterates_length reached
    have before := iterates_syscalls reached
    have final := round_syscalls finish
    rw [syscalls_append, repeats_append, discards_append]
    omega
  cases o with
  | done result =>
    obtain ⟨rounds, last, dest, final, rfl, _, reached, finish⟩ := exec_readFromFd_done run
    exact bounded reached finish
  | waiting c =>
    obtain ⟨rounds, last, dest, rfl, reached, finish⟩ := exec_readFromFd_waiting run
    exact bounded reached finish

end BufferState

namespace WriterState

theorem round_syscalls {fd : Nat} {buf : Bytes} {off : Nat} {t : Trace} {o} (round : Round fd buf off t o) :
    syscalls t ≤ repeats t + 1 := by
  have repeated : ∀ k, syscalls (List.replicate k ⟨.write fd (offer buf off), .error EINTR⟩) =
      repeats (List.replicate k ⟨.write fd (offer buf off), .error EINTR⟩) := fun k => by
    rw [syscalls_replicate k _ rfl, repeats_replicate k _ rfl]
  cases round
  case finished => exact Nat.zero_le _
  all_goals simp only [syscalls_append, repeats_append, repeated]
  case waiting => omega
  all_goals rw [Nat.add_assoc]
  all_goals apply Nat.add_le_add_left
  all_goals simp [syscalls, isSyscall]

theorem round_progress {fd : Nat} {buf : Bytes} {off off' : Nat} {t : Trace}
    (round : Round fd buf off t (.done (.inl off'))) : off < off' ∧ off' ≤ buf.length := by
  generalize outcome : Outcome.done (I := os) (Sum.inl off') = o at round
  cases round with
  | accepted k left n progress =>
    cases outcome
    have bound := Nat.le_trans n.property (Nat.le_of_eq (offer_length buf off))
    omega
  | finished | waiting | refused | blocked | broken | failed => cases outcome

theorem iterates_syscalls {fd : Fd} {buf : Bytes} {start off : Nat} {t : Trace}
    (rounds : Iterates (writeRound fd buf) start t off) :
    start + syscalls t ≤ off + repeats t ∧ off ≤ max start buf.length := by
  induction rounds with
  | start => exact ⟨by simp [syscalls], Nat.le_max_left ..⟩
  | @next t t' state following _ round ih =>
    have round := exec_writeRound round
    have cost := round_syscalls round
    have progress := round_progress round
    rw [syscalls_append, repeats_append]
    omega

theorem writeToFd_syscalls {w : WriterState} {fd : Fd} {t : Trace} {o} (run : Exec (w.writeToFd fd) t o) :
    syscalls t ≤ (w.buf.getD []).length + 1 + repeats t := by
  cases pending : w.buf with
  | none =>
    simp only [writeToFd, pending, exec_pure_iff] at run
    rw [run.1]
    exact Nat.zero_le _
  | some buf =>
    have bounded : ∀ {rounds last off o}, Iterates (writeRound fd buf) w.off rounds off →
        Round fd.raw buf off last o →
        syscalls (rounds ++ last) ≤ buf.length + 1 + repeats (rounds ++ last) := by
      intro rounds last off o reached finish
      have before := iterates_syscalls reached
      have final := round_syscalls finish
      rw [syscalls_append, repeats_append]
      omega
    cases o with
    | done result =>
      obtain ⟨rounds, last, off, rfl, reached, finish⟩ := exec_writeToFd_done pending run
      exact bounded reached finish
    | waiting c =>
      obtain ⟨rounds, last, off, rfl, reached, finish⟩ := exec_writeToFd_waiting pending run
      exact bounded reached finish

end WriterState

namespace DrainState

theorem release_within (reactor : Reactor) (slot : FdSlot) : (release reactor slot).Within 2 :=
  .bind (n := 1) (m := 1) (.bind (m := 0) (Program.within_ask _) fun _ => trivial)
    fun _ => .bind (m := 0) (Program.within_ask _) fun _ => trivial

theorem dropOut_within (d : DrainState) (isStdout : Bool) (reactor : Reactor) :
    (d.dropOut isStdout reactor).Within 2 := by
  unfold dropOut
  split
  · trivial
  · exact .bind (m := 0) (release_within _ _) fun _ => trivial

theorem dropStdin_within (d : DrainState) (reactor : Reactor) : (d.dropStdin reactor).Within 2 := by
  unfold dropStdin
  split
  · trivial
  · exact .bind (m := 0) (release_within _ _) fun _ => trivial

inductive Handler where
  | stdoutReady
  | stderrReady
  | stdinWritable
  deriving DecidableEq, Repr

def Handler.run : Handler → DrainState → Reactor → Prog (DrainState × Except SysError Unit)
  | .stdoutReady => handleStdoutReady
  | .stderrReady => handleStderrReady
  | .stdinWritable => handleStdinWritable

def outDiscards (d : DrainState) (isStdout : Bool) (t : Trace) : Nat :=
  match d.outSlot isStdout with
  | none => 0
  | some slot => discards slot.fd.raw (d.buffer.limit - (d.buffer.dest isStdout).length) t

def Handler.excess : Handler → DrainState → Trace → Nat
  | .stdoutReady, d, t => d.outDiscards true t + repeats t
  | .stderrReady, d, t => d.outDiscards false t + repeats t
  | .stdinWritable, _, t => repeats t

def stdinLen (d : DrainState) : Nat := (d.writer.buf.getD []).length

theorem excess_le_syscalls (h : Handler) (d : DrainState) (t : Trace) : h.excess d t ≤ syscalls t := by
  have out : ∀ isStdout, d.outDiscards isStdout t + repeats t ≤ syscalls t := by
    intro isStdout
    unfold outDiscards
    split
    · have bound := repeats_le_syscalls t
      omega
    · exact discards_add_repeats_le _ _ _
  cases h
  · exact out true
  · exact out false
  · exact repeats_le_syscalls t

theorem handleOutReady_syscalls {d : DrainState} {isStdout : Bool} {reactor : Reactor} {t : Trace} {o}
    (run : Exec (d.handleOutReady isStdout reactor) t o) :
    syscalls t ≤ d.buffer.limit + 3 + (d.outDiscards isStdout t + repeats t) := by
  cases filled : d.outSlot isStdout <;> simp only [handleOutReady, filled] at run
  · rw [((exec_pure_iff _ _ _).mp run).1]
    exact Nat.zero_le _
  · rename_i slot
    have there : ∀ t, d.outDiscards isStdout t =
        discards slot.fd.raw (d.buffer.limit - (d.buffer.dest isStdout).length) t := by
      intro t
      simp only [outDiscards, filled]
    rcases exec_bind_cases run with ⟨c, rfl, stopped⟩ | ⟨first, ⟨buffer, result⟩, second, rfl, read, rest⟩
    · have cost := BufferState.readFromFd_syscalls stopped
      rw [there]
      omega
    · have cost := BufferState.readFromFd_syscalls read
      have cleanup : second.length ≤ 2 := by
        apply rest.within
        rcases result with e | eof
        · trivial
        · cases eof
          · trivial
          · exact .bind (m := 0) (dropOut_within _ _ _) fun _ => trivial
      have few := Nat.le_trans (syscalls_le_length second) cleanup
      rw [there, syscalls_append, repeats_append, discards_append]
      omega

theorem handleStdinWritable_syscalls {d : DrainState} {reactor : Reactor} {t : Trace} {o}
    (run : Exec (d.handleStdinWritable reactor) t o) : syscalls t ≤ d.stdinLen + 3 + repeats t := by
  unfold handleStdinWritable at run
  split at run
  · rw [((exec_pure_iff _ _ _).mp run).1]
    exact Nat.zero_le _
  · rcases exec_bind_cases run with ⟨c, rfl, stopped⟩ | ⟨first, ⟨writer, result⟩, second, rfl, written, rest⟩
    · have cost := WriterState.writeToFd_syscalls stopped
      unfold stdinLen
      omega
    · have cost := WriterState.writeToFd_syscalls written
      have cleanup : second.length ≤ 2 := by
        apply rest.within
        rcases result with e | done
        · trivial
        · cases done
          · trivial
          · exact .bind (m := 0) (dropStdin_within _ _) fun _ => trivial
      have few := Nat.le_trans (syscalls_le_length second) cleanup
      rw [syscalls_append, repeats_append]
      unfold stdinLen
      omega

theorem handler_syscalls {h : Handler} {d : DrainState} {reactor : Reactor} {t : Trace} {o}
    (run : Exec (h.run d reactor) t o) :
    syscalls t ≤ d.buffer.limit + d.stdinLen + 3 + h.excess d t := by
  cases h with
  | stdoutReady =>
    have cost := handleOutReady_syscalls run
    show syscalls t ≤ d.buffer.limit + d.stdinLen + 3 + (d.outDiscards true t + repeats t)
    omega
  | stderrReady =>
    have cost := handleOutReady_syscalls run
    show syscalls t ≤ d.buffer.limit + d.stdinLen + 3 + (d.outDiscards false t + repeats t)
    omega
  | stdinWritable =>
    have cost := handleStdinWritable_syscalls run
    show syscalls t ≤ d.buffer.limit + d.stdinLen + 3 + repeats t
    omega

/-- Runs of the handlers, however they are chosen, have a common bound in the limit and the length of
    stdin if and only if their excess has one. -/
theorem handler_bounded_iff (chosen : Handler → DrainState → Trace → Prop)
    (runs : ∀ h d t, chosen h d t → ∃ reactor o, Exec (h.run d reactor) t o) :
    (∃ bound : Nat → Nat → Nat, ∀ h d t, chosen h d t → syscalls t ≤ bound d.buffer.limit d.stdinLen) ↔
      ∃ bound : Nat → Nat → Nat, ∀ h d t, chosen h d t → h.excess d t ≤ bound d.buffer.limit d.stdinLen := by
  apply Iff.intro
  · intro bounded
    obtain ⟨bound, within⟩ := bounded
    exact ⟨bound, fun h d t here => Nat.le_trans (excess_le_syscalls h d t) (within h d t here)⟩
  · intro bounded
    obtain ⟨bound, within⟩ := bounded
    refine ⟨fun limit len => limit + len + 3 + bound limit len, fun h d t here => ?_⟩
    obtain ⟨reactor, o, run⟩ := runs h d t here
    exact Nat.le_trans (handler_syscalls run) (Nat.add_le_add_left (within h d t here) _)

def Undisturbed (h : Handler) (d : DrainState) (t : Trace) : Prop :=
  (∃ reactor o, Exec (h.run d reactor) t o) ∧ h.excess d t = 0

theorem handler_bounded_within_limit :
    Undisturbed .stdoutReady (twoStreams 4) [⟨.read 5 4, .ok ⟨[1, 2], by decide⟩⟩, ⟨.read 5 2, .error EAGAIN⟩] ∧
      ∃ bound : Nat → Nat → Nat, ∀ h d t, Undisturbed h d t → syscalls t ≤ bound d.buffer.limit d.stdinLen := by
  constructor
  · exact ⟨⟨⟨3, 1, ⟨[], 64⟩, none, none, none⟩, .done ({ twoStreams 4 with buffer := ⟨[1, 2], [], 4⟩ }, .ok ()),
      .of_replay 5 rfl⟩, by decide⟩
  · refine (handler_bounded_iff Undisturbed fun h d t here => here.1).mpr ⟨fun _ _ => 0, fun h d t here => ?_⟩
    exact Nat.le_of_eq here.2

theorem discarding_run (reactor : Reactor) (n : Nat) :
    Exec (Handler.stdoutReady.run (twoStreams 0) reactor)
      (List.replicate n ⟨.read 5 8192, .ok ⟨[1], by decide⟩⟩) (.waiting (.read 5 8192)) := by
  have rounds : Iterates (BufferState.readRound ⟨5⟩ true false 0) []
      (List.replicate n ⟨.read 5 8192, .ok ⟨[1], by decide⟩⟩) [] := by
    induction n with
    | zero => exact .start
    | succ n ih =>
      rw [List.replicate_succ']
      exact .next ih (.of_replay 5 rfl)
  have stopped : Exec (BufferState.readRound ⟨5⟩ true false 0 []) [] (.waiting (.read 5 8192)) :=
    .of_replay 5 rfl
  have looped := rounds.exec (.inside stopped)
  rw [List.append_nil] at looped
  exact looped.bind_waiting.bind_waiting

/-- A child that always has output ready keeps a handler reading for ever. -/
theorem handler_unbounded :
    ¬∃ bound : Nat → Nat → Nat, ∀ (h : Handler) (d : DrainState) (reactor : Reactor) (t : Trace) o,
      Exec (h.run d reactor) t o → syscalls t ≤ bound d.buffer.limit d.stdinLen := by
  intro bounded
  obtain ⟨bound, within⟩ := bounded
  have run := discarding_run ⟨3, 1, ⟨[], 64⟩, none, none, none⟩ (bound 0 0 + 1)
  have most := within _ _ _ _ _ run
  rw [syscalls_replicate _ _ rfl] at most
  exact absurd most (Nat.not_succ_le_self _)

end DrainState

end CoreShift
