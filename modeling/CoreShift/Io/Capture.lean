import CoreShift.Io.Handlers
import CoreShift.Observe

namespace CoreShift

open Interaction

def fill (limit : Nat) (dest data : Bytes) : Bytes := dest ++ data.take (limit - dest.length)

@[simp] theorem fill_nil (limit : Nat) (dest : Bytes) : fill limit dest [] = dest := by
  simp [fill]

theorem fill_empty (limit : Nat) (data : Bytes) : fill limit [] data = data.take limit := rfl

theorem fill_fill (limit : Nat) (dest first second : Bytes) :
    fill limit (fill limit dest first) second = fill limit dest (first ++ second) := by
  have room : limit - (dest ++ first.take (limit - dest.length)).length =
      limit - dest.length - first.length := by
    rw [List.length_append, List.length_take]
    omega
  unfold fill
  rw [room, List.take_append, List.append_assoc]

theorem fill_of_room {limit : Nat} {dest data : Bytes} (room : data.length ≤ limit - dest.length) :
    fill limit dest data = dest ++ data := by
  rw [fill, List.take_of_length_le room]

theorem length_fill (limit : Nat) (data : Bytes) : (fill limit [] data).length = min limit data.length := by
  rw [fill_empty, List.length_take]

namespace BufferState

def Kept (isStdout earlyExit : Bool) (fd limit : Nat) (dest : Bytes) (t : Trace) : Prop :=
  (∀ dest', Round fd isStdout earlyExit limit dest t (.done (.inl dest')) →
    dest' = fill limit dest (delivered fd t)) ∧
  ∀ dest' result, Round fd isStdout earlyExit limit dest t (.done (.inr (dest', result))) →
    dest' = fill limit dest (delivered fd t)

theorem consulted_room {isStdout earlyExit : Bool} {limit : Nat} {dest : Bytes}
    (asked : consults isStdout earlyExit limit dest = true)
    (data : { data : Bytes // data.length ≤ readCount limit dest }) :
    fill limit dest data.val = dest ++ data.val := by
  have room : dest.length < limit := by simpa [consults] using (Bool.and_eq_true_iff.mp asked).2
  have bound := data.property
  unfold readCount at bound
  apply fill_of_room
  split at bound <;> omega

theorem delivered_round (fd count k : Nat) (data : { data : Bytes // data.length ≤ count }) :
    delivered fd (List.replicate k ⟨.read fd count, .error EINTR⟩ ++ [⟨.read fd count, .ok data⟩]) =
      data.val := by
  simp [deliveredBy]

theorem round_kept (fd : Nat) (isStdout earlyExit : Bool) (limit : Nat) (dest : Bytes) (t : Trace) :
    Kept isStdout earlyExit fd limit dest t := by
  refine ⟨fun dest' round => ?_, fun dest' result round => ?_⟩
  · generalize outcome : Outcome.done (I := os) (Sum.inl dest') = o at round
    cases round with
    | data k data present silent =>
      cases outcome
      rw [delivered_round]
      rfl
    | consulted k data present asked stop =>
      cases stop
      · cases outcome
        have kept := consulted_room asked data
        simp [deliveredBy, kept]
      · cases outcome
    | waiting | eof | blocked | failed | consulting => cases outcome
  · generalize outcome : Outcome.done (I := os) (Sum.inr (dest', result)) = o at round
    cases round with
    | eof k =>
      cases outcome
      rw [delivered_round, fill_nil]
    | blocked k => cases outcome; simp [deliveredBy]
    | failed k e => cases outcome; simp [deliveredBy]
    | consulted k data present asked stop =>
      cases stop
      · cases outcome
      · cases outcome
        have kept := consulted_room asked data
        simp [deliveredBy, kept]
    | waiting | data | consulting => cases outcome

theorem iterates_kept {fd : Fd} {isStdout earlyExit : Bool} {limit : Nat} {start dest : Bytes} {t : Trace}
    (rounds : Iterates (readRound fd isStdout earlyExit limit) start t dest) :
    dest = fill limit start (delivered fd.raw t) := by
  induction rounds with
  | start => simp
  | @next t t' state following _ round ih =>
    have step := (round_kept _ _ _ _ _ t').1 _ (exec_readRound round)
    rw [step, ih, fill_fill, delivered_append]

theorem readFromFd_kept {b b' : BufferState} {fd : Fd} {isStdout earlyExit : Bool} {t : Trace}
    {result : Except SysError Bool} (run : Exec (b.readFromFd fd isStdout earlyExit) t (.done (b', result))) :
    b' = b.setDest isStdout (fill b.limit (b.dest isStdout) (delivered fd.raw t)) := by
  obtain ⟨rounds, last, dest, final, rfl, rfl, reached, finish⟩ := exec_readFromFd_done run
  have before := iterates_kept reached
  have after := (round_kept _ _ _ _ _ last).2 _ _ finish
  rw [after, before, fill_fill, delivered_append]

theorem delivered_of_reads {fd other : Nat} {t : Trace} (different : other ≠ fd)
    (calls : ∀ e ∈ t, Reads fd e.call) : delivered other t = [] := by
  apply delivered_of_forall
  intro e member
  obtain ⟨call, answer⟩ := e
  rcases calls _ member with ⟨count, same⟩ | ⟨slice, same⟩ <;> cases same
  · cases answer with
    | error e => rfl
    | ok data => simp [deliveredBy, different.symm]
  · rfl

end BufferState

namespace DrainState

def deliveredOn (fd : Option Nat) (t : Trace) : Bytes :=
  match fd with
  | none => []
  | some fd => delivered fd t

@[simp] theorem deliveredOn_nil (fd : Option Nat) : deliveredOn fd [] = [] := by
  cases fd <;> rfl

@[simp] theorem deliveredOn_append (fd : Option Nat) (t t' : Trace) :
    deliveredOn fd (t ++ t') = deliveredOn fd t ++ deliveredOn fd t' := by
  cases fd
  · rfl
  · exact delivered_append ..

theorem deliveredOn_of_forall {fd : Option Nat} {t : Trace} (quiet : ∀ n, delivered n t = []) :
    deliveredOn fd t = [] := by
  cases fd
  · rfl
  · exact quiet _

/-- What a state has captured of two piped streams, and which descriptors it can still read. -/
structure Captured (fds : Bool → Option Nat) (limit : Nat) (t : Trace) (d : DrainState) : Prop where
  bounded : d.buffer.limit = limit
  bytes : ∀ stream, d.buffer.dest stream = fill limit [] (deliveredOn (fds stream) t)
  slots : ∀ stream slot, d.outSlot stream = some slot → fds stream = some slot.fd.raw

@[simp] theorem dest_setDest_self (b : BufferState) (isStdout : Bool) (bytes : Bytes) :
    (b.setDest isStdout bytes).dest isStdout = bytes := by
  cases isStdout <;> rfl

theorem dest_setDest_of_ne (b : BufferState) {isStdout stream : Bool} (bytes : Bytes)
    (different : stream ≠ isStdout) : (b.setDest isStdout bytes).dest stream = b.dest stream := by
  cases isStdout <;> cases stream
  · exact absurd rfl different
  · rfl
  · rfl
  · exact absurd rfl different

@[simp] theorem limit_setDest (b : BufferState) (isStdout : Bool) (bytes : Bytes) :
    (b.setDest isStdout bytes).limit = b.limit := by
  cases isStdout <;> rfl

@[simp] theorem buffer_clearOut (d : DrainState) (isStdout : Bool) :
    (d.clearOut isStdout).buffer = d.buffer := by
  cases isStdout <;> rfl

theorem outSlot_clearOut {d : DrainState} {isStdout stream : Bool} {slot : FdSlot}
    (filled : (d.clearOut isStdout).outSlot stream = some slot) : d.outSlot stream = some slot := by
  cases isStdout <;> cases stream <;> first | exact filled | cases filled

theorem Captured.clearOut {fds : Bool → Option Nat} {limit : Nat} {t : Trace} {d : DrainState}
    (captured : Captured fds limit t d) (isStdout : Bool) : Captured fds limit t (d.clearOut isStdout) where
  bounded := by rw [buffer_clearOut, captured.bounded]
  bytes stream := by rw [buffer_clearOut, captured.bytes]
  slots stream slot filled := captured.slots stream slot (outSlot_clearOut filled)

theorem Captured.quiet {fds : Bool → Option Nat} {limit : Nat} {t t' : Trace} {d : DrainState}
    (captured : Captured fds limit t d) (quiet : ∀ n, delivered n t' = []) :
    Captured fds limit (t ++ t') d where
  bounded := captured.bounded
  bytes stream := by rw [deliveredOn_append, deliveredOn_of_forall quiet, List.append_nil, captured.bytes]
  slots := captured.slots

theorem dropped_quiet {slot : FdSlot} {t : Trace} (closed : Dropped slot t) (n : Nat) :
    delivered n t = [] := by
  obtain ⟨answer, rfl⟩ := closed
  rfl

theorem released_quiet {reactor : Reactor} {slot : FdSlot} {t : Trace} (released : Released reactor slot t)
    (n : Nat) : delivered n t = [] := by
  obtain ⟨deleted, answer, rfl⟩ := released
  rfl

theorem Captured.read {fds : Bool → Option Nat} {limit : Nat} {t t' : Trace} {d : DrainState}
    {isStdout : Bool} {slot : FdSlot} {buffer : BufferState} {result : Except SysError Bool}
    (distinct : ∀ fd, fds true = some fd → fds false ≠ some fd) (captured : Captured fds limit t d)
    (filled : d.outSlot isStdout = some slot)
    (read : Exec (d.buffer.readFromFd slot.fd isStdout d.earlyExit) t' (.done (buffer, result))) :
    Captured fds limit (t ++ t') { d with buffer } := by
  have here := captured.slots isStdout slot filled
  have kept := BufferState.readFromFd_kept read
  have issued := (read.issues (BufferState.readFromFd_issues _ _ _ _)).1
  have elsewhere : ∀ stream, stream ≠ isStdout → deliveredOn (fds stream) t' = [] := by
    intro stream other
    cases there : fds stream with
    | none => rfl
    | some fd =>
      apply BufferState.delivered_of_reads _ issued
      intro same
      subst same
      cases stream <;> cases isStdout
      · exact other rfl
      · exact distinct _ here there
      · exact distinct _ there here
      · exact other rfl
  refine ⟨by simpa [kept] using captured.bounded, fun stream => ?_, captured.slots⟩
  by_cases same : stream = isStdout
  · subst same
    rw [kept, dest_setDest_self, captured.bounded, captured.bytes, fill_fill, deliveredOn_append, here]
    rfl
  · rw [kept, dest_setDest_of_ne _ _ same, captured.bytes, deliveredOn_append, elsewhere stream same,
      List.append_nil]

theorem Captured.served {fds : Bool → Option Nat} {limit : Nat} {t t' : Trace} {d d' : DrainState}
    {isStdout : Bool} {closing : FdSlot → Trace → Prop} {e : Option SysError}
    (distinct : ∀ fd, fds true = some fd → fds false ≠ some fd)
    (silent : ∀ slot cleanup, closing slot cleanup → ∀ n, delivered n cleanup = [])
    (captured : Captured fds limit t d) (served : OutServed d isStdout closing t' d' e) :
    Captured fds limit (t ++ t') d' := by
  cases served with
  | absent empty => simpa using captured
  | blocked filled read => exact captured.read distinct filled read
  | failed filled read => exact captured.read distinct filled read
  | closed filled read closes =>
    rw [← List.append_assoc]
    exact ((captured.read distinct filled read).quiet (silent _ _ closes)).clearOut _

inductive ReadCalls (start : DrainState) : Trace → DrainState → Prop where
  | start : ReadCalls start [] start
  | readFd {t t' : Trace} {d d' : DrainState} {isStdout : Bool} {result : Except SysError Bool} :
      ReadCalls start t d → Exec (d.readFd isStdout) t' (.done (d', result)) → ReadCalls start (t ++ t') d'
  | stdoutReady {t t' : Trace} {d d' : DrainState} {reactor : Reactor} {result : Except SysError Unit} :
      ReadCalls start t d → Exec (d.handleStdoutReady reactor) t' (.done (d', result)) →
      ReadCalls start (t ++ t') d'
  | stderrReady {t t' : Trace} {d d' : DrainState} {reactor : Reactor} {result : Except SysError Unit} :
      ReadCalls start t d → Exec (d.handleStderrReady reactor) t' (.done (d', result)) →
      ReadCalls start (t ++ t') d'

theorem Captured.calls {fds : Bool → Option Nat} {limit : Nat} {t : Trace} {start d : DrainState}
    (distinct : ∀ fd, fds true = some fd → fds false ≠ some fd) (captured : Captured fds limit [] start)
    (calls : ReadCalls start t d) : Captured fds limit t d := by
  induction calls with
  | start => exact captured
  | readFd _ call ih => exact ih.served distinct (fun _ _ => dropped_quiet) (exec_readFd_done call)
  | stdoutReady _ call ih =>
    exact ih.served distinct (fun _ _ => released_quiet) (exec_handleOutReady_done call)
  | stderrReady _ call ih =>
    exact ih.served distinct (fun _ _ => released_quiet) (exec_handleOutReady_done call)

theorem captured_new {stdinFd : Option Fd} {stdinBuf : Option Bytes} {stdoutFd stderrFd : Option Fd}
    {limit : Nat} {earlyExit : Bool} {t : Trace} {start : DrainState}
    (built : Exec (new stdinFd stdinBuf stdoutFd stderrFd limit earlyExit) t (.done (.ok start))) :
    Captured (fun stream => (if stream then stdoutFd else stderrFd).map Fd.raw) limit [] start := by
  rw [exec_new_ok built]
  refine ⟨rfl, fun stream => ?_, fun stream slot filled => ?_⟩
  · cases stream <;> simp [BufferState.new, BufferState.dest]
  · cases stream
    · obtain ⟨fd, present, rfl⟩ := Option.map_eq_some_iff.mp filled
      simp [present]
    · obtain ⟨fd, present, rfl⟩ := Option.map_eq_some_iff.mp filled
      simp [present]

theorem streams_distinct {stdoutFd stderrFd : Option Fd} (owned : ∀ fd, stdoutFd = some fd → stderrFd ≠ some fd)
    (fd : Nat) (first : stdoutFd.map Fd.raw = some fd) : stderrFd.map Fd.raw ≠ some fd := by
  intro second
  obtain ⟨⟨n⟩, out, rfl⟩ := Option.map_eq_some_iff.mp first
  obtain ⟨⟨m⟩, err, same⟩ := Option.map_eq_some_iff.mp second
  cases same
  exact owned _ out err

/-- Each buffer is what the kernel delivered on its stream, cut at the limit. Two values of `Fd` own
    two descriptors, which `owned` states. -/
theorem capture_exact {stdinFd : Option Fd} {stdinBuf : Option Bytes} {stdoutFd stderrFd : Option Fd}
    {limit : Nat} {earlyExit : Bool} {t t' : Trace} {start d : DrainState}
    (owned : ∀ fd, stdoutFd = some fd → stderrFd ≠ some fd)
    (built : Exec (new stdinFd stdinBuf stdoutFd stderrFd limit earlyExit) t (.done (.ok start)))
    (calls : ReadCalls start t' d) :
    d.buffer.stdout = (deliveredOn (stdoutFd.map Fd.raw) t').take limit ∧
      d.buffer.stderr = (deliveredOn (stderrFd.map Fd.raw) t').take limit := by
  have captured := (captured_new built).calls (streams_distinct owned) calls
  have first := captured.bytes true
  have second := captured.bytes false
  rw [fill_empty] at first second
  exact ⟨first, second⟩

def twoStreams (limit : Nat) : DrainState :=
  { stdoutSlot := some ⟨none, ⟨5⟩⟩
    stderrSlot := some ⟨none, ⟨7⟩⟩
    stdinSlot := none
    buffer := .new limit
    writer := .new none
    earlyExit := false }

theorem new_twoStreams (limit : Nat) :
    Exec (new none none (some ⟨5⟩) (some ⟨7⟩) limit false)
      [⟨.fcntlGetFl 5, .ok 0⟩, ⟨.fcntlSetFl 5 O_NONBLOCK, .ok ()⟩,
        ⟨.fcntlGetFl 7, .ok 0⟩, ⟨.fcntlSetFl 7 O_NONBLOCK, .ok ()⟩] (.done (.ok (twoStreams limit))) :=
  .of_replay 1 rfl

theorem capture_exact_over_limit :
    ∃ t d, ReadCalls (twoStreams 3) t d ∧ delivered 5 t = [1, 2, 3, 4] ∧ delivered 7 t = [9] ∧
      d.buffer.stdout = [1, 2, 3] ∧ d.buffer.stderr = [9] := by
  have first : Exec ((twoStreams 3).handleStdoutReady ⟨3, 1, ⟨[], 64⟩, none, none, none⟩)
      [⟨.read 5 3, .ok ⟨[1, 2], by decide⟩⟩, ⟨.read 5 1, .ok ⟨[3], by decide⟩⟩,
        ⟨.read 5 8192, .ok ⟨[4], by decide⟩⟩, ⟨.read 5 8192, .error 5⟩]
      (.done ({ twoStreams 3 with buffer := ⟨[1, 2, 3], [], 3⟩ }, .error (.sys 5 "read"))) :=
    .of_replay 5 rfl
  have second : Exec (readFd { twoStreams 3 with buffer := ⟨[1, 2, 3], [], 3⟩ } false)
      [⟨.read 7 3, .ok ⟨[9], by decide⟩⟩, ⟨.read 7 2, .error EAGAIN⟩]
      (.done ({ twoStreams 3 with buffer := ⟨[1, 2, 3], [9], 3⟩ }, .ok false)) :=
    .of_replay 5 rfl
  have calls := (ReadCalls.start.stdoutReady first).readFd second
  exact ⟨_, _, calls, rfl, rfl, capture_exact (by decide) (new_twoStreams 3) calls⟩

theorem min_add_min_le_iff (limit first second : Nat) :
    min limit first + min limit second ≤ limit ↔
      first + second ≤ limit ∨ first = 0 ∨ second = 0 ∨ limit = 0 := by
  omega

/-- The two buffers together exceed the limit when both streams deliver something and together
    deliver more, since each buffer is cut on its own. -/
theorem combined_limit_iff {stdinFd : Option Fd} {stdinBuf : Option Bytes} {stdoutFd stderrFd : Option Fd}
    {limit : Nat} {earlyExit : Bool} {t t' : Trace} {start d : DrainState}
    (owned : ∀ fd, stdoutFd = some fd → stderrFd ≠ some fd)
    (built : Exec (new stdinFd stdinBuf stdoutFd stderrFd limit earlyExit) t (.done (.ok start)))
    (calls : ReadCalls start t' d) :
    d.buffer.stdout.length + d.buffer.stderr.length ≤ limit ↔
      (deliveredOn (stdoutFd.map Fd.raw) t').length + (deliveredOn (stderrFd.map Fd.raw) t').length ≤ limit ∨
        deliveredOn (stdoutFd.map Fd.raw) t' = [] ∨ deliveredOn (stderrFd.map Fd.raw) t' = [] ∨ limit = 0 := by
  have captured := (captured_new built).calls (streams_distinct owned) calls
  have first : d.buffer.stdout.length = _ := (congrArg List.length (captured.bytes true)).trans (length_fill ..)
  have second : d.buffer.stderr.length = _ := (congrArg List.length (captured.bytes false)).trans (length_fill ..)
  rw [first, second, min_add_min_le_iff, List.length_eq_zero_iff, List.length_eq_zero_iff]
  rfl

theorem combined_limit_one_each :
    ∃ t d, ReadCalls (twoStreams 2) t d ∧ d.buffer.stdout.length + d.buffer.stderr.length ≤ 2 := by
  have first : Exec (readFd (twoStreams 2) true)
      [⟨.read 5 2, .ok ⟨[1], by decide⟩⟩, ⟨.read 5 1, .error EAGAIN⟩]
      (.done ({ twoStreams 2 with buffer := ⟨[1], [], 2⟩ }, .ok false)) := .of_replay 5 rfl
  have second : Exec (readFd { twoStreams 2 with buffer := ⟨[1], [], 2⟩ } false)
      [⟨.read 7 2, .ok ⟨[9], by decide⟩⟩, ⟨.read 7 1, .error EAGAIN⟩]
      (.done ({ twoStreams 2 with buffer := ⟨[1], [9], 2⟩ }, .ok false)) := .of_replay 5 rfl
  have calls := (ReadCalls.start.readFd first).readFd second
  exact ⟨_, _, calls, (combined_limit_iff (by decide) (new_twoStreams 2) calls).mpr (.inl (by decide))⟩

/-- With a limit of one byte, one byte on each stream is kept. -/
theorem combined_limit_exceeded :
    ¬∀ (stdinFd : Option Fd) (stdinBuf : Option Bytes) (stdoutFd stderrFd : Option Fd) (limit : Nat)
      (earlyExit : Bool) (t t' : Trace) (start d : DrainState),
      (∀ fd, stdoutFd = some fd → stderrFd ≠ some fd) →
      Exec (new stdinFd stdinBuf stdoutFd stderrFd limit earlyExit) t (.done (.ok start)) →
      ReadCalls start t' d → d.buffer.stdout.length + d.buffer.stderr.length ≤ limit := by
  intro bounded
  have first : Exec (readFd (twoStreams 1) true)
      [⟨.read 5 1, .ok ⟨[1], by decide⟩⟩, ⟨.read 5 8192, .error EAGAIN⟩]
      (.done ({ twoStreams 1 with buffer := ⟨[1], [], 1⟩ }, .ok false)) := .of_replay 5 rfl
  have second : Exec (readFd { twoStreams 1 with buffer := ⟨[1], [], 1⟩ } false)
      [⟨.read 7 1, .ok ⟨[9], by decide⟩⟩, ⟨.read 7 8192, .error EAGAIN⟩]
      (.done ({ twoStreams 1 with buffer := ⟨[1], [9], 1⟩ }, .ok false)) := .of_replay 5 rfl
  have calls := (ReadCalls.start.readFd first).readFd second
  have total := bounded none none (some ⟨5⟩) (some ⟨7⟩) 1 false _ _ _ _ (by decide) (new_twoStreams 1) calls
  exact absurd total (by decide)

end DrainState

end CoreShift
