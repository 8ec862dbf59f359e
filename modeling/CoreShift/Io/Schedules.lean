import CoreShift.Io.EarlyExit
import Mathlib.Data.List.Infix

namespace CoreShift

open Interaction

@[simp] theorem pieces_replicate (fd fd' count k : Nat) (e : Errno) :
    pieces fd (List.replicate k ⟨.read fd' count, .error e⟩) = [] := by
  refine pieces_of_forall fun e' member => ?_
  rw [List.eq_of_mem_replicate member]
  rfl

theorem pieces_of_delivered {fd : Nat} {t : Trace} (none : delivered fd t = []) : pieces fd t = [] := by
  rw [← flatten_pieces] at none
  apply List.eq_nil_iff_forall_not_mem.mpr
  intro piece member
  exact piece_ne_nil member (List.flatten_eq_nil_iff.mp none piece member)

theorem mem_slices {slice : Bytes} {t : Trace} : slice ∈ slices t ↔ ∃ answer, ⟨.earlyExit slice, answer⟩ ∈ t := by
  unfold slices
  rw [List.mem_flatMap]
  constructor
  · intro shown
    obtain ⟨⟨call, answer⟩, member, shows⟩ := shown
    cases call
    case earlyExit slice' =>
      have same : slice = slice' := List.mem_singleton.mp shows
      rw [same]
      exact ⟨answer, member⟩
    all_goals cases shows
  · intro shown
    obtain ⟨answer, member⟩ := shown
    exact ⟨_, member, List.mem_singleton_self _⟩

namespace BufferState

theorem round_pieces {fd limit : Nat} {dest : Bytes} {t : Trace} {o}
    (round : Round fd true true limit dest t o) (done : o.pending = none)
    (room : dest.length + (delivered fd t).length ≤ limit) : slices t = pieces fd t := by
  cases round with
  | waiting k | consulting k data present asked => cases done
  | eof k | blocked k | failed k e =>
    rw [slices_reads, pieces_append, pieces_replicate]
    simp [pieces, piecesBy]
  | data k data present silent =>
    have full := take_of_silent silent data.val
    rw [delivered_round] at room
    have short := congrArg List.length full
    rw [List.length_take, List.length_nil] at short
    omega
  | consulted k data present asked stop =>
    rw [slices_consulted, pieces_append, pieces_replicate]
    simp [pieces, piecesBy, present]

theorem iterates_pieces {fd : Fd} {limit : Nat} {start dest : Bytes} {t : Trace}
    (rounds : Iterates (readRound fd true true limit) start t dest)
    (room : start.length + (delivered fd.raw t).length ≤ limit) :
    slices t = pieces fd.raw t ∧ dest = start ++ delivered fd.raw t := by
  have kept := iterates_kept rounds
  rw [fill_of_room (by omega)] at kept
  refine ⟨?_, kept⟩
  clear kept
  induction rounds with
  | start => rfl
  | @next t t' state following before round ih =>
    rw [delivered_append, List.length_append] at room
    have reached := iterates_kept before
    rw [fill_of_room (by omega)] at reached
    have here : slices t' = pieces fd.raw t' := by
      refine round_pieces (exec_readRound round) rfl ?_
      rw [reached, List.length_append]
      omega
    rw [slices_append, pieces_append, ih (by omega), here]

theorem readFromFd_pieces {b b' : BufferState} {fd : Fd} {t : Trace} {result : Except SysError Bool}
    (run : Exec (b.readFromFd fd true true) t (.done (b', result)))
    (room : b.stdout.length + (delivered fd.raw t).length ≤ b.limit) : slices t = pieces fd.raw t := by
  obtain ⟨rounds, last, dest, final, rfl, rfl, reached, finish⟩ := exec_readFromFd_done run
  rw [delivered_append, List.length_append] at room
  have starts : Iterates (readRound fd true true b.limit) b.stdout rounds dest := reached
  obtain ⟨before, kept⟩ := iterates_pieces starts (by omega)
  have after : slices last = pieces fd.raw last := by
    refine round_pieces finish rfl ?_
    rw [kept, List.length_append]
    omega
  rw [slices_append, pieces_append, before, after]

end BufferState

namespace DrainState

section
variable {t t' : Trace} {d d' : DrainState} {fds : Bool → Option Nat} {limit : Nat}

theorem written_quiet {w w' : WriterState} {fd : Fd} {result : Except SysError Bool}
    (written : Exec (w.writeToFd fd) t (.done (w', result))) (n : Nat) : delivered n t = [] := by
  apply delivered_of_forall
  intro e member
  obtain ⟨bytes, write⟩ := (written.issues (WriterState.writeToFd_issues _ _)).1 e member
  obtain ⟨call, answer⟩ := e
  cases write
  rfl

theorem Captured.transfer (captured : Captured fds limit t d) (buffer : d'.buffer = d.buffer)
    (stdout : d'.stdoutSlot = d.stdoutSlot) (stderr : d'.stderrSlot = d.stderrSlot) : Captured fds limit t d' where
  bounded := by rw [buffer, captured.bounded]
  bytes stream := by rw [buffer, captured.bytes]
  slots stream slot filled := by
    apply captured.slots stream slot
    cases stream
    · exact stderr.symm.trans filled
    · exact stdout.symm.trans filled

theorem Captured.stdinWritten {result : Except SysError Bool} (captured : Captured fds limit t d)
    (written : StdinWritten d t' d' result) : Captured fds limit (t ++ t') d' := by
  cases written with
  | absent empty => simpa using captured
  | blocked filled written | failed filled written =>
    exact (captured.quiet (written_quiet written)).transfer rfl rfl rfl
  | closed filled written closes =>
    rw [← List.append_assoc]
    exact ((captured.quiet (written_quiet written)).quiet (dropped_quiet closes)).transfer rfl rfl rfl

theorem Captured.stdinServed {reactor : Reactor} {e : Option SysError} (captured : Captured fds limit t d)
    (served : StdinServed d reactor t' d' e) : Captured fds limit (t ++ t') d' := by
  cases served with
  | absent empty => simpa using captured
  | blocked filled written | failed filled written =>
    exact (captured.quiet (written_quiet written)).transfer rfl rfl rfl
  | closed filled written closes =>
    rw [← List.append_assoc]
    exact ((captured.quiet (written_quiet written)).quiet (released_quiet closes)).transfer rfl rfl rfl

theorem Captured.operate {call : ClientCall} {result : Except SysError call.Result}
    (distinct : ∀ fd, fds true = some fd → fds false ≠ some fd) (captured : Captured fds limit t d)
    (run : Exec (d.operate call) t' (.done (d', result))) : Captured fds limit (t ++ t') d' := by
  cases call with
  | readFd isStdout => exact captured.served distinct (fun _ _ => dropped_quiet) (exec_readFd_done run)
  | writeStdin => exact captured.stdinWritten (exec_writeStdin_done run)
  | handleStdoutReady reactor | handleStderrReady reactor =>
    exact captured.served distinct (fun _ _ => released_quiet) (exec_handleOutReady_done run)
  | handleStdinWritable reactor => exact captured.stdinServed (exec_handleStdinWritable_done run)

theorem Operated.captured {d₀ : DrainState} (distinct : ∀ fd, fds true = some fd → fds false ≠ some fd)
    (operated : Operated d₀ t d) (captured : Captured fds limit [] d₀) : Captured fds limit t d := by
  induction operated with
  | start => exact captured
  | call _ run ih => exact ih.operate distinct run

theorem Captured.whole {fd : Fd} (captured : Captured fds limit t d) (here : fds true = some fd.raw)
    (room : (delivered fd.raw t).length ≤ limit) : d.buffer.stdout = delivered fd.raw t := by
  have bytes : d.buffer.stdout = fill limit [] (deliveredOn (fds true) t) := captured.bytes true
  rw [bytes, here, fill_empty]
  exact List.take_of_length_le room

theorem pieces_of_outServed {closing : FdSlot → Trace → Prop} {e : Option SysError} {fd : Fd}
    (closes : ∀ slot cleanup, closing slot cleanup →
      (∀ e ∈ cleanup, isConsultation e.call = false) ∧ ∀ n, delivered n cleanup = [])
    (listens : d.earlyExit = true) (owns : ∀ slot, d.stdoutSlot = some slot → slot.fd = fd)
    (served : OutServed d true closing t d' e)
    (room : d.buffer.stdout.length + (delivered fd.raw t).length ≤ d.buffer.limit) : slices t = pieces fd.raw t := by
  cases served with
  | absent empty => rfl
  | blocked filled read | failed filled read =>
    rw [owns _ filled, listens] at read
    exact BufferState.readFromFd_pieces read room
  | closed filled read closed =>
    rw [owns _ filled, listens] at read
    obtain ⟨silent, quiet⟩ := closes _ _ closed
    rw [delivered_append, quiet, List.append_nil] at room
    rw [slices_append, pieces_append, slices_of_silent silent, pieces_of_delivered (quiet _),
      BufferState.readFromFd_pieces read room]

theorem dropped_unheard {slot : FdSlot} {cleanup : Trace} (dropped : Dropped slot cleanup) :
    (∀ e ∈ cleanup, isConsultation e.call = false) ∧ ∀ n, delivered n cleanup = [] :=
  ⟨(dropped_closes dropped).1, dropped_quiet dropped⟩

theorem released_unheard {reactor : Reactor} {slot : FdSlot} {cleanup : Trace}
    (released : Released reactor slot cleanup) :
    (∀ e ∈ cleanup, isConsultation e.call = false) ∧ ∀ n, delivered n cleanup = [] :=
  ⟨(released_closes released).1, released_quiet released⟩

theorem pieces_of_operate {call : ClientCall} {result : Except SysError call.Result} {fd : Fd}
    (distinct : ∀ fd, fds true = some fd → fds false ≠ some fd) (here : fds true = some fd.raw)
    (captured : Captured fds limit t d) (heard : Heard (some fd) t d)
    (run : Exec (d.operate call) t' (.done (d', result)))
    (room : (delivered fd.raw (t ++ t')).length ≤ limit) : slices t' = pieces fd.raw t' := by
  have after := (captured.operate distinct run).whole here room
  rw [delivered_append, List.length_append] at room
  have before := captured.whole here (by omega)
  have owns : ∀ slot, d.stdoutSlot = some slot → slot.fd = fd := by
    intro slot filled
    have own := heard.owns slot filled
    cases own
    rfl
  have space : d.buffer.stdout.length + (delivered fd.raw t').length ≤ d.buffer.limit := by
    rw [before, captured.bounded]
    exact room
  cases stdout : call.onStdout with
  | false =>
    obtain ⟨listens, slot, bytes⟩ := operate_elsewhere stdout run
    rw [after, before, delivered_append] at bytes
    have none : delivered fd.raw t' = [] := List.append_right_eq_self.mp bytes
    rw [pieces_of_delivered none, slices_of_silent (run.issues (operate_silent d stdout)).1]
  | true =>
    cases call with
    | readFd isStdout =>
      have same : isStdout = true := stdout
      subst same
      exact pieces_of_outServed (fun _ _ => dropped_unheard) heard.listens owns (exec_readFd_done run) space
    | handleStdoutReady reactor =>
      exact pieces_of_outServed (fun _ _ => released_unheard) heard.listens owns (exec_handleOutReady_done run) space
    | writeStdin | handleStderrReady | handleStdinWritable => cases stdout

theorem Operated.pieces {d₀ : DrainState} {fd : Fd}
    (distinct : ∀ fd, fds true = some fd → fds false ≠ some fd) (here : fds true = some fd.raw)
    (captured : Captured fds limit [] d₀) (heard : Heard (some fd) [] d₀) (operated : Operated d₀ t d)
    (room : (delivered fd.raw t).length ≤ limit) : slices t = pieces fd.raw t := by
  induction operated with
  | start => rfl
  | call before run ih =>
    have shorter := room
    rw [delivered_append, List.length_append] at shorter
    rw [slices_append, pieces_append, ih (by omega),
      pieces_of_operate distinct here (before.captured distinct captured) (before.heard heard) run room]

end

/-- A session of a drain that listens, in which stdout brings `stream`, up to its end or a stop. The
    callback is a function of the slice, and nothing but stdout owns the descriptor. -/
structure Schedule (accepts : Bytes → Bool) (fd : Fd) (limit : Nat) (stream : Bytes) (t : Trace) : Prop where
  session : ∃ stdinFd stdinBuf stderrFd t₀ d₀ d, stderrFd ≠ some fd ∧
    Exec (new stdinFd stdinBuf (some fd) stderrFd limit true) t₀ (.done (.ok d₀)) ∧ Operated d₀ t d
  answers : ∀ slice answer, ⟨.earlyExit slice, answer⟩ ∈ t → answer = accepts slice
  delivers : delivered fd.raw t <+: stream
  whole : StopAsked t ∨ SawEof fd.raw t ∧ delivered fd.raw t = stream

section
variable {accepts : Bytes → Bool} {fd : Fd} {limit : Nat} {stream : Bytes} {t : Trace}

theorem Schedule.slices_eq (schedule : Schedule accepts fd limit stream t) (fits : stream.length ≤ limit) :
    slices t = pieces fd.raw t := by
  obtain ⟨stdinFd, stdinBuf, stderrFd, t₀, d₀, d, owned, created, operated⟩ := schedule.session
  have apart : ∀ fd', some fd = some fd' → stderrFd ≠ some fd' := by
    intro fd' same
    cases same
    exact owned
  exact operated.pieces (streams_distinct apart) rfl (captured_new created) (heard_new created)
    (Nat.le_trans schedule.delivers.length_le fits)

theorem Schedule.fires_iff (schedule : Schedule accepts fd limit stream t) (fits : stream.length ≤ limit) :
    StopAsked t ↔ ∃ piece ∈ pieces fd.raw t, accepts piece = true := by
  rw [← schedule.slices_eq fits]
  constructor
  · intro asked
    obtain ⟨slice, member⟩ := asked
    exact ⟨slice, mem_slices.mpr ⟨_, member⟩, (schedule.answers _ _ member).symm⟩
  · intro accepted
    obtain ⟨slice, shown, accepted⟩ := accepted
    obtain ⟨answer, member⟩ := mem_slices.mp shown
    rw [schedule.answers _ _ member, accepted] at member
    exact ⟨slice, member⟩

theorem piece_within {fd : Nat} {t : Trace} {piece : Bytes} (member : piece ∈ pieces fd t) :
    piece <:+: delivered fd t := by
  rw [← flatten_pieces]
  exact List.infix_of_mem_flatten member

theorem accepted_piece (monotone : ∀ slice whole, slice <:+: whole → accepts slice = true → accepts whole = true)
    (splits : ∀ left right, accepts (left ++ right) = true → accepts left = true ∨ accepts right = true)
    {blocks : List Bytes} (some : blocks ≠ []) (accepted : accepts blocks.flatten = true) :
    ∃ block ∈ blocks, accepts block = true := by
  induction blocks with
  | nil => exact absurd rfl some
  | cons block blocks ih =>
    rw [List.flatten_cons] at accepted
    rcases splits _ _ accepted with here | later
    · exact ⟨block, List.mem_cons_self .., here⟩
    · by_cases none : blocks = []
      · rw [none] at later
        exact ⟨block, List.mem_cons_self .., monotone _ _ List.nil_infix later⟩
      · obtain ⟨block', member, accepted'⟩ := ih none later
        exact ⟨block', List.mem_cons_of_mem _ member, accepted'⟩

theorem Schedule.accepts_stream (schedule : Schedule accepts fd limit stream t)
    (monotone : ∀ slice whole, slice <:+: whole → accepts slice = true → accepts whole = true)
    (fits : stream.length ≤ limit) (fires : StopAsked t) : stream ≠ [] ∧ accepts stream = true := by
  obtain ⟨piece, member, accepted⟩ := (schedule.fires_iff fits).mp fires
  have inside : piece <:+: stream := (piece_within member).trans schedule.delivers.isInfix
  refine ⟨fun empty => ?_, monotone _ _ inside accepted⟩
  rw [empty] at inside
  exact piece_ne_nil member (List.infix_nil.mp inside)

theorem Schedule.fires_of_accepts (schedule : Schedule accepts fd limit stream t)
    (monotone : ∀ slice whole, slice <:+: whole → accepts slice = true → accepts whole = true)
    (splits : ∀ left right, accepts (left ++ right) = true → accepts left = true ∨ accepts right = true)
    (fits : stream.length ≤ limit) (some : stream ≠ []) (accepted : accepts stream = true) : StopAsked t := by
  rcases schedule.whole with fires | ⟨_, whole⟩
  · exact fires
  · rw [schedule.fires_iff fits]
    rw [← whole, ← flatten_pieces] at some accepted
    refine accepted_piece monotone splits (fun none => some ?_) accepted
    rw [none]
    rfl

end

/-- Early exit goes by the pieces that the reads bring. It fires only if the whole stream is accepted,
    it fires in every run whose pieces hold those of a run in which it fires, and where no match needs
    more than one piece the pieces do not matter. -/
theorem early_exit_by_pieces {accepts : Bytes → Bool} {stream : Bytes} {fd fd' : Fd} {limit limit' : Nat} {t t' : Trace}
    (monotone : ∀ slice whole, slice <:+: whole → accepts slice = true → accepts whole = true)
    (fits : stream.length ≤ limit) (fits' : stream.length ≤ limit')
    (first : Schedule accepts fd limit stream t) (second : Schedule accepts fd' limit' stream t') :
    (StopAsked t ↔ ∃ piece ∈ pieces fd.raw t, accepts piece = true) ∧
      (StopAsked t → accepts stream = true) ∧
      ((∀ piece ∈ pieces fd.raw t, ∃ piece' ∈ pieces fd'.raw t', piece <:+: piece') → StopAsked t → StopAsked t') ∧
      ((∀ left right, accepts (left ++ right) = true → accepts left = true ∨ accepts right = true) →
        (StopAsked t ↔ StopAsked t')) := by
  refine ⟨first.fires_iff fits, fun fires => (first.accepts_stream monotone fits fires).2, fun coarser fires => ?_,
    fun splits => ⟨fun fires => ?_, fun fires => ?_⟩⟩
  · obtain ⟨piece, member, accepted⟩ := (first.fires_iff fits).mp fires
    obtain ⟨piece', member', inside⟩ := coarser piece member
    exact (second.fires_iff fits').mpr ⟨piece', member', monotone _ _ inside accepted⟩
  · obtain ⟨some, accepted⟩ := first.accepts_stream monotone fits fires
    exact second.fires_of_accepts monotone splits fits' some accepted
  · obtain ⟨some, accepted⟩ := second.accepts_stream monotone fits' fires
    exact first.fires_of_accepts monotone splits fits some accepted

def hasMarker (slice : Bytes) : Bool := decide ([1, 2] <:+: slice)

theorem hasMarker_monotone (slice whole : Bytes) (inside : slice <:+: whole) (marked : hasMarker slice = true) :
    hasMarker whole = true := by
  have here : [1, 2] <:+: slice := of_decide_eq_true marked
  exact decide_eq_true (here.trans inside)

def markerAtOnce : Trace :=
  [⟨.read 5 8, .ok ⟨[1, 2], by decide⟩⟩, ⟨.earlyExit [1, 2], true⟩, ⟨.close 5, .ok ()⟩]

theorem schedule_markerAtOnce : Schedule hasMarker ⟨5⟩ 8 [1, 2] markerAtOnce := by
  have read : Exec ((listening 8).operate (.readFd true)) markerAtOnce
      (.done ({ listening 8 with stdoutSlot := none, buffer := ⟨[1, 2], [], 8⟩ }, .ok true)) := .of_replay 5 rfl
  refine ⟨⟨_, _, _, _, _, _, by decide, new_listening 8, Operated.start.call read⟩, ?_, by decide, .inl ⟨[1, 2], ?_⟩⟩
  · intro slice answer member
    simp [markerAtOnce] at member
    obtain ⟨rfl, rfl⟩ := member
    decide
  · simp [markerAtOnce]

def markerInTwo : Trace :=
  [⟨.read 5 8, .ok ⟨[1], by decide⟩⟩, ⟨.earlyExit [1], false⟩, ⟨.read 5 7, .error EAGAIN⟩] ++
    [⟨.read 5 7, .ok ⟨[2], by decide⟩⟩, ⟨.earlyExit [2], false⟩, ⟨.read 5 6, .ok ⟨[], by decide⟩⟩, ⟨.close 5, .ok ()⟩]

theorem schedule_markerInTwo : Schedule hasMarker ⟨5⟩ 8 [1, 2] markerInTwo := by
  have first : Exec ((listening 8).operate (.readFd true))
      [⟨.read 5 8, .ok ⟨[1], by decide⟩⟩, ⟨.earlyExit [1], false⟩, ⟨.read 5 7, .error EAGAIN⟩]
      (.done ({ listening 8 with buffer := ⟨[1], [], 8⟩ }, .ok false)) := .of_replay 5 rfl
  have second : Exec (operate { listening 8 with buffer := ⟨[1], [], 8⟩ } (.readFd true))
      [⟨.read 5 7, .ok ⟨[2], by decide⟩⟩, ⟨.earlyExit [2], false⟩, ⟨.read 5 6, .ok ⟨[], by decide⟩⟩,
        ⟨.close 5, .ok ()⟩]
      (.done ({ listening 8 with stdoutSlot := none, buffer := ⟨[1, 2], [], 8⟩ }, .ok true)) := .of_replay 5 rfl
  have operated := (Operated.start.call first).call second
  refine ⟨⟨_, _, _, _, _, _, by decide, new_listening 8, operated⟩, ?_, by decide, .inr ⟨⟨6, ?_⟩, rfl⟩⟩
  · intro slice answer member
    simp [markerInTwo] at member
    rcases member with ⟨rfl, rfl⟩ | ⟨rfl, rfl⟩ <;> decide
  · simp [markerInTwo]

theorem marker_by_pieces :
    (StopAsked markerAtOnce ↔ ∃ piece ∈ pieces 5 markerAtOnce, hasMarker piece = true) ∧
      (StopAsked markerAtOnce → hasMarker [1, 2] = true) :=
  have all := early_exit_by_pieces hasMarker_monotone (by decide) (by decide) schedule_markerAtOnce schedule_markerInTwo
  ⟨all.1, all.2.1⟩

/-- A marker that straddles two reads is missed. -/
theorem early_exit_misses_split_marker :
    ¬∀ (accepts : Bytes → Bool) (stream : Bytes) (fd : Fd) (limit : Nat) (t t' : Trace),
      (∀ slice whole, slice <:+: whole → accepts slice = true → accepts whole = true) → stream.length ≤ limit →
      Schedule accepts fd limit stream t → Schedule accepts fd limit stream t' → (StopAsked t ↔ StopAsked t') := by
  intro independent
  have same := independent hasMarker [1, 2] ⟨5⟩ 8 _ _ hasMarker_monotone (by decide) schedule_markerAtOnce
    schedule_markerInTwo
  obtain ⟨slice, member⟩ := same.mp ⟨[1, 2], by simp [markerAtOnce]⟩
  simp [markerInTwo] at member

end DrainState

end CoreShift
