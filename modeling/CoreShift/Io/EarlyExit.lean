import CoreShift.Io.Capture
import CoreShift.Io.Report
import CoreShift.Io.Settled

namespace CoreShift

open Interaction

def slicesBy : Event os → List Bytes
  | ⟨.earlyExit slice, _⟩ => [slice]
  | _ => []

def slices (t : Trace) : List Bytes := t.flatMap slicesBy

@[simp] theorem slices_nil : slices [] = [] := rfl

@[simp] theorem slices_append (t t' : Trace) : slices (t ++ t') = slices t ++ slices t' := List.flatMap_append ..

theorem slices_of_forall {t : Trace} (quiet : ∀ e ∈ t, slicesBy e = []) : slices t = [] :=
  List.flatMap_eq_nil_iff.mpr quiet

def piecesBy (fd : Nat) : Event os → List Bytes
  | ⟨.read fd' _, .ok data⟩ => if fd' = fd ∧ 0 < data.val.length then [data.val] else []
  | _ => []

/-- The pieces in which a stream is delivered: what each read brought that brought anything. -/
def pieces (fd : Nat) (t : Trace) : List Bytes := t.flatMap (piecesBy fd)

@[simp] theorem pieces_nil (fd : Nat) : pieces fd [] = [] := rfl

@[simp] theorem pieces_append (fd : Nat) (t t' : Trace) : pieces fd (t ++ t') = pieces fd t ++ pieces fd t' :=
  List.flatMap_append ..

theorem pieces_of_forall {fd : Nat} {t : Trace} (quiet : ∀ e ∈ t, piecesBy fd e = []) : pieces fd t = [] :=
  List.flatMap_eq_nil_iff.mpr quiet

theorem flatten_piecesBy (fd : Nat) (e : Event os) : (piecesBy fd e).flatten = deliveredBy fd e := by
  obtain ⟨call, answer⟩ := e
  cases call
  case read fd' count =>
    cases answer with
    | error e => rfl
    | ok data =>
      by_cases same : fd' = fd
      · cases bytes : data.val with
        | nil => simp [piecesBy, deliveredBy, bytes]
        | cons b rest => simp [piecesBy, deliveredBy, bytes, same]
      · simp [piecesBy, deliveredBy, same]
  all_goals rfl

theorem flatten_pieces (fd : Nat) (t : Trace) : (pieces fd t).flatten = delivered fd t := by
  induction t with
  | nil => rfl
  | cons e t ih =>
    show (piecesBy fd e ++ pieces fd t).flatten = deliveredBy fd e ++ delivered fd t
    rw [List.flatten_append, flatten_piecesBy, ih]

theorem piece_ne_nil {fd : Nat} {t : Trace} {piece : Bytes} (member : piece ∈ pieces fd t) : piece ≠ [] := by
  obtain ⟨⟨call, answer⟩, _, brought⟩ := List.mem_flatMap.mp member
  cases call
  case read fd' count =>
    cases answer with
    | error e => cases brought
    | ok data =>
      simp only [piecesBy] at brought
      split at brought
      · rename_i some
        rw [List.mem_singleton.mp brought]
        exact List.ne_nil_of_length_pos some.2
      · cases brought
  all_goals cases brought

def isConsultation : Call → Bool
  | .earlyExit _ => true
  | _ => false

theorem slicesBy_of_silent {e : Event os} (silent : isConsultation e.call = false) : slicesBy e = [] := by
  obtain ⟨call, answer⟩ := e
  cases call <;> first | rfl | cases silent

theorem slices_of_silent {t : Trace} (silent : ∀ e ∈ t, isConsultation e.call = false) : slices t = [] :=
  slices_of_forall fun e member => slicesBy_of_silent (silent e member)

theorem not_stopAsked_of_slices {t : Trace} (none : slices t = []) : ¬StopAsked t := by
  intro asked
  obtain ⟨slice, member⟩ := asked
  have quiet := List.flatMap_eq_nil_iff.mp none _ member
  cases quiet

theorem stopAsked_append {t t' : Trace} : StopAsked (t ++ t') ↔ StopAsked t ∨ StopAsked t' := by
  unfold StopAsked
  simp only [List.mem_append, exists_or]

theorem not_stop_of_calm {t : Trace} (calm : ¬StopAsked t) : ∀ e ∈ t, ¬∃ slice, e = ⟨.earlyExit slice, true⟩ := by
  intro e member stops
  obtain ⟨slice, rfl⟩ := stops
  exact calm ⟨slice, member⟩

namespace BufferState

def LastWord (t : Trace) : Prop := ∃ io slice, t = io ++ [⟨.earlyExit slice, true⟩] ∧ ¬StopAsked io

theorem slices_reads (fd count k : Nat) (answer : Except Errno { data : Bytes // data.length ≤ count }) :
    slices (List.replicate k ⟨.read fd count, .error EINTR⟩ ++ [⟨.read fd count, answer⟩]) = [] := by
  refine slices_of_forall fun e member => ?_
  rcases List.mem_append.mp member with member | member
  · rw [List.eq_of_mem_replicate member]
    rfl
  · rw [List.mem_singleton.mp member]
    rfl

theorem not_stopAsked_reads (fd count k : Nat) (answer : Except Errno { data : Bytes // data.length ≤ count }) :
    ¬StopAsked (List.replicate k ⟨.read fd count, .error EINTR⟩ ++ [⟨.read fd count, answer⟩]) :=
  not_stopAsked_of_slices (slices_reads fd count k answer)

theorem slices_consulted (fd count k : Nat) (data : { data : Bytes // data.length ≤ count }) (stop : Bool) :
    slices (List.replicate k ⟨.read fd count, .error EINTR⟩ ++
      [⟨.read fd count, .ok data⟩, ⟨.earlyExit data.val, stop⟩]) = [data.val] := by
  have split : ([⟨.read fd count, .ok data⟩, ⟨.earlyExit data.val, stop⟩] : Trace) =
      [⟨.read fd count, .ok data⟩] ++ [⟨.earlyExit data.val, stop⟩] := rfl
  rw [split, ← List.append_assoc, slices_append, slices_reads]
  rfl

theorem take_of_silent {limit : Nat} {dest : Bytes} (silent : consults true true limit dest = false) (data : Bytes) :
    data.take (limit - dest.length) = [] := by
  have full : limit - dest.length = 0 := by
    simp only [consults, Bool.and_self, Bool.true_and, decide_eq_false_iff_not] at silent
    omega
  rw [full, List.take_zero]

theorem round_again {fd limit : Nat} {dest dest' : Bytes} {t : Trace}
    (round : Round fd true true limit dest t (.done (.inl dest'))) :
    dest' = dest ++ (slices t).flatten ∧ ¬StopAsked t := by
  generalize outcome : Outcome.done (I := os) (Sum.inl dest') = o at round
  cases round with
  | data k data present silent =>
    cases outcome
    rw [take_of_silent silent, slices_reads]
    exact ⟨rfl, not_stopAsked_reads _ _ _ _⟩
  | consulted k data present asked stop =>
    cases stop
    · cases outcome
      rw [slices_consulted]
      refine ⟨by simp, fun stopped => ?_⟩
      obtain ⟨slice, member⟩ := stopped
      simp at member
    · cases outcome
  | waiting | eof | blocked | failed | consulting => cases outcome

theorem round_left {fd limit : Nat} {dest dest' : Bytes} {t : Trace} {result : Except SysError Bool}
    (round : Round fd true true limit dest t (.done (.inr (dest', result)))) :
    dest' = dest ++ (slices t).flatten ∧ (StopAsked t → LastWord t ∧ result = .ok true) := by
  generalize outcome : Outcome.done (I := os) (Sum.inr (dest', result)) = o at round
  cases round with
  | eof k | blocked k | failed k e =>
    cases outcome
    rw [slices_reads]
    exact ⟨(List.append_nil _).symm, fun stopped => absurd stopped (not_stopAsked_reads _ _ _ _)⟩
  | consulted k data present asked stop =>
    cases stop
    · cases outcome
    · cases outcome
      rw [slices_consulted]
      refine ⟨by simp, fun _ => ⟨⟨_, data.val, ?_, not_stopAsked_reads fd _ k (.ok data)⟩, rfl⟩⟩
      rw [List.append_assoc]
      rfl
  | waiting | data | consulting => cases outcome

theorem round_waiting {fd limit : Nat} {dest : Bytes} {t : Trace} {c : Call}
    (round : Round fd true true limit dest t (.waiting c)) : ¬StopAsked t := by
  generalize outcome : Outcome.waiting (I := os) c = o at round
  cases round with
  | waiting k =>
    refine not_stopAsked_of_slices (slices_of_forall fun e member => ?_)
    rw [List.eq_of_mem_replicate member]
    rfl
  | consulting k data present asked => exact not_stopAsked_reads _ _ _ _
  | eof | blocked | failed | data | consulted => cases outcome

theorem iterates_shown {fd : Fd} {limit : Nat} {start dest : Bytes} {t : Trace}
    (rounds : Iterates (readRound fd true true limit) start t dest) :
    dest = start ++ (slices t).flatten ∧ ¬StopAsked t := by
  induction rounds with
  | start => exact ⟨(List.append_nil _).symm, not_stopAsked_of_slices rfl⟩
  | next _ round ih =>
    obtain ⟨kept, going⟩ := round_again (exec_readRound round)
    rw [kept, ih.1, slices_append, List.flatten_append, List.append_assoc, stopAsked_append]
    exact ⟨rfl, not_or.mpr ⟨ih.2, going⟩⟩

theorem readFromFd_shown {b b' : BufferState} {fd : Fd} {t : Trace} {result : Except SysError Bool}
    (run : Exec (b.readFromFd fd true true) t (.done (b', result))) :
    b' = { b with stdout := b.stdout ++ (slices t).flatten } ∧ (StopAsked t → LastWord t ∧ result = .ok true) := by
  obtain ⟨rounds, last, dest, final, rfl, rfl, reached, finish⟩ := exec_readFromFd_done run
  have before := iterates_shown reached
  have after := round_left finish
  refine ⟨?_, fun stopped => ?_⟩
  · rw [after.1, before.1, slices_append, List.flatten_append, List.append_assoc]
    rfl
  · have here := (stopAsked_append.mp stopped).resolve_left before.2
    obtain ⟨⟨io, slice, split, quiet⟩, ended⟩ := after.2 here
    refine ⟨⟨rounds ++ io, slice, by rw [split, List.append_assoc], ?_⟩, ended⟩
    rw [stopAsked_append]
    exact not_or.mpr ⟨before.2, quiet⟩

theorem readFromFd_asking {b : BufferState} {fd : Fd} {t : Trace} {c : Call}
    (run : Exec (b.readFromFd fd true true) t (.waiting c)) : ¬StopAsked t := by
  obtain ⟨rounds, last, dest, rfl, reached, stopped⟩ := exec_readFromFd_waiting run
  rw [stopAsked_append]
  exact not_or.mpr ⟨(iterates_shown reached).2, round_waiting stopped⟩

theorem readFromFd_guarded {b : BufferState} {fd : Fd} {t : Trace} {o} (run : Exec (b.readFromFd fd true true) t o) :
    Guarded (fun before => ¬StopAsked before) (isConsultation ·.call = true) t :=
  fun _ _ _ split _ => readFromFd_asking (run.before split)

theorem readFromFd_stderr (b : BufferState) (bytes : Bytes) (fd : Fd) (earlyExit : Bool) :
    { b with stdout := bytes }.readFromFd fd false earlyExit =
      (b.readFromFd fd false earlyExit >>= fun result => pure ({ result.1 with stdout := bytes }, result.2)) := by
  simp only [readFromFd, bind_assoc, pure_bind]
  rfl

end BufferState

namespace DrainState

inductive ClientCall where
  | readFd (isStdout : Bool)
  | writeStdin
  | handleStdoutReady (reactor : Reactor)
  | handleStderrReady (reactor : Reactor)
  | handleStdinWritable (reactor : Reactor)

namespace ClientCall

@[reducible] def Result : ClientCall → Type
  | .readFd _ | .writeStdin => Bool
  | .handleStdoutReady _ | .handleStderrReady _ | .handleStdinWritable _ => Unit

def onStdout : ClientCall → Bool
  | .readFd isStdout => isStdout
  | .handleStdoutReady _ => true
  | .writeStdin | .handleStderrReady _ | .handleStdinWritable _ => false

end ClientCall

def operate (d : DrainState) : (call : ClientCall) → Prog (DrainState × Except SysError call.Result)
  | .readFd isStdout => d.readFd isStdout
  | .writeStdin => d.writeStdin
  | .handleStdoutReady reactor => d.handleStdoutReady reactor
  | .handleStderrReady reactor => d.handleStderrReady reactor
  | .handleStdinWritable reactor => d.handleStdinWritable reactor

inductive Operated (d₀ : DrainState) : Trace → DrainState → Prop where
  | start : Operated d₀ [] d₀
  | call {t t' : Trace} {d d' : DrainState} {call : ClientCall} {result : Except SysError call.Result}
      (before : Operated d₀ t d) (run : Exec (d.operate call) t' (.done (d', result))) : Operated d₀ (t ++ t') d'

def withStdout (d : DrainState) (slot : Option FdSlot) (bytes : Bytes) : DrainState :=
  { d with stdoutSlot := slot, buffer := { d.buffer with stdout := bytes } }

section
variable {d : DrainState} {slot : Option FdSlot} {bytes : Bytes}

theorem readFd_withStdout : (d.withStdout slot bytes).readFd false =
    (d.readFd false >>= fun result => pure (result.1.withStdout slot bytes, result.2)) := by
  have same : (d.withStdout slot bytes).outSlot false = d.outSlot false := rfl
  unfold readFd
  rw [same]
  cases d.outSlot false with
  | none => rfl
  | some filled =>
    simp only [withStdout, BufferState.readFromFd_stderr, bind_assoc, pure_bind]
    refine congrArg _ (funext fun result => ?_)
    rcases result with ⟨buffer, e | eof⟩
    · rfl
    · cases eof
      · rfl
      · rfl

theorem handleStderrReady_withStdout (reactor : Reactor) : (d.withStdout slot bytes).handleStderrReady reactor =
    (d.handleStderrReady reactor >>= fun result => pure (result.1.withStdout slot bytes, result.2)) := by
  have same : (d.withStdout slot bytes).outSlot false = d.outSlot false := rfl
  unfold handleStderrReady handleOutReady
  rw [same]
  cases filled : d.outSlot false with
  | none => rfl
  | some filled' =>
    have stderr : d.stderrSlot = some filled' := filled
    simp only [withStdout, BufferState.readFromFd_stderr, bind_assoc, pure_bind]
    refine congrArg _ (funext fun result => ?_)
    rcases result with ⟨buffer, e | eof⟩
    · rfl
    · cases eof
      · rfl
      · simp only [↓reduceIte, dropOut, outSlot, stderr]
        rfl

theorem writeStdin_withStdout : (d.withStdout slot bytes).writeStdin =
    (d.writeStdin >>= fun result => pure (result.1.withStdout slot bytes, result.2)) := by
  have same : (d.withStdout slot bytes).stdinSlot = d.stdinSlot := rfl
  unfold writeStdin
  rw [same]
  cases d.stdinSlot with
  | none => rfl
  | some filled =>
    simp only [withStdout, bind_assoc]
    refine congrArg _ (funext fun result => ?_)
    rcases result with ⟨writer, e | done⟩
    · rfl
    · cases done
      · rfl
      · rfl

theorem handleStdinWritable_withStdout (reactor : Reactor) : (d.withStdout slot bytes).handleStdinWritable reactor =
    (d.handleStdinWritable reactor >>= fun result => pure (result.1.withStdout slot bytes, result.2)) := by
  have same : (d.withStdout slot bytes).stdinSlot = d.stdinSlot := rfl
  unfold handleStdinWritable
  rw [same]
  cases filled : d.stdinSlot with
  | none => rfl
  | some filled' =>
    simp only [withStdout, bind_assoc]
    refine congrArg _ (funext fun result => ?_)
    rcases result with ⟨writer, e | done⟩
    · rfl
    · cases done
      · rfl
      · simp only [↓reduceIte, dropStdin]
        rfl

end

theorem operate_withStdout (d : DrainState) (slot : Option FdSlot) (bytes : Bytes) {call : ClientCall}
    (other : call.onStdout = false) :
    (d.withStdout slot bytes).operate call =
      (d.operate call >>= fun result => pure (result.1.withStdout slot bytes, result.2)) := by
  cases call with
  | readFd isStdout =>
    have stderr : isStdout = false := other
    subst stderr
    exact readFd_withStdout
  | writeStdin => exact writeStdin_withStdout
  | handleStdoutReady reactor => cases other
  | handleStderrReady reactor => exact handleStderrReady_withStdout reactor
  | handleStdinWritable reactor => exact handleStdinWritable_withStdout reactor

theorem admits_unasked (fd : Nat) : Admits (isConsultation · = false) false fd :=
  ⟨fun _ => rfl, fun _ => rfl, rfl, fun _ => rfl, nofun⟩

theorem dropOut_silent (d : DrainState) (isStdout : Bool) (reactor : Reactor) :
    (d.dropOut isStdout reactor).Issues (isConsultation · = false) := by
  unfold dropOut
  split
  · trivial
  · exact .bind (release_issues_of reactor (admits_unasked _)) fun _ => trivial

theorem operate_issues_of {allowed : Call → Prop} (d : DrainState) (call : ClientCall)
    (admits : ∀ isStdout fd, (isStdout = true → call.onStdout = true) → Admits allowed isStdout fd) :
    (d.operate call).Issues allowed := by
  cases call with
  | readFd isStdout => exact readFd_issues_of fun slot _ => admits isStdout _ id
  | writeStdin => exact writeStdin_issues_of fun slot _ => admits false _ nofun
  | handleStdoutReady reactor => exact handleOutReady_issues_of reactor fun slot _ => admits true _ fun _ => rfl
  | handleStderrReady reactor => exact handleOutReady_issues_of reactor fun slot _ => admits false _ nofun
  | handleStdinWritable reactor => exact handleStdinWritable_issues_of reactor fun slot _ => admits false _ nofun

theorem operate_onStdout {d : DrainState} {call : ClientCall} (stdout : call.onStdout = true) :
    (d.stdoutSlot = none ∧ ∃ result, d.operate call = pure result) ∨
      ∃ slot rest, d.stdoutSlot = some slot ∧
        d.operate call = (d.buffer.readFromFd slot.fd true d.earlyExit >>= rest) ∧
        ∀ value, (rest value).Issues (isConsultation · = false) := by
  cases filled : d.stdoutSlot with
  | none =>
    refine .inl ⟨rfl, ?_⟩
    cases call with
    | readFd isStdout =>
      have same : isStdout = true := stdout
      simp only [operate, readFd, same, outSlot, ↓reduceIte, filled]
      exact ⟨_, rfl⟩
    | handleStdoutReady reactor =>
      simp only [operate, handleStdoutReady, handleOutReady, outSlot, ↓reduceIte, filled]
      exact ⟨_, rfl⟩
    | writeStdin | handleStderrReady | handleStdinWritable => cases stdout
  | some slot =>
    refine .inr ⟨slot, ?_⟩
    cases call with
    | readFd isStdout =>
      have same : isStdout = true := stdout
      simp only [operate, readFd, same, outSlot, ↓reduceIte, filled]
      refine ⟨_, trivial, rfl, fun value => ?_⟩
      rcases value with ⟨buffer, e | eof⟩
      · trivial
      · cases eof
        · trivial
        · exact .bind (.bind ((Program.issues_ask _ _).mpr rfl) fun _ => trivial) fun _ => trivial
    | handleStdoutReady reactor =>
      simp only [operate, handleStdoutReady, handleOutReady, outSlot, ↓reduceIte, filled]
      refine ⟨_, trivial, rfl, fun value => ?_⟩
      rcases value with ⟨buffer, e | eof⟩
      · trivial
      · cases eof
        · trivial
        · exact .bind (dropOut_silent _ _ _) fun _ => trivial
    | writeStdin | handleStderrReady | handleStdinWritable => cases stdout

theorem operate_silent (d : DrainState) {call : ClientCall} (other : call.onStdout = false) :
    (d.operate call).Issues (isConsultation · = false) := by
  refine operate_issues_of d call fun isStdout fd shown => ?_
  cases isStdout with
  | false => exact admits_unasked fd
  | true => cases other.symm.trans (shown rfl)

def Stopped (fd : Option Fd) (t : Trace) (d : DrainState) : Prop :=
  ∀ before slice after, t = before ++ ⟨.earlyExit slice, true⟩ :: after →
    d.stdoutSlot = none ∧ d.buffer.stdout = (slices before).flatten ++ slice ∧
      ∀ fd', fd = some fd' → Closed fd'.raw after

structure Heard (fd : Option Fd) (t : Trace) (d : DrainState) : Prop where
  listens : d.earlyExit = true
  owns : ∀ slot, d.stdoutSlot = some slot → fd = some slot.fd
  seen : (slices t).flatten = d.buffer.stdout
  once : Guarded (fun before => ¬StopAsked before) (isConsultation ·.call = true) t
  stopped : Stopped fd t d

variable {fd : Option Fd} {t t' : Trace} {d d' : DrainState}

theorem Heard.going (heard : Heard fd t d) {slot : FdSlot} (filled : d.stdoutSlot = some slot) : ¬StopAsked t := by
  intro asked
  obtain ⟨slice, member⟩ := asked
  obtain ⟨before, after, split⟩ := List.append_of_mem member
  rw [(heard.stopped before slice after split).1] at filled
  cases filled

theorem heard_new {stdinFd : Option Fd} {stdinBuf : Option Bytes} {stderrFd : Option Fd} {limit : Nat}
    (created : Exec (new stdinFd stdinBuf fd stderrFd limit true) t (.done (.ok d))) : Heard fd [] d := by
  rw [exec_new_ok created]
  refine ⟨rfl, fun slot filled => ?_, rfl, guarded_nil _ _, fun before slice after split => ?_⟩
  · obtain ⟨fd', same, rfl⟩ := Option.map_eq_some_iff.mp filled
    rw [same]
  · exact absurd split.symm (List.append_ne_nil_of_right_ne_nil _ (List.cons_ne_nil _ _))

theorem Heard.quiet (heard : Heard fd t d) (silent : ∀ e ∈ t', isConsultation e.call = false)
    (listens : d'.earlyExit = d.earlyExit) (slot : d'.stdoutSlot = d.stdoutSlot)
    (bytes : d'.buffer.stdout = d.buffer.stdout) : Heard fd (t ++ t') d' where
  listens := listens.trans heard.listens
  owns slot' filled := heard.owns slot' (slot ▸ filled)
  seen := by rw [slices_append, slices_of_silent silent, List.append_nil, heard.seen, bytes]
  once := by
    rw [guarded_append]
    refine ⟨heard.once, guarded_of_forall fun e member consulted => ?_⟩
    rw [silent e member] at consulted
    cases consulted
  stopped before slice after split := by
    rcases List.append_eq_append_iff.mp split with ⟨middle, same, rest⟩ | ⟨middle, same, rest⟩
    · have member : (⟨.earlyExit slice, true⟩ : Event os) ∈ t' := by simp [rest]
      cases silent _ member
    · cases middle with
      | nil =>
        have member : (⟨.earlyExit slice, true⟩ : Event os) ∈ t' := by
          rw [← List.nil_append t', ← rest]
          exact List.mem_cons_self ..
        cases silent _ member
      | cons e middle =>
        obtain ⟨rfl, rfl⟩ := List.cons_eq_cons.mp rest
        obtain ⟨none, kept, closed⟩ := heard.stopped before slice middle same
        rw [slot, bytes]
        exact ⟨none, kept, fun fd' own => (closed fd' own).mono t'⟩

theorem Heard.append_guarded (heard : Heard fd t d) {slot : FdSlot} (filled : d.stdoutSlot = some slot)
    (guarded : Guarded (fun before => ¬StopAsked before) (isConsultation ·.call = true) t') :
    Guarded (fun before => ¬StopAsked before) (isConsultation ·.call = true) (t ++ t') := by
  refine guarded_append.mpr ⟨heard.once, guarded.mono fun before going => ?_⟩
  rw [stopAsked_append]
  exact not_or.mpr ⟨heard.going filled, going⟩

theorem Heard.read {slot : FdSlot} {buffer : BufferState} {result : Except SysError Bool} (heard : Heard fd t d)
    (filled : d.stdoutSlot = some slot)
    (read : Exec (d.buffer.readFromFd slot.fd true d.earlyExit) t' (.done (buffer, result)))
    (going : ¬StopAsked t') : Heard fd (t ++ t') { d with buffer } := by
  rw [heard.listens] at read
  have kept := (BufferState.readFromFd_shown read).1
  refine ⟨heard.listens, heard.owns, ?_, ?_, fun before slice after split => ?_⟩
  · rw [slices_append, List.flatten_append, heard.seen, kept]
  · exact heard.append_guarded filled (BufferState.readFromFd_guarded read)
  · have asked : StopAsked (t ++ t') := ⟨slice, by simp [split]⟩
    exact absurd asked (by simp [stopAsked_append, heard.going filled, going])

theorem Heard.close {slot : FdSlot} {buffer : BufferState} {cleanup : Trace} (heard : Heard fd t d)
    (filled : d.stdoutSlot = some slot)
    (read : Exec (d.buffer.readFromFd slot.fd true d.earlyExit) t' (.done (buffer, .ok true)))
    (silent : ∀ e ∈ cleanup, isConsultation e.call = false) (closed : Closed slot.fd.raw cleanup) :
    Heard fd (t ++ (t' ++ cleanup)) ({ d with buffer }.clearOut true) := by
  rw [heard.listens] at read
  obtain ⟨kept, last⟩ := BufferState.readFromFd_shown read
  have seen : (slices (t ++ (t' ++ cleanup))).flatten = buffer.stdout := by
    rw [slices_append, slices_append, slices_of_silent silent, List.append_nil, List.flatten_append, heard.seen, kept]
  refine ⟨heard.listens, fun slot' impossible => ?_, seen, ?_, fun before slice after split => ?_⟩
  · cases impossible
  · refine heard.append_guarded filled (guarded_append.mpr ⟨BufferState.readFromFd_guarded read, ?_⟩)
    refine guarded_of_forall fun e member consulted => ?_
    rw [silent e member] at consulted
    cases consulted
  · have calm := not_stopAsked_of_slices (slices_of_silent silent)
    have asked : StopAsked t' := by
      have somewhere : StopAsked (t ++ (t' ++ cleanup)) := ⟨slice, by simp [split]⟩
      rw [stopAsked_append, stopAsked_append] at somewhere
      exact (somewhere.resolve_left (heard.going filled)).resolve_right calm
    obtain ⟨⟨io, slice', rfl, going⟩, _⟩ := last asked
    have apart : t ++ (io ++ [⟨.earlyExit slice', true⟩] ++ cleanup) =
        (t ++ io) ++ ⟨.earlyExit slice', true⟩ :: cleanup := by simp
    have none : ¬StopAsked (t ++ io) := by simp [stopAsked_append, heard.going filled, going]
    obtain ⟨rfl, same, rfl⟩ := split_unique (P := fun e => ∃ slice, e = ⟨.earlyExit slice, true⟩)
      (not_stop_of_calm none) (not_stop_of_calm calm) ⟨slice, rfl⟩ (apart.symm.trans split)
    cases same
    refine ⟨rfl, ?_, fun fd' own => ?_⟩
    · have shown : (slices [⟨.earlyExit slice, true⟩]).flatten = slice := List.append_nil slice
      rw [slices_append, List.flatten_append, heard.seen, List.append_assoc, ← shown, ← List.flatten_append,
        ← slices_append, buffer_clearOut, kept]
    · rw [heard.owns slot filled] at own
      cases own
      exact closed

theorem OutServed.stdout_only {closing : FdSlot → Trace → Prop} {e : Option SysError}
    (served : OutServed d true closing t d' e) : ∃ slot bytes, d' = d.withStdout slot bytes := by
  cases served with
  | absent empty => exact ⟨d.stdoutSlot, d.buffer.stdout, rfl⟩
  | blocked filled read | failed filled read =>
    rw [BufferState.readFromFd_kept read]
    exact ⟨d.stdoutSlot, _, rfl⟩
  | closed filled read closed =>
    rw [BufferState.readFromFd_kept read]
    exact ⟨none, _, rfl⟩

def SameStdout (d d' : DrainState) : Prop :=
  d'.earlyExit = d.earlyExit ∧ d'.stdoutSlot = d.stdoutSlot ∧ d'.buffer.stdout = d.buffer.stdout

theorem OutServed.stdout_kept {closing : FdSlot → Trace → Prop} {e : Option SysError}
    (served : OutServed d false closing t d' e) : SameStdout d d' := by
  cases served with
  | absent empty => exact ⟨rfl, rfl, rfl⟩
  | blocked filled read | failed filled read | closed filled read closed =>
    rw [BufferState.readFromFd_kept read]
    exact ⟨rfl, rfl, rfl⟩

theorem StdinServed.stdout_kept {reactor : Reactor} {e : Option SysError} (served : StdinServed d reactor t d' e) :
    SameStdout d d' := by
  cases served <;> exact ⟨rfl, rfl, rfl⟩

theorem operate_elsewhere {call : ClientCall} {result : Except SysError call.Result} (other : call.onStdout = false)
    (run : Exec (d.operate call) t (.done (d', result))) : SameStdout d d' := by
  cases call with
  | readFd isStdout =>
    have same : isStdout = false := other
    subst same
    exact (exec_readFd_done run).stdout_kept
  | writeStdin => cases exec_writeStdin_done run <;> exact ⟨rfl, rfl, rfl⟩
  | handleStdoutReady reactor => cases other
  | handleStderrReady reactor => exact (exec_handleOutReady_done run).stdout_kept
  | handleStdinWritable reactor => exact (exec_handleStdinWritable_done run).stdout_kept

theorem operate_only {call : ClientCall} {result : Except SysError call.Result} (stdout : call.onStdout = true)
    (run : Exec (d.operate call) t (.done (d', result))) : ∃ slot bytes, d' = d.withStdout slot bytes := by
  cases call with
  | readFd isStdout =>
    have same : isStdout = true := stdout
    subst same
    exact (exec_readFd_done run).stdout_only
  | handleStdoutReady reactor => exact (exec_handleOutReady_done run).stdout_only
  | writeStdin | handleStderrReady | handleStdinWritable => cases stdout

theorem Heard.served {closing : FdSlot → Trace → Prop} {e : Option SysError}
    (closes : ∀ slot cleanup, closing slot cleanup →
      (∀ e ∈ cleanup, isConsultation e.call = false) ∧ Closed slot.fd.raw cleanup)
    (heard : Heard fd t d) (served : OutServed d true closing t' d' e) : Heard fd (t ++ t') d' := by
  have ended : ∀ {slot : FdSlot} {buffer : BufferState} {result : Except SysError Bool} {t' : Trace},
      Exec (d.buffer.readFromFd slot.fd true d.earlyExit) t' (.done (buffer, result)) → result ≠ .ok true →
      ¬StopAsked t' := by
    intro slot buffer result t' read other asked
    rw [heard.listens] at read
    exact other ((BufferState.readFromFd_shown read).2 asked).2
  cases served with
  | absent empty =>
    rw [List.append_nil]
    exact heard
  | blocked filled read => exact heard.read filled read (ended read (by decide))
  | failed filled read => exact heard.read filled read (ended read (by simp))
  | closed filled read closed =>
    obtain ⟨silent, closed⟩ := closes _ _ closed
    exact heard.close filled read silent closed

theorem dropped_closes {slot : FdSlot} {cleanup : Trace} (dropped : Dropped slot cleanup) :
    (∀ e ∈ cleanup, isConsultation e.call = false) ∧ Closed slot.fd.raw cleanup := by
  obtain ⟨answer, rfl⟩ := dropped
  refine ⟨fun e member => ?_, _, List.mem_singleton_self _, rfl⟩
  rw [List.mem_singleton.mp member]
  rfl

theorem released_closes {reactor : Reactor} {slot : FdSlot} {cleanup : Trace}
    (released : Released reactor slot cleanup) :
    (∀ e ∈ cleanup, isConsultation e.call = false) ∧ Closed slot.fd.raw cleanup := by
  obtain ⟨deleted, answer, rfl⟩ := released
  refine ⟨fun e member => ?_, ⟨.close slot.fd.raw, answer⟩, by simp, rfl⟩
  rcases List.mem_cons.mp member with rfl | member
  · rfl
  · rw [List.mem_singleton.mp member]
    rfl

theorem Heard.operate {call : ClientCall} {result : Except SysError call.Result} (heard : Heard fd t d)
    (run : Exec (d.operate call) t' (.done (d', result))) : Heard fd (t ++ t') d' := by
  cases stdout : call.onStdout with
  | false =>
    obtain ⟨listens, slot, bytes⟩ := operate_elsewhere stdout run
    exact heard.quiet (run.issues (operate_silent d stdout)).1 listens slot bytes
  | true =>
    cases call with
    | readFd isStdout =>
      have same : isStdout = true := stdout
      subst same
      exact heard.served (fun _ _ => dropped_closes) (exec_readFd_done run)
    | handleStdoutReady reactor => exact heard.served (fun _ _ => released_closes) (exec_handleOutReady_done run)
    | writeStdin | handleStderrReady | handleStdinWritable => cases stdout

theorem Operated.heard {d₀ : DrainState} (operated : Operated d₀ t d) (heard : Heard fd [] d₀) : Heard fd t d := by
  induction operated with
  | start => exact heard
  | call _ run ih => exact ih.operate run

theorem Heard.asking {call : ClientCall} {slice : Bytes} (heard : Heard fd t d)
    (run : Exec (d.operate call) t' (.waiting (.earlyExit slice))) : ¬StopAsked (t ++ t') := by
  cases stdout : call.onStdout with
  | false => cases (run.issues (operate_silent d stdout)).2 _ rfl
  | true =>
    rcases operate_onStdout stdout with ⟨_, result, same⟩ | ⟨slot, rest, filled, same, silent⟩
    · rw [same] at run
      cases ((exec_pure_iff _ _ _).mp run).2
    · rw [same, heard.listens] at run
      rw [stopAsked_append]
      refine not_or.mpr ⟨heard.going filled, ?_⟩
      rcases exec_bind_waiting.mp run with reading | ⟨first, value, second, rfl, _, later⟩
      · exact BufferState.readFromFd_asking reading
      · cases (later.issues (silent value)).2 _ rfl

/-- What the callback sees of stdout, and what a stop does. -/
structure SeenOnce (fd : Option Fd) (t : Trace) (d : DrainState) (call : ClientCall) (t' : Trace)
    (o : Outcome os (DrainState × Except SysError call.Result)) : Prop where
  seen : (slices t).flatten = d.buffer.stdout
  once : ∀ before slice, CallsAfter (t ++ t') o before (.earlyExit slice) → ¬StopAsked before
  stopped : Stopped fd t d
  stdoutOnly : call.onStdout = true → ∀ d' result, o = .done (d', result) → ∃ slot bytes, d' = d.withStdout slot bytes
  others : call.onStdout = false → ∀ slot bytes, (d.withStdout slot bytes).operate call =
    (d.operate call >>= fun result => pure (result.1.withStdout slot bytes, result.2))

/-- Whatever a client calls, in whatever order, the callback is shown the captured stdout once, and a
    stop ends stdout and nothing else. -/
theorem early_exit_sees_stdout_once {stdinFd : Option Fd} {stdinBuf : Option Bytes} {stderrFd : Option Fd}
    {limit : Nat} {t₀ : Trace} {d₀ : DrainState} {call : ClientCall}
    {o : Outcome os (DrainState × Except SysError call.Result)}
    (created : Exec (new stdinFd stdinBuf fd stderrFd limit true) t₀ (.done (.ok d₀)))
    (operated : Operated d₀ t d) (run : Exec (d.operate call) t' o) : SeenOnce fd t d call t' o := by
  have heard := operated.heard (heard_new created)
  refine ⟨heard.seen, fun before slice calls => ?_, heard.stopped, fun stdout d' result same => ?_,
    fun other slot bytes => ?_⟩
  · rcases calls with ⟨answer, after, split⟩ | ⟨rfl, waiting⟩
    · rcases List.append_eq_append_iff.mp split with ⟨middle, rfl, rest⟩ | ⟨middle, same, rest⟩
      · exact heard.asking (run.before rest)
      · cases middle with
        | nil =>
          rw [List.append_nil] at same
          have now : Exec (d.operate call) [] (.waiting (.earlyExit slice)) :=
            run.before (t := []) (by rw [List.nil_append, rest, List.nil_append])
          have calm := heard.asking now
          rwa [List.append_nil, same] at calm
        | cons e middle =>
          obtain ⟨rfl, _⟩ := List.cons_eq_cons.mp rest
          exact heard.once before _ middle same rfl
    · rw [waiting] at run
      exact heard.asking run
  · rw [same] at run
    exact operate_only stdout run
  · exact operate_withStdout d slot bytes other

def listening (limit : Nat) : DrainState := { twoStreams limit with earlyExit := true }

theorem new_listening (limit : Nat) :
    Exec (new none none (some ⟨5⟩) (some ⟨7⟩) limit true)
      [⟨.fcntlGetFl 5, .ok 0⟩, ⟨.fcntlSetFl 5 O_NONBLOCK, .ok ()⟩,
        ⟨.fcntlGetFl 7, .ok 0⟩, ⟨.fcntlSetFl 7 O_NONBLOCK, .ok ()⟩] (.done (.ok (listening limit))) :=
  .of_replay 1 rfl

theorem early_exit_at_second_slice :
    ∃ t d, Operated (listening 8) t d ∧ slices t = [[1, 2], [3]] ∧ StopAsked t ∧ SeenOnce (some ⟨5⟩) t d (.readFd false)
      [⟨.read 7 8, .ok ⟨[9], by decide⟩⟩, ⟨.read 7 7, .error EAGAIN⟩]
      (.done ({ listening 8 with stdoutSlot := none, buffer := ⟨[1, 2, 3], [9], 8⟩ }, .ok false)) := by
  have stopped : Exec ((listening 8).operate (.handleStdoutReady ⟨3, 1, ⟨[], 64⟩, none, none, none⟩))
      [⟨.read 5 8, .ok ⟨[1, 2], by decide⟩⟩, ⟨.earlyExit [1, 2], false⟩, ⟨.read 5 6, .ok ⟨[3], by decide⟩⟩,
        ⟨.earlyExit [3], true⟩, ⟨.epollCtlDel 3 5, .ok ()⟩, ⟨.close 5, .ok ()⟩]
      (.done ({ listening 8 with stdoutSlot := none, buffer := ⟨[1, 2, 3], [], 8⟩ }, .ok ())) :=
    .of_replay 5 rfl
  have later : Exec (operate { listening 8 with stdoutSlot := none, buffer := ⟨[1, 2, 3], [], 8⟩ } (.readFd false))
      [⟨.read 7 8, .ok ⟨[9], by decide⟩⟩, ⟨.read 7 7, .error EAGAIN⟩]
      (.done ({ listening 8 with stdoutSlot := none, buffer := ⟨[1, 2, 3], [9], 8⟩ }, .ok false)) :=
    .of_replay 5 rfl
  have operated := Operated.start.call stopped
  exact ⟨_, _, operated, rfl, ⟨[3], by simp⟩, early_exit_sees_stdout_once (new_listening 8) operated later⟩

end DrainState

end CoreShift
