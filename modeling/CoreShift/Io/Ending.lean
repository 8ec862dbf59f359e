import CoreShift.Io.Handlers
import CoreShift.Observe

namespace CoreShift

open Interaction

namespace BufferState

theorem consults_stdout {isStdout earlyExit : Bool} {limit : Nat} {dest : Bytes}
    (asked : consults isStdout earlyExit limit dest = true) : isStdout = true := by
  simp only [consults, Bool.and_eq_true] at asked
  exact asked.1.1

theorem round_ended {fd : Nat} {isStdout earlyExit : Bool} {limit : Nat} {dest dest' : Bytes} {t : Trace}
    (round : Round fd isStdout earlyExit limit dest t (.done (.inr (dest', .ok true)))) :
    SawEof fd t ∨ isStdout = true ∧ StopAsked t := by
  generalize outcome : Outcome.done (I := os) (Sum.inr (dest', Except.ok true)) = o at round
  cases round with
  | eof k => exact .inl ⟨_, readCount_pos limit dest, by simp⟩
  | consulted k data present asked stop =>
    cases stop
    · cases outcome
    · exact .inr ⟨consults_stdout asked, data.val, by simp⟩
  | waiting | blocked | failed | data | consulting => cases outcome

theorem readFromFd_ended {b b' : BufferState} {fd : Fd} {isStdout earlyExit : Bool} {t : Trace}
    (run : Exec (b.readFromFd fd isStdout earlyExit) t (.done (b', .ok true))) :
    SawEof fd.raw t ∨ isStdout = true ∧ StopAsked t := by
  obtain ⟨rounds, last, dest, final, rfl, rfl, reached, finish⟩ := exec_readFromFd_done run
  have sub : last ⊆ rounds ++ last := List.subset_append_right ..
  exact (round_ended finish).imp (·.mono sub) fun stopped => ⟨stopped.1, stopped.2.mono sub⟩

end BufferState

namespace WriterState

theorem offer_ne_nil {buf : Bytes} {off : Nat} (left : off < buf.length) : offer buf off ≠ [] := by
  apply List.ne_nil_of_length_pos
  rw [offer_length, WRITE_CHUNK]
  omega

theorem round_accepted {fd : Nat} {buf : Bytes} {off off' : Nat} {t : Trace}
    (round : Round fd buf off t (.done (.inl off'))) : buf.take off ++ accepted fd t = buf.take off' := by
  generalize outcome : Outcome.done (I := os) (Sum.inl off') = o at round
  cases round with
  | accepted k left n progress =>
    cases outcome
    simpa [acceptedBy] using take_offer n.property
  | finished | waiting | refused | blocked | broken | failed => cases outcome

theorem iterates_accepted {fd : Fd} {buf : Bytes} {start off : Nat} {t : Trace}
    (rounds : Iterates (writeRound fd buf) start t off) :
    buf.take start ++ accepted fd.raw t = buf.take off := by
  induction rounds with
  | start => simp
  | next _ round ih =>
    rw [accepted_append, ← List.append_assoc, ih, round_accepted (exec_writeRound round)]

theorem round_blocked {fd : Nat} {buf : Bytes} {off : Nat} {t : Trace} {w : WriterState}
    (round : Round fd buf off t (.done (.inr (w, .ok false)))) : w = ⟨some buf, off⟩ ∧ accepted fd t = [] := by
  generalize outcome : Outcome.done (I := os) (Sum.inr (w, Except.ok false)) = o at round
  cases round with
  | blocked k left =>
    cases outcome
    exact ⟨rfl, by simp [acceptedBy]⟩
  | finished | waiting | accepted | refused | broken | failed => cases outcome

theorem round_ended {fd : Nat} {buf : Bytes} {off : Nat} {t : Trace} {w : WriterState}
    (round : Round fd buf off t (.done (.inr (w, .ok true)))) :
    buf.length ≤ off ∧ accepted fd t = [] ∨ WriteEnded fd t := by
  generalize outcome : Outcome.done (I := os) (Sum.inr (w, Except.ok true)) = o at round
  cases round with
  | finished written => exact .inl ⟨written, rfl⟩
  | refused k left => exact .inr ⟨_, offer_ne_nil left, .inr (by simp)⟩
  | broken k left => exact .inr ⟨_, offer_ne_nil left, .inl (by simp)⟩
  | waiting | accepted | blocked | failed => cases outcome

def rest (w : WriterState) : Bytes :=
  match w.buf with
  | some buf => buf.drop w.off
  | none => []

theorem accepted_rest {buf taken : Bytes} {off off' : Nat} (same : buf.take off ++ taken = buf.take off') :
    taken ++ buf.drop off' = buf.drop off := by
  have whole : buf.take off ++ (taken ++ buf.drop off') = buf.take off ++ buf.drop off := by
    rw [← List.append_assoc, same, List.take_append_drop, List.take_append_drop]
  exact List.append_cancel_left whole

theorem writeToFd_blocked {w w' : WriterState} {fd : Fd} {t : Trace}
    (run : Exec (w.writeToFd fd) t (.done (w', .ok false))) : accepted fd.raw t ++ w'.rest = w.rest := by
  cases pending : w.buf with
  | none =>
    simp only [writeToFd, pending] at run
    cases ((exec_pure_iff _ _ _).mp run).2
  | some buf =>
    obtain ⟨rounds, last, off, rfl, reached, finish⟩ := exec_writeToFd_done pending run
    obtain ⟨rfl, nothing⟩ := round_blocked finish
    simp only [rest, pending]
    rw [accepted_append, nothing, List.append_nil, accepted_rest (iterates_accepted reached)]

theorem writeToFd_ended {w w' : WriterState} {fd : Fd} {t : Trace}
    (run : Exec (w.writeToFd fd) t (.done (w', .ok true))) :
    accepted fd.raw t = w.rest ∨ WriteEnded fd.raw t := by
  cases pending : w.buf with
  | none =>
    simp only [writeToFd, pending] at run
    obtain ⟨rfl, -⟩ := (exec_pure_iff _ _ _).mp run
    simp [rest, pending]
  | some buf =>
    obtain ⟨rounds, last, off, rfl, reached, finish⟩ := exec_writeToFd_done pending run
    rcases round_ended finish with ⟨whole, quiet⟩ | ended
    · left
      have left := accepted_rest (iterates_accepted reached)
      rw [List.drop_of_length_le whole, List.append_nil] at left
      rw [accepted_append, quiet, List.append_nil, left]
      simp only [rest, pending]
    · exact .inr (ended.mono (List.subset_append_right ..))

end WriterState

end CoreShift
