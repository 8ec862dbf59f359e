import CoreShift.Io.Delivery

namespace CoreShift

open Interaction WriterState

def failsWrite (fd : Nat) : Event os → Prop
  | ⟨.write fd' _, .error e⟩ => fd' = fd ∧ e ≠ EINTR ∧ e ≠ EAGAIN ∧ e ≠ EPIPE
  | _ => False

def WriteFailed (fd : Nat) (t : Trace) : Prop := ∃ e ∈ t, failsWrite fd e

section
variable {fd : Nat} {buf : Bytes} {t t' : Trace}

@[simp] theorem writeFailed_nil (fd : Nat) : ¬WriteFailed fd [] := by
  simp [WriteFailed]

@[simp] theorem writeFailed_cons (fd : Nat) (e : Event os) (t : Trace) :
    WriteFailed fd (e :: t) ↔ failsWrite fd e ∨ WriteFailed fd t := by
  simp [WriteFailed]

@[simp] theorem writeFailed_append (fd : Nat) (t t' : Trace) :
    WriteFailed fd (t ++ t') ↔ WriteFailed fd t ∨ WriteFailed fd t' := by
  simp [WriteFailed, or_and_right, exists_or]

theorem not_writeFailed_interrupted (fd fd' k : Nat) (bytes : Bytes) :
    ¬WriteFailed fd (List.replicate k ⟨.write fd' bytes, .error EINTR⟩) := by
  intro failed
  obtain ⟨e, member, fails⟩ := failed
  rw [List.eq_of_mem_replicate member] at fails
  exact fails.2.1 rfl

theorem endsDelivery_of_fails {e : Event os} (fails : failsWrite fd e) : endsDelivery fd e := by
  obtain ⟨call, answer⟩ := e
  cases call
  case write fd' bytes =>
    rcases answer with e | n
    · exact ⟨fails.1, fails.2.1, fails.2.2.1⟩
    · exact fails.elim
  all_goals exact fails.elim

theorem writeEnded_append (fd : Nat) (t t' : Trace) :
    WriteEnded fd (t ++ t') ↔ WriteEnded fd t ∨ WriteEnded fd t' := by
  apply Iff.intro
  · intro ended
    obtain ⟨bytes, some, broken | refused⟩ := ended
    · exact (List.mem_append.mp broken).imp (⟨bytes, some, .inl ·⟩) (⟨bytes, some, .inl ·⟩)
    · exact (List.mem_append.mp refused).imp (⟨bytes, some, .inr ·⟩) (⟨bytes, some, .inr ·⟩)
  · intro ended
    rcases ended with first | second
    · exact first.mono (List.subset_append_left ..)
    · exact second.mono (List.subset_append_right ..)

theorem endsDelivery_of_writeEnded (ended : WriteEnded fd t) : ∃ e ∈ t, endsDelivery fd e := by
  obtain ⟨bytes, _, broken | refused⟩ := ended
  · exact ⟨_, broken, rfl, by decide, by decide⟩
  · exact ⟨_, refused, rfl, rfl⟩

namespace WriterState

theorem round_failed {off : Nat} {o} (round : Round fd buf off t o) :
    WriteFailed fd t ↔ ∃ w e, o = .done (.inr (w, .error e)) := by
  have interrupted := fun k => not_writeFailed_interrupted fd fd k (offer buf off)
  cases round with
  | finished written => simp
  | waiting k left => simp [interrupted]
  | accepted k left n progress => simp [interrupted, failsWrite]
  | refused k left => simp [interrupted, failsWrite]
  | blocked k left => simp [interrupted, failsWrite]
  | broken k left => simp [interrupted, failsWrite]
  | failed k left e notInterrupted notBlocked notBroken =>
    simp [failsWrite, notInterrupted, notBlocked, notBroken]

theorem iterates_not_failed {fd : Fd} {first off : Nat} (rounds : Iterates (writeRound fd buf) first t off) :
    ¬WriteFailed fd.raw t := by
  induction rounds with
  | start => simp
  | next _ round ih =>
    have last := round_failed (exec_writeRound round)
    simpa [ih] using last

theorem writeToFd_failed {w w' : WriterState} {fd : Fd} {result : Except SysError Bool} (pending : w.buf = some buf)
    (run : Exec (w.writeToFd fd) t (.done (w', result))) : WriteFailed fd.raw t ↔ ∃ e, result = .error e := by
  obtain ⟨rounds, last, off, rfl, reached, finish⟩ := exec_writeToFd_done pending run
  have failed := round_failed finish
  simpa [iterates_not_failed reached] using failed

end WriterState

namespace DrainState

inductive Writes (d₀ : DrainState) : List (Trace × Except SysError Bool) → DrainState → Prop where
  | start : Writes d₀ [] d₀
  | call {calls : List (Trace × Except SysError Bool)} {d d' : DrainState} {t : Trace} {result : Except SysError Bool}
      (before : Writes d₀ calls d) (run : Exec d.writeStdin t (.done (d', result))) :
      Writes d₀ (calls ++ [(t, result)]) d'

def exchanged (calls : List (Trace × Except SysError Bool)) : Trace := calls.flatMap (·.1)

@[simp] theorem exchanged_append (calls calls' : List (Trace × Except SysError Bool)) :
    exchanged (calls ++ calls') = exchanged calls ++ exchanged calls' := List.flatMap_append ..

@[simp] theorem exchanged_single (t : Trace) (result : Except SysError Bool) : exchanged [(t, result)] = t :=
  List.append_nil t

/-- Stdin is finished: all of it was accepted, or the pipe was reported closed. -/
def Finished (fd : Nat) (buf : Bytes) (t : Trace) : Prop := accepted fd t = buf ∨ WriteEnded fd t

def Honest (fd : Nat) (buf : Bytes) (calls : List (Trace × Except SysError Bool)) : Prop :=
  ∀ earlier t later, calls = earlier ++ (t, .ok true) :: later → Finished fd buf (exchanged earlier ++ t)

def NotRetried (fd : Nat) (calls : List (Trace × Except SysError Bool)) : Prop :=
  ∀ earlier call later, calls = earlier ++ call :: later → ¬WriteFailed fd (exchanged earlier)

theorem Honest.first {calls calls' : List (Trace × Except SysError Bool)} (honest : Honest fd buf (calls ++ calls')) :
    Honest fd buf calls := by
  intro earlier t later split
  exact honest earlier t (later ++ calls') (by simp [split])

theorem NotRetried.first {calls calls' : List (Trace × Except SysError Bool)} (once : NotRetried fd (calls ++ calls')) :
    NotRetried fd calls := by
  intro earlier call later split
  exact once earlier call (later ++ calls') (by simp [split])

inductive Told (fd : Nat) (buf : Bytes) (t : Trace) (d : DrainState) : Prop where
  | writing {off : Nat} (stands : Stands fd buf d (.writing off)) (feed : Feed fd buf (.writing 0) t (.writing off))
  | failed {off : Nat} (stands : Stands fd buf d .failed) (failed : WriteFailed fd t) (left : off < buf.length)
      (taken : accepted fd t = buf.take off) (open' : ¬WriteEnded fd t)
  | closed (stands : Stands fd buf d .closed) (never : ¬WriteFailed fd t) (finished : Finished fd buf t)

inductive StdinWritten (d : DrainState) : Trace → DrainState → Except SysError Bool → Prop where
  | absent (empty : d.stdinSlot = none) : StdinWritten d [] d (.ok true)
  | blocked {slot : FdSlot} {writer : WriterState} {t : Trace} (filled : d.stdinSlot = some slot)
      (written : Exec (d.writer.writeToFd slot.fd) t (.done (writer, .ok false))) :
      StdinWritten d t { d with writer } (.ok false)
  | failed {slot : FdSlot} {writer : WriterState} {t : Trace} {e : SysError} (filled : d.stdinSlot = some slot)
      (written : Exec (d.writer.writeToFd slot.fd) t (.done (writer, .error e))) :
      StdinWritten d t { d with writer } (.error e)
  | closed {slot : FdSlot} {writer : WriterState} {t cleanup : Trace} (filled : d.stdinSlot = some slot)
      (written : Exec (d.writer.writeToFd slot.fd) t (.done (writer, .ok true))) (closes : Dropped slot cleanup) :
      StdinWritten d (t ++ cleanup) { d with stdinSlot := none, writer } (.ok true)

theorem exec_writeStdin_done {d d' : DrainState} {result : Except SysError Bool}
    (run : Exec d.writeStdin t (.done (d', result))) : StdinWritten d t d' result := by
  unfold writeStdin at run
  split at run <;> rename_i filled
  · obtain ⟨rfl, same⟩ := (exec_pure_iff _ _ _).mp run
    cases same
    exact .absent filled
  · rename_i slot
    obtain ⟨first, ⟨writer, outcome⟩, second, rfl, written, rest⟩ := exec_bind_done.mp run
    rcases outcome with e | done
    · obtain ⟨rfl, same⟩ := (exec_pure_iff _ _ _).mp rest
      cases same
      rw [List.append_nil]
      exact .failed filled written
    · cases done
      · obtain ⟨rfl, same⟩ := (exec_pure_iff _ _ _).mp rest
        cases same
        rw [List.append_nil]
        exact .blocked filled written
      · obtain ⟨closing, _, returned, rfl, dropped, rest⟩ := exec_bind_done.mp rest
        obtain ⟨rfl, same⟩ := (exec_pure_iff _ _ _).mp rest
        cases same
        rw [List.append_nil]
        exact .closed filled written (exec_drop_done dropped)

theorem not_writeEnded_of_live {off : Nat} (feed : Feed fd buf (.writing 0) t (.writing off)) : ¬WriteEnded fd t := by
  intro ended
  obtain ⟨e, member, ends⟩ := endsDelivery_of_writeEnded ended
  exact feed.delivered.live off rfl e member ends

theorem not_writeFailed_of_live {off : Nat} (feed : Feed fd buf (.writing 0) t (.writing off)) : ¬WriteFailed fd t := by
  intro failed
  obtain ⟨e, member, fails⟩ := failed
  exact feed.delivered.live off rfl e member (endsDelivery_of_fails fails)

theorem feed_failed_short (feed : Feed fd buf (.writing 0) t .failed) :
    ∃ off < buf.length, accepted fd t = buf.take off ∧ ¬WriteEnded fd t := by
  generalize ending : Feeding.failed = s at feed
  induction feed with
  | start => cases ending
  | @step t s s' e before fed ih =>
    cases fed with
    | other silent =>
      obtain ⟨off, left, taken, open'⟩ := ih ending
      refine ⟨off, left, by simp [taken, acceptedBy_of_silent silent], ?_⟩
      intro ended
      rcases (writeEnded_append _ _ _).mp ended with before | last
      · exact open' before
      · obtain ⟨e', member, ends⟩ := endsDelivery_of_writeEnded last
        rw [List.mem_singleton.mp member] at ends
        exact not_endsDelivery_of_silent silent ends
    | @failed off e left notInterrupted notBlocked notBroken =>
      obtain ⟨off', _, taken, here⟩ := before.delivered.taken
      have same := here off rfl
      subst same
      refine ⟨off, left, by simp [taken, acceptedBy], ?_⟩
      intro ended
      rcases (writeEnded_append _ _ _).mp ended with earlier | last
      · exact not_writeEnded_of_live before earlier
      · obtain ⟨bytes, _, broken | refused⟩ := last
        · cases List.mem_singleton.mp broken
          exact notBroken rfl
        · cases List.mem_singleton.mp refused
    | blocked | accepted | refused | broken => cases ending
  | closes _ _ => cases ending

theorem dropped_silent (fd : Nat) {slot : FdSlot} (dropped : Dropped slot t) :
    accepted fd t = [] ∧ ¬WriteEnded fd t ∧ ¬WriteFailed fd t := by
  obtain ⟨answer, rfl⟩ := dropped
  refine ⟨rfl, ?_, by simp [failsWrite]⟩
  intro ended
  obtain ⟨bytes, _, broken | refused⟩ := ended
  · cases List.mem_singleton.mp broken
  · cases List.mem_singleton.mp refused

theorem finished_append_silent (quiet : accepted fd t' = []) (open' : ¬WriteEnded fd t') :
    Finished fd buf (t ++ t') ↔ Finished fd buf t := by
  simp [Finished, quiet, writeEnded_append, open']

theorem Told.retried {d d' : DrainState} {result : Except SysError Bool} (told : Told fd buf t d)
    (failed : WriteFailed fd t) (run : Exec d.writeStdin t' (.done (d', result))) :
    result = .ok true ∧ ¬Finished fd buf (t ++ t') := by
  cases told with
  | writing _ feed => exact absurd failed (not_writeFailed_of_live feed)
  | closed _ never _ => exact absurd failed never
  | @failed off stands _ left taken open' =>
    have unfinished : ¬Finished fd buf t := by
      intro finished
      rcases finished with all | ended
      · have short : (buf.take off).length = buf.length := by rw [← taken, all]
        rw [List.length_take] at short
        omega
      · exact open' ended
    obtain ⟨⟨slot, filled, rfl⟩, none⟩ := stands
    have given : d.writer.writeToFd slot.fd = pure (d.writer, .ok true) := by
      simp only [WriterState.writeToFd, none]
    cases exec_writeStdin_done run with
    | absent empty =>
      rw [empty] at filled
      cases filled
    | blocked same written | failed same written =>
      cases filled.symm.trans same
      rw [given] at written
      cases ((exec_pure_iff _ _ _).mp written).2
    | @closed slot' writer u cleanup same written closes =>
      cases filled.symm.trans same
      rw [given] at written
      obtain ⟨rfl, _⟩ := (exec_pure_iff _ _ _).mp written
      obtain ⟨quiet, still, _⟩ := dropped_silent slot.fd.raw closes
      rw [List.nil_append, finished_append_silent quiet still]
      exact ⟨rfl, unfinished⟩

theorem Told.call {d d' : DrainState} {result : Except SysError Bool} (told : Told fd buf t d)
    (never : ¬WriteFailed fd t) (run : Exec d.writeStdin t' (.done (d', result))) :
    Told fd buf (t ++ t') d' ∧ (result = .ok true → Finished fd buf (t ++ t')) := by
  cases told with
  | failed _ failed _ _ _ => exact absurd failed never
  | closed stands _ finished =>
    cases exec_writeStdin_done run with
    | absent empty =>
      rw [List.append_nil]
      exact ⟨.closed stands never finished, fun _ => finished⟩
    | blocked filled _ | failed filled _ | closed filled _ _ =>
      rw [show d.stdinSlot = none from stands] at filled
      cases filled
  | @writing off stands feed =>
    obtain ⟨⟨slot, filled, rfl⟩, writer⟩ := stands
    have pending : d.writer.buf = some buf := by rw [writer]
    have start : d.writer.off = off := by rw [writer]
    cases exec_writeStdin_done run with
    | absent empty =>
      rw [empty] at filled
      cases filled
    | blocked same written =>
      cases filled.symm.trans same
      obtain ⟨s, further, stood⟩ := WriterState.writeToFd_feed pending written
      rw [start] at further
      cases stood
      exact ⟨.writing ⟨⟨slot, filled, rfl⟩, rfl⟩ (feed.trans further), by simp⟩
    | failed same written =>
      cases filled.symm.trans same
      have fails := (WriterState.writeToFd_failed pending written).mpr ⟨_, rfl⟩
      obtain ⟨s, further, stood⟩ := WriterState.writeToFd_feed pending written
      rw [start] at further
      cases stood
      obtain ⟨off', left, taken, open'⟩ := feed_failed_short (feed.trans further)
      refine ⟨.failed ⟨⟨slot, filled, rfl⟩, rfl⟩ ?_ left taken open', by simp⟩
      exact (writeFailed_append _ _ _).mpr (.inr fails)
    | @closed slot' w u cleanup same written closes =>
      cases filled.symm.trans same
      obtain ⟨quiet, still, calm⟩ := dropped_silent slot.fd.raw closes
      have finished : Finished slot.fd.raw buf (t ++ u) := by
        rcases WriterState.writeToFd_ended written with whole | ended
        · obtain ⟨off', _, taken, here⟩ := feed.delivered.taken
          cases here off rfl
          left
          simp only [WriterState.rest, pending, start] at whole
          rw [accepted_append, whole, taken, List.take_append_drop]
        · exact .inr (ended.mono (List.subset_append_right ..))
      have calm' : ¬WriteFailed slot.fd.raw u := by
        intro failed
        obtain ⟨e, impossible⟩ := (WriterState.writeToFd_failed pending written).mp failed
        cases impossible
      rw [← List.append_assoc, finished_append_silent quiet still]
      refine ⟨.closed rfl ?_ ?_, fun _ => finished⟩
      · simp [never, calm, calm']
      · exact (finished_append_silent quiet still).mpr finished

theorem Writes.split {d₀ d : DrainState} {earlier later : List (Trace × Except SysError Bool)}
    {call : Trace × Except SysError Bool} (writes : Writes d₀ (earlier ++ call :: later) d) :
    ∃ d₁ d₂, Writes d₀ earlier d₁ ∧ Exec d₁.writeStdin call.1 (.done (d₂, call.2)) := by
  generalize whole : earlier ++ call :: later = calls at writes
  induction writes generalizing later with
  | start => simp at whole
  | @call calls d d' t result before run ih =>
    rcases List.eq_nil_or_concat later with rfl | ⟨later, last, rfl⟩
    · obtain ⟨rfl, same⟩ := List.append_inj' whole rfl
      cases same
      exact ⟨d, d', before, run⟩
    · rw [List.concat_eq_append, ← List.cons_append, ← List.append_assoc] at whole
      obtain ⟨same, _⟩ := List.append_inj' whole rfl
      exact ih same

section
variable {d₀ d : DrainState} {calls : List (Trace × Except SysError Bool)}

theorem Writes.told_of_notRetried (stands : Stands fd buf d₀ (.writing 0)) (writes : Writes d₀ calls d)
    (once : NotRetried fd calls) : Told fd buf (exchanged calls) d := by
  induction writes with
  | start => exact .writing stands .start
  | call _ run ih =>
    have never := once _ _ [] rfl
    rw [exchanged_append, exchanged_single]
    exact ((ih once.first).call never run).1

theorem Writes.told_of_honest (stands : Stands fd buf d₀ (.writing 0)) (writes : Writes d₀ calls d)
    (honest : Honest fd buf calls) : Told fd buf (exchanged calls) d := by
  induction writes with
  | start => exact .writing stands .start
  | @call calls d d' t result _ run ih =>
    have told := ih honest.first
    rw [exchanged_append, exchanged_single]
    by_cases failed : WriteFailed fd (exchanged calls)
    · obtain ⟨rfl, unfinished⟩ := told.retried failed run
      exact absurd (honest _ _ [] rfl) unfinished
    · exact (told.call failed run).1

theorem honest_iff_notRetried (stands : Stands fd buf d₀ (.writing 0)) (writes : Writes d₀ calls d) :
    Honest fd buf calls ↔ NotRetried fd calls := by
  apply Iff.intro
  · intro honest earlier call later split failed
    rw [split] at writes honest
    obtain ⟨d₁, d₂, before, run⟩ := writes.split
    have told := before.told_of_honest stands honest.first
    obtain ⟨t, result⟩ := call
    obtain ⟨rfl, unfinished⟩ := told.retried failed run
    exact unfinished (honest earlier t later rfl)
  · intro once earlier t later split
    rw [split] at writes once
    obtain ⟨d₁, d₂, before, run⟩ := writes.split
    have told := before.told_of_notRetried stands once.first
    exact (told.call (once earlier _ later rfl) run).2 rfl

end

/-- `write_stdin` returns `Ok(true)` only with stdin finished, in all of its calls, if and only if none
    of them comes after a write that failed. -/
theorem stdin_honest_iff {fd : Fd} {buf : Bytes} {stdout stderr : Option Fd} {limit : Nat} {earlyExit : Bool}
    {d₀ d : DrainState} {t₀ : Trace} {calls : List (Trace × Except SysError Bool)}
    (created : Exec (new (some fd) (some buf) stdout stderr limit earlyExit) t₀ (.done (.ok d₀)))
    (writes : Writes d₀ calls d) : Honest fd.raw buf calls ↔ NotRetried fd.raw calls :=
  honest_iff_notRetried (stands_new created) writes

def oneByte : DrainState := ⟨none, none, some ⟨none, ⟨4⟩⟩, .new 0, .new (some [7]), false⟩

theorem oneByte_created :
    Exec (new (some ⟨4⟩) (some [7]) none none 0 false) [⟨.fcntlGetFl 4, .ok 0⟩, ⟨.fcntlSetFl 4 0o4000, .ok ()⟩]
      (.done (.ok oneByte)) := .of_replay 3 rfl

theorem oneByte_honest :
    Honest 4 [7] ([] ++ [([⟨.write 4 [7], .error EAGAIN⟩], .ok false)] ++
      [([⟨.write 4 [7], .ok ⟨1, by decide⟩⟩, ⟨.close 4, .ok ()⟩], .ok true)]) := by
  have first : Exec oneByte.writeStdin [⟨.write 4 [7], .error EAGAIN⟩]
      (.done (⟨none, none, some ⟨none, ⟨4⟩⟩, .new 0, ⟨some [7], 0⟩, false⟩, .ok false)) := .of_replay 3 rfl
  have second : Exec (writeStdin ⟨none, none, some ⟨none, ⟨4⟩⟩, .new 0, ⟨some [7], 0⟩, false⟩)
      [⟨.write 4 [7], .ok ⟨1, by decide⟩⟩, ⟨.close 4, .ok ()⟩]
      (.done (⟨none, none, none, .new 0, ⟨none, 1⟩, false⟩, .ok true)) := .of_replay 3 rfl
  apply (stdin_honest_iff oneByte_created (.call (.call .start first) second)).mpr
  intro earlier call later split failed
  have calm : ¬WriteFailed 4
      [⟨.write 4 [7], .error EAGAIN⟩, ⟨.write 4 [7], .ok ⟨1, by decide⟩⟩, ⟨.close 4, .ok ()⟩] := by
    simp [failsWrite]
  have whole : exchanged (earlier ++ call :: later) =
      [⟨.write 4 [7], .error EAGAIN⟩, ⟨.write 4 [7], .ok ⟨1, by decide⟩⟩, ⟨.close 4, .ok ()⟩] := by
    rw [← split]
    rfl
  rw [← whole, exchanged_append] at calm
  exact calm ((writeFailed_append _ _ _).mpr (.inl failed))

/-- A second call after EIO says that stdin is finished, though nothing was written. -/
theorem dishonest_after_error :
    ¬∀ (fd : Fd) (buf : Bytes) (d₀ d : DrainState) (t₀ : Trace) (calls : List (Trace × Except SysError Bool)),
      Exec (new (some fd) (some buf) none none 0 false) t₀ (.done (.ok d₀)) → Writes d₀ calls d →
      Honest fd.raw buf calls := by
  intro honest
  have first : Exec oneByte.writeStdin [⟨.write 4 [7], .error 5⟩]
      (.done (⟨none, none, some ⟨none, ⟨4⟩⟩, .new 0, ⟨none, 0⟩, false⟩, .error (.syscall 5 "write"))) :=
    .of_replay 3 rfl
  have second : Exec (writeStdin ⟨none, none, some ⟨none, ⟨4⟩⟩, .new 0, ⟨none, 0⟩, false⟩) [⟨.close 4, .ok ()⟩]
      (.done (⟨none, none, none, .new 0, ⟨none, 0⟩, false⟩, .ok true)) := .of_replay 3 rfl
  have both := honest _ _ _ _ _ _ oneByte_created (.call (.call .start first) second)
  rcases both _ _ [] rfl with all | ended
  · exact absurd all (by decide)
  · obtain ⟨bytes, _, broken | refused⟩ := ended
    · simp [exchanged, EPIPE] at broken
      obtain ⟨rfl, same⟩ := broken
      simp at same
    · simp [exchanged] at refused
      obtain ⟨rfl, same⟩ := refused
      simp at same

end DrainState

end

end CoreShift
