import CoreShift.Spawn.Completion
import CoreShift.Spawn.Wakeup

namespace CoreShift

open Interaction

namespace Kernel

variable {K K' : Kernel} {epfd fd : Nat} {e : Event os} {t : Trace}

/-- The far end of the pipe behind a stream is held by nobody any more. -/
def Deserted (K : Kernel) : Stream → Nat → Prop
  | .stdin, fd => ∃ k, K.file fd = some (.writeEnd k) ∧ (K.pipes k).readers = false
  | .stdout, fd | .stderr, fd => ∃ k, K.file fd = some (.readEnd k) ∧ (K.pipes k).writers = false

def Fades (K K' : Kernel) : Prop :=
  ∀ k, ((K.pipes k).writers = false → (K'.pipes k).writers = false) ∧
    ((K.pipes k).readers = false → (K'.pipes k).readers = false)

theorem fades_refl (K : Kernel) : Fades K K := fun _ => ⟨id, id⟩

theorem fades_setPipe {k : Nat} {p : Pipe} (writers : (K.pipes k).writers = false → p.writers = false)
    (readers : (K.pipes k).readers = false → p.readers = false) : Fades K (K.setPipe k p) := by
  intro k'
  by_cases same : k' = k
  · have here : (K.setPipe k p).pipes k' = p := by
      rw [same]
      exact Function.update_self ..
    rw [here, same]
    exact ⟨writers, readers⟩
  · have there : (K.setPipe k p).pipes k' = K.pipes k' := Function.update_of_ne same ..
    rw [there]
    exact ⟨id, id⟩

theorem fades_of_moves {k : Nat} {op : Channel.Op UInt8} {answer : Channel.Answer UInt8} {p : Pipe}
    (moves : (K.pipes k).Moves op answer p) : Fades K (K.setPipe k p) := by
  obtain ⟨c, -, rfl⟩ := moves
  exact fades_setPipe id id

theorem Deserted.fades {s : Stream} (deserted : K.Deserted s fd) (fades : Fades K K') (file : K'.file fd = K.file fd) :
    K'.Deserted s fd := by
  cases s with
  | stdin =>
    obtain ⟨k, refers, gone⟩ := deserted
    exact ⟨k, file.trans refers, (fades k).2 gone⟩
  | stdout | stderr =>
    obtain ⟨k, refers, gone⟩ := deserted
    exact ⟨k, file.trans refers, (fades k).1 gone⟩

theorem Child.deserted {s : Stream} (child : Child K K') (deserted : K.Deserted s fd) : K'.Deserted s fd := by
  cases child with
  | far far marks =>
    cases far with
    | call moves => exact deserted.fades (fades_of_moves moves) rfl
    | closeWriters => exact deserted.fades (fades_setPipe (fun _ => rfl) id) rfl
    | closeReaders => exact deserted.fades (fades_setPipe id fun _ => rfl) rfl

theorem Parent.deserted {s : Stream} (parent : Parent epfd K e K') (unclosed : e.call ≠ .close fd)
    (deserted : K.Deserted s fd) : K'.Deserted s fd := by
  cases parent with
  | wait => exact deserted.fades (fades_refl K) rfl
  | exchange change marks =>
    cases change with
    | read refers moves | write refers moves => exact deserted.fades (fades_of_moves moves) rfl
    | @close fd' =>
      have other : fd ≠ fd' := fun same => unclosed (congrArg _ same.symm)
      exact deserted.fades (fades_refl K) (Function.update_of_ne other _ _)
    | readAgain | readFails | writeAgain | writeFails | add | addFails | del | delFails | waitFails | elsewhere =>
      exact deserted.fades (fades_refl K) rfl

theorem Run.deserted {s : Stream} (run : Run epfd K t K') (unclosed : ∀ e ∈ t, e.call ≠ .close fd)
    (deserted : K.Deserted s fd) : K'.Deserted s fd :=
  run.keeps (P := (Deserted · s fd)) deserted (fun _ _ => Child.deserted)
    fun e member _ _ step => step.deserted (unclosed e member)

theorem Deserted.reports {s : Stream} (deserted : K.Deserted s fd) : K.revents fd (interest s) ≠ 0 := by
  cases s with
  | stdin =>
    obtain ⟨k, refers, gone⟩ := deserted
    rw [Ne, quiet_writeEnd refers, gone]
    simp
  | stdout | stderr =>
    obtain ⟨k, refers, gone⟩ := deserted
    have quiet : K.revents fd (interest .stdout) = 0 ↔ _ := quiet_readEnd refers
    rw [gone] at quiet
    exact fun none => Bool.false_ne_true (quiet.mp none).2

theorem Deserted.not_refused {s : Stream} (deserted : K.Deserted s fd) (parent : Parent epfd K e K') :
    ¬Refused fd e := by
  intro refused
  rcases refused with ⟨count, rfl⟩ | ⟨bytes, rfl⟩
  · cases parent with
    | exchange change marks =>
      cases change with
      | readAgain refers moves =>
        obtain ⟨c, move, -⟩ := moves
        obtain ⟨held, -⟩ := move.stalls.2
        have writers : (K.pipes _).writers = true := held
        cases s with
        | stdin =>
          obtain ⟨k, refers', gone⟩ := deserted
          cases refers.symm.trans refers'
        | stdout | stderr =>
          obtain ⟨k, refers', gone⟩ := deserted
          cases refers.symm.trans refers'
          rw [gone] at writers
          cases writers
      | readFails other => exact other rfl
      | elsewhere impossible => cases impossible
  · cases parent with
    | exchange change marks =>
      cases change with
      | writeAgain refers moves =>
        obtain ⟨c, move, -⟩ := moves
        obtain ⟨held, -⟩ := move.stalls.2
        have readers : (K.pipes _).readers = true := held
        cases s with
        | stdin =>
          obtain ⟨k, refers', gone⟩ := deserted
          cases refers.symm.trans refers'
          rw [gone] at readers
          cases readers
        | stdout | stderr =>
          obtain ⟨k, refers', gone⟩ := deserted
          cases refers.symm.trans refers'
      | writeFails other => exact other rfl
      | elsewhere impossible => cases impossible

theorem Parent.entered {r : Registration} (parent : Parent epfd K e K')
    (others : ∀ events data, e.call ≠ .epollCtlAdd epfd fd events data) (entry : K'.registered fd = some r) :
    K.registered fd = some r := by
  cases parent with
  | wait => exact entry
  | exchange change marks =>
    cases change with
    | @add fd' events data new =>
      have other : fd ≠ fd' := fun same => others events data (by rw [same])
      exact (Function.update_of_ne other _ _).symm.trans entry
    | @del fd' | @close fd' =>
      have other : fd ≠ fd' := by
        intro same
        have none : Function.update K.registered fd' none fd = none := by rw [same, Function.update_self]
        cases none.symm.trans entry
      exact (Function.update_of_ne other _ _).symm.trans entry
    | read | readAgain | readFails | write | writeAgain | writeFails | addFails | delFails | waitFails | elsewhere =>
      exact entry

theorem Run.entered {r : Registration} (run : Run epfd K t K')
    (others : ∀ e ∈ t, ∀ events data, e.call ≠ .epollCtlAdd epfd fd events data) (entry : K'.registered fd = some r) :
    K.registered fd = some r :=
  run.keeps (P := fun K' => K'.registered fd = some r → K.registered fd = some r) id
    (fun _ _ child before entry => before (child.registered ▸ entry))
    (fun e member _ _ step before entry => before (step.entered (others e member) entry)) entry

theorem Run.left (run : Run epfd K t K') (closed : ∃ e ∈ t, e.call = .close fd)
    (others : ∀ e ∈ t, ∀ events data, e.call ≠ .epollCtlAdd epfd fd events data) : K'.registered fd = none := by
  obtain ⟨e, member, closes⟩ := closed
  obtain ⟨before, after, rfl⟩ := List.append_of_mem member
  obtain ⟨K₁, -, run₁⟩ := run.split
  obtain ⟨K₂, run₂, run₃⟩ := Interleaved.split (t := [e]) run₁
  obtain ⟨K₃, K₄, -, step, idle⟩ := Interleaved.last (t := []) run₂
  have none : K₄.registered fd = none := by
    obtain ⟨call, answer⟩ := e
    cases closes
    cases step with
    | exchange change marks =>
      cases change with
      | close => exact Function.update_self ..
      | elsewhere impossible => cases impossible
  by_contra entered
  obtain ⟨r, entry⟩ := Option.ne_none_iff_exists'.mp entered
  have earlier := Run.entered idle (by simp) (Run.entered run₃ (fun e' inside => others e' (by simp [inside])) entry)
  rw [none] at earlier
  cases earlier

/-- `epoll_wait` comes back without an event only when there is none to return. -/
def Prompt (epfd : Nat) (K : Kernel) (e : Event os) (K' : Kernel) : Prop :=
  Parent epfd K e K' ∧ ∀ maxEvents timeout (answer : { events : List EpollEvent // events.length ≤ maxEvents.toNat }),
    e = ⟨.epollWait epfd maxEvents timeout, .ok answer⟩ → answer.val = [] → K.Sleeps

abbrev PromptRun (epfd : Nat) (K : Kernel) (t : Trace) (K' : Kernel) : Prop :=
  Interleaved Child (Prompt epfd) K t K'

theorem Parent.prompt (parent : Parent epfd K e K') (other : ∀ epfd n timeout, e.call ≠ .epollWait epfd n timeout) :
    Prompt epfd K e K' :=
  ⟨parent, fun _ _ _ same => absurd (congrArg Event.call same) (other _ _ _)⟩

theorem PromptRun.run (run : PromptRun epfd K t K') : Run epfd K t K' := run.mono fun _ _ _ step => step.1

end Kernel

theorem WaitLoop.not_add {c : Call} (issued : isLoopCall c = true) (epfd fd : Nat) (events : UInt32) (data : UInt64) :
    c ≠ .epollCtlAdd epfd fd events data := by
  intro same
  rw [same] at issued
  cases issued

namespace DrainState

variable {K K' : Kernel} {reactor : Reactor} {d d' : DrainState} {s : Stream} {slot : FdSlot} {t : Trace}

def isFar : Stream → Channel.Op UInt8 → Bool
  | .stdin, .read _ => true
  | .stdout, .write _ | .stderr, .write _ => true
  | _, _ => false

def nearEnd : Stream → Nat → File
  | .stdin, k => .writeEnd k
  | .stdout, k | .stderr, k => .readEnd k

theorem not_stalls_of_quiet {fd k : Nat} {op : Channel.Op UInt8} (refers : K.file fd = some (nearEnd s k))
    (roomy : PIPE_BUF ≤ (K.pipes k).channel.capacity) (quiet : K.revents fd (interest s) = 0)
    (far : isFar s op = true) : ¬(K.pipes k).channel.Stalls PIPE_BUF ((K.pipes k).meets op = true) op := by
  intro stalls
  have size : PIPE_BUF = 4096 := rfl
  cases op with
  | read count =>
    cases s with
    | stdin =>
      have crowded := ((quiet_writeEnd refers).mp quiet).1
      rw [stalls.2.2, List.length_nil, Nat.zero_add] at crowded
      exact crowded roomy
    | stdout | stderr => cases far
  | write data =>
    have empty : (K.pipes k).channel.content = [] := by
      cases s with
      | stdin => cases far
      | stdout | stderr => exact ((quiet_readEnd refers).mp quiet).1
    have full := stalls.2.2
    unfold Channel.Full at full
    rw [empty, List.length_nil] at full
    split at full <;> omega

theorem exists_open (pending : d.isDone = false) : ∃ s slot, d.slotOf s = some slot := by
  by_contra none
  have empty : ∀ s, d.slotOf s = .none := fun s =>
    Option.eq_none_iff_forall_ne_some.mpr fun slot filled => none ⟨s, slot, filled⟩
  have done : d.isDone = true := by
    show ((d.slotOf .stdin).isNone && (d.slotOf .stdout).isNone && (d.slotOf .stderr).isNone) = true
    rw [empty, empty, empty]
    rfl
  rw [done] at pending
  cases pending

def openAt (d : DrainState) (s : Stream) : Nat := (d.slotOf s).toList.length

def openSlots (d : DrainState) : Nat := d.takeAllSlots.2.length

theorem openSlots_eq (d : DrainState) : d.openSlots = d.openAt .stdin + d.openAt .stdout + d.openAt .stderr := by
  simp only [openSlots, takeAllSlots, List.length_append, openAt, slotOf]

theorem openAt_le (kept : ∀ slot, d'.slotOf s = some slot → d.slotOf s = some slot) : d'.openAt s ≤ d.openAt s := by
  unfold openAt
  cases filled : d'.slotOf s with
  | none => exact Nat.zero_le _
  | some slot => exact Nat.le_of_eq (by rw [kept slot filled])

theorem openSlots_le (kept : ∀ s slot, d'.slotOf s = some slot → d.slotOf s = some slot) :
    d'.openSlots ≤ d.openSlots := by
  rw [openSlots_eq, openSlots_eq]
  have stdin := openAt_le (kept .stdin)
  have stdout := openAt_le (kept .stdout)
  have stderr := openAt_le (kept .stderr)
  omega

theorem openSlots_lt (kept : ∀ s slot, d'.slotOf s = some slot → d.slotOf s = some slot)
    (filled : d.slotOf s = some slot) (gone : d'.slotOf s = none) : d'.openSlots < d.openSlots := by
  have less : d'.openAt s < d.openAt s := by
    unfold openAt
    rw [filled, gone]
    exact Nat.zero_lt_one
  rw [openSlots_eq, openSlots_eq]
  have stdin := openAt_le (kept .stdin)
  have stdout := openAt_le (kept .stdout)
  have stderr := openAt_le (kept .stderr)
  cases s <;> omega

theorem Handled.closes (handled : Handled reactor d s t d') (filled : d.slotOf s = some slot)
    (deserted : K.Deserted s slot.fd.raw) (run : Kernel.Run reactor.epfd K t K') : d'.slotOf s = none := by
  cases handled with
  | absent empty =>
    rw [empty] at filled
    cases filled
  | @blocked _ io e _ filled' transfer refused same =>
    rw [filled', Option.some.injEq] at filled
    rw [filled] at refused
    obtain ⟨K₁, K₂, before, step, _⟩ := run.last
    have still : K₁.Deserted s slot.fd.raw := by
      refine Kernel.Run.deserted before (fun e' member closes => ?_) deserted
      have moved := transfer e' (List.mem_append_left _ member)
      rw [closes] at moved
      cases moved
    exact absurd refused (still.not_refused step)
  | closed filled' transfer released others => rw [others, if_pos rfl]

def Exclusive (K : Kernel) (d : DrainState) : Prop :=
  ∀ fd r, K.registered fd = some r → ∃ s slot, d.slotOf s = some slot ∧ slot.fd.raw = fd

theorem Exclusive.still {epfd : Nat} (exclusive : Exclusive K d) (run : Kernel.Run epfd K t K')
    (issued : ∀ e ∈ t, WaitLoop.isLoopCall e.call = true) : Exclusive K' d := by
  intro fd r entry
  have adds := fun (e : Event os) (member : e ∈ t) => WaitLoop.not_add (issued e member) epfd fd
  exact exclusive fd r (Kernel.Run.entered run adds entry)

theorem exec_registerSlot_adds {r r' : Reactor} {readable writable : Bool} {slot slot' : Option FdSlot}
    (run : Exec (registerSlot r readable writable slot) t (.done (r', slot', .ok ()))) :
    ∀ e ∈ t, ∃ filled : FdSlot, slot' = some filled ∧
      ∀ epfd fd events data, e.call = .epollCtlAdd epfd fd events data → filled.fd.raw = fd := by
  intro e member
  rcases exec_registerSlot_ok run with ⟨_, none, _⟩ | ⟨filled, same, _, rfl⟩
  · rw [none] at member
    cases member
  · refine ⟨_, same, fun epfd fd events data adds => ?_⟩
    rw [List.mem_singleton.mp member] at adds
    exact (Call.epollCtlAdd.inj adds).2.1

theorem exec_registerWithReactor_adds {r r' : Reactor} {d₀ : DrainState}
    (run : Exec (d₀.registerWithReactor r) t (.done (d, r', .ok ()))) :
    ∀ e ∈ t, ∃ s slot, d.slotOf s = some slot ∧
      ∀ epfd fd events data, e.call = .epollCtlAdd epfd fd events data → slot.fd.raw = fd := by
  obtain ⟨t₁, ⟨r₁, slot₁, result₁⟩, _, rfl, first, rest⟩ := exec_bind_done.mp run
  rcases result₁ with e | ⟨⟩
  · cases ((exec_pure_iff _ _ _).mp rest).2
  obtain ⟨t₂, ⟨r₂, slot₂, result₂⟩, _, rfl, second, rest⟩ := exec_bind_done.mp rest
  rcases result₂ with e | ⟨⟩
  · cases ((exec_pure_iff _ _ _).mp rest).2
  obtain ⟨t₃, ⟨r₃, slot₃, result₃⟩, t₄, rfl, third, rest⟩ := exec_bind_done.mp rest
  simp only [exec_pure_iff, Outcome.done.injEq, Prod.mk.injEq] at rest
  obtain ⟨rfl, rfl, rfl, rfl⟩ := rest
  intro e member
  rw [List.append_nil, List.mem_append, List.mem_append] at member
  rcases member with member | member | member
  · exact ⟨.stdin, exec_registerSlot_adds first e member⟩
  · exact ⟨.stdout, exec_registerSlot_adds second e member⟩
  · exact ⟨.stderr, exec_registerSlot_adds third e member⟩

theorem registerWithReactor_exclusive {r r' : Reactor} {d₀ : DrainState} (fresh : ∀ fd, K.registered fd = none)
    (registered : Exec (d₀.registerWithReactor r) t (.done (d, r', .ok ()))) (run : Kernel.Run r.epfd K t K') :
    Exclusive K' d := by
  intro fd entry there
  by_contra foreign
  have earlier := Kernel.Run.entered run (fun e member events data adds => ?_) there
  · rw [fresh] at earlier
    cases earlier
  · obtain ⟨s, slot, filled, own⟩ := exec_registerWithReactor_adds registered e member
    exact foreign ⟨s, slot, filled, own _ _ _ _ adds⟩

end DrainState

namespace WaitLoop

open DrainState

variable {K K' : Kernel} {cfg : WaitConfig} {reactor r : Reactor} {d d' : DrainState} {startTime : Nat}
  {st st' : LoopState} {t : Trace}

structure Poised (K : Kernel) (d : DrainState) : Prop where
  watched : Watched K d
  awake : Awake K d []
  exclusive : Exclusive K d

def AllDeserted (K : Kernel) (d : DrainState) : Prop := ∀ s slot, d.slotOf s = some slot → K.Deserted s slot.fd.raw

theorem Head.issued (head : Head cfg d r startTime t st) : ∀ e ∈ t, isLoopCall e.call = true := by
  induction head with
  | start step =>
    refine List.forall_mem_append.mpr ⟨fun e member => ?_, fun e member => ?_⟩
    · exact isLoopCall_of_own ((step.issues (waitStep_calls cfg)).1 e member)
    · rw [List.mem_singleton.mp member]
      rfl
  | next before round ih => exact List.forall_mem_append.mpr ⟨ih, (round.issues (body_issues _ _ _)).1⟩

theorem Poised.still {epfd : Nat} (poised : Poised K d) (run : Kernel.Run epfd K t K')
    (still : ∀ e ∈ t, isStill epfd e.call) (issued : ∀ e ∈ t, isLoopCall e.call = true) : Poised K' d :=
  ⟨poised.watched.still run still, poised.awake.still run still, poised.exclusive.still run issued⟩

theorem Head.poised {K₀ : Kernel} {d₀ : DrainState} {r₀ : Reactor} {t' : Trace}
    (fresh : ∀ fd, K₀.registered fd = none) (registered : Exec (d₀.registerWithReactor r₀) t (.done (d, r, .ok ())))
    (head : Head cfg d r startTime t' st) (run : Kernel.Run r₀.epfd K₀ (t ++ t') K) :
    Poised K st.drain ∧ st.reactor.epfd = r₀.epfd := by
  obtain ⟨K₁, registering, looping⟩ := run.split
  obtain ⟨begun, first, epfd⟩ := registerWithReactor_awake registered registering
  have distinct : d.Distinct := by
    intro s s' slot slot' filled filled' same
    by_contra other
    exact begun.separate filled filled' other (congrArg Fd.raw same)
  have settled := (head.draining distinct).1.settled
  have exclusive := registerWithReactor_exclusive fresh registered registering
  rw [← epfd] at looping ⊢
  obtain ⟨watched, awake, same⟩ := head.awake begun first looping
  refine ⟨⟨watched, awake, fun fd entry there => ?_⟩, same⟩
  have adds := fun (e : Event os) (member : e ∈ t') => not_add (head.issued e member) r.epfd fd
  obtain ⟨s, slot, filled, own⟩ := exclusive fd entry (Kernel.Run.entered looping adds there)
  cases now : st.drain.slotOf s with
  | some slot' =>
    have before := settled.kept s slot' now
    rw [filled, Option.some.injEq] at before
    exact ⟨s, slot', now, before ▸ own⟩
  | none =>
    have closed := (settled.gone s slot filled now).2.2
    rw [own] at closed
    have left := Kernel.Run.left looping closed adds
    rw [left] at there
    cases there

theorem dispatch_kept {raws : List EpollEvent}
    (dispatched : Exec (dispatch reactor d (raws.map Reactor.translate)) t (.done (d', .ok ()))) :
    ∀ s slot, d'.slotOf s = some slot → d.slotOf s = some slot := by
  induction raws generalizing d t with
  | nil =>
    obtain ⟨none, same⟩ := (exec_pure_iff _ _ _).mp dispatched
    cases same
    exact fun _ _ filled => filled
  | cons raw raws ih =>
    obtain ⟨first, ⟨served, result⟩, second, rfl, handled, rest⟩ := exec_bind_done.mp dispatched
    rcases result with e | ⟨⟩
    · cases ((exec_pure_iff _ _ _).mp rest).2
    · intro s slot filled
      have before := ih rest s slot filled
      rcases exec_handleEvent_handled handled with ⟨_, same⟩ | ⟨s', does⟩
      · rwa [same] at before
      · exact does.kept before

theorem dispatch_closes {raw : EpollEvent} {raws : List EpollEvent} {s : Stream} {slot : FdSlot}
    (watched : Watched K d) (filled : d.slotOf s = some slot) (own : slot.token = some (Reactor.translate raw).token)
    (wakes : Wakes s (Reactor.translate raw)) (deserted : K.Deserted s slot.fd.raw)
    (dispatched : Exec (dispatch reactor d ((raw :: raws).map Reactor.translate)) t (.done (d', .ok ())))
    (run : Kernel.Run reactor.epfd K t K') : d'.openSlots < d.openSlots := by
  obtain ⟨first, ⟨served, result⟩, second, rfl, handled, rest⟩ := exec_bind_done.mp dispatched
  obtain ⟨K₁, handling, _⟩ := run.split
  rcases result with e | ⟨⟩
  · cases ((exec_pure_iff _ _ _).mp rest).2
  · have does := exec_handleEvent_own watched filled own wakes handled
    have closed := openSlots_lt (fun _ _ => does.kept) filled (does.closes filled deserted handling)
    have others := openSlots_le (dispatch_kept rest)
    omega

theorem quiet_of_asleep {s : Stream} {slot : FdSlot} (watched : Watched K d) (awake : Awake K d [])
    (asleep : K.Sleeps) (filled : d.slotOf s = some slot) : K.revents slot.fd.raw (interest s) = 0 := by
  rcases awake.settled watched filled with marked | quiet
  · obtain ⟨token, _, entry⟩ := watched.registered s slot filled
    by_contra reports
    exact asleep _ marked ⟨_, entry, reports⟩
  · exact quiet

theorem Poised.not_sleeps (poised : Poised K d) (deserted : AllDeserted K d) (pending : d.isDone = false) :
    ¬K.Sleeps := by
  intro asleep
  obtain ⟨s, slot, filled⟩ := exists_open pending
  exact (deserted s slot filled).reports (quiet_of_asleep poised.watched poised.awake asleep filled)

theorem exec_body_still {epfd epfd' : Nat} {n timeout : Int}
    (stopped : Exec (body cfg startTime st) t (.waiting (.epollWait epfd n timeout))) :
    st.drain.isDone = false ∧ ∀ e ∈ t, isStill epfd' e.call := by
  obtain ⟨t₁, t₂, t₃, checked, collected, pollTimeout, rfl, check, collect, pending, polled⟩ :=
    (exec_body stopped).unfinished
  rw [collect.unchanged.2.1.trans check.unchanged.2.1] at pending
  refine ⟨pending, List.forall_mem_append.mpr ⟨check.still, List.forall_mem_append.mpr ⟨collect.still, ?_⟩⟩⟩
  exact fun e member => still_of_reserve ((exec_poll_waiting polled).2 e member)

theorem AllDeserted.run {epfd : Nat} (deserted : AllDeserted K d) (run : Kernel.Run epfd K t K')
    (kept : ∀ s slot, d'.slotOf s = some slot → d.slotOf s = some slot) (watched : Watched K' d')
    (issued : ∀ e ∈ t, isLoopCall e.call = true) : AllDeserted K' d' := by
  intro s slot filled
  refine Kernel.Run.deserted run (fun e member closes => ?_) (deserted s slot (kept s slot filled))
  obtain ⟨token, _, entry⟩ := watched.registered s slot filled
  have left := Kernel.Run.left run ⟨e, member, closes⟩ fun e member => not_add (issued e member) epfd _
  rw [left] at entry
  cases entry

def isWakeup : Event os → Bool
  | ⟨.epollWait _ _ _, .ok _⟩ => true
  | _ => false

def wakeups (t : Trace) : Nat := t.countP isWakeup

theorem wakeups_append (t t' : Trace) : wakeups (t ++ t') = wakeups t + wakeups t' := List.countP_append

theorem wakeups_of_forall (others : ∀ e ∈ t, isWakeup e = false) : wakeups t = 0 :=
  List.countP_eq_zero.mpr fun e member => Bool.not_eq_true _ ▸ others e member

theorem not_wakeup {e : Event os} (other : ∀ epfd n timeout, e.call ≠ .epollWait epfd n timeout) :
    isWakeup e = false := by
  obtain ⟨call, answer⟩ := e
  cases call
  case epollWait => exact absurd rfl (other _ _ _)
  all_goals rfl

theorem Poised.fetches {epfd : Nat} {maxEvents timeout : Int}
    {answer : { events : List EpollEvent // events.length ≤ maxEvents.toNat }} (poised : Poised K d)
    (awake : ¬K.Sleeps) (step : Kernel.Prompt epfd K ⟨.epollWait epfd maxEvents timeout, .ok answer⟩ K') :
    ∃ raw raws s slot, answer.val = raw :: raws ∧ d.slotOf s = some slot ∧
      slot.token = some (Reactor.translate raw).token ∧ Wakes s (Reactor.translate raw) := by
  obtain ⟨parent, prompt⟩ := step
  cases events : answer.val with
  | nil => exact absurd (prompt _ _ answer rfl events) awake
  | cons raw raws =>
    have fetched : ∃ fd, K.Fetched fd raw := by
      cases parent with
      | exchange change marks =>
        cases change with
        | elsewhere impossible => cases impossible
      | wait distinct reported cleared kept =>
        rw [events] at reported
        cases reported with
        | cons first rest => exact ⟨_, first⟩
    obtain ⟨fd, _, entry, there, event, reports⟩ := fetched
    obtain ⟨s, slot, filled, own⟩ := poised.exclusive fd entry there
    obtain ⟨token, held, there'⟩ := poised.watched.registered s slot filled
    rw [own, there, Option.some.injEq] at there'
    rw [event, there'] at reports ⊢
    exact ⟨_, raws, s, slot, rfl, filled, held, wakes_of_reported reports⟩

theorem poll_winds_down {timeout : Int} (poised : Poised K st.drain) (deserted : AllDeserted K st.drain)
    (pending : st.drain.isDone = false) (polled : Exec (poll st timeout) t (.done (.inl st')))
    (run : Kernel.PromptRun st.reactor.epfd K t K') :
    wakeups t + st'.drain.openSlots ≤ st.drain.openSlots := by
  obtain ⟨t₁, t₂, reactor', events, n, d', rfl, waited, dispatched, rfl⟩ := exec_poll_next polled
  obtain ⟨reserves, answer, rfl, made, epfd, items, count⟩ := exec_wait_fetched (by decide) waited
  obtain ⟨K₁, fetching, handling⟩ := run.split
  obtain ⟨K₂, K₃, reserving, step, idle⟩ := fetching.last
  have still : ∀ e ∈ reserves, isStill st.reactor.epfd e.call := fun e member => still_of_reserve (made e member)
  have waits := fun e member =>
    isLoopCall_of_poll (isPollCall_of_wait ((waited.issues (wait_issues _ _ _ _)).1 e member))
  have issued := fun e (member : e ∈ reserves) => waits e (List.mem_append_left _ member)
  have ready := poised.still (Kernel.PromptRun.run reserving) still issued
  have gone := deserted.run (Kernel.PromptRun.run reserving) (fun _ _ filled => filled) ready.watched issued
  have reserved : wakeups reserves = 0 := by
    refine wakeups_of_forall fun e member => not_wakeup fun _ _ _ waits => ?_
    obtain ⟨_, _, _, reserve⟩ := made e member
    cases waits.symm.trans reserve
  have drained : wakeups t₂ = 0 := by
    refine wakeups_of_forall fun e member => not_wakeup fun _ _ _ waits => ?_
    have drains := (dispatched.issues (dispatch_issues _ _ _)).1 e member
    rw [waits] at drains
    cases drains
  rw [items, count, ← List.length_map (f := Reactor.translate), List.take_length] at dispatched
  rw [wakeups_append, wakeups_append, reserved, drained]
  rcases answer with e | answer
  · have kept := openSlots_le (dispatch_kept dispatched)
    rw [wakeups_of_forall (t := [_]) fun e member => by rw [List.mem_singleton.mp member]; rfl]
    show 0 + 0 + 0 + d'.openSlots ≤ st.drain.openSlots
    omega
  · obtain ⟨raw, raws, s, slot, first, filled, own, wakes⟩ := ready.fetches (ready.not_sleeps gone pending) step
    have watched := (fetch_awake ready.watched ready.awake step.1).1.still (Kernel.PromptRun.run idle) (by simp)
    have deserted₁ := deserted.run (Kernel.PromptRun.run fetching) (fun _ _ filled => filled) watched waits
    have batch : fetched (.ok answer) = raw :: raws := first
    rw [batch] at dispatched
    rw [← epfd] at handling
    have closed := dispatch_closes watched filled own wakes (deserted₁ s slot filled) dispatched
      (Kernel.PromptRun.run handling)
    have once : wakeups [⟨.epollWait st.reactor.epfd (Reactor.asI32 64) (waitTimeout st.statusRaw timeout),
      .ok answer⟩] = 1 := rfl
    rw [once]
    show 0 + 1 + 0 + d'.openSlots ≤ st.drain.openSlots
    omega

theorem poll_kept {timeout : Int} (polled : Exec (poll st timeout) t (.done (.inl st'))) :
    ∀ s slot, st'.drain.slotOf s = some slot → st.drain.slotOf s = some slot := by
  obtain ⟨t₁, t₂, reactor', events, n, d', rfl, waited, dispatched, rfl⟩ := exec_poll_next polled
  obtain ⟨_, answer, _, _, _, items, count⟩ := exec_wait_fetched (by decide) waited
  rw [items, count, ← List.length_map (f := Reactor.translate), List.take_length] at dispatched
  exact dispatch_kept dispatched

theorem round_winds_down (poised : Poised K st.drain) (deserted : AllDeserted K st.drain)
    (round : Exec (body cfg startTime st) t (.done (.inl st'))) (run : Kernel.PromptRun st.reactor.epfd K t K')
    (watched : Watched K' st'.drain) :
    AllDeserted K' st'.drain ∧ wakeups t + st'.drain.openSlots ≤ st.drain.openSlots := by
  have issued := (round.issues (body_issues _ _ _)).1
  obtain ⟨t₁, t₂, t₃, checked, collected, timeout, rfl, check, collect, pending, polled⟩ := (exec_body round).polled
  have drain := collect.unchanged.2.1.trans check.unchanged.2.1
  have reactor := congrArg Reactor.epfd (collect.unchanged.2.2.trans check.unchanged.2.2)
  have kept := poll_kept polled
  rw [drain] at kept
  refine ⟨deserted.run run.run kept watched issued, ?_⟩
  obtain ⟨K₁, checking, run₁⟩ := run.split
  obtain ⟨K₂, collecting, polling⟩ := run₁.split
  have issued₁ := fun e (member : e ∈ t₁) => issued e (List.mem_append_left _ member)
  have issued₂ := fun e (member : e ∈ t₂) => issued e (List.mem_append_right _ (List.mem_append_left _ member))
  have poised₁ := poised.still (Kernel.PromptRun.run checking) check.still issued₁
  have poised₂ := poised₁.still (Kernel.PromptRun.run collecting) collect.still issued₂
  have deserted₁ := deserted.run (Kernel.PromptRun.run checking) (fun _ _ filled => filled) poised₁.watched issued₁
  have deserted₂ := deserted₁.run (Kernel.PromptRun.run collecting) (fun _ _ filled => filled) poised₂.watched issued₂
  rw [← drain] at poised₂ deserted₂ ⊢
  rw [← reactor] at polling
  have wound := poll_winds_down poised₂ deserted₂ pending polled polling
  have checks : wakeups t₁ = 0 := by
    cases check <;> rfl
  have collects : wakeups t₂ = 0 := by
    refine wakeups_of_forall fun e member => not_wakeup fun _ _ _ waits => ?_
    cases waits.symm.trans (collect.calls e member)
  rw [wakeups_append, wakeups_append, checks, collects]
  omega

/-- While the loop sleeps, no process at the far end of an open stream waits for the parent to read or to
    write. -/
theorem no_deadlock {K₀ : Kernel} {d₀ : DrainState} {r₀ : Reactor} {t' u : Trace} {epfd : Nat} {n timeout : Int}
    (registered : Exec (d₀.registerWithReactor r₀) t (.done (d, r, .ok ()))) (head : Head cfg d r startTime t' st)
    (run : Kernel.Run r₀.epfd K₀ (t ++ t' ++ u) K)
    (stopped : Exec (body cfg startTime st) u (.waiting (.epollWait epfd n timeout))) (asleep : K.Sleeps) :
    ∀ s slot k op, st.drain.slotOf s = some slot → K.file slot.fd.raw = some (nearEnd s k) →
      PIPE_BUF ≤ (K.pipes k).channel.capacity → isFar s op = true →
      ¬(K.pipes k).channel.Stalls PIPE_BUF ((K.pipes k).meets op = true) op := by
  intro s slot k op filled refers roomy far
  obtain ⟨K₁, looping, waiting⟩ := run.split
  obtain ⟨K₂, registering, looping⟩ := looping.split
  obtain ⟨begun, first, epfd⟩ := registerWithReactor_awake registered registering
  rw [← epfd] at looping
  obtain ⟨watched, awake, _⟩ := head.awake begun first looping
  have still : ∀ e ∈ u, isStill r₀.epfd e.call := (exec_body_still stopped).2
  exact not_stalls_of_quiet refers roomy
    (quiet_of_asleep (watched.still waiting still) (awake.still waiting still) asleep filled) far

def unlimited : WaitConfig := { gracefully with timeoutMs := none }

def attached : DrainState := { onlyStdout with stdoutSlot := some ⟨some ⟨1⟩, ⟨5⟩⟩ }

def started : LoopState :=
  { drain := attached, reactor := ⟨3, 2, ⟨[], 64⟩, none, none, none⟩, statusRaw := none, state := .none,
    timedOut := false }

theorem exec_attached : Exec (onlyStdout.registerWithReactor ⟨3, 1, ⟨[], 64⟩, none, none, none⟩)
    [⟨.epollCtlAdd 3 5 (interest .stdout) 1, .ok ()⟩] (.done (attached, started.reactor, .ok ())) := .of_replay 1 rfl

theorem head_started : Head unlimited attached started.reactor 0
    ([⟨.waitpidNoHang 42, .ok none⟩] ++ [⟨.instantNow, (0 : Nat)⟩]) started := .start (.of_replay 3 rfl)

def silent : Kernel where
  file fd := if fd = 5 then some (.readEnd 0) else none
  pipes _ := ⟨⟨4096, [], by decide, true, false⟩, true, true⟩
  registered _ := none
  pending _ := false

def silentLater : Kernel :=
  { silent with registered := Function.update silent.registered 5 (some ⟨interest .stdout, 1⟩) }

theorem marks_silent {K : Kernel} : Kernel.Marks K silentLater := by
  intro fd reports
  obtain ⟨r, entry, reports⟩ := reports
  by_cases same : fd = 5
  · subst same
    cases entry
    exact absurd rfl reports
  · have none : silentLater.registered fd = none := Function.update_of_ne same ..
    cases none.symm.trans entry

theorem silent_not_stalls :
    ¬(silentLater.pipes 0).channel.Stalls PIPE_BUF ((silentLater.pipes 0).meets (.write [7]) = true) (.write [7]) := by
  have elsewhere : ∀ {e : Event os}, Kernel.isElsewhere e.call = true → Kernel.Parent 3 silentLater e silentLater :=
    fun away => @Kernel.Parent.exchange 3 _ _ _ silentLater.pending (.elsewhere away) marks_silent
  have added : Kernel.Run 3 silent [⟨.epollCtlAdd 3 5 (interest .stdout) 1, .ok ()⟩] silentLater :=
    .step .start (@Kernel.Parent.exchange 3 _ _ _ silentLater.pending (.add rfl) marks_silent)
  have looped : Kernel.Run 3 silent ([⟨.epollCtlAdd 3 5 (interest .stdout) 1, .ok ()⟩] ++
      ([⟨.waitpidNoHang 42, .ok none⟩] ++ [⟨.instantNow, (0 : Nat)⟩])) silentLater :=
    (added.step (elsewhere rfl)).step (elsewhere rfl)
  have stopped : Exec (body unlimited 0 started) [⟨.waitpidNoHang 42, .ok none⟩, ⟨.reserve 0 0 64, ⟨64, by decide⟩⟩]
      (.waiting (.epollWait 3 64 (-1))) := .of_replay 9 rfl
  have again := looped.step (e := ⟨.waitpidNoHang 42, .ok none⟩) (elsewhere rfl)
  have waiting := again.step (e := ⟨.reserve 0 0 64, ⟨64, by decide⟩⟩) (elsewhere rfl)
  exact no_deadlock exec_attached head_started waiting stopped (fun _ marked => absurd marked Bool.false_ne_true)
    .stdout _ 0 (.write [7]) rfl rfl (by decide) rfl

/-- Once the far ends of all open streams are gone, every wakeup closes one of them, and until all are
    closed the loop does not sleep. -/
theorem winds_down {K₀ : Kernel} {d₀ : DrainState} {r₀ : Reactor} {t' t'' : Trace}
    (fresh : ∀ fd, K₀.registered fd = none) (registered : Exec (d₀.registerWithReactor r₀) t (.done (d, r, .ok ())))
    (head : Head cfg d r startTime t' st) (run : Kernel.Run r₀.epfd K₀ (t ++ t') K)
    (deserted : AllDeserted K st.drain) (rounds : Iterates (body cfg startTime) st t'' st')
    (later : Kernel.PromptRun r₀.epfd K t'' K') :
    wakeups t'' + st'.drain.openSlots ≤ st.drain.openSlots ∧
      ∀ u K'' epfd n timeout, Exec (body cfg startTime st') u (.waiting (.epollWait epfd n timeout)) →
        Kernel.Run r₀.epfd K' u K'' → ¬K''.Sleeps := by
  have wound : AllDeserted K' st'.drain ∧ wakeups t'' + st'.drain.openSlots ≤ st.drain.openSlots := by
    induction rounds generalizing K' with
    | start =>
      have idle := run.append later.run
      rw [List.append_nil] at idle
      have poised := (head.poised fresh registered idle).1
      exact ⟨deserted.run later.run (fun _ _ filled => filled) poised.watched (by simp), by simp [wakeups]⟩
    | @next u u' st₁ st₂ before round ih =>
      obtain ⟨K₁, earlier, last⟩ := later.split
      obtain ⟨deserted₁, wound₁⟩ := ih earlier
      have reached := head.rounds before
      have whole := run.append (Kernel.PromptRun.run earlier)
      rw [List.append_assoc] at whole
      obtain ⟨poised₁, epfd⟩ := reached.poised fresh registered whole
      have whole' := whole.append (Kernel.PromptRun.run last)
      rw [List.append_assoc] at whole'
      have watched := ((reached.next round).poised fresh registered whole').1.watched
      rw [← epfd] at last
      obtain ⟨deserted₂, wound₂⟩ := round_winds_down poised₁ deserted₁ round last watched
      refine ⟨deserted₂, ?_⟩
      rw [wakeups_append]
      omega
  refine ⟨wound.2, fun u K'' epfd n timeout stopped waiting => ?_⟩
  have whole := run.append later.run
  rw [List.append_assoc] at whole
  have poised := ((head.rounds rounds).poised fresh registered whole).1
  have issued := (stopped.issues (body_issues _ _ _)).1
  obtain ⟨pending, still⟩ := exec_body_still stopped
  have ready := poised.still waiting still issued
  have gone := wound.1.run waiting (fun _ _ filled => filled) ready.watched issued
  exact ready.not_sleeps gone pending

def lastRound : Trace :=
  [⟨.waitpidNoHang 42, .ok none⟩, ⟨.reserve 0 0 64, ⟨64, by decide⟩⟩,
    ⟨.epollWait 3 64 (-1), .ok ⟨[⟨EPOLLIN ||| EPOLLHUP, 1⟩], by decide⟩⟩, ⟨.read 5 8, .ok ⟨[7], by decide⟩⟩,
    ⟨.read 5 7, .ok ⟨[], by decide⟩⟩, ⟨.epollCtlDel 3 5, .ok ()⟩, ⟨.close 5, .ok ()⟩]

theorem marks_of_none {K K' : Kernel} (none : ∀ fd, K'.registered fd = .none) : Kernel.Marks K K' := by
  refine marks_of_pending fun fd r entry => ?_
  rw [none] at entry
  cases entry

theorem finished_removed (fd : Nat) : Function.update finished.registered 5 none fd = none := by
  show Function.update (Function.update unread.registered 5 _) 5 none fd = none
  rw [Function.update_idem]
  by_cases same : fd = 5
  · rw [same, Function.update_self]
  · exact Function.update_of_ne same ..

theorem run_lastRound : ∃ K, Kernel.PromptRun 3 finished lastRound K := by
  have elsewhere : ∀ {e : Event os}, Kernel.isElsewhere e.call = true → Kernel.Parent 3 finished e finished :=
    fun away => @Kernel.Parent.exchange 3 _ _ _ finished.pending (.elsewhere away) (marks_finished rfl rfl)
  have ready : Kernel.PromptRun 3 finished (lastRound.take 2) finished :=
    .step (.step .start ((elsewhere rfl).prompt (by simp))) ((elsewhere rfl).prompt (by simp))
  have reported : List.Forall₂ finished.Fetched [5] [⟨EPOLLIN ||| EPOLLHUP, 1⟩] :=
    .cons ⟨rfl, ⟨interest .stdout, 1⟩, rfl, by decide, by decide⟩ .nil
  have woken : Kernel.PromptRun 3 finished (lastRound.take 3) { finished with pending := fun _ => false } := by
    refine ready.step ⟨@Kernel.Parent.wait 3 finished 64 (-1) ⟨_, by decide⟩ [5] _ (by decide) reported (by simp) ?_,
      ?_⟩
    · intro fd _ marked other
      exact absurd (List.mem_singleton.mpr (of_decide_eq_true marked)) other
    · intro _ _ answer same none
      cases same
      cases none
  have first : Kernel.PromptRun 3 finished (lastRound.take 4) _ :=
    woken.step ((@Kernel.Parent.exchange 3 _ _ _ finished.pending (.read rfl ⟨_, .read (by decide) (by decide), rfl⟩)
      (marks_finished rfl rfl)).prompt (by simp))
  have second : ∃ K, Kernel.PromptRun 3 finished (lastRound.take 5) K ∧ K.registered = finished.registered :=
    ⟨_, first.step ((@Kernel.Parent.exchange 3 _ _ _ finished.pending (.read rfl ⟨_, .eof rfl (by decide), rfl⟩)
      (marks_finished rfl rfl)).prompt (by simp)), rfl⟩
  obtain ⟨K, second, entries⟩ := second
  have removed : ∀ fd, Function.update K.registered 5 none fd = none := by
    rw [entries]
    exact finished_removed
  have deleted : Kernel.PromptRun 3 finished (lastRound.take 6) _ :=
    second.step ((@Kernel.Parent.exchange 3 _ _ _ K.pending .del (marks_of_none removed)).prompt (by simp))
  have closed : ∀ fd, Function.update (Function.update K.registered 5 none) 5 none fd = none := by
    rw [Function.update_idem]
    exact removed
  exact ⟨_, deleted.step ((@Kernel.Parent.exchange 3 _ _ _ K.pending .close (marks_of_none closed)).prompt (by simp))⟩

theorem lastRound_closes : wakeups lastRound ≤ attached.openSlots ∧ ¬finished.Sleeps := by
  have deserted : AllDeserted finished attached := by
    intro s slot filled
    cases s with
    | stdout =>
      cases filled
      exact ⟨0, rfl, rfl⟩
    | stdin | stderr => cases filled
  constructor
  · have round : Iterates (body unlimited 0) started lastRound _ := .next .start (.of_replay 9 rfl)
    obtain ⟨K, later⟩ := run_lastRound
    have bound := (winds_down (fun _ => rfl) exec_attached head_started run_finished deserted round later).1
    exact Nat.le_trans (Nat.le_add_right _ _) bound
  · have elsewhere : ∀ {e : Event os}, Kernel.isElsewhere e.call = true → Kernel.Parent 3 finished e finished :=
      fun away => @Kernel.Parent.exchange 3 _ _ _ finished.pending (.elsewhere away) (marks_finished rfl rfl)
    have waits : Kernel.Run 3 finished (lastRound.take 2) finished :=
      .step (.step .start (elsewhere rfl)) (elsewhere rfl)
    have stopped : Exec (body unlimited 0 started) (lastRound.take 2) (.waiting (.epollWait 3 64 (-1))) :=
      .of_replay 9 rfl
    exact (winds_down (fun _ => rfl) exec_attached head_started run_finished deserted .start .start).2 _ _ _ _ _
      stopped waits

end WaitLoop

end CoreShift
