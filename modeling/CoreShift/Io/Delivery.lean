import CoreShift.Io.Ending

namespace CoreShift

open Interaction WriterState

def Silent (c : Call) : Prop := ∀ fd bytes, c ≠ .write fd bytes

inductive Feeding where
  | writing (off : Nat)
  | failed
  | closed
  deriving DecidableEq, Repr

/-- What one exchange can do for the delivery of a buffer, offered in slices from an offset on. -/
inductive Fed (fd : Nat) (buf : Bytes) : Feeding → Event os → Feeding → Prop where
  | other {s : Feeding} {e : Event os} (silent : Silent e.call) : Fed fd buf s e s
  | blocked {off : Nat} {e : Errno} (left : off < buf.length) (again : e = EINTR ∨ e = EAGAIN) :
      Fed fd buf (.writing off) ⟨.write fd (offer buf off), .error e⟩ (.writing off)
  | accepted {off : Nat} (left : off < buf.length) (n : { n : Nat // n ≤ (offer buf off).length })
      (progress : 0 < n.val) :
      Fed fd buf (.writing off) ⟨.write fd (offer buf off), .ok n⟩ (.writing (off + n.val))
  | refused {off : Nat} (left : off < buf.length) :
      Fed fd buf (.writing off) ⟨.write fd (offer buf off), .ok ⟨0, Nat.zero_le _⟩⟩ .closed
  | broken {off : Nat} (left : off < buf.length) :
      Fed fd buf (.writing off) ⟨.write fd (offer buf off), .error EPIPE⟩ .closed
  | failed {off : Nat} {e : Errno} (left : off < buf.length) (notInterrupted : e ≠ EINTR) (notBlocked : e ≠ EAGAIN)
      (notBroken : e ≠ EPIPE) : Fed fd buf (.writing off) ⟨.write fd (offer buf off), .error e⟩ .failed

inductive Feed (fd : Nat) (buf : Bytes) (start : Feeding) : Trace → Feeding → Prop where
  | start : Feed fd buf start [] start
  | step {t : Trace} {s s' : Feeding} {e : Event os} (before : Feed fd buf start t s) (fed : Fed fd buf s e s') :
      Feed fd buf start (t ++ [e]) s'
  | closes {t : Trace} {s : Feeding} (before : Feed fd buf start t s) : Feed fd buf start t .closed

section
variable {fd : Nat} {buf : Bytes} {start s s' : Feeding} {t t' : Trace}

theorem Feed.trans (first : Feed fd buf start t s) (second : Feed fd buf s t' s') :
    Feed fd buf start (t ++ t') s' := by
  induction second with
  | start => simpa using first
  | step _ fed ih =>
    rw [← List.append_assoc]
    exact ih.step fed
  | closes _ ih => exact ih.closes

theorem Feed.single {e : Event os} (fed : Fed fd buf s e s') : Feed fd buf s [e] s' := Feed.start.step fed

theorem Feed.quiet (silent : ∀ e ∈ t, Silent e.call) : Feed fd buf s t s := by
  induction t with
  | nil => exact .start
  | cons e t ih =>
    have first : Feed fd buf s [e] s := .single (.other (silent e (by simp)))
    exact first.trans (ih fun e' member => silent e' (by simp [member]))

theorem Feed.interrupted {off : Nat} (k : Nat) (left : off < buf.length) :
    Feed fd buf (.writing off) (List.replicate k ⟨.write fd (offer buf off), .error EINTR⟩) (.writing off) := by
  induction k with
  | zero => exact .start
  | succ k ih =>
    rw [List.replicate_succ']
    exact ih.step (.blocked left (.inl rfl))

theorem Feed.cut (feed : Feed fd buf start (t ++ t') s) :
    ∃ middle, Feed fd buf start t middle ∧ Feed fd buf middle t' s := by
  generalize whole : t ++ t' = u at feed
  induction feed generalizing t' with
  | start =>
    obtain ⟨rfl, rfl⟩ := List.append_eq_nil_iff.mp whole
    exact ⟨start, .start, .start⟩
  | @step u s s' e before fed ih =>
    rcases List.eq_nil_or_concat t' with rfl | ⟨t', e', rfl⟩
    · rw [List.append_nil] at whole
      subst whole
      exact ⟨s', before.step fed, .start⟩
    · rw [List.concat_eq_append, ← List.append_assoc] at whole
      obtain ⟨same, last⟩ := List.append_inj' whole rfl
      cases last
      obtain ⟨middle, first, second⟩ := ih same
      rw [List.concat_eq_append]
      exact ⟨middle, first, second.step fed⟩
  | closes before ih =>
    obtain ⟨middle, first, second⟩ := ih whole
    exact ⟨middle, first, second.closes⟩

def endsDelivery (fd : Nat) : Event os → Prop
  | ⟨.write fd' _, .ok n⟩ => fd' = fd ∧ n.val = 0
  | ⟨.write fd' _, .error e⟩ => fd' = fd ∧ e ≠ EINTR ∧ e ≠ EAGAIN
  | _ => False

def GivenUp (fd : Nat) (buf : Bytes) (t : Trace) : Prop := accepted fd t = buf ∨ ∃ e ∈ t, endsDelivery fd e

structure Delivered (fd : Nat) (buf : Bytes) (t : Trace) (s : Feeding) : Prop where
  taken : ∃ off ≤ buf.length, accepted fd t = buf.take off ∧ ∀ off', s = .writing off' → off' = off
  live : ∀ off, s = .writing off → ∀ e ∈ t, ¬endsDelivery fd e

theorem not_endsDelivery_of_silent {e : Event os} (silent : Silent e.call) :
    ¬endsDelivery fd e := by
  obtain ⟨call, answer⟩ := e
  cases call
  case write fd' bytes => exact absurd rfl (silent fd' bytes)
  all_goals exact not_false

theorem acceptedBy_of_silent {e : Event os} (silent : Silent e.call) :
    acceptedBy fd e = [] := by
  obtain ⟨call, answer⟩ := e
  cases call
  case write fd' bytes => exact absurd rfl (silent fd' bytes)
  all_goals rfl

theorem Delivered.step {e : Event os} (delivered : Delivered fd buf t s) (fed : Fed fd buf s e s') :
    Delivered fd buf (t ++ [e]) s' := by
  obtain ⟨off, bound, taken, here⟩ := delivered.taken
  have kept : acceptedBy fd e = [] → accepted fd (t ++ [e]) = buf.take off := by
    intro nothing
    simp [taken, nothing]
  have stays : ∀ off', s = .writing off' → ¬endsDelivery fd e → ∀ e' ∈ t ++ [e], ¬endsDelivery fd e' := by
    intro off' writing last e' member
    rcases List.mem_append.mp member with member | member
    · exact delivered.live off' writing e' member
    · rw [List.mem_singleton.mp member]
      exact last
  cases fed with
  | other silent =>
    refine ⟨⟨off, bound, kept (acceptedBy_of_silent silent), here⟩, fun off' writing => ?_⟩
    exact stays off' writing (not_endsDelivery_of_silent silent)
  | @blocked off' error left again =>
    refine ⟨⟨off, bound, kept rfl, here⟩, fun off' writing => stays off' writing ?_⟩
    intro ends
    obtain ⟨_, notInterrupted, notBlocked⟩ := ends
    rcases again with interrupted | blocked
    · exact notInterrupted interrupted
    · exact notBlocked blocked
  | @accepted off' left n progress =>
    have same := here off' rfl
    subst same
    have moved := take_offer n.property
    have room := Nat.le_trans n.property (Nat.le_of_eq (offer_length buf off'))
    refine ⟨⟨off' + n.val, by omega, ?_, ?_⟩, fun off'' _ => stays off' rfl ?_⟩
    · simp [taken, acceptedBy, moved]
    · intro off'' same
      cases same
      rfl
    · intro ends
      exact absurd ends.2 (Nat.ne_of_gt progress)
  | refused left =>
    exact ⟨⟨off, bound, kept (by simp [acceptedBy]), fun off' impossible => by cases impossible⟩,
      fun off' impossible => by cases impossible⟩
  | broken left | failed left =>
    exact ⟨⟨off, bound, kept rfl, fun off' impossible => by cases impossible⟩,
      fun off' impossible => by cases impossible⟩

theorem Feed.delivered (feed : Feed fd buf (.writing 0) t s) : Delivered fd buf t s := by
  induction feed with
  | start =>
    refine ⟨⟨0, Nat.zero_le _, by simp, fun off same => ?_⟩, fun off _ e member => ?_⟩
    · cases same
      rfl
    · cases member
  | step _ fed ih => exact ih.step fed
  | closes _ ih =>
    obtain ⟨off, bound, taken, _⟩ := ih.taken
    exact ⟨⟨off, bound, taken, fun off' impossible => by cases impossible⟩, fun off' impossible => by cases impossible⟩

theorem Feed.not_givenUp {off : Nat} (feed : Feed fd buf (.writing 0) t (.writing off)) (left : off < buf.length) :
    ¬GivenUp fd buf t := by
  obtain ⟨off', bound, taken, here⟩ := feed.delivered.taken
  have same := here off rfl
  subst same
  intro given
  rcases given with all | ⟨e, member, ends⟩
  · have short : (buf.take off).length = buf.length := by rw [← taken, all]
    rw [List.length_take] at short
    omega
  · exact feed.delivered.live off rfl e member ends

theorem Feed.of_issues {α : Type} {p : Prog α} {o} (silent : p.Issues Silent) (run : Exec p t o) :
    Feed fd buf s t s ∧ ∀ c, o = .waiting c → Silent c := by
  have calls := run.issues silent
  exact ⟨.quiet calls.1, calls.2⟩

theorem WriterState.iterates_feed {fd : Fd} {first off : Nat} (rounds : Iterates (writeRound fd buf) first t off) :
    Feed fd.raw buf (.writing first) t (.writing off) := by
  induction rounds with
  | start => exact .start
  | next _ round ih =>
    have round := exec_writeRound round
    generalize outcome : Outcome.done (I := os) (Sum.inl _) = o at round
    cases round with
    | accepted k left n progress =>
      cases outcome
      exact ih.trans ((Feed.interrupted k left).step (.accepted left n progress))
    | finished | waiting | refused | blocked | broken | failed => cases outcome

namespace WriterState

inductive StoodAt (fd : Nat) (buf : Bytes) : Outcome os (WriterState × Except SysError Bool) → Feeding → Prop where
  | offering {off : Nat} (left : off < buf.length) :
      StoodAt fd buf (.waiting (.write fd (offer buf off))) (.writing off)
  | blocked {off : Nat} : StoodAt fd buf (.done (⟨some buf, off⟩, .ok false)) (.writing off)
  | ended {off : Nat} : StoodAt fd buf (.done (⟨none, off⟩, .ok true)) .closed
  | failed {off : Nat} {e : SysError} : StoodAt fd buf (.done (⟨none, off⟩, .error e)) .failed

def leaving {α : Type} : Outcome os α → Outcome os (Nat ⊕ α)
  | .waiting c => .waiting c
  | .done value => .done (.inr value)

theorem round_feed {off : Nat} {o} (round : Round fd buf off t o) :
    (∃ off', o = .done (.inl off')) ∨
      ∃ s o', o = leaving o' ∧ Feed fd buf (.writing off) t s ∧ StoodAt fd buf o' s := by
  cases round with
  | finished written => exact .inr ⟨.closed, .done _, rfl, .closes .start, .ended⟩
  | waiting k left => exact .inr ⟨_, .waiting _, rfl, Feed.interrupted k left, .offering left⟩
  | accepted k left n progress => exact .inl ⟨_, rfl⟩
  | refused k left => exact .inr ⟨_, .done _, rfl, (Feed.interrupted k left).step (.refused left), .ended⟩
  | blocked k left => exact .inr ⟨_, .done _, rfl, (Feed.interrupted k left).step (.blocked left (.inr rfl)), .blocked⟩
  | broken k left => exact .inr ⟨_, .done _, rfl, (Feed.interrupted k left).step (.broken left), .ended⟩
  | failed k left e notInterrupted notBlocked notBroken =>
    exact .inr ⟨_, .done _, rfl,
      (Feed.interrupted k left).step (.failed left notInterrupted notBlocked notBroken), .failed⟩

theorem writeToFd_feed {w : WriterState} {fd : Fd} {o} (pending : w.buf = some buf)
    (run : Exec (w.writeToFd fd) t o) : ∃ s, Feed fd.raw buf (.writing w.off) t s ∧ StoodAt fd.raw buf o s := by
  simp only [writeToFd, pending] at run
  obtain ⟨rounds, off, last, rfl, reached, finish⟩ := exec_iterate_cases run
  have before := iterates_feed reached
  rcases finish with ⟨c, rfl, stopped⟩ | ⟨result, rfl, left⟩
  · rcases round_feed (exec_writeRound stopped) with ⟨off', impossible⟩ | ⟨s, o', same, feed, stood⟩
    · cases impossible
    · cases o' with
      | waiting c' =>
        cases same
        exact ⟨s, before.trans feed, stood⟩
      | done value => cases same
  · rcases round_feed (exec_writeRound left) with ⟨off', impossible⟩ | ⟨s, o', same, feed, stood⟩
    · cases impossible
    · cases o' with
      | waiting c' => cases same
      | done value =>
        cases same
        exact ⟨s, before.trans feed, stood⟩

end WriterState

namespace DrainState

def Stands (fd : Nat) (buf : Bytes) (d : DrainState) : Feeding → Prop
  | .writing off => (∃ slot, d.stdinSlot = some slot ∧ slot.fd.raw = fd) ∧ d.writer = ⟨some buf, off⟩
  | .failed => (∃ slot, d.stdinSlot = some slot ∧ slot.fd.raw = fd) ∧ d.writer.buf = none
  | .closed => d.stdinSlot = none

theorem stands_new {fd : Fd} {stdout stderr : Option Fd} {limit : Nat} {earlyExit : Bool} {d : DrainState}
    (created : Exec (new (some fd) (some buf) stdout stderr limit earlyExit) t (.done (.ok d))) :
    Stands fd.raw buf d (.writing 0) := by
  rw [exec_new_ok created]
  exact ⟨⟨⟨none, fd⟩, rfl, rfl⟩, rfl⟩

theorem drop_silent (slot : FdSlot) : slot.fd.drop.Issues Silent :=
  .bind ((Program.issues_ask _ _).mpr (by simp [Silent])) fun _ => trivial

theorem release_silent (reactor : Reactor) (slot : FdSlot) : (release reactor slot).Issues Silent :=
  .bind (.bind ((Program.issues_ask _ _).mpr (by simp [Silent])) fun _ => trivial) fun _ => drop_silent slot

def Leads (fd : Nat) (buf : Bytes) (s : Feeding) (t : Trace) (o : Outcome os DrainState) : Prop :=
  ∃ s', Feed fd buf s t s' ∧ (∀ d, o = .done d → Stands fd buf d s') ∧
    ∀ fd' bytes, o = .waiting (.write fd' bytes) →
      ∃ off, s' = .writing off ∧ off < buf.length ∧ fd' = fd ∧ bytes = offer buf off

theorem leads_closing {p : Prog DrainState} {o} (silent : p.Issues Silent)
    (empty : ∀ {u d}, Exec p u (.done d) → d.stdinSlot = none) (run : Exec p t o) : Leads fd buf s t o := by
  obtain ⟨feed, waits⟩ := Feed.of_issues silent run
  refine ⟨.closed, feed.closes, fun d same => ?_, fun fd' bytes same => ?_⟩
  · subst same
    exact empty run
  · exact absurd rfl (waits _ same fd' bytes)

theorem Leads.after {o} (feed : Feed fd buf s t s') (leads : Leads fd buf s' t' o) : Leads fd buf s (t ++ t') o := by
  obtain ⟨s'', rest, stands⟩ := leads
  exact ⟨s'', feed.trans rest, stands⟩

theorem leads_writing {d : DrainState} {slot : FdSlot} {rest : WriterState × Except SysError Bool → Prog DrainState} {o}
    (failing : ∀ w e, rest (w, .error e) = pure { d with writer := w })
    (blocking : ∀ w, rest (w, .ok false) = pure { d with writer := w })
    (silent : ∀ w, (rest (w, .ok true)).Issues Silent)
    (empty : ∀ w {u d'}, Exec (rest (w, .ok true)) u (.done d') → d'.stdinSlot = none)
    (stands : Stands fd buf d s) (filled : d.stdinSlot = some slot)
    (run : Exec (d.writer.writeToFd slot.fd >>= rest) t o) : Leads fd buf s t o := by
  cases s with
  | writing off =>
    obtain ⟨⟨slot', same, rfl⟩, writer⟩ := stands
    cases filled.symm.trans same
    have pending : d.writer.buf = some buf := by rw [writer]
    have start : d.writer.off = off := by rw [writer]
    rcases exec_bind_cases run with ⟨c, rfl, stopped⟩ | ⟨t₁, ⟨w, result⟩, t₂, rfl, written, run⟩
    · obtain ⟨s', feed, stood⟩ := WriterState.writeToFd_feed pending stopped
      rw [start] at feed
      refine ⟨s', feed, by simp, fun fd' bytes same => ?_⟩
      cases same
      cases stood with
      | @offering off' left => exact ⟨off', rfl, left, rfl, rfl⟩
    · obtain ⟨s', feed, stood⟩ := WriterState.writeToFd_feed pending written
      rw [start] at feed
      cases stood with
      | @blocked off' =>
        rw [blocking] at run
        obtain ⟨rfl, rfl⟩ := (exec_pure_iff _ _ _).mp run
        rw [List.append_nil]
        refine ⟨_, feed, fun d' same => ?_, by simp⟩
        cases same
        exact ⟨⟨slot, filled, rfl⟩, rfl⟩
      | failed =>
        rw [failing] at run
        obtain ⟨rfl, rfl⟩ := (exec_pure_iff _ _ _).mp run
        rw [List.append_nil]
        refine ⟨_, feed, fun d' same => ?_, by simp⟩
        cases same
        exact ⟨⟨slot, filled, rfl⟩, rfl⟩
      | ended => exact (leads_closing (silent _) (empty _) run).after feed
  | failed =>
    have given : d.writer.writeToFd slot.fd = pure (d.writer, .ok true) := by
      simp only [WriterState.writeToFd, stands.2]
    rw [given, pure_bind] at run
    exact leads_closing (silent _) (empty _) run
  | closed =>
    have none : d.stdinSlot = none := stands
    rw [none] at filled
    cases filled

inductive StdinCall where
  | writeStdin
  | handleStdinWritable (reactor : Reactor)
  | dropStdin (reactor : Reactor)

def serve (d : DrainState) : StdinCall → Prog DrainState
  | .writeStdin => d.writeStdin >>= fun result => pure result.1
  | .handleStdinWritable reactor => d.handleStdinWritable reactor >>= fun result => pure result.1
  | .dropStdin reactor => d.dropStdin reactor

theorem leads_nothing {d : DrainState} {o} (stands : Stands fd buf d s) (run : Exec (pure d : Prog DrainState) t o) :
    Leads fd buf s t o := by
  obtain ⟨rfl, rfl⟩ := (exec_pure_iff _ _ _).mp run
  refine ⟨s, .start, fun d' same => ?_, by simp⟩
  cases same
  exact stands

theorem dropStdin_silent (d : DrainState) (reactor : Reactor) : (d.dropStdin reactor).Issues Silent := by
  unfold dropStdin
  split
  · trivial
  · exact .bind (release_silent _ _) fun _ => trivial

theorem dropStdin_empty {d d' : DrainState} {reactor : Reactor} (run : Exec (d.dropStdin reactor) t (.done d')) :
    d'.stdinSlot = none := by
  cases filled : d.stdinSlot with
  | none =>
    simp only [dropStdin, filled] at run
    cases ((exec_pure_iff _ _ _).mp run).2
    rfl
  | some slot =>
    obtain ⟨_, rfl⟩ := exec_dropStdin_done filled run
    rfl

theorem serve_leads {d : DrainState} {call : StdinCall} {o} (stands : Stands fd buf d s)
    (run : Exec (d.serve call) t o) : Leads fd buf s t o := by
  cases call with
  | writeStdin =>
    simp only [serve] at run
    unfold writeStdin at run
    split at run
    · exact leads_nothing stands run
    · rename_i slot filled
      rw [bind_assoc] at run
      refine leads_writing (fun _ _ => rfl) (fun _ => rfl) (fun w => ?_) (fun w => ?_) stands filled run
      · exact .bind (.bind (drop_silent slot) fun _ => trivial) fun _ => trivial
      · intro u d' run
        obtain ⟨_, _, _, _, dropped, rest⟩ := exec_bind_done.mp run
        obtain ⟨_, _, _, _, _, closed⟩ := exec_bind_done.mp dropped
        cases ((exec_pure_iff _ _ _).mp closed).2
        cases ((exec_pure_iff _ _ _).mp rest).2
        rfl
  | handleStdinWritable reactor =>
    simp only [serve] at run
    unfold handleStdinWritable at run
    split at run
    · exact leads_nothing stands run
    · rename_i slot filled
      rw [bind_assoc] at run
      refine leads_writing (fun _ _ => rfl) (fun _ => rfl) (fun w => ?_) (fun w => ?_) stands filled run
      · exact .bind (.bind (dropStdin_silent _ reactor) fun _ => trivial) fun _ => trivial
      · intro u d' run
        obtain ⟨_, _, _, _, dropped, rest⟩ := exec_bind_done.mp run
        obtain ⟨_, _, _, _, cleared, closed⟩ := exec_bind_done.mp dropped
        cases ((exec_pure_iff _ _ _).mp closed).2
        cases ((exec_pure_iff _ _ _).mp rest).2
        exact dropStdin_empty cleared
  | dropStdin reactor => exact leads_closing (dropStdin_silent _ _) dropStdin_empty run

inductive Session (d₀ : DrainState) : Trace → DrainState → Prop where
  | start : Session d₀ [] d₀
  | call {t t' : Trace} {d d' : DrainState} {call : StdinCall} (before : Session d₀ t d)
      (run : Exec (d.serve call) t' (.done d')) : Session d₀ (t ++ t') d'

theorem Session.feed {d₀ d : DrainState} (stands : Stands fd buf d₀ s) (session : Session d₀ t d) :
    ∃ s', Feed fd buf s t s' ∧ Stands fd buf d s' := by
  induction session with
  | start => exact ⟨s, .start, stands⟩
  | call _ run ih =>
    obtain ⟨s', feed, here⟩ := ih
    obtain ⟨s'', further, kept, _⟩ := serve_leads here run
    exact ⟨s'', feed.trans further, kept _ rfl⟩

end DrainState

theorem Feed.of_nil (feed : Feed fd buf s [] s') : s' = s ∨ s' = .closed := by
  generalize nothing : ([] : Trace) = t at feed
  induction feed with
  | start => exact .inl rfl
  | step _ _ _ => simp at nothing
  | closes _ _ => exact .inr rfl

theorem Feed.offered {fd' : Nat} {bytes : Bytes} {answer} (feed : Feed fd buf s [⟨.write fd' bytes, answer⟩] s') :
    ∃ off, s = .writing off ∧ off < buf.length ∧ fd' = fd ∧ bytes = offer buf off := by
  generalize single : [(⟨.write fd' bytes, answer⟩ : Event os)] = t at feed
  induction feed with
  | start => cases single
  | @step t middle s' e before fed ih =>
    obtain ⟨none, same⟩ := List.append_inj' ((List.nil_append _).trans single) rfl
    subst none
    cases same
    rcases before.of_nil with rfl | rfl
    · cases fed with
      | other silent => exact absurd rfl (silent fd' bytes)
      | blocked left | accepted left | refused left | broken left | failed left => exact ⟨_, rfl, left, rfl, rfl⟩
    · cases fed with
      | other silent => exact absurd rfl (silent fd' bytes)
  | closes _ ih => exact ih single

theorem Feed.writing {off : Nat} (feed : Feed fd buf s t (.writing off)) : ∃ off' ≤ off, s = .writing off' := by
  generalize ending : Feeding.writing off = s' at feed
  induction feed generalizing off with
  | start => exact ⟨off, Nat.le_refl _, ending.symm⟩
  | step _ fed ih =>
    cases fed with
    | other silent => exact ih ending
    | blocked left again =>
      cases ending
      exact ih rfl
    | accepted left n progress =>
      cases ending
      obtain ⟨off', le, same⟩ := ih rfl
      exact ⟨off', by omega, same⟩
    | refused | broken | failed => cases ending
  | closes _ _ => cases ending

theorem offer_prefix (buf : Bytes) (off : Nat) : offer buf off <+: buf.drop off := by
  rw [offer, slice, List.drop_take]
  exact List.take_prefix _ _

def CallsAfter {α : Type} (t : Trace) (o : Outcome os α) (before : Trace) (c : Call) : Prop :=
  (∃ answer after, t = before ++ ⟨c, answer⟩ :: after) ∨ t = before ∧ o = .waiting c

/-- The pipe has a prefix of the buffer, each write offers what comes next, and none follows once the
    buffer was given up. -/
structure InOrder (fd : Nat) (buf : Bytes) (t : Trace) (o : Outcome os DrainState) : Prop where
  delivered : accepted fd t <+: buf
  offered : ∀ before fd' bytes, CallsAfter t o before (.write fd' bytes) →
    fd' = fd ∧ bytes ≠ [] ∧ bytes.length ≤ 65536 ∧ bytes <+: buf.drop (accepted fd before).length
  final : ∀ before fd' bytes, CallsAfter t o before (.write fd' bytes) →
    ∀ earlier later, before = earlier ++ later → ¬GivenUp fd buf earlier

namespace DrainState

/-- What a client does with stdin, in whatever order, delivers the buffer in order and once. -/
theorem stdin_in_order {fd : Fd} {buf : Bytes} {stdout stderr : Option Fd} {limit : Nat} {earlyExit : Bool}
    {d₀ d : DrainState} {t₀ t t' : Trace} {call : StdinCall} {o : Outcome os DrainState}
    (created : Exec (new (some fd) (some buf) stdout stderr limit earlyExit) t₀ (.done (.ok d₀)))
    (session : Session d₀ t d) (run : Exec (d.serve call) t' o) : InOrder fd.raw buf (t ++ t') o := by
  obtain ⟨s, before, stands⟩ := session.feed (stands_new created)
  obtain ⟨s', further, _, waits⟩ := serve_leads stands run
  have feed := before.trans further
  have offers : ∀ before fd' bytes, CallsAfter (t ++ t') o before (.write fd' bytes) →
      ∃ off, Feed fd.raw buf (.writing 0) before (.writing off) ∧ off < buf.length ∧ fd' = fd.raw ∧
        bytes = offer buf off := by
    intro before fd' bytes calls
    rcases calls with ⟨answer, after, split⟩ | ⟨whole, waiting⟩
    · rw [split] at feed
      obtain ⟨middle, first, second⟩ := feed.cut
      obtain ⟨_, single, _⟩ := Feed.cut (t := [⟨.write fd' bytes, answer⟩]) second
      obtain ⟨off, rfl, left, same, offered⟩ := single.offered
      exact ⟨off, first, left, same, offered⟩
    · obtain ⟨off, rfl, left, same, offered⟩ := waits fd' bytes waiting
      rw [whole] at feed
      exact ⟨off, feed, left, same, offered⟩
  refine ⟨?_, fun before fd' bytes calls => ?_, fun before fd' bytes calls earlier later split => ?_⟩
  · obtain ⟨off, _, taken, _⟩ := feed.delivered.taken
    rw [taken]
    exact List.take_prefix _ _
  · obtain ⟨off, here, left, same, rfl⟩ := offers before fd' bytes calls
    obtain ⟨off', bound, taken, at'⟩ := here.delivered.taken
    have standing := at' off rfl
    subst standing
    have length : (accepted fd.raw before).length = off := by
      rw [taken, List.length_take]
      omega
    have chunk : (offer buf off).length ≤ 65536 := by
      rw [offer_length]
      exact Nat.min_le_right _ _
    rw [length]
    exact ⟨same, offer_ne_nil left, chunk, offer_prefix buf off⟩
  · obtain ⟨off, here, left, _, _⟩ := offers before fd' bytes calls
    rw [split] at here
    obtain ⟨middle, first, second⟩ := here.cut
    obtain ⟨off', le, rfl⟩ := second.writing
    exact first.not_givenUp (by omega)

theorem resumed_in_order :
    InOrder 4 [7, 8]
      ([⟨.write 4 [7, 8], .ok ⟨1, by decide⟩⟩, ⟨.write 4 [8], .error EAGAIN⟩] ++ [⟨.write 4 [8], .ok ⟨1, by decide⟩⟩])
      (.waiting (.close 4)) := by
  have created : Exec (new (some ⟨4⟩) (some [7, 8]) none none 0 false)
      [⟨.fcntlGetFl 4, .ok 0⟩, ⟨.fcntlSetFl 4 0o4000, .ok ()⟩]
      (.done (.ok ⟨none, none, some ⟨none, ⟨4⟩⟩, .new 0, .new (some [7, 8]), false⟩)) := .of_replay 3 rfl
  have first : Exec (serve ⟨none, none, some ⟨none, ⟨4⟩⟩, .new 0, .new (some [7, 8]), false⟩ .writeStdin)
      [⟨.write 4 [7, 8], .ok ⟨1, by decide⟩⟩, ⟨.write 4 [8], .error EAGAIN⟩]
      (.done ⟨none, none, some ⟨none, ⟨4⟩⟩, .new 0, ⟨some [7, 8], 1⟩, false⟩) := .of_replay 3 rfl
  have second : Exec (serve ⟨none, none, some ⟨none, ⟨4⟩⟩, .new 0, ⟨some [7, 8], 1⟩, false⟩ .writeStdin)
      [⟨.write 4 [8], .ok ⟨1, by decide⟩⟩] (.waiting (.close 4)) := .of_replay 3 rfl
  exact stdin_in_order created (.call .start first) second

end DrainState

end

end CoreShift
