import CoreShift.Io.Ending

namespace CoreShift

open Interaction

inductive Stream where
  | stdin
  | stdout
  | stderr
  deriving DecidableEq, Repr

namespace DrainState

def slotOf (d : DrainState) : Stream → Option FdSlot
  | .stdin => d.stdinSlot
  | .stdout => d.stdoutSlot
  | .stderr => d.stderrSlot

def outStream (isStdout : Bool) : Stream := if isStdout then .stdout else .stderr

theorem slotOf_outStream (d : DrainState) (isStdout : Bool) : d.slotOf (outStream isStdout) = d.outSlot isStdout := by
  cases isStdout <;> rfl

theorem slotOf_clearOut (d : DrainState) (isStdout : Bool) (s : Stream) :
    (d.clearOut isStdout).slotOf s = if s = outStream isStdout then none else d.slotOf s := by
  cases isStdout <;> cases s <;> rfl

/-- What has to happen before a stream is closed; stdin began with `bytes` to write. -/
def Ended (bytes : Bytes) : Stream → Nat → Trace → Prop
  | .stdin, fd, t => bytes <+: accepted fd t ∨ WriteEnded fd t
  | .stdout, fd, t => SawEof fd t ∨ StopAsked t
  | .stderr, fd, t => SawEof fd t

theorem Ended.mono {bytes : Bytes} {s : Stream} {fd : Nat} {t : Trace} (ended : Ended bytes s fd t) (t' : Trace) :
    Ended bytes s fd (t ++ t') := by
  have sub : t ⊆ t ++ t' := List.subset_append_left ..
  cases s with
  | stdin =>
    refine ended.imp (fun whole => ?_) (·.mono sub)
    rw [accepted_append]
    exact whole.trans (List.prefix_append ..)
  | stdout => exact ended.imp (·.mono sub) (·.mono sub)
  | stderr => exact SawEof.mono ended sub

def Deregistered (epfd fd : Nat) (t : Trace) : Prop := ∃ e ∈ t, e.call = .epollCtlDel epfd fd

def Closed (fd : Nat) (t : Trace) : Prop := ∃ e ∈ t, e.call = .close fd

theorem Deregistered.mono {epfd fd : Nat} {t : Trace} (gone : Deregistered epfd fd t) (t' : Trace) :
    Deregistered epfd fd (t ++ t') :=
  gone.imp fun _ here => ⟨List.mem_append_left _ here.1, here.2⟩

theorem Closed.mono {fd : Nat} {t : Trace} (closed : Closed fd t) (t' : Trace) : Closed fd (t ++ t') :=
  closed.imp fun _ here => ⟨List.mem_append_left _ here.1, here.2⟩

/-- Each open slot of a drain owns a descriptor of its own. -/
def Distinct (d : DrainState) : Prop :=
  ∀ s s' slot slot', d.slotOf s = some slot → d.slotOf s' = some slot' → slot.fd = slot'.fd → s = s'

structure Settled (d₀ : DrainState) (epfd : Nat) (t : Trace) (d : DrainState) : Prop where
  kept : ∀ s slot, d.slotOf s = some slot → d₀.slotOf s = some slot
  gone : ∀ s slot, d₀.slotOf s = some slot → d.slotOf s = none →
    Ended d₀.writer.rest s slot.fd.raw t ∧ Deregistered epfd slot.fd.raw t ∧ Closed slot.fd.raw t
  guarded : ∀ s slot, d₀.slotOf s = some slot →
    Guarded (Ended d₀.writer.rest s slot.fd.raw) (fun e => e.call = .close slot.fd.raw) t

def Written (d₀ : DrainState) (t : Trace) (d : DrainState) : Prop :=
  ∀ slot, d.stdinSlot = some slot → accepted slot.fd.raw t ++ d.writer.rest = d₀.writer.rest

theorem settled_start (d : DrainState) (epfd : Nat) : Settled d epfd [] d where
  kept _ _ filled := filled
  gone s slot filled empty := by simp [filled] at empty
  guarded _ _ _ := guarded_nil _ _

section
variable {d₀ d d' : DrainState} {epfd : Nat} {t t' : Trace}

theorem Settled.extend (settled : Settled d₀ epfd t d) (opened : ∀ e ∈ t', ∀ fd, e.call ≠ .close fd)
    (same : ∀ s, d'.slotOf s = d.slotOf s) : Settled d₀ epfd (t ++ t') d' where
  kept s slot filled := settled.kept s slot (by rw [← same, filled])
  gone s slot begun empty := by
    obtain ⟨ended, deregistered, closed⟩ := settled.gone s slot begun (by rw [← same, empty])
    exact ⟨ended.mono t', deregistered.mono t', closed.mono t'⟩
  guarded s slot begun := by
    refine guarded_append.mpr ⟨settled.guarded s slot begun, guarded_of_forall fun e member => ?_⟩
    exact opened e member slot.fd.raw

theorem Written.extend (written : Written d₀ t d) (slot : d'.stdinSlot = none ∨ d'.stdinSlot = d.stdinSlot)
    (left : ∀ slot, d.stdinSlot = some slot → accepted slot.fd.raw t' ++ d'.writer.rest = d.writer.rest) :
    Written d₀ (t ++ t') d' := by
  intro slot' filled
  rcases slot with empty | same
  · simp [empty] at filled
  · have before : d.stdinSlot = some slot' := same.symm.trans filled
    rw [accepted_append, List.append_assoc, left slot' before, written slot' before]

theorem Written.quiet (written : Written d₀ t d) (slot : d'.stdinSlot = none ∨ d'.stdinSlot = d.stdinSlot)
    (writer : d'.writer = d.writer) (quiet : ∀ fd, accepted fd t' = []) : Written d₀ (t ++ t') d' :=
  written.extend slot fun slot _ => by rw [quiet, writer, List.nil_append]

theorem released_accepted {reactor : Reactor} {slot : FdSlot} (released : Released reactor slot t) (fd : Nat) :
    accepted fd t = [] := by
  obtain ⟨deleted, answer, rfl⟩ := released
  rfl

theorem released_gone {reactor : Reactor} {slot : FdSlot} (released : Released reactor slot t) :
    Deregistered reactor.epfd slot.fd.raw t ∧ Closed slot.fd.raw t := by
  obtain ⟨deleted, answer, rfl⟩ := released
  exact ⟨⟨⟨.epollCtlDel reactor.epfd slot.fd.raw, deleted⟩, by simp, rfl⟩,
    ⟨⟨.close slot.fd.raw, answer⟩, by simp, rfl⟩⟩

theorem released_guarded {reactor : Reactor} {slot : FdSlot} {ready : Trace → Prop} {fd : Nat}
    (released : Released reactor slot t) (always : fd = slot.fd.raw → ∀ before, ready before) :
    Guarded ready (fun e => e.call = .close fd) t := by
  obtain ⟨deleted, answer, rfl⟩ := released
  have closing : Call.close slot.fd.raw = .close fd → ∀ before, ready before :=
    fun same => always (Call.close.inj same).symm
  simpa using fun same => closing (congrArg Call.close same) _

theorem Settled.release {reactor : Reactor} {s : Stream} {slot : FdSlot} (distinct : d₀.Distinct)
    (settled : Settled d₀ reactor.epfd t d) (filled : d.slotOf s = some slot)
    (ended : Ended d₀.writer.rest s slot.fd.raw t) (released : Released reactor slot t')
    (others : ∀ s', d'.slotOf s' = if s' = s then none else d.slotOf s') :
    Settled d₀ reactor.epfd (t ++ t') d' := by
  have begun := settled.kept s slot filled
  obtain ⟨deregistered, closed⟩ := released_gone released
  refine ⟨fun s' slot' filled' => ?_, fun s' slot' begun' empty => ?_, fun s' slot' begun' => ?_⟩
  · rw [others] at filled'
    split at filled'
    · cases filled'
    · exact settled.kept s' slot' filled'
  · by_cases here : s' = s
    · subst here
      cases begun.symm.trans begun'
      refine ⟨ended.mono t', ?_, ?_⟩
      · exact deregistered.imp fun _ e => ⟨List.mem_append_right _ e.1, e.2⟩
      · exact closed.imp fun _ e => ⟨List.mem_append_right _ e.1, e.2⟩
    · rw [others, if_neg here] at empty
      obtain ⟨ended', deregistered', closed'⟩ := settled.gone s' slot' begun' empty
      exact ⟨ended'.mono t', deregistered'.mono t', closed'.mono t'⟩
  · refine guarded_append.mpr ⟨settled.guarded s' slot' begun', released_guarded released fun same before => ?_⟩
    have here : s' = s := distinct s' s slot' slot begun' begun (congrArg Fd.mk same)
    subst here
    cases begun.symm.trans begun'
    exact ended.mono before

theorem open_of_reads {fd : Nat} (reads : ∀ e ∈ t, BufferState.Reads fd e.call) :
    (∀ e ∈ t, ∀ fd', e.call ≠ .close fd') ∧ ∀ fd', accepted fd' t = [] := by
  refine ⟨fun e member fd' close => ?_, fun fd' => accepted_of_forall fun e member => ?_⟩
  · rcases reads e member with ⟨count, same⟩ | ⟨slice, same⟩ <;> cases same.symm.trans close
  · obtain ⟨call, answer⟩ := e
    rcases reads _ member with ⟨count, same⟩ | ⟨slice, same⟩ <;> cases same <;> rfl

theorem Settled.outServed {reactor : Reactor} {isStdout : Bool} (distinct : d₀.Distinct)
    (settled : Settled d₀ reactor.epfd t d) (written : Written d₀ t d)
    (served : OutServed d isStdout (Released reactor) t' d' none) :
    Settled d₀ reactor.epfd (t ++ t') d' ∧ Written d₀ (t ++ t') d' := by
  cases served with
  | absent empty => simpa using ⟨settled, written⟩
  | blocked filled read =>
    have quiet := open_of_reads (read.issues (BufferState.readFromFd_issues _ _ _ _)).1
    exact ⟨settled.extend quiet.1 fun s => by cases s <;> rfl, written.quiet (.inr rfl) rfl quiet.2⟩
  | @closed slot buffer t₁ t₂ filled read closes =>
    have quiet := open_of_reads (read.issues (BufferState.readFromFd_issues _ _ _ _)).1
    have between : Settled d₀ reactor.epfd (t ++ t₁) { d with buffer } :=
      settled.extend quiet.1 fun s => by cases s <;> rfl
    have ended : Ended d₀.writer.rest (outStream isStdout) slot.fd.raw (t ++ t₁) := by
      have sub : t₁ ⊆ t ++ t₁ := List.subset_append_right ..
      rcases BufferState.readFromFd_ended read with eof | ⟨rfl, stopped⟩
      · cases isStdout
        · exact eof.mono sub
        · exact .inl (eof.mono sub)
      · exact .inr (stopped.mono sub)
    have same : { d with buffer }.slotOf (outStream isStdout) = some slot := by
      rw [slotOf_outStream]
      exact filled
    rw [← List.append_assoc]
    refine ⟨between.release distinct same ended closes (slotOf_clearOut _ _), ?_⟩
    rw [List.append_assoc]
    refine written.quiet (.inr ?_) ?_ fun fd => ?_
    · cases isStdout <;> rfl
    · cases isStdout <;> rfl
    · rw [accepted_append, quiet.2, released_accepted closes]
      rfl

theorem Settled.stdinServed {reactor : Reactor} (distinct : d₀.Distinct) (settled : Settled d₀ reactor.epfd t d)
    (written : Written d₀ t d) (served : StdinServed d reactor t' d' none) :
    Settled d₀ reactor.epfd (t ++ t') d' ∧ Written d₀ (t ++ t') d' := by
  have opened : ∀ {slot : FdSlot} {t' : Trace} {o}, Exec (d.writer.writeToFd slot.fd) t' o →
      ∀ e ∈ t', ∀ fd, e.call ≠ .close fd := by
    intro slot t' o run e member fd close
    obtain ⟨bytes', write⟩ := (run.issues (WriterState.writeToFd_issues _ _)).1 e member
    cases write.symm.trans close
  cases served with
  | absent empty => simpa using ⟨settled, written⟩
  | @blocked slot writer _ filled wrote =>
    refine ⟨settled.extend (opened wrote) fun s => by cases s <;> rfl, written.extend (.inr rfl) ?_⟩
    intro slot' filled'
    cases filled.symm.trans filled'
    exact WriterState.writeToFd_blocked wrote
  | @closed slot writer t₁ t₂ filled wrote closes =>
    have own : d.slotOf .stdin = some slot := filled
    have between : Settled d₀ reactor.epfd (t ++ t₁) d := settled.extend (opened wrote) fun s => rfl
    have ended : Ended d₀.writer.rest .stdin slot.fd.raw (t ++ t₁) := by
      rcases WriterState.writeToFd_ended wrote with whole | ended
      · have all : accepted slot.fd.raw (t ++ t₁) = d₀.writer.rest := by
          rw [accepted_append, whole, written slot filled]
        exact .inl (all ▸ List.prefix_rfl)
      · exact .inr (ended.mono (List.subset_append_right ..))
    rw [← List.append_assoc]
    refine ⟨between.release distinct own ended closes fun s => ?_, fun slot' filled' => ?_⟩
    · cases s <;> rfl
    · cases filled'

end

end DrainState

end CoreShift
