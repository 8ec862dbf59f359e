import CoreShift.Interaction.Counter
import CoreShift.Io.EarlyExit
import CoreShift.Reactor.Setup
import CoreShift.Spawn.Wakeup
import Mathlib.Algebra.Group.Nat.Defs

namespace CoreShift.Routing

open Interaction DrainState WaitLoop

structure Entry where
  fd : Nat
  events : UInt32
  token : UInt64
  deriving DecidableEq, Repr

def tokenTried (epfd : Nat) : Event os → Option UInt64
  | ⟨.epollCtlAdd epfd' _ _ data, _⟩ => if epfd' = epfd then some data else none
  | _ => none

def entryBy (epfd : Nat) : Event os → Option Entry
  | ⟨.epollCtlAdd epfd' fd events data, .ok ()⟩ => if epfd' = epfd then some ⟨fd, events, data⟩ else none
  | _ => none

def attempts (epfd : Nat) (t : Trace) : List UInt64 := t.filterMap (tokenTried epfd)

def entries (epfd : Nat) (t : Trace) : List Entry := t.filterMap (entryBy epfd)

structure Point where
  reactor : Reactor
  drain : DrainState

/-- One step in the life of the two. What happens elsewhere may close and open any descriptors. -/
inductive Step (p : Point) : Trace → Point → Prop where
  | setup {s : Reactor.Setup} {t : Trace} {reactor : Reactor} {result : Except SysError s.Result}
      (called : Exec (p.reactor.perform s) t (.done (reactor, result))) : Step p t { p with reactor }
  | del {fd : Fd} {t : Trace} {u : Unit} (called : Exec (p.reactor.del fd) t (.done u)) : Step p t p
  | wait {buffer events : RoomyVec Reactor.Event} {maxEvents : Nat} {timeout : Int} {t : Trace} {reactor : Reactor}
      {result : Except SysError Nat}
      (called : Exec (p.reactor.wait buffer maxEvents timeout) t (.done (reactor, events, result))) :
      Step p t { p with reactor }
  | register {t : Trace} {reactor : Reactor} {drain : DrainState} {result : Except SysError Unit}
      (called : Exec (p.drain.registerWithReactor p.reactor) t (.done (drain, reactor, result))) :
      Step p t ⟨reactor, drain⟩
  | handle {raw : EpollEvent} {t : Trace} {drain : DrainState} {result : Except SysError Unit}
      (called : Exec (handleEvent p.reactor p.drain (Reactor.translate raw)) t (.done (drain, result))) :
      Step p t { p with drain }
  | operate {call : ClientCall} {t : Trace} {drain : DrainState} {result : Except SysError call.Result}
      (called : Exec (p.drain.operate call) t (.done (drain, result))) : Step p t { p with drain }
  | take : Step p [] { p with drain := p.drain.takeAllSlots.1 }
  | replace {stdinFd : Option Fd} {stdinBuf : Option Bytes} {stdoutFd stderrFd : Option Fd} {limit : Nat}
      {earlyExit : Bool} {t : Trace} {drain : DrainState}
      (made : Exec (DrainState.new stdinFd stdinBuf stdoutFd stderrFd limit earlyExit) t (.done (.ok drain))) :
      Step p t { p with drain }
  | elsewhere {e : Event os} (other : ∀ fd events data, e.call ≠ .epollCtlAdd p.reactor.epfd fd events data) :
      Step p [e] p

inductive Later (p₀ : Point) : Trace → Point → Prop where
  | start : Later p₀ [] p₀
  | step {t t' : Trace} {p p' : Point} (before : Later p₀ t p) (step : Step p t' p') : Later p₀ (t ++ t') p'

def Begins (p : Point) : Prop :=
  (∃ t, Exec Reactor.new t (.done (.ok p.reactor))) ∧
    ∃ stdinFd stdinBuf stdoutFd stderrFd limit earlyExit t,
      Exec (DrainState.new stdinFd stdinBuf stdoutFd stderrFd limit earlyExit) t (.done (.ok p.drain))

section
variable {epfd : Nat} {t t' : Trace}

@[simp] theorem tokenTried_add (fd : Nat) (events : UInt32) (data : UInt64) (answer : Except Errno Unit) :
    tokenTried epfd ⟨.epollCtlAdd epfd fd events data, answer⟩ = some data := if_pos rfl

@[simp] theorem attempts_nil : attempts epfd [] = [] := rfl

@[simp] theorem attempts_cons (e : Event os) :
    attempts epfd (e :: t) = (tokenTried epfd e).toList ++ attempts epfd t := by
  unfold attempts
  cases given : tokenTried epfd e with
  | none => rw [List.filterMap_cons_none given, Option.toList_none, List.nil_append]
  | some token => rw [List.filterMap_cons_some given, Option.toList_some, List.singleton_append]

@[simp] theorem attempts_append : attempts epfd (t ++ t') = attempts epfd t ++ attempts epfd t' :=
  List.filterMap_append ..

@[simp] theorem entries_append : entries epfd (t ++ t') = entries epfd t ++ entries epfd t' :=
  List.filterMap_append ..

theorem attempts_of_silent (silent : ∀ e ∈ t, ∀ fd events data, e.call ≠ .epollCtlAdd epfd fd events data) :
    attempts epfd t = [] := by
  apply List.filterMap_eq_nil_iff.mpr
  intro e member
  obtain ⟨call, answer⟩ := e
  cases call
  case epollCtlAdd epfd' fd events data =>
    have other : epfd' ≠ epfd := by
      rintro rfl
      exact silent _ member fd events data rfl
    exact if_neg other
  all_goals rfl

theorem attempts_of_issues {α : Type} {p : Prog α} {o : Outcome os α} (issues : p.Issues (isDrainCall · = true))
    (run : Exec p t o) : attempts epfd t = [] := by
  apply attempts_of_silent
  intro e member fd events data same
  have drains := (run.issues issues).1 e member
  rw [same] at drains
  cases drains

theorem tokenTried_of_entryBy {e : Event os} {entry : Entry} (by_ : entryBy epfd e = some entry) :
    tokenTried epfd e = some entry.token := by
  obtain ⟨call, answer⟩ := e
  cases call
  case epollCtlAdd epfd' fd events data =>
    by_cases same : epfd' = epfd
    · cases answer with
      | error e => cases by_
      | ok u =>
        simp only [entryBy, same, ↓reduceIte, Option.some.injEq] at by_
        rw [← by_]
        exact if_pos same
    · cases answer with
      | error e => cases by_
      | ok u =>
        simp only [entryBy, same, ↓reduceIte, reduceCtorEq] at by_
  all_goals cases by_

theorem entries_sublist (epfd : Nat) (t : Trace) : ((entries epfd t).map Entry.token).Sublist (attempts epfd t) := by
  induction t with
  | nil => exact .slnil
  | cons e t ih =>
    unfold entries attempts at ih ⊢
    cases tried : entryBy epfd e with
    | none =>
      rw [List.filterMap_cons_none tried]
      cases given : tokenTried epfd e with
      | none =>
        rw [List.filterMap_cons_none given]
        exact ih
      | some token =>
        rw [List.filterMap_cons_some given]
        exact ih.cons _
    | some entry =>
      rw [List.filterMap_cons_some tried, List.filterMap_cons_some (tokenTried_of_entryBy tried), List.map_cons]
      exact ih.cons_cons _

end

def Kept (d d' : DrainState) : Prop :=
  ∀ s slot, d'.slotOf s = some slot → slot.token = none ∨ d.slotOf s = some slot

inductive Turn (p : Point) : Trace → Point → Prop where
  | quiet {t : Trace} {p' : Point} (same : p'.reactor.epfd = p.reactor.epfd)
      (still : p'.reactor.nextToken = p.reactor.nextToken) (silent : attempts p.reactor.epfd t = [])
      (kept : Kept p.drain p'.drain) : Turn p t p'
  | tried {t : Trace} {p' : Point} (same : p'.reactor.epfd = p.reactor.epfd)
      (next : p'.reactor.nextToken = p.reactor.nextToken + 1)
      (once : attempts p.reactor.epfd t = [p.reactor.nextToken]) (kept : Kept p.drain p'.drain) : Turn p t p'
  | enrolled {s : Stream} {slot : FdSlot} {d' : DrainState} (filled : d'.slotOf s = some slot)
      (own : slot.token = some ⟨p.reactor.nextToken⟩) (others : ∀ s', s' ≠ s → d'.slotOf s' = p.drain.slotOf s') :
      Turn p [⟨.epollCtlAdd p.reactor.epfd slot.fd.raw (interest s) p.reactor.nextToken, .ok ()⟩]
        ⟨p.reactor.advanced, d'⟩

inductive Turns (p₀ : Point) : Trace → Point → Prop where
  | start : Turns p₀ [] p₀
  | turn {t t' : Trace} {p p' : Point} (before : Turns p₀ t p) (turn : Turn p t' p') : Turns p₀ (t ++ t') p'

section
variable {p p' p₀ : Point} {t t' : Trace} {d d' : DrainState}

theorem Turn.alone (turn : Turn p t p') : Turns p t p' := by
  have one := Turns.turn .start turn
  rwa [List.nil_append] at one

theorem Turns.trans (first : Turns p₀ t p) (second : Turns p t' p') : Turns p₀ (t ++ t') p' := by
  induction second with
  | start =>
    rw [List.append_nil]
    exact first
  | turn _ last ih =>
    rw [← List.append_assoc]
    exact .turn ih last

theorem Kept.refl (d : DrainState) : Kept d d := fun _ _ filled => .inr filled

theorem kept_of_outServed {isStdout : Bool} {closing : FdSlot → Trace → Prop} {e : Option SysError}
    (served : OutServed d isStdout closing t d' e) : Kept d d' := by
  intro s slot filled
  apply Or.inr
  cases served with
  | absent | blocked | failed => exact filled
  | closed =>
    rw [slotOf_clearOut] at filled
    split at filled
    · cases filled
    · exact filled

theorem kept_of_stdinServed {reactor : Reactor} {e : Option SysError} (served : StdinServed d reactor t d' e) :
    Kept d d' := by
  intro s slot filled
  apply Or.inr
  cases served with
  | absent | blocked | failed => exact filled
  | closed =>
    cases s with
    | stdin => cases filled
    | stdout | stderr => exact filled

theorem kept_of_stdinWritten {result : Except SysError Bool} (written : StdinWritten d t d' result) : Kept d d' := by
  intro s slot filled
  apply Or.inr
  cases written with
  | absent | blocked | failed => exact filled
  | closed =>
    cases s with
    | stdin => cases filled
    | stdout | stderr => exact filled

theorem exec_operate_kept {call : ClientCall} {result : Except SysError call.Result}
    (run : Exec (d.operate call) t (.done (d', result))) : Kept d d' := by
  cases call with
  | readFd isStdout => exact kept_of_outServed (exec_readFd_done run)
  | writeStdin => exact kept_of_stdinWritten (exec_writeStdin_done run)
  | handleStdoutReady reactor => exact kept_of_outServed (exec_handleOutReady_done run)
  | handleStderrReady reactor => exact kept_of_outServed (exec_handleOutReady_done run)
  | handleStdinWritable reactor => exact kept_of_stdinServed (exec_handleStdinWritable_done run)

theorem exec_handleEvent_kept {reactor : Reactor} {raw : EpollEvent} {result : Except SysError Unit}
    (run : Exec (handleEvent reactor d (Reactor.translate raw)) t (.done (d', result))) : Kept d d' := by
  have served := exec_handleEvent_done run
  generalize errorOf result = e at served
  cases served with
  | out served => exact kept_of_outServed served
  | stdin served => exact kept_of_stdinServed served
  | passed => exact .refl d

theorem operate_issues (d : DrainState) (call : ClientCall) : (d.operate call).Issues (isDrainCall · = true) :=
  operate_issues_of d call fun _ _ _ => admits_drain _ _

theorem exec_wait_counter {r r' : Reactor} {buffer events : RoomyVec Reactor.Event} {maxEvents : Nat} {timeout : Int}
    {result : Except SysError Nat}
    (run : Exec (r.wait buffer maxEvents timeout) t (.done (r', events, result))) :
    r'.epfd = r.epfd ∧ r'.nextToken = r.nextToken := by
  by_cases none : maxEvents = 0
  · simp only [Reactor.wait, none, ↓reduceIte, exec_pure_iff, Outcome.done.injEq, Prod.mk.injEq] at run
    rw [run.2.1]
    exact ⟨rfl, rfl⟩
  · simp only [Reactor.wait, none, ↓reduceIte] at run
    obtain ⟨t₁, given, _, rfl, _, run⟩ := exec_bind_done.mp run
    obtain ⟨t₂, raw, _, rfl, _, run⟩ := exec_bind_done.mp run
    obtain ⟨t₃, answer, t₄, rfl, _, rest⟩ := exec_bind_done.mp run
    rcases answer with e | ready
    · simp only at rest
      split at rest
      · cases ((exec_pure_iff _ _ _).mp rest).2
        exact ⟨rfl, rfl⟩
      · cases ((exec_pure_iff _ _ _).mp rest).2
        exact ⟨rfl, rfl⟩
    · simp only at rest
      split at rest
      · cases ((exec_pure_iff _ _ _).mp rest).2
        exact ⟨rfl, rfl⟩
      · cases ((exec_pure_iff _ _ _).mp rest).2
        exact ⟨rfl, rfl⟩

theorem exec_wait_silent {r r' : Reactor} {buffer events : RoomyVec Reactor.Event} {maxEvents epfd : Nat}
    {timeout : Int} {result : Except SysError Nat}
    (run : Exec (r.wait buffer maxEvents timeout) t (.done (r', events, result))) : attempts epfd t = [] := by
  apply attempts_of_silent
  intro e member fd events data same
  have waits := (run.issues (wait_issues r buffer maxEvents timeout)).1 e member
  rw [same] at waits
  cases waits

section
variable {stdinFd : Option Fd} {stdinBuf : Option Bytes} {stdoutFd stderrFd : Option Fd} {limit : Nat}
  {earlyExit : Bool}

theorem exec_new_silent {epfd : Nat} {result : Except SysError DrainState}
    (made : Exec (DrainState.new stdinFd stdinBuf stdoutFd stderrFd limit earlyExit) t (.done result)) :
    attempts epfd t = [] := by
  apply attempts_of_silent
  have issues := @DrainState.new_issues_of (fun c => ∀ fd events data, c ≠ .epollCtlAdd epfd fd events data)
    (fun _ _ _ _ => nofun) (fun _ _ _ _ _ => nofun) (fun _ _ _ _ => nofun)
    stdinFd stdinBuf stdoutFd stderrFd limit earlyExit
  exact (made.issues issues).1

theorem exec_new_unregistered {s : Stream} {slot : FdSlot}
    (made : Exec (DrainState.new stdinFd stdinBuf stdoutFd stderrFd limit earlyExit) t (.done (.ok d)))
    (filled : d.slotOf s = some slot) : slot.token = none := by
  rw [exec_new_ok made] at filled
  cases s
  all_goals
    obtain ⟨fd, _, rfl⟩ := Option.map_eq_some_iff.mp filled
    rfl

end

theorem turn_of_performed {r' : Reactor} {s : Reactor.Setup} {result : Except SysError s.Result}
    (performed : Reactor.Performed p.reactor s t r' result) : Turn p t { p with reactor := r' } := by
  cases performed with
  | noInotify | unmasked | noSignalfd => exact .quiet rfl rfl rfl (.refl _)
  | refused | added | inotifyRefused | inotify | signalfdRefused =>
    refine .tried rfl rfl ?_ (.refl _)
    simp [tokenTried]
  | signalfd closes =>
    refine .tried rfl rfl ?_ (.refl _)
    rcases closes with ⟨rfl, _⟩ | ⟨old, answer, _, rfl⟩
    · simp [tokenTried]
    · simp [tokenTried]

def putSlot (d : DrainState) (slot : Option FdSlot) : Stream → DrainState
  | .stdin => { d with stdinSlot := slot }
  | .stdout => { d with stdoutSlot := slot }
  | .stderr => { d with stderrSlot := slot }

theorem slotOf_putSlot (d : DrainState) (slot : Option FdSlot) (s s' : Stream) :
    (putSlot d slot s).slotOf s' = if s' = s then slot else d.slotOf s' := by
  cases s <;> cases s' <;> rfl

theorem kept_emptied (d : DrainState) (s : Stream) : Kept d (putSlot d none s) := by
  intro s' slot filled
  rw [slotOf_putSlot] at filled
  split at filled
  · cases filled
  · exact .inr filled

theorem turn_of_registerSlot {r r' : Reactor} {s : Stream} {readable writable : Bool} {slot : Option FdSlot}
    {result : Except SysError Unit} (events : Reactor.interestIn readable writable = interest s)
    (run : Exec (registerSlot r readable writable (d.slotOf s)) t (.done (r', slot, result))) :
    Turn ⟨r, d⟩ t ⟨r', putSlot d slot s⟩ := by
  cases filled : d.slotOf s with
  | none =>
    simp only [filled, registerSlot, exec_pure_iff, Outcome.done.injEq, Prod.mk.injEq] at run
    obtain ⟨rfl, rfl, rfl, rfl⟩ := run
    exact .quiet rfl rfl rfl (kept_emptied d s)
  | some before =>
    simp only [filled, registerSlot] at run
    obtain ⟨first, ⟨reactor, added⟩, second, rfl, adding, rest⟩ := exec_bind_done.mp run
    obtain ⟨rfl, answer, rfl, rfl⟩ := Reactor.exec_add adding
    cases answer with
    | error e =>
      obtain ⟨third, _, fourth, rfl, dropping, returned⟩ := exec_bind_done.mp rest
      obtain ⟨answer, rfl⟩ := Reactor.exec_drop dropping
      obtain ⟨rfl, same⟩ := (exec_pure_iff _ _ _).mp returned
      cases same
      refine .tried rfl rfl ?_ (kept_emptied d s)
      simp [tokenTried]
    | ok u =>
      obtain ⟨rfl, same⟩ := (exec_pure_iff _ _ _).mp rest
      cases same
      rw [events]
      apply @Turn.enrolled ⟨r, d⟩ s { before with token := some ⟨r.nextToken⟩ }
      · rw [slotOf_putSlot, if_pos rfl]
      · rfl
      · intro s' other
        rw [slotOf_putSlot, if_neg other]

theorem turns_of_register {r r' : Reactor} {result : Except SysError Unit}
    (run : Exec (d.registerWithReactor r) t (.done (d', r', result))) : Turns ⟨r, d⟩ t ⟨r', d'⟩ := by
  obtain ⟨first, ⟨r₁, stdinSlot, done⟩, rest, rfl, registered, run⟩ := exec_bind_done.mp run
  have stdin : Turn ⟨r, d⟩ first ⟨r₁, putSlot d stdinSlot .stdin⟩ := turn_of_registerSlot rfl registered
  cases done with
  | error e =>
    obtain ⟨rfl, same⟩ := (exec_pure_iff _ _ _).mp run
    cases same
    rw [List.append_nil]
    exact stdin.alone
  | ok u =>
    obtain ⟨second, ⟨r₂, stdoutSlot, done⟩, rest, rfl, registered', run⟩ := exec_bind_done.mp run
    have stdout : Turn ⟨r₁, putSlot d stdinSlot .stdin⟩ second
        ⟨r₂, putSlot (putSlot d stdinSlot .stdin) stdoutSlot .stdout⟩ :=
      turn_of_registerSlot rfl registered'
    have both := stdin.alone.trans stdout.alone
    cases done with
    | error e =>
      obtain ⟨rfl, same⟩ := (exec_pure_iff _ _ _).mp run
      cases same
      rw [List.append_nil]
      exact both
    | ok u =>
      obtain ⟨third, ⟨r₃, stderrSlot, done⟩, rest, rfl, registered'', run⟩ := exec_bind_done.mp run
      have stderr : Turn ⟨r₂, putSlot (putSlot d stdinSlot .stdin) stdoutSlot .stdout⟩ third
          ⟨r₃, putSlot (putSlot (putSlot d stdinSlot .stdin) stdoutSlot .stdout) stderrSlot .stderr⟩ :=
        turn_of_registerSlot rfl registered''
      obtain ⟨rfl, same⟩ := (exec_pure_iff _ _ _).mp run
      cases same
      rw [List.append_nil, ← List.append_assoc]
      exact both.trans stderr.alone

theorem Step.turns (step : Step p t p') : Turns p t p' := by
  cases step with
  | setup called => exact (turn_of_performed (Reactor.exec_perform called)).alone
  | del called =>
    obtain ⟨answer, rfl⟩ := Reactor.exec_del called
    apply Turn.alone
    exact .quiet rfl rfl rfl (.refl _)
  | wait called =>
    obtain ⟨same, still⟩ := exec_wait_counter called
    apply Turn.alone
    exact .quiet same still (exec_wait_silent called) (.refl _)
  | register called => exact turns_of_register called
  | handle called =>
    have silent : attempts p.reactor.epfd t = [] := attempts_of_issues (handleEvent_issues _ _ _) called
    apply Turn.alone
    exact .quiet rfl rfl silent (exec_handleEvent_kept called)
  | operate called =>
    have silent : attempts p.reactor.epfd t = [] := attempts_of_issues (operate_issues _ _) called
    apply Turn.alone
    exact .quiet rfl rfl silent (exec_operate_kept called)
  | take =>
    apply Turn.alone
    refine .quiet rfl rfl rfl fun s slot filled => ?_
    cases s <;> cases filled
  | replace made =>
    apply Turn.alone
    exact .quiet rfl rfl (exec_new_silent made) fun s slot filled => .inl (exec_new_unregistered made filled)
  | elsewhere other =>
    apply Turn.alone
    refine .quiet rfl rfl (attempts_of_silent fun e member => ?_) (.refl _)
    rw [List.mem_singleton.mp member]
    exact other

theorem Later.turns (later : Later p₀ t p) : Turns p₀ t p := by
  induction later with
  | start => exact .start
  | step _ last ih => exact ih.trans last.turns

theorem Turn.epfd (turn : Turn p t p') : p'.reactor.epfd = p.reactor.epfd := by
  cases turn with
  | quiet same => exact same
  | tried same => exact same
  | enrolled => rfl

theorem Turns.epfd (turns : Turns p₀ t p) : p.reactor.epfd = p₀.reactor.epfd := by
  induction turns with
  | start => rfl
  | turn _ last ih => exact last.epfd.trans ih

theorem Turn.counted (turn : Turn p t p') :
    Counted (· + 1) p.reactor.nextToken (attempts p.reactor.epfd t) p'.reactor.nextToken := by
  cases turn with
  | quiet _ still silent =>
    rw [still, silent]
    exact .nil _
  | tried _ next once =>
    rw [next, once]
    exact .single _
  | enrolled =>
    rw [attempts_cons, tokenTried_add]
    exact .single _

theorem Turns.counted (turns : Turns p₀ t p) :
    Counted (· + 1) p₀.reactor.nextToken (attempts p₀.reactor.epfd t) p.reactor.nextToken := by
  induction turns with
  | start => exact .nil _
  | turn before last ih =>
    rw [attempts_append]
    have now := last.counted
    rw [before.epfd] at now
    exact ih.append now

theorem Turn.slots (turn : Turn p t p') {s : Stream} {slot : FdSlot} {token : Token}
    (filled : p'.drain.slotOf s = some slot) (own : slot.token = some token) :
    p.drain.slotOf s = some slot ∨ ⟨slot.fd.raw, interest s, token.val⟩ ∈ entries p.reactor.epfd t := by
  have keeps : Kept p.drain p'.drain → p.drain.slotOf s = some slot := by
    intro kept
    rcases kept s slot filled with none | before
    · rw [none] at own
      cases own
    · exact before
  cases turn with
  | quiet _ _ _ kept => exact .inl (keeps kept)
  | tried _ _ _ kept => exact .inl (keeps kept)
  | @enrolled s' slot' d' filled' own' others =>
    by_cases same : s = s'
    · subst same
      apply Or.inr
      rw [filled'] at filled
      cases filled
      rw [own'] at own
      cases own
      have entry : entryBy p.reactor.epfd
          ⟨.epollCtlAdd p.reactor.epfd slot.fd.raw (interest s) p.reactor.nextToken, .ok ()⟩ =
            some ⟨slot.fd.raw, interest s, p.reactor.nextToken⟩ := if_pos rfl
      unfold entries
      rw [List.filterMap_cons_some entry]
      exact List.mem_cons_self ..
    · exact .inl ((others s same).symm.trans filled)

theorem Turns.slots (turns : Turns p₀ t p) {s : Stream} {slot : FdSlot} {token : Token}
    (filled : p.drain.slotOf s = some slot) (own : slot.token = some token) :
    p₀.drain.slotOf s = some slot ∨ ⟨slot.fd.raw, interest s, token.val⟩ ∈ entries p₀.reactor.epfd t := by
  induction turns with
  | start => exact .inl filled
  | turn before last ih =>
    rw [entries_append]
    rcases last.slots filled own with earlier | now
    · exact (ih earlier).imp_right (List.mem_append_left _)
    · rw [before.epfd] at now
      exact .inr (List.mem_append_right _ now)

theorem mem_attempts {epfd : Nat} {entry : Entry} (member : entry ∈ entries epfd t) : entry.token ∈ attempts epfd t :=
  (entries_sublist epfd t).subset (List.mem_map_of_mem member)

def Apart (d : DrainState) : Prop :=
  ∀ s s' slot slot' token, d.slotOf s = some slot → d.slotOf s' = some slot' → slot.token = some token →
    slot'.token = some token → s = s'

def Unregistered (d : DrainState) : Prop := ∀ s slot, d.slotOf s = some slot → slot.token = none

theorem Turns.mem_of_own (turns : Turns p₀ t p) (unregistered : Unregistered p₀.drain) {s : Stream} {slot : FdSlot}
    {token : Token} (filled : p.drain.slotOf s = some slot) (own : slot.token = some token) :
    ⟨slot.fd.raw, interest s, token.val⟩ ∈ entries p₀.reactor.epfd t := by
  rcases turns.slots filled own with before | entry
  · rw [unregistered s slot before] at own
    cases own
  · exact entry

theorem Turns.apart (turns : Turns p₀ t p) (unregistered : Unregistered p₀.drain)
    (distinct : (attempts p₀.reactor.epfd t).Nodup) : Apart p.drain := by
  induction turns with
  | start =>
    intro s s' slot slot' token filled _ own _
    rw [unregistered s slot filled] at own
    cases own
  | @turn t t' p p' before last ih =>
    rw [attempts_append, List.nodup_append'] at distinct
    have earlier := ih distinct.1
    have keeps : Kept p.drain p'.drain → Apart p'.drain := by
      intro kept s s' slot slot' token filled filled' own own'
      rcases kept s slot filled with none | here
      · rw [none] at own
        cases own
      · rcases kept s' slot' filled' with none | here'
        · rw [none] at own'
          cases own'
        · exact earlier s s' slot slot' token here here' own own'
    cases last with
    | quiet _ _ _ kept => exact keeps kept
    | tried _ _ _ kept => exact keeps kept
    | @enrolled here fresh d' filed given others =>
      -- a token that was given before is not the one that the counter shows now
      have new : ∀ s slot, s ≠ here → d'.slotOf s = some slot → slot.token ≠ some ⟨p.reactor.nextToken⟩ := by
        intro s slot other filled own
        have used := mem_attempts (before.mem_of_own unregistered ((others s other).symm.trans filled) own)
        have now : p.reactor.nextToken ∈ attempts p₀.reactor.epfd
            [⟨.epollCtlAdd p.reactor.epfd fresh.fd.raw (interest here) p.reactor.nextToken, .ok ()⟩] := by
          simp [tokenTried, before.epfd]
        exact distinct.2.2 used now
      intro s s' slot slot' token filled filled' own own'
      by_cases at_ : s = here
      · by_cases at_' : s' = here
        · rw [at_, at_']
        · subst at_
          have same : slot = fresh := Option.some.inj (filled.symm.trans filed)
          rw [same, given] at own
          cases own
          exact absurd own' (new s' slot' at_' filled')
      · by_cases at_' : s' = here
        · subst at_'
          have same : slot' = fresh := Option.some.inj (filled'.symm.trans filed)
          rw [same, given] at own'
          cases own'
          exact absurd own (new s slot at_ filled)
        · exact earlier s s' slot slot' token ((others s at_).symm.trans filled) ((others s' at_').symm.trans filled')
            own own'

theorem nodup_attempts (turns : Turns p₀ t p) (first : p₀.reactor.nextToken = 1)
    (few : (attempts p₀.reactor.epfd t).length < 2 ^ 64 - 1) : (attempts p₀.reactor.epfd t).Nodup := by
  have advances : ∀ a : UInt64, a.toNat + 1 < 2 ^ 64 → (a + 1).toNat = a.toNat + 1 := by
    intro a room
    rw [UInt64.toNat_add]
    exact Nat.mod_eq_of_lt room
  apply turns.counted.nodup advances
  rw [first]
  have one : (1 : UInt64).toNat = 1 := rfl
  omega

theorem Begins.unregistered (begins : Begins p₀) : Unregistered p₀.drain := by
  obtain ⟨_, _, _, _, _, _, _, _, made⟩ := begins
  exact fun s slot filled => exec_new_unregistered made filled

theorem Begins.first (begins : Begins p₀) : p₀.reactor.nextToken = 1 := by
  obtain ⟨⟨_, made⟩, _⟩ := begins
  exact (Reactor.exec_new made).1

theorem outServed_others {isStdout : Bool} {closing : FdSlot → Trace → Prop} {e : Option SysError} {s : Stream}
    (served : OutServed d isStdout closing t d' e) (other : s ≠ outStream isStdout) : d'.slotOf s = d.slotOf s := by
  cases served with
  | absent | blocked | failed => rfl
  | closed =>
    rw [slotOf_clearOut, if_neg other]
    rfl

theorem stdinServed_others {reactor : Reactor} {e : Option SysError} {s : Stream}
    (served : StdinServed d reactor t d' e) (other : s ≠ .stdin) : d'.slotOf s = d.slotOf s := by
  cases served with
  | absent | blocked | failed => rfl
  | closed =>
    cases s with
    | stdin => exact absurd rfl other
    | stdout | stderr => rfl

/-- What `wait_loop` does with an event is for one slot alone. -/
def Serves (reactor : Reactor) (d : DrainState) (raw : EpollEvent) (s : Stream) (slot : FdSlot) : Prop :=
  (handleEvent reactor d (Reactor.translate raw)).Issues (Concerns slot.fd.raw) ∧
    ∀ t d' result, Exec (handleEvent reactor d (Reactor.translate raw)) t (.done (d', result)) →
      ∀ s', s' ≠ s → d'.slotOf s' = d.slotOf s'

variable {reactor : Reactor} {raw : EpollEvent} {slot : FdSlot}

theorem serves_out {isStdout : Bool} (filled : d.outSlot isStdout = some slot)
    (same : handleEvent reactor d (Reactor.translate raw) =
      if (Reactor.translate raw).readable then d.handleOutReady isStdout reactor
      else if (Reactor.translate raw).error then do return (← d.dropOut isStdout reactor, .ok ())
      else return (d, .ok ())) : Serves reactor d raw (outStream isStdout) slot := by
  unfold Serves
  rw [same]
  split
  · exact ⟨handleOutReady_issues_of reactor (concerns_of_filled filled), fun t d' result run s' other =>
      outServed_others (exec_handleOutReady_done run) other⟩
  · split
    · refine ⟨.bind (dropOut_issues_of reactor (concerns_of_filled filled)) fun _ => trivial,
        fun t d' result run s' other => ?_⟩
      obtain ⟨first, drain, second, rfl, dropped, returned⟩ := exec_bind_done.mp run
      cases ((exec_pure_iff _ _ _).mp returned).2
      rw [(exec_dropOut_done filled dropped).2, slotOf_clearOut, if_neg other]
    · refine ⟨trivial, fun t d' result run s' other => ?_⟩
      cases ((exec_pure_iff _ _ _).mp run).2
      rfl

theorem serves_stdin (filled : d.stdinSlot = some slot)
    (same : handleEvent reactor d (Reactor.translate raw) =
      if (Reactor.translate raw).writable then d.handleStdinWritable reactor
      else if (Reactor.translate raw).error then do return (← d.dropStdin reactor, .ok ())
      else return (d, .ok ())) : Serves reactor d raw .stdin slot := by
  unfold Serves
  rw [same]
  split
  · exact ⟨handleStdinWritable_issues_of reactor (concerns_of_filled filled), fun t d' result run s' other =>
      stdinServed_others (exec_handleStdinWritable_done run) other⟩
  · split
    · refine ⟨.bind (dropStdin_issues_of reactor (concerns_of_filled filled)) fun _ => trivial,
        fun t d' result run s' other => ?_⟩
      obtain ⟨first, drain, second, rfl, dropped, returned⟩ := exec_bind_done.mp run
      cases ((exec_pure_iff _ _ _).mp returned).2
      rw [(exec_dropStdin_done filled dropped).2]
      cases s' with
      | stdin => exact absurd rfl other
      | stdout | stderr => rfl
    · refine ⟨trivial, fun t d' result run s' other => ?_⟩
      cases ((exec_pure_iff _ _ _).mp run).2
      rfl

theorem handleEvent_serves (reactor : Reactor) (apart : Apart d) (raw : EpollEvent) :
    (∀ s slot, d.slotOf s = some slot → slot.token = some ⟨raw.data⟩ → Serves reactor d raw s slot) ∧
    ((∀ s, slotMatches (d.slotOf s) ⟨raw.data⟩ = false) →
      handleEvent reactor d (Reactor.translate raw) = pure (d, .ok ())) := by
  constructor
  · intro s slot filled own
    have here : slotMatches (d.slotOf s) ⟨raw.data⟩ = true := slotMatches_iff.mpr ⟨slot, filled, own⟩
    have elsewhere : ∀ s', s' ≠ s → ¬slotMatches (d.slotOf s') ⟨raw.data⟩ = true := by
      intro s' other found
      obtain ⟨slot', filled', own'⟩ := slotMatches_iff.mp found
      exact other (apart s' s slot' slot _ filled' filled own' own)
    cases s with
    | stdout =>
      apply @serves_out _ _ _ _ true filled
      exact if_pos here
    | stderr =>
      apply @serves_out _ _ _ _ false filled
      exact (if_neg (elsewhere .stdout (by decide))).trans (if_pos here)
    | stdin =>
      apply serves_stdin filled
      exact (if_neg (elsewhere .stdout (by decide))).trans
        ((if_neg (elsewhere .stderr (by decide))).trans (if_pos here))
  · intro nowhere
    have stdout : ¬d.stdoutMatches ⟨raw.data⟩ = true := Bool.eq_false_iff.mp (nowhere .stdout)
    have stderr : ¬d.stderrMatches ⟨raw.data⟩ = true := Bool.eq_false_iff.mp (nowhere .stderr)
    have stdin : ¬d.stdinMatches ⟨raw.data⟩ = true := Bool.eq_false_iff.mp (nowhere .stdin)
    exact (if_neg stdout).trans ((if_neg stderr).trans (if_neg stdin))

end

def Reported (epfd : Nat) (t : Trace) (raw : EpollEvent) : Prop :=
  ∃ before after maxEvents timeout answer,
    t = before ++ ⟨.epollWait epfd maxEvents timeout, .ok answer⟩ :: after ∧ raw ∈ answer.val

/-- The kernel reports only what was registered, though perhaps long ago and for a descriptor that is closed. -/
def Honest (epfd : Nat) (t : Trace) : Prop :=
  ∀ before after maxEvents timeout answer,
    t = before ++ ⟨.epollWait epfd maxEvents timeout, .ok answer⟩ :: after →
      ∀ raw ∈ answer.val, ∃ entry ∈ entries epfd before, entry.token = raw.data

structure Directed (p₀ : Point) (t : Trace) (p : Point) : Prop where
  distinct : ((entries p₀.reactor.epfd t).map Entry.token).Nodup
  one : ∀ s s' token, slotMatches (p.drain.slotOf s) token = true → slotMatches (p.drain.slotOf s') token = true →
    s = s'
  source : ∀ raw, Reported p₀.reactor.epfd t raw → ∃ entry ∈ entries p₀.reactor.epfd t, entry.token = raw.data ∧
    (∀ other ∈ entries p₀.reactor.epfd t, other.token = raw.data → other = entry) ∧
    ∀ s slot, p.drain.slotOf s = some slot → slot.token = some ⟨raw.data⟩ → entry = ⟨slot.fd.raw, interest s, raw.data⟩
  dropped : ∀ t₁ t₂ t₃ p₁ p₂, t = t₁ ++ (t₂ ++ t₃) → Later p₀ t₁ p₁ → Later p₁ t₂ p₂ → Later p₂ t₃ p →
    ∀ s slot token, p₁.drain.slotOf s = some slot → slot.token = some token → p₂.drain.slotOf s = none →
      ∀ s', slotMatches (p.drain.slotOf s') token = false
  served : ∀ raw s slot, p.drain.slotOf s = some slot → slot.token = some ⟨raw.data⟩ →
    Serves p.reactor p.drain raw s slot
  passed : ∀ raw, (∀ s, slotMatches (p.drain.slotOf s) ⟨raw.data⟩ = false) →
    handleEvent p.reactor p.drain (Reactor.translate raw) = pure (p.drain, .ok ())

section
variable {p₀ p₁ p₂ p : Point} {t t₁ t₂ t₃ : Trace}

theorem not_matches_of_dropped (first : Turns p₀ t₁ p₁) (second : Turns p₁ t₂ p₂) (third : Turns p₂ t₃ p)
    (unregistered : Unregistered p₀.drain) (distinct : (attempts p₀.reactor.epfd (t₁ ++ (t₂ ++ t₃))).Nodup)
    {s : Stream} {slot : FdSlot} {token : Token} (filled : p₁.drain.slotOf s = some slot)
    (own : slot.token = some token) (empty : p₂.drain.slotOf s = none) (s' : Stream) :
    slotMatches (p.drain.slotOf s') token = false := by
  rw [attempts_append, attempts_append, List.nodup_append', List.disjoint_append_right] at distinct
  obtain ⟨early, _, notSecond, notThird⟩ := distinct
  have used := mem_attempts (first.mem_of_own unregistered filled own)
  by_contra found
  obtain ⟨slot', filled', own'⟩ := slotMatches_iff.mp (Bool.not_eq_false _ ▸ found)
  have atSecond : p₂.drain.slotOf s' = some slot' := by
    rcases third.slots filled' own' with before | later
    · exact before
    · have again := mem_attempts later
      rw [second.epfd, first.epfd] at again
      exact absurd again (notThird used)
  have atFirst : p₁.drain.slotOf s' = some slot' := by
    rcases second.slots atSecond own' with before | later
    · exact before
    · have again := mem_attempts later
      rw [first.epfd] at again
      exact absurd again (notSecond used)
  have same := first.apart unregistered early s s' slot slot' token filled atFirst own own'
  rw [← same, empty] at atSecond
  cases atSecond

/-- Tokens tell the registrations apart, and each event goes to the slot that was registered for it. -/
theorem events_reach_their_slots (begins : Begins p₀) (history : Later p₀ t p)
    (few : (attempts p₀.reactor.epfd t).length < 2 ^ 64 - 1) (honest : Honest p₀.reactor.epfd t) : Directed p₀ t p := by
  have turns := history.turns
  have unregistered := begins.unregistered
  have distinct := nodup_attempts turns begins.first few
  have tokens := distinct.sublist (entries_sublist p₀.reactor.epfd t)
  have apart := turns.apart unregistered distinct
  refine ⟨tokens, fun s s' token found found' => ?_, fun raw reported => ?_, ?_, fun raw s slot filled own => ?_,
    fun raw nowhere => ?_⟩
  · obtain ⟨slot, filled, own⟩ := slotMatches_iff.mp found
    obtain ⟨slot', filled', own'⟩ := slotMatches_iff.mp found'
    exact apart s s' slot slot' token filled filled' own own'
  · obtain ⟨before, after, maxEvents, timeout, answer, split, member⟩ := reported
    obtain ⟨entry, registered, same⟩ := honest before after maxEvents timeout answer split raw member
    have inside : entry ∈ entries p₀.reactor.epfd t := by
      rw [split, entries_append]
      exact List.mem_append_left _ registered
    have unique : ∀ other ∈ entries p₀.reactor.epfd t, other.token = raw.data → other = entry :=
      fun other there token =>
      List.inj_on_of_nodup_map tokens there inside (token.trans same.symm)
    refine ⟨entry, inside, same, unique, fun s slot filled own => ?_⟩
    exact (unique _ (turns.mem_of_own unregistered filled own) rfl).symm
  · rintro t₁ t₂ t₃ p₁ p₂ rfl first second third s slot token filled own empty s'
    exact not_matches_of_dropped first.turns second.turns third.turns unregistered distinct filled own empty s'
  · exact (handleEvent_serves p.reactor apart raw).1 s slot filled own
  · exact (handleEvent_serves p.reactor apart raw).2 nowhere

end

theorem Honest.quiet {epfd : Nat} (honest : Honest epfd t)
    (silent : ∀ e ∈ t₁, ∀ maxEvents timeout, e.call ≠ .epollWait epfd maxEvents timeout) : Honest epfd (t ++ t₁) := by
  intro before after maxEvents timeout answer split raw member
  rcases List.append_eq_append_iff.mp split with ⟨u, rfl, same⟩ | ⟨u, rfl, same⟩
  · exact absurd rfl (silent _ (same ▸ List.mem_append_right _ (List.mem_cons_self ..)) maxEvents timeout)
  · cases u with
    | nil => exact absurd rfl (silent _ (same ▸ List.mem_cons_self ..) maxEvents timeout)
    | cons e u =>
      obtain ⟨rfl, -⟩ := List.cons_eq_cons.mp same
      exact honest before u maxEvents timeout answer rfl raw member

theorem Honest.wait {epfd maxEvents : Nat} {timeout : Int}
    {answer : { events : List EpollEvent // events.length ≤ maxEvents }} (honest : Honest epfd t)
    (known : ∀ raw ∈ answer.val, ∃ entry ∈ entries epfd t, entry.token = raw.data) :
    Honest epfd (t ++ [⟨.epollWait epfd maxEvents timeout, .ok answer⟩]) := by
  intro before after maxEvents' timeout' answer' split raw member
  rcases List.append_eq_append_iff.mp split with ⟨u, rfl, same⟩ | ⟨u, rfl, same⟩
  · cases u with
    | nil =>
      cases same
      rw [List.append_nil]
      exact known raw member
    | cons e u =>
      have size := congrArg List.length same
      simp at size
  · cases u with
    | nil =>
      cases same
      rw [List.append_nil] at known
      exact known raw member
    | cons e u =>
      obtain ⟨rfl, -⟩ := List.cons_eq_cons.mp same
      exact honest before u maxEvents' timeout' answer' rfl raw member

def begun (stdout stderr : Nat) : Point where
  reactor := Reactor.fresh
  drain := ⟨some ⟨none, ⟨stdout⟩⟩, some ⟨none, ⟨stderr⟩⟩, none, .new 16, .new none, false⟩

def flagged (stdout stderr : Nat) : Trace :=
  [⟨.fcntlGetFl stdout, .ok 0⟩, ⟨.fcntlSetFl stdout (0 ||| O_NONBLOCK), .ok ()⟩, ⟨.fcntlGetFl stderr, .ok 0⟩,
    ⟨.fcntlSetFl stderr (0 ||| O_NONBLOCK), .ok ()⟩]

theorem exec_flagged (stdout stderr : Nat) : Exec (DrainState.new none none (some ⟨stdout⟩) (some ⟨stderr⟩) 16 false)
    (flagged stdout stderr) (.done (.ok (begun stdout stderr).drain)) :=
  .call _ (.call _ (.call _ (.call _ (.ret _))))

/-- Both streams are registered. Stdout ends, which the first wait reports, and its slot is dropped. -/
def stdoutEnds : Trace :=
  [⟨.epollCtlAdd 3 5 (interest .stdout) 1, .ok ()⟩, ⟨.epollCtlAdd 3 6 (interest .stderr) 2, .ok ()⟩] ++
    [⟨.epollWait 3 64 (-1), .ok ⟨[⟨EPOLLHUP, 1⟩], by decide⟩⟩] ++
    [⟨.read 5 16, .ok ⟨[], by decide⟩⟩, ⟨.epollCtlDel 3 5, .ok ()⟩, ⟨.close 5, .ok ()⟩]

/-- The next drain has the descriptor 5 again. A late report of the first one arrives with one of its own. -/
def reused : Trace :=
  stdoutEnds ++ flagged 5 7 ++
    [⟨.epollCtlAdd 3 5 (interest .stdout) 3, .ok ()⟩, ⟨.epollCtlAdd 3 7 (interest .stderr) 4, .ok ()⟩] ++
    [⟨.epollWait 3 64 (-1), .ok ⟨[⟨EPOLLIN, 1⟩, ⟨EPOLLIN, 3⟩], by decide⟩⟩]

theorem honest_reused : Honest 3 reused := by
  have nothing : Honest 3 [] := by
    intro before after maxEvents timeout answer split
    cases before <;> cases split
  have registered : Honest 3 (stdoutEnds.take 2) := nothing.quiet (by simp)
  have reported : Honest 3 (stdoutEnds.take 3) := by
    refine @Honest.wait (stdoutEnds.take 2) 3 64 (-1) ⟨[⟨EPOLLHUP, 1⟩], by decide⟩ registered ?_
    simp [entries, entryBy, stdoutEnds]
  have later : Honest 3 (stdoutEnds.take 3 ++ (reused.drop 3).take 9) :=
    reported.quiet (by simp [reused, stdoutEnds, flagged])
  refine @Honest.wait (reused.take 12) 3 64 (-1) ⟨[⟨EPOLLIN, 1⟩, ⟨EPOLLIN, 3⟩], by decide⟩ later ?_
  simp [entries, entryBy, reused, stdoutEnds, flagged]

def holding (next : UInt64) (events : List EpollEvent) (stdout stderr : Option FdSlot) : Point where
  reactor := { Reactor.fresh with nextToken := next, eventsBuf := ⟨events, 64⟩ }
  drain := { (begun 5 6).drain with stdoutSlot := stdout, stderrSlot := stderr }

def afterReuse : Point := holding 5 [⟨EPOLLIN, 1⟩, ⟨EPOLLIN, 3⟩] (some ⟨some ⟨3⟩, ⟨5⟩⟩) (some ⟨some ⟨4⟩, ⟨7⟩⟩)

theorem later_reused : Later (begun 5 6) reused afterReuse := by
  have registered : Step (begun 5 6) (stdoutEnds.take 2)
      (holding 3 [] (some ⟨some ⟨1⟩, ⟨5⟩⟩) (some ⟨some ⟨2⟩, ⟨6⟩⟩)) := .register (.of_replay 1 rfl)
  have reported : Step (holding 3 [] (some ⟨some ⟨1⟩, ⟨5⟩⟩) (some ⟨some ⟨2⟩, ⟨6⟩⟩)) ((stdoutEnds.drop 2).take 1)
      (holding 3 [⟨EPOLLHUP, 1⟩] (some ⟨some ⟨1⟩, ⟨5⟩⟩) (some ⟨some ⟨2⟩, ⟨6⟩⟩)) :=
    @Step.wait (holding 3 [] (some ⟨some ⟨1⟩, ⟨5⟩⟩) (some ⟨some ⟨2⟩, ⟨6⟩⟩)) ⟨[], 64⟩
      ⟨[⟨⟨1⟩, true, true, true⟩], 64⟩ 64 (-1) _ _ (.ok 1) (.of_replay 1 rfl)
  have served : Step (holding 3 [⟨EPOLLHUP, 1⟩] (some ⟨some ⟨1⟩, ⟨5⟩⟩) (some ⟨some ⟨2⟩, ⟨6⟩⟩))
      (stdoutEnds.drop 3) (holding 3 [⟨EPOLLHUP, 1⟩] none (some ⟨some ⟨2⟩, ⟨6⟩⟩)) :=
    @Step.handle _ ⟨EPOLLHUP, 1⟩ _ _ (.ok ()) (.of_replay 5 rfl)
  have replaced : Step (holding 3 [⟨EPOLLHUP, 1⟩] none (some ⟨some ⟨2⟩, ⟨6⟩⟩)) (flagged 5 7)
      (holding 3 [⟨EPOLLHUP, 1⟩] (some ⟨none, ⟨5⟩⟩) (some ⟨none, ⟨7⟩⟩)) := .replace (exec_flagged 5 7)
  have again : Step (holding 3 [⟨EPOLLHUP, 1⟩] (some ⟨none, ⟨5⟩⟩) (some ⟨none, ⟨7⟩⟩))
      ((reused.drop 10).take 2)
      (holding 5 [⟨EPOLLHUP, 1⟩] (some ⟨some ⟨3⟩, ⟨5⟩⟩) (some ⟨some ⟨4⟩, ⟨7⟩⟩)) :=
    .register (.of_replay 1 rfl)
  have late : Step (holding 5 [⟨EPOLLHUP, 1⟩] (some ⟨some ⟨3⟩, ⟨5⟩⟩) (some ⟨some ⟨4⟩, ⟨7⟩⟩))
      (reused.drop 12) afterReuse :=
    @Step.wait (holding 5 [⟨EPOLLHUP, 1⟩] (some ⟨some ⟨3⟩, ⟨5⟩⟩) (some ⟨some ⟨4⟩, ⟨7⟩⟩)) ⟨[], 64⟩
      ⟨[⟨⟨1⟩, true, false, false⟩, ⟨⟨3⟩, true, false, false⟩], 64⟩ 64 (-1) _ _ (.ok 2) (.of_replay 1 rfl)
  exact (((((Later.start.step registered).step reported).step served).step replaced).step again).step late

theorem first_event_directed : Directed (begun 5 6) reused afterReuse := by
  have few : (attempts 3 reused).length < 2 ^ 64 - 1 := by
    show 4 < 2 ^ 64 - 1
    omega
  have begins : Begins (begun 5 6) := ⟨⟨_, Reactor.exec_fresh⟩, _, _, _, _, _, _, _, exec_flagged 5 6⟩
  exact events_reach_their_slots begins later_reused few honest_reused

end CoreShift.Routing
