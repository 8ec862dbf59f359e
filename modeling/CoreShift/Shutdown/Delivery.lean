import Mathlib.Logic.Function.Basic
import CoreShift.Interaction.Replay
import CoreShift.Shutdown.Install

namespace CoreShift.Shutdown

open Interaction

variable {D A : Type}

structure Process (D A : Type) where
  dispositions : Int → Disposition D
  shutdownFlagPtr : Option A
  flags : A → Bool

inductive Moment (D A : Type) where
  | exchange (e : Event (signals D A))
  | signal (sig : Int)

def Moment.event : Moment D A → Option (Event (signals D A))
  | .exchange e => some e
  | .signal _ => none

def exchanges (moments : List (Moment D A)) : List (Event (signals D A)) := moments.filterMap Moment.event

def Disposition.after (left : D → D) : Disposition D → Disposition D
  | .shutdown => .shutdown
  | .other d => .other (left d)

namespace Process

variable [DecidableEq A]

def shutdownSignalHandler (P : Process D A) : Process D A :=
  match P.shutdownFlagPtr with
  | none => P
  | some flag => { P with flags := Function.update P.flags flag true }

def shutdownRequested (P : Process D A) (flag : A) : Bool := P.flags flag

def handle (P : Process D A) (sig : Int) : Process D A :=
  match P.dispositions sig with
  | .shutdown => P.shutdownSignalHandler
  | .other _ => P

/-- A signal runs its disposition, and `left` says what stays set up after that: the same, or the
    default one where `SA_RESETHAND` was given. -/
def deliver (left : D → D) (P : Process D A) (sig : Int) : Process D A :=
  { P.handle sig with
    dispositions := Function.update P.dispositions sig ((P.dispositions sig).after left) }

inductive Step (left : D → D) : Process D A → Moment D A → Process D A → Prop where
  | sigaction (P : Process D A) (sig : Int) (action : Disposition D) :
      Step left P (.exchange ⟨.sigaction sig action, .ok (P.dispositions sig)⟩)
        { P with dispositions := Function.update P.dispositions sig action }
  | refused (P : Process D A) (sig : Int) (action : Disposition D) (e : Errno) :
      Step left P (.exchange ⟨.sigaction sig action, .error e⟩) P
  | store (P : Process D A) (flag : A) :
      Step left P (.exchange ⟨.store flag, ()⟩) { P with shutdownFlagPtr := some flag }
  | signal (P : Process D A) (sig : Int) : Step left P (.signal sig) (P.deliver left sig)

inductive Run (left : D → D) (P₀ : Process D A) : List (Moment D A) → Process D A → Prop where
  | nil : Run left P₀ [] P₀
  | snoc {moments : List (Moment D A)} {P P' : Process D A} {m : Moment D A} (past : Run left P₀ moments P)
      (last : Step left P m P') : Run left P₀ (moments ++ [m]) P'

end Process

/-- What was set up for a signal at first, or what its deliveries have left of that. -/
def Original (left : D → D) (P₀ : Process D A) (sig : Int) (action : Disposition D) : Prop :=
  ∃ d n, P₀.dispositions sig = .other d ∧ action = .other (left^[n] d)

def Known (left : D → D) (P₀ : Process D A) (sig : Int) (action : Disposition D) : Prop :=
  action = .shutdown ∨ Original left P₀ sig action

/-- The signal runs what was set up for it before the handler, or raises, for good, a flag that was
    passed to an installation. -/
def Heeded [DecidableEq A] (left : D → D) (flags : List A) (P₀ P P' : Process D A) (sig : Int) : Prop :=
  Original left P₀ sig (P.dispositions sig) ∨
    ∃ flag, (flag ∈ flags ∨ P₀.shutdownFlagPtr = some flag) ∧
      (P.deliver left sig).shutdownRequested flag = true ∧ P'.shutdownRequested flag = true

theorem Known.after {left : D → D} {P₀ : Process D A} {sig : Int} {action : Disposition D}
    (known : Known left P₀ sig action) : Known left P₀ sig (action.after left) := by
  rcases known with same | ⟨d, n, first, same⟩
  · exact .inl (by rw [same]; rfl)
  · refine .inr ⟨d, n + 1, first, ?_⟩
    rw [same, Function.iterate_succ_apply']
    rfl

theorem Known.update {left : D → D} {P₀ P : Process D A} {sig : Int} {action : Disposition D}
    (known : ∀ sig', Known left P₀ sig' (P.dispositions sig')) (new : Known left P₀ sig action) (sig' : Int) :
    Known left P₀ sig' (Function.update P.dispositions sig action sig') := by
  by_cases same : sig' = sig
  · subst same
    rw [Function.update_self]
    exact new
  · rw [Function.update_of_ne same]
    exact known sig'

theorem exchanges_append (moments moments' : List (Moment D A)) :
    exchanges (moments ++ moments') = exchanges moments ++ exchanges moments' :=
  List.filterMap_append

theorem mem_exchanges_snoc {moments : List (Moment D A)} {m : Moment D A} {e : Event (signals D A)} :
    e ∈ exchanges (moments ++ [m]) ↔ e ∈ exchanges moments ∨ m = .exchange e := by
  rw [exchanges_append, List.mem_append]
  cases m <;> simp [exchanges, Moment.event, eq_comm]

/-- An action other than the handler is only set up where an earlier call has reported it. -/
def Reported (t : List (Event (signals D A))) : Prop :=
  ∀ sig d, Guarded (fun before => ∃ action, ⟨.sigaction sig action, .ok (.other d)⟩ ∈ before)
    (fun e => e.call = .sigaction sig (.other d)) t

theorem Reported.append {t t' : List (Event (signals D A))} (first : Reported t) (second : Reported t') :
    Reported (t ++ t') := by
  intro sig d
  rw [guarded_append]
  refine ⟨first sig d, (second sig d).mono fun before ready => ?_⟩
  obtain ⟨action, member⟩ := ready
  exact ⟨action, List.mem_append_right t member⟩

theorem Stage.reported {flag : A} {t : List (Event (signals D A))}
    {o : Outcome (signals D A) (Except SysError Unit)} (stage : Stage flag t o) : Reported t := by
  intro sig d
  cases stage <;> simp only [guarded_cons, guarded_nil, Request.sigaction.injEq, reduceCtorEq, and_false,
    false_implies, true_and, and_true]
  all_goals
    intro same
    refine ⟨.shutdown, ?_⟩
    simp [same.1, same.2]

theorem Stage.stores {flag flag' : A} {t : List (Event (signals D A))}
    {o : Outcome (signals D A) (Except SysError Unit)} (stage : Stage flag t o)
    (stored : ⟨.store flag', ()⟩ ∈ t) : flag' = flag := by
  cases stage <;> simp at stored
  exact stored

theorem exec_installAll {flags : List A} {t : List (Event (signals D A))}
    {o : Outcome (signals D A) (List (Except SysError Unit))} (run : Exec (installAll flags) t o) :
    ∃ calls : List (List (Event (signals D A))), t = calls.flatten ∧
      ∀ call ∈ calls, ∃ flag ∈ flags, ∃ o', Stage flag call o' := by
  induction flags generalizing t o with
  | nil =>
    have quiet := (exec_pure_iff _ _ _).mp run
    exact ⟨[], quiet.1, by simp⟩
  | cons flag flags ih =>
    unfold installAll at run
    rcases exec_bind_cases run with ⟨c, _, stopped⟩ | ⟨used, value, rest, same, whole, more⟩
    · refine ⟨[t], by simp, fun call member => ⟨flag, by simp, .waiting c, ?_⟩⟩
      rw [List.mem_singleton.mp member]
      exact exec_installShutdownFlag stopped
    · have tail : ∃ o', Exec (installAll flags) rest o' := by
        rcases exec_bind_cases more with ⟨c, _, stopped⟩ | ⟨t', results, none, same', later, last⟩
        · exact ⟨_, stopped⟩
        · have quiet := (exec_pure_iff _ _ _).mp last
          rw [quiet.1, List.append_nil] at same'
          exact ⟨_, same' ▸ later⟩
      obtain ⟨o', tail⟩ := tail
      obtain ⟨calls, flat, each⟩ := ih tail
      refine ⟨used :: calls, by rw [same, flat, List.flatten_cons], fun call member => ?_⟩
      rcases List.mem_cons.mp member with here | there
      · exact ⟨flag, by simp, .done value, here ▸ exec_installShutdownFlag whole⟩
      · obtain ⟨flag', listed, stage⟩ := each call there
        exact ⟨flag', List.mem_cons_of_mem flag listed, stage⟩

theorem installAll_reported {flags : List A} {t : List (Event (signals D A))}
    {o : Outcome (signals D A) (List (Except SysError Unit))} (run : Exec (installAll flags) t o) :
    Reported t := by
  obtain ⟨calls, flat, each⟩ := exec_installAll run
  rw [flat]
  clear flat
  induction calls with
  | nil =>
    intro sig d
    exact guarded_nil _ _
  | cons call calls ih =>
    obtain ⟨flag, _, o', stage⟩ := each call (by simp)
    exact stage.reported.append (ih fun call' member => each call' (List.mem_cons_of_mem call member))

theorem installAll_stores {flags : List A} {flag : A} {t : List (Event (signals D A))}
    {o : Outcome (signals D A) (List (Except SysError Unit))} (run : Exec (installAll flags) t o)
    (stored : ⟨.store flag, ()⟩ ∈ t) : flag ∈ flags := by
  obtain ⟨calls, flat, each⟩ := exec_installAll run
  rw [flat] at stored
  obtain ⟨call, member, here⟩ := List.mem_flatten.mp stored
  obtain ⟨flag', listed, o', stage⟩ := each call member
  rw [stage.stores here]
  exact listed

namespace Process

variable [DecidableEq A]

theorem handle_shutdownFlagPtr (P : Process D A) (sig : Int) :
    (P.handle sig).shutdownFlagPtr = P.shutdownFlagPtr := by
  unfold handle shutdownSignalHandler
  split <;> try split
  all_goals rfl

theorem Run.published {left : D → D} {P₀ P : Process D A} {moments : List (Moment D A)}
    (run : Run left P₀ moments P) :
    (∀ flag, P.shutdownFlagPtr = some flag →
      P₀.shutdownFlagPtr = some flag ∨ ⟨.store flag, ()⟩ ∈ exchanges moments) ∧
    (P.shutdownFlagPtr = none →
      P₀.shutdownFlagPtr = none ∧ ∀ flag, ⟨.store flag, ()⟩ ∉ exchanges moments) := by
  induction run with
  | nil => exact ⟨fun flag here => .inl here, fun null => ⟨null, fun flag => List.not_mem_nil⟩⟩
  | snoc past last ih =>
    simp only [mem_exchanges_snoc]
    cases last with
    | sigaction sig action => simpa using ih
    | refused sig action e => simpa using ih
    | store flag =>
      refine ⟨fun flag' here => .inr (.inr ?_), fun null => by cases null⟩
      cases here
      rfl
    | signal sig => simpa [deliver, handle_shutdownFlagPtr] using ih

theorem Step.keeps {left : D → D} {P P' : Process D A} {m : Moment D A} {flag : A} (step : Step left P m P')
    (raised : P.flags flag = true) : P'.flags flag = true := by
  cases step with
  | sigaction sig action => exact raised
  | refused sig action e => exact raised
  | store flag => exact raised
  | signal sig =>
    unfold deliver handle shutdownSignalHandler
    split
    · split
      · exact raised
      · rename_i flag' _
        by_cases same : flag = flag'
        · simp [same]
        · simpa [same] using raised
    · exact raised

theorem Run.keeps {left : D → D} {P P' : Process D A} {moments : List (Moment D A)} {flag : A}
    (run : Run left P moments P') (raised : P.flags flag = true) : P'.flags flag = true := by
  induction run with
  | nil => exact raised
  | snoc past last ih => exact last.keeps ih

theorem Run.known {left : D → D} {P₀ P : Process D A} {moments : List (Moment D A)}
    (run : Run left P₀ moments P) (reported : Reported (exchanges moments)) :
    (∀ sig, Known left P₀ sig (P.dispositions sig)) ∧
      ∀ sig action action', ⟨.sigaction sig action, .ok action'⟩ ∈ exchanges moments → Known left P₀ sig action' := by
  induction run with
  | nil =>
    refine ⟨fun sig => ?_, fun sig action action' member => absurd member List.not_mem_nil⟩
    cases first : P₀.dispositions sig with
    | shutdown => exact .inl rfl
    | other d => exact .inr ⟨d, 0, first, rfl⟩
  | @snoc moments P P' m past last ih =>
    have earlier := ih fun sig d => (guarded_append.mp (exchanges_append moments [m] ▸ reported sig d)).1
    refine ⟨?_, fun sig action action' member => ?_⟩
    · cases last with
      | sigaction sig action =>
        have new : Known left P₀ sig action := by
          cases action with
          | shutdown => exact .inl rfl
          | other d =>
            rw [exchanges_append] at reported
            obtain ⟨action', member⟩ := reported sig d _ _ [] rfl rfl
            exact earlier.2 sig action' _ member
        exact Known.update earlier.1 new
      | refused sig action e => exact earlier.1
      | store flag => exact earlier.1
      | signal sig => exact Known.update earlier.1 (earlier.1 sig).after
    · rcases mem_exchanges_snoc.mp member with before | here
      · exact earlier.2 sig action action' before
      · subst here
        cases last
        exact earlier.1 sig

theorem deliver_raises {left : D → D} {P : Process D A} {sig : Int} {flag : A}
    (handled : P.dispositions sig = .shutdown) (published : P.shutdownFlagPtr = some flag) :
    (P.deliver left sig).flags flag = true := by
  simp [deliver, handle, handled, shutdownSignalHandler, published]

theorem deliver_null {left : D → D} {P : Process D A} {sig : Int}
    (handled : P.dispositions sig = .shutdown) (null : P.shutdownFlagPtr = none) :
    P.deliver left sig = P := by
  have same : Function.update P.dispositions sig .shutdown = P.dispositions := by
    rw [← handled, Function.update_eq_self]
  simp only [deliver, handle, handled, shutdownSignalHandler, null, Disposition.after, same]
  rw [← null]

end Process

/-- A signal is lost only while the handler is in place and no flag has been published at all. -/
theorem signal_heeded [DecidableEq A] {left : D → D} {flags : List A} (before after : List (Moment D A))
    {sig : Int} {o : Outcome (signals D A) (List (Except SysError Unit))} {P₀ P P' : Process D A}
    (run : Exec (installAll flags) (exchanges (before ++ .signal sig :: after)) o)
    (first : Process.Run left P₀ before P) (rest : Process.Run left (P.deliver left sig) after P') :
    Heeded left flags P₀ P P' sig ∨
      (P.dispositions sig = .shutdown ∧ P.deliver left sig = P ∧ P₀.shutdownFlagPtr = none ∧
        ∀ flag, ⟨.store flag, ()⟩ ∉ exchanges before) := by
  rw [exchanges_append] at run
  have reported : Reported (exchanges before) :=
    fun sig d => (guarded_append.mp (installAll_reported run sig d)).1
  have published := first.published
  rcases (first.known reported).1 sig with handled | original
  · cases pointer : P.shutdownFlagPtr with
    | none => exact .inr ⟨handled, Process.deliver_null handled pointer, published.2 pointer⟩
    | some flag =>
      have raised : (P.deliver left sig).flags flag = true := Process.deliver_raises handled pointer
      have passed : flag ∈ flags ∨ P₀.shutdownFlagPtr = some flag := by
        rcases published.1 flag pointer with initial | stored
        · exact .inr initial
        · exact .inl (installAll_stores run (List.mem_append_left _ stored))
      exact .inl (.inr ⟨flag, passed, raised, rest.keeps raised⟩)
  · exact .inl (.inl original)

def fresh : Process Unit Unit := ⟨fun _ => .other (), none, fun _ => false⟩

def halfInstalled : Process Unit Unit :=
  { fresh with dispositions := Function.update fresh.dispositions SIGINT .shutdown }

def installed : Process Unit Unit :=
  ⟨Function.update halfInstalled.dispositions SIGTERM .shutdown, some (), fresh.flags⟩

theorem terminate_heeded : Heeded id [()] fresh installed (installed.deliver id SIGTERM) SIGTERM ∨
    (installed.dispositions SIGTERM = .shutdown ∧ installed.deliver id SIGTERM = installed ∧
      fresh.shutdownFlagPtr = none ∧
      ∀ flag, ⟨.store flag, ()⟩ ∉ exchanges [.exchange ⟨.sigaction SIGINT .shutdown, .ok (.other ())⟩,
        .exchange ⟨.sigaction SIGTERM .shutdown, .ok (.other ())⟩, .exchange ⟨.store (), ()⟩]) :=
  signal_heeded
    [.exchange ⟨.sigaction SIGINT .shutdown, .ok (.other ())⟩,
      .exchange ⟨.sigaction SIGTERM .shutdown, .ok (.other ())⟩, .exchange ⟨.store (), ()⟩] []
    (.of_replay 1 rfl) (.snoc (.snoc (.snoc .nil (.sigaction ..)) (.sigaction ..)) (.store ..)) .nil

/-- An interrupt right after the first `sigaction` of a call that goes on to succeed: the handler
    finds no flag, and none is ever raised for it. -/
theorem early_interrupt_lost : ∃ (before after : List (Moment Unit Unit)) (P P' : Process Unit Unit),
    Exec (installAll [()]) (exchanges (before ++ .signal SIGINT :: after)) (.done [.ok ()]) ∧
      Process.Run id fresh before P ∧ Process.Run id (P.deliver id SIGINT) after P' ∧
      ¬Heeded id [()] fresh P P' SIGINT := by
  refine ⟨[.exchange ⟨.sigaction SIGINT .shutdown, .ok (.other ())⟩],
    [.exchange ⟨.sigaction SIGTERM .shutdown, .ok (.other ())⟩, .exchange ⟨.store (), ()⟩], halfInstalled, _,
    .of_replay 1 rfl, .snoc .nil (.sigaction ..), .snoc (.snoc .nil (.sigaction ..)) (.store ..), ?_⟩
  intro heeded
  rcases heeded with ⟨d, n, _, original⟩ | ⟨flag, _, _, raised⟩
  · cases original
  · cases raised

end CoreShift.Shutdown
