import CoreShift.Kernel.Channel
import CoreShift.Spawn.Stdio

namespace CoreShift

open Interaction Descriptors

def PIPE_BUF : Nat := 4096

/-- What a descriptor refers to: an end of a pipe that this `spawn` made, or something older. -/
inductive File where
  | readEnd (pipe : Nat)
  | writeEnd (pipe : Nat)
  | other (id : Nat)
  deriving DecidableEq, Repr

def endOf (k : Nat) : Channel.Op UInt8 → File
  | .read _ => .readEnd k
  | .write _ => .writeEnd k

def otherEnd (k : Nat) : Channel.Op UInt8 → File
  | .read _ => .writeEnd k
  | .write _ => .readEnd k

abbrev Channels := Nat → Option (Channel UInt8)

/-- The parent with what it has exchanged so far, the child once its program has begun, and the pipes
    between them. -/
structure World where
  past : Trace
  table : Table File
  child : Option (Table File)
  pipes : Channels

/-- What happens next: an exchange of the parent, a call of the child on one of its standard
    descriptors, with the world it is made in, or a close of the child. -/
inductive Happening where
  | parent (e : Event os)
  | child (W : World) (fd : Nat) (op : Channel.Op UInt8) (answer : Channel.Answer UInt8)
  | close (fd : Nat)

namespace World

def start (T : Table Nat) : World :=
  ⟨[], fun n => (T n).map fun e => ⟨.other e.file, e.cloexec⟩, none, fun _ => none⟩

def Opened (W : World) (f : File) : Prop :=
  ∃ fd, W.table.file fd = some f ∨ ∃ T, W.child = some T ∧ T.file fd = some f

def Stalls (W : World) (fd : Nat) (op : Channel.Op UInt8) : Prop :=
  ∃ T k c, W.child = some T ∧ T.file fd = some (endOf k op) ∧ W.pipes k = some c ∧
    c.Stalls PIPE_BUF (W.Opened (otherEnd k op)) op

inductive Begins (platform : Platform) (opts : SpawnOptions) (W : World) :
    Event os → Option (Table File) → Prop where
  | posixSpawn {path : CString} {actions : List FileAction} {attr : SpawnAttr} {argv : List CStrPtr}
      {envp : Option (List CStrPtr)} {pid : Int} {T : Table File}
      (applied : SpawnPosix.applyActions W.table actions = some T) :
      Begins platform opts W ⟨.posixSpawn path actions attr argv envp, .ok pid⟩ (some T.exec)
  | fork {pid : Int} {inChild : Trace} {path : CString} {argv : List CStrPtr} {envp : Option (List CStrPtr)}
      {T : Table File} (parent : pid ≠ 0)
      (child : Exec (spawn platform opts) (W.past ++ ⟨.fork, .ok 0⟩ :: inChild) (.waiting (.execve path argv envp)))
      (effects : Effects W.table inChild T) : Begins platform opts W ⟨.fork, .ok pid⟩ (some T.exec)
  | stays {e : Event os} (creates : createdBy e = none) : Begins platform opts W e W.child

def leavesPipes (T : Table File) : Event os → Bool
  | ⟨.pipe2 _, .ok _⟩ => false
  | ⟨.fcntlSetFl fd _, .ok _⟩ | ⟨.read fd _, .ok _⟩ | ⟨.write fd _, .ok _⟩ =>
    match T.file fd with
    | some (.readEnd _) | some (.writeEnd _) => false
    | _ => true
  | _ => true

/-- What an exchange makes of the pipes, when `T` is the table of the parent after it. -/
inductive Flow (W : World) (T : Table File) : Event os → Channels → Prop where
  | pipe2 {flags r w k : Nat} (capacity : Nat) (unused : W.pipes k = none) (reading : T.file r = some (.readEnd k))
      (writing : T.file w = some (.writeEnd k)) :
      Flow W T ⟨.pipe2 flags, .ok (r, w)⟩
        (Function.update W.pipes k (some (.new UInt8 capacity (flags &&& O_NONBLOCK != 0))))
  | setReadFlags {fd flags k : Nat} {c : Channel UInt8} (refers : W.table.file fd = some (.readEnd k))
      (here : W.pipes k = some c) :
      Flow W T ⟨.fcntlSetFl fd flags, .ok ()⟩
        (Function.update W.pipes k (some { c with readNonblock := flags &&& O_NONBLOCK != 0 }))
  | setWriteFlags {fd flags k : Nat} {c : Channel UInt8} (refers : W.table.file fd = some (.writeEnd k))
      (here : W.pipes k = some c) :
      Flow W T ⟨.fcntlSetFl fd flags, .ok ()⟩
        (Function.update W.pipes k (some { c with writeNonblock := flags &&& O_NONBLOCK != 0 }))
  | read {fd count k : Nat} {data : { data : Bytes // data.length ≤ count }} {c c' : Channel UInt8}
      (refers : W.table.file fd = some (.readEnd k)) (here : W.pipes k = some c)
      (move : c.Move PIPE_BUF (W.Opened (.writeEnd k)) (.read count) (.data data.val) c') :
      Flow W T ⟨.read fd count, .ok data⟩ (Function.update W.pipes k (some c'))
  | write {fd k : Nat} {bytes : Bytes} {n : { n : Nat // n ≤ bytes.length }} {c c' : Channel UInt8}
      (refers : W.table.file fd = some (.writeEnd k)) (here : W.pipes k = some c)
      (move : c.Move PIPE_BUF (W.Opened (.readEnd k)) (.write bytes) (.wrote n.val) c') :
      Flow W T ⟨.write fd bytes, .ok n⟩ (Function.update W.pipes k (some c'))
  | leaves {e : Event os} (leaves : leavesPipes W.table e = true) : Flow W T e W.pipes

inductive Step (platform : Platform) (opts : SpawnOptions) : World → Happening → World → Prop where
  | parent {W : World} {e : Event os} {T : Table File} {child : Option (Table File)} {pipes : Channels}
      (effect : Effect W.table e T) (begins : Begins platform opts W e child) (flow : Flow W T e pipes) :
      Step platform opts W (.parent e) ⟨W.past ++ [e], T, child, pipes⟩
  | child {W : World} {T : Table File} {fd k : Nat} {op : Channel.Op UInt8} {answer : Channel.Answer UInt8}
      {c c' : Channel UInt8} (running : W.child = some T) (standard : fd ≤ 2)
      (refers : T.file fd = some (endOf k op)) (here : W.pipes k = some c)
      (move : c.Move PIPE_BUF (W.Opened (otherEnd k op)) op answer c') :
      Step platform opts W (.child W fd op answer) { W with pipes := Function.update W.pipes k (some c') }
  | close {W : World} {T : Table File} {fd : Nat} (running : W.child = some T) :
      Step platform opts W (.close fd) { W with child := some (T.close fd) }

inductive Run (platform : Platform) (opts : SpawnOptions) : World → List Happening → World → Prop where
  | nil (W : World) : Run platform opts W [] W
  | cons {W W' W'' : World} {h : Happening} {hs : List Happening} (first : Step platform opts W h W')
      (rest : Run platform opts W' hs W'') : Run platform opts W (h :: hs) W''

def AllNonblock (pipes : Channels) : Prop :=
  ∀ k c, pipes k = some c → c.readNonblock = true ∧ c.writeNonblock = true

theorem AllNonblock.update {pipes : Channels} {k : Nat} {c : Channel UInt8} (all : AllNonblock pipes)
    (read : c.readNonblock = true) (write : c.writeNonblock = true) :
    AllNonblock (Function.update pipes k (some c)) := by
  intro k' c' here
  by_cases same : k' = k
  · rw [same, Function.update_self] at here
    cases here
    exact ⟨read, write⟩
  · rw [Function.update_of_ne same] at here
    exact all k' c' here

section
variable {platform : Platform} {opts : SpawnOptions} {W W' : World}

theorem Flow.allNonblock {T : Table File} {e : Event os} {pipes : Channels} (flow : Flow W T e pipes)
    (keeps : isNonblockingCall e.call = true) (all : AllNonblock W.pipes) : AllNonblock pipes := by
  cases flow with
  | pipe2 capacity unused reading writing => exact all.update keeps keeps
  | setReadFlags refers here =>
    have flags := all _ _ here
    exact all.update keeps flags.2
  | setWriteFlags refers here =>
    have flags := all _ _ here
    exact all.update flags.1 keeps
  | read refers here move | write refers here move =>
    have before := all _ _ here
    have after := move.flags
    exact all.update (after.1.trans before.1) (after.2.trans before.2)
  | leaves leaves => exact all

theorem Step.allNonblock {h : Happening} (step : Step platform opts W h W')
    (keeps : ∀ e, h = .parent e → isNonblockingCall e.call = true) (all : AllNonblock W.pipes) :
    AllNonblock W'.pipes := by
  cases step with
  | parent effect begins flow => exact flow.allNonblock (keeps _ rfl) all
  | child running standard refers here move =>
    have before := all _ _ here
    have after := move.flags
    exact all.update (after.1.trans before.1) (after.2.trans before.2)
  | close running => exact all

theorem Step.refused_iff {V : World} {fd : Nat} {op : Channel.Op UInt8} {answer : Channel.Answer UInt8}
    (step : Step platform opts W (.child V fd op answer) W') (all : AllNonblock W.pipes) :
    answer = .again ↔ V.Stalls fd op := by
  cases step with
  | @child T _ k _ _ c _ running standard refers here move =>
    have flags := all _ _ here
    have nonblock : c.nonblock op = true := by
      cases op
      · exact flags.1
      · exact flags.2
    rw [move.again_iff, nonblock]
    apply Iff.intro
    · intro stalls
      exact ⟨T, k, c, running, refers, here, stalls.2⟩
    · intro stalls
      obtain ⟨T', k', c₁, running', refers', here', stalls⟩ := stalls
      cases running.symm.trans running'
      have same : k' = k := by
        have ends := refers.symm.trans refers'
        cases op <;> simp only [endOf, Option.some.injEq, File.readEnd.injEq, File.writeEnd.injEq] at ends
        · exact ends.symm
        · exact ends.symm
      subst same
      cases here.symm.trans here'
      exact ⟨rfl, stalls⟩

theorem Run.append {W₁ : World} {hs hs' : List Happening} (before : Run platform opts W hs W₁)
    (after : Run platform opts W₁ hs' W') : Run platform opts W (hs ++ hs') W' := by
  induction before with
  | nil W => exact after
  | cons first _ ih => exact .cons first (ih after)

theorem run_quiet {t : Trace}
    (quiet : ∀ e ∈ t, leavesTable e = true ∧ leavesPipes W.table e = true ∧ createdBy e = none) :
    Run platform opts W (t.map .parent) { W with past := W.past ++ t } := by
  induction t generalizing W with
  | nil =>
    rw [List.append_nil]
    exact .nil W
  | cons e t ih =>
    have first := quiet e (List.mem_cons_self ..)
    have step : Step platform opts W (.parent e) { W with past := W.past ++ [e] } :=
      .parent (.leaves first.1) (.stays first.2.2) (.leaves first.2.1)
    have rest := ih (W := { W with past := W.past ++ [e] }) fun e' member => quiet e' (List.mem_cons_of_mem _ member)
    rw [List.append_assoc] at rest
    exact .cons step rest

theorem Run.past {hs : List Happening} (run : Run platform opts W hs W') : ∃ t, W'.past = W.past ++ t := by
  induction run with
  | nil W => exact ⟨[], (List.append_nil _).symm⟩
  | cons first _ ih =>
    obtain ⟨t, same⟩ := ih
    cases first with
    | @parent e =>
      refine ⟨e :: t, ?_⟩
      rw [same, List.append_assoc]
      rfl
    | child | close => exact ⟨t, same⟩

theorem Run.refused_iff {hs : List Happening} (run : Run platform opts W hs W')
    (keeps : ∀ e ∈ W'.past, isNonblockingCall e.call = true) (all : AllNonblock W.pipes) :
    ∀ V fd op answer, .child V fd op answer ∈ hs → (answer = .again ↔ V.Stalls fd op) := by
  induction run with
  | nil W => simp
  | @cons W W₁ W₂ h hs first rest ih =>
    have exchanged : ∀ e, h = .parent e → isNonblockingCall e.call = true := by
      intro e same
      subst same
      obtain ⟨t, past⟩ := rest.past
      cases first with
      | parent =>
        refine keeps e ?_
        rw [past]
        simp
    have later := ih keeps (first.allNonblock exchanged all)
    intro V fd op answer member
    rcases List.mem_cons.mp member with same | member
    · rw [← same] at first
      exact first.refused_iff all
    · exact later V fd op answer member

end

end World

end CoreShift
