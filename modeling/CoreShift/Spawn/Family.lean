import CoreShift.Kernel.Fifo
import CoreShift.Spawn.Leak
import CoreShift.Spawn.World

/-! A run of `spawn` together with the child and everything that descends from it. The table of the child
holds the descriptors of all of them, each at a number of its own. -/

namespace CoreShift

open Interaction Descriptors

def File.pipe : File → Option Nat
  | .readEnd k | .writeEnd k => some k
  | .other _ => none

namespace Family

/-- An exchange of the parent, between the worlds before and after it; a call of a descendant on an end of a
    pipe; or whatever descendants do with the descriptors that they have. -/
inductive Happening where
  | parent (W : World) (e : Event os) (W' : World)
  | call (pipe : Nat) (op : Channel.Op UInt8) (answer : Channel.Answer UInt8)
  | inherit

/-- Only `pipe2` makes ends of pipes. -/
def Ordinary : Event os → Table File → Prop
  | ⟨.epollCreate1, .ok fd⟩, T | ⟨.openProcSelfFd, .ok fd⟩, T | ⟨.inotifyInit1 _, .ok fd⟩, T
  | ⟨.signalfd _ _ _, .ok fd⟩, T => ∃ id, T.file fd = some (.other id)
  | _, _ => True

/-- The parent is told that nobody reads from a pipe any more only when nobody can. -/
def Honest (W : World) : Event os → Prop
  | ⟨.write fd _, .error e⟩ => e = EPIPE → ∀ k, W.table.file fd = some (.writeEnd k) → ¬W.Opened (.readEnd k)
  | _ => True

/-- Descendants copy, hand on and close descriptors, begin programs and end; what one of them refers to
    afterwards, one of them referred to before. -/
inductive Step (platform : Platform) (opts : SpawnOptions) : World → Happening → World → Prop where
  | parent {W W' : World} {e : Event os} (step : W.Step platform opts (.parent e) W')
      (ordinary : Ordinary e W'.table) (honest : Honest W e) : Step platform opts W (.parent W e W') W'
  | call {W : World} {T : Table File} {fd k : Nat} {op : Channel.Op UInt8} {answer : Channel.Answer UInt8}
      {c c' : Channel UInt8} (running : W.child = some T) (refers : T.file fd = some (endOf k op))
      (here : W.pipes k = some c) (move : c.Move PIPE_BUF (W.Opened (otherEnd k op)) op answer c') :
      Step platform opts W (.call k op answer) { W with pipes := Function.update W.pipes k (some c') }
  | inherit {W : World} {T T' : Table File} (running : W.child = some T)
      (had : ∀ fd f, T'.file fd = some f → ∃ fd', T.file fd' = some f) :
      Step platform opts W .inherit { W with child := some T' }

inductive Run (platform : Platform) (opts : SpawnOptions) : World → List Happening → World → Prop where
  | nil (W : World) : Run platform opts W [] W
  | cons {W W' W'' : World} {h : Happening} {hs : List Happening} (first : Step platform opts W h W')
      (rest : Run platform opts W' hs W'') : Run platform opts W (h :: hs) W''

def exchange : Happening → Option (Event os)
  | .parent _ e _ => some e
  | _ => none

def exchanges (hs : List Happening) : Trace := hs.filterMap exchange

@[simp] theorem exchanges_nil : exchanges [] = [] := rfl

@[simp] theorem exchanges_append (hs hs' : List Happening) :
    exchanges (hs ++ hs') = exchanges hs ++ exchanges hs' := List.filterMap_append ..

section
variable {platform : Platform} {opts : SpawnOptions} {W W' W'' : World} {h : Happening} {hs hs' : List Happening}

theorem run_append :
    Run platform opts W (hs ++ hs') W'' ↔ ∃ W', Run platform opts W hs W' ∧ Run platform opts W' hs' W'' := by
  apply Iff.intro
  · intro run
    induction hs generalizing W with
    | nil => exact ⟨W, .nil W, run⟩
    | cons h hs ih =>
      cases run with
      | cons first rest =>
        obtain ⟨W', before, after⟩ := ih rest
        exact ⟨W', .cons first before, after⟩
  · intro run
    obtain ⟨W', before, after⟩ := run
    induction before with
    | nil W => exact after
    | cons first _ ih => exact .cons first (ih after)

theorem run_cons :
    Run platform opts W (h :: hs) W'' ↔ ∃ W', Step platform opts W h W' ∧ Run platform opts W' hs W'' := by
  apply Iff.intro
  · intro run
    cases run with
    | cons first rest => exact ⟨_, first, rest⟩
  · intro run
    obtain ⟨W', first, rest⟩ := run
    exact .cons first rest

theorem Step.past (step : Step platform opts W h W') : W'.past = W.past ++ (exchange h).toList := by
  cases step with
  | parent step =>
    cases step
    rfl
  | call | inherit => exact (List.append_nil _).symm

theorem Run.past (run : Run platform opts W hs W') : W'.past = W.past ++ exchanges hs := by
  induction run with
  | nil W => exact (List.append_nil _).symm
  | @cons W W₁ W₂ h hs first _ ih =>
    rw [ih, first.past, List.append_assoc]
    congr 1
    cases h <;> rfl

theorem Run.effects (run : Run platform opts W hs W') : Effects W.table (exchanges hs) W'.table := by
  induction run with
  | nil W => exact .nil _
  | cons first _ ih =>
    cases first with
    | parent step =>
      cases step with
      | parent effect => exact .cons effect ih
    | call | inherit => exact ih

theorem Run.split {t t' : Trace} (run : Run platform opts W hs W') (same : exchanges hs = t ++ t') :
    ∃ hs₁ hs₂ W₁, hs = hs₁ ++ hs₂ ∧ exchanges hs₁ = t ∧ exchanges hs₂ = t' ∧ Run platform opts W hs₁ W₁ ∧
      Run platform opts W₁ hs₂ W' := by
  obtain ⟨hs₁, hs₂, rfl, first, second⟩ := List.filterMap_eq_append_iff.mp same
  obtain ⟨W₁, before, after⟩ := run_append.mp run
  exact ⟨hs₁, hs₂, W₁, rfl, first, second, before, after⟩

theorem Run.reaches (run : Run platform opts W hs W') (member : h ∈ hs) :
    ∃ hs₁ hs₂ V V', hs = hs₁ ++ h :: hs₂ ∧ Run platform opts W hs₁ V ∧ Step platform opts V h V' ∧
      Run platform opts V' hs₂ W' := by
  obtain ⟨hs₁, hs₂, rfl⟩ := List.append_of_mem member
  obtain ⟨V, before, rest⟩ := run_append.mp run
  obtain ⟨V', step, after⟩ := run_cons.mp rest
  exact ⟨hs₁, hs₂, V, V', rfl, before, step, after⟩

end

def enteredBy (k : Nat) : Happening → Bytes
  | .parent W ⟨.write fd bytes, .ok n⟩ _ => if W.table.file fd = some (.writeEnd k) then bytes.take n.val else []
  | .call k' op answer => if k' = k then Channel.entered op answer else []
  | _ => []

def takenBy (k : Nat) : Happening → Bytes
  | .parent W ⟨.read fd _, .ok data⟩ _ => if W.table.file fd = some (.readEnd k) then data.val else []
  | .call k' op answer => if k' = k then Channel.taken op answer else []
  | _ => []

def writtenBy (k : Nat) : Happening → Bytes
  | .call k' op answer => if k' = k then Channel.entered op answer else []
  | _ => []

def readBy (k : Nat) : Happening → Bytes
  | .call k' op answer => if k' = k then Channel.taken op answer else []
  | _ => []

def written (k : Nat) (hs : List Happening) : Bytes := hs.flatMap (writtenBy k)

def read (k : Nat) (hs : List Happening) : Bytes := hs.flatMap (readBy k)

section
variable {platform : Platform} {opts : SpawnOptions} {W W' : World} {h : Happening} {hs : List Happening}
  {T : Table File} {e : Event os} {pipes : Channels} {k : Nat} {c : Channel UInt8}

theorem update_fifo {k' : Nat} {op : Channel.Op UInt8} {answer : Channel.Answer UInt8} {opened : Prop}
    {c₁ c₁' : Channel UInt8} (used : W.pipes k = some c) (here : W.pipes k' = some c₁)
    (move : c₁.Move PIPE_BUF opened op answer c₁') :
    ∃ c', Function.update W.pipes k' (some c₁') k = some c' ∧
      c.content ++ (if k' = k then Channel.entered op answer else []) =
        (if k' = k then Channel.taken op answer else []) ++ c'.content := by
  by_cases same : k' = k
  · subst same
    cases here.symm.trans used
    simp only [↓reduceIte, Function.update_self]
    exact ⟨c₁', rfl, move.fifo⟩
  · simp only [same, ↓reduceIte, Function.update_of_ne (Ne.symm same)]
    exact ⟨c, used, List.append_nil _⟩

theorem flow_fifo (flow : W.Flow T e pipes) (used : W.pipes k = some c) :
    ∃ c', pipes k = some c' ∧ c.content ++ enteredBy k (.parent W e W') = takenBy k (.parent W e W') ++ c'.content := by
  cases flow with
  | pipe2 capacity unused =>
    have other : k ≠ _ := fun same => by
      rw [same, unused] at used
      cases used
    exact ⟨c, (Function.update_of_ne other ..).trans used, List.append_nil _⟩
  | @setReadFlags fd flags k' c₁ refers here | @setWriteFlags fd flags k' c₁ refers here =>
    by_cases same : k = k'
    · subst same
      cases here.symm.trans used
      exact ⟨_, Function.update_self .., List.append_nil _⟩
    · exact ⟨c, (Function.update_of_ne same ..).trans used, List.append_nil _⟩
  | @read fd count k' data c₁ c₁' refers here move =>
    have moved := update_fifo used here move
    have ends : (File.readEnd k' = .readEnd k) = (k' = k) := by simp
    simpa only [enteredBy, takenBy, refers, Option.some.injEq, ends, Channel.entered, Channel.taken,
      ite_self] using moved
  | @write fd k' bytes n c₁ c₁' refers here move =>
    have moved := update_fifo used here move
    have ends : (File.writeEnd k' = .writeEnd k) = (k' = k) := by simp
    simpa only [enteredBy, takenBy, refers, Option.some.injEq, ends, Channel.entered, Channel.taken,
      ite_self] using moved
  | leaves leaves =>
    have neither : enteredBy k (.parent W e W') = [] ∧ takenBy k (.parent W e W') = [] := by
      obtain ⟨call, answer⟩ := e
      cases call
      case read fd count =>
        rcases answer with e | data
        · exact ⟨rfl, rfl⟩
        · refine ⟨rfl, if_neg fun refers => ?_⟩
          simp [World.leavesPipes, refers] at leaves
      case write fd bytes =>
        rcases answer with e | n
        · exact ⟨rfl, rfl⟩
        · refine ⟨if_neg fun refers => ?_, rfl⟩
          simp [World.leavesPipes, refers] at leaves
      all_goals exact ⟨rfl, rfl⟩
    rw [neither.1, neither.2]
    exact ⟨c, used, List.append_nil _⟩

theorem Step.fifo (step : Step platform opts W h W') (used : W.pipes k = some c) :
    ∃ c', W'.pipes k = some c' ∧ c.content ++ enteredBy k h = takenBy k h ++ c'.content := by
  cases step with
  | parent step =>
    cases step with
    | parent effect begins flow => exact flow_fifo flow used
  | call running refers here move => exact update_fifo used here move
  | inherit => exact ⟨c, used, List.append_nil _⟩

/-- Whatever the parent and the descendants do, a pipe hands out what it is given, in the same order. -/
theorem Run.fifo (run : Run platform opts W hs W') (used : W.pipes k = some c) :
    ∃ c', W'.pipes k = some c' ∧
      c.content ++ hs.flatMap (enteredBy k) = hs.flatMap (takenBy k) ++ c'.content := by
  induction run generalizing c with
  | nil W => exact ⟨c, used, List.append_nil _⟩
  | @cons W W₁ W₂ h hs first _ ih =>
    obtain ⟨c₁, used₁, moved⟩ := first.fifo used
    obtain ⟨c', used', later⟩ := ih used₁
    refine ⟨c', used', ?_⟩
    rw [List.flatMap_cons, List.flatMap_cons, ← List.append_assoc, moved, List.append_assoc, later, List.append_assoc]

end

end Family

end CoreShift
