import CoreShift.Kernel.Jobs
import Mathlib.Logic.Function.Basic

/-! What a process keeps of its own when it becomes another program: its group and session, its working
directory, and how it takes signals, as `execve(2)` and the calls that change these describe it. -/

namespace Inherited

inductive Disposition where
  | default
  | ignored
  | caught (handler : Nat)
  deriving DecidableEq, Repr

def Disposition.exec : Disposition → Disposition
  | .caught _ => .default
  | d => d

structure Attributes (D : Type) where
  job : Jobs.Member
  cwd : D
  blocked : Int → Bool
  action : Int → Disposition

def Attributes.exec {D : Type} (A : Attributes D) : Attributes D := { A with action := fun sig => (A.action sig).exec }

inductive Act (P : Type) where
  | job (act : Jobs.Act)
  | chdir (path : P) (ok : Bool)
  | block (set : List Int) (ok : Bool)
  | setMask (set : List Int) (ok : Bool)
  | setDefault (sig : Int) (ok : Bool)
  deriving DecidableEq, Repr

/-- What an act does, where `enters` resolves the paths. The signal mask can always be set, and a signal that
    can be caught can always have its default again. -/
inductive Step {D P : Type} (enters : D → P → D → Prop) : Attributes D → Act P → Attributes D → Prop where
  | job {A : Attributes D} {act : Jobs.Act} {m : Jobs.Member} (step : Jobs.Step A.job act m) :
      Step enters A (.job act) { A with job := m }
  | chdir {A : Attributes D} {path : P} {dir : D} (there : enters A.cwd path dir) :
      Step enters A (.chdir path true) { A with cwd := dir }
  | noChdir {A : Attributes D} {path : P} : Step enters A (.chdir path false) A
  | block {A : Attributes D} {set : List Int} :
      Step enters A (.block set true) { A with blocked := fun sig => A.blocked sig || set.contains sig }
  | setMask {A : Attributes D} {set : List Int} :
      Step enters A (.setMask set true) { A with blocked := fun sig => set.contains sig }
  | setDefault {A : Attributes D} {sig : Int} :
      Step enters A (.setDefault sig true) { A with action := Function.update A.action sig .default }

inductive Run {D P : Type} (enters : D → P → D → Prop) : Attributes D → List (Act P) → Attributes D → Prop where
  | nil (A : Attributes D) : Run enters A [] A
  | cons {A A' A'' : Attributes D} {act : Act P} {acts : List (Act P)} (step : Step enters A act A')
      (rest : Run enters A' acts A'') :
      Run enters A (act :: acts) A''

section
variable {D P : Type} {enters : D → P → D → Prop} {A A' : Attributes D} {acts acts' : List (Act P)}

theorem run_nil (run : Run enters A [] A') : A' = A := by
  cases run
  rfl

theorem run_cons {act : Act P} (run : Run enters A (act :: acts) A') :
    ∃ A₁, Step enters A act A₁ ∧ Run enters A₁ acts A' := by
  cases run with
  | cons step rest => exact ⟨_, step, rest⟩

theorem run_append : Run enters A (acts ++ acts') A' ↔ ∃ A₁, Run enters A acts A₁ ∧ Run enters A₁ acts' A' := by
  apply Iff.intro
  · intro run
    induction acts generalizing A with
    | nil => exact ⟨A, .nil A, run⟩
    | cons act acts ih =>
      obtain ⟨A₁, step, rest⟩ := run_cons run
      obtain ⟨A₂, first, second⟩ := ih rest
      exact ⟨A₂, .cons step first, second⟩
  · intro both
    obtain ⟨A₁, first, second⟩ := both
    induction first with
    | nil A => exact second
    | cons step _ ih => exact .cons step (ih second)

theorem run_jobs {jobs : List Jobs.Act} (run : Run enters A (jobs.map .job) A') :
    Jobs.Run A.job jobs A'.job ∧ A' = { A with job := A'.job } := by
  induction jobs generalizing A with
  | nil =>
    rw [run_nil run]
    exact ⟨.nil _, rfl⟩
  | cons act jobs ih =>
    obtain ⟨A₁, step, rest⟩ := run_cons run
    obtain ⟨later, same⟩ := ih rest
    cases step with
    | job step => exact ⟨.cons step later, same⟩

theorem run_chdir {path : Option P} (run : Run enters A (path.toList.map (.chdir · true)) A') :
    (∀ p, path = some p → enters A.cwd p A'.cwd) ∧ (path = none → A'.cwd = A.cwd) ∧ A' = { A with cwd := A'.cwd } := by
  cases path with
  | none =>
    rw [run_nil run]
    exact ⟨by simp, fun _ => rfl, rfl⟩
  | some p =>
    obtain ⟨A₁, step, rest⟩ := run_cons run
    rw [run_nil rest]
    cases step with
    | chdir there => exact ⟨fun p' same => Option.some.inj same ▸ there, by simp, rfl⟩

theorem run_signals {set : List Int} {sig : Int} {masks resets : Bool}
    (run : Run enters A [.setMask set masks, .setDefault sig resets] A') :
    A' = { A with
      blocked := fun n => set.contains n
      action := Function.update A.action sig .default } := by
  obtain ⟨A₁, masked, rest⟩ := run_cons run
  obtain ⟨A₂, reset, rest⟩ := run_cons rest
  rw [run_nil rest]
  cases masked with
  | setMask =>
    cases reset with
    | setDefault => rfl

end

end Inherited
