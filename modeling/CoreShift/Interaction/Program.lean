import Mathlib.Logic.Basic

namespace Interaction

/-- The questions a program may put to its environment, with the type of each answer. -/
structure Interface where
  Call : Type
  Answer : Call → Type

/-- A program is a tree of calls. `loop` repeats its body until the body leaves with a right value,
    so that a run of unbounded length needs neither fuel nor a termination argument. -/
inductive Program (I : Interface) : Type → Type 1 where
  | ret {α : Type} (value : α) : Program I α
  | call {α : Type} (c : I.Call) (next : I.Answer c → Program I α) : Program I α
  | loop {α β γ : Type} (body : β → Program I (β ⊕ γ)) (start : β) (next : γ → Program I α) :
      Program I α

namespace Program

variable {I : Interface} {α β γ : Type}

def bind : Program I α → (α → Program I β) → Program I β
  | .ret value, rest => rest value
  | .call c next, rest => .call c (fun answer => (next answer).bind rest)
  | .loop body start next, rest => .loop body start (fun result => (next result).bind rest)

instance : Monad (Program I) where
  pure := .ret
  bind := bind

instance : LawfulMonad (Program I) := LawfulMonad.mk' (Program I)
  (by
    intro α p
    induction p with
    | ret value => rfl
    | call c next ih => exact congrArg (Program.call c) (funext ih)
    | loop body start next _ ih => exact congrArg (Program.loop body start) (funext ih))
  (fun _ _ => rfl)
  (by
    intro α β γ p f g
    induction p with
    | ret value => rfl
    | call c next ih => exact congrArg (Program.call c) (funext fun answer => ih answer f)
    | loop body start next _ ih =>
      exact congrArg (Program.loop body start) (funext fun result => ih result f))

def ask (c : I.Call) : Program I (I.Answer c) := .call c .ret

def iterate (body : β → Program I (β ⊕ γ)) (start : β) : Program I γ := .loop body start .ret

def retry (c : I.Call) (again : I.Answer c → Bool) : Program I (I.Answer c) :=
  iterate (fun _ : Unit => do
    let answer ← ask c
    return if again answer then .inl () else .inr answer) ()

def Issues (allowed : I.Call → Prop) : {α : Type} → Program I α → Prop
  | _, .ret _ => True
  | _, .call c next => allowed c ∧ ∀ answer, (next answer).Issues allowed
  | _, .loop body _ next => (∀ state, (body state).Issues allowed) ∧ ∀ result, (next result).Issues allowed

@[simp] theorem issues_pure (allowed : I.Call → Prop) (value : α) :
    (pure value : Program I α).Issues allowed := trivial

@[simp] theorem issues_ask (allowed : I.Call → Prop) (c : I.Call) :
    (ask c).Issues allowed ↔ allowed c := by
  simp [ask, Issues]

theorem Issues.bind {allowed : I.Call → Prop} {p : Program I α} {rest : α → Program I β}
    (first : p.Issues allowed) (second : ∀ value, (rest value).Issues allowed) :
    (p >>= rest).Issues allowed := by
  induction p with
  | ret value => exact second value
  | call c next ih => exact ⟨first.1, fun answer => ih answer (first.2 answer) second⟩
  | loop body start next _ ih => exact ⟨first.1, fun result => ih result (first.2 result) second⟩

theorem Issues.iterate {allowed : I.Call → Prop} {body : β → Program I (β ⊕ γ)} (start : β)
    (each : ∀ state, (body state).Issues allowed) : (iterate body start).Issues allowed :=
  ⟨each, fun _ => trivial⟩

theorem Issues.retry {allowed : I.Call → Prop} {c : I.Call} (again : I.Answer c → Bool)
    (permitted : allowed c) : (retry c again).Issues allowed :=
  .iterate () fun _ => .bind ((issues_ask allowed c).mpr permitted) fun _ => trivial

theorem Issues.mono {allowed allowed' : I.Call → Prop} {p : Program I α} (issues : p.Issues allowed)
    (weaken : ∀ c, allowed c → allowed' c) : p.Issues allowed' := by
  induction p with
  | ret value => trivial
  | call c next ih => exact ⟨weaken c issues.1, fun answer => ih answer (issues.2 answer)⟩
  | loop body start next inner ih =>
    exact ⟨fun state => inner state (issues.1 state), fun result => ih result (issues.2 result)⟩

/-- The program has no loop and issues at most `n` calls. -/
def Within : {α : Type} → Program I α → Nat → Prop
  | _, .ret _, _ => True
  | _, .call _ next, n => ∃ m, n = m + 1 ∧ ∀ answer, (next answer).Within m
  | _, .loop _ _ _, _ => False

theorem within_ask (c : I.Call) : (ask c).Within 1 := ⟨0, rfl, fun _ => trivial⟩

theorem Within.mono {p : Program I α} {n m : Nat} (within : p.Within n) (le : n ≤ m) : p.Within m := by
  induction p generalizing n m with
  | ret _ => trivial
  | call c next ih =>
    obtain ⟨k, rfl, each⟩ := within
    exact ⟨m - 1, by omega, fun answer => ih answer (each answer) (by omega)⟩
  | loop _ _ _ _ _ => exact within.elim

theorem Within.bind {p : Program I α} {rest : α → Program I β} {n m : Nat} (first : p.Within n)
    (second : ∀ value, (rest value).Within m) : (p >>= rest).Within (m + n) := by
  induction p generalizing n with
  | ret value => exact (second value).mono (by omega)
  | call c next ih =>
    obtain ⟨n, rfl, each⟩ := first
    exact ⟨m + n, rfl, fun answer => ih answer (each answer) second⟩
  | loop _ _ _ _ _ => exact first.elim

def Straight : {α : Type} → Program I α → List I.Call → Prop
  | _, .ret _, calls => calls = []
  | _, .call c next, calls => ∃ later, calls = c :: later ∧ ∀ answer, (next answer).Straight later
  | _, .loop _ _ _, _ => False

theorem straight_ask (c : I.Call) : (ask c).Straight [c] := ⟨[], rfl, fun _ => rfl⟩

theorem Straight.bind {p : Program I α} {rest : α → Program I β} {calls calls' : List I.Call}
    (first : p.Straight calls) (second : ∀ value, (rest value).Straight calls') :
    (p >>= rest).Straight (calls ++ calls') := by
  induction p generalizing calls with
  | ret value =>
    have none : calls = [] := first
    rw [none]
    exact second value
  | call c next ih =>
    obtain ⟨later, rfl, each⟩ := first
    exact ⟨later ++ calls', rfl, fun answer => ih answer (each answer) second⟩
  | loop _ _ _ _ _ => exact first.elim

theorem Straight.issues {p : Program I α} {calls : List I.Call} {allowed : I.Call → Prop}
    (straight : p.Straight calls) (each : ∀ c ∈ calls, allowed c) : p.Issues allowed := by
  induction p generalizing calls with
  | ret value => trivial
  | call c next ih =>
    obtain ⟨later, rfl, rest⟩ := straight
    exact ⟨each c (by simp), fun answer => ih answer (rest answer) fun c' member => each c' (by simp [member])⟩
  | loop _ _ _ _ _ => exact straight.elim

end Program

end Interaction
