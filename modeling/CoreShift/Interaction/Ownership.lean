import CoreShift.Interaction.Exec
import Mathlib.Data.Multiset.ZeroCons
import Mathlib.Algebra.Order.Group.Multiset

namespace Interaction

/-- What each exchange creates and what it gives back, of resources that are to be accounted for. Of a
    `foreign` exchange there is no account. -/
structure Custody (I : Interface) (R : Type) where
  created : Event I → Multiset R
  returned : Event I → Multiset R
  foreign : Event I → Prop

namespace Custody

variable {I : Interface} {R α β : Type}

/-- The exchanges lead from what is held before them to what is held after them, and give back only
    what is held. -/
inductive Ledger (C : Custody I R) : Multiset R → List (Event I) → Multiset R → Prop where
  | nil (held : Multiset R) : Ledger C held [] held
  | cons {rest held : Multiset R} {e : Event I} {t : List (Event I)} (known : ¬C.foreign e)
      (later : Ledger C (rest + C.created e) t held) : Ledger C (C.returned e + rest) (e :: t) held

def Silent (C : Custody I R) (e : Event I) : Prop := ¬C.foreign e ∧ C.created e = 0 ∧ C.returned e = 0

/-- A program, wherever a run of it stands, has given back only what it held; and when it has finished it holds
    what is stated of its result. The exchanges that the environment makes are `permitted`. -/
def Manages (C : Custody I R) (permitted : Event I → Prop) (p : Program I α) (held : Multiset R)
    (left : α → Multiset R) : Prop :=
  ∀ t o, Exec p t o → (∀ e ∈ t, permitted e) →
    ∃ held', C.Ledger held t held' ∧ ∀ value, o = .done value → held' = left value

variable {C : Custody I R} {permitted : Event I → Prop} {held held' held'' : Multiset R} {t t' : List (Event I)}
  {p : Program I α} {left left' : α → Multiset R}

theorem Ledger.append (first : C.Ledger held t held') (second : C.Ledger held' t' held'') :
    C.Ledger held (t ++ t') held'' := by
  induction first with
  | nil => exact second
  | cons known _ ih => exact .cons known (ih second)

theorem Ledger.split (ledger : C.Ledger held (t ++ t') held'') :
    ∃ held', C.Ledger held t held' ∧ C.Ledger held' t' held'' := by
  induction t generalizing held with
  | nil => exact ⟨held, .nil held, ledger⟩
  | cons e t ih =>
    cases ledger with
    | cons known later =>
      obtain ⟨middle, before, after⟩ := ih later
      exact ⟨middle, .cons known before, after⟩

theorem Ledger.returns {e : Event I} (ledger : C.Ledger held (e :: t) held') : C.returned e ≤ held := by
  cases ledger with
  | cons known later => exact Multiset.le_add_right _ _

theorem Ledger.frame (ledger : C.Ledger held t held') (other : Multiset R) :
    C.Ledger (held + other) t (held' + other) := by
  induction ledger with
  | nil held => exact .nil _
  | @cons rest held e t known later ih =>
    rw [add_assoc]
    apply Ledger.cons known
    rwa [add_right_comm]

theorem Ledger.silent {e : Event I} (silent : C.Silent e) (held : Multiset R) : C.Ledger held [e] held := by
  have step : C.Ledger (C.returned e + held) [e] (held + C.created e) := .cons silent.1 (.nil _)
  rwa [silent.2.1, silent.2.2, zero_add, add_zero] at step

theorem Ledger.of_silent (silent : ∀ e ∈ t, C.Silent e) (held : Multiset R) : C.Ledger held t held := by
  induction t with
  | nil => exact .nil held
  | cons e t ih =>
    have first := Ledger.silent (silent e (List.mem_cons_self ..)) held
    exact first.append (ih fun e member => silent e (List.mem_cons_of_mem _ member))

theorem Ledger.returned {e : Event I} {resources : Multiset R} (known : ¬C.foreign e)
    (gives : C.returned e = resources) (none : C.created e = 0) : C.Ledger resources [e] 0 := by
  have step : C.Ledger (C.returned e + 0) [e] (0 + C.created e) := .cons known (.nil _)
  rwa [gives, none, add_zero, add_zero] at step

theorem Ledger.created {e : Event I} {resources : Multiset R} (known : ¬C.foreign e)
    (none : C.returned e = 0) (makes : C.created e = resources) : C.Ledger 0 [e] resources := by
  have step : C.Ledger (C.returned e + 0) [e] (0 + C.created e) := .cons known (.nil _)
  rwa [makes, none, add_zero, zero_add] at step

theorem manages_pure (value : α) (left : α → Multiset R) :
    C.Manages permitted (pure value) (left value) left := by
  intro t o run _
  obtain ⟨rfl, rfl⟩ := (exec_pure_iff _ _ _).mp run
  refine ⟨left value, .nil _, fun value' same => ?_⟩
  cases same
  rfl

theorem manages_ask {c : I.Call} {left : I.Answer c → Multiset R}
    (each : ∀ answer, permitted ⟨c, answer⟩ → C.Ledger held [⟨c, answer⟩] (left answer)) :
    C.Manages permitted (Program.ask c) held left := by
  intro t o run allowed
  cases o with
  | waiting c' =>
    obtain ⟨rfl, _⟩ := (exec_ask_waiting _ _ _).mp run
    exact ⟨held, .nil held, nofun⟩
  | done answer =>
    rw [exec_ask_done] at run
    subst run
    refine ⟨left answer, each answer (allowed _ (List.mem_singleton_self _)), fun value same => ?_⟩
    cases same
    rfl

theorem manages_of_issues (silent : p.Issues fun c => ∀ answer, C.Silent ⟨c, answer⟩) (held : Multiset R) :
    C.Manages permitted p held fun _ => held := by
  intro t o run _
  exact ⟨held, .of_silent (fun e member => (run.issues silent).1 e member e.answer) held, fun _ _ => rfl⟩

theorem Manages.bind {rest : α → Program I β} {last : β → Multiset R} (first : C.Manages permitted p held left)
    (second : ∀ value, C.Manages permitted (rest value) (left value) last) :
    C.Manages permitted (p >>= rest) held last := by
  intro t o run allowed
  rcases exec_bind_cases run with ⟨c, rfl, stopped⟩ | ⟨t₁, value, t₂, rfl, head, tail⟩
  · obtain ⟨held', ledger, _⟩ := first _ _ stopped allowed
    exact ⟨held', ledger, nofun⟩
  · obtain ⟨middle, ledger, done⟩ := first _ _ head fun e member => allowed e (List.mem_append_left _ member)
    obtain ⟨held', ledger', done'⟩ := second value _ _ tail fun e member => allowed e (List.mem_append_right _ member)
    rw [← done value rfl] at ledger'
    exact ⟨held', ledger.append ledger', done'⟩

theorem manages_asked {c : I.Call} {rest : I.Answer c → Program I β} {middle : I.Answer c → Multiset R}
    {last : β → Multiset R} (each : ∀ answer, permitted ⟨c, answer⟩ → C.Ledger held [⟨c, answer⟩] (middle answer))
    (second : ∀ answer, permitted ⟨c, answer⟩ → C.Manages permitted (rest answer) (middle answer) last) :
    C.Manages permitted (Program.ask c >>= rest) held last := by
  intro t o run allowed
  rcases run.ask_cases with ⟨rfl, rfl⟩ | ⟨answer, t', rfl, later⟩
  · exact ⟨held, .nil held, nofun⟩
  · have now := allowed _ (List.mem_cons_self ..)
    obtain ⟨held', ledger, done⟩ :=
      second answer now _ _ later fun e member => allowed e (List.mem_cons_of_mem _ member)
    exact ⟨held', (each answer now).append ledger, done⟩

theorem Manages.frame (manages : C.Manages permitted p held left) (other : Multiset R) :
    C.Manages permitted p (held + other) fun value => left value + other := by
  intro t o run allowed
  obtain ⟨held', ledger, done⟩ := manages t o run allowed
  exact ⟨held' + other, ledger.frame other, fun value same => by rw [done value same]⟩

theorem Manages.congr (manages : C.Manages permitted p held left) (same : held' = held)
    (each : ∀ value, left' value = left value) : C.Manages permitted p held' left' := by
  intro t o run allowed
  obtain ⟨after, ledger, done⟩ := manages t o run allowed
  rw [same]
  exact ⟨after, ledger, fun value finished => (done value finished).trans (each value).symm⟩

theorem Manages.beside {rest : α → Program I β} {start : Multiset R} {last : β → Multiset R}
    (first : C.Manages permitted p held left) (other : Multiset R) (split : start = held + other)
    (second : ∀ value, C.Manages permitted (rest value) (left value + other) last) :
    C.Manages permitted (p >>= rest) start last := by
  rw [split]
  exact (first.frame other).bind second

theorem Manages.before {rest : α → Program I β} {last : β → Multiset R}
    (first : C.Manages permitted p held fun _ => 0)
    (second : ∀ value, C.Manages permitted (rest value) held' last) :
    C.Manages permitted (p >>= rest) (held + held') last :=
  first.beside held' rfl fun value => (second value).congr (zero_add _) fun _ => rfl

end Custody

end Interaction
