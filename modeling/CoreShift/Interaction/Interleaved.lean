import Mathlib.Data.List.Basic

namespace Interaction

variable {S E : Type}

/-- `Interleaved env step s t s'`: the events `t`, in this order and with any moves of the environment
    between them, lead from `s` to `s'`. -/
inductive Interleaved (env : S → S → Prop) (step : S → E → S → Prop) (s : S) : List E → S → Prop where
  | start : Interleaved env step s [] s
  | env {t : List E} {s₁ s₂ : S} (before : Interleaved env step s t s₁) (move : env s₁ s₂) :
      Interleaved env step s t s₂
  | step {t : List E} {e : E} {s₁ s₂ : S} (before : Interleaved env step s t s₁) (move : step s₁ e s₂) :
      Interleaved env step s (t ++ [e]) s₂

namespace Interleaved

variable {env : S → S → Prop} {step : S → E → S → Prop} {s s' : S} {t t' : List E} {e : E}

theorem append {middle : S} (run : Interleaved env step s t middle) (later : Interleaved env step middle t' s') :
    Interleaved env step s (t ++ t') s' := by
  induction later with
  | start => rwa [List.append_nil]
  | env before move ih => exact ih.env move
  | step before move ih =>
    rw [← List.append_assoc]
    exact ih.step move

theorem split (run : Interleaved env step s (t ++ t') s') :
    ∃ middle, Interleaved env step s t middle ∧ Interleaved env step middle t' s' := by
  generalize whole : t ++ t' = events at run
  induction run generalizing t' with
  | start =>
    obtain ⟨first, second⟩ := List.append_eq_nil_iff.mp whole
    rw [first, second]
    exact ⟨s, .start, .start⟩
  | env before move ih =>
    obtain ⟨middle, first, second⟩ := ih whole
    exact ⟨middle, first, second.env move⟩
  | @step u e s₁ s₂ before move ih =>
    rcases List.eq_nil_or_concat t' with none | ⟨init, last, some⟩
    · rw [none, List.append_nil] at whole
      rw [none, whole]
      exact ⟨s₂, before.step move, .start⟩
    · rw [some, List.concat_eq_append, ← List.append_assoc] at whole
      obtain ⟨same, ends⟩ := List.append_inj' whole rfl
      obtain ⟨middle, first, second⟩ := ih same
      cases ends
      rw [some, List.concat_eq_append]
      exact ⟨middle, first, second.step move⟩

theorem mono {step' : S → E → S → Prop} (run : Interleaved env step s t s')
    (weaker : ∀ s₁ e s₂, step s₁ e s₂ → step' s₁ e s₂) : Interleaved env step' s t s' := by
  induction run with
  | start => exact .start
  | env before move ih => exact ih.env move
  | step before move ih => exact ih.step (weaker _ _ _ move)

theorem keeps {P : S → Prop} (run : Interleaved env step s t s') (begins : P s)
    (moves : ∀ s₁ s₂, env s₁ s₂ → P s₁ → P s₂)
    (steps : ∀ e ∈ t, ∀ s₁ s₂, step s₁ e s₂ → P s₁ → P s₂) : P s' := by
  induction run with
  | start => exact begins
  | env before move ih => exact moves _ _ move (ih steps)
  | step before move ih =>
    exact steps _ (by simp) _ _ move (ih fun e member => steps e (List.mem_append_left _ member))

theorem last (run : Interleaved env step s (t ++ [e]) s') :
    ∃ s₁ s₂, Interleaved env step s t s₁ ∧ step s₁ e s₂ ∧ Interleaved env step s₂ [] s' := by
  generalize whole : t ++ [e] = events at run
  induction run with
  | start => simp at whole
  | env before move ih =>
    obtain ⟨s₁, s₂, first, now, rest⟩ := ih whole
    exact ⟨s₁, s₂, first, now, rest.env move⟩
  | step before move ih =>
    obtain ⟨same, ends⟩ := List.append_inj' whole rfl
    cases same
    cases ends
    exact ⟨_, _, before, move, .start⟩

end Interleaved

end Interaction
