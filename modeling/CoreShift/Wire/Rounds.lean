import Mathlib.Data.List.Basic

/-! A loop of rounds each of which may fail, as a function and as a relation. -/

namespace Rounds

variable {σ γ : Type} {body : σ → Option (σ ⊕ γ)} {s s' s'' : σ} {result : γ}

/-- Nothing comes of it when a round fails, or when the loop takes more rounds than given. -/
def run (body : σ → Option (σ ⊕ γ)) : Nat → σ → Option γ
  | 0, _ => none
  | rounds + 1, s =>
    match body s with
    | none => none
    | some (.inl s') => run body rounds s'
    | some (.inr result) => some result

/-- `Goes body s rounds s'`: so many rounds lead from `s` to `s'`. -/
inductive Goes (body : σ → Option (σ ⊕ γ)) (s : σ) : Nat → σ → Prop where
  | start : Goes body s 0 s
  | next {rounds : Nat} {s' s'' : σ} (before : Goes body s rounds s') (round : body s' = some (.inl s'')) :
      Goes body s (rounds + 1) s''

theorem Goes.first {rounds : Nat} (round : body s = some (.inl s')) (rest : Goes body s' rounds s'') :
    Goes body s (rounds + 1) s'' := by
  induction rest with
  | start => exact .next .start round
  | next _ last ih => exact .next ih last

theorem run_next {rounds : Nat} (round : body s = some (.inl s')) : run body (rounds + 1) s = run body rounds s' := by
  rw [run, round]

theorem run_goes {rounds more : Nat} (goes : Goes body s rounds s') :
    run body (rounds + more) s = run body more s' := by
  induction goes generalizing more with
  | start => rw [Nat.zero_add]
  | next _ round ih => rw [Nat.add_assoc, ih, Nat.add_comm 1 more, run_next round]

theorem run_iff {rounds : Nat} :
    run body rounds s = some result ↔
      ∃ taken s', taken < rounds ∧ Goes body s taken s' ∧ body s' = some (.inr result) := by
  apply Iff.intro
  · intro ran
    induction rounds generalizing s with
    | zero => cases ran
    | succ rounds ih =>
      unfold run at ran
      split at ran
      · cases ran
      · rename_i s₁ round
        obtain ⟨taken, s', fewer, goes, ends⟩ := ih ran
        exact ⟨taken + 1, s', by omega, goes.first round, ends⟩
      · rename_i ended round
        cases ran
        exact ⟨0, s, by omega, .start, round⟩
  · intro ends
    obtain ⟨taken, s', fewer, goes, last⟩ := ends
    obtain ⟨more, rfl⟩ := Nat.exists_eq_add_of_le (Nat.succ_le_of_lt fewer)
    rw [Nat.succ_eq_add_one, Nat.add_assoc, run_goes goes, Nat.add_comm 1 more, run, last]

theorem run_of_bounded {bound : Nat} (succeeds : ∀ taken s', Goes body s taken s' → body s' ≠ none)
    (short : ∀ taken s', Goes body s taken s' → taken ≤ bound) :
    ∃ result taken s', run body (bound + 1) s = some result ∧ Goes body s taken s' ∧ body s' = some (.inr result) := by
  have ends : ∃ result taken s', Goes body s taken s' ∧ body s' = some (.inr result) := by
    by_contra endless
    have longer : ∀ rounds, ∃ s', Goes body s rounds s' := by
      intro rounds
      induction rounds with
      | zero => exact ⟨s, .start⟩
      | succ rounds ih =>
        obtain ⟨s', goes⟩ := ih
        cases round : body s' with
        | none => exact absurd round (succeeds _ _ goes)
        | some outcome =>
          cases outcome with
          | inl s'' => exact ⟨s'', goes.next round⟩
          | inr result => exact absurd ⟨result, _, _, goes, round⟩ endless
    obtain ⟨s', goes⟩ := longer (bound + 1)
    exact absurd (short _ _ goes) (Nat.not_succ_le_self bound)
  obtain ⟨result, taken, s', goes, ended⟩ := ends
  have enough : taken < bound + 1 := Nat.lt_succ_of_le (short _ _ goes)
  exact ⟨result, taken, s', run_iff.mpr ⟨taken, s', enough, goes, ended⟩, goes, ended⟩

end Rounds
