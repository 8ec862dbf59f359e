import CoreShift.Interaction.Exec

namespace Interaction

variable {I : Interface} {α β γ : Type}

def Outcome.AnsweredBy (o : Outcome I α) (t : List (Event I)) : Prop :=
  ∃ c answer rest, o = .waiting c ∧ t = ⟨c, answer⟩ :: rest

theorem not_answered_of_done (value : α) (t : List (Event I)) :
    ¬(Outcome.done value : Outcome I α).AnsweredBy t := by
  intro answered
  obtain ⟨_, _, _, impossible, _⟩ := answered
  cases impossible

theorem answered_waiting {c : I.Call} {t : List (Event I)}
    (answered : (Outcome.waiting c : Outcome I α).AnsweredBy t) :
    (Outcome.waiting c : Outcome I β).AnsweredBy t := by
  obtain ⟨_, answer, rest, same, split⟩ := answered
  cases same
  exact ⟨c, answer, rest, rfl, split⟩

/-- A program does nothing by chance: of two runs over exchanges that agree, one stands where the
    other does, or at a call that the other has an answer to. -/
def Determined (p : Program I α) : Prop :=
  ∀ t₁ o₁ r₁ t₂ o₂ r₂, Exec p t₁ o₁ → Exec p t₂ o₂ → t₁ ++ r₁ = t₂ ++ r₂ →
    (t₁ = t₂ ∧ o₁ = o₂) ∨ o₁.AnsweredBy r₁ ∨ o₂.AnsweredBy r₂

section
variable {p : Program I α} {t₁ r₁ t₂ r₂ : List (Event I)} {value value' : α}

theorem Determined.done (determined : Determined p) (first : Exec p t₁ (.done value))
    (second : Exec p t₂ (.done value')) (agree : t₁ ++ r₁ = t₂ ++ r₂) : t₁ = t₂ ∧ value = value' := by
  rcases determined _ _ _ _ _ _ first second agree with ⟨same, result⟩ | answered | answered
  · exact ⟨same, Outcome.done.inj result⟩
  · exact absurd answered (not_answered_of_done _ _)
  · exact absurd answered (not_answered_of_done _ _)

theorem Determined.result {t : List (Event I)} (determined : Determined p) (first : Exec p t (.done value))
    (second : Exec p t (.done value')) : value = value' :=
  (determined.done first second (rfl : t ++ [] = t ++ [])).2

theorem Determined.answered {c : I.Call} (determined : Determined p) (stands : Exec p t₁ (.waiting c))
    (finished : Exec p t₂ (.done value)) (agree : t₁ ++ r₁ = t₂ ++ r₂) :
    (Outcome.waiting c : Outcome I β).AnsweredBy r₁ := by
  rcases determined _ _ _ _ _ _ stands finished agree with ⟨_, impossible⟩ | answered | answered
  · cases impossible
  · exact answered_waiting answered
  · exact absurd answered (not_answered_of_done _ _)

end

theorem determined_loop {body : β → Program I (β ⊕ γ)} {next : γ → Program I α}
    (each : ∀ state, Determined (body state)) (after : ∀ result, Determined (next result)) (start : β) :
    Determined (.loop body start next) := by
  intro t₁ o₁ r₁ t₂ o₂ r₂ first second agree
  generalize same : Program.loop body start next = p at first
  induction first generalizing start t₂ r₂ with
  | ret value => cases same
  | waiting c next => cases same
  | call answer _ _ => cases same
  | inside head =>
    cases same
    cases second with
    | inside head' =>
      rcases each _ _ _ r₁ _ _ r₂ head head' agree with ⟨rfl, same⟩ | answered | answered
      · cases same
        exact .inl ⟨rfl, rfl⟩
      · exact .inr (.inl (answered_waiting answered))
      · exact .inr (.inr (answered_waiting answered))
    | again head' _ | leave head' _ =>
      rw [List.append_assoc] at agree
      exact .inr (.inl ((each _).answered head head' agree))
  | again head _ _ ih =>
    cases same
    rw [List.append_assoc] at agree
    cases second with
    | inside head' => exact .inr (.inr ((each _).answered head' head agree.symm))
    | again head' tail' =>
      rw [List.append_assoc] at agree
      obtain ⟨rfl, same⟩ := (each _).done head head' agree
      cases same
      rcases ih after _ _ _ _ tail' (List.append_cancel_left agree) rfl with ⟨rfl, rfl⟩ | answered | answered
      · exact .inl ⟨rfl, rfl⟩
      · exact .inr (.inl answered)
      · exact .inr (.inr answered)
    | leave head' tail' =>
      rw [List.append_assoc] at agree
      cases ((each _).done head head' agree).2
  | leave head tail _ _ =>
    cases same
    rw [List.append_assoc] at agree
    cases second with
    | inside head' => exact .inr (.inr ((each _).answered head' head agree.symm))
    | again head' tail' =>
      rw [List.append_assoc] at agree
      cases ((each _).done head head' agree).2
    | leave head' tail' =>
      rw [List.append_assoc] at agree
      obtain ⟨rfl, same⟩ := (each _).done head head' agree
      cases same
      rcases after _ _ _ _ _ _ _ tail tail' (List.append_cancel_left agree) with ⟨rfl, rfl⟩ | answered | answered
      · exact .inl ⟨rfl, rfl⟩
      · exact .inr (.inl answered)
      · exact .inr (.inr answered)

theorem Program.determined (p : Program I α) : Determined p := by
  induction p with
  | ret value =>
    intro t₁ o₁ r₁ t₂ o₂ r₂ first second agree
    cases first
    cases second
    exact .inl ⟨rfl, rfl⟩
  | call c next ih =>
    intro t₁ o₁ r₁ t₂ o₂ r₂ first second agree
    rcases exec_call_iff.mp first with ⟨rfl, rfl⟩ | ⟨answer, t₁, rfl, tail⟩
    · rcases exec_call_iff.mp second with ⟨rfl, rfl⟩ | ⟨answer', t₂, rfl, tail'⟩
      · exact .inl ⟨rfl, rfl⟩
      · exact .inr (.inl ⟨c, answer', _, rfl, agree⟩)
    · rcases exec_call_iff.mp second with ⟨rfl, rfl⟩ | ⟨answer', t₂, rfl, tail'⟩
      · exact .inr (.inr ⟨c, answer, _, rfl, agree.symm⟩)
      · cases (List.cons_eq_cons.mp agree).1
        rcases ih _ _ _ _ _ _ _ tail tail' (List.cons_eq_cons.mp agree).2 with ⟨rfl, rfl⟩ | answered | answered
        · exact .inl ⟨rfl, rfl⟩
        · exact .inr (.inl answered)
        · exact .inr (.inr answered)
  | loop body start next each after => exact determined_loop each after start

theorem Exec.extends {p : Program I α} {t t' : List (Event I)} {o o' : Outcome I α} (first : Exec p t o)
    (second : Exec p (t ++ t') o') : (t' = [] ∧ o' = o) ∨ o.AnsweredBy t' := by
  rcases p.determined _ _ t' _ _ [] first second (by simp) with ⟨same, rfl⟩ | answered | answered
  · exact .inl ⟨by simpa using same, rfl⟩
  · exact .inr answered
  · obtain ⟨_, _, _, _, impossible⟩ := answered
    cases impossible

theorem Exec.rest {p : Program I α} {after : α → Program I β} {t t' : List (Event I)} {value : α} {o}
    (first : Exec p t (.done value)) (whole : Exec (p >>= after) (t ++ t') o) : Exec (after value) t' o := by
  rcases exec_bind_cases whole with ⟨c, rfl, stopped⟩ | ⟨t₁, value', t₂, split, first', second⟩
  · rcases first.extends stopped with ⟨_, impossible⟩ | answered
    · cases impossible
    · exact absurd answered (not_answered_of_done _ _)
  · obtain ⟨rfl, rfl⟩ := p.determined.done first first' split
    rwa [List.append_cancel_left split]

theorem Exec.nextRound {body : β → Program I (β ⊕ γ)} {state following : β} {t t' : List (Event I)} {o}
    (round : Exec (body state) t (.done (.inl following)))
    (whole : Exec (Program.iterate body state) (t ++ t') o) : Exec (Program.iterate body following) t' o := by
  generalize split : t ++ t' = u at whole
  cases whole with
  | inside stopped =>
    subst split
    rcases round.extends stopped with ⟨_, impossible⟩ | answered
    · cases impossible
    · exact absurd answered (not_answered_of_done _ _)
  | again round' whole =>
    obtain ⟨rfl, same⟩ := (body state).determined.done round round' split
    cases same
    rwa [List.append_cancel_left split]
  | leave round' _ => cases ((body state).determined.done round round' split).2

end Interaction
