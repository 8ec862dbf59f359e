import CoreShift.Interaction.Exec

namespace Interaction

variable {I : Interface} {α β γ : Type}

def replayLoop
    (round : β → List (Event I) → Option (Outcome I (β ⊕ γ) × List (Event I))) :
    Nat → β → List (Event I) → Option (Outcome I γ × List (Event I))
  | 0, _, _ => none
  | fuel + 1, state, t =>
    match round state t with
    | some (.done (.inl following), rest) => replayLoop round fuel following rest
    | some (.done (.inr result), rest) => some (.done result, rest)
    | some (.waiting c, rest) => some (.waiting c, rest)
    | none => none

/-- Run a program against given exchanges. The result is where it stands and what it left over;
    there is none when an exchange answers another call, or when a loop outlasts the fuel. -/
def Program.replay [DecidableEq I.Call] (fuel : Nat) :
    {α : Type} → Program I α → List (Event I) → Option (Outcome I α × List (Event I))
  | _, .ret value, t => some (.done value, t)
  | _, .call c _, [] => some (.waiting c, [])
  | _, .call c next, e :: t =>
    if same : e.call = c then (next (same ▸ e.answer)).replay fuel t else none
  | _, .loop body start next, t =>
    match replayLoop (fun state rest => (body state).replay fuel rest) fuel start t with
    | some (.done result, rest) => (next result).replay fuel rest
    | some (.waiting c, rest) => some (.waiting c, rest)
    | none => none

def Replays (p : Program I α) (t : List (Event I)) (result : Option (Outcome I α × List (Event I))) : Prop :=
  ∀ o rest, result = some (o, rest) → ∃ used, t = used ++ rest ∧ Exec p used o

theorem replayLoop_sound {body : β → Program I (β ⊕ γ)}
    {round : β → List (Event I) → Option (Outcome I (β ⊕ γ) × List (Event I))}
    (sound : ∀ state t, Replays (body state) t (round state t)) (fuel : Nat) (state : β)
    (t : List (Event I)) : Replays (Program.iterate body state) t (replayLoop round fuel state t) := by
  induction fuel generalizing state t with
  | zero => simp [Replays, replayLoop]
  | succ fuel ih =>
    intro o rest found
    unfold replayLoop at found
    split at found
    · rename_i following left inner
      obtain ⟨used, rfl, head⟩ := sound state t _ _ inner
      obtain ⟨more, rfl, tail⟩ := ih following left _ _ found
      exact ⟨used ++ more, by simp, .again head tail⟩
    · rename_i result left inner
      cases found
      obtain ⟨used, rfl, head⟩ := sound state t _ _ inner
      exact ⟨used, rfl, by simpa [Program.iterate] using Exec.leave head (.ret result)⟩
    · rename_i c left inner
      cases found
      obtain ⟨used, rfl, head⟩ := sound state t _ _ inner
      exact ⟨used, rfl, .inside head⟩
    · cases found

theorem Program.replay_sound [DecidableEq I.Call] (fuel : Nat) (p : Program I α) (t : List (Event I)) :
    Replays p t (p.replay fuel t) := by
  induction p generalizing t with
  | ret value =>
    intro o rest found
    cases found
    exact ⟨[], rfl, .ret value⟩
  | call c next ih =>
    intro o rest found
    cases t with
    | nil => cases found; exact ⟨[], rfl, .waiting _ _⟩
    | cons e t =>
      obtain ⟨given, answer⟩ := e
      simp only [Program.replay] at found
      split at found
      · rename_i same
        subst same
        obtain ⟨used, rfl, run⟩ := ih answer t _ _ found
        exact ⟨_ :: used, rfl, .call answer run⟩
      · cases found
  | loop body start next each ih =>
    intro o rest found
    have rounds := replayLoop_sound each fuel start t
    simp only [Program.replay] at found
    split at found
    · rename_i result left inner
      obtain ⟨used, rfl, head⟩ := rounds _ _ inner
      obtain ⟨more, rfl, tail⟩ := ih result left _ _ found
      exact ⟨used ++ more, by simp, head.bind_done tail⟩
    · rename_i c left inner
      cases found
      obtain ⟨used, rfl, head⟩ := rounds _ _ inner
      exact ⟨used, rfl, (Exec.bind_waiting head : Exec (Program.iterate body start >>= next) _ _)⟩
    · cases found

theorem Exec.of_replay [DecidableEq I.Call] (fuel : Nat) {p : Program I α} {t o}
    (found : p.replay fuel t = some (o, [])) : Exec p t o := by
  obtain ⟨used, rfl, run⟩ := p.replay_sound fuel t _ _ found
  simpa using run

end Interaction
