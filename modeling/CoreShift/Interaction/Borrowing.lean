import CoreShift.Interaction.Ownership

namespace Interaction.Custody

variable {I : Interface} {R α β γ : Type}

/-- A custody in which an exchange needs what its call names, beside what it gives back. What it names it
    leaves as it was. -/
def lending (C : Custody I R) (named : I.Call → Multiset R) : Custody I R where
  created e := C.created e + named e.call
  returned e := C.returned e + named e.call
  foreign := C.foreign

variable {C : Custody I R} {named : I.Call → Multiset R} {permitted : Event I → Prop}
  {held held' : Multiset R} {t : List (Event I)} {e : Event I} {p : Program I α} {left : α → Multiset R}

theorem Ledger.forget (ledger : (C.lending named).Ledger held t held') : C.Ledger held t held' := by
  induction ledger with
  | nil held => exact .nil held
  | @cons rest held e t known later ih =>
    have kept : C.Ledger (named e.call + rest + C.created e) t held := by
      rwa [add_comm (named e.call), add_assoc, add_comm (named e.call)]
    have step : C.Ledger (C.returned e + (named e.call + rest)) (e :: t) held := .cons known kept
    rwa [← add_assoc] at step

theorem Ledger.lend (ledger : C.Ledger held t held') (unnamed : ∀ e ∈ t, named e.call = 0) :
    (C.lending named).Ledger held t held' := by
  induction ledger with
  | nil held => exact .nil held
  | @cons rest held e t known later ih =>
    have none := unnamed e (List.mem_cons_self ..)
    have gives : (C.lending named).returned e = C.returned e := by
      show C.returned e + named e.call = _
      rw [none, add_zero]
    have makes : (C.lending named).created e = C.created e := by
      show C.created e + named e.call = _
      rw [none, add_zero]
    have rest' := ih fun e' member => unnamed e' (List.mem_cons_of_mem e member)
    rw [← makes] at rest'
    rw [← gives]
    exact .cons known rest'

theorem Ledger.known (ledger : C.Ledger held t held') : ∀ e ∈ t, ¬C.foreign e := by
  induction ledger with
  | nil => simp
  | cons known _ ih => exact List.forall_mem_cons.mpr ⟨known, ih⟩

theorem Ledger.names {t' : List (Event I)} (ledger : (C.lending named).Ledger held (t ++ e :: t') held') :
    ∃ middle, C.Ledger held t middle ∧ named e.call ≤ middle := by
  obtain ⟨middle, before, after⟩ := ledger.split
  refine ⟨middle, before.forget, ?_⟩
  have both : C.returned e + named e.call ≤ middle := after.returns
  exact le_trans (Multiset.le_add_left _ _) both

theorem Manages.lend (manages : C.Manages permitted p held left) (unnamed : p.Issues fun c => named c = 0) :
    (C.lending named).Manages permitted p held left := by
  intro t o run allowed
  obtain ⟨after, ledger, done⟩ := manages t o run allowed
  exact ⟨after, ledger.lend (run.issues unnamed).1, done⟩

def Borrows (C : Custody I R) (named : I.Call → Multiset R) (held : Multiset R) (e : Event I) : Prop :=
  C.Silent e ∧ named e.call ≤ held

theorem Borrows.ledger (borrows : C.Borrows named held e) : (C.lending named).Ledger held [e] held := by
  obtain ⟨⟨known, makes, gives⟩, within⟩ := borrows
  obtain ⟨rest, same⟩ := Multiset.le_iff_exists_add.mp within
  have step : (C.lending named).Ledger ((C.lending named).returned e + rest) [e] (rest + (C.lending named).created e) :=
    .cons known (.nil _)
  have before : (C.lending named).returned e + rest = held := by
    show C.returned e + named e.call + rest = held
    rw [gives, zero_add, same]
  have after : rest + (C.lending named).created e = held := by
    show rest + (C.created e + named e.call) = held
    rw [makes, zero_add, add_comm, same]
  rwa [before, after] at step

theorem manages_of_borrows (borrows : p.Issues fun c => ∀ answer, C.Borrows named held ⟨c, answer⟩) :
    (C.lending named).Manages permitted p held fun _ => held := by
  intro t o run allowed
  have each := (run.issues borrows).1
  refine ⟨held, ?_, fun _ _ => rfl⟩
  clear run allowed
  induction t with
  | nil => exact .nil held
  | cons e t ih =>
    have first := (each e (List.mem_cons_self ..) e.answer).ledger
    exact first.append (ih fun e' member => each e' (List.mem_cons_of_mem e member))

section
variable {body : β → Program I (β ⊕ γ)} {hold : β → Multiset R} {last : γ → Multiset R}

theorem manages_iterate (each : ∀ state, C.Manages permitted (body state) (hold state) (Sum.elim hold last))
    (start : β) : C.Manages permitted (Program.iterate body start) (hold start) last := by
  intro t o run allowed
  obtain ⟨rounds, state, final, rfl, reached, finish⟩ := exec_iterate_cases run
  have before : C.Ledger (hold start) rounds (hold state) := by
    clear run finish
    induction reached with
    | start => exact .nil _
    | @next t₁ t₂ state following reached round ih =>
      have first := ih fun e member => allowed e (by
        rcases List.mem_append.mp member with inside | inside <;> simp [inside])
      obtain ⟨after, ledger, done⟩ := each state _ _ round fun e member => allowed e (by simp [member])
      rw [done _ rfl] at ledger
      exact first.append ledger
  have rest : ∀ e ∈ final, permitted e := fun e member => allowed e (List.mem_append_right _ member)
  rcases finish with ⟨c, rfl, stopped⟩ | ⟨result, rfl, finished⟩
  · obtain ⟨after, ledger, _⟩ := each state _ _ stopped rest
    exact ⟨after, before.append ledger, nofun⟩
  · obtain ⟨after, ledger, done⟩ := each state _ _ finished rest
    refine ⟨after, before.append ledger, fun value same => ?_⟩
    cases same
    exact done _ rfl

end

end Interaction.Custody
