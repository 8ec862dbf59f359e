import Mathlib.Data.List.Basic

namespace Interaction

variable {E : Type}

/-- Every element that `act` picks out stands after a part of the list that is `ready`. -/
def Guarded (ready : List E → Prop) (act : E → Prop) (t : List E) : Prop :=
  ∀ before e after, t = before ++ e :: after → act e → ready before

theorem guarded_of_forall {ready : List E → Prop} {act : E → Prop} {t : List E}
    (quiet : ∀ e ∈ t, ¬act e) : Guarded ready act t := by
  intro before e after split acts
  have member : e ∈ t := by simp [split]
  exact absurd acts (quiet e member)

@[simp] theorem guarded_nil (ready : List E → Prop) (act : E → Prop) : Guarded ready act [] :=
  guarded_of_forall (by simp)

theorem guarded_append {ready : List E → Prop} {act : E → Prop} {t t' : List E} :
    Guarded ready act (t ++ t') ↔
      Guarded ready act t ∧ Guarded (fun before => ready (t ++ before)) act t' := by
  constructor
  · intro guarded
    refine ⟨fun before e after split => ?_, fun before e after split => ?_⟩
    · exact guarded before e (after ++ t') (by simp [split])
    · exact guarded (t ++ before) e after (by simp [split])
  · rintro ⟨first, second⟩ before e after split acts
    rcases List.append_eq_append_iff.mp split with ⟨middle, rfl, same⟩ | ⟨middle, rfl, same⟩
    · exact second middle e after same acts
    · cases middle with
      | nil =>
        have ready : ready ((before ++ []) ++ []) := second [] e after (by simpa using same.symm) acts
        simpa using ready
      | cons e' middle =>
        rw [List.cons_append] at same
        cases same
        exact first before e middle rfl acts

theorem Guarded.mono {ready ready' : List E → Prop} {act : E → Prop} {t : List E}
    (guarded : Guarded ready act t) (weaken : ∀ before, ready before → ready' before) :
    Guarded ready' act t :=
  fun before e after split acts => weaken before (guarded before e after split acts)

theorem guarded_of_ready {ready : List E → Prop} {act : E → Prop} {t : List E}
    (always : ∀ before, ready before) : Guarded ready act t :=
  fun before _ _ _ _ => always before

@[simp] theorem guarded_cons {ready : List E → Prop} {act : E → Prop} {e : E} {t : List E} :
    Guarded ready act (e :: t) ↔
      (act e → ready []) ∧ Guarded (fun before => ready (e :: before)) act t := by
  rw [show e :: t = [e] ++ t from rfl, guarded_append]
  refine and_congr_left fun _ => ⟨fun guarded acts => guarded [] e [] rfl acts, ?_⟩
  intro first before e' after split acts
  cases before with
  | nil =>
    cases split
    exact first acts
  | cons e'' before => simp at split

theorem split_unique {P : E → Prop} {t t' u u' : List E} {e e' : E} (before : ∀ x ∈ t, ¬P x) (after : ∀ x ∈ t', ¬P x)
    (here : P e') (same : t ++ e :: t' = u ++ e' :: u') : u = t ∧ e' = e ∧ u' = t' := by
  rcases List.append_eq_append_iff.mp same with ⟨middle, rfl, rest⟩ | ⟨middle, rfl, rest⟩
  · cases middle with
    | nil =>
      cases rest
      exact ⟨List.append_nil t, rfl, rfl⟩
    | cons x middle =>
      have member : e' ∈ t' := by simp [(List.cons_eq_cons.mp rest).2]
      exact absurd here (after e' member)
  · cases middle with
    | nil =>
      cases rest
      exact ⟨(List.append_nil u).symm, rfl, rfl⟩
    | cons x middle =>
      obtain ⟨rfl, _⟩ := List.cons_eq_cons.mp rest
      exact absurd here (before e' (by simp))

end Interaction
