import Mathlib.Data.List.Nodup

namespace Interaction

/-- The values `l` were taken, one after the other, from a counter that stood at `a` before and stands at `b`. -/
inductive Counted {α : Type} (next : α → α) : α → List α → α → Prop where
  | nil (a : α) : Counted next a [] a
  | cons {a b : α} {l : List α} (rest : Counted next (next a) l b) : Counted next a (a :: l) b

variable {α : Type} {next : α → α} {a b c : α} {l l' : List α}

theorem Counted.append (first : Counted next a l b) (second : Counted next b l' c) :
    Counted next a (l ++ l') c := by
  induction first with
  | nil => exact second
  | cons _ ih => exact .cons (ih second)

theorem Counted.single (a : α) : Counted next a [a] (next a) := .cons (.nil _)

theorem Counted.values {value : α → Nat} {bound : Nat}
    (advances : ∀ a, value a + 1 < bound → value (next a) = value a + 1) (counted : Counted next a l b)
    (room : value a + l.length < bound) : l.map value = List.range' (value a) l.length := by
  induction counted with
  | nil => rfl
  | @cons a b l rest ih =>
    rw [List.length_cons] at room
    have one : value (next a) = value a + 1 := advances a (by omega)
    rw [List.map_cons, ih (by omega), one, List.length_cons, List.range'_succ]

theorem Counted.nodup {value : α → Nat} {bound : Nat}
    (advances : ∀ a, value a + 1 < bound → value (next a) = value a + 1) (counted : Counted next a l b)
    (room : value a + l.length < bound) : l.Nodup := by
  apply List.Nodup.of_map value
  rw [counted.values advances room]
  exact List.nodup_range'

end Interaction
