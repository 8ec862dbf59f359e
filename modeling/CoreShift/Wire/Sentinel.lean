import Mathlib.Data.List.Basic

/-! Lists that are ended by a sentinel, and how they are read. -/

namespace Sentinel

variable {α β : Type} {ends : α → Bool}

/-- What stands before the first sentinel. There is nothing when the list has none: a reader goes on
    behind its end. -/
def upTo (ends : α → Bool) : List α → Option (List α)
  | [] => none
  | x :: rest => if ends x then some [] else (upTo ends rest).map (x :: ·)

theorem upTo_append {items rest : List α} {sentinel : α} (inside : ∀ x ∈ items, ends x = false)
    (last : ends sentinel = true) : upTo ends (items ++ sentinel :: rest) = some items := by
  induction items with
  | nil =>
    rw [List.nil_append, upTo, if_pos last]
  | cons x items ih =>
    have here : ¬ends x = true := by simp [inside x (List.mem_cons_self ..)]
    have tail := ih fun y member => inside y (List.mem_cons_of_mem x member)
    rw [List.cons_append, upTo, if_neg here, tail, Option.map_some]

end Sentinel
