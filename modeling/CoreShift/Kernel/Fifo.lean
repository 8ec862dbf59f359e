import CoreShift.Kernel.Channel

namespace Channel

variable {B : Type}

def entered : Op B → Answer B → List B
  | .write data, .wrote n | .write data, .part n => data.take n
  | _, _ => []

def taken : Op B → Answer B → List B
  | .read _, .data bytes => bytes
  | _, _ => []

variable {atomic : Nat} {opened : Prop} {c c' : Channel B} {op : Op B} {answer : Answer B}

theorem Move.fifo (move : Move atomic opened c op answer c') :
    c.content ++ entered op answer = taken op answer ++ c'.content := by
  cases move with
  | @read count wanted filled =>
    show c.content ++ [] = c.content.take count ++ c.content.drop count
    rw [List.append_nil, List.take_append_drop]
  | @write data given reaches room =>
    show c.content ++ data.take data.length = c.content ++ data
    rw [List.take_length]
  | writeSome | writeOn => rfl
  | readNothing | eof | readAgain | writeNothing | broken | writeAgain => simp [entered, taken]

theorem Move.atEnd {count : Nat} (move : Move atomic opened c (.read count) (.data []) c') (wanted : count ≠ 0) :
    c.content = [] ∧ ¬opened := by
  generalize nothing : Answer.data (B := B) [] = answer at move
  cases move with
  | readNothing => exact absurd rfl wanted
  | read wanted filled =>
    have none : c.content.take count = [] := (Answer.data.inj nothing).symm
    rcases List.take_eq_nil_iff.mp none with zero | empty
    · exact absurd zero wanted
    · exact absurd empty filled
  | eof empty closed => exact ⟨empty, closed⟩
  | readAgain => cases nothing

theorem Move.progress {data : List B} {n : Nat} (move : Move atomic opened c (.write data) (.wrote n) c')
    (given : data ≠ []) : 0 < n := by
  cases move with
  | writeNothing => exact absurd rfl given
  | write => exact List.length_pos_of_ne_nil given
  | writeSome _ _ _ some => exact some

end Channel
