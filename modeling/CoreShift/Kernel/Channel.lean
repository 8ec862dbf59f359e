import Mathlib.Data.List.Basic

/-! The pipe between two processes, as `pipe(7)`, `read(2)` and `write(2)` describe it. -/

/-- The flags belong to the two open ends, whatever descriptors refer to them. -/
structure Channel (B : Type) where
  capacity : Nat
  content : List B
  fits : content.length ≤ capacity
  readNonblock : Bool
  writeNonblock : Bool

namespace Channel

inductive Op (B : Type) where
  | read (count : Nat)
  | write (data : List B)
  deriving DecidableEq, Repr

/-- What a call comes back with. With `part` it does not: it has moved this much, and goes on. -/
inductive Answer (B : Type) where
  | data (bytes : List B)
  | wrote (n : Nat)
  | part (n : Nat)
  | again
  | broken
  deriving DecidableEq, Repr

variable {B : Type}

def new (B : Type) (capacity : Nat) (nonblock : Bool) : Channel B :=
  ⟨capacity, [], Nat.zero_le _, nonblock, nonblock⟩

def take (c : Channel B) (n : Nat) : Channel B :=
  { c with
    content := c.content.drop n
    fits := Nat.le_trans (by rw [List.length_drop]; exact Nat.sub_le ..) c.fits }

def put (c : Channel B) (data : List B) (room : c.content.length + data.length ≤ c.capacity) : Channel B :=
  { c with
    content := c.content ++ data
    fits := by rw [List.length_append]; exact room }

def nonblock (c : Channel B) : Op B → Bool
  | .read _ => c.readNonblock
  | .write _ => c.writeNonblock

/-- There is no room for a write of `n`: for all of it up to `atomic`, for any of it beyond. -/
def Full (atomic : Nat) (c : Channel B) (n : Nat) : Prop :=
  if n ≤ atomic then c.capacity < c.content.length + n else c.content.length = c.capacity

/-- The call would have to wait for the other side, which is still open. -/
def Stalls (atomic : Nat) (opened : Prop) (c : Channel B) : Op B → Prop
  | .read count => opened ∧ count ≠ 0 ∧ c.content = []
  | .write data => opened ∧ data ≠ [] ∧ c.Full atomic data.length

/-- What a call on one end does, when the other end is `opened` or not. A call that stalls on an end
    without the flag does nothing yet. -/
inductive Move (atomic : Nat) (opened : Prop) : Channel B → Op B → Answer B → Channel B → Prop where
  | readNothing (c : Channel B) : Move atomic opened c (.read 0) (.data []) c
  | read {c : Channel B} {count : Nat} (wanted : count ≠ 0) (filled : c.content ≠ []) :
      Move atomic opened c (.read count) (.data (c.content.take count)) (c.take count)
  | eof {c : Channel B} {count : Nat} (empty : c.content = []) (closed : ¬opened) :
      Move atomic opened c (.read count) (.data []) c
  | readAgain {c : Channel B} {count : Nat} (nonblock : c.readNonblock = true)
      (stalls : c.Stalls atomic opened (.read count)) : Move atomic opened c (.read count) .again c
  | writeNothing (c : Channel B) : Move atomic opened c (.write []) (.wrote 0) c
  | write {c : Channel B} {data : List B} (given : data ≠ []) (reaches : opened)
      (room : c.content.length + data.length ≤ c.capacity) :
      Move atomic opened c (.write data) (.wrote data.length) (c.put data room)
  | writeSome {c : Channel B} {data : List B} {n : Nat} (nonblock : c.writeNonblock = true) (reaches : opened)
      (large : atomic < data.length) (some : 0 < n)
      (room : c.content.length + (data.take n).length ≤ c.capacity) (less : n < data.length) :
      Move atomic opened c (.write data) (.wrote n) (c.put (data.take n) room)
  | writeOn {c : Channel B} {data : List B} {n : Nat} (block : c.writeNonblock = false) (reaches : opened)
      (large : atomic < data.length) (some : 0 < n)
      (room : c.content.length + (data.take n).length ≤ c.capacity) (less : n < data.length) :
      Move atomic opened c (.write data) (.part n) (c.put (data.take n) room)
  | broken {c : Channel B} {data : List B} (given : data ≠ []) (closed : ¬opened) :
      Move atomic opened c (.write data) .broken c
  | writeAgain {c : Channel B} {data : List B} (nonblock : c.writeNonblock = true)
      (stalls : c.Stalls atomic opened (.write data)) : Move atomic opened c (.write data) .again c

variable {atomic : Nat} {opened : Prop} {c c' : Channel B} {op : Op B} {answer : Answer B}

theorem not_full {n : Nat} (some : 0 < n) (room : c.content.length + n ≤ c.capacity) : ¬c.Full atomic n := by
  unfold Full
  split <;> omega

theorem not_full_of_part {data : List B} {n : Nat} (large : atomic < data.length) (some : 0 < n)
    (less : n < data.length) (room : c.content.length + (data.take n).length ≤ c.capacity) :
    ¬c.Full atomic data.length := by
  have moved : (data.take n).length = n := by
    rw [List.length_take]
    omega
  unfold Full
  rw [if_neg (by omega)]
  omega

theorem Move.not_stalls (move : Move atomic opened c op answer c') (moved : answer ≠ .again) :
    ¬c.Stalls atomic opened op := by
  cases move with
  | readNothing =>
    intro stalls
    exact stalls.2.1 rfl
  | read wanted filled =>
    intro stalls
    exact filled stalls.2.2
  | eof empty closed | broken given closed =>
    intro stalls
    exact closed stalls.1
  | writeNothing =>
    intro stalls
    exact stalls.2.1 rfl
  | write given reaches room =>
    intro stalls
    exact not_full (List.length_pos_of_ne_nil given) room stalls.2.2
  | writeSome _ reaches large some room less | writeOn _ reaches large some room less =>
    intro stalls
    exact not_full_of_part large some less room stalls.2.2
  | readAgain | writeAgain => exact absurd rfl moved

theorem Move.stalls (move : Move atomic opened c op .again c') :
    c.nonblock op = true ∧ c.Stalls atomic opened op := by
  cases move with
  | readAgain nonblock stalls | writeAgain nonblock stalls => exact ⟨nonblock, stalls⟩

theorem Move.again_iff (move : Move atomic opened c op answer c') :
    answer = .again ↔ c.nonblock op = true ∧ c.Stalls atomic opened op := by
  apply Iff.intro
  · intro refused
    subst refused
    exact move.stalls
  · intro stalls
    by_contra moved
    exact move.not_stalls moved stalls.2

theorem Move.flags (move : Move atomic opened c op answer c') :
    c'.readNonblock = c.readNonblock ∧ c'.writeNonblock = c.writeNonblock := by
  cases move <;> exact ⟨rfl, rfl⟩

end Channel
