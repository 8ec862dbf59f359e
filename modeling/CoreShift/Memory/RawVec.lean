import Mathlib.Data.List.Basic

/-! A growable vector as its memory. -/

namespace Memory

inductive Fault where
  | overrun
  | uninitialized
  | outOfBounds
  deriving DecidableEq, Repr

/-- The cells of the allocation, each empty until something is stored in it, and how many of them count. -/
structure RawVec (α : Type) where
  cells : List (Option α)
  len : Nat
  deriving DecidableEq, Repr

namespace RawVec

variable {α : Type}

def capacity (v : RawVec α) : Nat := v.cells.length

def withCapacity (capacity : Nat) : RawVec α := ⟨List.replicate capacity none, 0⟩

def clear (v : RawVec α) : RawVec α := { v with len := 0 }

/-- A new allocation, to which only what counts is moved. -/
def grow (v : RawVec α) (capacity : Nat) : RawVec α :=
  { v with cells := v.cells.take v.len ++ List.replicate (capacity - v.len) none }

/-- Somebody else stores `xs` from the start of the allocation on. The length is not touched. -/
def store (v : RawVec α) (xs : List α) : Except Fault (RawVec α) :=
  if xs.length ≤ v.capacity then .ok { v with cells := xs.map some ++ v.cells.drop xs.length }
  else .error .overrun

/-- Every cell that is to count must lie in the allocation and have been stored. -/
def setLen (v : RawVec α) (n : Nat) : Except Fault (RawVec α) :=
  if v.capacity < n then .error .overrun
  else if (v.cells.take n).all Option.isSome then .ok { v with len := n }
  else .error .uninitialized

def get (v : RawVec α) (i : Nat) : Except Fault α :=
  if i < v.len then
    match v.cells[i]? with
    | some (some x) => .ok x
    | some none => .error .uninitialized
    | none => .error .overrun
  else .error .outOfBounds

def put (v : RawVec α) (x : α) : Except Fault (RawVec α) :=
  if v.len < v.capacity then .ok { cells := v.cells.set v.len (some x), len := v.len + 1 }
  else .error .overrun

structure Holds (v : RawVec α) (xs : List α) : Prop where
  len : v.len = xs.length
  cells : v.cells.take xs.length = xs.map some

/-- What a vector must be for its safe operations to be sound. -/
def Valid (v : RawVec α) : Prop := ∃ xs, v.Holds xs

def contents (v : RawVec α) : List α := (v.cells.take v.len).filterMap id

variable {v v' : RawVec α} {xs ys : List α}

theorem Holds.contents (holds : v.Holds xs) : v.contents = xs := by
  rw [RawVec.contents, holds.len, holds.cells, List.filterMap_map]
  exact List.filterMap_some

theorem Holds.within (holds : v.Holds xs) : xs.length ≤ v.capacity := by
  have taken := congrArg List.length holds.cells
  rw [List.length_take, List.length_map] at taken
  unfold capacity
  omega

theorem holds_clear (v : RawVec α) : v.clear.Holds [] := ⟨rfl, rfl⟩

theorem holds_withCapacity (capacity : Nat) : (withCapacity capacity : RawVec α).Holds [] := ⟨rfl, rfl⟩

@[simp] theorem capacity_withCapacity (capacity : Nat) : (withCapacity capacity : RawVec α).capacity = capacity :=
  List.length_replicate

theorem Holds.capacity_grow (holds : v.Holds xs) {capacity : Nat} (room : xs.length ≤ capacity) :
    (v.grow capacity).capacity = capacity := by
  have within := holds.within
  unfold RawVec.capacity at within
  simp only [RawVec.capacity, grow, holds.len, List.length_append, List.length_take, List.length_replicate]
  omega

theorem Holds.grow (holds : v.Holds xs) (capacity : Nat) : (v.grow capacity).Holds xs where
  len := holds.len
  cells := by
    have whole : (v.cells.take xs.length).length = xs.length := by rw [holds.cells, List.length_map]
    simp only [RawVec.grow, holds.len]
    rw [List.take_append_of_le_length (Nat.le_of_eq whole.symm), List.take_take, Nat.min_self, holds.cells]

theorem store_setLen (v : RawVec α) (room : xs.length ≤ v.capacity) :
    ∃ v', (v.store xs >>= (·.setLen xs.length)) = .ok v' ∧ v'.Holds xs ∧ v'.capacity = v.capacity := by
  have taken : (xs.map some ++ v.cells.drop xs.length).take xs.length = xs.map some := by
    have same : (xs.map some).length = xs.length := List.length_map _
    rw [List.take_append_of_le_length (Nat.le_of_eq same.symm), ← same, List.take_length]
  have size : (xs.map some ++ v.cells.drop xs.length).length = v.cells.length := by
    unfold capacity at room
    rw [List.length_append, List.length_map, List.length_drop]
    omega
  refine ⟨⟨xs.map some ++ v.cells.drop xs.length, xs.length⟩, ?_, ⟨rfl, taken⟩, size⟩
  have stored : v.store xs = .ok ⟨xs.map some ++ v.cells.drop xs.length, v.len⟩ := if_pos room
  have inside : ¬v.cells.length < xs.length := Nat.not_lt.mpr room
  have filled : (xs.map some).all Option.isSome = true := by
    rw [List.all_map, List.all_eq_true]
    exact fun _ _ => rfl
  rw [stored]
  show setLen _ _ = _
  simp only [setLen, capacity, size, inside, taken, filled, ↓reduceIte]

theorem Holds.getElem? (holds : v.Holds xs) {i : Nat} (inside : i < xs.length) : v.cells[i]? = some (some xs[i]) := by
  rw [← List.getElem?_take_of_lt inside, holds.cells, List.getElem?_map, List.getElem?_eq_getElem inside]
  rfl

theorem Holds.get (holds : v.Holds xs) {i : Nat} (inside : i < xs.length) : v.get i = .ok xs[i] := by
  have counts : i < v.len := by rwa [holds.len]
  rw [RawVec.get, if_pos counts, holds.getElem? inside]

theorem Holds.put (holds : v.Holds xs) (room : xs.length < v.capacity) (x : α) :
    ∃ v', v.put x = .ok v' ∧ v'.Holds (xs ++ [x]) ∧ v'.capacity = v.capacity := by
  have space : v.len < v.capacity := by rwa [holds.len]
  refine ⟨⟨v.cells.set v.len (some x), v.len + 1⟩, if_pos space, ⟨?_, ?_⟩, List.length_set⟩
  · rw [List.length_append, holds.len]
    rfl
  · have next : (v.cells.set xs.length (some x))[xs.length]? = some (some x) := List.getElem?_set_self room
    rw [holds.len, List.length_append, List.length_singleton, List.take_add_one, next,
      List.take_set_of_le (Nat.le_refl _), holds.cells, List.map_append]
    rfl

end RawVec

end Memory
