import Mathlib.Algebra.Group.Nat.Defs
import Mathlib.Data.Nat.Notation

/-! Unsigned numbers as bytes, in either order. -/

namespace Endian

inductive ByteOrder where
  | little
  | big
  deriving DecidableEq, Repr

def toLe : Nat → Nat → List UInt8
  | 0, _ => []
  | width + 1, n => UInt8.ofNat n :: toLe width (n / 256)

def ofLe : List UInt8 → Nat
  | [] => 0
  | b :: rest => b.toNat + 256 * ofLe rest

def toBytes (order : ByteOrder) (width n : Nat) : List UInt8 :=
  match order with
  | .little => toLe width n
  | .big => (toLe width n).reverse

def ofBytes (order : ByteOrder) (bytes : List UInt8) : Nat :=
  match order with
  | .little => ofLe bytes
  | .big => ofLe bytes.reverse

@[simp] theorem length_toLe (width n : Nat) : (toLe width n).length = width := by
  induction width generalizing n with
  | zero => rfl
  | succ width ih => rw [toLe, List.length_cons, ih]

@[simp] theorem length_toBytes (order : ByteOrder) (width n : Nat) : (toBytes order width n).length = width := by
  cases order with
  | little => exact length_toLe width n
  | big => rw [toBytes, List.length_reverse, length_toLe]

theorem ofLe_toLe {width n : Nat} (fits : n < 256 ^ width) : ofLe (toLe width n) = n := by
  induction width generalizing n with
  | zero =>
    rw [Nat.pow_zero] at fits
    show 0 = n
    omega
  | succ width ih =>
    have rest : n / 256 < 256 ^ width := by
      apply Nat.div_lt_of_lt_mul
      rwa [Nat.pow_succ, Nat.mul_comm] at fits
    rw [toLe, ofLe, ih rest, UInt8.toNat_ofNat']
    omega

theorem ofBytes_toBytes (order : ByteOrder) (width : Nat) {n : Nat} (fits : n < 256 ^ width) :
    ofBytes order (toBytes order width n) = n := by
  cases order with
  | little => exact ofLe_toLe fits
  | big =>
    unfold ofBytes toBytes
    rw [List.reverse_reverse]
    exact ofLe_toLe fits

end Endian
