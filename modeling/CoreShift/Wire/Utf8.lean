import Mathlib.Data.List.Basic

/-! UTF-8 text as lists of bytes, and its decoding with a replacement for what is not UTF-8. -/

namespace Utf8

def bytes (text : String) : List UInt8 := text.toList.flatMap String.utf8EncodeChar

def continues (b : UInt8) : Bool := b &&& 0xC0 = 0x80

/-- Whether `x` can be the second byte of three or four that begin with `b`. -/
def follows (b x : UInt8) : Bool :=
  if b = 0xE0 then 0xA0 ≤ x ∧ x ≤ 0xBF
  else if b = 0xED then 0x80 ≤ x ∧ x ≤ 0x9F
  else if 0xE1 ≤ b ∧ b ≤ 0xEF then 0x80 ≤ x ∧ x ≤ 0xBF
  else if b = 0xF0 then 0x90 ≤ x ∧ x ≤ 0xBF
  else if 0xF1 ≤ b ∧ b ≤ 0xF3 then 0x80 ≤ x ∧ x ≤ 0xBF
  else if b = 0xF4 then 0x80 ≤ x ∧ x ≤ 0x8F
  else false

/-- How many bytes, from `b` on, begin a character that does not go on. -/
def brokenLength (b : UInt8) : List UInt8 → Nat
  | [] => 1
  | [x] => if follows b x then 2 else 1
  | x :: y :: _ => if follows b x then if continues y then 3 else 2 else 1

def lossyChars : Nat → List UInt8 → List Char
  | _, [] => []
  | skip + 1, _ :: rest => lossyChars skip rest
  | 0, b :: rest =>
    match (b :: rest).toByteArray.utf8DecodeChar? 0 with
    | some c => c :: lossyChars (c.utf8Size - 1) rest
    | none => '\uFFFD' :: lossyChars (brokenLength b rest - 1) rest

/-- `String::from_utf8_lossy`: every longest start of a character that is broken off is replaced. -/
def fromUtf8Lossy (bytes : List UInt8) : String := String.ofList (lossyChars 0 bytes)

theorem lossyChars_skip (skipped rest : List UInt8) :
    lossyChars skipped.length (skipped ++ rest) = lossyChars 0 rest := by
  induction skipped with
  | nil => rfl
  | cons b skipped ih =>
    show lossyChars (skipped.length + 1) (b :: (skipped ++ rest)) = _
    rw [lossyChars, ih]

theorem lossyChars_encode (chars : List Char) : lossyChars 0 (chars.flatMap String.utf8EncodeChar) = chars := by
  induction chars with
  | nil => rfl
  | cons c chars ih =>
    have decoded : ∀ rest : List UInt8, (String.utf8EncodeChar c ++ rest).toByteArray.utf8DecodeChar? 0 = some c := by
      intro rest
      rw [List.toByteArray_append]
      exact ByteArray.utf8DecodeChar?_utf8EncodeChar_append
    have size : (String.utf8EncodeChar c).length = c.utf8Size := String.length_utf8EncodeChar c
    have positive := c.utf8Size_pos
    rw [List.flatMap_cons]
    cases encoded : String.utf8EncodeChar c with
    | nil =>
      rw [encoded, List.length_nil] at size
      omega
    | cons b more =>
      have first := decoded (chars.flatMap String.utf8EncodeChar)
      rw [encoded, List.cons_append] at first
      rw [encoded, List.length_cons] at size
      have rest : c.utf8Size - 1 = more.length := by omega
      rw [List.cons_append, lossyChars, first]
      show c :: lossyChars (c.utf8Size - 1) _ = _
      rw [rest, lossyChars_skip, ih]

theorem fromUtf8Lossy_bytes (text : String) : fromUtf8Lossy (bytes text) = text := by
  unfold fromUtf8Lossy bytes
  rw [lossyChars_encode, String.ofList_toList]

example : lossyChars 0 [0x66, 0xE2, 0x82, 0x66, 0xC3, 0xA9, 0xFF] = ['f', '\uFFFD', 'f', 'é', '\uFFFD'] := by decide

theorem zero_notMem_encode {c : Char} (other : c ≠ '\x00') : 0 ∉ String.utf8EncodeChar c := by
  have positive : 0 < c.val.toNat := by
    rcases Nat.eq_zero_or_pos c.val.toNat with zero | positive
    · exact absurd (Char.ext (UInt32.toNat_inj.mp zero)) other
    · exact positive
  have nonzero : ∀ n, 0 < n → n < 256 → (0 : UInt8) ≠ UInt8.ofNat n := by
    intro n low high same
    have value := congrArg UInt8.toNat same
    rw [UInt8.toNat_ofNat'] at value
    change 0 = n % 2 ^ 8 at value
    omega
  unfold String.utf8EncodeChar
  simp only
  split
  · simp only [List.mem_singleton]
    exact nonzero _ positive (by omega)
  · split
    · simp only [List.mem_cons, List.not_mem_nil, or_false, not_or]
      exact ⟨nonzero _ (by omega) (by omega), nonzero _ (by omega) (by omega)⟩
    · split
      · simp only [List.mem_cons, List.not_mem_nil, or_false, not_or]
        exact ⟨nonzero _ (by omega) (by omega), nonzero _ (by omega) (by omega), nonzero _ (by omega) (by omega)⟩
      · simp only [List.mem_cons, List.not_mem_nil, or_false, not_or]
        exact ⟨nonzero _ (by omega) (by omega), nonzero _ (by omega) (by omega), nonzero _ (by omega) (by omega),
          nonzero _ (by omega) (by omega)⟩

theorem zero_notMem_bytes {text : String} (noNul : '\x00' ∉ text.toList) : 0 ∉ bytes text := by
  intro member
  obtain ⟨c, here, zero⟩ := List.mem_flatMap.mp member
  have other : c ≠ '\x00' := fun same => noNul (same ▸ here)
  exact zero_notMem_encode other zero

end Utf8
