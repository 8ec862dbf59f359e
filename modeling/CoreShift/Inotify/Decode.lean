import CoreShift.System
import CoreShift.Wire.Endian
import CoreShift.Wire.Rounds
import CoreShift.Wire.Utf8

namespace CoreShift

open Endian

structure InotifyEvent where
  wd : Int32
  mask : UInt32
  name : Option String
  deriving DecidableEq, Repr

namespace Inotify

/-- `libc::inotify_event`. -/
structure Header where
  wd : Int32
  mask : UInt32
  cookie : UInt32
  len : UInt32
  deriving DecidableEq, Repr

/-- A `&[u8]`, which has at most `isize::MAX` bytes. -/
structure Slice (width : Nat) where
  bytes : Bytes
  fits : bytes.length < 2 ^ (width - 1)

inductive Pointer where
  | bits32
  | bits64
  deriving DecidableEq, Repr

@[reducible] def Pointer.width : Pointer → Nat
  | .bits32 => 32
  | .bits64 => 64

/-- `size_of::<inotify_event>()`. -/
def base : Nat := 16

/-- The sum of two `usize`, which wraps around in a release build. -/
def add (width a b : Nat) : Nat := (a + b) % 2 ^ width

/-- `&bytes[start..stop]`, which panics when that is not within the bytes. -/
def slice (bytes : Bytes) (start stop : Nat) : Option Bytes :=
  if start ≤ stop ∧ stop ≤ bytes.length then some ((bytes.take stop).drop start) else none

def headerOf (order : ByteOrder) (bytes : Bytes) : Header :=
  { wd := (UInt32.ofNat (ofBytes order (bytes.take 4))).toInt32
    mask := UInt32.ofNat (ofBytes order ((bytes.drop 4).take 4))
    cookie := UInt32.ofNat (ofBytes order ((bytes.drop 8).take 4))
    len := UInt32.ofNat (ofBytes order ((bytes.drop 12).take 4)) }

/-- `read_unaligned`. A read that is not within the bytes is undefined. -/
def readHeader (order : ByteOrder) (bytes : Bytes) (offset : Nat) : Option Header :=
  (slice bytes offset (offset + base)).map (headerOf order)

def readName (width : Nat) (bytes : Bytes) (offset : Nat) (len : UInt32) : Option (Option String) :=
  if len > 0 then
    (slice bytes (add width offset base) (add width (add width offset base) len.toNat)).map fun nameBuf =>
      some (Utf8.fromUtf8Lossy (nameBuf.takeWhile (· ≠ 0)))
  else some none

def decodeRound {width : Nat} (order : ByteOrder) (buf : Slice width) :
    Nat × List InotifyEvent → Option ((Nat × List InotifyEvent) ⊕ List InotifyEvent)
  | (offset, events) =>
    if add width offset base ≤ buf.bytes.length then do
      let event ← readHeader order buf.bytes offset
      let size := add width base event.len.toNat
      if add width offset size > buf.bytes.length then
        -- a truncated event at the end of the buffer is ignored
        return .inr events
      else
        let name ← readName width buf.bytes offset event.len
        return .inl (add width offset size, events ++ [{ wd := event.wd, mask := event.mask, name }])
    else return .inr events

/-- There is nothing when the loop panics. The rounds suffice for as many headers as fit. -/
def decodeEvents {width : Nat} (order : ByteOrder) (buf : Slice width) : Option (List InotifyEvent) :=
  Rounds.run (decodeRound order buf) (buf.bytes.length / base + 1) (0, [])

theorem add_of_lt {width a b : Nat} (fits : a + b < 2 ^ width) : add width a b = a + b := Nat.mod_eq_of_lt fits

theorem Slice.room {pointer : Pointer} (buf : Slice pointer.width) : buf.bytes.length + base < 2 ^ pointer.width := by
  unfold base
  cases pointer with
  | bits32 =>
    have fits : buf.bytes.length < 2 ^ (32 - 1) := buf.fits
    show buf.bytes.length + 16 < 2 ^ 32
    omega
  | bits64 =>
    have fits : buf.bytes.length < 2 ^ (64 - 1) := buf.fits
    show buf.bytes.length + 16 < 2 ^ 64
    omega

def Header.event (header : Header) (name : Option String) : InotifyEvent :=
  { wd := header.wd, mask := header.mask, name }

def headerAt (order : ByteOrder) (bytes : Bytes) (offset : Nat) : Header :=
  headerOf order ((bytes.take (offset + base)).drop offset)

def sizeAt (order : ByteOrder) (bytes : Bytes) (offset : Nat) : Nat := base + (headerAt order bytes offset).len.toNat

def nameOf (field : Bytes) : Option String :=
  if field = [] then none else some (Utf8.fromUtf8Lossy (field.takeWhile (· ≠ 0)))

def fieldAt (order : ByteOrder) (bytes : Bytes) (offset : Nat) : Bytes :=
  (bytes.take (offset + sizeAt order bytes offset)).drop (offset + base)

def eventAt (order : ByteOrder) (bytes : Bytes) (offset : Nat) : InotifyEvent :=
  (headerAt order bytes offset).event (nameOf (fieldAt order bytes offset))

section
variable {width : Nat} {order : ByteOrder} {buf : Slice width} {offset : Nat} {events : List InotifyEvent}

theorem readHeader_of_headed (headed : offset + base ≤ buf.bytes.length) :
    readHeader order buf.bytes offset = some (headerAt order buf.bytes offset) := by
  rw [readHeader, slice, if_pos ⟨Nat.le_add_right _ _, headed⟩, Option.map_some]
  rfl

theorem decodeRound_of_not_headed (room : buf.bytes.length + base < 2 ^ width) (reached : offset ≤ buf.bytes.length)
    (missing : ¬offset + base ≤ buf.bytes.length) : decodeRound order buf (offset, events) = some (.inr events) := by
  have sum : add width offset base = offset + base := add_of_lt (by omega)
  exact if_neg (by rwa [sum])

theorem readName_of_whole (room : buf.bytes.length + base < 2 ^ width)
    (whole : offset + sizeAt order buf.bytes offset ≤ buf.bytes.length) :
    readName width buf.bytes offset (headerAt order buf.bytes offset).len =
      some (nameOf (fieldAt order buf.bytes offset)) := by
  have sum : offset + sizeAt order buf.bytes offset = offset + base + (headerAt order buf.bytes offset).len.toNat :=
    (Nat.add_assoc ..).symm
  have start : add width offset base = offset + base := add_of_lt (by omega)
  have stop : add width (offset + base) (headerAt order buf.bytes offset).len.toNat =
      offset + sizeAt order buf.bytes offset := by
    rw [sum]
    exact add_of_lt (by omega)
  have within : offset + base ≤ offset + sizeAt order buf.bytes offset ∧
      offset + sizeAt order buf.bytes offset ≤ buf.bytes.length := by omega
  have length : (fieldAt order buf.bytes offset).length = (headerAt order buf.bytes offset).len.toNat := by
    rw [fieldAt, List.length_drop, List.length_take]
    omega
  have named : (headerAt order buf.bytes offset).len > 0 ↔ fieldAt order buf.bytes offset ≠ [] := by
    rw [← List.length_pos_iff, length, gt_iff_lt, UInt32.lt_iff_toNat_lt]
    exact Iff.rfl
  unfold readName nameOf
  rw [start, stop, slice, if_pos within]
  by_cases empty : fieldAt order buf.bytes offset = []
  · rw [if_neg (fun some => named.mp some empty), if_pos empty]
  · rw [if_pos (named.mpr empty), if_neg empty, Option.map_some]
    rfl

theorem decodeRound_of_headed (room : buf.bytes.length + base < 2 ^ width) (headed : offset + base ≤ buf.bytes.length)
    (fits : offset + sizeAt order buf.bytes offset < 2 ^ width) :
    decodeRound order buf (offset, events) =
      if offset + sizeAt order buf.bytes offset > buf.bytes.length then some (.inr events)
      else some (.inl (offset + sizeAt order buf.bytes offset, events ++ [eventAt order buf.bytes offset])) := by
  have header : readHeader order buf.bytes offset = some (headerAt order buf.bytes offset) :=
    readHeader_of_headed headed
  have start : add width offset base = offset + base := add_of_lt (by omega)
  have size : add width base (headerAt order buf.bytes offset).len.toNat = sizeAt order buf.bytes offset :=
    add_of_lt (by unfold sizeAt at fits; omega)
  have next : add width offset (sizeAt order buf.bytes offset) = offset + sizeAt order buf.bytes offset :=
    add_of_lt fits
  simp only [decodeRound, start, if_pos headed, header, Option.bind_eq_bind, Option.bind_some, size, next]
  by_cases cut : offset + sizeAt order buf.bytes offset > buf.bytes.length
  · simp only [if_pos cut]
    rfl
  · simp only [if_neg cut, readName_of_whole room (Nat.le_of_not_gt cut), Option.bind_some]
    rfl

end

end Inotify

end CoreShift
