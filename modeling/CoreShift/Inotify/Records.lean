import CoreShift.Inotify.Decode

namespace CoreShift

open Endian

namespace Inotify

/-- Any record as the kernel queues it, with the bytes that it puts behind the header. -/
structure RawRecord where
  wd : Int32
  mask : UInt32
  cookie : UInt32
  field : Bytes
  fits : field.length < 2 ^ 32

def headerBytes (order : ByteOrder) (wd : Int32) (mask cookie : UInt32) (len : Nat) : Bytes :=
  toBytes order 4 wd.toUInt32.toNat ++ toBytes order 4 mask.toNat ++ toBytes order 4 cookie.toNat ++
    toBytes order 4 len

namespace RawRecord

def header (order : ByteOrder) (r : RawRecord) : Bytes := headerBytes order r.wd r.mask r.cookie r.field.length

def encode (order : ByteOrder) (r : RawRecord) : Bytes := r.header order ++ r.field

def event (r : RawRecord) : InotifyEvent := { wd := r.wd, mask := r.mask, name := nameOf r.field }

end RawRecord

/-- A name and the zeros after it, as the kernel puts them behind a header. -/
structure PaddedName where
  name : String
  padding : Nat
  noNul : '\x00' ∉ name.toList
  nonempty : 0 < (Utf8.bytes name).length + padding
  fits : (Utf8.bytes name).length + padding < 2 ^ 32

def PaddedName.field (n : PaddedName) : Bytes := Utf8.bytes n.name ++ List.replicate n.padding 0

structure Record where
  wd : Int32
  mask : UInt32
  cookie : UInt32
  name : Option PaddedName

namespace Record

def field (r : Record) : Bytes := (r.name.map PaddedName.field).getD []

def encode (order : ByteOrder) (r : Record) : Bytes :=
  headerBytes order r.wd r.mask r.cookie r.field.length ++ r.field

def event (r : Record) : InotifyEvent := { wd := r.wd, mask := r.mask, name := r.name.map PaddedName.name }

end Record

theorem PaddedName.length_field (n : PaddedName) : n.field.length = (Utf8.bytes n.name).length + n.padding := by
  unfold PaddedName.field
  rw [List.length_append, List.length_replicate]

theorem PaddedName.takeWhile_field (n : PaddedName) : n.field.takeWhile (· ≠ 0) = Utf8.bytes n.name := by
  have name : ∀ b ∈ Utf8.bytes n.name, decide (b ≠ 0) = true := by
    intro b member
    have nonzero : b ≠ 0 := fun zero => Utf8.zero_notMem_bytes n.noNul (zero ▸ member)
    exact decide_eq_true nonzero
  unfold PaddedName.field
  rw [List.takeWhile_append_of_pos name]
  have padding : (List.replicate n.padding (0 : UInt8)).takeWhile (· ≠ 0) = [] := by
    cases n.padding with
    | zero => rfl
    | succ k => rfl
  rw [padding, List.append_nil]

namespace RawRecord

theorem length_header (order : ByteOrder) (r : RawRecord) : (r.header order).length = base := by
  simp [header, headerBytes, base]

theorem length_encode (order : ByteOrder) (r : RawRecord) : (r.encode order).length = base + r.field.length := by
  unfold encode
  rw [List.length_append, length_header]

theorem headerOf_append {order : ByteOrder} {a b c d : Bytes} (first : a.length = 4) (second : b.length = 4)
    (third : c.length = 4) (fourth : d.length = 4) :
    headerOf order (a ++ b ++ c ++ d) = ⟨(UInt32.ofNat (ofBytes order a)).toInt32, UInt32.ofNat (ofBytes order b),
      UInt32.ofNat (ofBytes order c), UInt32.ofNat (ofBytes order d)⟩ := by
  have two : (a ++ b).length = 8 := by rw [List.length_append, first, second]
  have three : (a ++ b ++ c).length = 12 := by rw [List.length_append, two, third]
  have at0 : (a ++ b ++ c ++ d).take 4 = a := by
    rw [List.append_assoc, List.append_assoc, List.take_left' first]
  have at4 : ((a ++ b ++ c ++ d).drop 4).take 4 = b := by
    rw [List.append_assoc, List.append_assoc, List.drop_left' first, List.take_left' second]
  have at8 : ((a ++ b ++ c ++ d).drop 8).take 4 = c := by
    rw [List.append_assoc, List.drop_left' two, List.take_left' third]
  have at12 : ((a ++ b ++ c ++ d).drop 12).take 4 = d := by
    rw [List.drop_left' three, List.take_of_length_le (Nat.le_of_eq fourth)]
  rw [headerOf, at0, at4, at8, at12]

theorem headerOf_header (order : ByteOrder) (r : RawRecord) :
    headerOf order (r.header order) = ⟨r.wd, r.mask, r.cookie, UInt32.ofNat r.field.length⟩ := by
  have fits : r.field.length < 256 ^ 4 := r.fits
  have wide : ∀ n, (toBytes order 4 n).length = 4 := length_toBytes order 4
  rw [header, headerBytes, headerOf_append (wide _) (wide _) (wide _) (wide _),
    ofBytes_toBytes order 4 r.wd.toUInt32.toNat_lt, ofBytes_toBytes order 4 r.mask.toNat_lt,
    ofBytes_toBytes order 4 r.cookie.toNat_lt, ofBytes_toBytes order 4 fits,
    UInt32.ofNat_toNat, UInt32.ofNat_toNat, UInt32.ofNat_toNat, Int32.toInt32_toUInt32]

theorem toNat_len (r : RawRecord) : (UInt32.ofNat r.field.length).toNat = r.field.length :=
  UInt32.toNat_ofNat_of_lt r.fits

end RawRecord

theorem between (pre mid post : Bytes) :
    ((pre ++ (mid ++ post)).take (pre.length + mid.length)).drop pre.length = mid := by
  rw [← List.append_assoc, List.take_left' List.length_append, List.drop_left' rfl]

section
variable {order : ByteOrder} {r : RawRecord} {bytes pre post : Bytes}

theorem headerAt_header (split : bytes = pre ++ (r.header order ++ post)) :
    headerAt order bytes pre.length = ⟨r.wd, r.mask, r.cookie, UInt32.ofNat r.field.length⟩ := by
  rw [headerAt, split, ← r.length_header order, between, r.headerOf_header]

theorem sizeAt_header (split : bytes = pre ++ (r.header order ++ post)) :
    sizeAt order bytes pre.length = (r.encode order).length := by
  rw [sizeAt, headerAt_header split, r.toNat_len, r.length_encode]

theorem eventAt_encode (split : bytes = pre ++ (r.encode order ++ post)) :
    eventAt order bytes pre.length = r.event := by
  rw [RawRecord.encode, List.append_assoc] at split
  have size := sizeAt_header split
  have ends : pre.length + (r.encode order).length = (pre ++ r.header order).length + r.field.length := by
    rw [RawRecord.encode, List.length_append, List.length_append, Nat.add_assoc]
  have starts : pre.length + base = (pre ++ r.header order).length := by rw [List.length_append, r.length_header]
  have field : fieldAt order bytes pre.length = r.field := by
    rw [fieldAt, size, ends, starts, split, ← List.append_assoc, between]
  rw [eventAt, headerAt_header split, field]
  rfl

variable {width : Nat} {buf : Slice width} {events : List InotifyEvent}

theorem decodeRound_record (room : buf.bytes.length + base < 2 ^ width)
    (split : buf.bytes = pre ++ (r.encode order ++ post)) :
    decodeRound order buf (pre.length, events) =
      some (.inl (pre.length + (r.encode order).length, events ++ [r.event])) := by
  have headed := split
  rw [RawRecord.encode, List.append_assoc] at headed
  have size := sizeAt_header headed
  have total : buf.bytes.length = pre.length + ((r.encode order).length + post.length) := by
    rw [split, List.length_append, List.length_append]
  have length := r.length_encode order
  have whole : ¬pre.length + (r.encode order).length > buf.bytes.length := by omega
  rw [decodeRound_of_headed room (by omega) (by omega), size, if_neg whole, eventAt_encode split]

theorem decodeRound_tail {buf : Slice 64} {tail : Bytes} (split : buf.bytes = pre ++ tail)
    (begins : tail <+: r.encode order) (short : tail.length < (r.encode order).length) :
    decodeRound order buf (pre.length, events) = some (.inr events) := by
  have room : buf.bytes.length + base < 2 ^ 64 := @Slice.room .bits64 buf
  have fits := buf.fits
  have bound := r.fits
  have total : buf.bytes.length = pre.length + tail.length := by rw [split, List.length_append]
  by_cases headed : base ≤ tail.length
  · have header : r.header order <+: tail := by
      refine List.prefix_of_prefix_length_le (List.prefix_append _ _) begins ?_
      rw [r.length_header]
      exact headed
    obtain ⟨rest, rfl⟩ := header
    have size := sizeAt_header split
    have length := r.length_encode order
    have cut : pre.length + (r.encode order).length > buf.bytes.length := by omega
    rw [decodeRound_of_headed room (by omega) (by unfold base at length; omega), size, if_pos cut]
  · exact decodeRound_of_not_headed room (by omega) (by omega)

theorem goes_records (records : List RawRecord) (room : buf.bytes.length + base < 2 ^ width)
    (split : buf.bytes = pre ++ (records.flatMap (RawRecord.encode order) ++ post)) :
    Rounds.Goes (decodeRound order buf) (pre.length, events) records.length
      (pre.length + (records.flatMap (RawRecord.encode order)).length, events ++ records.map RawRecord.event) := by
  induction records generalizing pre events with
  | nil =>
    show Rounds.Goes _ _ 0 (pre.length + 0, events ++ [])
    rw [Nat.add_zero, List.append_nil]
    exact .start
  | cons r records ih =>
    rw [List.flatMap_cons, List.append_assoc] at split
    have round : decodeRound order buf (pre.length, events) = _ := decodeRound_record room split
    have later : buf.bytes = pre ++ r.encode order ++ (records.flatMap (RawRecord.encode order) ++ post) := by
      rw [split, List.append_assoc]
    have rest := @ih (pre ++ r.encode order) (events ++ [r.event]) later
    rw [List.length_append] at rest
    have offset : pre.length + ((r :: records).flatMap (RawRecord.encode order)).length =
        pre.length + (r.encode order).length + (records.flatMap (RawRecord.encode order)).length := by
      rw [List.flatMap_cons, List.length_append, Nat.add_assoc]
    have decoded : events ++ (r :: records).map RawRecord.event =
        events ++ [r.event] ++ records.map RawRecord.event := by
      rw [List.map_cons, List.append_assoc, List.singleton_append]
    rw [offset, decoded]
    exact Rounds.Goes.first round rest

theorem length_records (order : ByteOrder) (records : List RawRecord) :
    base * records.length ≤ (records.flatMap (RawRecord.encode order)).length := by
  induction records with
  | nil => exact Nat.zero_le _
  | cons r records ih =>
    rw [List.flatMap_cons, List.length_append, r.length_encode, List.length_cons, Nat.mul_succ]
    omega

theorem decodeEvents_of_records {records : List RawRecord} (room : buf.bytes.length + base < 2 ^ width)
    (same : buf.bytes = records.flatMap (RawRecord.encode order) ++ post)
    (ends : ∀ events, decodeRound order buf ((records.flatMap (RawRecord.encode order)).length, events) =
      some (.inr events)) : decodeEvents order buf = some (records.map RawRecord.event) := by
  have goes : Rounds.Goes (decodeRound order buf) (([] : Bytes).length, []) records.length _ :=
    goes_records records room same
  rw [List.length_nil, Nat.zero_add, List.nil_append] at goes
  have enough : records.length < buf.bytes.length / base + 1 := by
    have bound := length_records order records
    have size : buf.bytes.length = (records.flatMap (RawRecord.encode order)).length + post.length := by
      rw [same, List.length_append]
    refine Nat.lt_succ_of_le ((Nat.le_div_iff_mul_le (by decide)).mpr ?_)
    rw [Nat.mul_comm, size]
    omega
  exact Rounds.run_iff.mpr ⟨records.length, _, enough, goes, ends _⟩

theorem decodeEvents_whole {records : List RawRecord} (room : buf.bytes.length + base < 2 ^ width)
    (same : buf.bytes = records.flatMap (RawRecord.encode order)) :
    decodeEvents order buf = some (records.map RawRecord.event) := by
  have ends : (records.flatMap (RawRecord.encode order)).length = buf.bytes.length := by rw [same]
  rw [← List.append_nil (records.flatMap _)] at same
  refine decodeEvents_of_records room same fun events => decodeRound_of_not_headed room (Nat.le_of_eq ends) ?_
  rw [ends]
  unfold base
  omega

end

namespace Record

theorem length_field_lt (r : Record) : r.field.length < 2 ^ 32 := by
  unfold field
  cases r.name with
  | none => decide
  | some n =>
    show n.field.length < 2 ^ 32
    rw [n.length_field]
    exact n.fits

def raw (r : Record) : RawRecord := ⟨r.wd, r.mask, r.cookie, r.field, r.length_field_lt⟩

theorem raw_event (r : Record) : r.raw.event = r.event := by
  have name : nameOf r.field = r.name.map PaddedName.name := by
    unfold field
    cases r.name with
    | none => rfl
    | some n =>
      have filled : n.field ≠ [] := by
        rw [← List.length_pos_iff, n.length_field]
        exact n.nonempty
      show nameOf n.field = some n.name
      rw [nameOf, if_neg filled, n.takeWhile_field, Utf8.fromUtf8Lossy_bytes]
  show (⟨r.wd, r.mask, nameOf r.field⟩ : InotifyEvent) = _
  rw [name]
  rfl

theorem length_encode (order : ByteOrder) (r : Record) : (r.encode order).length = base + r.field.length :=
  r.raw.length_encode order

theorem raw_records (order : ByteOrder) (records : List Record) :
    (records.map raw).flatMap (RawRecord.encode order) = records.flatMap (encode order) :=
  List.flatMap_map ..

theorem raw_events (records : List Record) :
    (records.map raw).map RawRecord.event = records.map event := by
  rw [List.map_map]
  exact List.map_congr_left fun r _ => r.raw_event

end Record

/-- With 64-bit pointers, `decode_events` undoes the encoding of any records, and a record that is cut
    off behind them adds nothing. -/
theorem decode_encode (order : ByteOrder) (records : List Record) (cut : Record) (tail : Bytes) (buf : Slice 64)
    (begins : tail <+: cut.encode order) (short : tail ≠ cut.encode order)
    (same : buf.bytes = records.flatMap (Record.encode order) ++ tail) :
    decodeEvents order buf = some (records.map Record.event) := by
  have shorter : tail.length < (cut.encode order).length := by
    refine Nat.lt_of_le_of_ne begins.length_le fun equal => short ?_
    exact begins.eq_of_length equal
  rw [← Record.raw_records] at same
  rw [← Record.raw_events]
  exact decodeEvents_of_records (@Slice.room .bits64 buf) same fun events =>
    decodeRound_tail (r := cut.raw) same begins shorter

def fileText : String := String.ofList ['f', 'i', 'l', 'e']

theorem fileText_bytes : Utf8.bytes fileText = [0x66, 0x69, 0x6C, 0x65] := by
  unfold Utf8.bytes fileText
  rw [String.toList_ofList]
  decide

theorem fileText_noNul : '\x00' ∉ fileText.toList := by
  unfold fileText
  rw [String.toList_ofList]
  decide

theorem fileText_padded : 0 < (Utf8.bytes fileText).length + 4 ∧ (Utf8.bytes fileText).length + 4 < 2 ^ 32 := by
  rw [fileText_bytes]
  decide

def fileName : PaddedName := ⟨fileText, 4, fileText_noNul, fileText_padded.1, fileText_padded.2⟩

def twoRecords : List Record := [⟨1, 2, 0, none⟩, ⟨2, 4, 0, some fileName⟩]

def halfHeader : Bytes := [3, 0, 0, 0, 8, 0, 0, 0]

theorem twoRecords_fit : (twoRecords.flatMap (Record.encode .little) ++ halfHeader).length < 2 ^ (64 - 1) := by
  have named : (Record.field ⟨2, 4, 0, some fileName⟩).length = 8 := by
    show fileName.field.length = 8
    rw [PaddedName.length_field]
    show (Utf8.bytes fileText).length + 4 = 8
    rw [fileText_bytes]
    rfl
  have unnamed : (Record.field ⟨1, 2, 0, none⟩).length = 0 := rfl
  simp only [twoRecords, List.flatMap_cons, List.flatMap_nil, List.length_append, Record.length_encode, named, unnamed]
  decide

theorem twoRecords_decoded :
    decodeEvents .little (⟨_, twoRecords_fit⟩ : Slice 64) = some [⟨1, 2, none⟩, ⟨2, 4, some fileText⟩] :=
  decode_encode .little twoRecords ⟨3, 8, 0, none⟩ halfHeader _ (by decide) (by decide) rfl

end Inotify

end CoreShift
