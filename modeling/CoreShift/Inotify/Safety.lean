import CoreShift.Inotify.Records

namespace CoreShift

open Endian

namespace Inotify

/-- The operands of every addition that the round at `offset` makes, in order. -/
def additions {width : Nat} (order : ByteOrder) (buf : Slice width) (offset : Nat) : List (Nat × Nat) :=
  (offset, base) ::
    if add width offset base ≤ buf.bytes.length then
      match readHeader order buf.bytes offset with
      | none => []
      | some event =>
        let size := add width base event.len.toNat
        (base, event.len.toNat) :: (offset, size) ::
          if add width offset size > buf.bytes.length then []
          else
            (if event.len > 0 then
              [(offset, base), (offset, base), (add width offset base, event.len.toNat)] else []) ++ [(offset, size)]
    else []

def ranges {width : Nat} (order : ByteOrder) (buf : Slice width) (offset : Nat) : List (Nat × Nat) :=
  if add width offset base ≤ buf.bytes.length then
    (offset, offset + base) ::
      match readHeader order buf.bytes offset with
      | none => []
      | some event =>
        if add width offset (add width base event.len.toNat) > buf.bytes.length then []
        else if event.len > 0 then
          [(add width offset base, add width (add width offset base) event.len.toNat)]
        else []
  else []

def Reached {width : Nat} (order : ByteOrder) (buf : Slice width) (offset : Nat) (events : List InotifyEvent) : Prop :=
  ∃ rounds, Rounds.Goes (decodeRound order buf) (0, []) rounds (offset, events)

structure DecodeSafe {width : Nat} (order : ByteOrder) (buf : Slice width) : Prop where
  sums : ∀ offset events, Reached order buf offset events →
    ∀ a b, (a, b) ∈ additions order buf offset → a + b < 2 ^ width
  inside : ∀ offset events, Reached order buf offset events →
    ∀ start stop, (start, stop) ∈ ranges order buf offset → start ≤ stop ∧ stop ≤ buf.bytes.length
  advances : ∀ offset events, Reached order buf offset events →
    ∀ offset' events', decodeRound order buf (offset, events) = some (.inl (offset', events')) →
      ∃ header name, readHeader order buf.bytes offset = some header ∧ offset' = offset + (16 + header.len.toNat) ∧
        events' = events ++ [header.event name]
  ends : ∃ events, decodeEvents order buf = some events ∧ events.length ≤ buf.bytes.length / 16

/-- Where the headers are when the bytes are cut into whole records from their start. -/
inductive HeaderAt (order : ByteOrder) (bytes : Bytes) : Nat → Prop where
  | first (headed : base ≤ bytes.length) : HeaderAt order bytes 0
  | next {offset : Nat} (before : HeaderAt order bytes offset)
      (headed : offset + sizeAt order bytes offset + base ≤ bytes.length) :
      HeaderAt order bytes (offset + sizeAt order bytes offset)

section
variable {width : Nat} {order : ByteOrder} {buf : Slice width} {offset : Nat} {events : List InotifyEvent}

theorem HeaderAt.headed (at_ : HeaderAt order buf.bytes offset) : offset + base ≤ buf.bytes.length := by
  cases at_ with
  | first headed => rwa [Nat.zero_add]
  | next _ headed => exact headed

theorem sums_of_fits (room : buf.bytes.length + base < 2 ^ width) (reached : offset ≤ buf.bytes.length)
    (fits : offset + base ≤ buf.bytes.length → offset + sizeAt order buf.bytes offset < 2 ^ width) {a b : Nat}
    (member : (a, b) ∈ additions order buf offset) : a + b < 2 ^ width := by
  have start : add width offset base = offset + base := add_of_lt (by omega)
  by_cases headed : offset + base ≤ buf.bytes.length
  · have whole := fits headed
    have sum : sizeAt order buf.bytes offset = base + (headerAt order buf.bytes offset).len.toNat := rfl
    have size : add width base (headerAt order buf.bytes offset).len.toNat = sizeAt order buf.bytes offset :=
      add_of_lt (by omega)
    simp only [additions, start, if_pos headed, readHeader_of_headed headed, size, List.mem_cons,
      Prod.mk.injEq] at member
    rcases member with ⟨rfl, rfl⟩ | ⟨rfl, rfl⟩ | ⟨rfl, rfl⟩ | member
    · omega
    · omega
    · exact whole
    · split at member
      · cases member
      · rcases List.mem_append.mp member with named | last
        · split at named
          · simp only [List.mem_cons, Prod.mk.injEq, List.not_mem_nil, or_false] at named
            omega
          · cases named
        · simp only [List.mem_singleton, Prod.mk.injEq] at last
          omega
  · simp only [additions, start, if_neg headed, List.mem_singleton, Prod.mk.injEq] at member
    omega

theorem inside_of_fits (room : buf.bytes.length + base < 2 ^ width) (reached : offset ≤ buf.bytes.length)
    (fits : offset + base ≤ buf.bytes.length → offset + sizeAt order buf.bytes offset < 2 ^ width) {start stop : Nat}
    (member : (start, stop) ∈ ranges order buf offset) : start ≤ stop ∧ stop ≤ buf.bytes.length := by
  have begins : add width offset base = offset + base := add_of_lt (by omega)
  by_cases headed : offset + base ≤ buf.bytes.length
  · have whole := fits headed
    have sum : sizeAt order buf.bytes offset = base + (headerAt order buf.bytes offset).len.toNat := rfl
    have size : add width base (headerAt order buf.bytes offset).len.toNat = sizeAt order buf.bytes offset :=
      add_of_lt (by omega)
    have next : add width offset (sizeAt order buf.bytes offset) = offset + sizeAt order buf.bytes offset :=
      add_of_lt whole
    have ends : add width (offset + base) (headerAt order buf.bytes offset).len.toNat =
        offset + base + (headerAt order buf.bytes offset).len.toNat := add_of_lt (by omega)
    simp only [ranges, begins, if_pos headed, readHeader_of_headed headed, size, next, ends, List.mem_cons,
      Prod.mk.injEq] at member
    rcases member with ⟨rfl, rfl⟩ | member
    · exact ⟨Nat.le_add_right _ _, headed⟩
    · split at member
      · cases member
      · split at member
        · simp only [List.mem_singleton, Prod.mk.injEq] at member
          omega
        · cases member
  · simp only [ranges, begins, if_neg headed, List.not_mem_nil] at member

structure Along (order : ByteOrder) (bytes : Bytes) (rounds offset : Nat) (events : List InotifyEvent) : Prop where
  reached : offset ≤ bytes.length
  advanced : base * rounds ≤ offset
  counted : events.length = rounds
  header : offset + base ≤ bytes.length → HeaderAt order bytes offset

theorem along_start (order : ByteOrder) (bytes : Bytes) : Along order bytes 0 0 [] where
  reached := Nat.zero_le _
  advanced := Nat.zero_le _
  counted := rfl
  header headed := .first (by omega)

theorem Along.fits {rounds : Nat} (along : Along order buf.bytes rounds offset events)
    (fits : ∀ offset, HeaderAt order buf.bytes offset → offset + sizeAt order buf.bytes offset < 2 ^ width)
    (headed : offset + base ≤ buf.bytes.length) : offset + sizeAt order buf.bytes offset < 2 ^ width :=
  fits offset (along.header headed)

theorem Along.next {rounds offset' : Nat} {events' : List InotifyEvent} (room : buf.bytes.length + base < 2 ^ width)
    (fits : ∀ offset, HeaderAt order buf.bytes offset → offset + sizeAt order buf.bytes offset < 2 ^ width)
    (along : Along order buf.bytes rounds offset events)
    (round : decodeRound order buf (offset, events) = some (.inl (offset', events'))) :
    Along order buf.bytes (rounds + 1) offset' events' ∧ offset' = offset + sizeAt order buf.bytes offset ∧
      events' = events ++ [eventAt order buf.bytes offset] := by
  by_cases headed : offset + base ≤ buf.bytes.length
  · rw [decodeRound_of_headed room headed (along.fits fits headed)] at round
    split at round
    · cases round
    · rename_i whole
      cases round
      refine ⟨⟨Nat.le_of_not_gt whole, ?_, ?_, fun more => (along.header headed).next more⟩, rfl, rfl⟩
      · have advanced := along.advanced
        have size : base ≤ sizeAt order buf.bytes offset := Nat.le_add_right _ _
        rw [Nat.mul_succ]
        omega
      · rw [List.length_append, along.counted]
        rfl
  · rw [decodeRound_of_not_headed room along.reached headed] at round
    cases round

theorem goes_along {rounds : Nat} (room : buf.bytes.length + base < 2 ^ width)
    (fits : ∀ offset, HeaderAt order buf.bytes offset → offset + sizeAt order buf.bytes offset < 2 ^ width)
    (goes : Rounds.Goes (decodeRound order buf) (0, []) rounds (offset, events)) :
    Along order buf.bytes rounds offset events := by
  generalize same : (offset, events) = state at goes
  induction goes generalizing offset events with
  | start =>
    cases same
    exact along_start order buf.bytes
  | @next rounds s' s'' before round ih =>
    subst same
    exact ((ih rfl).next room fits round).1

theorem Along.round_succeeds {rounds : Nat} (room : buf.bytes.length + base < 2 ^ width)
    (fits : ∀ offset, HeaderAt order buf.bytes offset → offset + sizeAt order buf.bytes offset < 2 ^ width)
    (along : Along order buf.bytes rounds offset events) : decodeRound order buf (offset, events) ≠ none := by
  by_cases headed : offset + base ≤ buf.bytes.length
  · rw [decodeRound_of_headed room headed (along.fits fits headed)]
    split <;> simp
  · rw [decodeRound_of_not_headed room along.reached headed]
    simp

theorem Along.round_ends {rounds : Nat} {result : List InotifyEvent} (room : buf.bytes.length + base < 2 ^ width)
    (fits : ∀ offset, HeaderAt order buf.bytes offset → offset + sizeAt order buf.bytes offset < 2 ^ width)
    (along : Along order buf.bytes rounds offset events)
    (ended : decodeRound order buf (offset, events) = some (.inr result)) : result = events := by
  by_cases headed : offset + base ≤ buf.bytes.length
  · rw [decodeRound_of_headed room headed (along.fits fits headed)] at ended
    split at ended
    · cases ended
      rfl
    · cases ended
  · rw [decodeRound_of_not_headed room along.reached headed] at ended
    cases ended
    rfl

theorem Along.few {rounds : Nat} (along : Along order buf.bytes rounds offset events) :
    rounds ≤ buf.bytes.length / base := by
  have reached := along.reached
  have advanced := along.advanced
  refine (Nat.le_div_iff_mul_le (by decide)).mpr ?_
  rw [Nat.mul_comm]
  omega

theorem decodeSafe_of_fits (room : buf.bytes.length + base < 2 ^ width)
    (fits : ∀ offset, HeaderAt order buf.bytes offset → offset + sizeAt order buf.bytes offset < 2 ^ width) :
    DecodeSafe order buf := by
  refine ⟨fun offset events reached a b member => ?_, fun offset events reached start stop member => ?_,
    fun offset events reached offset' events' round => ?_, ?_⟩
  · obtain ⟨rounds, goes⟩ := reached
    have along := goes_along room fits goes
    exact sums_of_fits room along.reached (along.fits fits) member
  · obtain ⟨rounds, goes⟩ := reached
    have along := goes_along room fits goes
    exact inside_of_fits room along.reached (along.fits fits) member
  · obtain ⟨rounds, goes⟩ := reached
    have along := goes_along room fits goes
    obtain ⟨later, advanced, pushed⟩ := along.next room fits round
    have headed : offset + base ≤ buf.bytes.length := by
      have within := later.reached
      have size : base ≤ sizeAt order buf.bytes offset := Nat.le_add_right _ _
      omega
    exact ⟨_, _, readHeader_of_headed headed, advanced, pushed⟩
  · have succeeds : ∀ taken state, Rounds.Goes (decodeRound order buf) (0, []) taken state →
        decodeRound order buf state ≠ none :=
      fun taken state goes => (goes_along room fits goes).round_succeeds room fits
    have short : ∀ taken state, Rounds.Goes (decodeRound order buf) (0, []) taken state →
        taken ≤ buf.bytes.length / base := fun taken state goes => (goes_along room fits goes).few
    obtain ⟨result, taken, ⟨offset, events⟩, run, goes, ended⟩ := Rounds.run_of_bounded succeeds short
    have along := goes_along room fits goes
    refine ⟨result, run, ?_⟩
    rw [along.round_ends room fits ended, along.counted]
    exact along.few

theorem DecodeSafe.fits_at (safe : DecodeSafe order buf) (room : buf.bytes.length + base < 2 ^ width)
    (headed : offset + base ≤ buf.bytes.length) (reached : Reached order buf offset events) :
    offset + sizeAt order buf.bytes offset < 2 ^ width := by
  have start : add width offset base = offset + base := add_of_lt (by omega)
  have members : (base, (headerAt order buf.bytes offset).len.toNat) ∈ additions order buf offset ∧
      (offset, add width base (headerAt order buf.bytes offset).len.toNat) ∈ additions order buf offset := by
    simp [additions, start, headed, readHeader_of_headed headed]
  have size : base + (headerAt order buf.bytes offset).len.toNat < 2 ^ width := safe.sums _ _ reached _ _ members.1
  have next := safe.sums _ _ reached _ _ members.2
  rwa [add_of_lt size] at next

theorem DecodeSafe.reaches (safe : DecodeSafe order buf) (room : buf.bytes.length + base < 2 ^ width)
    (header : HeaderAt order buf.bytes offset) : ∃ events, Reached order buf offset events := by
  induction header with
  | first headed => exact ⟨[], 0, .start⟩
  | @next offset before headed ih =>
    obtain ⟨events, reached⟩ := ih
    have fits := safe.fits_at room before.headed reached
    have whole : ¬offset + sizeAt order buf.bytes offset > buf.bytes.length := by omega
    have round : decodeRound order buf (offset, events) = _ := decodeRound_of_headed room before.headed fits
    rw [if_neg whole] at round
    obtain ⟨rounds, goes⟩ := reached
    exact ⟨_, rounds + 1, goes.next round⟩

/-- With 32-bit pointers `decode_events` is safe when the records that it walks do not end past the
    address space, and with 64-bit pointers it always is. -/
theorem decodeEvents_safe_iff (order : ByteOrder) {pointer : Pointer} (buf : Slice pointer.width) :
    (DecodeSafe order buf ↔ ∀ offset, HeaderAt order buf.bytes offset →
      offset + sizeAt order buf.bytes offset < 2 ^ pointer.width) ∧
    (pointer = .bits64 → DecodeSafe order buf) := by
  have room := buf.room
  refine ⟨⟨fun safe offset header => ?_, decodeSafe_of_fits room⟩, fun wide => decodeSafe_of_fits room ?_⟩
  · obtain ⟨events, reached⟩ := safe.reaches room header
    exact safe.fits_at room header.headed reached
  · intro offset header
    have headed := header.headed
    have short := (headerAt order buf.bytes offset).len.toNat_lt
    subst wide
    have fits : buf.bytes.length < 2 ^ (64 - 1) := buf.fits
    show offset + sizeAt order buf.bytes offset < 2 ^ 64
    unfold sizeAt base
    omega

end

/-- A header whose name would end where the address space of 32-bit pointers does. -/
def hugeRecord : Bytes := [1, 0, 0, 0, 2, 0, 0, 0, 0, 0, 0, 0, 0xF0, 0xFF, 0xFF, 0xFF]

def hugeSlice : Slice Pointer.bits32.width := ⟨hugeRecord, by decide⟩

/-- The end of the name wraps around to zero, before its start. -/
theorem decodeEvents_hugeRecord : decodeEvents .little hugeSlice = none := by decide

theorem decodeEvents_wraps :
    ¬∀ (order : ByteOrder) (pointer : Pointer) (buf : Slice pointer.width), DecodeSafe order buf := by
  intro safe
  obtain ⟨events, decoded, _⟩ := (safe .little .bits32 hugeSlice).ends
  rw [decodeEvents_hugeRecord] at decoded
  cases decoded

end Inotify

end CoreShift
