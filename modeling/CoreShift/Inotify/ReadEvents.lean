import CoreShift.Inotify.Records
import CoreShift.Io.Buffer
import CoreShift.Observe

namespace CoreShift

open Interaction Endian

namespace Inotify

def zeros (pointer : Pointer) : Slice pointer.width where
  bytes := List.replicate 4096 0
  fits := by
    rw [List.length_replicate]
    cases pointer
    · show 4096 < 2 ^ (32 - 1)
      omega
    · show 4096 < 2 ^ (64 - 1)
      omega

/-- What a read leaves in the buffer that it is given: what it brought, and behind it what was there. -/
def Slice.store {width : Nat} (buf : Slice width) (data : Bytes) : Slice width where
  bytes := (CoreShift.store buf.bytes 0 data).take buf.bytes.length
  fits := Nat.lt_of_le_of_lt (List.length_take_le ..) buf.fits

def Slice.upTo {width : Nat} (buf : Slice width) (n : Nat) : Slice width where
  bytes := buf.bytes.take n
  fits := by
    rw [List.length_take]
    exact Nat.lt_of_le_of_lt (Nat.min_le_right ..) buf.fits

/-- What `read_events` returns. There is nothing when decoding panics. -/
abbrev ReadResult := Option (Except SysError (List InotifyEvent))

def readRound {width : Nat} (order : ByteOrder) (fd : Fd) :
    Slice width × List InotifyEvent → Prog ((Slice width × List InotifyEvent) ⊕ ReadResult)
  | (buf, allEvents) => do
    match ← fd.readSlice buf.bytes.length with
    | .ok (some data) =>
      let buf := buf.store data
      if data.length = 0 then return .inr (some (.ok allEvents))
      else
        match decodeEvents order (buf.upTo data.length) with
        | none => return .inr none
        | some events => return .inl (buf, allEvents ++ events)
    | .ok none => return .inr (some (.ok allEvents))
    | .error e => return .inr (some (.error e))

def readEvents (order : ByteOrder) (pointer : Pointer) (fd : Fd) : Prog ReadResult :=
  iterate (readRound order fd) (zeros pointer, [])

/-- How the kernel answers a read of the queue: it hands out whole records, at least one, or it
    interrupts the read, or it says that there is nothing. -/
inductive Brings (order : ByteOrder) {count : Nat} :
    List RawRecord → Except Errno { data : Bytes // data.length ≤ count } → Prop where
  | records {records : List RawRecord} (data : { data : Bytes // data.length ≤ count }) (some : records ≠ [])
      (same : data.val = records.flatMap (RawRecord.encode order)) : Brings order records (.ok data)
  | interrupted : Brings order [] (.error EINTR)
  | blocked : Brings order [] (.error EAGAIN)
  | empty : Brings order [] (.ok ⟨[], Nat.zero_le _⟩)

/-- `Serves order fd queue arrived t handed left`: a queue of records becomes `left` while `arrived` is
    queued, at any moments, and the exchanges `t` hand out `handed`. -/
inductive Serves (order : ByteOrder) (fd : Nat) :
    List RawRecord → List RawRecord → Trace → List RawRecord → List RawRecord → Prop where
  | rest (queue : List RawRecord) : Serves order fd queue [] [] [] queue
  | arrives {queue arrived handed left : List RawRecord} {t : Trace} (r : RawRecord)
      (later : Serves order fd (queue ++ [r]) arrived t handed left) :
      Serves order fd queue (r :: arrived) t handed left
  | answers {records queue arrived handed left : List RawRecord} {t : Trace} {count : Nat}
      {answer : Except Errno { data : Bytes // data.length ≤ count }} (brings : Brings order records answer)
      (later : Serves order fd queue arrived t handed left) :
      Serves order fd (records ++ queue) arrived (⟨.read fd count, answer⟩ :: t) (records ++ handed) left

section
variable {order : ByteOrder} {queue arrived handed left : List RawRecord} {t t' : Trace}

theorem Brings.delivered {fd count : Nat} {records : List RawRecord}
    {answer : Except Errno { data : Bytes // data.length ≤ count }} (brings : Brings order records answer) :
    delivered fd [⟨.read fd count, answer⟩] = records.flatMap (RawRecord.encode order) := by
  cases brings with
  | records data some same => simp [deliveredBy, same]
  | interrupted | blocked => rfl
  | empty => simp [deliveredBy]

theorem Serves.conserves {fd : Nat} (serves : Serves order fd queue arrived t handed left) :
    queue ++ arrived = handed ++ left := by
  induction serves with
  | rest queue => rw [List.append_nil, List.nil_append]
  | arrives r _ ih => rw [← ih, List.append_assoc, List.singleton_append]
  | answers _ _ ih => rw [List.append_assoc, ih, List.append_assoc]

theorem Serves.delivered {fd : Nat} (serves : Serves order fd queue arrived t handed left) :
    delivered fd t = handed.flatMap (RawRecord.encode order) := by
  induction serves with
  | rest queue => rfl
  | arrives r _ ih => exact ih
  | @answers _ _ _ _ _ t count answer brings _ ih =>
    rw [← List.singleton_append, delivered_append, brings.delivered, ih, List.flatMap_append]

theorem Serves.errors {fd count : Nat} {e : Errno} (serves : Serves order fd queue arrived t handed left)
    (member : ⟨.read fd count, .error e⟩ ∈ t) : e = EINTR ∨ e = EAGAIN := by
  induction serves with
  | rest queue => cases member
  | arrives r _ ih => exact ih member
  | answers brings _ ih =>
    rcases List.mem_cons.mp member with same | later
    · cases same
      cases brings with
      | interrupted => exact .inl rfl
      | blocked => exact .inr rfl
    · exact ih later

theorem Serves.split {fd : Nat} (serves : Serves order fd queue arrived (t ++ t') handed left) :
    ∃ arrived₁ arrived₂ handed₁ handed₂ middle, arrived = arrived₁ ++ arrived₂ ∧ handed = handed₁ ++ handed₂ ∧
      Serves order fd queue arrived₁ t handed₁ middle ∧ Serves order fd middle arrived₂ t' handed₂ left := by
  generalize same : t ++ t' = whole at serves
  induction serves generalizing t with
  | rest queue =>
    obtain ⟨rfl, rfl⟩ := List.append_eq_nil_iff.mp same
    exact ⟨[], [], [], [], queue, rfl, rfl, .rest queue, .rest queue⟩
  | arrives r _ ih =>
    obtain ⟨a₁, a₂, h₁, h₂, middle, rfl, rfl, first, second⟩ := ih same
    exact ⟨r :: a₁, a₂, h₁, h₂, middle, rfl, rfl, .arrives r first, second⟩
  | answers brings later ih =>
    cases t with
    | nil =>
      rw [List.nil_append] at same
      subst same
      exact ⟨[], _, [], _, _, rfl, rfl, .rest _, .answers brings later⟩
    | cons e t =>
      obtain ⟨rfl, rest⟩ := List.cons_eq_cons.mp same
      obtain ⟨a₁, a₂, h₁, h₂, middle, rfl, rfl, first, second⟩ := ih rest
      exact ⟨a₁, a₂, _ ++ h₁, h₂, middle, rfl, (List.append_assoc ..).symm, .answers brings first, second⟩

theorem records_of_nil (order : ByteOrder) {records : List RawRecord}
    (none : records.flatMap (RawRecord.encode order) = []) :
    records = [] := by
  cases records with
  | nil => rfl
  | cons r records =>
    have bound := length_records order (r :: records)
    rw [none, List.length_cons, Nat.mul_succ] at bound
    exact absurd bound (by unfold base; simp)

theorem upTo_store {width : Nat} (buf : Slice width) {data : Bytes} (fits : data.length ≤ buf.bytes.length) :
    ((buf.store data).upTo data.length).bytes = data ∧ (buf.store data).bytes.length = buf.bytes.length := by
  have stored : (CoreShift.store buf.bytes 0 data).length = buf.bytes.length := by
    simp [CoreShift.store]
    omega
  have whole : (CoreShift.store buf.bytes 0 data).take buf.bytes.length = CoreShift.store buf.bytes 0 data :=
    List.take_of_length_le (Nat.le_of_eq stored)
  constructor
  · show ((CoreShift.store buf.bytes 0 data).take buf.bytes.length).take data.length = data
    rw [whole]
    simp [CoreShift.store]
  · show ((CoreShift.store buf.bytes 0 data).take buf.bytes.length).length = buf.bytes.length
    rw [whole, stored]

end

inductive RoundRead (order : ByteOrder) (fd : Nat) {width : Nat} (buf : Slice width) (events : List InotifyEvent) :
    Trace → Outcome os ((Slice width × List InotifyEvent) ⊕ ReadResult) → Prop where
  | waiting (k : Nat) :
      RoundRead order fd buf events (List.replicate k ⟨.read fd buf.bytes.length, .error EINTR⟩)
        (.waiting (.read fd buf.bytes.length))
  | ended (k : Nat) :
      RoundRead order fd buf events
        (List.replicate k ⟨.read fd buf.bytes.length, .error EINTR⟩ ++
          [⟨.read fd buf.bytes.length, .ok ⟨[], Nat.zero_le _⟩⟩])
        (.done (.inr (some (.ok events))))
  | blocked (k : Nat) :
      RoundRead order fd buf events
        (List.replicate k ⟨.read fd buf.bytes.length, .error EINTR⟩ ++ [⟨.read fd buf.bytes.length, .error EAGAIN⟩])
        (.done (.inr (some (.ok events))))
  | failed (k : Nat) (e : Errno) (notInterrupted : e ≠ EINTR) (notBlocked : e ≠ EAGAIN) :
      RoundRead order fd buf events
        (List.replicate k ⟨.read fd buf.bytes.length, .error EINTR⟩ ++ [⟨.read fd buf.bytes.length, .error e⟩])
        (.done (.inr (some (.error (.sys e "read")))))
  | data (k : Nat) (data : { data : Bytes // data.length ≤ buf.bytes.length }) (present : data.val ≠ []) :
      RoundRead order fd buf events
        (List.replicate k ⟨.read fd buf.bytes.length, .error EINTR⟩ ++ [⟨.read fd buf.bytes.length, .ok data⟩])
        (.done (match decodeEvents order ((buf.store data.val).upTo data.val.length) with
          | none => .inr none
          | some new => .inl (buf.store data.val, events ++ new)))

theorem exec_readRound {order : ByteOrder} {fd : Fd} {width : Nat} {buf : Slice width} {events : List InotifyEvent}
    {t : Trace} {o} (run : Exec (readRound order fd (buf, events)) t o) : RoundRead order fd.raw buf events t o := by
  unfold readRound at run
  rcases exec_bind_cases run with ⟨c, rfl, stopped⟩ | ⟨first, answer, second, rfl, asked, rest⟩
  · cases Fd.exec_readSlice stopped with
    | waiting k => exact .waiting k
  · cases Fd.exec_readSlice asked with
    | moved k data =>
      by_cases none : data.val.length = 0
      · simp only [none, ↓reduceIte, exec_pure_iff] at rest
        obtain ⟨rfl, rfl⟩ := rest
        obtain ⟨bytes, fits⟩ := data
        obtain rfl := List.length_eq_zero_iff.mp none
        rw [List.append_nil]
        exact .ended k
      · simp only [none, ↓reduceIte] at rest
        have present : data.val ≠ [] := fun empty => none (List.length_eq_zero_iff.mpr empty)
        have round : RoundRead order fd.raw buf events _ _ := .data k data present
        cases decoded : decodeEvents order ((buf.store data.val).upTo data.val.length) with
        | none =>
          rw [decoded] at rest round
          obtain ⟨rfl, rfl⟩ := (exec_pure_iff _ _ _).mp rest
          rw [List.append_nil]
          exact round
        | some new =>
          rw [decoded] at rest round
          obtain ⟨rfl, rfl⟩ := (exec_pure_iff _ _ _).mp rest
          rw [List.append_nil]
          exact round
    | blocked k =>
      obtain ⟨rfl, rfl⟩ := (exec_pure_iff _ _ _).mp rest
      rw [List.append_nil]
      exact .blocked k
    | failed k e notInterrupted notBlocked =>
      obtain ⟨rfl, rfl⟩ := (exec_pure_iff _ _ _).mp rest
      rw [List.append_nil]
      exact .failed k e notInterrupted notBlocked

/-- The answers after which the loop goes on. -/
def goesOn : Event os → Prop
  | ⟨.read _ _, .ok data⟩ => data.val ≠ []
  | ⟨.read _ _, .error e⟩ => e = EINTR
  | _ => False

/-- The answers that tell that the queue has nothing more. -/
def saysNothing (fd : Nat) : Event os → Prop
  | ⟨.read n _, .ok data⟩ => n = fd ∧ data.val = []
  | ⟨.read n _, .error e⟩ => n = fd ∧ e = EAGAIN
  | _ => False

theorem goesOn_interrupted {fd count k : Nat} {e : Event os}
    (member : e ∈ List.replicate k (⟨.read fd count, .error EINTR⟩ : Event os)) : goesOn e := by
  rw [List.eq_of_mem_replicate member]
  rfl

section
variable {order : ByteOrder} {queue arrived handed left : List RawRecord} {t : Trace} {pointer : Pointer} {fd : Fd}
  {buf buf' : Slice pointer.width} {events events' : List InotifyEvent}

theorem decode_read {data : Bytes} (fits : data.length ≤ buf.bytes.length)
    (same : data = handed.flatMap (RawRecord.encode order)) :
    decodeEvents order ((buf.store data).upTo data.length) = some (handed.map RawRecord.event) :=
  decodeEvents_whole (Slice.room _) ((upTo_store buf fits).1.trans same)

theorem readRound_again (serves : Serves order fd.raw queue arrived t handed left)
    (run : Exec (readRound order fd (buf, events)) t (.done (.inl (buf', events')))) :
    buf'.bytes.length = buf.bytes.length ∧ events' = events ++ handed.map RawRecord.event ∧ ∀ e ∈ t, goesOn e := by
  have round := exec_readRound run
  generalize outcome : Outcome.done (I := os) (Sum.inl (buf', events')) = o at round
  cases round with
  | data k data present =>
    have whole := serves.delivered
    rw [delivered_append, delivered_replicate, List.nil_append] at whole
    have brought : delivered fd.raw [⟨.read fd.raw buf.bytes.length, .ok data⟩] = data.val := by simp [deliveredBy]
    rw [decode_read data.property (brought.symm.trans whole)] at outcome
    cases outcome
    refine ⟨(upTo_store buf data.property).2, rfl, fun e member => ?_⟩
    rcases List.mem_append.mp member with member | member
    · exact goesOn_interrupted member
    · rw [List.mem_singleton.mp member]
      exact present
  | waiting | ended | blocked | failed => cases outcome

theorem readRound_left {result : ReadResult} (serves : Serves order fd.raw queue arrived t handed left)
    (run : Exec (readRound order fd (buf, events)) t (.done (.inr result))) :
    result = some (.ok events) ∧ handed = [] ∧
      ∃ before last, t = before ++ [last] ∧ (∀ e ∈ before, goesOn e) ∧ saysNothing fd.raw last := by
  have round := exec_readRound run
  have whole := serves.delivered
  generalize outcome : Outcome.done (I := os) (Sum.inr result) = o at round
  cases round with
  | ended k =>
    cases outcome
    rw [delivered_append, delivered_replicate] at whole
    refine ⟨rfl, records_of_nil order (by rw [← whole]; simp [deliveredBy]), _, _, rfl, ?_, rfl, rfl⟩
    exact fun e => goesOn_interrupted
  | blocked k =>
    cases outcome
    rw [delivered_append, delivered_replicate] at whole
    refine ⟨rfl, records_of_nil order (by rw [← whole]; rfl), _, _, rfl, ?_, rfl, rfl⟩
    exact fun e => goesOn_interrupted
  | failed k e notInterrupted notBlocked =>
    have either : e = EINTR ∨ e = EAGAIN := serves.errors (List.mem_append_right _ (List.mem_singleton_self _))
    exact absurd either (not_or.mpr ⟨notInterrupted, notBlocked⟩)
  | data k data present =>
    rw [delivered_append, delivered_replicate, List.nil_append] at whole
    have brought : delivered fd.raw [⟨.read fd.raw buf.bytes.length, .ok data⟩] = data.val := by simp [deliveredBy]
    rw [decode_read data.property (brought.symm.trans whole)] at outcome
    cases outcome
  | waiting => cases outcome

theorem readRound_waiting {c : Call} (run : Exec (readRound order fd (buf, events)) t (.waiting c)) :
    ∀ e ∈ t, goesOn e := by
  have round := exec_readRound run
  generalize outcome : Outcome.waiting (I := os) c = o at round
  cases round with
  | waiting k => exact fun e => goesOn_interrupted
  | ended | blocked | failed | data => cases outcome

theorem rounds_decoded {start : Slice pointer.width} {state : Slice pointer.width × List InotifyEvent}
    (rounds : Iterates (readRound order fd) (start, []) t state)
    (serves : Serves order fd.raw queue arrived t handed left) :
    state.2 = handed.map RawRecord.event ∧ ∀ e ∈ t, goesOn e := by
  induction rounds generalizing arrived handed left with
  | start =>
    have none : handed = [] := records_of_nil order serves.delivered.symm
    rw [none]
    exact ⟨rfl, fun e member => by cases member⟩
  | @next t t' state following before round ih =>
    obtain ⟨a₁, a₂, h₁, h₂, middle, rfl, rfl, first, second⟩ := serves.split
    obtain ⟨decoded, going⟩ := ih first
    obtain ⟨_, pushed, goes⟩ := readRound_again second round
    refine ⟨?_, fun e member => ?_⟩
    · rw [pushed, decoded, List.map_append]
    · rcases List.mem_append.mp member with earlier | now
      · exact going e earlier
      · exact goes e now

theorem readEvents_decoded {result : ReadResult} (serves : Serves order fd.raw queue arrived t handed left)
    (run : Exec (readEvents order pointer fd) t (.done result)) :
    result = some (.ok (handed.map RawRecord.event)) ∧
      ∃ before last, t = before ++ [last] ∧ (∀ e ∈ before, goesOn e) ∧ saysNothing fd.raw last := by
  obtain ⟨rounds, ⟨buf, events⟩, u, rfl, reached, finish⟩ := exec_iterate_done.mp run
  obtain ⟨a₁, a₂, h₁, h₂, middle, rfl, rfl, first, second⟩ := serves.split
  obtain ⟨returned, none, before, last, rfl, going, nothing⟩ := readRound_left second finish
  have decoded : events = h₁.map RawRecord.event := (rounds_decoded reached first).1
  have earlier := (rounds_decoded reached first).2
  refine ⟨?_, rounds ++ before, last, (List.append_assoc ..).symm, ?_, nothing⟩
  · rw [returned, decoded, none, List.append_nil]
  · exact List.forall_mem_append.mpr ⟨earlier, going⟩

theorem readEvents_waiting {c : Call} (serves : Serves order fd.raw queue arrived t handed left)
    (run : Exec (readEvents order pointer fd) t (.waiting c)) : ∀ e ∈ t, goesOn e := by
  obtain ⟨rounds, ⟨buf, events⟩, last, rfl, reached, stopped⟩ := exec_iterate_waiting.mp run
  obtain ⟨a₁, a₂, h₁, h₂, middle, rfl, rfl, first, second⟩ := serves.split
  intro e member
  rcases List.mem_append.mp member with earlier | now
  · exact (rounds_decoded reached first).2 e earlier
  · exact readRound_waiting stopped e now

end

/-- Calls of `read_events` one after the other: what was queued during them, what the kernel handed out
    in each, and what each returned. -/
inductive Calls (order : ByteOrder) (pointer : Pointer) (fd : Fd) (queue : List RawRecord) :
    List RawRecord → List (List RawRecord) → List ReadResult → List RawRecord → Prop where
  | start : Calls order pointer fd queue [] [] [] queue
  | call {arrived arrived' handed' left left' : List RawRecord} {handed : List (List RawRecord)}
      {results : List ReadResult} {result : ReadResult} {t : Trace}
      (before : Calls order pointer fd queue arrived handed results left)
      (serves : Serves order fd.raw left arrived' t handed' left')
      (run : Exec (readEvents order pointer fd) t (.done result)) :
      Calls order pointer fd queue (arrived ++ arrived') (handed ++ [handed']) (results ++ [result]) left'

section
variable {order : ByteOrder} {pointer : Pointer} {fd : Fd} {queue arrived arrived' handed' left left' : List RawRecord}
  {handed : List (List RawRecord)} {results : List ReadResult} {t : Trace}

theorem Calls.in_order (calls : Calls order pointer fd queue arrived handed results left) :
    queue ++ arrived = handed.flatten ++ left ∧
      results = handed.map fun records => some (.ok (records.map RawRecord.event)) := by
  induction calls with
  | start => exact ⟨List.append_nil queue, rfl⟩
  | @call arrived arrived' handed' left left' handed results result t _ serves run ih =>
    obtain ⟨kept, returned⟩ := ih
    constructor
    · rw [← List.append_assoc, kept, List.append_assoc, serves.conserves]
      simp
    · rw [returned, (readEvents_decoded serves run).1]
      simp

/-- Whatever the reads and whatever was read before, a call of `read_events` reads on until the kernel says
    that there is nothing more, and returns the events of the records handed out until then, which is what
    decoding all the bytes at once gives. -/
theorem read_events_in_order {o : Outcome os ReadResult}
    (calls : Calls order pointer fd queue arrived handed results left)
    (serves : Serves order fd.raw left arrived' t handed' left') (run : Exec (readEvents order pointer fd) t o) :
    (queue ++ arrived = handed.flatten ++ left ∧
      results = handed.map fun records => some (.ok (records.map RawRecord.event))) ∧
    left ++ arrived' = handed' ++ left' ∧
    (∀ result, o = .done result → result = some (.ok (handed'.map RawRecord.event)) ∧
      (∀ whole : Slice pointer.width, whole.bytes = delivered fd.raw t →
        decodeEvents order whole = some (handed'.map RawRecord.event)) ∧
      ∃ before last, t = before ++ [last] ∧ (∀ e ∈ before, goesOn e) ∧ saysNothing fd.raw last) ∧
    (∀ c, o = .waiting c → ∀ e ∈ t, goesOn e) := by
  refine ⟨calls.in_order, serves.conserves, fun result done => ?_, fun c waiting => ?_⟩
  · rw [done] at run
    obtain ⟨returned, ends⟩ := readEvents_decoded serves run
    refine ⟨returned, fun whole bytes => ?_, ends⟩
    exact decodeEvents_whole whole.room (bytes.trans serves.delivered)
  · rw [waiting] at run
    exact readEvents_waiting serves run

end

theorem exec_readSlice_of {fd : Fd} {count : Nat} (answer : Except Errno { data : Bytes // data.length ≤ count })
    (stops : interrupted answer = false) :
    Exec (fd.readSlice count) [⟨.read fd.raw count, answer⟩] (.done (Fd.rawResult "read" Subtype.val answer)) := by
  have asked : Exec (retry (.read fd.raw count) interrupted) [⟨.read fd.raw count, answer⟩] (.done answer) := by
    rw [← List.append_nil [_]]
    refine .leave (.asked ?_) (.ret _)
    rw [stops]
    exact .ret _
  exact .bind_done asked (.ret _)

section
variable {order : ByteOrder} {pointer : Pointer} {fd : Fd} {buf : Slice pointer.width} {events : List InotifyEvent}

theorem readRound_reads {records : List RawRecord} {count : Nat} (size : buf.bytes.length = count)
    (data : { data : Bytes // data.length ≤ count }) (present : data.val ≠ [])
    (same : data.val = records.flatMap (RawRecord.encode order)) :
    Exec (readRound order fd (buf, events)) [⟨.read fd.raw count, .ok data⟩]
      (.done (.inl (buf.store data.val, events ++ records.map RawRecord.event))) := by
  subst size
  have some : data.val.length ≠ 0 := fun none => present (List.length_eq_zero_iff.mp none)
  refine .bind_done (exec_readSlice_of (.ok data) rfl) ?_
  simp only [Fd.rawResult]
  simp only [some, ↓reduceIte, decode_read data.property same]
  exact .ret _

theorem readRound_blocks {count : Nat} (size : buf.bytes.length = count) :
    Exec (readRound order fd (buf, events)) [⟨.read fd.raw count, .error EAGAIN⟩]
      (.done (.inr (some (.ok events)))) := by
  subst size
  exact .bind_done (exec_readSlice_of (.error EAGAIN) rfl) (.ret _)

theorem readEvents_reads (order : ByteOrder) (pointer : Pointer) (fd : Fd) {records : List RawRecord}
    (present : records.flatMap (RawRecord.encode order) ≠ [])
    (fits : (records.flatMap (RawRecord.encode order)).length ≤ 4096) :
    Exec (readEvents order pointer fd)
      [⟨.read fd.raw 4096, .ok ⟨records.flatMap (RawRecord.encode order), fits⟩⟩, ⟨.read fd.raw 4096, .error EAGAIN⟩]
      (.done (some (.ok (records.map RawRecord.event)))) := by
  have size : (zeros pointer).bytes.length = 4096 := List.length_replicate
  have round : Exec (readRound order fd (zeros pointer, [])) _ _ := readRound_reads size ⟨_, fits⟩ present rfl
  have later := (upTo_store (zeros pointer) (size ▸ fits)).2.trans size
  exact .again round (.leave (readRound_blocks later) (.ret _))

end

def plainRecord (wd : Int32) : RawRecord := ⟨wd, 2, 0, [], by decide⟩

theorem read_events_twice :
    ∃ t, Exec (readEvents .little .bits32 ⟨3⟩) t (.done (some (.ok [⟨3, 2, none⟩]))) ∧
      ∀ whole : Slice Pointer.bits32.width, whole.bytes = delivered 3 t →
        decodeEvents .little whole = some [⟨3, 2, none⟩] := by
  have fits : ([plainRecord 1, plainRecord 2].flatMap (RawRecord.encode .little)).length ≤ 4096 := by decide
  have fits' : ([plainRecord 3].flatMap (RawRecord.encode .little)).length ≤ 4096 := by decide
  have first := readEvents_reads .little .bits32 ⟨3⟩ (by decide) fits
  have second := readEvents_reads .little .bits32 ⟨3⟩ (by decide) fits'
  have both : [plainRecord 1, plainRecord 2] ≠ [] := List.cons_ne_nil _ _
  have one : [plainRecord 3] ≠ [] := List.cons_ne_nil _ _
  have serves : Serves .little 3 [plainRecord 1, plainRecord 2] []
      [⟨.read 3 4096, .ok ⟨_, fits⟩⟩, ⟨.read 3 4096, .error EAGAIN⟩] [plainRecord 1, plainRecord 2] [] :=
    .answers (.records _ both rfl) (.answers .blocked (.rest []))
  have later : Serves .little 3 ([plainRecord 3] ++ []) []
      [⟨.read 3 4096, .ok ⟨_, fits'⟩⟩, ⟨.read 3 4096, .error EAGAIN⟩] [plainRecord 3] [] :=
    .answers (.records _ one rfl) (.answers .blocked (.rest []))
  have serves' : Serves .little 3 [] [plainRecord 3]
      [⟨.read 3 4096, .ok ⟨_, fits'⟩⟩, ⟨.read 3 4096, .error EAGAIN⟩] [plainRecord 3] [] :=
    .arrives _ later
  have all := read_events_in_order (Calls.start.call serves first) serves' second
  exact ⟨_, second, (all.2.2.1 _ rfl).2.1⟩

end Inotify

end CoreShift
