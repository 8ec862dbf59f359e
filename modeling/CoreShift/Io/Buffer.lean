import CoreShift.Reactor
import Mathlib.Data.List.Basic

namespace CoreShift

open Interaction

def READ_CHUNK : Nat := 65536

def DROP_CHUNK : Nat := 8192

def resize (v : Bytes) (newLen : Nat) (value : UInt8) : Bytes :=
  v.take newLen ++ List.replicate (newLen - v.length) value

/-- What a read stores at an offset of a buffer, in place. -/
def store (v : Bytes) (off : Nat) (data : Bytes) : Bytes :=
  v.take off ++ data ++ v.drop (off + data.length)

def slice (v : Bytes) (start stop : Nat) : Bytes := (v.take stop).drop start

theorem truncate_resize (v : Bytes) (extra : Nat) (value : UInt8) :
    (resize v (v.length + extra) value).take v.length = v := by
  simp [resize, List.take_of_length_le]

theorem truncate_store (v : Bytes) (extra : Nat) (value : UInt8) (data : Bytes) :
    (store (resize v (v.length + extra) value) v.length data).take (v.length + data.length) = v ++ data := by
  have kept : (resize v (v.length + extra) value).take v.length = v := truncate_resize v extra value
  rw [store, kept]
  exact List.take_left' (List.length_append ..)

theorem slice_append (v data : Bytes) : slice (v ++ data) v.length (v.length + data.length) = data := by
  simp [slice, List.take_of_length_le]

structure BufferState where
  stdout : Bytes
  stderr : Bytes
  limit : Nat
  deriving DecidableEq, Repr

namespace BufferState

def new (limit : Nat) : BufferState := { stdout := [], stderr := [], limit }

def dest (b : BufferState) (isStdout : Bool) : Bytes := if isStdout then b.stdout else b.stderr

def setDest (b : BufferState) (isStdout : Bool) (bytes : Bytes) : BufferState :=
  if isStdout then { b with stdout := bytes } else { b with stderr := bytes }

def readRound (fd : Fd) (isStdout earlyExit : Bool) (limit : Nat) (dest : Bytes) :
    Prog (Bytes ⊕ (Bytes × Except SysError Bool)) := do
  let len := dest.length
  let remainingLimit := limit - len
  if remainingLimit = 0 then
    match ← fd.readSlice DROP_CHUNK with
    | .ok (some data) =>
      if 0 < data.length then return .inl dest
      else return .inr (dest, .ok true)
    | .ok none => return .inr (dest, .ok false)
    | .error e => return .inr (dest, .error e)
  else
    let toRead := min remainingLimit READ_CHUNK
    let dest := resize dest (len + toRead) 0
    match ← fd.readSlice toRead with
    | .ok (some data) =>
      let dest := store dest len data
      if 0 < data.length then
        let dest := dest.take (len + data.length)
        if isStdout && earlyExit then
          let stop ← ask (.earlyExit (slice dest len (len + data.length)))
          return if stop then .inr (dest, .ok true) else .inl dest
        else return .inl dest
      else return .inr (dest.take len, .ok true)
    | .ok none => return .inr (dest.take len, .ok false)
    | .error e => return .inr (dest.take len, .error e)

def readFromFd (b : BufferState) (fd : Fd) (isStdout earlyExit : Bool) :
    Prog (BufferState × Except SysError Bool) := do
  let (dest, result) ← iterate (readRound fd isStdout earlyExit b.limit) (b.dest isStdout)
  return (b.setDest isStdout dest, result)

def intoParts (b : BufferState) : Bytes × Bytes := (b.stdout, b.stderr)

def readCount (limit : Nat) (dest : Bytes) : Nat :=
  if limit - dest.length = 0 then DROP_CHUNK else min (limit - dest.length) READ_CHUNK

theorem readCount_pos (limit : Nat) (dest : Bytes) : 0 < readCount limit dest := by
  unfold readCount DROP_CHUNK READ_CHUNK
  split <;> omega

def consults (isStdout earlyExit : Bool) (limit : Nat) (dest : Bytes) : Bool :=
  isStdout && earlyExit && decide (dest.length < limit)

/-- Everything that one round can do. What it keeps of the data is cut at the limit. -/
inductive Round (fd : Nat) (isStdout earlyExit : Bool) (limit : Nat) (dest : Bytes) :
    Trace → Outcome os (Bytes ⊕ (Bytes × Except SysError Bool)) → Prop where
  | waiting (k : Nat) :
      Round fd isStdout earlyExit limit dest
        (List.replicate k ⟨.read fd (readCount limit dest), .error EINTR⟩)
        (.waiting (.read fd (readCount limit dest)))
  | eof (k : Nat) :
      Round fd isStdout earlyExit limit dest
        (List.replicate k ⟨.read fd (readCount limit dest), .error EINTR⟩ ++
          [⟨.read fd (readCount limit dest), .ok ⟨[], Nat.zero_le _⟩⟩])
        (.done (.inr (dest, .ok true)))
  | blocked (k : Nat) :
      Round fd isStdout earlyExit limit dest
        (List.replicate k ⟨.read fd (readCount limit dest), .error EINTR⟩ ++
          [⟨.read fd (readCount limit dest), .error EAGAIN⟩])
        (.done (.inr (dest, .ok false)))
  | failed (k : Nat) (e : Errno) (notInterrupted : e ≠ EINTR) (notBlocked : e ≠ EAGAIN) :
      Round fd isStdout earlyExit limit dest
        (List.replicate k ⟨.read fd (readCount limit dest), .error EINTR⟩ ++
          [⟨.read fd (readCount limit dest), .error e⟩])
        (.done (.inr (dest, .error (.sys e "read"))))
  | data (k : Nat) (data : { data : Bytes // data.length ≤ readCount limit dest })
      (present : 0 < data.val.length) (silent : consults isStdout earlyExit limit dest = false) :
      Round fd isStdout earlyExit limit dest
        (List.replicate k ⟨.read fd (readCount limit dest), .error EINTR⟩ ++
          [⟨.read fd (readCount limit dest), .ok data⟩])
        (.done (.inl (dest ++ data.val.take (limit - dest.length))))
  | consulting (k : Nat) (data : { data : Bytes // data.length ≤ readCount limit dest })
      (present : 0 < data.val.length) (asked : consults isStdout earlyExit limit dest = true) :
      Round fd isStdout earlyExit limit dest
        (List.replicate k ⟨.read fd (readCount limit dest), .error EINTR⟩ ++
          [⟨.read fd (readCount limit dest), .ok data⟩])
        (.waiting (.earlyExit data.val))
  | consulted (k : Nat) (data : { data : Bytes // data.length ≤ readCount limit dest })
      (present : 0 < data.val.length) (asked : consults isStdout earlyExit limit dest = true) (stop : Bool) :
      Round fd isStdout earlyExit limit dest
        (List.replicate k ⟨.read fd (readCount limit dest), .error EINTR⟩ ++
          [⟨.read fd (readCount limit dest), .ok data⟩, ⟨.earlyExit data.val, stop⟩])
        (.done (if stop then .inr (dest ++ data.val, .ok true) else .inl (dest ++ data.val)))

theorem exec_readRound_full {fd : Fd} {isStdout earlyExit : Bool} {limit : Nat} {dest : Bytes} {t o}
    (full : limit - dest.length = 0) (run : Exec (readRound fd isStdout earlyExit limit dest) t o) :
    Round fd.raw isStdout earlyExit limit dest t o := by
  have count : readCount limit dest = DROP_CHUNK := by simp [readCount, full]
  have silent : consults isStdout earlyExit limit dest = false := by
    simp only [consults, Bool.and_eq_false_iff, decide_eq_false_iff_not]
    omega
  simp only [readRound, full, ↓reduceIte] at run
  rw [← count] at run
  rcases exec_bind_cases run with ⟨c, rfl, stopped⟩ | ⟨first, answer, second, rfl, asked, rest⟩
  · cases Fd.exec_readSlice stopped with
    | waiting k => exact .waiting k
  · cases Fd.exec_readSlice asked with
    | moved k data =>
      by_cases present : 0 < data.val.length
      · simp only [present, ↓reduceIte, exec_pure_iff] at rest
        obtain ⟨rfl, rfl⟩ := rest
        simpa [full] using Round.data k data present silent
      · obtain ⟨data, bound⟩ := data
        simp only [present, ↓reduceIte, exec_pure_iff] at rest
        obtain ⟨rfl, rfl⟩ := rest
        obtain rfl : data = [] := by simpa using present
        simpa using Round.eof k
    | blocked k =>
      simp only [exec_pure_iff] at rest
      obtain ⟨rfl, rfl⟩ := rest
      simpa using Round.blocked k
    | failed k e notInterrupted notBlocked =>
      simp only [exec_pure_iff] at rest
      obtain ⟨rfl, rfl⟩ := rest
      simpa using Round.failed k e notInterrupted notBlocked

theorem exec_readRound_room {fd : Fd} {isStdout earlyExit : Bool} {limit : Nat} {dest : Bytes} {t o}
    (room : limit - dest.length ≠ 0) (run : Exec (readRound fd isStdout earlyExit limit dest) t o) :
    Round fd.raw isStdout earlyExit limit dest t o := by
  have count : readCount limit dest = min (limit - dest.length) READ_CHUNK := by simp [readCount, room]
  have below : dest.length < limit := by omega
  simp only [readRound, room, ↓reduceIte] at run
  rw [← count] at run
  rcases exec_bind_cases run with ⟨c, rfl, stopped⟩ | ⟨first, answer, second, rfl, asked, rest⟩
  · cases Fd.exec_readSlice stopped with
    | waiting k => exact .waiting k
  · cases Fd.exec_readSlice asked with
    | moved k data =>
      have kept : data.val.take (limit - dest.length) = data.val :=
        List.take_of_length_le (Nat.le_trans data.property (by rw [count]; exact Nat.min_le_left _ _))
      by_cases present : 0 < data.val.length
      · simp only [present, ↓reduceIte] at rest
        rw [truncate_store, slice_append] at rest
        by_cases asks : isStdout && earlyExit
        · have consulted : consults isStdout earlyExit limit dest = true := by simp [consults, asks, below]
          simp only [asks, ↓reduceIte] at rest
          rcases exec_bind_cases rest with ⟨c, rfl, stopped⟩ | ⟨third, stop, fourth, rfl, answered, rest⟩
          · obtain ⟨rfl, rfl⟩ := (exec_ask_waiting _ _ _).mp stopped
            simpa using Round.consulting k data present consulted
          · rw [exec_ask_done] at answered
            obtain ⟨rfl, rfl⟩ := (exec_pure_iff _ _ _).mp rest
            subst answered
            simpa using Round.consulted k data present consulted stop
        · have silent : consults isStdout earlyExit limit dest = false := by simp [consults, asks]
          simp only [asks, Bool.false_eq_true, ↓reduceIte, exec_pure_iff] at rest
          obtain ⟨rfl, rfl⟩ := rest
          simpa [kept] using Round.data k data present silent
      · obtain ⟨data, bound⟩ := data
        simp only [present, ↓reduceIte, exec_pure_iff] at rest
        obtain ⟨rfl, rfl⟩ := rest
        obtain rfl : data = [] := by simpa using present
        simpa [store, truncate_resize] using Round.eof k
    | blocked k =>
      simp only [exec_pure_iff, truncate_resize] at rest
      obtain ⟨rfl, rfl⟩ := rest
      simpa using Round.blocked k
    | failed k e notInterrupted notBlocked =>
      simp only [exec_pure_iff, truncate_resize] at rest
      obtain ⟨rfl, rfl⟩ := rest
      simpa using Round.failed k e notInterrupted notBlocked

theorem exec_readRound {fd : Fd} {isStdout earlyExit : Bool} {limit : Nat} {dest : Bytes} {t o}
    (run : Exec (readRound fd isStdout earlyExit limit dest) t o) :
    Round fd.raw isStdout earlyExit limit dest t o := by
  by_cases full : limit - dest.length = 0
  · exact exec_readRound_full full run
  · exact exec_readRound_room full run

theorem exec_readFromFd_done {b b' : BufferState} {fd : Fd} {isStdout earlyExit : Bool} {t result}
    (run : Exec (b.readFromFd fd isStdout earlyExit) t (.done (b', result))) :
    ∃ rounds last dest final, t = rounds ++ last ∧ b' = b.setDest isStdout final ∧
      Iterates (readRound fd isStdout earlyExit b.limit) (b.dest isStdout) rounds dest ∧
      Round fd.raw isStdout earlyExit b.limit dest last (.done (.inr (final, result))) := by
  obtain ⟨first, ⟨final, value⟩, second, rfl, looped, rest⟩ := exec_bind_done.mp run
  simp only [exec_pure_iff, Outcome.done.injEq, Prod.mk.injEq] at rest
  obtain ⟨rfl, rfl, rfl⟩ := rest
  obtain ⟨rounds, dest, last, rfl, reached, finish⟩ := exec_iterate_done.mp looped
  exact ⟨rounds, last, dest, final, by simp, rfl, reached, exec_readRound finish⟩

theorem exec_readFromFd_waiting {b : BufferState} {fd : Fd} {isStdout earlyExit : Bool} {t c}
    (run : Exec (b.readFromFd fd isStdout earlyExit) t (.waiting c)) :
    ∃ rounds last dest, t = rounds ++ last ∧
      Iterates (readRound fd isStdout earlyExit b.limit) (b.dest isStdout) rounds dest ∧
      Round fd.raw isStdout earlyExit b.limit dest last (.waiting c) := by
  rcases exec_bind_waiting.mp run with looped | ⟨first, ⟨final, value⟩, second, rfl, looped, rest⟩
  · obtain ⟨rounds, dest, last, rfl, reached, stopped⟩ := exec_iterate_waiting.mp looped
    exact ⟨rounds, last, dest, rfl, reached, exec_readRound stopped⟩
  · simp at rest

end BufferState

end CoreShift
