import CoreShift.Io.Buffer

namespace CoreShift

open Interaction

def WRITE_CHUNK : Nat := 65536

structure WriterState where
  buf : Option Bytes
  off : Nat
  deriving DecidableEq, Repr

namespace WriterState

def new (buf : Option Bytes) : WriterState := { buf, off := 0 }

def writeRound (fd : Fd) (buf : Bytes) (off : Nat) : Prog (Nat ⊕ (WriterState × Except SysError Bool)) := do
  if off < buf.length then
    let remaining := buf.length - off
    let chunk := min remaining WRITE_CHUNK
    match ← fd.writeSlice (slice buf off (off + chunk)) with
    | .ok (some n) =>
      if 0 < n then return .inl (off + n)
      else return .inr (⟨none, off⟩, .ok true)
    | .ok none => return .inr (⟨some buf, off⟩, .ok false)
    | .error e =>
      if e.code = EPIPE then return .inr (⟨none, off⟩, .ok true)
      else return .inr (⟨none, off⟩, .error e)
  else return .inr (⟨none, off⟩, .ok true)

def writeToFd (w : WriterState) (fd : Fd) : Prog (WriterState × Except SysError Bool) :=
  match w.buf with
  | some buf => iterate (writeRound fd buf) w.off
  | none => return (w, .ok true)

def offer (buf : Bytes) (off : Nat) : Bytes := slice buf off (off + min (buf.length - off) WRITE_CHUNK)

theorem offer_length (buf : Bytes) (off : Nat) :
    (offer buf off).length = min (buf.length - off) WRITE_CHUNK := by
  simp only [offer, slice, List.length_drop, List.length_take]
  omega

theorem take_offer {buf : Bytes} {off n : Nat} (bound : n ≤ (offer buf off).length) :
    buf.take off ++ (offer buf off).take n = buf.take (off + n) := by
  rw [offer_length] at bound
  have cut : (offer buf off).take n = (buf.drop off).take n := by
    rw [offer, slice, List.drop_take, List.take_take]
    congr 1
    omega
  rw [cut, List.take_add]

inductive Round (fd : Nat) (buf : Bytes) (off : Nat) :
    Trace → Outcome os (Nat ⊕ (WriterState × Except SysError Bool)) → Prop where
  | finished (written : buf.length ≤ off) : Round fd buf off [] (.done (.inr (⟨none, off⟩, .ok true)))
  | waiting (k : Nat) (left : off < buf.length) :
      Round fd buf off (List.replicate k ⟨.write fd (offer buf off), .error EINTR⟩)
        (.waiting (.write fd (offer buf off)))
  | accepted (k : Nat) (left : off < buf.length) (n : { n : Nat // n ≤ (offer buf off).length })
      (progress : 0 < n.val) :
      Round fd buf off
        (List.replicate k ⟨.write fd (offer buf off), .error EINTR⟩ ++ [⟨.write fd (offer buf off), .ok n⟩])
        (.done (.inl (off + n.val)))
  | refused (k : Nat) (left : off < buf.length) :
      Round fd buf off
        (List.replicate k ⟨.write fd (offer buf off), .error EINTR⟩ ++
          [⟨.write fd (offer buf off), .ok ⟨0, Nat.zero_le _⟩⟩])
        (.done (.inr (⟨none, off⟩, .ok true)))
  | blocked (k : Nat) (left : off < buf.length) :
      Round fd buf off
        (List.replicate k ⟨.write fd (offer buf off), .error EINTR⟩ ++
          [⟨.write fd (offer buf off), .error EAGAIN⟩])
        (.done (.inr (⟨some buf, off⟩, .ok false)))
  | broken (k : Nat) (left : off < buf.length) :
      Round fd buf off
        (List.replicate k ⟨.write fd (offer buf off), .error EINTR⟩ ++
          [⟨.write fd (offer buf off), .error EPIPE⟩])
        (.done (.inr (⟨none, off⟩, .ok true)))
  | failed (k : Nat) (left : off < buf.length) (e : Errno) (notInterrupted : e ≠ EINTR)
      (notBlocked : e ≠ EAGAIN) (notBroken : e ≠ EPIPE) :
      Round fd buf off
        (List.replicate k ⟨.write fd (offer buf off), .error EINTR⟩ ++ [⟨.write fd (offer buf off), .error e⟩])
        (.done (.inr (⟨none, off⟩, .error (.sys e "write"))))

theorem exec_writeRound {fd : Fd} {buf : Bytes} {off : Nat} {t o} (run : Exec (writeRound fd buf off) t o) :
    Round fd.raw buf off t o := by
  by_cases left : off < buf.length
  · have offered : slice buf off (off + min (buf.length - off) WRITE_CHUNK) = offer buf off := rfl
    simp only [writeRound, left, ↓reduceIte, offered] at run
    rcases exec_bind_cases run with ⟨c, rfl, stopped⟩ | ⟨first, answer, second, rfl, asked, rest⟩
    · cases Fd.exec_writeSlice stopped with
      | waiting k => exact .waiting k left
    · cases Fd.exec_writeSlice asked with
      | moved k n =>
        by_cases progress : 0 < n.val
        · simp only [progress, ↓reduceIte, exec_pure_iff] at rest
          obtain ⟨rfl, rfl⟩ := rest
          simpa using Round.accepted k left n progress
        · obtain ⟨n, bound⟩ := n
          simp only [progress, ↓reduceIte, exec_pure_iff] at rest
          obtain ⟨rfl, rfl⟩ := rest
          obtain rfl : n = 0 := by simpa using progress
          simpa using Round.refused k left
      | blocked k =>
        simp only [exec_pure_iff] at rest
        obtain ⟨rfl, rfl⟩ := rest
        simpa using Round.blocked k left
      | failed k e notInterrupted notBlocked =>
        by_cases broken : e = EPIPE
        · subst broken
          simp only [SysError.code_sys, ↓reduceIte, exec_pure_iff] at rest
          obtain ⟨rfl, rfl⟩ := rest
          simpa using Round.broken k left
        · simp only [SysError.code_sys, broken, ↓reduceIte, exec_pure_iff] at rest
          obtain ⟨rfl, rfl⟩ := rest
          simpa using Round.failed k left e notInterrupted notBlocked broken
  · simp only [writeRound, left, ↓reduceIte, exec_pure_iff] at run
    obtain ⟨rfl, rfl⟩ := run
    exact .finished (Nat.le_of_not_lt left)

theorem exec_writeToFd_done {w w' : WriterState} {fd : Fd} {buf : Bytes} {t result}
    (pending : w.buf = some buf) (run : Exec (w.writeToFd fd) t (.done (w', result))) :
    ∃ rounds last off, t = rounds ++ last ∧ Iterates (writeRound fd buf) w.off rounds off ∧
      Round fd.raw buf off last (.done (.inr (w', result))) := by
  simp only [writeToFd, pending] at run
  obtain ⟨rounds, off, last, rfl, reached, finish⟩ := exec_iterate_done.mp run
  exact ⟨rounds, last, off, rfl, reached, exec_writeRound finish⟩

theorem exec_writeToFd_waiting {w : WriterState} {fd : Fd} {buf : Bytes} {t c}
    (pending : w.buf = some buf) (run : Exec (w.writeToFd fd) t (.waiting c)) :
    ∃ rounds last off, t = rounds ++ last ∧ Iterates (writeRound fd buf) w.off rounds off ∧
      Round fd.raw buf off last (.waiting c) := by
  simp only [writeToFd, pending] at run
  obtain ⟨rounds, off, last, rfl, reached, stopped⟩ := exec_iterate_waiting.mp run
  exact ⟨rounds, last, off, rfl, reached, exec_writeRound stopped⟩

end WriterState

end CoreShift
