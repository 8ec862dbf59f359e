import Mathlib.Logic.Function.Basic
import CoreShift.Interaction.Interleaved
import CoreShift.Kernel.EdgeTriggered
import CoreShift.Spawn.World

namespace CoreShift

open Interaction

structure Pipe where
  channel : Channel UInt8
  writers : Bool
  readers : Bool

namespace Pipe

def meets (p : Pipe) : Channel.Op UInt8 → Bool
  | .read _ => p.writers
  | .write _ => p.readers

def Moves (p : Pipe) (op : Channel.Op UInt8) (answer : Channel.Answer UInt8) (p' : Pipe) : Prop :=
  ∃ c, p.channel.Move PIPE_BUF (p.meets op = true) op answer c ∧ p' = { p with channel := c }

def readEvents (p : Pipe) : UInt32 :=
  (if p.channel.content = [] then 0 else EPOLLIN) ||| (if p.writers then 0 else EPOLLHUP)

/-- What `poll` reports of the end that is written to: there is space when a write of `PIPE_BUF` bytes
    would not block. -/
def writeEvents (p : Pipe) : UInt32 :=
  (if p.channel.content.length + PIPE_BUF ≤ p.channel.capacity then EPOLLOUT else 0) |||
    (if p.readers then 0 else EPOLLERR)

end Pipe

structure Registration where
  events : UInt32
  data : UInt64
  deriving DecidableEq, Repr

/-- What the descriptors of the parent refer to, the pipes, and an epoll instance: its interest list,
    and the entries of it that are marked as pending. -/
structure Kernel where
  file : Nat → Option File
  pipes : Nat → Pipe
  registered : Nat → Option Registration
  pending : Nat → Bool

namespace Kernel

def poll (K : Kernel) (fd : Nat) : UInt32 :=
  match K.file fd with
  | some (.readEnd k) => (K.pipes k).readEvents
  | some (.writeEnd k) => (K.pipes k).writeEvents
  | _ => 0

def revents (K : Kernel) (fd : Nat) (events : UInt32) : UInt32 :=
  K.poll fd &&& (events ||| EPOLLERR ||| EPOLLHUP)

def Reports (K : Kernel) (fd : Nat) : Prop := ∃ r, K.registered fd = some r ∧ K.revents fd r.events ≠ 0

def Pending (K : Kernel) (fd : Nat) : Prop := K.pending fd = true

def Sleeps (K : Kernel) : Prop := ∀ fd, K.Pending fd → ¬K.Reports fd

abbrev Alert (K : Kernel) (fd : Nat) : Prop := EdgeTriggered.Alert K.Reports K.Pending fd

def setPipe (K : Kernel) (k : Nat) (p : Pipe) : Kernel := { K with pipes := Function.update K.pipes k p }

def isElsewhere : Call → Bool
  | .instantNow | .reserve _ _ _ | .earlyExit _ | .kill _ _ | .waitpid _ | .waitpidNoHang _ => true
  | _ => false

/-- What an exchange of the parent does, apart from the marks. A call that fails does nothing. -/
inductive Change (epfd : Nat) (K : Kernel) : Event os → Kernel → Prop where
  | read {fd count k : Nat} {data : { data : Bytes // data.length ≤ count }} {p : Pipe}
      (refers : K.file fd = some (.readEnd k)) (moves : (K.pipes k).Moves (.read count) (.data data.val) p) :
      Change epfd K ⟨.read fd count, .ok data⟩ (K.setPipe k p)
  | readAgain {fd count k : Nat} {p : Pipe} (refers : K.file fd = some (.readEnd k))
      (moves : (K.pipes k).Moves (.read count) .again p) : Change epfd K ⟨.read fd count, .error EAGAIN⟩ K
  | readFails {fd count : Nat} {e : Errno} (other : e ≠ EAGAIN) : Change epfd K ⟨.read fd count, .error e⟩ K
  | write {fd k : Nat} {bytes : Bytes} {n : { n : Nat // n ≤ bytes.length }} {p : Pipe}
      (refers : K.file fd = some (.writeEnd k)) (moves : (K.pipes k).Moves (.write bytes) (.wrote n.val) p) :
      Change epfd K ⟨.write fd bytes, .ok n⟩ (K.setPipe k p)
  | writeAgain {fd k : Nat} {bytes : Bytes} {p : Pipe} (refers : K.file fd = some (.writeEnd k))
      (moves : (K.pipes k).Moves (.write bytes) .again p) : Change epfd K ⟨.write fd bytes, .error EAGAIN⟩ K
  | writeFails {fd : Nat} {bytes : Bytes} {e : Errno} (other : e ≠ EAGAIN) :
      Change epfd K ⟨.write fd bytes, .error e⟩ K
  | add {fd : Nat} {events : UInt32} {data : UInt64} (new : K.registered fd = none) :
      Change epfd K ⟨.epollCtlAdd epfd fd events data, .ok ()⟩
        { K with registered := Function.update K.registered fd (some ⟨events, data⟩) }
  | addFails {fd : Nat} {events : UInt32} {data : UInt64} {e : Errno} :
      Change epfd K ⟨.epollCtlAdd epfd fd events data, .error e⟩ K
  | del {fd : Nat} :
      Change epfd K ⟨.epollCtlDel epfd fd, .ok ()⟩ { K with registered := Function.update K.registered fd none }
  | delFails {fd : Nat} {e : Errno} : Change epfd K ⟨.epollCtlDel epfd fd, .error e⟩ K
  | close {fd : Nat} {answer : Except Errno Unit} :
      Change epfd K ⟨.close fd, answer⟩
        { K with file := Function.update K.file fd none, registered := Function.update K.registered fd none }
  | waitFails {maxEvents timeout : Int} {e : Errno} : Change epfd K ⟨.epollWait epfd maxEvents timeout, .error e⟩ K
  | elsewhere {e : Event os} (elsewhere : isElsewhere e.call = true) : Change epfd K e K

inductive Far (K : Kernel) : Kernel → Prop where
  | call {k : Nat} {op : Channel.Op UInt8} {answer : Channel.Answer UInt8} {p : Pipe}
      (moves : (K.pipes k).Moves op answer p) : Far K (K.setPipe k p)
  | closeWriters {k : Nat} : Far K (K.setPipe k { K.pipes k with writers := false })
  | closeReaders {k : Nat} : Far K (K.setPipe k { K.pipes k with readers := false })

/-- The marks after a change. An addition of a descriptor that has something to report is an edge too. -/
def Marks (K K' : Kernel) : Prop := EdgeTriggered.Marks K.Reports K'.Reports K.Pending K'.Pending

inductive Child : Kernel → Kernel → Prop where
  | far {K K₁ : Kernel} {pending : Nat → Bool} (far : Far K K₁) (marks : Marks K { K₁ with pending }) :
      Child K { K₁ with pending }

def Fetched (K : Kernel) (fd : Nat) (ev : EpollEvent) : Prop :=
  K.Pending fd ∧ ∃ r, K.registered fd = some r ∧ ev = ⟨K.revents fd r.events, r.data⟩ ∧ ev.events ≠ 0

/-- An exchange of the parent. `epoll_wait` reports pending entries and clears their marks. -/
inductive Parent (epfd : Nat) : Kernel → Event os → Kernel → Prop where
  | exchange {K K₁ : Kernel} {e : Event os} {pending : Nat → Bool} (change : Change epfd K e K₁)
      (marks : Marks K { K₁ with pending }) : Parent epfd K e { K₁ with pending }
  | wait {K : Kernel} {maxEvents timeout : Int}
      {answer : { events : List EpollEvent // events.length ≤ maxEvents.toNat }}
      {fds : List Nat} {pending : Nat → Bool} (distinct : fds.Nodup)
      (reported : List.Forall₂ (Fetched K) fds answer.val) (cleared : ∀ fd ∈ fds, pending fd = false)
      (kept : EdgeTriggered.Fetches (· ∈ fds) K.Reports K.Pending { K with pending }.Pending) :
      Parent epfd K ⟨.epollWait epfd maxEvents timeout, .ok answer⟩ { K with pending }

abbrev Run (epfd : Nat) (K : Kernel) (t : Trace) (K' : Kernel) : Prop := Interleaved Child (Parent epfd) K t K'

variable {K K' : Kernel} {epfd fd : Nat} {e : Event os} {t : Trace}

theorem fetched_of_mem {fds : List Nat} {events : List EpollEvent} (reported : List.Forall₂ (Fetched K) fds events)
    (member : fd ∈ fds) : ∃ ev ∈ events, Fetched K fd ev := by
  induction reported with
  | nil => cases member
  | @cons fd' ev fds events first rest ih =>
    rcases List.mem_cons.mp member with here | there
    · exact ⟨ev, by simp, here ▸ first⟩
    · obtain ⟨ev', later, fetched⟩ := ih there
      exact ⟨ev', List.mem_cons_of_mem ev later, fetched⟩

theorem Child.alert (child : Child K K') (alert : K.Alert fd) : K'.Alert fd := by
  cases child with
  | far far marks => exact marks.alert alert

theorem Far.registered {K₁ : Kernel} (far : Far K K₁) : K₁.registered = K.registered := by
  cases far with
  | call moves => rfl
  | closeWriters => rfl
  | closeReaders => rfl

theorem Child.registered (child : Child K K') : K'.registered = K.registered := by
  cases child with
  | far far marks => exact far.registered

theorem Parent.alert (parent : Parent epfd K e K')
    (other : ∀ maxEvents timeout, e.call ≠ .epollWait epfd maxEvents timeout) (alert : K.Alert fd) : K'.Alert fd := by
  cases parent with
  | exchange change marks => exact marks.alert alert
  | wait distinct reported cleared kept => exact absurd rfl (other _ _)

theorem Parent.registered {r : Registration} (parent : Parent epfd K e K') (entry : K.registered fd = some r)
    (undeleted : e.call ≠ .epollCtlDel epfd fd) (unclosed : e.call ≠ .close fd) : K'.registered fd = some r := by
  cases parent with
  | wait distinct reported cleared kept => exact entry
  | exchange change marks =>
    cases change with
    | @add fd' events data new =>
      have other : fd ≠ fd' := by
        intro same
        rw [← same, entry] at new
        cases new
      exact (Function.update_of_ne other _ _).trans entry
    | @del fd' =>
      have other : fd ≠ fd' := fun same => undeleted (congrArg _ same.symm)
      exact (Function.update_of_ne other _ _).trans entry
    | @close fd' answer =>
      have other : fd ≠ fd' := fun same => unclosed (congrArg _ same.symm)
      exact (Function.update_of_ne other _ _).trans entry
    | read | readAgain | readFails | write | writeAgain | writeFails | addFails | delFails | waitFails | elsewhere =>
      exact entry

def Refused (fd : Nat) (e : Event os) : Prop :=
  (∃ count, e = ⟨.read fd count, .error EAGAIN⟩) ∨ ∃ bytes, e = ⟨.write fd bytes, .error EAGAIN⟩

theorem readEvents_of_again {p p' : Pipe} {count : Nat} (moves : p.Moves (.read count) .again p') :
    p.readEvents = 0 := by
  obtain ⟨c, move, _⟩ := moves
  obtain ⟨opened, _, empty⟩ := move.stalls.2
  have held : p.writers = true := opened
  simp [Pipe.readEvents, empty, held]

theorem writeEvents_of_again {p p' : Pipe} {bytes : Bytes} (moves : p.Moves (.write bytes) .again p') :
    p.writeEvents = 0 := by
  obtain ⟨c, move, _⟩ := moves
  obtain ⟨opened, given, full⟩ := move.stalls.2
  have held : p.readers = true := opened
  have some : 0 < bytes.length := List.length_pos_of_ne_nil given
  have crowded : ¬p.channel.content.length + PIPE_BUF ≤ p.channel.capacity := by
    unfold Channel.Full at full
    unfold PIPE_BUF at full ⊢
    split at full <;> omega
  simp [Pipe.writeEvents, crowded, held]

theorem Parent.refused (parent : Parent epfd K e K') (refused : Refused fd e) : K'.Alert fd := by
  have quiet : K'.poll fd = 0 → K'.Alert fd := by
    intro none
    refine EdgeTriggered.alert_of_not_ready fun reports => ?_
    obtain ⟨r, _, some⟩ := reports
    apply some
    simp [revents, none]
  apply quiet
  rcases refused with ⟨count, rfl⟩ | ⟨bytes, rfl⟩
  · cases parent with
    | exchange change marks =>
      cases change with
      | readAgain refers moves =>
        show poll K fd = 0
        rw [poll, refers]
        exact readEvents_of_again moves
      | readFails other => exact absurd rfl other
      | elsewhere impossible => cases impossible
  · cases parent with
    | exchange change marks =>
      cases change with
      | writeAgain refers moves =>
        show poll K fd = 0
        rw [poll, refers]
        exact writeEvents_of_again moves
      | writeFails other => exact absurd rfl other
      | elsewhere impossible => cases impossible

theorem Run.alert (run : Run epfd K t K')
    (others : ∀ e ∈ t, ∀ maxEvents timeout, e.call ≠ .epollWait epfd maxEvents timeout) (alert : K.Alert fd) :
    K'.Alert fd :=
  run.keeps (P := (Alert · fd)) alert (fun _ _ => Child.alert)
    fun e member _ _ step => step.alert (others e member)

theorem Run.registered {r : Registration} (run : Run epfd K t K') (entry : K.registered fd = some r)
    (untouched : ∀ e ∈ t, e.call ≠ .epollCtlDel epfd fd ∧ e.call ≠ .close fd) : K'.registered fd = some r :=
  run.keeps (P := fun K => K.registered fd = some r) entry (fun _ _ child entry => child.registered ▸ entry)
    fun e member _ _ step entry => step.registered entry (untouched e member).1 (untouched e member).2

theorem Run.refused (run : Run epfd K (t ++ [e]) K') (refused : Refused fd e) : K'.Alert fd := by
  obtain ⟨K₁, K₂, _, step, rest⟩ := run.last
  exact Run.alert rest (by simp) (step.refused refused)

end Kernel

end CoreShift
