import CoreShift.Interaction.Interleaved
import CoreShift.Kernel.EdgeTriggered
import CoreShift.Reactor

namespace CoreShift.Reactor

open Interaction

/-- `size_of::<signalfd_siginfo>()`. -/
def SIGINFO_SIZE : Nat := 128

def drainRound (fd : Fd) (_ : Unit) : Prog (Unit ⊕ Unit) := do
  match ← fd.readSlice SIGINFO_SIZE with
  | .ok (some data) => if data.length < SIGINFO_SIZE then return .inr () else return .inl ()
  | .ok none => return .inr ()
  | .error _ => return .inr ()

def drainSignalfd (r : Reactor) : Prog Unit :=
  match r.signalfd with
  | some fd => iterate (drainRound fd) ()
  | none => return ()

/-- `SIGCHLD` of the process, which has blocked it: whether it is pending, and whether the epoll instance has a
    report of the descriptor that is not fetched. -/
structure Sigchld where
  pending : Bool
  marked : Bool
  deriving DecidableEq, Repr

namespace Sigchld

/-- A child ends. A signal that is pending already is not sent again. -/
inductive Arrives : Sigchld → Sigchld → Prop where
  | sent {s : Sigchld} (quiet : s.pending = false) : Arrives s ⟨true, true⟩
  | merged {s : Sigchld} (pending : s.pending = true) : Arrives s s

inductive Reads (fd : Nat) : Sigchld → Interaction.Event os → Sigchld → Prop where
  | taken {s : Sigchld} {data : { data : Bytes // data.length ≤ SIGINFO_SIZE }} (pending : s.pending = true)
      (whole : data.val.length = SIGINFO_SIZE) :
      Reads fd s ⟨.read fd SIGINFO_SIZE, .ok data⟩ { s with pending := false }
  | nothing {s : Sigchld} (quiet : s.pending = false) : Reads fd s ⟨.read fd SIGINFO_SIZE, .error EAGAIN⟩ s
  | interrupted {s : Sigchld} : Reads fd s ⟨.read fd SIGINFO_SIZE, .error EINTR⟩ s

def Owed (s : Sigchld) : Prop := EdgeTriggered.Alert (fun _ : Unit => s.pending = true) (fun _ => s.marked = true) ()

theorem Arrives.marks {s s' : Sigchld} (arrives : Arrives s s') :
    EdgeTriggered.Marks (fun _ : Unit => s.pending = true) (fun _ => s'.pending = true) (fun _ => s.marked = true)
      (fun _ => s'.marked = true) := by
  intro _ now
  cases arrives with
  | sent quiet => exact .inl rfl
  | merged pending =>
    by_cases mark : s.marked = true
    · exact .inl mark
    · exact .inr ⟨pending, mark⟩

theorem Arrives.owed {s s' : Sigchld} (arrives : Arrives s s') (owed : Owed s) : Owed s' :=
  arrives.marks.alert owed

theorem owed_of_drained {r : Reactor} {fd : Fd} {s s' : Sigchld} {t : Trace} (watching : r.signalfd = some fd)
    (run : Exec r.drainSignalfd t (.done ())) (world : Interleaved Arrives (Reads fd.raw) s t s') : Owed s' := by
  have loop : r.drainSignalfd = iterate (drainRound fd) () := by
    rw [drainSignalfd, watching]
  rw [loop] at run
  obtain ⟨rounds, _, last, rfl, -, ending⟩ := exec_iterate_done.mp run
  obtain ⟨t₁, result, t₂, rfl, reading, rest⟩ := exec_bind_done.mp ending
  have last : ∃ u e, rounds ++ (t₁ ++ t₂) = u ++ [e] ∧ ∀ s₁ s₂, Reads fd.raw s₁ e s₂ → s₂.pending = false := by
    cases Fd.exec_readSlice reading with
    | moved k answer =>
      -- a drain that goes on reads again, and one that stops has read less than a whole record
      by_cases short : answer.val.length < SIGINFO_SIZE
      · simp only [short, ↓reduceIte, exec_pure_iff] at rest
        refine ⟨_, _, by rw [rest.1, List.append_nil, ← List.append_assoc], fun s₁ s₂ found => ?_⟩
        cases found with
        | taken pending whole => exact absurd whole (Nat.ne_of_lt short)
      · simp [short, exec_pure_iff] at rest
    | blocked k =>
      refine ⟨_, _, by rw [((exec_pure_iff _ _ _).mp rest).1, List.append_nil, ← List.append_assoc],
        fun s₁ s₂ found => ?_⟩
      cases found with
      | nothing quiet => exact quiet
    | failed k e notInterrupted notBlocked =>
      refine ⟨_, _, by rw [((exec_pure_iff _ _ _).mp rest).1, List.append_nil, ← List.append_assoc],
        fun s₁ s₂ found => ?_⟩
      cases found with
      | nothing quiet => exact absurd rfl notBlocked
      | interrupted => exact absurd rfl notInterrupted
  obtain ⟨u, e, ends, step⟩ := last
  rw [ends] at world
  obtain ⟨s₁, s₂, -, found, later⟩ := world.last
  exact later.keeps (EdgeTriggered.alert_of_not_ready (by simp [step s₁ s₂ found]))
    (fun _ _ arrives => arrives.owed) (by simp)

/-- What becomes of the signal while the client is told of it and drains it. Registering the descriptor reports
    a signal that is pending. -/
inductive Watched (r : Reactor) (fd : Fd) : Sigchld → Prop where
  | registered (pending : Bool) : Watched r fd ⟨pending, pending⟩
  | arrives {s s' : Sigchld} (before : Watched r fd s) (arrives : Arrives s s') : Watched r fd s'
  | drained {s s' : Sigchld} {t : Trace} (before : Watched r fd s) (reported : s.marked = true)
      (run : Exec r.drainSignalfd t (.done ()))
      (world : Interleaved Arrives (Reads fd.raw) { s with marked := false } t s') : Watched r fd s'

/-- A client that drains after each report is never left waiting with a signal pending. -/
theorem sigchld_owed {r : Reactor} {fd : Fd} {s : Sigchld} (watching : r.signalfd = some fd)
    (watched : Watched r fd s) : s.pending = true → s.marked = true := by
  induction watched with
  | registered pending => exact id
  | arrives before arrives ih => exact arrives.owed ih
  | drained before reported run world ih => exact owed_of_drained watching run world

theorem length_siginfo : (List.replicate SIGINFO_SIZE (0 : UInt8)).length ≤ SIGINFO_SIZE :=
  Nat.le_of_eq List.length_replicate

def watchingFive : Reactor :=
  { epfd := 3
    nextToken := 2
    eventsBuf := ⟨[], 64⟩
    signalfd := some ⟨5⟩
    sigchldToken := some ⟨1⟩
    inotifyToken := none }

def oneSiginfo : Trace :=
  [⟨.read 5 SIGINFO_SIZE, .ok ⟨List.replicate SIGINFO_SIZE 0, length_siginfo⟩⟩,
    ⟨.read 5 SIGINFO_SIZE, .error EAGAIN⟩]

theorem second_child_owed : ∃ s, Watched watchingFive ⟨5⟩ s ∧ s.pending = true ∧ s.marked = true := by
  have takes : Exec (drainRound ⟨5⟩ ()) [⟨.read 5 SIGINFO_SIZE, .ok ⟨List.replicate SIGINFO_SIZE 0, length_siginfo⟩⟩]
      (.done (.inl ())) := by
    have answered : Exec (Fd.readSlice ⟨5⟩ SIGINFO_SIZE)
        [⟨.read 5 SIGINFO_SIZE, .ok ⟨List.replicate SIGINFO_SIZE 0, length_siginfo⟩⟩]
        (.done (.ok (some (List.replicate SIGINFO_SIZE 0)))) := .of_replay 2 rfl
    refine .bind_done answered ?_
    have whole : ¬(List.replicate SIGINFO_SIZE (0 : UInt8)).length < SIGINFO_SIZE := by simp
    show Exec (if (List.replicate SIGINFO_SIZE (0 : UInt8)).length < SIGINFO_SIZE then _ else _) _ _
    rw [if_neg whole]
    exact .ret _
  have stops : Exec (drainRound ⟨5⟩ ()) [⟨.read 5 SIGINFO_SIZE, .error EAGAIN⟩] (.done (.inr ())) := .of_replay 2 rfl
  have run : Exec watchingFive.drainSignalfd oneSiginfo (.done ()) := .again takes (.leave stops (.ret _))
  have first : Watched watchingFive ⟨5⟩ ⟨true, true⟩ := .arrives (.registered false) (.sent rfl)
  have taken : Interleaved Arrives (Reads 5) ⟨true, false⟩ ([] ++ [oneSiginfo.head (by simp [oneSiginfo])])
      ⟨false, false⟩ := .step .start (.taken rfl List.length_replicate)
  have world : Interleaved Arrives (Reads 5) ⟨true, false⟩ oneSiginfo ⟨true, true⟩ :=
    .env (.step taken (.nothing rfl)) (.sent rfl)
  have second : Watched watchingFive ⟨5⟩ ⟨true, true⟩ := .drained first rfl run world
  exact ⟨_, second, rfl, sigchld_owed rfl second rfl⟩

end Sigchld

end CoreShift.Reactor
