import CoreShift.Interaction.Guarded
import CoreShift.System

namespace CoreShift

open Interaction

def deliveredBy (fd : Nat) : Event os → Bytes
  | ⟨.read fd' _, .ok data⟩ => if fd' = fd then data.val else []
  | _ => []

def delivered (fd : Nat) (t : Trace) : Bytes := t.flatMap (deliveredBy fd)

@[simp] theorem delivered_nil (fd : Nat) : delivered fd [] = [] := rfl

@[simp] theorem delivered_cons (fd : Nat) (e : Event os) (t : Trace) :
    delivered fd (e :: t) = deliveredBy fd e ++ delivered fd t := List.flatMap_cons ..

@[simp] theorem delivered_append (fd : Nat) (t t' : Trace) :
    delivered fd (t ++ t') = delivered fd t ++ delivered fd t' := List.flatMap_append ..

theorem delivered_of_forall {fd : Nat} {t : Trace} (quiet : ∀ e ∈ t, deliveredBy fd e = []) :
    delivered fd t = [] := List.flatMap_eq_nil_iff.mpr quiet

@[simp] theorem delivered_replicate (fd fd' count k : Nat) (e : Errno) :
    delivered fd (List.replicate k ⟨.read fd' count, .error e⟩) = [] := by
  refine delivered_of_forall fun event member => ?_
  rw [List.eq_of_mem_replicate member]
  rfl

def acceptedBy (fd : Nat) : Event os → Bytes
  | ⟨.write fd' bytes, .ok n⟩ => if fd' = fd then bytes.take n.val else []
  | _ => []

def accepted (fd : Nat) (t : Trace) : Bytes := t.flatMap (acceptedBy fd)

@[simp] theorem accepted_nil (fd : Nat) : accepted fd [] = [] := rfl

@[simp] theorem accepted_cons (fd : Nat) (e : Event os) (t : Trace) :
    accepted fd (e :: t) = acceptedBy fd e ++ accepted fd t := List.flatMap_cons ..

@[simp] theorem accepted_append (fd : Nat) (t t' : Trace) :
    accepted fd (t ++ t') = accepted fd t ++ accepted fd t' := List.flatMap_append ..

theorem accepted_of_forall {fd : Nat} {t : Trace} (quiet : ∀ e ∈ t, acceptedBy fd e = []) :
    accepted fd t = [] := List.flatMap_eq_nil_iff.mpr quiet

@[simp] theorem accepted_replicate (fd fd' k : Nat) (bytes : Bytes) (e : Errno) :
    accepted fd (List.replicate k ⟨.write fd' bytes, .error e⟩) = [] := by
  refine accepted_of_forall fun event member => ?_
  rw [List.eq_of_mem_replicate member]
  rfl

/-- A read that asked for something was answered with nothing. -/
def SawEof (fd : Nat) (t : Trace) : Prop :=
  ∃ count, 0 < count ∧ (⟨.read fd count, .ok ⟨[], Nat.zero_le _⟩⟩ : Event os) ∈ t

def StopAsked (t : Trace) : Prop := ∃ slice, (⟨.earlyExit slice, true⟩ : Event os) ∈ t

/-- A write reported that nobody reads any more, or took nothing. -/
def WriteEnded (fd : Nat) (t : Trace) : Prop :=
  ∃ bytes, bytes ≠ [] ∧
    ((⟨.write fd bytes, .error EPIPE⟩ : Event os) ∈ t ∨
      (⟨.write fd bytes, .ok ⟨0, Nat.zero_le _⟩⟩ : Event os) ∈ t)

theorem SawEof.mono {fd : Nat} {t t' : Trace} (seen : SawEof fd t) (sub : t ⊆ t') : SawEof fd t' :=
  seen.imp fun _ here => ⟨here.1, sub here.2⟩

theorem StopAsked.mono {t t' : Trace} (asked : StopAsked t) (sub : t ⊆ t') : StopAsked t' :=
  asked.imp fun _ here => sub here

theorem WriteEnded.mono {fd : Nat} {t t' : Trace} (ended : WriteEnded fd t) (sub : t ⊆ t') :
    WriteEnded fd t' :=
  ended.imp fun _ here => ⟨here.1, here.2.imp (sub ·) (sub ·)⟩

def statusBy (pid : Int) : Event os → List UInt32
  | ⟨.waitpidNoHang pid', .ok (some status)⟩ => if pid' = pid then [status] else []
  | ⟨.waitpid pid', .ok status⟩ => if pid' = pid then [status] else []
  | _ => []

def statuses (pid : Int) (t : Trace) : List UInt32 := t.flatMap (statusBy pid)

@[simp] theorem statuses_nil (pid : Int) : statuses pid [] = [] := rfl

@[simp] theorem statuses_cons (pid : Int) (e : Event os) (t : Trace) :
    statuses pid (e :: t) = statusBy pid e ++ statuses pid t := List.flatMap_cons ..

@[simp] theorem statuses_append (pid : Int) (t t' : Trace) :
    statuses pid (t ++ t') = statuses pid t ++ statuses pid t' := List.flatMap_append ..

theorem statuses_of_forall {pid : Int} {t : Trace} (quiet : ∀ e ∈ t, statusBy pid e = []) :
    statuses pid t = [] := List.flatMap_eq_nil_iff.mpr quiet

def readingBy : Event os → List Nat
  | ⟨.instantNow, now⟩ => [now]
  | _ => []

def readings (t : Trace) : List Nat := t.flatMap readingBy

@[simp] theorem readings_nil : readings [] = [] := rfl

@[simp] theorem readings_cons (e : Event os) (t : Trace) : readings (e :: t) = readingBy e ++ readings t :=
  List.flatMap_cons ..

@[simp] theorem readings_append (t t' : Trace) : readings (t ++ t') = readings t ++ readings t' :=
  List.flatMap_append ..

theorem readings_of_forall {t : Trace} (quiet : ∀ e ∈ t, e.call ≠ .instantNow) : readings t = [] := by
  apply List.flatMap_eq_nil_iff.mpr
  intro e member
  have silent := quiet e member
  obtain ⟨call, answer⟩ := e
  cases call
  case instantNow => exact absurd rfl silent
  all_goals rfl

theorem readings_of_issues {α : Type} {p : Prog α} {t : Trace} {o} (quiet : p.Issues (· ≠ Call.instantNow))
    (run : Exec p t o) : readings t = [] := readings_of_forall (run.issues quiet).1

def signalBy : Event os → List (Int × Int)
  | ⟨.kill target sig, _⟩ => [(target, sig)]
  | _ => []

def signals (t : Trace) : List (Int × Int) := t.flatMap signalBy

@[simp] theorem signals_nil : signals [] = [] := rfl

@[simp] theorem signals_cons (e : Event os) (t : Trace) : signals (e :: t) = signalBy e ++ signals t :=
  List.flatMap_cons ..

@[simp] theorem signals_append (t t' : Trace) : signals (t ++ t') = signals t ++ signals t' :=
  List.flatMap_append ..

def signalOf : Call → List (Int × Int)
  | .kill target sig => [(target, sig)]
  | _ => []

/-- The signals that a run has issued, the one included whose answer it waits for. -/
def issued {α : Type} (t : Trace) (o : Outcome os α) : List (Int × Int) :=
  signals t ++ o.pending.toList.flatMap signalOf

theorem signals_of_forall {t : Trace} (quiet : ∀ e ∈ t, signalOf e.call = []) : signals t = [] := by
  apply List.flatMap_eq_nil_iff.mpr
  intro e member
  have silent := quiet e member
  obtain ⟨call, answer⟩ := e
  cases call
  case kill => cases silent
  all_goals rfl

theorem issued_append {α : Type} (t t' : Trace) (o : Outcome os α) :
    issued (t ++ t') o = signals t ++ issued t' o := by
  rw [issued, issued, signals_append, List.append_assoc]

theorem issued_done {α : Type} (t : Trace) (value : α) : issued t (.done value) = signals t :=
  List.append_nil _

theorem signals_of_issues {α : Type} {p : Prog α} {t : Trace} {o} (quiet : p.Issues (signalOf · = []))
    (run : Exec p t o) : signals t = [] := signals_of_forall (run.issues quiet).1

theorem issued_of_issues {α : Type} {p : Prog α} {t : Trace} {o} (quiet : p.Issues (signalOf · = []))
    (run : Exec p t o) : issued t o = [] := by
  have calls := run.issues quiet
  have answered := signals_of_issues quiet run
  have waits : o.pending.toList.flatMap signalOf = [] := by
    cases o with
    | done value => rfl
    | waiting c => simp [Outcome.pending, calls.2 c rfl]
  rw [issued, answered, waits]
  rfl

/-- Whether a descriptor is in an interest list after an exchange. It leaves the list when it is
    removed, and when it is closed. -/
def registeredBy (epfd fd : Nat) (before : Bool) : Event os → Bool
  | ⟨.epollCtlAdd epfd' fd' _ _, .ok ()⟩ => before || (epfd' = epfd && fd' = fd)
  | ⟨.epollCtlDel epfd' fd', .ok ()⟩ => before && !(epfd' = epfd && fd' = fd)
  | ⟨.close fd', _⟩ => before && fd' != fd
  | _ => before

def registered (epfd fd : Nat) (before : Bool) (t : Trace) : Bool := t.foldl (registeredBy epfd fd) before

end CoreShift
