import Mathlib.Logic.Function.Iterate
import CoreShift.System
import CoreShift.Interaction.Guarded

namespace CoreShift.Shutdown

open Interaction

inductive Disposition (D : Type) where
  | shutdown
  | other (d : D)
  deriving DecidableEq, Repr

/-- `sigaction(2)` and the publication of the flag pointer, for flags named by `A`. -/
inductive Request (D A : Type) where
  | sigaction (sig : Int) (action : Disposition D)
  | store (flag : A)
  deriving DecidableEq

/-- `sigaction` reports the action that it replaces. -/
@[reducible] def Request.Answer {D A : Type} : Request D A → Type
  | .sigaction _ _ => Except Errno (Disposition D)
  | .store _ => Unit

abbrev signals (D A : Type) : Interface := ⟨Request D A, Request.Answer⟩

variable {D A : Type}

abbrev ask (c : Request D A) : Program (signals D A) c.Answer := Program.ask (I := signals D A) c

def lastSigactionError (sig : Int) (code : Errno) : SysError :=
  let op := if sig = SIGINT then "sigaction(SIGINT)" else if sig = SIGTERM then "sigaction(SIGTERM)" else "sigaction"
  .sys code op

def installSignalHandler (sig : Int) : Program (signals D A) (Except SysError (Disposition D)) := do
  let ret ← ask (.sigaction sig .shutdown)
  return ret.mapError (lastSigactionError sig)

def restoreSignalHandler (sig : Int) (oldAction : Disposition D) : Program (signals D A) (Except SysError Unit) := do
  let ret ← ask (.sigaction sig oldAction)
  return (ret.mapError (lastSigactionError sig)).map fun _ => ()

def installShutdownFlag (flag : A) : Program (signals D A) (Except SysError Unit) := do
  match ← installSignalHandler SIGINT with
  | .error e => return .error e
  | .ok oldSigint =>
    match ← installSignalHandler SIGTERM with
    | .ok _ =>
      ask (.store flag)
      return .ok ()
    | .error err =>
      match ← restoreSignalHandler SIGINT oldSigint with
      | .error e => return .error e
      | .ok () => return .error err

def installAll : List A → Program (signals D A) (List (Except SysError Unit))
  | [] => return []
  | flag :: flags => do
    let result ← installShutdownFlag flag
    let results ← installAll flags
    return result :: results

inductive Stage (flag : A) : List (Event (signals D A)) → Outcome (signals D A) (Except SysError Unit) → Prop where
  | begins : Stage flag [] (.waiting (.sigaction SIGINT .shutdown))
  | refused (e : Errno) :
      Stage flag [⟨.sigaction SIGINT .shutdown, .error e⟩] (.done (.error (lastSigactionError SIGINT e)))
  | half (old : Disposition D) :
      Stage flag [⟨.sigaction SIGINT .shutdown, .ok old⟩] (.waiting (.sigaction SIGTERM .shutdown))
  | both (old old' : Disposition D) :
      Stage flag [⟨.sigaction SIGINT .shutdown, .ok old⟩, ⟨.sigaction SIGTERM .shutdown, .ok old'⟩]
        (.waiting (.store flag))
  | installed (old old' : Disposition D) :
      Stage flag [⟨.sigaction SIGINT .shutdown, .ok old⟩, ⟨.sigaction SIGTERM .shutdown, .ok old'⟩, ⟨.store flag, ()⟩]
        (.done (.ok ()))
  | failing (old : Disposition D) (e : Errno) :
      Stage flag [⟨.sigaction SIGINT .shutdown, .ok old⟩, ⟨.sigaction SIGTERM .shutdown, .error e⟩]
        (.waiting (.sigaction SIGINT old))
  | restored (old : Disposition D) (e : Errno) (gone : Disposition D) :
      Stage flag [⟨.sigaction SIGINT .shutdown, .ok old⟩, ⟨.sigaction SIGTERM .shutdown, .error e⟩,
        ⟨.sigaction SIGINT old, .ok gone⟩] (.done (.error (lastSigactionError SIGTERM e)))
  | stuck (old : Disposition D) (e e' : Errno) :
      Stage flag [⟨.sigaction SIGINT .shutdown, .ok old⟩, ⟨.sigaction SIGTERM .shutdown, .error e⟩,
        ⟨.sigaction SIGINT old, .error e'⟩] (.done (.error (lastSigactionError SIGINT e')))

theorem exec_restoreSignalHandler {sig : Int} {action : Disposition D}
    {t : List (Event (signals D A))} {o : Outcome (signals D A) (Except SysError Unit)}
    (run : Exec (restoreSignalHandler sig action) t o) :
    (t = [] ∧ o = .waiting (.sigaction sig action)) ∨ ∃ ret : Except Errno (Disposition D),
      t = [⟨.sigaction sig action, ret⟩] ∧
        o = .done ((ret.mapError (lastSigactionError sig)).map fun _ => ()) := by
  unfold restoreSignalHandler at run
  rcases run.ask_cases with stopped | ⟨ret, t', same, rest⟩
  · exact .inl stopped
  · obtain ⟨none, result⟩ := (exec_pure_iff _ _ _).mp rest
    exact .inr ⟨ret, by rw [same, none], result⟩

theorem exec_installSignalHandler_bind {α : Type} {sig : Int}
    {rest : Except SysError (Disposition D) → Program (signals D A) α}
    {t : List (Event (signals D A))} {o : Outcome (signals D A) α}
    (run : Exec (installSignalHandler sig >>= rest) t o) :
    (t = [] ∧ o = .waiting (.sigaction sig .shutdown)) ∨ ∃ (ret : Except Errno (Disposition D)) (t' : _),
      t = ⟨.sigaction sig .shutdown, ret⟩ :: t' ∧ Exec (rest (ret.mapError (lastSigactionError sig))) t' o := by
  unfold installSignalHandler at run
  rw [bind_assoc] at run
  exact run.ask_cases

theorem exec_installShutdownFlag {flag : A} {t : List (Event (signals D A))}
    {o : Outcome (signals D A) (Except SysError Unit)} (run : Exec (installShutdownFlag flag) t o) :
    Stage flag t o := by
  unfold installShutdownFlag at run
  rcases exec_installSignalHandler_bind run with ⟨rfl, rfl⟩ | ⟨first, t₁, rfl, afterInt⟩
  · exact .begins
  cases first with
  | error e =>
    obtain ⟨rfl, rfl⟩ := (exec_pure_iff _ _ _).mp afterInt
    exact .refused e
  | ok old =>
    rcases exec_installSignalHandler_bind afterInt with ⟨rfl, rfl⟩ | ⟨second, t₂, rfl, afterTerm⟩
    · exact .half old
    cases second with
    | ok old' =>
      rcases Exec.ask_cases afterTerm with ⟨rfl, rfl⟩ | ⟨answer, t₃, rfl, afterStore⟩
      · exact .both old old'
      · obtain ⟨rfl, rfl⟩ := (exec_pure_iff _ _ _).mp afterStore
        exact .installed old old'
    | error e =>
      rcases exec_bind_cases afterTerm with ⟨c, rfl, stopped⟩ | ⟨used, value, t₃, rfl, whole, afterRestore⟩
      · rcases exec_restoreSignalHandler stopped with ⟨rfl, same⟩ | ⟨ret, rfl, impossible⟩
        · cases same
          exact .failing old e
        · cases impossible
      · rcases exec_restoreSignalHandler whole with ⟨_, impossible⟩ | ⟨ret, rfl, same⟩
        · cases impossible
        · cases ret <;> cases same <;> obtain ⟨rfl, rfl⟩ := (exec_pure_iff _ _ _).mp afterRestore
          · exact .stuck old e _
          · exact .restored old e _

end CoreShift.Shutdown
