import CoreShift.System

namespace CoreShift

open Interaction

inductive CancelPolicy where
  | none
  | graceful
  | kill
  deriving DecidableEq, Repr

structure ProcessGroup where
  leader : Option Int
  isolated : Bool
  deriving DecidableEq, Repr

/-- `CString::new`, which refuses bytes with a NUL among them. -/
def CString.new (s : String) : Option CString :=
  let bytes := s.toUTF8.toList
  if free : (0 : UInt8) ∉ bytes then some ⟨bytes, free⟩ else none

/-- A validated execution context. `new` refuses an empty argument vector, so that the access to
    the first argument in the backends is in bounds. -/
structure ExecContext where
  argv : List CString
  envp : Option (List CString)
  cwd : Option CString
  nonempty : argv ≠ []
  deriving DecidableEq

namespace ExecContext

/-- `into_iter().map(CString::new).collect::<Result<_, _>>()`. -/
def collect (op : String) : List String → Except SysError (List CString)
  | [] => .ok []
  | s :: rest =>
    match CString.new s with
    | none => .error (.sys EINVAL op)
    | some c => (collect op rest).map (c :: ·)

theorem collect_nonempty {op : String} {strings : List String} {collected : List CString}
    (success : collect op strings = .ok collected) (present : strings ≠ []) : collected ≠ [] := by
  cases strings with
  | nil => exact absurd rfl present
  | cons s rest =>
    cases validated : CString.new s <;> simp only [collect, validated] at success
    · cases success
    · rename_i c
      cases tail : collect op rest <;> simp only [tail, Except.map] at success
      · cases success
      · cases success
        exact List.cons_ne_nil _ _

def new (argv : List String) (env : Option (List String)) (cwd : Option String) :
    Except SysError ExecContext :=
  if present : argv ≠ [] then
    match success : collect "exec argv contains nul" argv with
    | .error e => .error e
    | .ok cArgv =>
      let cEnvp := match env with
        | some vars => (collect "exec env contains nul" vars).map some
        | none => .ok none
      match cEnvp with
      | .error e => .error e
      | .ok envp =>
        let cCwd : Except SysError (Option CString) := match cwd with
          | some c =>
            match CString.new c with
            | none => .error (.sys EINVAL "exec cwd contains nul")
            | some c => .ok (some c)
          | none => .ok none
        match cCwd with
        | .error e => .error e
        | .ok cwd => .ok { argv := cArgv, envp, cwd, nonempty := collect_nonempty success present }
  else .error (.sys EINVAL "exec argv empty")

/-- `v[0].as_ptr()`. -/
def exePtr (ctx : ExecContext) : CString := ctx.argv.head ctx.nonempty

def pushPtrs (strings : List CString) : List CStrPtr :=
  strings.foldl (fun ptrs s => ptrs ++ [some s]) [] ++ [none]

def getArgvPtrs (ctx : ExecContext) : List CStrPtr := pushPtrs ctx.argv

def getEnvpPtrs (ctx : ExecContext) : Option (List CStrPtr) := ctx.envp.map pushPtrs

end ExecContext

namespace SignalRuntime

def emptySet : List Int := []

def setWith (signals : List Int) : List Int := signals

def unblockAll : Prog (Except SysError Unit) := do
  return syscallRet (← ask (.sigprocmask SIG_SETMASK emptySet)) "sigprocmask"

def resetDefault (sig : Int) : Prog Unit := do
  let _ ← ask (.signalDefault sig)
  return ()

end SignalRuntime

end CoreShift
