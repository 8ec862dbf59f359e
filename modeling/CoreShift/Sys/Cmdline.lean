import CoreShift.Sys.ExecArguments
import CoreShift.Sys.ProcStatus

namespace CoreShift

open Text

/-- What `read_proc_cmdline` makes of the file, when it can be read. -/
def readProcCmdline {ε : Type} (read : Except ε Bytes) : Except ε String := do
  let bytes ← read
  return String.ofList (replace '\x00' ' ' (trimEndMatches '\x00' (Utf8.fromUtf8Lossy bytes).toList))

def cmdlineFile (argv : List Bytes) : Bytes := argv.flatMap (· ++ [0])

theorem cmdlineFile_bytes (args : List String) :
    cmdlineFile (args.map Utf8.bytes) = (ended '\x00' (args.map String.toList)).flatMap String.utf8EncodeChar := by
  induction args with
  | nil => rfl
  | cons s args ih =>
    have terminator : String.utf8EncodeChar '\x00' = [0] := by decide
    have first : cmdlineFile ((s :: args).map Utf8.bytes) =
        (Utf8.bytes s ++ [0]) ++ cmdlineFile (args.map Utf8.bytes) := rfl
    have text : ended '\x00' ((s :: args).map String.toList) =
        (s.toList ++ ['\x00']) ++ ended '\x00' (args.map String.toList) := rfl
    rw [first, text, ih, List.flatMap_append, List.flatMap_append, List.flatMap_singleton, terminator]
    rfl

theorem fromUtf8Lossy_cmdline (args : List String) :
    (Utf8.fromUtf8Lossy (cmdlineFile (args.map Utf8.bytes))).toList = ended '\x00' (args.map String.toList) := by
  rw [cmdlineFile_bytes, Utf8.fromUtf8Lossy, Utf8.lossyChars_encode, String.toList_ofList]

/-- A process that `spawn` began shows the arguments that it was given, with a blank between them; the empty
    ones at the end do not show. -/
theorem cmdline_shows {ε : Type} {args : List String} {env : Option (List String)} {cwd : Option String}
    {ctx : ExecContext} (made : ExecContext.new args env cwd = .ok ctx) :
    ∃ argv, readArray ctx.getArgvPtrs = some argv ∧ readProcCmdline (.ok (cmdlineFile argv) : Except ε Bytes) =
      .ok (String.ofList ([' '].intercalate ((args.map String.toList).rdropWhile (· = [])))) := by
  have given := ExecContext.new_ok_iff.mp ⟨ctx, made⟩
  have free : ∀ part ∈ args.map String.toList, '\x00' ∉ part := by
    intro part member
    obtain ⟨s, here, rfl⟩ := List.mem_map.mp member
    exact given.2.1 s here
  refine ⟨args.map Utf8.bytes, (ExecContext.unaltered made).argv, ?_⟩
  show Except.ok (String.ofList (replace '\x00' ' ' (trimEndMatches '\x00' _))) = _
  rw [fromUtf8Lossy_cmdline, replace_trimEndMatches_ended ' ' free]

theorem nothing_free : (0 : UInt8) ∉ [] := by
  simp

theorem ls_and_nothing : [(⟨[108, 115], ls_no_nul⟩ : CString), ⟨[], nothing_free⟩] ≠ [] := by
  simp

theorem ls_shows : ∃ argv, readArray [some ⟨[108, 115], ls_no_nul⟩, some ⟨[], nothing_free⟩, none] = some argv ∧
    readProcCmdline (.ok (cmdlineFile argv) : Except IoError Bytes) = .ok (String.ofList ['l', 's']) := by
  have ls : CString.new (String.ofList ['l', 's']) = some ⟨[108, 115], ls_no_nul⟩ := by
    refine CString.new_eq_some.mpr ?_
    rw [Utf8.bytes, String.toList_ofList]
    decide
  have nothing : CString.new (String.ofList []) = some ⟨[], nothing_free⟩ := by
    refine CString.new_eq_some.mpr ?_
    rw [Utf8.bytes, String.toList_ofList]
    rfl
  have made : ExecContext.new [String.ofList ['l', 's'], String.ofList []] none none =
      .ok ⟨[⟨[108, 115], ls_no_nul⟩, ⟨[], nothing_free⟩], none, none, ls_and_nothing⟩ := by
    refine ExecContext.new_eq_ok.mpr ⟨ExecContext.collect_eq_ok.mpr ?_, rfl, rfl⟩
    rw [List.map_cons, List.map_cons, List.map_nil, ls, nothing]
    rfl
  obtain ⟨argv, read, shown⟩ := @cmdline_shows IoError _ _ _ _ made
  refine ⟨argv, read, ?_⟩
  rw [shown, List.map_cons, List.map_cons, List.map_nil, String.toList_ofList, String.toList_ofList]
  rfl

end CoreShift
