import CoreShift.Sys
import CoreShift.Wire.Sentinel
import CoreShift.Wire.Utf8

namespace CoreShift

theorem toList_loop (array : ByteArray) (start : Nat) (collected : Bytes) :
    ByteArray.toList.loop array start collected = collected.reverse ++ array.data.toList.drop start := by
  unfold ByteArray.toList.loop
  by_cases inside : start < array.size
  · have next := toList_loop array (start + 1) (array.get! start :: collected)
    have here : array.get! start :: array.data.toList.drop (start + 1) = array.data.toList.drop start := by
      rw [List.drop_eq_getElem_cons (show start < array.data.toList.length from inside)]
      have read : array.get! start = array.data[start] := getElem!_pos array.data start inside
      rw [read]
      rfl
    rw [if_pos inside, next, List.reverse_cons, List.append_assoc, List.singleton_append, here]
  · have beyond : array.data.toList.drop start = [] := List.drop_eq_nil_of_le (Nat.le_of_not_lt inside)
    rw [if_neg inside, beyond, List.append_nil]
termination_by array.size - start

theorem toUTF8_toList (s : String) : s.toUTF8.toList = Utf8.bytes s := by
  have whole : s.toByteArray.toList = s.toByteArray.data.toList := toList_loop s.toByteArray 0 []
  rw [String.toUTF8_eq_toByteArray, whole, ← String.utf8Encode_toList]
  exact List.toList_data_toByteArray

def NoNul (s : String) : Prop := '\x00' ∉ s.toList

theorem zero_notMem_bytes_iff (s : String) : (0 : UInt8) ∉ Utf8.bytes s ↔ NoNul s := by
  refine ⟨fun free member => free ?_, Utf8.zero_notMem_bytes⟩
  exact List.mem_flatMap.mpr ⟨'\x00', member, by decide⟩

theorem CString.new_eq_some {s : String} {c : CString} : CString.new s = some c ↔ c.val = Utf8.bytes s := by
  simp only [CString.new, toUTF8_toList]
  constructor
  · intro made
    split at made
    · cases made
      rfl
    · cases made
  · intro same
    have free : (0 : UInt8) ∉ Utf8.bytes s := same ▸ c.property
    simp only [dif_pos free]
    exact congrArg some (Subtype.ext same.symm)

theorem CString.new_isSome_iff {s : String} : (∃ c, CString.new s = some c) ↔ NoNul s := by
  rw [← zero_notMem_bytes_iff]
  constructor
  · intro made
    obtain ⟨c, made⟩ := made
    exact CString.new_eq_some.mp made ▸ c.property
  · intro free
    exact ⟨⟨_, free⟩, CString.new_eq_some.mpr rfl⟩

/-- What a `CString` owns, with the terminator behind it. -/
def CString.storage (c : CString) : Bytes := c.val ++ [0]

/-- The kernel's reading of a string, up to its first NUL. -/
def readString (storage : Bytes) : Option Bytes := Sentinel.upTo (· = 0) storage

/-- The kernel's reading of an array of pointers, up to the first null, and of the strings that they
    point to. -/
def readArray (ptrs : List CStrPtr) : Option (List Bytes) :=
  (Sentinel.upTo Option.isNone ptrs).bind (List.mapM fun ptr => ptr.bind fun c => readString c.storage)

theorem readString_storage (c : CString) : readString c.storage = some c.val := by
  refine Sentinel.upTo_append (fun b member => ?_) rfl
  have other : b ≠ 0 := fun zero => c.property (zero ▸ member)
  exact decide_eq_false other

namespace ExecContext

theorem pushPtrs_eq (strings : List CString) : pushPtrs strings = strings.map some ++ [none] := by
  have pushed : ∀ ptrs : List CStrPtr,
      strings.foldl (fun ptrs s => ptrs ++ [some s]) ptrs = ptrs ++ strings.map some := by
    induction strings with
    | nil =>
      intro ptrs
      rw [List.foldl_nil, List.map_nil, List.append_nil]
    | cons s strings ih =>
      intro ptrs
      rw [List.foldl_cons, ih, List.map_cons, List.append_assoc, List.singleton_append]
  rw [pushPtrs, pushed, List.nil_append]

theorem readStrings (strings : List CString) :
    (strings.map some).mapM (fun ptr : CStrPtr => ptr.bind fun c => readString c.storage) =
      some (strings.map Subtype.val) := by
  induction strings with
  | nil => rfl
  | cons c strings ih =>
    have here : (some c : CStrPtr).bind (fun c => readString c.storage) = some c.val := readString_storage c
    rw [List.map_cons, List.mapM_cons, here, ih]
    rfl

theorem readArray_pushPtrs (strings : List CString) :
    readArray (pushPtrs strings) = some (strings.map Subtype.val) := by
  have entries : Sentinel.upTo Option.isNone (pushPtrs strings) = some (strings.map some) := by
    rw [pushPtrs_eq]
    refine Sentinel.upTo_append (fun ptr member => ?_) rfl
    obtain ⟨c, _, rfl⟩ := List.mem_map.mp member
    rfl
  rw [readArray, entries, Option.bind_some]
  exact readStrings strings

theorem collect_eq_ok {op : String} {strings : List String} {collected : List CString} :
    collect op strings = .ok collected ↔ strings.map CString.new = collected.map some := by
  induction strings generalizing collected with
  | nil => cases collected <;> simp [collect]
  | cons s strings ih =>
    cases made : CString.new s with
    | none =>
      simp only [collect, made, List.map_cons]
      cases collected <;> simp
    | some c =>
      simp only [collect, made, List.map_cons]
      cases tail : collect op strings with
      | error e =>
        cases collected with
        | nil => simp [Except.map]
        | cons c' rest =>
          have refused : strings.map CString.new ≠ rest.map some := by
            intro same
            rw [ih.mpr same] at tail
            cases tail
          simp [Except.map, refused]
      | ok rest =>
        have same := ih.mp tail
        rw [same]
        cases collected with
        | nil => simp [Except.map]
        | cons c' rest' =>
          have injective : rest.map some = rest'.map some ↔ rest = rest' :=
            List.map_inj_right fun _ _ => Option.some.inj
          simp [Except.map, injective]

theorem collected_iff {op : String} {strings : List String} :
    (∃ collected, collect op strings = .ok collected) ↔ ∀ s ∈ strings, NoNul s := by
  induction strings with
  | nil => simp [collect]
  | cons s strings ih =>
    rw [List.forall_mem_cons, ← ih, ← CString.new_isSome_iff]
    constructor
    · intro made
      obtain ⟨collected, made⟩ := made
      have all := collect_eq_ok.mp made
      cases collected with
      | nil => cases all
      | cons c collected =>
        obtain ⟨first, rest⟩ := List.cons_eq_cons.mp all
        exact ⟨⟨c, first⟩, collected, collect_eq_ok.mpr rest⟩
    · intro made
      obtain ⟨⟨c, first⟩, collected, rest⟩ := made
      refine ⟨c :: collected, collect_eq_ok.mpr ?_⟩
      rw [List.map_cons, List.map_cons, first, collect_eq_ok.mp rest]

theorem collected_bytes {op : String} {strings : List String} {collected : List CString}
    (made : collect op strings = .ok collected) : collected.map Subtype.val = strings.map Utf8.bytes := by
  have all := collect_eq_ok.mp made
  clear made
  induction strings generalizing collected with
  | nil =>
    rw [List.map_eq_nil_iff.mp all.symm]
    rfl
  | cons s strings ih =>
    cases collected with
    | nil => cases all
    | cons c collected =>
      obtain ⟨first, rest⟩ := List.cons_eq_cons.mp all
      rw [List.map_cons, List.map_cons, CString.new_eq_some.mp first, ih rest]

section
variable {argv : List String} {env : Option (List String)} {cwd : Option String} {ctx : ExecContext}

theorem checks_of_new (made : new argv env cwd = .ok ctx) :
    collect "exec argv contains nul" argv = .ok ctx.argv ∧
      env.map (collect "exec env contains nul") = ctx.envp.map .ok ∧ cwd.map CString.new = ctx.cwd.map some := by
  unfold new at made
  split at made
  · split at made
    · cases made
    · rename_i cArgv success
      dsimp only at made
      split at made
      · cases made
      · rename_i envp vars
        split at made
        · cases made
        · rename_i dir there
          cases made
          refine ⟨success, ?_, ?_⟩
          · cases env with
            | none =>
              cases vars
              rfl
            | some given =>
              cases collected : collect "exec env contains nul" given <;> simp only [collected] at vars
              · cases vars
              · cases vars
                simp [collected]
          · cases cwd with
            | none =>
              cases there
              rfl
            | some given =>
              cases validated : CString.new given <;> simp only [validated] at there
              · cases there
              · cases there
                simp [validated]
  · cases made

theorem new_of_checks (args : collect "exec argv contains nul" argv = .ok ctx.argv)
    (vars : env.map (collect "exec env contains nul") = ctx.envp.map .ok)
    (there : cwd.map CString.new = ctx.cwd.map some) : new argv env cwd = .ok ctx := by
  unfold new
  obtain ⟨argv', envp, dir, nonempty⟩ := ctx
  have present : argv ≠ [] := by
    intro none
    rw [none] at args
    exact nonempty (Except.ok.inj args).symm
  rw [dif_pos present]
  split
  · rename_i e failed
    rw [args] at failed
    cases failed
  · rename_i cArgv success
    have same : cArgv = argv' := Except.ok.inj (success.symm.trans args)
    subst same
    have given : (env = none ∧ envp = none) ∨ ∃ vars strings, env = some vars ∧ envp = some strings ∧
        collect "exec env contains nul" vars = .ok strings := by
      cases env with
      | none => exact .inl ⟨rfl, Option.map_eq_none_iff.mp vars.symm⟩
      | some vars' =>
        obtain ⟨strings, same, ok⟩ := Option.map_eq_some_iff.mp vars.symm
        exact .inr ⟨vars', strings, rfl, same, ok.symm⟩
    have directory : (cwd = none ∧ dir = none) ∨ ∃ text c, cwd = some text ∧ dir = some c ∧
        CString.new text = some c := by
      cases cwd with
      | none => exact .inl ⟨rfl, Option.map_eq_none_iff.mp there.symm⟩
      | some text =>
        obtain ⟨c, same, ok⟩ := Option.map_eq_some_iff.mp there.symm
        exact .inr ⟨text, c, rfl, same, ok.symm⟩
    rcases given with ⟨rfl, rfl⟩ | ⟨vars', strings, rfl, rfl, collected⟩ <;>
      rcases directory with ⟨rfl, rfl⟩ | ⟨text, c, rfl, rfl, validated⟩
    · rfl
    · simp only [validated]
    · simp only [collected, Except.map]
    · simp only [collected, validated, Except.map]

theorem new_eq_ok :
    new argv env cwd = .ok ctx ↔
      collect "exec argv contains nul" argv = .ok ctx.argv ∧
        env.map (collect "exec env contains nul") = ctx.envp.map .ok ∧ cwd.map CString.new = ctx.cwd.map some :=
  ⟨checks_of_new, fun checks => new_of_checks checks.1 checks.2.1 checks.2.2⟩

end

theorem new_ok_iff {argv : List String} {env : Option (List String)} {cwd : Option String} :
    (∃ ctx, new argv env cwd = .ok ctx) ↔ argv ≠ [] ∧ (∀ s ∈ argv, NoNul s) ∧
      (∀ vars, env = some vars → ∀ s ∈ vars, NoNul s) ∧ ∀ dir, cwd = some dir → NoNul dir := by
  constructor
  · intro made
    obtain ⟨ctx, made⟩ := made
    obtain ⟨args, vars, dir⟩ := new_eq_ok.mp made
    refine ⟨fun none => ?_, collected_iff.mp ⟨_, args⟩, fun given present => ?_, fun given present => ?_⟩
    · rw [none] at args
      exact ctx.nonempty (Except.ok.inj args).symm
    · subst present
      obtain ⟨strings, _, same⟩ := Option.map_eq_some_iff.mp vars.symm
      exact collected_iff.mp ⟨strings, same.symm⟩
    · subst present
      obtain ⟨c, _, same⟩ := Option.map_eq_some_iff.mp dir.symm
      exact CString.new_isSome_iff.mp ⟨c, same.symm⟩
  · intro valid
    obtain ⟨present, args, vars, dir⟩ := valid
    obtain ⟨cArgv, args⟩ := collected_iff.mpr args
    have envp : ∃ cEnvp : Option (List CString), env.map (collect "exec env contains nul") = cEnvp.map .ok := by
      cases env with
      | none => exact ⟨none, rfl⟩
      | some given =>
        obtain ⟨strings, made⟩ := collected_iff.mpr (vars given rfl)
        exact ⟨some strings, congrArg some made⟩
    have chdir : ∃ cCwd : Option CString, cwd.map CString.new = cCwd.map some := by
      cases cwd with
      | none => exact ⟨none, rfl⟩
      | some given =>
        obtain ⟨c, made⟩ := CString.new_isSome_iff.mpr (dir given rfl)
        exact ⟨some c, congrArg some made⟩
    obtain ⟨cEnvp, envp⟩ := envp
    obtain ⟨cCwd, chdir⟩ := chdir
    exact ⟨⟨cArgv, cEnvp, cCwd, collect_nonempty args present⟩, new_eq_ok.mpr ⟨args, envp, chdir⟩⟩

/-- What `execve` and `chdir` read is what `new` was given: every string whole, in order and no other,
    and no array of variables where none was given. -/
structure Unaltered (ctx : ExecContext) (argv : List String) (env : Option (List String)) (cwd : Option String) :
    Prop where
  argv : readArray ctx.getArgvPtrs = some (argv.map Utf8.bytes)
  envp : ctx.getEnvpPtrs.map readArray = env.map fun vars => some (vars.map Utf8.bytes)
  cwd : (ctx.cwd.map fun dir => readString dir.storage) = cwd.map fun dir => some (Utf8.bytes dir)
  first : ctx.argv[0]? = some ctx.exePtr

theorem unaltered {argv : List String} {env : Option (List String)} {cwd : Option String} {ctx : ExecContext}
    (made : new argv env cwd = .ok ctx) : Unaltered ctx argv env cwd := by
  obtain ⟨args, vars, dir⟩ := new_eq_ok.mp made
  refine ⟨?_, ?_, ?_, ?_⟩
  · rw [getArgvPtrs, readArray_pushPtrs, collected_bytes args]
  · rw [getEnvpPtrs]
    cases env with
    | none =>
      rw [Option.map_eq_none_iff.mp vars.symm]
      rfl
    | some given =>
      obtain ⟨strings, same, collected⟩ := Option.map_eq_some_iff.mp vars.symm
      rw [same, Option.map_some, Option.map_some, readArray_pushPtrs, collected_bytes collected.symm]
      rfl
  · cases cwd with
    | none =>
      rw [Option.map_eq_none_iff.mp dir.symm]
      rfl
    | some given =>
      obtain ⟨c, same, validated⟩ := Option.map_eq_some_iff.mp dir.symm
      rw [same, Option.map_some, readString_storage, CString.new_eq_some.mp validated.symm]
      rfl
  · rw [exePtr, ← List.head?_eq_getElem?, List.head?_eq_some_head]

/-- `new` accepts exactly the arguments that can be passed on, and they are passed on unaltered. -/
theorem exec_arguments_unaltered (argv : List String) (env : Option (List String)) (cwd : Option String) :
    ((∃ ctx, new argv env cwd = .ok ctx) ↔ argv ≠ [] ∧ (∀ s ∈ argv, NoNul s) ∧
      (∀ vars, env = some vars → ∀ s ∈ vars, NoNul s) ∧ ∀ dir, cwd = some dir → NoNul dir) ∧
    ∀ ctx, new argv env cwd = .ok ctx → Unaltered ctx argv env cwd :=
  ⟨new_ok_iff, fun _ => unaltered⟩

def listing : List String := [String.ofList ['l', 's'], String.ofList []]

theorem listing_unaltered : ∃ ctx, new listing (some []) none = .ok ctx ∧ Unaltered ctx listing (some []) none := by
  have valid : ∃ ctx, new listing (some []) none = .ok ctx := by
    refine (exec_arguments_unaltered listing (some []) none).1.mpr ⟨List.cons_ne_nil _ _, ?_, ?_, ?_⟩
    · intro s member
      have texts : s = String.ofList ['l', 's'] ∨ s = String.ofList [] := by simpa [listing] using member
      unfold NoNul
      rcases texts with rfl | rfl
      · rw [String.toList_ofList]
        decide
      · rw [String.toList_ofList]
        decide
    · intro vars same s member
      cases same
      cases member
    · intro dir none
      cases none
  obtain ⟨ctx, made⟩ := valid
  exact ⟨ctx, made, (exec_arguments_unaltered listing (some []) none).2 ctx made⟩

end ExecContext

theorem ls_no_nul : (0 : UInt8) ∉ [108, 115] := by
  decide

end CoreShift
