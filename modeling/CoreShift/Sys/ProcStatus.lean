import CoreShift.Wire.Text

namespace CoreShift

open Text

/-- The `std::io::Error` of a status file that cannot be parsed. -/
inductive IoError where
  | invalidData (message : String)
  deriving DecidableEq, Repr

structure ProcStatus where
  name : String
  uid : UInt32
  deriving DecidableEq, Repr

namespace ProcStatus

def nameTag : List Char := ['N', 'a', 'm', 'e', ':']

def uidTag : List Char := ['U', 'i', 'd', ':']

def trimmed (rest : List Char) : String := String.ofList (trim rest)

def firstUid (rest : List Char) : Option UInt32 := (splitWhitespace rest).head?.bind parseU32

/-- What one line does to `name` and `uid`. -/
def readLine (line : List Char) : Option String × Option UInt32 → Option String × Option UInt32
  | (name, uid) =>
    match stripPrefix nameTag line with
    | some rest => (some (trimmed rest), uid)
    | none =>
      match stripPrefix uidTag line with
      | some rest => (name, firstUid rest)
      | none => (name, uid)

def readLines : List (List Char) → Option String × Option UInt32 → Option String × Option UInt32
  | [], found => found
  | line :: rest, found =>
    let found := readLine line found
    if found.1.isSome ∧ found.2.isSome then found else readLines rest found

def parseProcStatus (content : String) : Except IoError ProcStatus :=
  match readLines (lines content.toList) (none, none) with
  | (some name, some uid) => .ok { name, uid }
  | _ => .error (.invalidData "proc status missing Name or Uid")

def hasTag (tag line : List Char) : Bool := (stripPrefix tag line).isSome

theorem hasTag_iff {tag line : List Char} : hasTag tag line = true ↔ ∃ rest, line = tag ++ rest := by
  unfold hasTag
  rw [Option.isSome_iff_exists]
  simp only [stripPrefix_eq_some]

theorem readLine_snoc (line : List Char) : readLine (line ++ ['\r']) = readLine line := by
  funext ⟨name, uid⟩
  have named : stripPrefix nameTag (line ++ ['\r']) = _ := stripPrefix_snoc (by decide) line
  have owned : stripPrefix uidTag (line ++ ['\r']) = _ := stripPrefix_snoc (by decide) line
  have trims : ∀ rest, trimmed (rest ++ ['\r']) = trimmed rest :=
    fun rest => congrArg String.ofList (trim_snoc (by decide) rest)
  have splits : ∀ rest, firstUid (rest ++ ['\r']) = firstUid rest := by
    intro rest
    rw [firstUid, splitWhitespace_snoc (by decide)]
    rfl
  unfold readLine
  rw [named, owned]
  cases stripPrefix nameTag line with
  | some rest =>
    show (some (trimmed (rest ++ ['\r'])), uid) = _
    rw [trims]
  | none =>
    cases stripPrefix uidTag line with
    | some rest =>
      show (name, firstUid (rest ++ ['\r'])) = _
      rw [splits]
    | none => rfl

theorem readLine_chomp (line : List Char) (ending : Ending) :
    readLine (chomp (line ++ ending.text)) = readLine line := by
  rcases chomp_line line ending with same | longer
  · rw [same]
  · rw [← readLine_snoc, ← longer]

theorem readLines_chomp (content : List (List Char × Ending)) (found : Option String × Option UInt32) :
    readLines (content.map fun line => chomp (line.1 ++ line.2.text)) found = readLines (content.map (·.1)) found := by
  induction content generalizing found with
  | nil => rfl
  | cons line content ih =>
    rw [List.map_cons, List.map_cons, readLines, readLines, readLine_chomp]
    simp only [ih]

def tagged (tag : List Char) (lines : List (List Char)) : Option (List Char) := lines.findSome? (stripPrefix tag)

def nameIn (lines : List (List Char)) : Option String := (tagged nameTag lines).map trimmed

def uidIn (lines : List (List Char)) : Option UInt32 := (tagged uidTag lines).bind firstUid

section
variable {tag line rest : List Char} {lines : List (List Char)}

theorem tagged_cons : tagged tag (line :: lines) = (stripPrefix tag line).or (tagged tag lines) := by
  unfold tagged
  rw [List.findSome?_cons]
  cases stripPrefix tag line <;> rfl

theorem tagged_of_countP (absent : lines.countP (hasTag tag) = 0) : tagged tag lines = none := by
  unfold tagged
  rw [List.findSome?_eq_none_iff]
  intro line member
  have untagged := List.countP_eq_zero.mp absent line member
  unfold hasTag at untagged
  simpa using untagged

theorem countP_tagged (here : stripPrefix tag line = some rest) :
    (line :: lines).countP (hasTag tag) = lines.countP (hasTag tag) + 1 :=
  List.countP_cons_of_pos (by simp [hasTag, here])

theorem countP_untagged (absent : stripPrefix tag line = none) :
    (line :: lines).countP (hasTag tag) = lines.countP (hasTag tag) :=
  List.countP_cons_of_neg (by simp [hasTag, absent])

theorem uidTag_of_nameTag (named : stripPrefix nameTag line = some rest) : stripPrefix uidTag line = none := by
  rw [stripPrefix_eq_some] at named
  rw [named]
  rfl

/-- Where the lines that are still to come have at most one of each tag, and none of a tag that has been
    found, what is found in the end does not depend on their order. -/
structure Once (lines : List (List Char)) (found : Option String × Option UInt32) : Prop where
  name : lines.countP (hasTag nameTag) ≤ 1
  uid : lines.countP (hasTag uidTag) ≤ 1
  named : found.1.isSome = true → lines.countP (hasTag nameTag) = 0
  owned : found.2.isSome = true → lines.countP (hasTag uidTag) = 0

theorem Once.cons {found : Option String × Option UInt32} (once : Once (line :: lines) found) :
    Once lines (readLine line found) ∧
      ((readLine line found).1.or (nameIn lines), (readLine line found).2.or (uidIn lines)) =
        (found.1.or (nameIn (line :: lines)), found.2.or (uidIn (line :: lines))) := by
  obtain ⟨name, uid⟩ := found
  obtain ⟨oneName, oneUid, named, owned⟩ := once
  dsimp only at named owned
  unfold nameIn uidIn
  rw [tagged_cons, tagged_cons]
  cases here : stripPrefix nameTag line with
  | some rest =>
    have other := uidTag_of_nameTag here
    have read : readLine line (name, uid) = (some (trimmed rest), uid) := by simp only [readLine, here]
    rw [countP_tagged here] at oneName named
    rw [countP_untagged other] at oneUid owned
    have unnamed : name = none := by
      cases name with
      | none => rfl
      | some n => exact absurd (named rfl) (Nat.succ_ne_zero _)
    rw [read, unnamed, other]
    exact ⟨⟨by omega, oneUid, fun _ => by omega, owned⟩, rfl⟩
  | none =>
    rw [countP_untagged here] at oneName named
    cases there : stripPrefix uidTag line with
    | some rest =>
      have read : readLine line (name, uid) = (name, firstUid rest) := by simp only [readLine, here, there]
      rw [countP_tagged there] at oneUid owned
      have unowned : uid = none := by
        cases uid with
        | none => rfl
        | some u => exact absurd (owned rfl) (Nat.succ_ne_zero _)
      have last : tagged uidTag lines = none := tagged_of_countP (by omega)
      rw [read, unowned, last]
      refine ⟨⟨oneName, by omega, named, fun _ => by omega⟩, ?_⟩
      simp
    | none =>
      have read : readLine line (name, uid) = (name, uid) := by simp only [readLine, here, there]
      rw [countP_untagged there] at oneUid owned
      rw [read]
      exact ⟨⟨oneName, oneUid, named, owned⟩, rfl⟩

theorem readLines_eq {found : Option String × Option UInt32} (once : Once lines found) :
    readLines lines found = (found.1.or (nameIn lines), found.2.or (uidIn lines)) := by
  induction lines generalizing found with
  | nil =>
    show found = (found.1.or none, found.2.or none)
    rw [Option.or_none, Option.or_none]
  | cons line lines ih =>
    obtain ⟨later, same⟩ := once.cons
    rw [← same, readLines]
    by_cases both : (readLine line found).1.isSome ∧ (readLine line found).2.isSome
    · rw [if_pos both, Option.or_of_isSome both.1, Option.or_of_isSome both.2]
    · rw [if_neg both, ih later]

theorem tagged_eq_some (once : lines.countP (hasTag tag) ≤ 1) : tagged tag lines = some rest ↔ tag ++ rest ∈ lines := by
  induction lines with
  | nil => simp [tagged]
  | cons line lines ih =>
    rw [tagged_cons, List.mem_cons]
    cases here : stripPrefix tag line with
    | some rest' =>
      rw [countP_tagged here] at once
      have alone : tag ++ rest ∉ lines := by
        intro member
        have absent := List.countP_eq_zero.mp (Nat.le_zero.mp (Nat.le_of_succ_le_succ once)) _ member
        exact absent (hasTag_iff.mpr ⟨rest, rfl⟩)
      rw [stripPrefix_eq_some] at here
      rw [here, Option.some_or]
      simp [alone, eq_comm]
    | none =>
      rw [countP_untagged here] at once
      have different : tag ++ rest ≠ line := by
        intro same
        rw [stripPrefix_eq_some.mpr same.symm] at here
        cases here
      rw [Option.none_or, ih once]
      simp [different]

end

theorem once_start {lines : List (List Char)} (oneName : lines.countP (hasTag nameTag) ≤ 1)
    (oneUid : lines.countP (hasTag uidTag) ≤ 1) : Once lines (none, none) where
  name := oneName
  uid := oneUid
  named found := by cases found
  owned found := by cases found

def statusText (content : List (List Char × Ending)) : String := String.ofList (textOf content)

theorem parseProcStatus_eq {content : List (List Char × Ending)} (flat : ∀ line ∈ content, '\n' ∉ line.1)
    (oneName : (content.map (·.1)).countP (hasTag nameTag) ≤ 1)
    (oneUid : (content.map (·.1)).countP (hasTag uidTag) ≤ 1) :
    parseProcStatus (statusText content) =
      match nameIn (content.map (·.1)), uidIn (content.map (·.1)) with
      | some name, some uid => .ok { name, uid }
      | _, _ => .error (.invalidData "proc status missing Name or Uid") := by
  have read : readLines (Text.lines (textOf content)) (none, none) =
      (nameIn (content.map (·.1)), uidIn (content.map (·.1))) := by
    rw [lines_textOf flat, readLines_chomp, readLines_eq (once_start oneName oneUid), Option.none_or, Option.none_or]
  unfold parseProcStatus statusText
  rw [String.toList_ofList, read]
  cases nameIn (content.map (·.1)) <;> cases uidIn (content.map (·.1)) <;> rfl

theorem uidIn_of_name (before after : List (List Char)) (name : List Char) :
    uidIn (before ++ (nameTag ++ name) :: after) = uidIn (before ++ after) := by
  have other : stripPrefix uidTag (nameTag ++ name) = none := uidTag_of_nameTag (stripPrefix_eq_some.mpr rfl)
  unfold uidIn tagged
  rw [List.findSome?_append, List.findSome?_append, List.findSome?_cons, other]

theorem nameIn_of_name (before after : List (List Char)) (name : List Char) :
    ∃ found, nameIn (before ++ (nameTag ++ name) :: after) = some found := by
  unfold nameIn tagged
  rw [List.findSome?_append, List.findSome?_cons, stripPrefix_eq_some.mpr rfl]
  cases before.findSome? (stripPrefix nameTag) with
  | none => exact ⟨_, rfl⟩
  | some first => exact ⟨_, rfl⟩

theorem countP_name {tag : List Char} (before after : List (List Char)) {name name' : List Char}
    (same : hasTag tag (nameTag ++ name) = hasTag tag (nameTag ++ name')) :
    (before ++ (nameTag ++ name) :: after).countP (hasTag tag) =
      (before ++ (nameTag ++ name') :: after).countP (hasTag tag) := by
  rw [List.countP_append, List.countP_append, List.countP_cons, List.countP_cons, same]

theorem parse_uid {before after : List (List Char × Ending)} {ending : Ending} {name : List Char}
    (flat : ∀ line ∈ before ++ (nameTag ++ name, ending) :: after, '\n' ∉ line.1)
    (oneName : (before.map (·.1) ++ (nameTag ++ name) :: after.map (·.1)).countP (hasTag nameTag) ≤ 1)
    (oneUid : (before.map (·.1) ++ (nameTag ++ name) :: after.map (·.1)).countP (hasTag uidTag) ≤ 1) :
    (parseProcStatus (statusText (before ++ (nameTag ++ name, ending) :: after))).map uid =
      match uidIn (before.map (·.1) ++ after.map (·.1)) with
      | some uid => .ok uid
      | none => .error (.invalidData "proc status missing Name or Uid") := by
  have contents : (before ++ (nameTag ++ name, ending) :: after).map (·.1) =
      before.map (·.1) ++ (nameTag ++ name) :: after.map (·.1) := by rw [List.map_append, List.map_cons]
  rw [← contents] at oneName oneUid
  obtain ⟨found, named⟩ := nameIn_of_name (before.map (·.1)) (after.map (·.1)) name
  rw [parseProcStatus_eq flat oneName oneUid, contents, named, uidIn_of_name]
  cases uidIn (before.map (·.1) ++ after.map (·.1)) <;> rfl

theorem parse_eq_ok {content : List (List Char × Ending)} (flat : ∀ line ∈ content, '\n' ∉ line.1)
    (oneName : (content.map (·.1)).countP (hasTag nameTag) ≤ 1)
    (oneUid : (content.map (·.1)).countP (hasTag uidTag) ≤ 1) {status : ProcStatus} :
    parseProcStatus (statusText content) = .ok status ↔
      ∃ name rest field, nameTag ++ name ∈ content.map (·.1) ∧ uidTag ++ rest ∈ content.map (·.1) ∧
        (splitWhitespace rest).head? = some field ∧ parseU32 field = some status.uid ∧
        status.name = String.ofList (trim name) := by
  rw [parseProcStatus_eq flat oneName oneUid]
  unfold nameIn uidIn
  constructor
  · intro parsed
    cases named : tagged nameTag (content.map (·.1)) with
    | none => simp [named] at parsed
    | some name =>
      cases owned : tagged uidTag (content.map (·.1)) with
      | none => simp [named, owned] at parsed
      | some rest =>
        cases number : firstUid rest with
        | none => simp [named, owned, number] at parsed
        | some uid =>
          simp only [named, owned, Option.map_some, Option.bind_some, number, Except.ok.injEq] at parsed
          subst parsed
          obtain ⟨field, first, parses⟩ := Option.bind_eq_some_iff.mp number
          exact ⟨name, rest, field, (tagged_eq_some oneName).mp named, (tagged_eq_some oneUid).mp owned, first, parses,
            rfl⟩
  · intro found
    obtain ⟨name, rest, field, named, owned, first, parses, same⟩ := found
    have number : firstUid rest = some status.uid := Option.bind_eq_some_iff.mpr ⟨field, first, parses⟩
    rw [(tagged_eq_some oneName).mpr named, (tagged_eq_some oneUid).mpr owned, Option.map_some, Option.bind_some,
      number]
    show Except.ok (⟨trimmed name, status.uid⟩ : ProcStatus) = .ok status
    rw [trimmed, ← same]

theorem flat_renamed {before after : List (List Char × Ending)} {ending : Ending} {name name' : List Char}
    (flat : ∀ line ∈ before ++ (nameTag ++ name, ending) :: after, '\n' ∉ line.1) (flat' : '\n' ∉ name') :
    ∀ line ∈ before ++ (nameTag ++ name', ending) :: after, '\n' ∉ line.1 := by
  intro line member
  rcases List.mem_append.mp member with earlier | here
  · exact flat line (List.mem_append_left _ earlier)
  · rcases List.mem_cons.mp here with rfl | later
    · exact List.not_mem_append (by decide) flat'
    · exact flat line (List.mem_append_right _ (List.mem_cons_of_mem _ later))

/-- The lines are found whatever surrounds them, and the name, whatever it is, does not touch the uid. -/
theorem proc_status_found {content : List (List Char × Ending)} (flat : ∀ line ∈ content, '\n' ∉ line.1)
    (oneName : (content.map (·.1)).countP (hasTag nameTag) ≤ 1)
    (oneUid : (content.map (·.1)).countP (hasTag uidTag) ≤ 1) :
    (∀ status, parseProcStatus (statusText content) = .ok status ↔
      ∃ name rest field, nameTag ++ name ∈ content.map (·.1) ∧ uidTag ++ rest ∈ content.map (·.1) ∧
        (splitWhitespace rest).head? = some field ∧ parseU32 field = some status.uid ∧
        status.name = String.ofList (trim name)) ∧
    ∀ before after ending name name', content = before ++ (nameTag ++ name, ending) :: after → '\n' ∉ name' →
      (parseProcStatus (statusText content)).map uid =
        (parseProcStatus (statusText (before ++ (nameTag ++ name', ending) :: after))).map uid := by
  refine ⟨fun status => parse_eq_ok flat oneName oneUid, fun before after ending name name' split flat' => ?_⟩
  subst split
  rw [List.map_append, List.map_cons] at oneName oneUid
  have names : hasTag nameTag (nameTag ++ name) = hasTag nameTag (nameTag ++ name') := by
    rw [hasTag_iff.mpr ⟨name, rfl⟩, hasTag_iff.mpr ⟨name', rfl⟩]
  have uids : hasTag uidTag (nameTag ++ name) = hasTag uidTag (nameTag ++ name') := rfl
  rw [parse_uid flat oneName oneUid]
  rw [countP_name _ _ names] at oneName
  rw [countP_name _ _ uids] at oneUid
  rw [parse_uid (flat_renamed flat flat') oneName oneUid]

def disguised : List (List Char × Ending) :=
  [(nameTag ++ ['\t', 'U', 'i', 'd', ':', '0', '\r'], .newline), (['S', 't', 'a', 't', 'e', ':'], .newline),
    (uidTag ++ ['\t', '7', '\t', '8'], .carriageReturn)]

theorem disguised_found :
    parseProcStatus (statusText disguised) = .ok ⟨String.ofList ['U', 'i', 'd', ':', '0'], 7⟩ := by
  have flat : ∀ line ∈ disguised, '\n' ∉ line.1 := by simp [disguised, nameTag, uidTag]
  have found := (proc_status_found flat (by decide) (by decide)).1 ⟨String.ofList ['U', 'i', 'd', ':', '0'], 7⟩
  refine found.mpr ⟨['\t', 'U', 'i', 'd', ':', '0', '\r'], ['\t', '7', '\t', '8'], ['7'], ?_, ?_, by decide,
    by decide, ?_⟩
  · simp [disguised]
  · simp [disguised]
  · exact congrArg String.ofList (by decide)

end ProcStatus

end CoreShift
