import Mathlib.Algebra.Group.Nat.Defs
import Mathlib.Data.List.Basic
import Mathlib.Data.List.DropRight

/-! Text as lists of characters, and how it is cut into lines, fields and numbers. -/

namespace Text

def isWhitespace (c : Char) : Bool :=
  (0x09 ≤ c.val ∧ c.val ≤ 0x0D) ∨ c.val = 0x20 ∨ c.val = 0x85 ∨ c.val = 0xA0 ∨ c.val = 0x1680 ∨
    (0x2000 ≤ c.val ∧ c.val ≤ 0x200A) ∨ c.val = 0x2028 ∨ c.val = 0x2029 ∨ c.val = 0x202F ∨ c.val = 0x205F ∨
    c.val = 0x3000

/-- `str::split_inclusive('\n')`. -/
def splitInclusive : List Char → List (List Char)
  | [] => []
  | c :: rest =>
    if c = '\n' then [c] :: splitInclusive rest
    else
      match splitInclusive rest with
      | [] => [[c]]
      | line :: lines => (c :: line) :: lines

/-- `str::strip_suffix` of one character. -/
def stripLast (c : Char) (text : List Char) : Option (List Char) :=
  if text.getLast? = some c then some text.dropLast else none

/-- What `str::lines` leaves of a line: it is without its end, and without a carriage return before it. -/
def chomp (line : List Char) : List Char :=
  match stripLast '\n' line with
  | none => line
  | some line =>
    match stripLast '\r' line with
    | none => line
    | some line => line

def lines (text : List Char) : List (List Char) := (splitInclusive text).map chomp

def stripPrefix : List Char → List Char → Option (List Char)
  | [], text => some text
  | _ :: _, [] => none
  | p :: ps, c :: text => if p = c then stripPrefix ps text else none

def trim (text : List Char) : List Char := (text.dropWhile isWhitespace).rdropWhile isWhitespace

def splitWhitespace (text : List Char) : List (List Char) := (text.splitOnP isWhitespace).filter (· ≠ [])

def digit (c : Char) : Option Nat := if '0' ≤ c ∧ c ≤ '9' then some (c.toNat - '0'.toNat) else none

def pushDigit (bound : Nat) (value : Nat) (c : Char) : Option Nat := do
  let d ← digit c
  if 10 * value + d < bound then some (10 * value + d) else none

/-- `str::parse` for an unsigned number below the bound. -/
def parseBelow (bound : Nat) (text : List Char) : Option Nat :=
  let digits := match text with
    | '+' :: rest => rest
    | text => text
  if digits = [] then none else digits.foldlM (pushDigit bound) 0

def parseU32 (text : List Char) : Option UInt32 := (parseBelow (2 ^ 32) text).map UInt32.ofNat

theorem stripPrefix_eq_some {start text rest : List Char} :
    stripPrefix start text = some rest ↔ text = start ++ rest := by
  induction start generalizing text with
  | nil => simp [stripPrefix]
  | cons p start ih =>
    cases text with
    | nil => simp [stripPrefix]
    | cons c text =>
      by_cases same : p = c
      · subst same
        simp only [stripPrefix, ↓reduceIte, ih, List.cons_append, List.cons.injEq, true_and]
      · simp [stripPrefix, same, Ne.symm same]

theorem stripPrefix_snoc {start : List Char} {c : Char} (other : c ∉ start) (text : List Char) :
    stripPrefix start (text ++ [c]) = (stripPrefix start text).map (· ++ [c]) := by
  induction start generalizing text with
  | nil => rfl
  | cons p start ih =>
    have different : p ≠ c := fun same => other (same ▸ List.mem_cons_self ..)
    have later : c ∉ start := fun member => other (List.mem_cons_of_mem p member)
    cases text with
    | nil => simp [stripPrefix, different]
    | cons c' text =>
      by_cases same : p = c'
      · simp only [List.cons_append, stripPrefix, same, ↓reduceIte, ih later]
      · simp only [List.cons_append, stripPrefix, same, ↓reduceIte, Option.map_none]

theorem trim_snoc {c : Char} (space : isWhitespace c = true) (text : List Char) : trim (text ++ [c]) = trim text := by
  unfold trim
  rw [List.dropWhile_append]
  split
  · rename_i blank
    have none : text.dropWhile isWhitespace = [] := by simpa using blank
    rw [none, List.dropWhile_cons_of_pos space]
    rfl
  · exact List.rdropWhile_concat_pos _ _ _ space

theorem splitOnP_snoc {ends : Char → Bool} {c : Char} (separates : ends c = true) (text : List Char) :
    (text ++ [c]).splitOnP ends = text.splitOnP ends ++ [[]] := by
  induction text with
  | nil =>
    rw [List.nil_append, List.splitOnP_cons_eq_if_modifyHead, if_pos separates]
    rfl
  | cons c' text ih =>
    rw [List.cons_append, List.splitOnP_cons_eq_if_modifyHead, List.splitOnP_cons_eq_if_modifyHead, ih]
    split
    · rfl
    · cases fields : text.splitOnP ends with
      | nil => exact absurd fields (List.splitOnP_ne_nil _ _)
      | cons field fields => rfl

theorem splitWhitespace_snoc {c : Char} (space : isWhitespace c = true) (text : List Char) :
    splitWhitespace (text ++ [c]) = splitWhitespace text := by
  unfold splitWhitespace
  rw [splitOnP_snoc space, List.filter_append]
  simp

theorem splitInclusive_line {line : List Char} (flat : '\n' ∉ line) (rest : List Char) :
    splitInclusive (line ++ '\n' :: rest) = (line ++ ['\n']) :: splitInclusive rest := by
  induction line with
  | nil => simp [splitInclusive]
  | cons c line ih =>
    have other : c ≠ '\n' := fun same => flat (same ▸ List.mem_cons_self ..)
    have later := ih fun member => flat (List.mem_cons_of_mem c member)
    simp only [List.cons_append, splitInclusive, other, ↓reduceIte, later]

inductive Ending where
  | newline
  | carriageReturn
  deriving DecidableEq, Repr

def Ending.text : Ending → List Char
  | .newline => ['\n']
  | .carriageReturn => ['\r', '\n']

def textOf (content : List (List Char × Ending)) : List Char := content.flatMap fun line => line.1 ++ line.2.text

theorem stripLast_snoc (c : Char) (text : List Char) : stripLast c (text ++ [c]) = some text := by
  unfold stripLast
  rw [List.getLast?_concat, if_pos rfl, List.dropLast_concat]

theorem chomp_newline (line : List Char) : chomp (line ++ ['\n']) = line ∨ line = chomp (line ++ ['\n']) ++ ['\r'] := by
  unfold chomp
  rw [stripLast_snoc]
  by_cases carriage : line.getLast? = some '\r'
  · right
    obtain ⟨front, rfl⟩ := List.getLast?_eq_some_iff.mp carriage
    simp only [stripLast_snoc]
  · left
    have none : stripLast '\r' line = none := if_neg carriage
    simp only [none]

theorem chomp_line (line : List Char) (ending : Ending) :
    chomp (line ++ ending.text) = line ∨ line = chomp (line ++ ending.text) ++ ['\r'] := by
  cases ending with
  | newline => exact chomp_newline line
  | carriageReturn =>
    left
    have split : line ++ Ending.carriageReturn.text = line ++ ['\r'] ++ ['\n'] := by
      rw [List.append_assoc]
      rfl
    unfold chomp
    rw [split, stripLast_snoc]
    simp only [stripLast_snoc]

theorem splitInclusive_ended {line : List Char} (flat : '\n' ∉ line) (ending : Ending) (rest : List Char) :
    splitInclusive (line ++ ending.text ++ rest) = (line ++ ending.text) :: splitInclusive rest := by
  cases ending with
  | newline =>
    have split : line ++ Ending.newline.text ++ rest = line ++ '\n' :: rest := by simp [Ending.text]
    rw [split, splitInclusive_line flat]
    rfl
  | carriageReturn =>
    have longer : '\n' ∉ line ++ ['\r'] := by simp [flat]
    have split : line ++ Ending.carriageReturn.text ++ rest = line ++ ['\r'] ++ '\n' :: rest := by simp [Ending.text]
    have ended : line ++ Ending.carriageReturn.text = line ++ ['\r'] ++ ['\n'] := by simp [Ending.text]
    rw [split, splitInclusive_line longer, ended]

theorem lines_textOf {content : List (List Char × Ending)} (flat : ∀ line ∈ content, '\n' ∉ line.1) :
    lines (textOf content) = content.map fun line => chomp (line.1 ++ line.2.text) := by
  unfold lines textOf
  induction content with
  | nil => rfl
  | cons line content ih =>
    have later := ih fun line' member => flat line' (List.mem_cons_of_mem line member)
    have here : '\n' ∉ line.1 := flat line (List.mem_cons_self ..)
    rw [List.flatMap_cons, List.map_cons, ← later, splitInclusive_ended here, List.map_cons]

def trimEndMatches (c : Char) (text : List Char) : List Char := text.rdropWhile (· = c)

def replace (c d : Char) (text : List Char) : List Char := text.map fun x => if x = c then d else x

def ended (c : Char) (parts : List (List Char)) : List Char := parts.flatMap (· ++ [c])

section
variable {c : Char} {part : List Char} {parts : List (List Char)}

theorem replace_of_notMem (d : Char) (free : c ∉ part) : replace c d part = part := by
  refine (List.map_congr_left fun x member => ?_).trans (List.map_id part)
  have other : x ≠ c := fun same => free (same ▸ member)
  rw [if_neg other]
  rfl

theorem replace_ended (d : Char) (free : ∀ p ∈ parts ++ [part], c ∉ p) :
    replace c d (ended c parts ++ part) = [d].intercalate (parts ++ [part]) := by
  induction parts with
  | nil =>
    rw [List.nil_append, List.intercalate_singleton]
    exact replace_of_notMem d (free part (by simp))
  | cons first parts ih =>
    have here : replace c d first = first := replace_of_notMem d (free first (by simp))
    have rest := ih fun p member => free p (List.mem_cons_of_mem _ member)
    have ended_first : ended c (first :: parts) ++ part = first ++ ([c] ++ (ended c parts ++ part)) := by
      simp [ended]
    have joined : replace c d (first ++ ([c] ++ (ended c parts ++ part))) =
        replace c d first ++ ([d] ++ replace c d (ended c parts ++ part)) := by
      simp [replace]
    show _ = [d].intercalate (first :: (parts ++ [part]))
    rw [ended_first, joined, here, rest, List.intercalate_cons_of_ne_nil (by simp), List.append_assoc]

theorem replace_trimEndMatches_ended (d : Char) (free : ∀ p ∈ parts, c ∉ p) :
    replace c d (trimEndMatches c (ended c parts)) = [d].intercalate (parts.rdropWhile (· = [])) := by
  induction parts using List.reverseRecOn with
  | nil => rfl
  | append_singleton parts part ih =>
    have last : trimEndMatches c (ended c (parts ++ [part])) = trimEndMatches c (ended c parts ++ part) := by
      have text : ended c (parts ++ [part]) = (ended c parts ++ part) ++ [c] := by
        simp [ended]
      rw [text]
      exact List.rdropWhile_concat_pos _ _ _ (by simp)
    rw [last]
    rcases List.eq_nil_or_concat part with rfl | ⟨init, x, rfl⟩
    · rw [List.append_nil, ih fun p member => free p (List.mem_append_left _ member)]
      exact congrArg _ (List.rdropWhile_concat_pos _ _ _ (by simp)).symm
    · rw [List.concat_eq_append] at free ⊢
      have other : x ≠ c := by
        intro same
        exact free (init ++ [x]) (by simp) (by simp [same])
      have kept : trimEndMatches c (ended c parts ++ (init ++ [x])) = ended c parts ++ (init ++ [x]) := by
        rw [← List.append_assoc]
        exact List.rdropWhile_concat_neg _ _ _ (by simp [other])
      rw [kept, replace_ended d free]
      exact congrArg _ (List.rdropWhile_concat_neg _ _ _ (by simp)).symm

end

end Text
