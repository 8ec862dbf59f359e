import Mathlib.Data.List.Nodup
import Mathlib.Logic.Function.Basic

/-! Tables of file descriptors, as `dup2`, `close`, `close_range`, `posix_spawn` and `execve` are
documented, and how the ends of pipes become given descriptors of a new program. -/

namespace Descriptors

structure Entry (F : Type) where
  file : F
  cloexec : Bool
  deriving DecidableEq, Repr

abbrev Table (F : Type) := Nat → Option (Entry F)

variable {F : Type}

namespace Table

def file (T : Table F) (fd : Nat) : Option F := (T fd).map Entry.file

def Least (T : Table F) (fd : Nat) : Prop := T fd = none ∧ ∀ n < fd, T n ≠ none

instance [DecidableEq F] (T : Table F) (fd : Nat) : Decidable (T.Least fd) :=
  inferInstanceAs (Decidable (T fd = none ∧ ∀ n < fd, T n ≠ none))

def closedBelow (T : Table F) (n : Nat) : List Nat := (List.range n).filter fun m => (T m).isNone

def install (T : Table F) (fd : Nat) (e : Entry F) : Table F := Function.update T fd (some e)

def close (T : Table F) (fd : Nat) : Table F := Function.update T fd none

/-- A descriptor that is copied to itself stays as it is. -/
def dup2 (T : Table F) (fd newfd : Nat) : Option (Table F) :=
  (T fd).map fun e => if fd = newfd then T else T.install newfd ⟨e.file, false⟩

/-- `posix_spawn` clears the flag of a descriptor that is copied to itself, too. -/
def dup2Action (T : Table F) (fd newfd : Nat) : Option (Table F) :=
  (T fd).map fun e => T.install newfd ⟨e.file, false⟩

def closeRange (T : Table F) (first last : Nat) : Table F := fun n => if first ≤ n ∧ n ≤ last then none else T n

def closeAll (T : Table F) (fds : List Nat) : Table F := fds.foldl close T

def exec (T : Table F) : Table F := fun n => (T n).filter fun e => !e.cloexec

@[simp] theorem install_self (T : Table F) (fd : Nat) (e : Entry F) : T.install fd e fd = some e :=
  Function.update_self ..

theorem install_of_ne (T : Table F) {fd n : Nat} (e : Entry F) (other : n ≠ fd) : T.install fd e n = T n :=
  Function.update_of_ne other ..

@[simp] theorem close_self (T : Table F) (fd : Nat) : T.close fd fd = none := Function.update_self ..

theorem close_of_ne (T : Table F) {fd n : Nat} (other : n ≠ fd) : T.close fd n = T n :=
  Function.update_of_ne other ..

theorem mem_closedBelow (T : Table F) {n m : Nat} : m ∈ T.closedBelow n ↔ m < n ∧ T m = none := by
  simp [closedBelow]

theorem closeAll_apply (T : Table F) (fds : List Nat) (n : Nat) :
    T.closeAll fds n = if n ∈ fds then none else T n := by
  induction fds generalizing T with
  | nil => rfl
  | cons fd rest ih =>
    show (T.close fd).closeAll rest n = _
    rw [ih]
    by_cases here : n = fd
    · subst here
      simp
    · simp [here, close_of_ne]

theorem file_exec_of_kept {T : Table F} {n : Nat} {e : Entry F} (kept : T n = some e) (stays : e.cloexec = false) :
    T.exec.file n = some e.file := by
  simp [file, exec, kept, stays]

theorem file_exec_of_closed {T : Table F} {n : Nat} (closed : ∀ e, T n = some e → e.cloexec = true) :
    T.exec.file n = none := by
  cases here : T n with
  | none => simp [file, exec, here]
  | some e => simp [file, exec, here, closed e here]

end Table

/-- One end of a pipe that becomes a descriptor of the new program, and the end that does not. -/
structure Wire where
  source : Nat
  other : Nat
  target : Nat
  deriving DecidableEq, Repr

namespace Wire

def ends (w : Wire) : List Nat := [w.source, w.other]

end Wire

open Table

def dupAll (T : Table F) : List Wire → Table F
  | [] => T
  | w :: rest => dupAll ((T.dup2 w.source w.target).getD T) rest

/-- Copy one source after the other, and close the ends of its pipe before the next. -/
def wireEach (T : Table F) : List Wire → Option (Table F)
  | [] => some T
  | w :: rest => (T.dup2Action w.source w.target).bind fun T' => wireEach ((T'.close w.source).close w.other) rest

def Clear (wires : List Wire) : Prop := ∀ w ∈ wires, ∀ w' ∈ wires, w.target ∉ w'.ends

/-- No end of a pipe is its target, or the target of an earlier one. -/
def LaterClear (wires : List Wire) : Prop :=
  wires.Pairwise (fun w w' => w.target ∉ w'.ends) ∧ ∀ w ∈ wires, w.target ∉ w.ends

instance (wires : List Wire) : Decidable (Clear wires) := by
  unfold Clear
  infer_instance

instance (wires : List Wire) : Decidable (LaterClear wires) := by
  unfold LaterClear
  infer_instance

section
variable {T T' : Table F} {wires : List Wire} {n : Nat}

theorem dup2_of_open {fd newfd : Nat} {e : Entry F} (opened : T fd = some e) :
    (T.dup2 fd newfd).getD T = if fd = newfd then T else T.install newfd ⟨e.file, false⟩ := by
  simp [dup2, opened]

theorem dup2_of_ne (fd : Nat) {newfd : Nat} (other : n ≠ newfd) : (T.dup2 fd newfd).getD T n = T n := by
  cases opened : T fd with
  | none => simp [dup2, opened]
  | some e =>
    rw [dup2_of_open opened]
    split
    · rfl
    · exact install_of_ne _ _ other

theorem dupAll_of_ne (others : ∀ w ∈ wires, n ≠ w.target) : dupAll T wires n = T n := by
  induction wires generalizing T with
  | nil => rfl
  | cons w rest ih =>
    show dupAll ((T.dup2 w.source w.target).getD T) rest n = T n
    rw [ih fun w' member => others w' (List.mem_cons_of_mem _ member)]
    exact dup2_of_ne _ (others w (List.mem_cons_self ..))

theorem dupAll_target (targets : (wires.map Wire.target).Nodup)
    (apart : ∀ w ∈ wires, ∀ w' ∈ wires, w.target ≠ w'.source) (opened : ∀ w ∈ wires, (T w.source).isSome) :
    ∀ w ∈ wires, dupAll T wires w.target = (T w.source).map fun e => ⟨e.file, false⟩ := by
  induction wires generalizing T with
  | nil => simp
  | cons w rest ih =>
    have kept : ∀ w' ∈ rest, (T.dup2 w.source w.target).getD T w'.source = T w'.source := by
      intro w' member
      exact dup2_of_ne _ (apart w (List.mem_cons_self ..) w' (List.mem_cons_of_mem _ member)).symm
    rw [List.map_cons, List.nodup_cons] at targets
    intro w' member
    rcases List.mem_cons.mp member with rfl | member
    · have later : ∀ w ∈ rest, w'.target ≠ w.target := by
        intro w here same
        exact targets.1 (List.mem_map.mpr ⟨w, here, same.symm⟩)
      have different := apart w' (List.mem_cons_self ..) w' (List.mem_cons_self ..)
      obtain ⟨e, here⟩ := Option.isSome_iff_exists.mp (opened w' (List.mem_cons_self ..))
      show dupAll ((T.dup2 w'.source w'.target).getD T) rest w'.target = _
      rw [dupAll_of_ne later, dup2_of_open here, if_neg different.symm, install_self, here]
      rfl
    · have after := ih (T := (T.dup2 w.source w.target).getD T) targets.2
        (fun w₁ first w₂ second => apart w₁ (List.mem_cons_of_mem _ first) w₂ (List.mem_cons_of_mem _ second))
        (fun w' member => by rw [kept w' member]; exact opened w' (List.mem_cons_of_mem _ member)) w' member
      rw [kept w' member] at after
      exact after

/-- Copying all sources before closing all ends leaves the sources at their targets exactly when no
    end is a target. -/
theorem dupAll_close_iff {fds : List Nat} (all : ∀ n, n ∈ fds ↔ ∃ w ∈ wires, n ∈ w.ends)
    (targets : (wires.map Wire.target).Nodup) (opened : ∀ w ∈ wires, (T w.source).isSome) :
    (∀ w ∈ wires, ((dupAll T wires).closeAll fds).exec.file w.target = T.file w.source) ↔ Clear wires := by
  apply Iff.intro
  · intro wired w first w' second hit
    have closed : (dupAll T wires).closeAll fds w.target = none := by
      rw [closeAll_apply, if_pos ((all _).mpr ⟨w', second, hit⟩)]
    have lost := file_exec_of_closed (T := (dupAll T wires).closeAll fds) (n := w.target) (by simp [closed])
    obtain ⟨e, here⟩ := Option.isSome_iff_exists.mp (opened w first)
    rw [wired w first, file, here] at lost
    cases lost
  · intro clear w member
    have apart : ∀ w ∈ wires, ∀ w' ∈ wires, w.target ≠ w'.source := by
      intro w first w' second same
      exact clear w first w' second (by simp [Wire.ends, same])
    have kept : (dupAll T wires).closeAll fds w.target = dupAll T wires w.target := by
      rw [closeAll_apply, if_neg]
      intro closed
      obtain ⟨w', second, hit⟩ := (all _).mp closed
      exact clear w member w' second hit
    obtain ⟨e, here⟩ := Option.isSome_iff_exists.mp (opened w member)
    have arrived := dupAll_target targets apart opened w member
    rw [here, Option.map_some, ← kept] at arrived
    rw [file_exec_of_kept arrived rfl, file, here]
    rfl

theorem dup2Action_some {fd newfd : Nat} (run : T.dup2Action fd newfd = some T') :
    ∃ e, T fd = some e ∧ T' = T.install newfd ⟨e.file, false⟩ := by
  obtain ⟨e, opened, rfl⟩ := Option.map_eq_some_iff.mp run
  exact ⟨e, opened, rfl⟩

theorem wireEach_cons {w : Wire} (run : wireEach T (w :: wires) = some T') :
    ∃ e, T w.source = some e ∧
      wireEach (((T.install w.target ⟨e.file, false⟩).close w.source).close w.other) wires = some T' := by
  obtain ⟨T₁, copied, rest⟩ := Option.bind_eq_some_iff.mp run
  obtain ⟨e, opened, rfl⟩ := dup2Action_some copied
  exact ⟨e, opened, rest⟩

theorem wired_of_ne {w : Wire} {e : Entry F} (other : n ≠ w.target) :
    ((T.install w.target e).close w.source).close w.other n = if n ∈ w.ends then none else T n := by
  by_cases source : n = w.source
  · by_cases unused : n = w.other
    · simp [Wire.ends, source, ← unused]
    · rw [close_of_ne _ unused, source]
      simp [Wire.ends]
  · by_cases unused : n = w.other
    · rw [unused]
      simp [Wire.ends]
    · rw [close_of_ne _ unused, close_of_ne _ source, install_of_ne _ _ other, if_neg (by simp [Wire.ends, *])]

theorem wired_target {w : Wire} {e : Entry F} :
    ((T.install w.target e).close w.source).close w.other w.target = if w.target ∈ w.ends then none else some e := by
  by_cases source : w.target = w.source
  · by_cases unused : w.target = w.other
    · simp [Wire.ends, source, ← unused]
    · rw [close_of_ne _ unused, source]
      simp [Wire.ends]
  · by_cases unused : w.target = w.other
    · rw [unused]
      simp [Wire.ends]
    · rw [close_of_ne _ unused, close_of_ne _ source, install_self, if_neg (by simp [Wire.ends, *])]

theorem wireEach_of_ne (run : wireEach T wires = some T') (others : ∀ w ∈ wires, n ≠ w.target) :
    T' n = if ∃ w ∈ wires, n ∈ w.ends then none else T n := by
  induction wires generalizing T with
  | nil =>
    cases run
    simp
  | cons w rest ih =>
    obtain ⟨e, -, run⟩ := wireEach_cons run
    rw [ih run fun w' member => others w' (List.mem_cons_of_mem _ member), wired_of_ne (others w (by simp))]
    by_cases first : n ∈ w.ends
    · simp [first]
    · simp [first]

theorem wired_source {w w' : Wire} {e : Entry F} (clear : w.target ∉ w'.ends) (apart : ∀ n ∈ w.ends, n ∉ w'.ends) :
    ((T.install w.target e).close w.source).close w.other w'.source = T w'.source := by
  have source : w'.source ∈ w'.ends := by simp [Wire.ends]
  have different : w'.source ≠ w.target := fun same => clear (same ▸ source)
  have outside : w'.source ∉ w.ends := fun here => apart _ here source
  rw [wired_of_ne different, if_neg outside]

theorem wireEach_some (clear : Clear wires) (disjoint : wires.Pairwise fun w w' => ∀ n ∈ w.ends, n ∉ w'.ends)
    (opened : ∀ w ∈ wires, (T w.source).isSome) : ∃ T', wireEach T wires = some T' := by
  induction wires generalizing T with
  | nil => exact ⟨T, rfl⟩
  | cons w rest ih =>
    rw [List.pairwise_cons] at disjoint
    obtain ⟨e, here⟩ := Option.isSome_iff_exists.mp (opened w (List.mem_cons_self ..))
    have copied : T.dup2Action w.source w.target = some (T.install w.target ⟨e.file, false⟩) := by
      simp [dup2Action, here]
    simp only [wireEach, copied, Option.bind_some]
    refine ih (fun w₁ first w₂ second => ?_) disjoint.2 fun w' member => ?_
    · exact clear w₁ (List.mem_cons_of_mem _ first) w₂ (List.mem_cons_of_mem _ second)
    · have later := List.mem_cons_of_mem w member
      rw [wired_source (clear w (List.mem_cons_self ..) w' later) (disjoint.1 w' member)]
      exact opened w' later

theorem wireEach_of_target (run : wireEach T wires = some T') (clear : Clear wires)
    (targets : (wires.map Wire.target).Nodup) (disjoint : wires.Pairwise fun w w' => ∀ n ∈ w.ends, n ∉ w'.ends) :
    ∀ w ∈ wires, T' w.target = (T w.source).map fun e => ⟨e.file, false⟩ := by
  induction wires generalizing T with
  | nil => simp
  | cons w rest ih =>
    obtain ⟨e, opened, run⟩ := wireEach_cons run
    rw [List.map_cons, List.nodup_cons] at targets
    rw [List.pairwise_cons] at disjoint
    have first := List.mem_cons_self (a := w) (l := rest)
    intro w' member
    rcases List.mem_cons.mp member with rfl | member
    · have others : ∀ w₂ ∈ rest, w'.target ≠ w₂.target :=
        fun w₂ second same => targets.1 (List.mem_map.mpr ⟨w₂, second, same.symm⟩)
      have later : ¬∃ w₂ ∈ rest, w'.target ∈ w₂.ends :=
        fun ⟨w₂, second, hit⟩ => clear w' first w₂ (List.mem_cons_of_mem _ second) hit
      rw [wireEach_of_ne run others, if_neg later, wired_target, if_neg (clear w' first w' first), opened]
      rfl
    · have rest_clear : Clear rest := fun w₁ one w₂ two =>
        clear w₁ (List.mem_cons_of_mem _ one) w₂ (List.mem_cons_of_mem _ two)
      rw [ih run rest_clear targets.2 disjoint.2 w' member,
        wired_source (clear w first w' (List.mem_cons_of_mem _ member)) (disjoint.1 w' member)]

theorem wireEach_eq_dupAll {fds : List Nat} (all : ∀ n, n ∈ fds ↔ ∃ w ∈ wires, n ∈ w.ends) (clear : Clear wires)
    (targets : (wires.map Wire.target).Nodup) (disjoint : wires.Pairwise fun w w' => ∀ n ∈ w.ends, n ∉ w'.ends)
    (opened : ∀ w ∈ wires, (T w.source).isSome) : wireEach T wires = some ((dupAll T wires).closeAll fds) := by
  obtain ⟨T', run⟩ := wireEach_some clear disjoint opened
  rw [run, Option.some.injEq]
  funext n
  rw [closeAll_apply]
  by_cases target : ∃ w ∈ wires, n = w.target
  · obtain ⟨w, member, rfl⟩ := target
    have apart : ∀ w ∈ wires, ∀ w' ∈ wires, w.target ≠ w'.source :=
      fun w first w' second same => clear w first w' second (by simp [Wire.ends, same])
    have kept : w.target ∉ fds := by
      intro closed
      obtain ⟨w', second, hit⟩ := (all _).mp closed
      exact clear w member w' second hit
    rw [if_neg kept, dupAll_target targets apart opened w member,
      wireEach_of_target run clear targets disjoint w member]
  · have others : ∀ w ∈ wires, n ≠ w.target := fun w member same => target ⟨w, member, same⟩
    rw [dupAll_of_ne others, wireEach_of_ne run others]
    simp only [all]

theorem closeAll_eq_closeRange {fds : List Nat} {first last : Nat} (above : ∀ n ∈ fds, first ≤ n)
    (all : ∀ n, first ≤ n → T n ≠ none → n ∈ fds) (below : ∀ n, T n ≠ none → n ≤ last) :
    T.closeAll fds = T.closeRange first last := by
  funext n
  rw [closeAll_apply, closeRange]
  by_cases isOpen : T n = none
  · simp [isOpen]
  · by_cases low : first ≤ n
    · rw [if_pos (all n low isOpen), if_pos ⟨low, below n isOpen⟩]
    · rw [if_neg fun member => low (above n member), if_neg fun range => low range.1]

theorem laterClear_cons {w : Wire} :
    LaterClear (w :: wires) ↔ (w.target ∉ w.ends ∧ ∀ w' ∈ wires, w.target ∉ w'.ends) ∧ LaterClear wires := by
  simp only [LaterClear, List.pairwise_cons, List.forall_mem_cons]
  tauto

theorem wireEach_first {w : Wire} {e : Entry F} (opened : T w.source = some e)
    (run : wireEach (((T.install w.target ⟨e.file, false⟩).close w.source).close w.other) wires = some T')
    (others : ∀ w' ∈ wires, w.target ≠ w'.target) :
    T'.exec.file w.target = T.file w.source ↔ w.target ∉ w.ends ∧ ∀ w' ∈ wires, w.target ∉ w'.ends := by
  have final := wireEach_of_ne run others
  rw [wired_target] at final
  have begun : T.file w.source = some e.file := by simp [file, opened]
  rw [begun]
  by_cases later : ∃ w' ∈ wires, w.target ∈ w'.ends
  · rw [if_pos later] at final
    have lost := file_exec_of_closed (T := T') (n := w.target) (by simp [final])
    obtain ⟨w', member, hit⟩ := later
    refine iff_of_false (by simp [lost]) fun clear => clear.2 w' member hit
  · rw [if_neg later] at final
    by_cases own : w.target ∈ w.ends
    · rw [if_pos own] at final
      have lost := file_exec_of_closed (T := T') (n := w.target) (by simp [final])
      exact iff_of_false (by simp [lost]) fun clear => clear.1 own
    · rw [if_neg own] at final
      have kept := file_exec_of_kept final rfl
      exact iff_of_true kept ⟨own, fun w' member hit => later ⟨w', member, hit⟩⟩

theorem wireEach_iff (run : wireEach T wires = some T') (targets : (wires.map Wire.target).Nodup)
    (disjoint : wires.Pairwise fun w w' => ∀ n ∈ w.ends, n ∉ w'.ends) :
    (∀ w ∈ wires, T'.exec.file w.target = T.file w.source) ↔ LaterClear wires := by
  induction wires generalizing T with
  | nil => simp [LaterClear]
  | cons w rest ih =>
    obtain ⟨e, opened, run⟩ := wireEach_cons run
    rw [List.map_cons, List.nodup_cons] at targets
    rw [List.pairwise_cons] at disjoint
    have others : ∀ w' ∈ rest, w.target ≠ w'.target :=
      fun w' member same => targets.1 (List.mem_map.mpr ⟨w', member, same.symm⟩)
    have first := wireEach_first opened run others
    have kept : (∀ w' ∈ rest, w.target ∉ w'.ends) → ∀ w' ∈ rest,
        (((T.install w.target ⟨e.file, false⟩).close w.source).close w.other).file w'.source = T.file w'.source := by
      intro clear w' member
      rw [file, wired_source (clear w' member) (disjoint.1 w' member), file]
    rw [List.forall_mem_cons, first, laterClear_cons]
    refine and_congr_right fun clear => ?_
    rw [← ih run targets.2 disjoint.2]
    exact forall₂_congr fun w' member => by rw [kept clear.2 w' member]

end

/-- `T'` is `T` with descriptors opened one after the other, each at the lowest free number, all of
    which `execve` closes. -/
structure Grown (T : Table F) (fds : List Nat) (T' : Table F) : Prop where
  free : ∀ n ∈ fds, T n = none
  opened : ∀ n ∈ fds, ∃ f, T' n = some ⟨f, true⟩
  others : ∀ n, n ∉ fds → T' n = T n
  sorted : fds.Pairwise (· < ·)
  packed : ∀ n ∈ fds, ∀ m < n, T m = none → m ∈ fds

section
variable {T T' T'' : Table F} {fds fds' : List Nat}

theorem Grown.refl (T : Table F) : Grown T [] T := ⟨by simp, by simp, fun _ _ => rfl, .nil, by simp⟩

theorem grown_install {fd : Nat} (f : F) (least : T.Least fd) : Grown T [fd] (T.install fd ⟨f, true⟩) where
  free n member := by rw [List.mem_singleton.mp member, least.1]
  opened n member := ⟨f, by rw [List.mem_singleton.mp member, install_self]⟩
  others n absent := install_of_ne _ _ (by simpa using absent)
  sorted := List.pairwise_singleton ..
  packed n member m below unused := by
    rw [List.mem_singleton.mp member] at below
    exact absurd unused (least.2 m below)

theorem Grown.nodup (grown : Grown T fds T') : fds.Nodup := grown.sorted.imp Nat.ne_of_lt

theorem Grown.trans (first : Grown T fds T') (second : Grown T' fds' T'') : Grown T (fds ++ fds') T'' := by
  have apart : ∀ n ∈ fds', n ∉ fds := by
    intro n later earlier
    obtain ⟨f, opened⟩ := first.opened n earlier
    simp [second.free n later] at opened
  have free : ∀ n ∈ fds', T n = none := by
    intro n later
    rw [← first.others n (apart n later), second.free n later]
  refine ⟨fun n member => ?_, fun n member => ?_, fun n absent => ?_, ?_, fun n member m below unused => ?_⟩
  · exact (List.mem_append.mp member).elim (first.free n) (free n)
  · rcases List.mem_append.mp member with earlier | later
    · rw [second.others n fun later => apart n later earlier]
      exact first.opened n earlier
    · exact second.opened n later
  · rw [List.mem_append, not_or] at absent
    rw [second.others n absent.2, first.others n absent.1]
  · refine List.pairwise_append.mpr ⟨first.sorted, second.sorted, fun n earlier m later => ?_⟩
    have different : n ≠ m := fun same => apart m later (same ▸ earlier)
    have above : ¬m < n := fun below => apart m later (first.packed n earlier m below (free m later))
    omega
  · by_cases early : m ∈ fds
    · exact List.mem_append_left _ early
    · rcases List.mem_append.mp member with earlier | later
      · exact absurd (first.packed n earlier m below unused) early
      · rw [← first.others m early] at unused
        exact List.mem_append_right _ (second.packed n later m below unused)

theorem Grown.mem_iff {n : Nat} (grown : Grown T fds T') :
    n ∈ fds ↔ T n = none ∧ (T.closedBelow n).length < fds.length := by
  apply Iff.intro
  · intro member
    refine ⟨grown.free n member, ?_⟩
    have distinct : (n :: T.closedBelow n).Nodup := by
      refine List.nodup_cons.mpr ⟨fun here => ?_, List.nodup_range.filter _⟩
      exact absurd ((mem_closedBelow T).mp here).1 (Nat.lt_irrefl n)
    refine distinct.length_le_of_subset fun m here => ?_
    rcases List.mem_cons.mp here with rfl | here
    · exact member
    · obtain ⟨below, closed⟩ := (mem_closedBelow T).mp here
      exact grown.packed n member m below closed
  · intro few
    obtain ⟨closed, few⟩ := few
    by_contra absent
    refine absurd few (Nat.not_lt.mpr (grown.nodup.length_le_of_subset fun m member => ?_))
    refine (mem_closedBelow T).mpr ⟨?_, grown.free m member⟩
    by_contra above
    have less : n < m := Nat.lt_of_le_of_ne (Nat.not_lt.mp above) fun same => absent (same ▸ member)
    exact absent (grown.packed m member n less closed)

theorem Grown.mem_tail_iff {fd n : Nat} (grown : Grown T (fd :: fds) T') (reached : ∃ m ∈ fd :: fds, n ≤ m) :
    n ∈ fds ↔ T n = none ∧ ¬T.Least n := by
  have first := List.mem_cons_self (a := fd) (l := fds)
  have above := (List.pairwise_cons.mp grown.sorted).1
  apply Iff.intro
  · intro member
    exact ⟨grown.free n (List.mem_cons_of_mem _ member), fun least => least.2 fd (above n member) (grown.free fd first)⟩
  · intro unused
    obtain ⟨closed, notLeast⟩ := unused
    obtain ⟨m, below, lower⟩ : ∃ m < n, T m = none := by
      simpa [Least, closed] using notLeast
    obtain ⟨k, member, le⟩ := reached
    have opened : n ∈ fd :: fds := by
      rcases Nat.lt_or_eq_of_le le with less | rfl
      · exact grown.packed k member n less closed
      · exact member
    have behind : fd < n := by
      rcases List.mem_cons.mp (grown.packed n opened m below lower) with rfl | later
      · exact below
      · exact Nat.lt_trans (above m later) below
    exact (List.mem_cons.mp opened).resolve_left (Nat.ne_of_gt behind)

theorem Grown.file_exec_iff {n : Nat} (grown : Grown T fds T') (kept : T'' n = if n ∈ fds' then none else T' n)
    (among : fds' ⊆ fds) : T''.exec.file n = T.file n ↔ ∀ e, T n = some e → e.cloexec = false := by
  cases before : T n with
  | none =>
    have closed : ∀ e, T'' n = some e → e.cloexec = true := by
      intro e here
      rw [kept] at here
      split at here
      · cases here
      · by_cases opened : n ∈ fds
        · obtain ⟨f, same⟩ := grown.opened n opened
          cases same.symm.trans here
          rfl
        · rw [grown.others n opened, before] at here
          cases here
    rw [file_exec_of_closed closed]
    simp [file, before]
  | some e =>
    have absent : n ∉ fds := fun member => by simp [grown.free n member] at before
    have here : T'' n = some e := by
      rw [kept, if_neg fun member => absent (among member), grown.others n absent, before]
    cases flag : e.cloexec
    · rw [file_exec_of_kept here flag]
      simp [file, before, flag]
    · have lost : T''.exec.file n = none := by
        refine file_exec_of_closed fun e' same => ?_
        cases here.symm.trans same
        exact flag
      rw [lost]
      simp [file, before, flag]

theorem install_close {fd : Nat} {e : Entry F} (free : T fd = none) : (T.install fd e).close fd = T := by
  funext n
  by_cases here : n = fd
  · rw [here, close_self, free]
  · rw [close_of_ne _ here, install_of_ne _ _ here]

theorem dupAll_append (wires wires' : List Wire) : dupAll T (wires ++ wires') = dupAll (dupAll T wires) wires' := by
  induction wires generalizing T with
  | nil => rfl
  | cons w rest ih => exact ih

end

end Descriptors
