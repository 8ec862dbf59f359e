import Mathlib.Algebra.Group.Nat.Defs
import CoreShift.Spawn.Stdio

namespace CoreShift

open Interaction Descriptors

section
variable {F : Type} {opts : SpawnOptions} {p : Pipes} {T₀ T₁ T₂ C : Table F} {t₁ t₂ inChild : Trace}

theorem Pipes.Made.above (made : Pipes.Made opts T₀ p T₁) (standard : ∀ n ≤ 2, T₀ n ≠ none) :
    ∀ n ∈ p.ends, 2 < n := by
  intro n member
  have free := made.grown.free n member
  by_cases low : n ≤ 2
  · exact absurd free (standard n low)
  · omega

theorem Pipes.Made.clear (made : Pipes.Made opts T₀ p T₁) (standard : ∀ n ≤ 2, T₀ n ≠ none) : Clear p.wires := by
  intro w first w' second hit
  have low := Pipes.target_le p w first
  have high := made.above standard _ ((made.mem_ends _).mpr ⟨w', second, hit⟩)
  omega

theorem wired_high {n : Nat} (high : 2 < n) :
    (dupAll T₁ p.wires).closeAll p.ends n = if n ∈ p.ends then none else T₁ n := by
  have others : ∀ w ∈ p.wires, n ≠ w.target := by
    intro w member
    have low := Pipes.target_le p w member
    omega
  rw [Table.closeAll_apply, dupAll_of_ne others]

/-- Both backends leave the same descriptors in the child, and no others than the standard ones.
    Descriptors are `int`s, so that none of them is above the range. -/
theorem backends_same_table {path path' : CString} {actions : List FileAction} {attr : SpawnAttr}
    {argv argv' : List CStrPtr} {envp envp' : Option (List CStrPtr)}
    (standard : ∀ n ≤ 2, T₀ n ≠ none) (ints : ∀ n, T₀ n ≠ none → n < 2 ^ 31)
    (pipes : Exec (Pipes.new opts.stdin opts.captureStdout opts.captureStderr) t₁ (.done (.ok p)))
    (piped : Effects T₀ t₁ T₁)
    (posix : Exec (spawnPosixInternal opts) (t₁ ++ t₂) (.waiting (.posixSpawn path actions attr argv envp)))
    (parent : Effects T₁ t₂ T₂) (lists : SpawnPosix.ListsOpen T₁ t₂)
    (fork : Exec (spawnForkInternal opts) (t₁ ++ ⟨.fork, .ok 0⟩ :: inChild) (.waiting (.execve path' argv' envp')))
    (child : Effects T₁ inChild C) (ranges : ∀ first last flags e, ⟨.closeRange first last flags, .error e⟩ ∉ inChild) :
    ∃ T, SpawnPosix.applyActions T₂ actions = some T ∧ T.exec = C.exec ∧ ∀ n, 2 < n → C.exec n = none := by
  have made := Pipes.new_made pipes piped
  obtain ⟨pipes', prepared⟩ := SpawnPosix.exec_spawnPosix_waiting posix
  obtain ⟨rfl, fds, rfl, above, all⟩ := prepared.effects pipes parent
  obtain ⟨forked, piped', calls⟩ := SpawnFork.exec_spawnFork_execve fork
  have same : forked = p := Except.ok.inj ((Pipes.new _ _ _).determined.result piped' pipes)
  subst same
  obtain ⟨answer, asked, range⟩ := SpawnFork.effects_child calls child
  have wired := wireEach_eq_dupAll made.mem_ends (made.clear standard) (Pipes.targets_nodup _) made.disjoint made.opened
  generalize left : (dupAll T₂ forked.wires).closeAll forked.ends = W at wired range
  have left_high : ∀ n, 2 < n → W n = if n ∈ forked.ends then none else T₂ n := by
    intro n high
    rw [← left]
    exact wired_high high
  have closes : ∀ n, 3 ≤ n → W n ≠ none → n ∈ fds := by
    intro n high isOpen
    rw [left_high n high] at isOpen
    split at isOpen
    · exact absurd rfl isOpen
    · rename_i unhandled
      exact all lists n high unhandled isOpen
  have below : ∀ n, W n ≠ none → n ≤ 0xffffffff := by
    intro n isOpen
    by_cases low : n ≤ 2
    · omega
    · rw [left_high n (by omega)] at isOpen
      split at isOpen
      · exact absurd rfl isOpen
      · rename_i other
        rw [made.grown.others n other] at isOpen
        have int := ints n isOpen
        omega
  have closed : C = W.closeAll fds := by
    rw [closeAll_eq_closeRange above closes below]
    cases range with
    | closeRange => rfl
    | leaves leaves =>
      rcases answer with e | ⟨⟩
      · exact absurd asked (ranges _ _ _ e)
      · cases leaves
  refine ⟨W.closeAll fds, ?_, by rw [closed], fun n high => ?_⟩
  · rw [SpawnPosix.applyActions_append, SpawnPosix.applyActions_pipes, wired]
    exact SpawnPosix.applyActions_closes W fds
  · have gone : C n = none := by
      rw [closed, Table.closeAll_apply]
      split
      · rfl
      · rename_i open_
        by_contra isOpen
        exact open_ (closes n high isOpen)
    simp [Table.exec, gone]

end

def oneMore : Table Nat := fun n => if n ≤ 2 ∨ n = 7 then some ⟨n, false⟩ else none

def oneMorePiped : Table Nat := (oneMore.install 3 ⟨101, true⟩).install 4 ⟨102, true⟩

def oneMoreListed : Trace :=
  [⟨.fileActionsInit, .ok ()⟩, ⟨.fileActionsAddDup2 4 1, .ok ()⟩, ⟨.fileActionsAddClose 4, .ok ()⟩,
    ⟨.fileActionsAddClose 3, .ok ()⟩, ⟨.openProcSelfFd, .ok 5⟩, ⟨.fdopendir 5, true⟩, ⟨.readdir 5, some ⟨none⟩⟩,
    ⟨.readdir 5, some ⟨some 0⟩⟩, ⟨.readdir 5, some ⟨some 1⟩⟩, ⟨.readdir 5, some ⟨some 2⟩⟩,
    ⟨.readdir 5, some ⟨some 3⟩⟩, ⟨.readdir 5, some ⟨some 4⟩⟩, ⟨.readdir 5, some ⟨some 5⟩⟩,
    ⟨.readdir 5, some ⟨some 7⟩⟩, ⟨.fileActionsAddClose 7, .ok ()⟩, ⟨.readdir 5, none⟩, ⟨.closedir 5, .ok ()⟩,
    ⟨.spawnattrInit, .ok ()⟩, ⟨.spawnattrSetflags 12, .ok ()⟩, ⟨.spawnattrSetsigmask [], .ok ()⟩,
    ⟨.spawnattrSetsigdefault [13], .ok ()⟩]

def oneMoreChild : Table Nat :=
  (((oneMorePiped.install 1 ⟨102, false⟩).close 3).close 4).closeRange 3 0xffffffff

theorem oneMore_lists : SpawnPosix.ListsOpen oneMorePiped oneMoreListed where
  opens e := by simp [oneMoreListed]
  reads dirFd := by simp [oneMoreListed]
  records fd e := by simp [oneMoreListed]
  lists before dirFd after split n := by
    have ends : oneMoreListed = oneMoreListed.take 15 ++ ⟨.readdir 5, none⟩ :: oneMoreListed.drop 16 := rfl
    obtain ⟨rfl, -, -⟩ := split_unique (P := fun e => ∃ dirFd, e = ⟨.readdir dirFd, none⟩) (by simp [oneMoreListed])
      (by simp [oneMoreListed]) ⟨dirFd, rfl⟩ (ends.symm.trans split)
    have named : SpawnPosix.listed (oneMoreListed.take 15) = [0, 1, 2, 3, 4, 5, 7] := rfl
    have directory : ⟨.openProcSelfFd, .ok n⟩ ∈ oneMoreListed.take 15 ↔ n = 5 := by simp [oneMoreListed]
    rw [named, directory]
    simp only [oneMorePiped, oneMore, Table.install, Function.update_apply, List.mem_cons, List.not_mem_nil, or_false]
    split
    · simp [*]
    · split
      · simp [*]
      · split
        · simp
          omega
        · simp
          omega

theorem oneMore_same_table :
    ∃ T, SpawnPosix.applyActions oneMorePiped [.dup2 4 1, .close 4, .close 3, .close 7] = some T ∧
      T.exec = oneMoreChild.exec ∧ ∀ n, 2 < n → oneMoreChild.exec n = none := by
  have pipes : Exec (Pipes.new none true false) [⟨.pipe2 0o2004000, .ok (3, 4)⟩] (.done (.ok (capturePipe 3 4))) :=
    .of_replay 3 rfl
  have piped : Effects oneMore [⟨.pipe2 0o2004000, .ok (3, 4)⟩] oneMorePiped :=
    .cons (.pipe2 (g := 102) rfl (by decide) (by decide)) (.nil _)
  have posix : Exec (spawnPosixInternal capturing) ([⟨.pipe2 0o2004000, .ok (3, 4)⟩] ++ oneMoreListed)
      (.waiting (.posixSpawn ⟨[47], slash_no_nul⟩ [.dup2 4 1, .close 4, .close 3, .close 7] ⟨12, 0, [], [13]⟩
        [some ⟨[47], slash_no_nul⟩, none] none)) := .of_replay 12 rfl
  have parent : Effects oneMorePiped oneMoreListed oneMorePiped := by
    have closed : (oneMorePiped.install 5 ⟨103, true⟩).close 5 = oneMorePiped := install_close rfl
    have listing : Effects (oneMorePiped.install 5 ⟨103, true⟩) (oneMoreListed.drop 5)
        ((oneMorePiped.install 5 ⟨103, true⟩).close 5) := by
      refine effects_append (t := (oneMoreListed.drop 5).take 11).mpr ⟨_, effects_of_leaves _ ?_, .cons .closedir ?_⟩
      · simp [oneMoreListed, leavesTable]
      · exact effects_of_leaves _ (by simp [leavesTable])
    rw [closed] at listing
    refine effects_append (t := oneMoreListed.take 4).mpr ?_
    refine ⟨_, effects_of_leaves _ ?_, .cons (.openProcSelfFd ?_) listing⟩
    · simp [oneMoreListed, leavesTable]
    · decide
  have fork : Exec (spawnForkInternal capturing) ([⟨.pipe2 0o2004000, .ok (3, 4)⟩] ++ ⟨.fork, .ok 0⟩ ::
      [⟨.dup2 4 1, .ok ()⟩, ⟨.close 3, .ok ()⟩, ⟨.close 4, .ok ()⟩, ⟨.closeRange 3 0xffffffff 0, .ok ()⟩,
        ⟨.sigprocmask SIG_SETMASK [], .ok ()⟩, ⟨.signalDefault SIGPIPE, .ok ()⟩])
      (.waiting (.execve ⟨[47], slash_no_nul⟩ [some ⟨[47], slash_no_nul⟩, none] none)) := .of_replay 3 rfl
  have child : Effects oneMorePiped
      [⟨.dup2 4 1, .ok ()⟩, ⟨.close 3, .ok ()⟩, ⟨.close 4, .ok ()⟩, ⟨.closeRange 3 0xffffffff 0, .ok ()⟩,
        ⟨.sigprocmask SIG_SETMASK [], .ok ()⟩, ⟨.signalDefault SIGPIPE, .ok ()⟩] oneMoreChild :=
    .cons (.dup2 rfl) (.cons .close (.cons .close (.cons .closeRange
      (.cons (.leaves rfl) (.cons (.leaves rfl) (.nil _))))))
  refine backends_same_table (fun n low => ?_) (fun n isOpen => ?_) pipes piped posix parent oneMore_lists fork child ?_
  · simp [oneMore, low]
  · by_contra high
    exact isOpen (if_neg (by omega))
  · simp

end CoreShift
