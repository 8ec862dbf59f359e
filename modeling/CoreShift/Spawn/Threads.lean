import CoreShift.Interaction.Threads
import CoreShift.Spawn.Upkeep

namespace CoreShift

open Interaction Descriptors

theorem descriptors_back {F : Type} (T : Table F) : descriptors.Backs (Beside T) Effects where
  nodup beside := beside.distinct
  stop beside effects := by
    rw [effects_nil effects]
    exact beside
  step known beside effects := by
    obtain ⟨T', first, later⟩ := effects_cons effects
    exact ⟨T', beside.effect known first, later⟩

/-- What several runs of `spawn` in one process make of its descriptors. What a run closes, reads, writes,
    registers or waits on was not open before, is opened by this run, and is closed by none of them since. -/
structure Apart {F ι : Type} [DecidableEq ι] (threads : Finset ι) (o : ι → Outcome os (Except SysError Output))
    (T : Table F) (h : List (ι × Event os)) (T' : Table F) : Prop where
  finished : (∀ i ∈ threads, ∃ result, o i = .done result) → T' = T
  own : ∀ h₁ i e h₂ fd, h = h₁ ++ (i, e) :: h₂ → fd ∈ closed e + touched e.call →
    T fd = none ∧ ∃ before opening after, h₁ = before ++ (i, opening) :: after ∧ fd ∈ opened opening ∧
      ∀ x ∈ after, fd ∉ closed x.2

/-- However the calls of the threads of a process are interleaved, each `spawn` keeps to its own descriptors,
    and when all have returned, with a result or with any error, the table is the one before. -/
theorem concurrent_spawns_keep_apart {F ι : Type} [DecidableEq ι] {threads : Finset ι} {platform : ι → Platform}
    {opts : ι → SpawnOptions} {o : ι → Outcome os (Except SysError Output)} {h : List (ι × Event os)}
    {T T' : Table F} (runs : ∀ i ∈ threads, Exec (spawn (platform i) (opts i)) (ofThread i h) (o i))
    (inside : ∀ x ∈ h, x.1 ∈ threads) (parent : ∀ x ∈ h, x.2 ≠ ⟨.fork, .ok 0⟩)
    (effects : Effects T (h.map Prod.snd) T') : Apart threads o T h T' := by
  have permitted : ∀ i, ∀ e ∈ ofThread i h, InParent e := fun i e member => parent (i, e) (mem_of_thread member)
  have kept : ∀ i ∈ threads, ∃ held, accounts.Ledger 0 (ofThread i h) held ∧ ∀ result, o i = .done result → held = 0 :=
    fun i member => tends_spawn (platform i) (opts i) _ _ (runs i member) (permitted i)
  choose! held ledgers done using kept
  have start : Beside T (∑ i ∈ threads, (0 : ι → Multiset Nat) i) T := by
    have none : ∑ i ∈ threads, (0 : ι → Multiset Nat) i = 0 := Finset.sum_eq_zero fun _ _ => rfl
    rw [none]
    exact beside_nothing T
  have nothing : ∀ i ∈ threads, ∀ fd ∈ (0 : ι → Multiset Nat) i, descriptors.Since ([] : List (ι × Event os)) i fd :=
    fun i _ fd member => absurd member (Multiset.notMem_zero fd)
  obtain ⟨final, own⟩ := (descriptors_back T).share ledgers inside start effects nothing
  refine ⟨fun all => ?_, fun h₁ i e h₂ fd split names => ?_⟩
  · have none : ∑ i ∈ threads, held i = 0 := by
      apply Finset.sum_eq_zero
      intro i member
      obtain ⟨result, same⟩ := all i member
      exact done i member result same
    rw [none] at final
    exact final.eq
  · obtain ⟨since, all, T₁, beside, member⟩ := own h₁ i e h₂ split fd names
    exact ⟨(beside.fresh fd member).1, since⟩

def handedOn : List (Bool × Event os) :=
  [(false, ⟨.epollCreate1, .ok 3⟩), (true, ⟨.epollCreate1, .ok 4⟩),
    (true, ⟨.reserve 0 0 64, ⟨64, WaitLoop.room_for_events⟩⟩),
    (false, ⟨.reserve 0 0 64, ⟨64, WaitLoop.room_for_events⟩⟩),
    (false, ⟨.pipe2 0o2004000, .error 24⟩), (false, ⟨.close 3, .ok ()⟩), (true, ⟨.pipe2 0o2004000, .ok (3, 5)⟩),
    (true, ⟨.fileActionsInit, .error 12⟩), (true, ⟨.close 3, .ok ()⟩), (true, ⟨.close 5, .ok ()⟩),
    (true, ⟨.close 4, .ok ()⟩)]

def handedOnOutcome : Bool → Outcome os (Except SysError Output)
  | false => .done (.error (.sys 24 "pipe2"))
  | true => .done (.error (.sys 12 "file_actions_init"))

theorem handed_on_apart :
    ∃ T : Table Nat, Apart {false, true} handedOnOutcome standardOnly handedOn T := by
  have runs : ∀ i ∈ ({false, true} : Finset Bool),
      Exec (spawn .linux capturing) (ofThread i handedOn) (handedOnOutcome i) := by
    intro i _
    cases i with
    | false => exact .of_replay 9 rfl
    | true => exact .of_replay 9 rfl
  have rest : ∀ T : Table Nat, Effects T ((handedOn.drop 7).map Prod.snd) (((T.close 3).close 5).close 4) := fun T =>
    .cons (.leaves rfl) (.cons .close (.cons .close (.cons .close (.nil _))))
  have first : standardOnly.Least 3 ∧ (standardOnly.install 3 ⟨100, true⟩).Least 4 := by decide
  have again : Table.Least (((standardOnly.install 3 ⟨100, true⟩).install 4 ⟨101, true⟩).close 3) 3 ∧
      Table.Least ((((standardOnly.install 3 ⟨100, true⟩).install 4 ⟨101, true⟩).close 3).install 3 ⟨102, true⟩) 5 := by
    decide
  refine ⟨_, @concurrent_spawns_keep_apart Nat Bool _ _ (fun _ => .linux) (fun _ => capturing) _ _ _ _ runs (by decide)
    (by simp [handedOn]) (.cons (.epollCreate1 first.1) (.cons (.epollCreate1 first.2) (.cons (.leaves rfl)
      (.cons (.leaves rfl) (.cons (.leaves rfl) (.cons .close (.cons (.pipe2 (g := 103) rfl again.1 again.2)
        (rest _))))))))⟩

end CoreShift
