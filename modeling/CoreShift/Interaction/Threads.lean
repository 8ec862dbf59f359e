import CoreShift.Interaction.Borrowing
import Mathlib.Algebra.BigOperators.Group.Finset.Piecewise

namespace Interaction

section
variable {ι E : Type} [DecidableEq ι]

def ofThread (i : ι) (h : List (ι × E)) : List E := h.filterMap fun x => if x.1 = i then some x.2 else none

@[simp] theorem ofThread_nil (i : ι) : ofThread i ([] : List (ι × E)) = [] := rfl

theorem ofThread_self (i : ι) (e : E) (h : List (ι × E)) : ofThread i ((i, e) :: h) = e :: ofThread i h := by
  simp [ofThread]

theorem ofThread_other {i j : ι} (other : j ≠ i) (e : E) (h : List (ι × E)) :
    ofThread i ((j, e) :: h) = ofThread i h := by
  simp [ofThread, other]

theorem mem_of_thread {i : ι} {e : E} {h : List (ι × E)} (member : e ∈ ofThread i h) : (i, e) ∈ h := by
  obtain ⟨x, inside, own⟩ := List.mem_filterMap.mp member
  split at own
  · rename_i same
    cases own
    rw [← same]
    exact inside
  · cases own

end

namespace Custody

variable {I : Interface} {R S ι : Type} [DecidableEq ι]

/-- The world goes along with what is held in it: each resource is there once, gone when it is given back, and
    new when it is made. -/
structure Backs (C : Custody I R) (holds : Multiset R → S → Prop) (runs : S → List (Event I) → S → Prop) : Prop where
  nodup : ∀ {held s}, holds held s → held.Nodup
  stop : ∀ {held s s'}, holds held s → runs s [] s' → holds held s'
  step : ∀ {held e t s s'}, ¬C.foreign e → holds (C.returned e + held) s → runs s (e :: t) s' →
    ∃ s₁, holds (held + C.created e) s₁ ∧ runs s₁ t s'

/-- The thread itself has made the resource, and no thread has given it back since. -/
def Since (C : Custody I R) (past : List (ι × Event I)) (i : ι) (r : R) : Prop :=
  ∃ before e after, past = before ++ (i, e) :: after ∧ r ∈ C.created e ∧ ∀ x ∈ after, r ∉ C.returned x.2

variable {C : Custody I R} {named : I.Call → Multiset R} {holds : Multiset R → S → Prop}
  {runs : S → List (Event I) → S → Prop} {past h : List (ι × Event I)} {held held' : ι → Multiset R}
  {threads : Finset ι} {s s' : S} {i : ι} {r : R}

omit [DecidableEq ι] in
theorem since_now (past : List (ι × Event I)) (i : ι) {e : Event I} (made : r ∈ C.created e) :
    C.Since (past ++ [(i, e)]) i r :=
  ⟨past, e, [], rfl, made, by simp⟩

omit [DecidableEq ι] in
theorem Since.later {x : ι × Event I} (since : C.Since past i r) (kept : r ∉ C.returned x.2) :
    C.Since (past ++ [x]) i r := by
  obtain ⟨before, e, after, same, made, none⟩ := since
  refine ⟨before, e, after ++ [x], ?_, made, fun y member => ?_⟩
  · rw [same, List.append_assoc]
    rfl
  · rcases List.mem_append.mp member with inside | last
    · exact none y inside
    · rw [List.mem_singleton.mp last]
      exact kept

theorem Ledger.of_nil {start final : Multiset R} (ledger : C.Ledger start [] final) : final = start := by
  cases ledger
  rfl

theorem Ledger.cons_lending {start final : Multiset R} {e : Event I} {t : List (Event I)}
    (ledger : (C.lending named).Ledger start (e :: t) final) :
    ¬C.foreign e ∧ ∃ rest, start = C.returned e + (named e.call + rest) ∧
      (C.lending named).Ledger (named e.call + rest + C.created e) t final := by
  cases ledger with
  | @cons rest _ _ _ known later =>
    have after : rest + (C.created e + named e.call) = named e.call + rest + C.created e := by
      rw [add_comm (C.created e), ← add_assoc, add_comm rest]
    have kept : (C.lending named).Ledger (rest + (C.created e + named e.call)) t final := later
    rw [after] at kept
    exact ⟨known, rest, add_assoc _ _ _, kept⟩

/-- Threads that each keep their own account share one world, however they are interleaved: together they
    account for it, and none gives back or names what it has not made itself. -/
theorem Backs.share (backs : C.Backs holds runs)
    (ledgers : ∀ i ∈ threads, (C.lending named).Ledger (held i) (ofThread i h) (held' i))
    (inside : ∀ x ∈ h, x.1 ∈ threads) (now : holds (∑ i ∈ threads, held i) s) (run : runs s (h.map Prod.snd) s')
    (since : ∀ i ∈ threads, ∀ r ∈ held i, C.Since past i r) :
    holds (∑ i ∈ threads, held' i) s' ∧ ∀ h₁ i e h₂, h = h₁ ++ (i, e) :: h₂ →
      ∀ r ∈ C.returned e + named e.call, C.Since (past ++ h₁) i r ∧ ∃ all s₁, holds all s₁ ∧ r ∈ all := by
  induction h generalizing past held s with
  | nil =>
    have same : ∑ i ∈ threads, held' i = ∑ i ∈ threads, held i :=
      Finset.sum_congr rfl fun i member => (ledgers i member).of_nil
    rw [same]
    exact ⟨backs.stop now run, fun h₁ i e h₂ split => by simp at split⟩
  | cons x h ih =>
    obtain ⟨j, e⟩ := x
    have own : j ∈ threads := inside (j, e) (List.mem_cons_self ..)
    have first := ledgers j own
    rw [ofThread_self] at first
    obtain ⟨known, rest, before, later⟩ := first.cons_lending
    have start := now
    have total : ∑ i ∈ threads, held i = C.returned e + (named e.call + rest + ∑ i ∈ threads \ {j}, held i) := by
      rw [← Finset.add_sum_erase threads held own, Finset.sdiff_singleton_eq_erase, before, add_assoc]
    rw [total] at now
    have apart := (Multiset.nodup_add.mp (backs.nodup now)).2.2
    obtain ⟨s₁, now₁, run₁⟩ := backs.step known now run
    have kept : ∀ r ∈ named e.call + rest + ∑ i ∈ threads \ {j}, held i, r ∉ C.returned e :=
      fun r member gone => Multiset.disjoint_left.mp apart gone member
    -- what the threads hold after the step
    have after : ∑ i ∈ threads, Function.update held j (named e.call + rest + C.created e) i =
        named e.call + rest + (∑ i ∈ threads \ {j}, held i) + C.created e := by
      rw [Finset.sum_update_of_mem own, add_right_comm]
    rw [← after] at now₁
    have mine : ∀ r, r ∈ named e.call + rest → r ∈ held j := by
      intro r member
      rw [before]
      exact Multiset.mem_add.mpr (.inr member)
    have others : ∀ i ∈ threads, i ≠ j → ∀ r ∈ held i, r ∈ ∑ i ∈ threads \ {j}, held i := by
      intro i member other r has
      apply Multiset.mem_sum.mpr
      exact ⟨i, Finset.mem_sdiff.mpr ⟨member, by simpa using other⟩, has⟩
    have accounts : ∀ i ∈ threads, (C.lending named).Ledger
        (Function.update held j (named e.call + rest + C.created e) i) (ofThread i h) (held' i) := by
      intro i member
      by_cases same : i = j
      · rw [same, Function.update_self]
        exact later
      · have own := ledgers i member
        rw [ofThread_other (Ne.symm same)] at own
        rwa [Function.update_of_ne same]
    have since' : ∀ i ∈ threads, ∀ r ∈ Function.update held j (named e.call + rest + C.created e) i,
        C.Since (past ++ [(j, e)]) i r := by
      intro i member r has
      by_cases same : i = j
      · rw [same, Function.update_self] at has
        rw [same]
        rcases Multiset.mem_add.mp has with old | made
        · exact (since j own r (mine r old)).later (kept r (Multiset.mem_add.mpr (.inl old)))
        · exact since_now past j made
      · rw [Function.update_of_ne same] at has
        have part := others i member same r has
        exact (since i member r has).later (kept r (Multiset.mem_add.mpr (.inr part)))
    obtain ⟨final, found⟩ := ih accounts (fun x member => inside x (by simp [member])) now₁ run₁ since'
    refine ⟨final, fun h₁ i e' h₂ split r given => ?_⟩
    cases h₁ with
    | nil =>
      obtain ⟨same, _⟩ := List.cons_eq_cons.mp split
      cases same
      have has : r ∈ held j := by
        rw [before, ← add_assoc]
        exact Multiset.mem_add.mpr (.inl given)
      refine ⟨?_, _, s, start, Multiset.mem_sum.mpr ⟨j, own, has⟩⟩
      rw [List.append_nil]
      exact since j own r has
    | cons y h₁ =>
      obtain ⟨same, tail⟩ := List.cons_eq_cons.mp split
      have there := found h₁ i e' h₂ tail r given
      rwa [List.append_assoc, List.singleton_append, same] at there

end Custody

end Interaction
