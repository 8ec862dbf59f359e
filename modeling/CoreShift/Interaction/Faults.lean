import CoreShift.Interaction.Exec

namespace Interaction

variable {I : Interface} {α β γ : Type}

namespace Program

def Returns : {α : Type} → Program I α → (α → Prop) → Prop
  | _, .ret value, good => good value
  | _, .call _ next, good => ∀ answer, (next answer).Returns good
  | _, .loop _ _ next, good => ∀ result, (next result).Returns good

theorem Returns.bind {p : Program I α} {rest : α → Program I β} {good : β → Prop}
    (each : ∀ value, (rest value).Returns good) : (p >>= rest).Returns good := by
  induction p with
  | ret value => exact each value
  | call c next ih => exact fun answer => ih answer each
  | loop body start next _ ih => exact fun result => ih result each

end Program

theorem Exec.returns {p : Program I α} {good : α → Prop} {t value} (run : Exec p t (.done value))
    (returns : p.Returns good) : good value := by
  generalize same : Outcome.done value = o at run
  induction run with
  | ret _ => cases same; exact returns
  | waiting _ _ => cases same
  | call answer _ ih => exact ih (returns answer) same
  | inside _ => cases same
  | again _ _ _ ih => exact ih returns same
  | leave _ _ _ ih => exact ih (returns _) same

section
variable (fault : Event I → Prop) (cleanup : I.Call → Prop)

/-- The exchanges have one fault, and nothing but cleanup after it. -/
def Faulted (t : List (Event I)) : Prop :=
  ∃ before e after, t = before ++ e :: after ∧ (∀ e' ∈ before, ¬fault e') ∧ fault e ∧
    ∀ e' ∈ after, cleanup e'.call

/-- A completed run of the program has a fault exactly when its result says that it failed. -/
def FailsOn (failed : α → Prop) (p : Program I α) : Prop :=
  ∀ t value, Exec p t (.done value) →
    (failed value → Faulted fault cleanup t) ∧ (¬failed value → ∀ e ∈ t, ¬fault e)

end

section
variable {fault : Event I → Prop} {cleanup : I.Call → Prop} {failed : α → Prop} {failed' : β → Prop}

theorem Faulted.after {t t' : List (Event I)} (clean : ∀ e ∈ t, ¬fault e) (faulted : Faulted fault cleanup t') :
    Faulted fault cleanup (t ++ t') := by
  obtain ⟨before, e, after, rfl, quiet, fails, cleans⟩ := faulted
  refine ⟨t ++ before, e, after, by simp, fun e' member => ?_, fails, cleans⟩
  exact (List.mem_append.mp member).elim (clean e') (quiet e')

theorem Faulted.cleaned {t t' : List (Event I)} (faulted : Faulted fault cleanup t)
    (cleans : ∀ e ∈ t', cleanup e.call) : Faulted fault cleanup (t ++ t') := by
  obtain ⟨before, e, after, rfl, quiet, fails, cleaned⟩ := faulted
  refine ⟨before, e, after ++ t', by simp, quiet, fails, fun e' member => ?_⟩
  exact (List.mem_append.mp member).elim (cleaned e') (cleans e')

theorem failsOn_pure {value : α} (succeeds : ¬failed value) :
    FailsOn fault cleanup failed (pure value : Program I α) := by
  intro t value' run
  obtain ⟨rfl, same⟩ := (exec_pure_iff _ _ _).mp run
  cases same
  exact ⟨fun fails => absurd fails succeeds, fun _ => by simp⟩

theorem failsOn_ask {c : I.Call} {failed : I.Answer c → Prop} (same : ∀ answer, failed answer ↔ fault ⟨c, answer⟩) :
    FailsOn fault cleanup failed (Program.ask c) := by
  intro t answer run
  rw [exec_ask_done] at run
  subst run
  refine ⟨fun fails => ⟨[], _, [], rfl, by simp, (same answer).mp fails, by simp⟩, fun succeeds e member => ?_⟩
  rw [List.mem_singleton.mp member, ← same]
  exact succeeds

theorem failsOn_of_issues {allowed : I.Call → Prop} {p : Program I α} (issues : p.Issues allowed)
    (harmless : ∀ e : Event I, allowed e.call → ¬fault e) (succeeds : ∀ value, ¬failed value) :
    FailsOn fault cleanup failed p := by
  intro t value run
  refine ⟨fun fails => absurd fails (succeeds value), fun _ e member => ?_⟩
  exact harmless e ((run.issues issues).1 e member)

theorem FailsOn.bind {p : Program I α} {rest : α → Program I β} (first : FailsOn fault cleanup failed p)
    (goesOn : ∀ value, ¬failed value → FailsOn fault cleanup failed' (rest value))
    (cleans : ∀ value, failed value → (rest value).Issues cleanup)
    (fails : ∀ value, failed value → (rest value).Returns failed') :
    FailsOn fault cleanup failed' (p >>= rest) := by
  intro t result run
  obtain ⟨t₁, value, t₂, rfl, head, tail⟩ := exec_bind_done.mp run
  obtain ⟨faulted, clean⟩ := first t₁ value head
  by_cases here : failed value
  · have later := tail.returns (fails value here)
    refine ⟨fun _ => (faulted here).cleaned ?_, fun succeeds => absurd later succeeds⟩
    exact (tail.issues (cleans value here)).1
  · obtain ⟨faulted', clean'⟩ := goesOn value here t₂ result tail
    refine ⟨fun fails => (faulted' fails).after (clean here), fun succeeds e member => ?_⟩
    exact (List.mem_append.mp member).elim (clean here e) (clean' succeeds e)

theorem FailsOn.map {p : Program I α} {f : α → β} (first : FailsOn fault cleanup failed p)
    (same : ∀ t value, Exec p t (.done value) → (failed' (f value) ↔ failed value)) :
    FailsOn fault cleanup failed' (p >>= fun value => pure (f value)) := by
  intro t result run
  obtain ⟨t₁, value, t₂, rfl, head, tail⟩ := exec_bind_done.mp run
  obtain ⟨rfl, made⟩ := (exec_pure_iff _ _ _).mp tail
  cases made
  rw [List.append_nil, same t₁ value head]
  exact first t₁ value head

theorem FailsOn.iterate {body : β → Program I (β ⊕ γ)} {failed : γ → Prop} (start : β)
    (each : ∀ state, FailsOn fault cleanup (Sum.elim (fun _ => False) failed) (body state)) :
    FailsOn fault cleanup failed (Program.iterate body start) := by
  intro t result run
  obtain ⟨rounds, state, last, rfl, reached, finish⟩ := exec_iterate_done.mp run
  have clean : ∀ e ∈ rounds, ¬fault e := by
    clear finish run
    induction reached with
    | start => simp
    | next _ round ih =>
      intro e member
      exact (List.mem_append.mp member).elim (ih e) ((each _ _ _ round).2 not_false e)
  obtain ⟨faulted, quiet⟩ := each state last (.inr result) finish
  refine ⟨fun fails => (faulted fails).after clean, fun succeeds e member => ?_⟩
  exact (List.mem_append.mp member).elim (clean e) (quiet succeeds e)

theorem exec_retry_stops {c : I.Call} {again : I.Answer c → Bool} {t : List (Event I)} {answer : I.Answer c}
    (run : Exec (Program.retry c again) t (.done answer)) : again answer = false := by
  obtain ⟨refused, all, finish⟩ := exec_retry_cases run
  rcases finish with ⟨_, impossible⟩ | ⟨answer', stops, _, same⟩
  · cases impossible
  · cases same
    exact stops

theorem failsOn_retry {c : I.Call} {again : I.Answer c → Bool}
    (harmless : ∀ answer, again answer = true → ¬fault ⟨c, answer⟩) :
    FailsOn fault cleanup (fun answer => fault ⟨c, answer⟩) (Program.retry c again) := by
  refine .iterate () fun _ t result run => ?_
  obtain ⟨t₁, answer, t₂, rfl, asked, rest⟩ := exec_bind_done.mp run
  rw [exec_ask_done] at asked
  obtain ⟨rfl, same⟩ := (exec_pure_iff _ _ _).mp rest
  rw [asked]
  cases repeats : again answer <;> simp only [repeats, Bool.false_eq_true, ↓reduceIte, Outcome.done.injEq] at same
  · rw [same]
    refine ⟨fun fails => ⟨[], _, [], rfl, by simp, fails, by simp⟩, fun succeeds e member => ?_⟩
    rw [List.append_nil, List.mem_singleton] at member
    rw [member]
    exact succeeds
  · rw [same]
    refine ⟨fun fails => fails.elim, fun _ e member => ?_⟩
    rw [List.append_nil, List.mem_singleton] at member
    rw [member]
    exact harmless answer repeats

end

def FailsFor (blame : Event I → Prop) (failed : α → Prop) (p : Program I α) : Prop :=
  ∀ t value, Exec p t (.done value) → failed value → ∃ e ∈ t, blame e

section
variable {blame : Event I → Prop} {failed : α → Prop} {failed' : β → Prop}

theorem failsFor_of_returns {p : Program I α} (succeeds : p.Returns (¬failed ·)) : FailsFor blame failed p :=
  fun _ _ run fails => absurd fails (run.returns succeeds)

theorem failsFor_ask {c : I.Call} : FailsFor blame (fun answer => blame ⟨c, answer⟩) (Program.ask c) := by
  intro t answer run fails
  rw [exec_ask_done] at run
  exact ⟨_, by rw [run]; exact List.mem_singleton_self _, fails⟩

theorem FailsFor.mono {blame' : Event I → Prop} {p : Program I α} (fails : FailsFor blame failed p)
    (weaker : ∀ e, blame e → blame' e) : FailsFor blame' failed p := by
  intro t value run failure
  obtain ⟨e, member, blamed⟩ := fails t value run failure
  exact ⟨e, member, weaker e blamed⟩

theorem FailsFor.bind {p : Program I α} {rest : α → Program I β} (first : FailsFor blame failed p)
    (goesOn : ∀ value, ¬failed value → FailsFor blame failed' (rest value)) : FailsFor blame failed' (p >>= rest) := by
  intro t result run fails
  obtain ⟨t₁, value, t₂, rfl, head, tail⟩ := exec_bind_done.mp run
  by_cases here : failed value
  · obtain ⟨e, member, blamed⟩ := first t₁ value head here
    exact ⟨e, List.mem_append_left _ member, blamed⟩
  · obtain ⟨e, member, blamed⟩ := goesOn value here t₂ result tail fails
    exact ⟨e, List.mem_append_right _ member, blamed⟩

theorem FailsOn.failsFor {fault : Event I → Prop} {cleanup : I.Call → Prop} {p : Program I α}
    (sound : FailsOn fault cleanup failed p) (blames : ∀ e, fault e → blame e) : FailsFor blame failed p := by
  intro t value run fails
  obtain ⟨before, e, after, rfl, -, fault, -⟩ := (sound t value run).1 fails
  exact ⟨e, List.mem_append_right _ (List.mem_cons_self ..), blames e fault⟩

end

end Interaction
