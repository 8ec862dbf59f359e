import CoreShift.Interaction.Program

namespace Interaction

structure Event (I : Interface) where
  call : I.Call
  answer : I.Answer call

inductive Outcome (I : Interface) (α : Type) where
  | done (value : α)
  | waiting (c : I.Call)

def Outcome.pending {I : Interface} {α : Type} : Outcome I α → Option I.Call
  | .done _ => none
  | .waiting c => some c

/-- `Exec p t o`: after the exchanges `t`, in this order, the program `p` stands at `o`. The
    environment may give any answers; what it is assumed to do is stated of `t`. -/
inductive Exec {I : Interface} :
    {α : Type} → Program I α → List (Event I) → Outcome I α → Prop where
  | ret {α : Type} (value : α) : Exec (.ret value) [] (.done value)
  | waiting {α : Type} (c : I.Call) (next : I.Answer c → Program I α) :
      Exec (.call c next) [] (.waiting c)
  | call {α : Type} {c : I.Call} {next : I.Answer c → Program I α} (answer : I.Answer c) {t o} :
      Exec (next answer) t o → Exec (.call c next) (⟨c, answer⟩ :: t) o
  | inside {α β γ : Type} {body : β → Program I (β ⊕ γ)} {start : β} {next : γ → Program I α} {t c} :
      Exec (body start) t (.waiting c) → Exec (.loop body start next) t (.waiting c)
  | again {α β γ : Type} {body : β → Program I (β ⊕ γ)} {start following : β}
      {next : γ → Program I α} {t t' o} :
      Exec (body start) t (.done (.inl following)) → Exec (.loop body following next) t' o →
      Exec (.loop body start next) (t ++ t') o
  | leave {α β γ : Type} {body : β → Program I (β ⊕ γ)} {start : β} {result : γ}
      {next : γ → Program I α} {t t' o} :
      Exec (body start) t (.done (.inr result)) → Exec (next result) t' o →
      Exec (.loop body start next) (t ++ t') o

variable {I : Interface} {α β γ : Type}

@[simp] theorem exec_pure_iff (value : α) (t : List (Event I)) (o : Outcome I α) :
    Exec (pure value : Program I α) t o ↔ t = [] ∧ o = .done value := by
  constructor
  · intro run
    cases run
    exact ⟨rfl, rfl⟩
  · rintro ⟨rfl, rfl⟩
    exact .ret value

theorem exec_call_iff {c : I.Call} {next : I.Answer c → Program I α} {t o} :
    Exec (.call c next) t o ↔
      (t = [] ∧ o = .waiting c) ∨ ∃ answer t', t = ⟨c, answer⟩ :: t' ∧ Exec (next answer) t' o := by
  constructor
  · intro run
    cases run with
    | waiting => exact .inl ⟨rfl, rfl⟩
    | call answer run => exact .inr ⟨_, _, rfl, run⟩
  · rintro (⟨rfl, rfl⟩ | ⟨answer, t', rfl, run⟩)
    · exact .waiting _ _
    · exact .call answer run

@[simp] theorem exec_ask_done (c : I.Call) (t : List (Event I)) (answer : I.Answer c) :
    Exec (Program.ask c) t (.done answer) ↔ t = [⟨c, answer⟩] := by
  unfold Program.ask
  rw [exec_call_iff]
  constructor
  · rintro (⟨_, impossible⟩ | ⟨given, t', rfl, run⟩)
    · cases impossible
    · cases run
      rfl
  · rintro rfl
    exact .inr ⟨answer, [], rfl, .ret answer⟩

theorem Exec.asked {c : I.Call} {answer : I.Answer c} {rest : I.Answer c → Program I α} {t o}
    (run : Exec (rest answer) t o) : Exec (Program.ask c >>= rest) (⟨c, answer⟩ :: t) o := .call answer run

theorem Exec.ask_cases {c : I.Call} {rest : I.Answer c → Program I α} {t o}
    (run : Exec (Program.ask c >>= rest) t o) :
    (t = [] ∧ o = .waiting c) ∨ ∃ answer t', t = ⟨c, answer⟩ :: t' ∧ Exec (rest answer) t' o :=
  exec_call_iff.mp run

theorem Exec.ask_done {c : I.Call} {rest : I.Answer c → Program I α} {t value}
    (run : Exec (Program.ask c >>= rest) t (.done value)) :
    ∃ answer t', t = ⟨c, answer⟩ :: t' ∧ Exec (rest answer) t' (.done value) := by
  rcases run.ask_cases with ⟨_, impossible⟩ | answered
  · cases impossible
  · exact answered

@[simp] theorem exec_ask_waiting (c c' : I.Call) (t : List (Event I)) :
    Exec (Program.ask c) t (.waiting c') ↔ t = [] ∧ c' = c := by
  unfold Program.ask
  rw [exec_call_iff]
  constructor
  · rintro (⟨rfl, same⟩ | ⟨given, t', rfl, run⟩)
    · cases same
      exact ⟨rfl, rfl⟩
    · cases run
  · rintro ⟨rfl, rfl⟩
    exact .inl ⟨rfl, rfl⟩

theorem Exec.bind_done {p : Program I α} {rest : α → Program I β} {t t' value o}
    (first : Exec p t (.done value)) (second : Exec (rest value) t' o) :
    Exec (p >>= rest) (t ++ t') o := by
  generalize same : Outcome.done value = at_ at first
  induction first with
  | ret value => cases same; exact second
  | waiting c next => cases same
  | call answer _ ih => exact .call answer (ih second same)
  | inside _ => cases same
  | again head _ _ ih =>
    rw [List.append_assoc]
    exact .again head (ih second same)
  | leave head _ _ ih =>
    rw [List.append_assoc]
    exact .leave head (ih second same)

theorem Exec.bind_waiting {p : Program I α} {rest : α → Program I β} {t c}
    (first : Exec p t (.waiting c)) : Exec (p >>= rest) t (.waiting c) := by
  generalize same : Outcome.waiting c = at_ at first
  induction first with
  | ret value => cases same
  | waiting c' next => cases same; exact .waiting _ _
  | call answer _ ih => exact .call answer (ih same)
  | inside head => cases same; exact .inside head
  | again head _ _ ih => exact .again head (ih same)
  | leave head _ _ ih => exact .leave head (ih same)

theorem exec_bind_cases {p : Program I α} {rest : α → Program I β} {t o}
    (run : Exec (p >>= rest) t o) :
    (∃ c, o = .waiting c ∧ Exec p t (.waiting c)) ∨
      ∃ first value second, t = first ++ second ∧ Exec p first (.done value) ∧
        Exec (rest value) second o := by
  induction p generalizing t o with
  | ret value => exact .inr ⟨[], value, t, rfl, .ret value, run⟩
  | call c next ih =>
    rcases exec_call_iff.mp run with ⟨rfl, rfl⟩ | ⟨answer, t', rfl, tail⟩
    · exact .inl ⟨c, rfl, .waiting _ _⟩
    · rcases ih answer tail with ⟨c', rfl, stopped⟩ | ⟨first, value, second, rfl, whole, after⟩
      · exact .inl ⟨c', rfl, .call answer stopped⟩
      · exact .inr ⟨_, value, second, rfl, .call answer whole, after⟩
  | @loop α δ γ body start next inner ih =>
    change Exec (.loop body start fun result => next result >>= rest) t o at run
    generalize same : Program.loop body start (fun result => next result >>= rest) = q at run
    induction run generalizing start with
    | ret value => cases same
    | waiting c next => cases same
    | call answer _ _ => cases same
    | inside head => cases same; exact .inl ⟨_, rfl, .inside head⟩
    | @again _ _ _ _ _ _ _ t t' o head tail _ again =>
      cases same
      rcases again _ inner ih rfl with ⟨c, rfl, stopped⟩ | ⟨first, value, second, rfl, whole, after⟩
      · exact .inl ⟨c, rfl, .again head stopped⟩
      · exact .inr ⟨t ++ first, value, second, (List.append_assoc ..).symm, .again head whole, after⟩
    | @leave _ _ _ _ _ result _ t t' o head tail _ _ =>
      cases same
      rcases ih result tail with ⟨c, rfl, stopped⟩ | ⟨first, value, second, rfl, whole, after⟩
      · exact .inl ⟨c, rfl, .leave head stopped⟩
      · exact .inr ⟨t ++ first, value, second, (List.append_assoc ..).symm, .leave head whole, after⟩

theorem exec_bind_done {p : Program I α} {rest : α → Program I β} {t value} :
    Exec (p >>= rest) t (.done value) ↔
      ∃ first middle second, t = first ++ second ∧ Exec p first (.done middle) ∧
        Exec (rest middle) second (.done value) := by
  constructor
  · intro run
    rcases exec_bind_cases run with ⟨c, impossible, _⟩ | split
    · cases impossible
    · exact split
  · rintro ⟨first, middle, second, rfl, head, tail⟩
    exact head.bind_done tail

theorem exec_bind_waiting {p : Program I α} {rest : α → Program I β} {t c} :
    Exec (p >>= rest) t (.waiting c) ↔
      Exec p t (.waiting c) ∨ ∃ first middle second, t = first ++ second ∧
        Exec p first (.done middle) ∧ Exec (rest middle) second (.waiting c) := by
  constructor
  · intro run
    rcases exec_bind_cases run with ⟨c', same, stopped⟩ | split
    · cases same
      exact .inl stopped
    · exact .inr split
  · rintro (stopped | ⟨first, middle, second, rfl, head, tail⟩)
    · exact stopped.bind_waiting
    · exact head.bind_done tail

inductive Iterates (body : β → Program I (β ⊕ γ)) (start : β) : List (Event I) → β → Prop where
  | start : Iterates body start [] start
  | next {t t' state following} : Iterates body start t state →
      Exec (body state) t' (.done (.inl following)) → Iterates body start (t ++ t') following

theorem Iterates.first {body : β → Program I (β ⊕ γ)} {start following state : β} {t t'}
    (round : Exec (body start) t (.done (.inl following))) (rest : Iterates body following t' state) :
    Iterates body start (t ++ t') state := by
  induction rest with
  | start => simpa using Iterates.next .start round
  | next _ last ih =>
    rw [← List.append_assoc]
    exact .next ih last

theorem Iterates.exec {body : β → Program I (β ⊕ γ)} {start state : β} {t t' o}
    (rounds : Iterates body start t state) (rest : Exec (Program.iterate body state) t' o) :
    Exec (Program.iterate body start) (t ++ t') o := by
  induction rounds generalizing t' with
  | start => exact rest
  | next _ round ih =>
    rw [List.append_assoc]
    exact ih (.again round rest)

theorem exec_iterate_cases {body : β → Program I (β ⊕ γ)} {start : β} {t o}
    (run : Exec (Program.iterate body start) t o) :
    ∃ rounds state last, t = rounds ++ last ∧ Iterates body start rounds state ∧
      ((∃ c, o = .waiting c ∧ Exec (body state) last (.waiting c)) ∨
        ∃ result, o = .done result ∧ Exec (body state) last (.done (.inr result))) := by
  generalize same : Program.iterate body start = p at run
  induction run generalizing start with
  | ret value => cases same
  | waiting c next => cases same
  | call answer _ _ => cases same
  | inside head => cases same; exact ⟨[], start, _, rfl, .start, .inl ⟨_, rfl, head⟩⟩
  | again head _ _ ih =>
    cases same
    obtain ⟨rounds, state, last, rfl, reached, finish⟩ := ih rfl
    exact ⟨_, state, last, (List.append_assoc ..).symm, .first head reached, finish⟩
  | leave head tail _ _ =>
    cases same
    cases tail
    exact ⟨[], start, _, by simp, .start, .inr ⟨_, rfl, head⟩⟩

theorem exec_iterate_done {body : β → Program I (β ⊕ γ)} {start : β} {t result} :
    Exec (Program.iterate body start) t (.done result) ↔
      ∃ rounds state last, t = rounds ++ last ∧ Iterates body start rounds state ∧
        Exec (body state) last (.done (.inr result)) := by
  constructor
  · intro run
    obtain ⟨rounds, state, last, split, reached, ⟨c, impossible, _⟩ | ⟨value, same, finish⟩⟩ :=
      exec_iterate_cases run
    · cases impossible
    · cases same
      exact ⟨rounds, state, last, split, reached, finish⟩
  · rintro ⟨rounds, state, last, rfl, reached, finish⟩
    exact reached.exec (by simpa [Program.iterate] using Exec.leave finish (.ret result))

theorem exec_iterate_waiting {body : β → Program I (β ⊕ γ)} {start : β} {t c} :
    Exec (Program.iterate body start) t (.waiting c) ↔
      ∃ rounds state last, t = rounds ++ last ∧ Iterates body start rounds state ∧
        Exec (body state) last (.waiting c) := by
  constructor
  · intro run
    obtain ⟨rounds, state, last, split, reached, ⟨c', same, stopped⟩ | ⟨value, impossible, _⟩⟩ :=
      exec_iterate_cases run
    · cases same
      exact ⟨rounds, state, last, split, reached, stopped⟩
    · cases impossible
  · rintro ⟨rounds, state, last, rfl, reached, stopped⟩
    exact reached.exec (.inside stopped)

theorem exec_retry_round {c : I.Call} {again : I.Answer c → Bool} {t o}
    (round : Exec (do
      let answer ← Program.ask c
      return if again answer then .inl () else .inr answer : Program I (Unit ⊕ I.Answer c)) t o) :
    (t = [] ∧ o = .waiting c) ∨ ∃ answer, t = [⟨c, answer⟩] ∧
      o = .done (if again answer then .inl () else .inr answer) := by
  rcases exec_bind_cases round with ⟨c', rfl, stopped⟩ | ⟨first, answer, second, rfl, asked, returned⟩
  · obtain ⟨rfl, rfl⟩ := (exec_ask_waiting _ _ _).mp stopped
    exact .inl ⟨rfl, rfl⟩
  · rw [exec_ask_done] at asked
    obtain ⟨rfl, rfl⟩ := (exec_pure_iff _ _ _).mp returned
    subst asked
    exact .inr ⟨answer, rfl, rfl⟩

theorem exec_retry_cases {c : I.Call} {again : I.Answer c → Bool} {t o}
    (run : Exec (Program.retry c again) t o) :
    ∃ refused : List (I.Answer c), (∀ answer ∈ refused, again answer = true) ∧
      ((t = refused.map (⟨c, ·⟩) ∧ o = .waiting c) ∨
        ∃ answer, again answer = false ∧ t = refused.map (⟨c, ·⟩) ++ [⟨c, answer⟩] ∧ o = .done answer) := by
  obtain ⟨rounds, state, last, rfl, reached, finish⟩ := exec_iterate_cases run
  have before : ∃ refused : List (I.Answer c), (∀ answer ∈ refused, again answer = true) ∧
      rounds = refused.map (⟨c, ·⟩) := by
    clear run finish
    induction reached with
    | start => exact ⟨[], by simp, rfl⟩
    | next _ round ih =>
      obtain ⟨refused, all, rfl⟩ := ih
      rcases exec_retry_round round with ⟨_, impossible⟩ | ⟨answer, rfl, outcome⟩
      · cases impossible
      · have repeated : again answer = true := by
          cases refusal : again answer
          · simp [refusal] at outcome
          · rfl
        refine ⟨refused ++ [answer], ?_, by simp⟩
        intro given member
        rcases List.mem_append.mp member with member | member
        · exact all given member
        · rwa [List.mem_singleton.mp member]
  obtain ⟨refused, all, rfl⟩ := before
  refine ⟨refused, all, ?_⟩
  rcases finish with ⟨c', rfl, stopped⟩ | ⟨result, rfl, finish⟩
  · rcases exec_retry_round stopped with ⟨rfl, same⟩ | ⟨answer, _, impossible⟩
    · cases same
      exact .inl ⟨by simp, rfl⟩
    · cases impossible
  · rcases exec_retry_round finish with ⟨_, impossible⟩ | ⟨answer, rfl, outcome⟩
    · cases impossible
    · cases refusal : again answer
      · simp only [refusal, Bool.false_eq_true, ↓reduceIte, Outcome.done.injEq, Sum.inr.injEq] at outcome
        subst outcome
        exact .inr ⟨result, refusal, rfl, rfl⟩
      · simp [refusal] at outcome

theorem exec_retry_single {c : I.Call} {again : I.Answer c → Bool} {refusal : I.Answer c} {t o}
    (single : ∀ answer, again answer = true → answer = refusal)
    (run : Exec (Program.retry c again) t o) :
    ∃ k, (t = List.replicate k ⟨c, refusal⟩ ∧ o = .waiting c) ∨
      ∃ answer, again answer = false ∧
        t = List.replicate k ⟨c, refusal⟩ ++ [⟨c, answer⟩] ∧ o = .done answer := by
  obtain ⟨refused, all, finish⟩ := exec_retry_cases run
  have same : refused = List.replicate refused.length refusal :=
    List.eq_replicate_iff.mpr ⟨rfl, fun answer member => single answer (all answer member)⟩
  rw [same, List.map_replicate] at finish
  exact ⟨refused.length, finish⟩

theorem exec_retry_map {c : I.Call} {again : I.Answer c → Bool} {refusal : I.Answer c} {f : I.Answer c → α}
    {t o} (single : ∀ answer, again answer = true → answer = refusal)
    (run : Exec (Program.retry c again >>= fun answer => pure (f answer)) t o) :
    ∃ k, (t = List.replicate k ⟨c, refusal⟩ ∧ o = .waiting c) ∨
      ∃ answer, again answer = false ∧
        t = List.replicate k ⟨c, refusal⟩ ++ [⟨c, answer⟩] ∧ o = .done (f answer) := by
  rcases exec_bind_cases run with ⟨c', rfl, stopped⟩ | ⟨first, value, second, rfl, asked, rest⟩
  · obtain ⟨k, ⟨rfl, same⟩ | ⟨_, _, _, impossible⟩⟩ := exec_retry_single single stopped
    · cases same
      exact ⟨k, .inl ⟨rfl, rfl⟩⟩
    · cases impossible
  · obtain ⟨k, ⟨_, impossible⟩ | ⟨answer, stops, rfl, same⟩⟩ := exec_retry_single single asked
    · cases impossible
    · cases same
      obtain ⟨rfl, rfl⟩ := (exec_pure_iff _ _ _).mp rest
      exact ⟨k, .inr ⟨value, stops, by simp, rfl⟩⟩

theorem Exec.issues {allowed : I.Call → Prop} {p : Program I α} {t o}
    (run : Exec p t o) (permitted : p.Issues allowed) :
    (∀ e ∈ t, allowed e.call) ∧ ∀ c, o = .waiting c → allowed c := by
  induction run with
  | ret value => exact ⟨by simp, by simp⟩
  | waiting c next => exact ⟨by simp, by rintro _ ⟨⟩; exact permitted.1⟩
  | call answer _ ih =>
    obtain ⟨events, waits⟩ := ih (permitted.2 _)
    exact ⟨by simpa using ⟨permitted.1, events⟩, waits⟩
  | inside _ ih =>
    obtain ⟨events, waits⟩ := ih (permitted.1 _)
    exact ⟨events, by rintro _ ⟨⟩; exact waits _ rfl⟩
  | again _ _ first second =>
    have head := first (permitted.1 _)
    have tail := second permitted
    exact ⟨by simpa [or_imp, forall_and] using ⟨head.1, tail.1⟩, tail.2⟩
  | leave _ _ first second =>
    have head := first (permitted.1 _)
    have tail := second (permitted.2 _)
    exact ⟨by simpa [or_imp, forall_and] using ⟨head.1, tail.1⟩, tail.2⟩

theorem Exec.before {p : Program I α} {t t' u : List (Event I)} {e : Event I} {o} (run : Exec p u o)
    (split : u = t ++ e :: t') : Exec p t (.waiting e.call) := by
  induction run generalizing t t' with
  | ret value => simp at split
  | waiting c next => simp at split
  | call answer later ih =>
    cases t with
    | nil =>
      cases (List.cons_eq_cons.mp split).1
      exact .waiting _ _
    | cons e' t =>
      obtain ⟨same, rest⟩ := List.cons_eq_cons.mp split
      subst same
      exact .call answer (ih rest)
  | inside _ ih => exact .inside (ih split)
  | again head tail first second =>
    rcases List.append_eq_append_iff.mp split with ⟨middle, rfl, rest⟩ | ⟨middle, rfl, rest⟩
    · exact .again head (second rest)
    · cases middle with
      | nil =>
        rw [List.append_nil] at head
        simpa using Exec.again head (second (t := []) rest.symm)
      | cons e' middle =>
        cases (List.cons_eq_cons.mp rest).1
        exact .inside (first rfl)
  | leave head tail first second =>
    rcases List.append_eq_append_iff.mp split with ⟨middle, rfl, rest⟩ | ⟨middle, rfl, rest⟩
    · exact .leave head (second rest)
    · cases middle with
      | nil =>
        rw [List.append_nil] at head
        simpa using Exec.leave head (second (t := []) rest.symm)
      | cons e' middle =>
        cases (List.cons_eq_cons.mp rest).1
        exact .inside (first rfl)

theorem Exec.within {p : Program I α} {n : Nat} {t o} (run : Exec p t o) (bounded : p.Within n) :
    t.length ≤ n := by
  induction run generalizing n with
  | ret value => exact Nat.zero_le _
  | waiting c next => exact Nat.zero_le _
  | call answer _ ih =>
    obtain ⟨n, rfl, each⟩ := bounded
    exact Nat.succ_le_succ (ih (each _))
  | inside _ => exact bounded.elim
  | again _ _ => exact bounded.elim
  | leave _ _ => exact bounded.elim

theorem Exec.straight {p : Program I α} {calls : List I.Call} {t value} (run : Exec p t (.done value))
    (straight : p.Straight calls) : t.map Event.call = calls := by
  generalize same : Outcome.done value = o at run
  induction run generalizing calls with
  | ret _ => exact straight.symm
  | waiting _ _ => cases same
  | call answer _ ih =>
    obtain ⟨later, rfl, each⟩ := straight
    rw [List.map_cons, ih (each answer) same]
  | inside _ => cases same
  | again | leave => exact straight.elim

theorem Exec.straight_waiting {p : Program I α} {calls : List I.Call} {t c} (run : Exec p t (.waiting c))
    (straight : p.Straight calls) : c ∈ calls := by
  generalize same : Outcome.waiting c = o at run
  induction run generalizing calls with
  | ret _ => cases same
  | waiting c' _ =>
    obtain ⟨later, rfl, -⟩ := straight
    cases same
    exact List.mem_cons_self ..
  | call answer _ ih =>
    obtain ⟨later, rfl, each⟩ := straight
    exact List.mem_cons_of_mem _ (ih (each answer) same)
  | inside _ => exact straight.elim
  | again | leave => exact straight.elim

theorem Exec.past {p : Program I α} {rest : α → Program I β} {calls : List I.Call} {t c}
    (run : Exec (p >>= rest) t (.waiting c)) (straight : p.Straight calls) (other : c ∉ calls) :
    ∃ t₁ value t₂, t = t₁ ++ t₂ ∧ t₁.map Event.call = calls ∧ Exec (rest value) t₂ (.waiting c) := by
  rcases exec_bind_waiting.mp run with stopped | ⟨first, value, second, split, head, tail⟩
  · exact absurd (stopped.straight_waiting straight) other
  · exact ⟨first, value, second, split, head.straight straight, tail⟩

end Interaction
