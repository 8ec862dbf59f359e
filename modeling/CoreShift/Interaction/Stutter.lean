import CoreShift.Interaction.Unique

/-! Exchanges that a program answers with the same call again, such as an interrupted one. Such a
program does not care how many of them there are. -/

namespace Interaction

variable {I : Interface} {α β γ : Type} {skip : Event I → Bool}

def visible (skip : Event I → Bool) (t : List (Event I)) : List (Event I) := t.filter fun e => !skip e

theorem visible_append (t t' : List (Event I)) : visible skip (t ++ t') = visible skip t ++ visible skip t' :=
  List.filter_append ..

def nextCall (pending : Option I.Call) : List (Event I) → Option I.Call
  | [] => pending
  | e :: _ => some e.call

/-- `t'` is `t` with some exchanges of `skip` put in, each before one with its own call. -/
inductive Delayed (skip : Event I → Bool) (pending : Option I.Call) : List (Event I) → List (Event I) → Prop where
  | done : Delayed skip pending [] []
  | keep (e : Event I) {t t' : List (Event I)} (rest : Delayed skip pending t t') :
      Delayed skip pending (e :: t) (e :: t')
  | put {e : Event I} {t t' : List (Event I)} (skipped : skip e = true) (next : nextCall pending t = some e.call)
      (rest : Delayed skip pending t t') : Delayed skip pending t (e :: t')

theorem Delayed.split {pending : Option I.Call} {t₁ t₂ t' : List (Event I)}
    (delayed : Delayed skip pending (t₁ ++ t₂) t') :
    ∃ t₁' t₂', t' = t₁' ++ t₂' ∧ Delayed skip none t₁ t₁' ∧ Delayed skip pending t₂ t₂' := by
  generalize whole : t₁ ++ t₂ = t at delayed
  induction delayed generalizing t₁ with
  | done =>
    obtain ⟨rfl, rfl⟩ := List.append_eq_nil_iff.mp whole
    exact ⟨[], [], rfl, .done, .done⟩
  | @keep e t t' rest ih =>
    cases t₁ with
    | nil =>
      have same : t₂ = e :: t := whole
      rw [same]
      exact ⟨[], _, rfl, .done, rest.keep e⟩
    | cons e₁ t₁ =>
      obtain ⟨rfl, tail⟩ := List.cons_eq_cons.mp whole
      obtain ⟨t₁', t₂', rfl, first, second⟩ := ih tail
      exact ⟨_, t₂', rfl, first.keep e₁, second⟩
  | @put e t t' skipped next rest ih =>
    cases t₁ with
    | nil =>
      have same : t₂ = t := whole
      rw [same]
      exact ⟨[], _, rfl, .done, rest.put skipped next⟩
    | cons e₁ t₁ =>
      obtain ⟨t₁', t₂', rfl, first, second⟩ := ih whole
      rw [← whole] at next
      exact ⟨e :: t₁', t₂', rfl, first.put skipped next, second⟩

theorem Delayed.same {pending : Option I.Call} {t t' : List (Event I)} (delayed : Delayed skip pending t t')
    (kept : ∀ c, c ∈ pending ∨ (∃ e ∈ t, e.call = c) → ∀ answer, skip ⟨c, answer⟩ = false) : t' = t := by
  induction delayed with
  | done => rfl
  | keep e rest ih =>
    rw [ih fun c here => kept c (here.imp_right fun ⟨e', member, same⟩ => ⟨e', List.mem_cons_of_mem _ member, same⟩)]
  | @put e t t' skipped next rest ih =>
    have here : e.call ∈ pending ∨ ∃ e' ∈ t, e'.call = e.call := by
      cases t with
      | nil => exact .inl next
      | cons e' t => exact .inr ⟨e', by simp, Option.some.inj next⟩
    have never : skip e = false := kept e.call here e.answer
    rw [never] at skipped
    cases skipped

/-- The program stands where it stands whatever exchanges of `skip` are left out or put in. -/
structure Indifferent (skip : Event I → Bool) (p : Program I α) : Prop where
  drops : ∀ t o, Exec p t o → Exec p (visible skip t) o
  puts : ∀ t t' o, Exec p t o → Delayed skip o.pending t t' → Exec p t' o

theorem Indifferent.of_issues {p : Program I α} {allowed : I.Call → Prop} (issues : p.Issues allowed)
    (kept : ∀ c answer, allowed c → skip ⟨c, answer⟩ = false) : Indifferent skip p := by
  refine ⟨fun t o run => ?_, fun t t' o run delayed => ?_⟩
  · have all : visible skip t = t := by
      refine List.filter_eq_self.mpr fun e member => ?_
      have here : skip e = false := kept e.call e.answer ((run.issues issues).1 e member)
      rw [here]
      rfl
    rwa [all]
  · obtain ⟨events, waits⟩ := run.issues issues
    have same : t' = t := by
      refine delayed.same fun c here answer => kept c answer ?_
      rcases here with awaited | ⟨e, member, rfl⟩
      · cases o with
        | done value => cases awaited
        | waiting c' => exact waits c (congrArg _ (Option.some.inj awaited))
      · exact events e member
    rwa [same]

theorem Indifferent.pure (value : α) : Indifferent skip (pure value : Program I α) := by
  have silent : (Program.ret value : Program I α).Issues fun _ => False := trivial
  exact .of_issues silent fun _ _ => False.elim

theorem Indifferent.bind {p : Program I α} {rest : α → Program I β} (first : Indifferent skip p)
    (second : ∀ value, Indifferent skip (rest value)) : Indifferent skip (p >>= rest) := by
  refine ⟨fun t o run => ?_, fun t t' o run delayed => ?_⟩
  · rcases exec_bind_cases run with ⟨c, rfl, stopped⟩ | ⟨t₁, value, t₂, rfl, head, tail⟩
    · exact (first.drops t _ stopped).bind_waiting
    · rw [visible_append]
      exact (first.drops t₁ _ head).bind_done ((second value).drops t₂ o tail)
  · rcases exec_bind_cases run with ⟨c, rfl, stopped⟩ | ⟨t₁, value, t₂, rfl, head, tail⟩
    · exact (first.puts t t' _ stopped delayed).bind_waiting
    · obtain ⟨t₁', t₂', rfl, before, after⟩ := delayed.split
      exact (first.puts t₁ t₁' _ head before).bind_done ((second value).puts t₂ t₂' o tail after)

theorem Indifferent.iterate {body : β → Program I (β ⊕ γ)} (each : ∀ state, Indifferent skip (body state))
    (start : β) : Indifferent skip (Program.iterate body start) := by
  refine ⟨fun t o run => ?_, fun t t' o run delayed => ?_⟩
  · obtain ⟨rounds, state, last, rfl, reached, finish⟩ := exec_iterate_cases run
    have dropped : Iterates body start (visible skip rounds) state := by
      clear run finish
      induction reached with
      | start => exact .start
      | next _ round ih =>
        rw [visible_append]
        exact .next ih ((each _).drops _ _ round)
    rw [visible_append]
    refine dropped.exec ?_
    rcases finish with ⟨c, rfl, stopped⟩ | ⟨result, rfl, finish⟩
    · exact .inside ((each state).drops _ _ stopped)
    · have left := Exec.leave ((each state).drops _ _ finish) (.ret result)
      rwa [List.append_nil] at left
  · obtain ⟨rounds, state, last, rfl, reached, finish⟩ := exec_iterate_cases run
    obtain ⟨rounds', last', rfl, before, after⟩ := delayed.split
    have put : Iterates body start rounds' state := by
      clear run finish delayed
      induction reached generalizing rounds' with
      | start =>
        rw [before.same fun c here => by simp at here]
        exact .start
      | next _ round ih =>
        obtain ⟨t₁, t₂, rfl, earlier, later⟩ := before.split
        exact .next (ih t₁ earlier) ((each _).puts _ _ _ round later)
    refine put.exec ?_
    rcases finish with ⟨c, rfl, stopped⟩ | ⟨result, rfl, finish⟩
    · exact .inside ((each state).puts _ _ _ stopped after)
    · have left := Exec.leave ((each state).puts _ _ _ finish after) (.ret result)
      rwa [List.append_nil] at left

section
variable {c : I.Call} {again : I.Answer c → Bool}

theorem exec_retry_nil : Exec (Program.retry c again) [] (.waiting c) := .inside (.bind_waiting (.waiting _ _))

theorem exec_retry_round_of (again : I.Answer c → Bool) (answer : I.Answer c) :
    Exec (Program.ask c >>= fun answer => pure (if again answer then .inl () else .inr answer) :
      Program I (Unit ⊕ I.Answer c)) [⟨c, answer⟩] (.done (if again answer then .inl () else .inr answer)) :=
  .asked (.ret _)

theorem exec_retry_last {answer : I.Answer c} (accepted : again answer = false) :
    Exec (Program.retry c again) [⟨c, answer⟩] (.done answer) := by
  have round := exec_retry_round_of again answer
  rw [accepted, if_neg Bool.false_ne_true] at round
  have left : Exec (Program.retry c again) ([⟨c, answer⟩] ++ []) (.done answer) := .leave round (.ret answer)
  rwa [List.append_nil] at left

theorem exec_retry_again {answer : I.Answer c} {t o} (refused : again answer = true)
    (rest : Exec (Program.retry c again) t o) : Exec (Program.retry c again) (⟨c, answer⟩ :: t) o := by
  have round := exec_retry_round_of again answer
  rw [if_pos refused] at round
  exact .again round rest

def Refusal (again : I.Answer c → Bool) (e : Event I) : Prop := ∃ answer, e = ⟨c, answer⟩ ∧ again answer = true

theorem exec_retry_refused {u t : List (Event I)} {o} (all : ∀ e ∈ u, Refusal again e)
    (rest : Exec (Program.retry c again) t o) : Exec (Program.retry c again) (u ++ t) o := by
  induction u with
  | nil => exact rest
  | cons e u ih =>
    obtain ⟨answer, rfl, refused⟩ := all e (by simp)
    exact exec_retry_again refused (ih fun e member => all e (List.mem_cons_of_mem _ member))

theorem refusal_of_skip {e : Event I} (same : ∀ answer, skip ⟨c, answer⟩ = again answer) (skipped : skip e = true)
    (own : e.call = c) : Refusal again e := by
  obtain ⟨call, answer⟩ := e
  cases own
  exact ⟨answer, rfl, (same answer).symm.trans skipped⟩

theorem visible_refused {u : List (Event I)} (same : ∀ answer, skip ⟨c, answer⟩ = again answer)
    (all : ∀ e ∈ u, Refusal again e) : visible skip u = [] := by
  refine List.filter_eq_nil_iff.mpr fun e member => ?_
  obtain ⟨answer, rfl, refused⟩ := all e member
  rw [same, refused]
  exact Bool.false_ne_true

theorem Delayed.refused {pending : Option I.Call} {t t' : List (Event I)}
    (same : ∀ answer, skip ⟨c, answer⟩ = again answer) (own : ∀ c', pending = some c' → c' = c)
    (delayed : Delayed skip pending t t') (all : ∀ e ∈ t, Refusal again e) : ∀ e ∈ t', Refusal again e := by
  induction delayed with
  | done => exact all
  | keep e rest ih =>
    intro e' member
    rcases List.mem_cons.mp member with rfl | later
    · exact all e' (by simp)
    · exact ih (fun e member => all e (List.mem_cons_of_mem _ member)) e' later
  | @put e t t' skipped next rest ih =>
    have calls : e.call = c := by
      cases t with
      | nil => exact own _ next
      | cons e' t =>
        obtain ⟨answer, rfl, _⟩ := all e' (by simp)
        exact (Option.some.inj next).symm
    intro e' member
    rcases List.mem_cons.mp member with rfl | later
    · exact refusal_of_skip same skipped calls
    · exact ih all e' later

theorem Delayed.last {answer : I.Answer c} {t' : List (Event I)}
    (same : ∀ answer, skip ⟨c, answer⟩ = again answer) (delayed : Delayed skip none [⟨c, answer⟩] t') :
    ∃ u, t' = u ++ [⟨c, answer⟩] ∧ ∀ e ∈ u, Refusal again e := by
  generalize whole : [(⟨c, answer⟩ : Event I)] = t at delayed
  induction delayed with
  | done => cases whole
  | @keep e t t' rest ih =>
    obtain ⟨rfl, rfl⟩ := List.cons_eq_cons.mp whole
    rw [rest.same fun c here => by simp at here]
    exact ⟨[], rfl, by simp⟩
  | @put e t t' skipped next rest ih =>
    obtain ⟨u, rfl, all⟩ := ih whole
    rw [← whole] at next
    refine ⟨e :: u, rfl, fun e' member => ?_⟩
    rcases List.mem_cons.mp member with rfl | later
    · exact refusal_of_skip same skipped (Option.some.inj next).symm
    · exact all e' later

theorem Indifferent.retry (same : ∀ answer, skip ⟨c, answer⟩ = again answer) :
    Indifferent skip (Program.retry c again) := by
  have refusals : ∀ {refused : List (I.Answer c)}, (∀ answer ∈ refused, again answer = true) →
      ∀ e ∈ refused.map (⟨c, ·⟩), Refusal again e := by
    intro refused all e member
    obtain ⟨answer, inside, rfl⟩ := List.mem_map.mp member
    exact ⟨answer, rfl, all answer inside⟩
  refine ⟨fun t o run => ?_, fun t t' o run delayed => ?_⟩
  · obtain ⟨refused, all, ⟨rfl, rfl⟩ | ⟨answer, accepted, rfl, rfl⟩⟩ := exec_retry_cases run
    · rw [visible_refused same (refusals all)]
      exact exec_retry_nil
    · have last : visible skip [(⟨c, answer⟩ : Event I)] = [⟨c, answer⟩] := by
        refine List.filter_eq_self.mpr fun e member => ?_
        rw [List.mem_singleton.mp member, same, accepted]
        rfl
      rw [visible_append, visible_refused same (refusals all), last]
      exact exec_retry_last accepted
  · obtain ⟨refused, all, ⟨rfl, rfl⟩ | ⟨answer, accepted, rfl, rfl⟩⟩ := exec_retry_cases run
    · have own : ∀ c', (Outcome.waiting c : Outcome I (I.Answer c)).pending = some c' → c' = c :=
        fun c' awaited => (Option.some.inj awaited).symm
      have stopped := exec_retry_refused (delayed.refused same own (refusals all)) exec_retry_nil
      rwa [List.append_nil] at stopped
    · obtain ⟨t₁, t₂, rfl, before, after⟩ := delayed.split
      obtain ⟨u, rfl, more⟩ := Delayed.last same after
      have first := before.refused same (fun c' impossible => by cases impossible) (refusals all)
      exact exec_retry_refused first (exec_retry_refused more (exec_retry_last accepted))

end

theorem Indifferent.agree {p : Program I α} {t t' : List (Event I)} {o o' : Outcome I α}
    (indifferent : Indifferent skip p) (run : Exec p t o) (run' : Exec p t' o')
    (agree : visible skip t = visible skip t') : o = o' := by
  have first := indifferent.drops t o run
  have second := indifferent.drops t' o' run'
  rw [agree] at first
  rcases p.determined _ _ [] _ _ [] first second rfl with ⟨_, same⟩ | answered | answered
  · exact same
  · obtain ⟨_, _, _, _, impossible⟩ := answered
    cases impossible
  · obtain ⟨_, _, _, _, impossible⟩ := answered
    cases impossible

end Interaction
