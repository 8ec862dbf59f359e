import CoreShift.Shutdown.Delivery

namespace CoreShift.Shutdown

open Interaction

variable {D A : Type}

def succeeded : List A → List (Except SysError Unit) → List A
  | flag :: flags, .ok () :: results => flag :: succeeded flags results
  | _ :: flags, .error _ :: results => succeeded flags results
  | _, _ => []

/-- No restoration of SIGINT, which is the call after a failed one for SIGTERM, fails. -/
def Restores (t : List (Event (signals D A))) : Prop :=
  ∀ (before after : List (Event (signals D A))) (e e' : Errno) (action : Disposition D),
    t ≠ before ++ ⟨.sigaction SIGTERM .shutdown, .error e⟩ :: ⟨.sigaction SIGINT action, .error e'⟩ :: after

theorem Restores.left {t t' : List (Event (signals D A))} (restores : Restores (t ++ t')) : Restores t := by
  intro before after e e' action same
  exact restores before (after ++ t') e e' action (by simp [same])

theorem Restores.right {t t' : List (Event (signals D A))} (restores : Restores (t ++ t')) : Restores t' := by
  intro before after e e' action same
  exact restores (t ++ before) after e e' action (by simp [same])

theorem exec_installAll_cons {flag : A} {flags : List A} {t : List (Event (signals D A))}
    {results : List (Except SysError Unit)} (run : Exec (installAll (flag :: flags)) t (.done results)) :
    ∃ first rest result results', t = first ++ rest ∧ results = result :: results' ∧
      Stage flag first (.done result) ∧ Exec (installAll flags) rest (.done results') := by
  unfold installAll at run
  obtain ⟨first, result, rest, rfl, called, more⟩ := exec_bind_done.mp run
  obtain ⟨later, results', none, rfl, remaining, last⟩ := exec_bind_done.mp more
  obtain ⟨rfl, same⟩ := (exec_pure_iff _ _ _).mp last
  cases same
  rw [List.append_nil]
  exact ⟨first, later, result, results', rfl, rfl, exec_installShutdownFlag called, remaining⟩

namespace Process

def install (P : Process D A) (flag : A) : Process D A where
  dispositions := Function.update (Function.update P.dispositions SIGINT .shutdown) SIGTERM .shutdown
  shutdownFlagPtr := some flag
  flags := P.flags

theorem install_sigint (P : Process D A) (flag : A) : (P.install flag).dispositions SIGINT = .shutdown := by
  have other : SIGINT ≠ SIGTERM := by decide
  simp [install, other]

theorem install_sigterm (P : Process D A) (flag : A) : (P.install flag).dispositions SIGTERM = .shutdown := by
  simp [install]

theorem install_last {P : Process D A} {flags : List A} {flag : A} (last : flags.getLast? = some flag) :
    (flags.foldl install P).dispositions SIGINT = .shutdown ∧
      (flags.foldl install P).dispositions SIGTERM = .shutdown ∧
      (flags.foldl install P).shutdownFlagPtr = some flag := by
  obtain ⟨earlier, rfl⟩ := List.getLast?_eq_some_iff.mp last
  rw [List.foldl_append, List.foldl_cons, List.foldl_nil]
  exact ⟨install_sigint _ flag, install_sigterm _ flag, rfl⟩

variable [DecidableEq A] {left : D → D} {P P' : Process D A}

theorem Run.split {moments moments' : List (Moment D A)} (run : Run left P (moments ++ moments') P') :
    ∃ Q, Run left P moments Q ∧ Run left Q moments' P' := by
  generalize same : moments ++ moments' = whole at run
  induction run generalizing moments' with
  | nil =>
    obtain ⟨rfl, rfl⟩ := List.append_eq_nil_iff.mp same
    exact ⟨P, .nil, .nil⟩
  | @snoc before Q Q' m past last ih =>
    rcases List.eq_nil_or_concat moments' with rfl | ⟨initial, m', rfl⟩
    · rw [List.append_nil] at same
      subst same
      exact ⟨Q', past.snoc last, .nil⟩
    · rw [List.concat_eq_append, ← List.append_assoc] at same
      obtain ⟨rfl, one⟩ := List.append_inj' same rfl
      obtain rfl := List.singleton_inj.mp one
      obtain ⟨R, first, second⟩ := ih rfl
      rw [List.concat_eq_append]
      exact ⟨R, first, second.snoc last⟩

theorem Run.append {Q : Process D A} {moments moments' : List (Moment D A)} (first : Run left P moments Q)
    (second : Run left Q moments' P') : Run left P (moments ++ moments') P' := by
  induction second with
  | nil =>
    rw [List.append_nil]
    exact first
  | snoc _ last ih =>
    rw [← List.append_assoc]
    exact ih.snoc last

theorem Run.of_nil (run : Run left P [] P') : P' = P := by
  generalize same : ([] : List (Moment D A)) = moments at run
  cases run with
  | nil => rfl
  | snoc past last => exact absurd same.symm (List.append_ne_nil_of_right_ne_nil _ (List.cons_ne_nil _ _))

theorem Run.cons {m : Moment D A} {moments : List (Moment D A)} (run : Run left P (m :: moments) P') :
    ∃ Q, Step left P m Q ∧ Run left Q moments P' := by
  rw [← List.singleton_append] at run
  obtain ⟨Q, first, second⟩ := run.split
  rw [← List.nil_append [m]] at first
  generalize same : [] ++ [m] = whole at first
  cases first with
  | nil => cases same
  | snoc past last =>
    obtain ⟨empty, one⟩ := List.append_inj' same rfl
    obtain rfl := List.singleton_inj.mp one
    subst empty
    rw [past.of_nil] at last
    exact ⟨Q, last, second⟩

theorem Run.sigaction {sig : Int} {action old : Disposition D} {t : List (Event (signals D A))}
    (run : Run left P ((⟨.sigaction sig action, .ok old⟩ :: t : List (Event (signals D A))).map .exchange) P') :
    old = P.dispositions sig ∧
      Run left { P with dispositions := Function.update P.dispositions sig action } (t.map .exchange) P' := by
  obtain ⟨Q, step, rest⟩ := run.cons
  cases step
  exact ⟨rfl, rest⟩

theorem Run.refused {sig : Int} {action : Disposition D} {e : Errno} {t : List (Event (signals D A))}
    (run : Run left P ((⟨.sigaction sig action, .error e⟩ :: t : List (Event (signals D A))).map .exchange) P') :
    Run left P (t.map .exchange) P' := by
  obtain ⟨Q, step, rest⟩ := run.cons
  cases step
  exact rest

theorem Run.store {flag : A} {t : List (Event (signals D A))}
    (run : Run left P ((⟨.store flag, ()⟩ :: t : List (Event (signals D A))).map .exchange) P') :
    Run left { P with shutdownFlagPtr := some flag } (t.map .exchange) P' := by
  obtain ⟨Q, step, rest⟩ := run.cons
  cases step
  exact rest

theorem Run.installed {flag : A} {t : List (Event (signals D A))} (run : Run left P (t.map .exchange) P')
    (stage : Stage flag t (.done (.ok ()))) : P' = P.install flag := by
  generalize outcome : Outcome.done (I := signals D A) (Except.ok (ε := SysError) ()) = o at stage
  cases stage with
  | installed old old' => exact run.sigaction.2.sigaction.2.store.of_nil
  | begins | refused | half | both | failing | restored | stuck => cases outcome

theorem Run.undone {flag : A} {e : SysError} {t : List (Event (signals D A))} (run : Run left P (t.map .exchange) P')
    (stage : Stage flag t (.done (.error e))) (restores : Restores t) : P' = P := by
  generalize outcome : Outcome.done (I := signals D A) (Except.error (α := Unit) e) = o at stage
  cases stage with
  | refused e => exact run.refused.of_nil
  | restored old e gone =>
    obtain ⟨reported, second⟩ := run.sigaction
    have back := second.refused.sigaction.2.of_nil
    rw [back, reported]
    simp
  | stuck old e e' => exact absurd rfl (restores [⟨.sigaction SIGINT .shutdown, .ok old⟩] [] e e' old)
  | begins | half | both | installed | failing => cases outcome

theorem exec_success (left : D → D) (P : Process D A) (flag : A) :
    ∃ t, Exec (installShutdownFlag flag) t (.done (.ok ())) ∧ Run left P (t.map .exchange) (P.install flag) := by
  refine ⟨[⟨.sigaction SIGINT .shutdown, .ok (P.dispositions SIGINT)⟩,
    ⟨.sigaction SIGTERM .shutdown, .ok (Function.update P.dispositions SIGINT .shutdown SIGTERM)⟩, ⟨.store flag, ()⟩],
    .call _ (.call _ (.call _ (.ret _))), ?_⟩
  exact .snoc (.snoc (.snoc .nil (.sigaction ..)) (.sigaction { P with dispositions := _ } ..))
    (.store { P with dispositions := _ } ..)

theorem exec_successes (left : D → D) (P : Process D A) (flags : List A) :
    ∃ t, Exec (installAll flags) t (.done (flags.map fun _ => .ok ())) ∧
      Run left P (t.map .exchange) (flags.foldl install P) := by
  induction flags generalizing P with
  | nil => exact ⟨[], .ret _, .nil⟩
  | cons flag flags ih =>
    obtain ⟨t, called, run⟩ := exec_success left P flag
    obtain ⟨t', calls, runs⟩ := ih (P.install flag)
    refine ⟨t ++ t', ?_, ?_⟩
    · have rest : Exec (installAll (D := D) flags >>= fun results => pure (Except.ok () :: results)) (t' ++ [])
          (.done (Except.ok () :: flags.map fun _ => Except.ok ())) := calls.bind_done (.ret _)
      rw [List.append_nil] at rest
      exact called.bind_done rest
    · rw [List.map_append]
      exact run.append runs

theorem Run.history {flags : List A} {results : List (Except SysError Unit)} {t : List (Event (signals D A))}
    (run : Run left P (t.map .exchange) P') (calls : Exec (installAll flags) t (.done results))
    (restores : Restores t) : P' = (succeeded flags results).foldl install P := by
  induction flags generalizing P t results with
  | nil =>
    obtain ⟨rfl, same⟩ := (exec_pure_iff _ _ _).mp calls
    cases same
    exact run.of_nil
  | cons flag flags ih =>
    obtain ⟨first, rest, result, results', rfl, rfl, stage, later⟩ := exec_installAll_cons calls
    rw [List.map_append] at run
    obtain ⟨Q, called, remaining⟩ := run.split
    have after := ih remaining later restores.right
    cases result with
    | ok u =>
      rw [called.installed stage] at after
      exact after
    | error e =>
      rw [called.undone stage restores.left] at after
      exact after

theorem Run.successes {flags : List A} {t : List (Event (signals D A))} (run : Run left P (t.map .exchange) P')
    (calls : Exec (installAll flags) t (.done (flags.map fun _ => .ok ()))) : P' = flags.foldl install P := by
  induction flags generalizing P t with
  | nil =>
    obtain ⟨rfl, _⟩ := (exec_pure_iff _ _ _).mp calls
    exact run.of_nil
  | cons flag flags ih =>
    obtain ⟨first, rest, result, results', rfl, same, stage, later⟩ := exec_installAll_cons calls
    obtain ⟨rfl, rfl⟩ := List.cons_eq_cons.mp same
    rw [List.map_append] at run
    obtain ⟨Q, called, remaining⟩ := run.split
    rw [called.installed stage] at remaining
    exact ih remaining later

end Process

section
variable [DecidableEq A] {left : D → D}

/-- Calls that fail leave no trace as long as SIGINT can be restored: the process is as it is after the
    calls that succeed alone, and the last of these has the handlers and the flag. -/
theorem failed_installs_invisible {flags : List A} {results : List (Except SysError Unit)}
    {t : List (Event (signals D A))} {P₀ P : Process D A} (calls : Exec (installAll flags) t (.done results))
    (run : Process.Run left P₀ (t.map .exchange) P) (restores : Restores t) :
    (∃ t', Exec (installAll (succeeded flags results)) t' (.done ((succeeded flags results).map fun _ => .ok ())) ∧
      Process.Run left P₀ (t'.map .exchange) P) ∧
    (∀ t' P', Exec (installAll (succeeded flags results)) t' (.done ((succeeded flags results).map fun _ => .ok ())) →
      Process.Run left P₀ (t'.map .exchange) P' → P' = P) ∧
    (∀ flag, (succeeded flags results).getLast? = some flag → P.dispositions SIGINT = .shutdown ∧
      P.dispositions SIGTERM = .shutdown ∧ P.shutdownFlagPtr = some flag) := by
  have outcome := run.history calls restores
  rw [outcome]
  refine ⟨Process.exec_successes left P₀ _, fun t' P' calls' run' => run'.successes calls', fun flag last => ?_⟩
  exact Process.install_last last

end

def failsThenSucceeds : List (Event (signals Unit Bool)) :=
  [⟨.sigaction SIGINT .shutdown, .ok (.other ())⟩, ⟨.sigaction SIGTERM .shutdown, .error 22⟩,
    ⟨.sigaction SIGINT (.other ()), .ok .shutdown⟩, ⟨.sigaction SIGINT .shutdown, .ok (.other ())⟩,
    ⟨.sigaction SIGTERM .shutdown, .ok (.other ())⟩, ⟨.store true, ()⟩]

def untouched : Process Unit Bool := ⟨fun _ => .other (), none, fun _ => false⟩

theorem exec_failsThenSucceeds : Exec (installAll [false, true]) failsThenSucceeds
    (.done [.error (.sys 22 "sigaction(SIGTERM)"), .ok ()]) := .of_replay 1 rfl

theorem run_failsThenSucceeds :
    Process.Run id untouched (failsThenSucceeds.map .exchange) (untouched.install true) := by
  have first : ∃ Q, Process.Run id untouched ((failsThenSucceeds.take 3).map .exchange) Q ∧ Q = untouched := by
    refine ⟨_, .snoc (.snoc (.snoc .nil (.sigaction ..)) (.refused ..))
      (.sigaction { untouched with dispositions := _ } ..), ?_⟩
    simp [untouched]
  obtain ⟨Q, past, rfl⟩ := first
  exact ((past.snoc (.sigaction ..)).snoc (.sigaction { untouched with dispositions := _ } ..)).snoc
    (.store { untouched with dispositions := _ } ..)

theorem failed_install_before_success :
    (untouched.install true).dispositions SIGINT = .shutdown ∧
      (untouched.install true).dispositions SIGTERM = .shutdown ∧
      (untouched.install true).shutdownFlagPtr = some true := by
  have restores : Restores failsThenSucceeds := by
    intro before after e e' action same
    have member : (⟨.sigaction SIGINT action, .error e'⟩ : Event (signals Unit Bool)) ∈ failsThenSucceeds := by
      rw [same]
      simp
    simp [failsThenSucceeds] at member
    have other : SIGINT ≠ SIGTERM := by decide
    exact other member.1.1
  exact (failed_installs_invisible exec_failsThenSucceeds run_failsThenSucceeds restores).2.2 true rfl

end CoreShift.Shutdown
