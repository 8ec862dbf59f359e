import CoreShift.Spawn.Completion
import CoreShift.Spawn.Signals
import CoreShift.Spawn.Timeout

namespace CoreShift

open Interaction

theorem Process.Stepped.silent {pid : Int} {t : Trace} {o} (step : Process.Stepped pid t o) :
    issued t o = [] := by
  have quiet : signals t = [] := by
    apply signals_of_forall
    intro e member
    rw [step.calls e member]
    rfl
  rw [issued, quiet]
  cases step <;> rfl

namespace WaitLoop

variable {cfg : WaitConfig} {startTime : Nat} {st : LoopState} {t : Trace}

def escalation (cfg : WaitConfig) : List Int :=
  if cfg.timeoutMs = none then []
  else
    match cfg.cancel with
    | .none => []
    | .graceful => [SIGTERM, SIGKILL]
    | .kill => [SIGKILL]

theorem escalation_limited {ms : UInt32} (limited : cfg.timeoutMs = some ms) :
    escalation cfg =
      match cfg.cancel with
      | .none => []
      | .graceful => [SIGTERM, SIGKILL]
      | .kill => [SIGKILL] := by
  simp [escalation, limited]

theorem due_cases {state : KillState} {now : Nat} {sig : Int}
    (sends : due cfg startTime state now = some sig) :
    ∃ ms, cfg.timeoutMs = some ms ∧ fromMillis ms.toNat ≤ now - startTime ∧
      ((state = .none ∧ cfg.cancel = .graceful ∧ sig = SIGTERM) ∨
        (state = .none ∧ cfg.cancel = .kill ∧ sig = SIGKILL) ∨
        (state = .termSent ∧ sig = SIGKILL ∧
          cfg.killGraceMs.toNat < asMillis (now - startTime - fromMillis ms.toNat))) := by
  cases limited : cfg.timeoutMs with
  | none => simp [due, limited] at sends
  | some ms =>
    rw [due_limited limited] at sends
    by_cases passed : fromMillis ms.toNat ≤ now - startTime
    · rw [if_pos passed] at sends
      refine ⟨ms, rfl, passed, ?_⟩
      cases state with
      | none =>
        cases policy : cfg.cancel with
        | none => simp [dueSignal, policy] at sends
        | graceful =>
          simp only [dueSignal, policy, Option.some.injEq] at sends
          exact .inl ⟨rfl, rfl, sends.symm⟩
        | kill =>
          simp only [dueSignal, policy, Option.some.injEq] at sends
          exact .inr (.inl ⟨rfl, rfl, sends.symm⟩)
      | termSent =>
        by_cases grace : cfg.killGraceMs.toNat < asMillis (now - startTime - fromMillis ms.toNat)
        · simp only [dueSignal, grace, ↓reduceIte, Option.some.injEq] at sends
          exact .inr (.inr ⟨rfl, sends.symm, grace⟩)
        · simp [dueSignal, grace] at sends
      | killSent => simp [dueSignal] at sends
    · rw [if_neg passed] at sends
      cases sends

/-- How far the escalation has come, told by what was sent. -/
structure Escalated (cfg : WaitConfig) (st : LoopState) (sent : List (Int × Int)) : Prop where
  order : sent <+: (escalation cfg).map (target cfg, ·)
  quiet : st.state = .none → sent = []
  terminating : st.state = .termSent → cfg.cancel = .graceful ∧ sent = [(target cfg, SIGTERM)]
  reported : sent ≠ [] → st.timedOut = true

theorem escalated_start (cfg : WaitConfig) (drain : DrainState) (reactor : Reactor)
    (statusRaw : Option ExitStatus) :
    Escalated cfg { drain, reactor, statusRaw, state := .none, timedOut := false } [] where
  order := List.nil_prefix
  quiet _ := rfl
  terminating impossible := by cases impossible
  reported sent := absurd rfl sent

theorem Escalated.sends {sent : List (Int × Int)} {now : Nat} {sig : Int} (escalated : Escalated cfg st sent)
    (sends : due cfg startTime st.state now = some sig) :
    sent ++ [(target cfg, sig)] <+: (escalation cfg).map (target cfg, ·) := by
  obtain ⟨ms, limited, _, ⟨state, policy, rfl⟩ | ⟨state, policy, rfl⟩ | ⟨state, rfl, _⟩⟩ := due_cases sends
  · rw [escalated.quiet state, escalation_limited limited, policy]
    exact ⟨[(target cfg, SIGKILL)], rfl⟩
  · rw [escalated.quiet state, escalation_limited limited, policy]
    exact List.prefix_rfl
  · obtain ⟨policy, sent⟩ := escalated.terminating state
    rw [sent, escalation_limited limited, policy]
    exact List.prefix_rfl

theorem afterSignal_ne_none (sig : Int) (answer : Except Errno Unit) : afterSignal sig answer ≠ .none := by
  unfold afterSignal
  split
  · split
    · decide
    · split <;> decide
  · decide

theorem sigterm_of_termSent {sig : Int} {answer : Except Errno Unit} (after : afterSignal sig answer = .termSent) :
    sig = SIGTERM := by
  unfold afterSignal at after
  by_cases terminate : sig = SIGTERM
  · exact terminate
  · rw [if_neg terminate] at after
    cases after

theorem Escalated.deadline {sent : List (Int × Int)} {checked : LoopState} {timeout : Int}
    (escalated : Escalated cfg st sent) (check : Deadline cfg startTime st t (.done (checked, timeout))) :
    Escalated cfg checked (sent ++ signals t) := by
  cases check with
  | unlimited _ => simpa using escalated
  | early limited now before => simpa [signalBy] using escalated
  | late limited now passed silent =>
    have same : sent ++ signals [⟨.instantNow, now⟩] = sent := List.append_nil _
    rw [same]
    exact ⟨escalated.order, escalated.quiet, escalated.terminating, fun _ => rfl⟩
  | signaled now sends answer =>
    refine ⟨escalated.sends sends, ?_, ?_, fun _ => rfl⟩
    · intro impossible
      exact absurd impossible (afterSignal_ne_none _ _)
    · intro terminating
      have terminate := sigterm_of_termSent terminating
      subst terminate
      obtain ⟨ms, _, _, ⟨state, policy, _⟩ | ⟨_, _, impossible⟩ | ⟨_, impossible, _⟩⟩ := due_cases sends
      · rw [escalated.quiet state]
        exact ⟨policy, rfl⟩
      · exact absurd impossible (by decide)
      · exact absurd impossible (by decide)

theorem waitStep_quiet (p : Process) : p.waitStep.Issues (signalOf · = []) :=
  .bind (.retry _ rfl) fun _ => trivial

theorem signalOf_of_poll {c : Call} (poll : isPollCall c = true) : signalOf c = [] := by
  cases c <;> first | rfl | cases poll

theorem abandon_quiet (st : LoopState) (e : SysError) : (abandon st e).Issues (signalOf · = []) :=
  (abandon_issues st e).mono fun _ => signalOf_of_poll

theorem collectStatus_quiet (cfg : WaitConfig) (st : LoopState) : (collectStatus cfg st).Issues (signalOf · = []) := by
  unfold collectStatus
  split
  · trivial
  · refine .bind (waitStep_quiet _) fun result => ?_
    rcases result with e | _ | s <;> trivial

theorem finish_quiet (cfg : WaitConfig) (st : LoopState) : (finish cfg st).Issues (signalOf · = []) := by
  have delivers : ∀ s, (deliver cfg st s).Issues (signalOf · = []) :=
    fun s => (deliver_issues cfg st s).mono fun _ => signalOf_of_poll
  unfold finish
  split
  · exact delivers _
  · refine .bind (.bind (.retry _ rfl) fun _ => trivial) fun s => ?_
    rcases s with e | s
    · exact abandon_quiet _ _
    · exact delivers _

theorem poll_quiet (st : LoopState) (timeout : Int) : (poll st timeout).Issues (signalOf · = []) :=
  (poll_issues st timeout).mono fun _ => signalOf_of_poll

theorem Collected.kept {collected : LoopState} {result : Except SysError Unit}
    (collect : Collected cfg st t (.done (collected, result))) :
    collected.state = st.state ∧ collected.timedOut = st.timedOut := by
  cases collect <;> exact ⟨rfl, rfl⟩

theorem exec_deliver_timedOut {s : ExitStatus} {out : Output}
    (run : Exec (deliver cfg st s) t (.done (.inr (.ok out)))) : out.timedOut = st.timedOut := by
  obtain ⟨_, _, _, rfl, _, rest⟩ := exec_bind_done.mp run
  obtain ⟨_, ⟨stdout, stderr⟩, _, rfl, _, rest⟩ := exec_bind_done.mp rest
  obtain ⟨_, _, _, rfl, _, rest⟩ := exec_bind_done.mp rest
  cases ((exec_pure_iff _ _ _).mp rest).2
  rfl

theorem exec_finish_timedOut {out : Output} (run : Exec (finish cfg st) t (.done (.inr (.ok out)))) :
    out.timedOut = st.timedOut := by
  cases exec_finish run with
  | present present delivered => exact exec_deliver_timedOut delivered
  | waited missing wait delivered => exact exec_deliver_timedOut delivered
  | failed missing wait abandoned => exact (abandon_fails abandoned).elim

theorem exec_body_signals {o} (run : Exec (body cfg startTime st) t o) :
    (∃ c, o = .waiting c ∧ Deadline cfg startTime st t (.waiting c)) ∨
      ∃ t₁ t₂ checked timeout, t = t₁ ++ t₂ ∧ Deadline cfg startTime st t₁ (.done (checked, timeout)) ∧
        issued t₂ o = [] ∧
        (∀ st', o = .done (.inl st') → st'.state = checked.state ∧ st'.timedOut = checked.timedOut) ∧
        ∀ out, o = .done (.inr (.ok out)) → out.timedOut = checked.timedOut := by
  rcases exec_bind_cases run with ⟨c, rfl, stopped⟩ | ⟨t₁, ⟨checked, timeout⟩, t₂, rfl, check, run⟩
  · exact .inl ⟨c, rfl, exec_checkDeadline stopped⟩
  refine .inr ⟨t₁, t₂, checked, timeout, rfl, exec_checkDeadline check, ?_⟩
  rcases exec_bind_cases run with ⟨c, rfl, stopped⟩ | ⟨u₁, ⟨collected, result⟩, u₂, rfl, collect, run⟩
  · have silent := issued_of_issues (collectStatus_quiet _ _) stopped
    exact ⟨silent, by simp, by simp⟩
  have silent := signals_of_issues (collectStatus_quiet _ _) collect
  have kept := (exec_collectStatus collect).kept
  rw [issued_append, silent, List.nil_append]
  rcases result with e | ⟨⟩
  · refine ⟨issued_of_issues (abandon_quiet _ _) run, ?_, ?_⟩
    · intro st' same
      subst same
      exact absurd run (abandon_leaves _ _ _ _)
    · intro out same
      subst same
      exact (abandon_fails run).elim
  · by_cases drained : collected.drain.isDone = true
    · simp only [drained, ↓reduceIte] at run
      refine ⟨issued_of_issues (finish_quiet _ _) run, ?_, ?_⟩
      · intro st' same
        subst same
        cases exec_finish run with
        | present present delivered => exact absurd delivered (deliver_leaves _ _ _ _ _)
        | waited missing wait delivered => exact absurd delivered (deliver_leaves _ _ _ _ _)
        | failed missing wait abandoned => exact absurd abandoned (abandon_leaves _ _ _ _)
      · intro out same
        subst same
        exact (exec_finish_timedOut run).trans kept.2
    · simp only [drained, Bool.false_eq_true, ↓reduceIte] at run
      refine ⟨issued_of_issues (poll_quiet _ _) run, ?_, ?_⟩
      · intro st' same
        subst same
        obtain ⟨_, _, _, _, _, _, _, _, _, rfl⟩ := exec_poll_next run
        exact kept
      · intro out same
        subst same
        exact (poll_fails run).elim

theorem Head.escalated {drain : DrainState} {reactor : Reactor} (head : Head cfg drain reactor startTime t st) :
    Escalated cfg st (signals t) := by
  induction head with
  | start step =>
    rw [signals_append, signals_of_issues (waitStep_quiet _) step]
    exact escalated_start cfg drain reactor _
  | next before round ih =>
    rcases exec_body_signals round with ⟨c, impossible, _⟩ | ⟨t₁, t₂, checked, timeout, rfl, check, silent, kept, _⟩
    · cases impossible
    rw [issued_done] at silent
    obtain ⟨state, timedOut⟩ := kept _ rfl
    have after := ih.deadline check
    rw [signals_append, signals_append, silent, List.append_nil]
    exact ⟨after.order, fun none => after.quiet (state ▸ none), fun term => after.terminating (state ▸ term),
      fun sent => timedOut.trans (after.reported sent)⟩

theorem exec_body_issued {o} (run : Exec (body cfg startTime st) t o) :
    issued t o = [] ∨ ∃ now rest sig, t = ⟨.instantNow, now⟩ :: rest ∧
      due cfg startTime st.state now = some sig ∧ issued t o = [(target cfg, sig)] := by
  rcases exec_body_signals run with ⟨c, rfl, check⟩ | ⟨t₁, t₂, checked, timeout, rfl, check, silent, _⟩
  · cases check with
    | clock limited => exact .inl rfl
    | signaling now sends => exact .inr ⟨now, [], _, rfl, sends, rfl⟩
  · rw [issued_append, silent, List.append_nil]
    cases check with
    | unlimited unlimited => exact .inl rfl
    | early limited now before => exact .inl rfl
    | late limited now passed silent => exact .inl rfl
    | signaled now sends answer => exact .inr ⟨now, _, _, rfl, sends, rfl⟩

structure Disciplined (cfg : WaitConfig) (drain : DrainState) (reactor : Reactor) (t : Trace)
    (o : Outcome os (Except SysError Output)) : Prop where
  order : issued t o <+: (escalation cfg).map (target cfg, ·)
  notEarly : ∀ startTime before st (now : Nat) rest o' ms, Head cfg drain reactor startTime before st →
    Exec (body cfg startTime st) (⟨.instantNow, now⟩ :: rest) o' → cfg.timeoutMs = some ms →
    now - startTime < fromMillis ms.toNat → issued (⟨.instantNow, now⟩ :: rest) o' = []
  grace : ∀ startTime before st (now : Nat) rest o' ms, Head cfg drain reactor startTime before st →
    Exec (body cfg startTime st) (⟨.instantNow, now⟩ :: rest) o' → cfg.timeoutMs = some ms →
    cfg.cancel = .graceful → (target cfg, SIGKILL) ∈ issued (⟨.instantNow, now⟩ :: rest) o' →
    fromMillis ms.toNat + fromMillis cfg.killGraceMs.toNat < now - startTime
  reported : issued t o ≠ [] → ∀ out, o = .done (.ok out) → out.timedOut = true

theorem fromMillis_lt_of_asMillis {grace duration : Nat} (exceeds : grace < asMillis duration) :
    fromMillis grace < duration := by
  unfold asMillis at exceeds
  unfold fromMillis
  omega

section
variable {drain : DrainState} {reactor : Reactor} {o : Outcome os (Except SysError Output)}

theorem exec_waitLoop_issued (run : Exec (waitLoop cfg drain reactor) t o) :
    issued t o = [] ∨ ∃ startTime t₁ t₂ st o', t = t₁ ++ t₂ ∧ Head cfg drain reactor startTime t₁ st ∧
      Exec (body cfg startTime st) t₂ o' ∧ o'.pending = o.pending ∧ ∀ out, o = .done out → o' = .done (.inr out) := by
  rcases exec_waitLoop run with ⟨c, rfl, step⟩ | ⟨t₁, t₂, e, rfl, step, rest⟩ | ⟨s, rfl, step⟩ |
    ⟨startTime, t₁, t₂, st, rfl, head, ⟨c, rfl, stopped⟩ | ⟨result, rfl, left⟩⟩
  · have silent := step.silent
    exact .inl silent
  · have silent := step.silent
    rw [issued_done] at silent
    have dropped : issued t₂ o = [] := by
      have drops := (reactor_drop_issues reactor).mono fun _ => signalOf_of_poll
      have drains := (drain_drop_issues drain).mono fun _ => signalOf_of_poll
      refine issued_of_issues ?_ rest
      exact .bind drops fun _ => .bind drains fun _ => trivial
    rw [issued_append, silent, dropped]
    exact .inl rfl
  · have silent := step.silent
    rw [issued_done] at silent
    rw [issued, silent]
    exact .inl rfl
  · exact .inr ⟨startTime, t₁, t₂, st, _, rfl, head, stopped, rfl, by simp⟩
  · refine .inr ⟨startTime, t₁, t₂, st, _, rfl, head, left, rfl, fun out same => ?_⟩
    cases same
    rfl

theorem issued_congr {α β : Type} {o : Outcome os α} {o' : Outcome os β} (same : o'.pending = o.pending)
    (t : Trace) : issued t o' = issued t o := by
  rw [issued, issued, same]

/-- At whatever point a run stands, its signals follow the policy, none is sent before it is due, and
    the result says that the time was out when there was one. -/
theorem signal_discipline (run : Exec (waitLoop cfg drain reactor) t o) :
    Disciplined cfg drain reactor t o := by
  refine ⟨?_, ?_, ?_, ?_⟩
  · rcases exec_waitLoop_issued run with silent | ⟨startTime, t₁, t₂, st, o', rfl, head, last, same, _⟩
    · rw [silent]
      exact List.nil_prefix
    · have escalated := head.escalated
      rw [← issued_congr same, issued_append]
      rcases exec_body_issued last with silent | ⟨now, rest, sig, rfl, sends, issues⟩
      · rw [silent, List.append_nil]
        exact escalated.order
      · rw [issues]
        exact escalated.sends sends
  · intro startTime before st now rest o' ms head last limited early
    rcases exec_body_issued last with silent | ⟨now', rest', sig, same, sends, _⟩
    · exact silent
    · cases (List.cons_eq_cons.mp same).1
      obtain ⟨ms', limited', passed, _⟩ := due_cases sends
      cases limited.symm.trans limited'
      omega
  · intro startTime before st now rest o' ms head last limited graceful killed
    rcases exec_body_issued last with silent | ⟨now', rest', sig, same, sends, issues⟩
    · rw [silent] at killed
      cases killed
    · cases (List.cons_eq_cons.mp same).1
      rw [issues, List.mem_singleton] at killed
      obtain ⟨ms', limited', passed, ⟨_, _, rfl⟩ | ⟨_, policy, _⟩ | ⟨_, _, exceeds⟩⟩ := due_cases sends
      · exact absurd (congrArg Prod.snd killed) (show SIGKILL ≠ SIGTERM by decide)
      · rw [graceful] at policy
        cases policy
      · cases limited.symm.trans limited'
        have grace := fromMillis_lt_of_asMillis exceeds
        omega
  · intro sent out same
    rcases exec_waitLoop_issued run with silent | ⟨startTime, t₁, t₂, st, o', rfl, head, last, pending, left⟩
    · exact absurd silent sent
    · cases left _ same
      subst same
      rcases exec_body_signals last with ⟨c, impossible, _⟩ | ⟨u₁, u₂, checked, timeout, rfl, check, silent, _, kept⟩
      · cases impossible
      · have after := head.escalated.deadline check
        rw [issued_done] at sent silent
        rw [signals_append, signals_append, silent, List.append_nil] at sent
        exact (kept out rfl).trans (after.reported sent)

/-- No SIGTERM was answered with an error, that of a missing target apart. -/
def NeverRefused (t : Trace) : Prop :=
  ∀ recipient e, (⟨.kill recipient SIGTERM, .error e⟩ : Event os) ∈ t → e = ESRCH

theorem NeverRefused.first {t t' : Trace} (never : NeverRefused (t ++ t')) : NeverRefused t :=
  fun recipient e member => never recipient e (List.mem_append_left _ member)

theorem NeverRefused.second {t t' : Trace} (never : NeverRefused (t ++ t')) : NeverRefused t' :=
  fun recipient e member => never recipient e (List.mem_append_right _ member)

theorem Deadline.killed {checked : LoopState} {timeout : Int} (never : NeverRefused t)
    (check : Deadline cfg startTime st t (.done (checked, timeout))) (killing : checked.state = .killSent) :
    st.state = .killSent ∨ Killed t := by
  cases check with
  | unlimited unlimited => exact .inl killing
  | early limited now before => exact .inl killing
  | late limited now passed silent => exact .inl killing
  | @signaled now sig sends answer =>
    by_cases terminate : sig = SIGTERM
    · subst terminate
      have accepted : afterSignal SIGTERM answer = .termSent := by
        rcases answer with e | ⟨⟩
        · have gone := never (target cfg) e (by simp)
          simp [afterSignal, gone]
        · rfl
      have impossible : KillState.termSent = .killSent := accepted.symm.trans killing
      cases impossible
    · obtain ⟨_, _, _, ⟨_, _, impossible⟩ | ⟨_, _, rfl⟩ | ⟨_, rfl, _⟩⟩ := due_cases sends
      · exact absurd impossible terminate
      · exact .inr ⟨target cfg, by simp [signalBy]⟩
      · exact .inr ⟨target cfg, by simp [signalBy]⟩

theorem Head.killed (head : Head cfg drain reactor startTime t st) (never : NeverRefused t)
    (killing : st.state = .killSent) : Killed t := by
  induction head with
  | start step => cases killing
  | next before round ih =>
    rcases exec_body_signals round with ⟨c, impossible, _⟩ | ⟨t₁, t₂, checked, timeout, rfl, check, _, kept, _⟩
    · cases impossible
    rw [(kept _ rfl).1] at killing
    rw [← List.append_assoc]
    rcases check.killed never.second.first killing with already | killed
    · exact (ih never.first already).mono.mono
    · obtain ⟨recipient, sent⟩ := killed
      exact ⟨recipient, by simp [sent]⟩

/-- In every iteration of a run, `KillSent` is entered only with SIGKILL, and SIGKILL is out at the end
    of the timeout handling when SIGTERM was tried in an earlier iteration and the grace period, in
    whole milliseconds past the deadline, is exceeded. -/
structure Completes (cfg : WaitConfig) (drain : DrainState) (reactor : Reactor) (t : Trace) : Prop where
  entered : ∀ startTime before u after st checked timeout, t = before ++ (u ++ after) →
    Head cfg drain reactor startTime before st →
    Exec (checkDeadline cfg startTime st) u (.done (checked, timeout)) →
    st.state ≠ .killSent → checked.state = .killSent → Killed u
  exceeded : ∀ startTime before u after st checked timeout recipient (now : Nat) rest ms,
    t = before ++ (u ++ after) → Head cfg drain reactor startTime before st →
    Exec (checkDeadline cfg startTime st) u (.done (checked, timeout)) →
    (recipient, SIGTERM) ∈ signals before → u = ⟨.instantNow, now⟩ :: rest → cfg.timeoutMs = some ms →
    cfg.killGraceMs.toNat < asMillis (now - startTime - fromMillis ms.toNat) → Killed (before ++ u)

theorem completes_of_neverRefused (never : NeverRefused t) : Completes cfg drain reactor t where
  entered := by
    intro startTime before u after st checked timeout split head run waiting killing
    subst split
    have check := exec_checkDeadline run
    exact (check.killed never.second.first killing).resolve_left waiting
  exceeded := by
    intro startTime before u after st checked timeout recipient now rest ms split head run tried reading limited exceeds
    subst split
    have check := exec_checkDeadline run
    cases state : st.state with
    | none =>
      rw [head.escalated.quiet state] at tried
      cases tried
    | killSent => exact (head.killed never.first state).mono
    | termSent =>
      have passed : fromMillis ms.toNat ≤ now - startTime := by
        unfold asMillis at exceeds
        omega
      have sends : due cfg startTime st.state now = some SIGKILL := by
        rw [due_limited limited, if_pos passed, state]
        exact if_pos exceeds
      obtain ⟨now', rest', same, sent⟩ := check.signals limited
      cases (List.cons_eq_cons.mp (reading.symm.trans same)).1
      rw [sends] at sent
      exact ⟨target cfg, by simp [sent]⟩

theorem neverRefused_of_completes (run : Exec (waitLoop cfg drain reactor) t o)
    (completes : Completes cfg drain reactor t) : NeverRefused t := by
  intro recipient e member
  obtain ⟨before, after, split⟩ := List.append_of_mem member
  obtain ⟨rfl, startTime, earlier, st, now, rfl, head, sends⟩ := waiting_kill (run.before split)
  by_cases gone : e = ESRCH
  · exact gone
  · -- the refused SIGTERM leads to the last state, without SIGKILL
    have check := exec_signaled sends (.error e)
    have waiting : st.state ≠ .killSent := by
      intro killing
      rw [killing] at sends
      obtain ⟨_, _, _, ⟨impossible, _⟩ | ⟨impossible, _⟩ | ⟨impossible, _⟩⟩ := due_cases sends
      · cases impossible
      · cases impossible
      · cases impossible
    have killing : afterSignal SIGTERM (.error e) = .killSent := by simp [afterSignal, gone]
    have split : t = earlier ++ ([⟨.instantNow, now⟩, ⟨.kill (target cfg) SIGTERM, .error e⟩] ++ after) := by
      rw [split]
      simp
    obtain ⟨recipient, sent⟩ := completes.entered _ _ _ _ _ _ _ split head check waiting killing
    have terminating := List.mem_singleton.mp sent
    exact absurd (congrArg Prod.snd terminating) (show SIGKILL ≠ SIGTERM by decide)

/-- The escalation completes in a run if and only if no SIGTERM of it was refused with an error other
    than ESRCH. -/
theorem escalation_completes_iff (run : Exec (waitLoop cfg drain reactor) t o) :
    Completes cfg drain reactor t ↔ NeverRefused t :=
  ⟨neverRefused_of_completes run, completes_of_neverRefused⟩

def gracefully : WaitConfig := ⟨42, some 100, 50, .graceful, ⟨none, false⟩⟩

def terminated (now : Nat) (answer : Except Errno Unit) : Trace :=
  [⟨.waitpidNoHang 42, .ok none⟩, ⟨.instantNow, (0 : Nat)⟩, ⟨.instantNow, now⟩, ⟨.kill 42 SIGTERM, answer⟩]

theorem terminated_run {now : Nat} (answer : Except Errno Unit)
    (sends : due gracefully 0 .none now = some SIGTERM) :
    Exec (waitLoop gracefully noStreams ⟨3, 1, ⟨[], 64⟩, none, none, none⟩)
      (terminated now answer) (.waiting (.waitpidNoHang 42)) := by
  have head : Head gracefully noStreams ⟨3, 1, ⟨[], 64⟩, none, none, none⟩ 0
      ([⟨.waitpidNoHang 42, .ok none⟩] ++ [⟨.instantNow, (0 : Nat)⟩])
      ⟨noStreams, ⟨3, 1, ⟨[], 64⟩, none, none, none⟩, none, .none, false⟩ := .start (.of_replay 3 rfl)
  have check := @exec_signaled _ 0 _ ⟨noStreams, ⟨3, 1, ⟨[], 64⟩, none, none, none⟩, none, .none, false⟩ _ sends answer
  exact head.waiting (check.bind_done (.of_replay 3 rfl))

theorem sigterm_due : due gracefully 0 .none 200000000 = some SIGTERM := by
  decide +kernel

theorem terminated_disciplined :
    Disciplined gracefully noStreams ⟨3, 1, ⟨[], 64⟩, none, none, none⟩
      (terminated 200000000 (.ok ())) (.waiting (.waitpidNoHang 42)) := signal_discipline (terminated_run _ sigterm_due)

def stdoutOpen : DrainState := { noStreams with stdoutSlot := some ⟨some ⟨1⟩, ⟨5⟩⟩ }

/-- The child closes nothing and does not end after SIGTERM, so that the next iteration sends SIGKILL. -/
def escalated : Trace :=
  terminated 200000000 (.ok ()) ++
    [⟨.waitpidNoHang 42, .ok none⟩, ⟨.reserve 0 0 64, ⟨64, room_for_events⟩⟩,
      ⟨.epollWait 3 64 100, .ok ⟨[], Nat.zero_le _⟩⟩, ⟨.instantNow, (300000000 : Nat)⟩, ⟨.kill 42 SIGKILL, .ok ()⟩]

theorem escalated_run :
    Exec (waitLoop gracefully stdoutOpen ⟨3, 2, ⟨[], 64⟩, none, none, none⟩) escalated
      (.waiting (.waitpidNoHang 42)) := by
  have head : Head gracefully stdoutOpen ⟨3, 2, ⟨[], 64⟩, none, none, none⟩ 0
      ([⟨.waitpidNoHang 42, .ok none⟩] ++ [⟨.instantNow, (0 : Nat)⟩])
      ⟨stdoutOpen, ⟨3, 2, ⟨[], 64⟩, none, none, none⟩, none, .none, false⟩ := .start (.of_replay 3 rfl)
  have check := @exec_signaled _ 0 _ ⟨stdoutOpen, ⟨3, 2, ⟨[], 64⟩, none, none, none⟩, none, .none, false⟩ _
    sigterm_due (.ok ())
  have round : Exec (body gracefully 0 ⟨stdoutOpen, ⟨3, 2, ⟨[], 64⟩, none, none, none⟩, none, .none, false⟩)
      ([⟨.instantNow, (200000000 : Nat)⟩, ⟨.kill 42 SIGTERM, .ok ()⟩] ++ [⟨.waitpidNoHang 42, .ok none⟩,
        ⟨.reserve 0 0 64, ⟨64, room_for_events⟩⟩, ⟨.epollWait 3 64 100, .ok ⟨[], Nat.zero_le _⟩⟩])
      (.done (.inl ⟨stdoutOpen, ⟨3, 2, ⟨[], 64⟩, none, none, none⟩, none, .termSent, true⟩)) :=
    check.bind_done (.of_replay 9 rfl)
  have sends : due gracefully 0 .termSent 300000000 = some SIGKILL := by decide +kernel
  have again := @exec_signaled _ 0 _ ⟨stdoutOpen, ⟨3, 2, ⟨[], 64⟩, none, none, none⟩, none, .termSent, true⟩ _
    sends (.ok ())
  exact (head.next round).waiting (again.bind_done (.of_replay 3 rfl))

theorem terminated_completes :
    Completes gracefully stdoutOpen ⟨3, 2, ⟨[], 64⟩, none, none, none⟩ escalated ∧ Killed escalated := by
  constructor
  · apply (escalation_completes_iff escalated_run).mpr
    intro recipient e member
    simp [escalated, terminated] at member
  · exact ⟨42, by simp [escalated, terminated, signalBy]⟩

/-- A SIGTERM that is refused for want of permission ends the escalation. -/
theorem refused_sigterm_ends_escalation :
    ¬∀ (cfg : WaitConfig) (drain : DrainState) (reactor : Reactor) (t : Trace)
      (o : Outcome os (Except SysError Output)),
      cfg.cancel = .graceful → Exec (waitLoop cfg drain reactor) t o → Completes cfg drain reactor t := by
  intro complete
  have never := neverRefused_of_completes (terminated_run (.error EPERM) sigterm_due)
    (complete _ _ _ _ _ rfl (terminated_run _ sigterm_due))
  exact absurd (never 42 EPERM (by simp [terminated])) (by decide)

end

end WaitLoop

end CoreShift
