import CoreShift.Spawn.Status

namespace CoreShift

open Interaction

inductive Child where
  | running
  | zombie
  | reaped
  deriving DecidableEq, Repr

namespace Child

def reportedRunning (pid : Int) : Event os → Bool
  | ⟨.waitpidNoHang pid', .ok none⟩ => pid' = pid
  | _ => false

/-- What the child is after an exchange, when the answer is one that the kernel can give. -/
def answer (pid : Int) (child : Child) (e : Event os) : Option Child :=
  if statusBy pid e ≠ [] then (if child = .zombie then some .reaped else none)
  else if reportedRunning pid e then (if child = .running then some child else none)
  else some child

/-- `Lives pid start t child`: the child can be at `child` after the exchanges. It exits at any time. -/
inductive Lives (pid : Int) (start : Child) : Trace → Child → Prop where
  | start : Lives pid start [] start
  | exits {t : Trace} : Lives pid start t .running → Lives pid start t .zombie
  | answers {t : Trace} {child child' : Child} {e : Event os} : Lives pid start t child →
      child.answer pid e = some child' → Lives pid start (t ++ [e]) child'

theorem running_of_answer {pid : Int} {child : Child} {e : Event os}
    (step : child.answer pid e = some .running) : child = .running := by
  unfold answer at step
  split at step
  · split at step <;> cases step
  · split at step
    · rename_i running
      split at step
      · assumption
      · cases step
    · exact Option.some.inj step

theorem Lives.before {pid : Int} {start child : Child} {t t' u : Trace} (lives : Lives pid start u child)
    (now : child = .running) (split : u = t ++ t') : Lives pid start t .running := by
  induction lives generalizing t t' with
  | start =>
    obtain ⟨rfl, rfl⟩ := List.append_eq_nil_iff.mp split.symm
    rw [← now]
    exact .start
  | exits _ => cases now
  | @answers u child child' e lives step ih =>
    subst now
    have running := running_of_answer step
    rcases List.append_eq_append_iff.mp split with ⟨middle, same, last⟩ | ⟨middle, rfl, _⟩
    · cases middle with
      | nil =>
        rw [List.append_nil] at same
        rw [same, ← running]
        exact lives
      | cons e' middle =>
        obtain ⟨rfl, rest⟩ := List.cons_eq_cons.mp last
        obtain ⟨rfl, rfl⟩ := List.append_eq_nil_iff.mp rest.symm
        rw [same]
        exact lives.answers step
    · exact ih running rfl

theorem Lives.running {pid : Int} {start : Child} {t t' : Trace} (lives : Lives pid start t .running)
    (silent : ∀ e ∈ t', statusBy pid e = []) : Lives pid start (t ++ t') .running := by
  induction t' generalizing t with
  | nil => simpa using lives
  | cons e t' ih =>
    have here : Child.running.answer pid e = some .running := by
      simp [answer, silent e (by simp)]
    rw [show t ++ e :: t' = t ++ [e] ++ t' by simp]
    exact ih (lives.answers here) fun e' member => silent e' (by simp [member])

end Child

def Killed (t : Trace) : Prop := ∃ target, (target, SIGKILL) ∈ signals t

theorem Killed.mono {t t' : Trace} (killed : Killed t) : Killed (t ++ t') := by
  obtain ⟨target, sent⟩ := killed
  exact ⟨target, by simp [sent]⟩

namespace WaitLoop

variable {cfg : WaitConfig} {startTime : Nat} {st : LoopState} {t : Trace}

theorem not_waitpid_of_poll {α : Type} {p : Prog α} {pid : Int} (issues : p.Issues (isPollCall · = true)) :
    ¬Exec p t (.waiting (.waitpid pid)) := by
  intro run
  have impossible := (run.issues issues).2 _ rfl
  cases impossible

def Passive (pid : Int) (t : Trace) : Prop := ∀ e ∈ t, statusBy pid e = [] ∧ signalBy e = []

theorem Passive.append {pid : Int} {t t' : Trace} (first : Passive pid t) (second : Passive pid t') :
    Passive pid (t ++ t') := by
  intro e member
  rcases List.mem_append.mp member with member | member
  · exact first e member
  · exact second e member

theorem passive_replicate {pid : Int} {e : Event os} (k : Nat) (silent : statusBy pid e = [] ∧ signalBy e = []) :
    Passive pid (List.replicate k e) := by
  intro e' member
  rw [List.eq_of_mem_replicate member]
  exact silent

theorem passive_single {pid : Int} {e : Event os} (silent : statusBy pid e = [] ∧ signalBy e = []) :
    Passive pid [e] := passive_replicate 1 silent

theorem Iteration.waitpid (iteration : Iteration cfg startTime st t (.waiting (.waitpid cfg.pid))) :
    st.drain.isDone = true ∧ st.statusRaw = none ∧ ∃ t₁ t₂ checked timeout, t = t₁ ++ t₂ ∧
      Deadline cfg startTime st t₁ (.done (checked, timeout)) ∧ Passive cfg.pid t₂ := by
  cases iteration with
  | checking check => cases check
  | collecting check collect =>
    cases collect with
    | waiting missing step => cases step
  | abandoning check collect abandoned => exact absurd abandoned (not_waitpid_of_poll (abandon_issues _ _))
  | polling check collect pending polled => exact absurd polled (not_waitpid_of_poll (poll_issues _ _))
  | @finishing t₁ t₂ t₃ _ checked collected timeout check collect drained finished =>
    cases exec_finish finished with
    | present present delivered => exact absurd delivered (not_waitpid_of_poll (deliver_issues _ _ _))
    | waited missing wait delivered => exact absurd delivered (not_waitpid_of_poll (deliver_issues _ _ _))
    | failed missing wait abandoned => exact absurd abandoned (not_waitpid_of_poll (abandon_issues _ _))
    | waiting missing wait =>
      rw [collect.unchanged.2.1, check.unchanged.2.1] at drained
      cases wait with
      | waiting k =>
        cases collect with
        | already present => simp [present] at missing
        | reaped _ _ => cases missing
        | running missing step =>
          refine ⟨drained, check.unchanged.1.symm.trans missing, t₁, _, checked, timeout, rfl, check, ?_⟩
          cases step with
          | running k' =>
            apply Passive.append
            · exact (passive_replicate k' ⟨rfl, rfl⟩).append (passive_single ⟨rfl, rfl⟩)
            · exact passive_replicate k ⟨rfl, rfl⟩

/-- At every head at which no stream is left and the child runs, SIGKILL was sent or comes due at the
    reading that follows. -/
def KilledInTime (cfg : WaitConfig) (drain : DrainState) (reactor : Reactor) (t : Trace) : Prop :=
  ∀ startTime before now after st, t = before ++ ⟨.instantNow, now⟩ :: after →
    Head cfg drain reactor startTime before st → st.drain.isDone = true → st.statusRaw = none →
    Child.Lives cfg.pid .running before .running →
    Killed before ∨ due cfg startTime st.state now = some SIGKILL

theorem Deadline.signals {checked : LoopState} {timeout : Int} {ms : UInt32}
    (limited : cfg.timeoutMs = some ms) (check : Deadline cfg startTime st t (.done (checked, timeout))) :
    ∃ now rest, t = ⟨.instantNow, now⟩ :: rest ∧
      CoreShift.signals t = (due cfg startTime st.state now).toList.map (target cfg, ·) := by
  cases check with
  | unlimited unlimited => simp [limited] at unlimited
  | early limited' now before =>
    have silent : due cfg startTime st.state now = none := by
      rw [due_limited limited', if_neg (Nat.not_le_of_lt before)]
    exact ⟨now, [], rfl, by simp [silent, signalBy]⟩
  | late _ now passed silent => exact ⟨now, [], rfl, by simp [silent, signalBy]⟩
  | signaled now sends answer => exact ⟨now, _, rfl, by simp [sends, signalBy]⟩

theorem signals_of_passive {pid : Int} (passive : Passive pid t) : CoreShift.signals t = [] :=
  List.flatMap_eq_nil_iff.mpr fun e member => (passive e member).2

section
variable {drain : DrainState} {reactor : Reactor} {ms : UInt32}

theorem killed_of_killedInTime (limited : cfg.timeoutMs = some ms)
    (run : Exec (waitLoop cfg drain reactor) t (.waiting (.waitpid cfg.pid)))
    (inTime : KilledInTime cfg drain reactor t) (lives : Child.Lives cfg.pid .running t .running) :
    Killed t := by
  rcases exec_waitLoop run with ⟨c, same, step⟩ | ⟨t₁, t₂, e, rfl, step, rest⟩ | ⟨s, impossible, step⟩ |
    ⟨startTime, t₁, t₂, st, rfl, head, ⟨c, same, stopped⟩ | ⟨result, impossible, _⟩⟩
  · cases same
    cases step
  · refine absurd rest (not_waitpid_of_poll ?_)
    exact .bind (reactor_drop_issues _) fun _ => .bind (drain_drop_issues _) fun _ => trivial
  · cases impossible
  · cases same
    obtain ⟨drained, missing, u₁, u₂, checked, timeout, rfl, check, passive⟩ := (exec_body stopped).waitpid
    obtain ⟨now, rest, rfl, sent⟩ := check.signals limited
    have before := lives.before rfl rfl
    rcases inTime startTime t₁ now (rest ++ u₂) st rfl head drained missing before with killed | sends
    · exact killed.mono
    · refine ⟨target cfg, ?_⟩
      rw [signals_append, signals_append, sent, sends]
      simp
  · cases impossible

theorem killedInTime_of_killed (limited : cfg.timeoutMs = some ms)
    (run : Exec (waitLoop cfg drain reactor) t (.waiting (.waitpid cfg.pid)))
    (killed : Child.Lives cfg.pid .running t .running → Killed t) : KilledInTime cfg drain reactor t := by
  intro startTime before now after st split head drained missing lives
  subst split
  -- with the drain done no further iteration follows, so the run is within the iteration of this head
  obtain ⟨rounds, state, last, same, reached, stopped⟩ := exec_iterate_waiting.mp (head.rest run)
  have first : rounds = [] ∧ state = st := by
    have leaves : ∀ {u st'}, ¬Exec (body cfg startTime st) u (.done (.inl st')) := by
      intro u st' round
      obtain ⟨_, _, _, checked, collected, _, _, check, collect, pending, _⟩ := (exec_body round).polled
      rw [collect.unchanged.2.1, check.unchanged.2.1, drained] at pending
      cases pending
    clear stopped same
    induction reached with
    | start => exact ⟨rfl, rfl⟩
    | next _ round ih =>
      obtain ⟨-, rfl⟩ := ih
      exact absurd round leaves
  obtain ⟨rfl, rfl⟩ := first
  obtain ⟨-, -, u₁, u₂, checked, timeout, rfl, check, passive⟩ := (exec_body stopped).waitpid
  obtain ⟨now', rest, rfl, sent⟩ := check.signals limited
  rw [List.nil_append, List.cons_append] at same
  obtain ⟨reading, rfl⟩ := List.cons_eq_cons.mp same
  cases reading
  have silent : ∀ e ∈ (⟨.instantNow, now⟩ :: rest) ++ u₂, statusBy cfg.pid e = [] := by
    intro e member
    rcases List.mem_append.mp member with member | member
    · exact List.flatMap_eq_nil_iff.mp (check.statuses cfg.pid) e member
    · exact (passive e member).1
  obtain ⟨recipient, sends⟩ := killed (lives.running silent)
  rw [← List.cons_append, signals_append, signals_append, sent, signals_of_passive passive,
    List.append_nil] at sends
  rcases List.mem_append.mp sends with sends | sends
  · exact .inl ⟨recipient, sends⟩
  · obtain ⟨sig, raised, same⟩ := List.mem_map.mp sends
    cases same
    exact .inr (Option.mem_toList.mp raised)

/-- A run of `wait_loop` that waits for the child without a limit does so only with the child
    terminated or SIGKILL sent, if and only if SIGKILL was sent or comes due wherever an iteration
    begins with no stream left and the child running. -/
theorem unlimited_wait_iff (limited : cfg.timeoutMs = some ms)
    (run : Exec (waitLoop cfg drain reactor) t (.waiting (.waitpid cfg.pid))) :
    (∀ child, Child.Lives cfg.pid .running t child → child ≠ .running ∨ Killed t) ↔
      KilledInTime cfg drain reactor t := by
  apply Iff.intro
  · intro enforced
    apply killedInTime_of_killed limited run
    intro lives
    exact (enforced _ lives).resolve_left (by simp)
  · intro inTime child lives
    cases child with
    | running => exact .inr (killed_of_killedInTime limited run inTime lives)
    | zombie | reaped => exact .inl (by simp)

def noStreams : DrainState :=
  { stdoutSlot := none
    stderrSlot := none
    stdinSlot := none
    buffer := .new 0
    writer := .new none
    earlyExit := false }

theorem noStreams_run :
    Exec (waitLoop ⟨42, some 100, 0, .kill, ⟨none, false⟩⟩ noStreams ⟨3, 1, ⟨[], 64⟩, none, none, none⟩)
      [⟨.waitpidNoHang 42, .ok none⟩, ⟨.instantNow, (0 : Nat)⟩, ⟨.instantNow, (0 : Nat)⟩,
        ⟨.waitpidNoHang 42, .ok none⟩]
      (.waiting (.waitpid 42)) := by
  have head : Head ⟨42, some 100, 0, .kill, ⟨none, false⟩⟩ noStreams ⟨3, 1, ⟨[], 64⟩, none, none, none⟩ 0
      ([⟨.waitpidNoHang 42, .ok none⟩] ++ [⟨.instantNow, (0 : Nat)⟩])
      ⟨noStreams, ⟨3, 1, ⟨[], 64⟩, none, none, none⟩, none, .none, false⟩ := .start (.of_replay 3 rfl)
  exact head.waiting ((exec_early _ rfl (by decide +kernel)).bind_done (.of_replay 3 rfl))

theorem noStreams_lives :
    Child.Lives 42 .running
      [⟨.waitpidNoHang 42, .ok none⟩, ⟨.instantNow, (0 : Nat)⟩, ⟨.instantNow, (0 : Nat)⟩,
        ⟨.waitpidNoHang 42, .ok none⟩] .running :=
  Child.Lives.running .start (by simp [statusBy])

theorem noStreams_not_killed :
    ¬Killed [⟨.waitpidNoHang 42, .ok none⟩, ⟨.instantNow, (0 : Nat)⟩, ⟨.instantNow, (0 : Nat)⟩,
      ⟨.waitpidNoHang 42, .ok none⟩] := by
  intro killed
  obtain ⟨target, sent⟩ := killed
  cases sent

theorem killed_run :
    Exec (waitLoop ⟨42, some 100, 0, .kill, ⟨none, false⟩⟩ noStreams ⟨3, 1, ⟨[], 64⟩, none, none, none⟩)
      [⟨.waitpidNoHang 42, .ok none⟩, ⟨.instantNow, (0 : Nat)⟩, ⟨.instantNow, (200000000 : Nat)⟩,
        ⟨.kill 42 SIGKILL, .ok ()⟩, ⟨.waitpidNoHang 42, .ok none⟩]
      (.waiting (.waitpid 42)) := by
  have head : Head ⟨42, some 100, 0, .kill, ⟨none, false⟩⟩ noStreams ⟨3, 1, ⟨[], 64⟩, none, none, none⟩ 0
      ([⟨.waitpidNoHang 42, .ok none⟩] ++ [⟨.instantNow, (0 : Nat)⟩])
      ⟨noStreams, ⟨3, 1, ⟨[], 64⟩, none, none, none⟩, none, .none, false⟩ := .start (.of_replay 3 rfl)
  have sends : due ⟨42, some 100, 0, .kill, ⟨none, false⟩⟩ 0 .none 200000000 = some SIGKILL := by decide +kernel
  have check := @exec_signaled _ 0 _
    ⟨noStreams, ⟨3, 1, ⟨[], 64⟩, none, none, none⟩, none, .none, false⟩ _ sends (.ok ())
  exact head.waiting (check.bind_done (.of_replay 3 rfl))

theorem noStreams_not_killedInTime :
    ¬KilledInTime ⟨42, some 100, 0, .kill, ⟨none, false⟩⟩ noStreams ⟨3, 1, ⟨[], 64⟩, none, none, none⟩
      [⟨.waitpidNoHang 42, .ok none⟩, ⟨.instantNow, (0 : Nat)⟩, ⟨.instantNow, (0 : Nat)⟩,
        ⟨.waitpidNoHang 42, .ok none⟩] ∧
    KilledInTime ⟨42, some 100, 0, .kill, ⟨none, false⟩⟩ noStreams ⟨3, 1, ⟨[], 64⟩, none, none, none⟩
      [⟨.waitpidNoHang 42, .ok none⟩, ⟨.instantNow, (0 : Nat)⟩, ⟨.instantNow, (200000000 : Nat)⟩,
        ⟨.kill 42 SIGKILL, .ok ()⟩, ⟨.waitpidNoHang 42, .ok none⟩] := by
  constructor
  · intro inTime
    rcases (unlimited_wait_iff rfl noStreams_run).mpr inTime _ noStreams_lives with stopped | killed
    · exact stopped rfl
    · exact noStreams_not_killed killed
  · exact (unlimited_wait_iff rfl killed_run).mp fun child _ => .inr ⟨42, by simp [signalBy]⟩

theorem unlimited_wait_before_deadline :
    ¬∀ (cfg : WaitConfig) (drain : DrainState) (reactor : Reactor) (t : Trace),
      cfg.timeoutMs.isSome = true → cfg.cancel ≠ .none → (readings t).Pairwise (· ≤ ·) →
      Exec (waitLoop cfg drain reactor) t (.waiting (.waitpid cfg.pid)) →
      ∀ child, Child.Lives cfg.pid .running t child → child ≠ .running ∨ Killed t := by
  intro enforced
  rcases enforced _ _ _ _ rfl (by decide) (by decide) noStreams_run _ noStreams_lives with stopped | killed
  · exact stopped rfl
  · exact noStreams_not_killed killed

end

end WaitLoop

end CoreShift
