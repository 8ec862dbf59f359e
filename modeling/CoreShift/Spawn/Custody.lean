import CoreShift.Spawn.Course
import CoreShift.Spawn.Interrupts

namespace CoreShift

open Interaction

def beginsProcess : Call → Bool
  | .fork | .posixSpawn _ _ _ _ _ => true
  | _ => false

def actsOnProcess : Call → Bool
  | .kill _ _ | .waitpid _ | .waitpidNoHang _ => true
  | _ => false

def created (t : Trace) : List Int := t.filterMap createdBy

theorem created_append (t t' : Trace) : created (t ++ t') = created t ++ created t' := List.filterMap_append ..

theorem created_of_none {t : Trace} (none : ∀ e ∈ t, createdBy e = .none) : created t = [] :=
  List.filterMap_eq_nil_iff.mpr none

theorem not_begins_of_setup {c : Call} (setup : isSetupCall c = true) : beginsProcess c = false := by
  cases c <;> first | rfl | cases setup

theorem not_begins_of_child {c : Call} (child : SpawnFork.isChildCall c = true) : beginsProcess c = false := by
  cases c <;> first | rfl | cases child

theorem not_acts_of_start {c : Call} (start : isStartCall c = true) : actsOnProcess c = false := by
  cases c <;> first | rfl | cases start

theorem uncreated_of_setup {α : Type} {p : Prog α} {t : Trace} {o} (issues : p.Issues (isSetupCall · = true))
    (run : Exec p t o) : created t = [] :=
  created_of_none (uncreated_of_issues issues run)

def BeginsFirst (t : Trace) (c : Call) : Prop := beginsProcess c = true → ∀ e ∈ t, beginsProcess e.call = false

theorem beginsFirst_of_setup {t : Trace} {c : Call} (setup : isSetupCall c = true) : BeginsFirst t c := by
  intro begins
  rw [not_begins_of_setup setup] at begins
  cases begins

theorem beginsFirst_of_quiet {t : Trace} {c : Call} (quiet : ∀ e ∈ t, isSetupCall e.call = true) : BeginsFirst t c :=
  fun _ e member => not_begins_of_setup (quiet e member)

theorem spawnPosix_beginsFirst {opts : SpawnOptions} {t : Trace} {c : Call}
    (run : Exec (spawnPosixInternal opts) t (.waiting c)) : BeginsFirst t c := by
  rcases exec_spawnPosix_waits run with setup | ⟨pipes, actions, attr, prepared, -⟩
  · exact beginsFirst_of_setup setup
  · exact beginsFirst_of_quiet prepared.setup

theorem spawnFork_beginsFirst {opts : SpawnOptions} {t : Trace} {c : Call}
    (run : Exec (spawnForkInternal opts) t (.waiting c)) : BeginsFirst t c := by
  rcases exec_bind_waiting.mp run with stopped | ⟨t₁, piped, u, rfl, piping, run⟩
  · exact beginsFirst_of_setup ((stopped.issues (Pipes.new_issues _ _ _)).2 c rfl)
  have first := (piping.issues (Pipes.new_issues _ _ _)).1
  rcases piped with e | pipes
  · cases ((exec_pure_iff _ _ _).mp run).2
  rcases run.ask_cases with ⟨rfl, _⟩ | ⟨answer, u, rfl, rest⟩
  · rw [List.append_nil]
    exact beginsFirst_of_quiet first
  rcases answer with e | pid
  · exact beginsFirst_of_setup ((rest.issues (Pipes.failing_issues pipes _)).2 c rfl)
  · by_cases child : pid = 0
    · simp only [child, ↓reduceIte] at rest
      have calls := (rest.issues (SpawnFork.child_issues opts pipes)).2 c rfl
      intro begins
      rw [not_begins_of_child calls] at begins
      cases begins
    · simp only [child, ↓reduceIte] at rest
      exact beginsFirst_of_setup ((rest.issues (drainPipes_issues _ _ _)).2 c rfl)

theorem spawnStart_beginsFirst {platform : Platform} {opts : SpawnOptions} {t : Trace} {c : Call}
    (run : Exec (spawnStart platform opts) t (.waiting c)) : BeginsFirst t c := by
  unfold spawnStart at run
  split at run
  · cases ((exec_pure_iff _ _ _).mp run).2
  · cases backend : resolveBackend platform opts with
    | posixSpawn =>
      rw [backend] at run
      exact spawnPosix_beginsFirst run
    | fork =>
      rw [backend] at run
      exact spawnFork_beginsFirst run

theorem spawnStart_created {platform : Platform} {opts : SpawnOptions} {t : Trace} {pid : Int} {drain : DrainState}
    (run : Exec (spawnStart platform opts) t (.done (.ok (pid, drain)))) : created t = [pid] := by
  obtain ⟨t₁, t₂, e, t₃, pipes, pid', rfl, made, launched, drained⟩ := exec_spawnStart_launched run
  have same : pid = pid' := (drainPipes_drain drained).1
  have prepares : created t₂ = [] := by
    cases launched with
    | posixSpawn backend prepared =>
      exact created_of_none fun e member => prepared.uncreated e (List.mem_append_right _ member)
    | fork => rfl
  have launch : created (e :: t₃) = pid' :: created t₃ := List.filterMap_cons_some launched.creates
  rw [created_append, created_append, uncreated_of_setup (Pipes.new_issues _ _ _) made, prepares, launch,
    uncreated_of_setup (drainPipes_issues _ _ _) drained, same]
  rfl

def Tended (opts : SpawnOptions) (pid : Int) (c : Call) : Prop :=
  beginsProcess c = false ∧
    (actsOnProcess c = true → opts.wait = true ∧ WaitLoop.LoopCall (.ofOptions opts pid) c)

theorem tended_of_close {opts : SpawnOptions} {pid : Int} {c : Call} (close : isClose c = true) :
    Tended opts pid c := by
  cases c
  case close => exact ⟨rfl, fun acts => by cases acts⟩
  all_goals cases close

theorem tended_of_loop {opts : SpawnOptions} {pid : Int} {c : Call} (waits : opts.wait = true)
    (loop : WaitLoop.LoopCall (.ofOptions opts pid) c) : Tended opts pid c := by
  refine ⟨?_, fun _ => ⟨waits, loop⟩⟩
  cases c <;> first | rfl | cases loop

theorem settle_tended (opts : SpawnOptions) (reactor : Reactor) (pid : Int) (drain : DrainState) :
    (settle opts reactor (.ok (pid, drain))).Issues (Tended opts pid) := by
  have reactors : ∀ r : Reactor, r.drop.Issues (Tended opts pid) :=
    fun r => (reactor_drop_closes r).mono fun _ => tended_of_close
  have drains : ∀ d : DrainState, d.drop.Issues (Tended opts pid) :=
    fun d => (DrainState.drop_closes d).mono fun _ => tended_of_close
  have registers : (drain.registerWithReactor reactor).Issues (Tended opts pid) :=
    registerWithReactor_issues_of (fun _ _ _ _ => ⟨rfl, fun acts => by cases acts⟩) (fun _ => tended_of_close) _ _
  refine .bind registers fun answer => ?_
  obtain ⟨drain, reactor, result⟩ := answer
  rcases result with e | ⟨⟩
  · exact .bind (drains _) fun _ => .bind (reactors _) fun _ => trivial
  · show (if !opts.wait then _ else _ : Prog _).Issues _
    by_cases waits : opts.wait = true
    · rw [if_neg (by simp [waits])]
      exact (WaitLoop.waitLoop_calls _ _ _).mono fun _ => tended_of_loop waits
    · rw [if_pos (by simp [waits])]
      exact .bind (.bind (drains _) fun _ => trivial) fun _ => .bind (reactors _) fun _ => trivial

def Reports (pid : Int) (waited : Bool) (result : Except SysError Output) : Prop :=
  ∀ out, result = .ok out → out.pid = pid ∧ out.status.isSome = waited

theorem deliver_reports (cfg : WaitConfig) (st : LoopState) (s : ExitStatus) :
    (WaitLoop.deliver cfg st s).Returns fun left => ∀ result, left = .inr result → Reports cfg.pid true result := by
  refine .bind fun _ => .bind fun _ => .bind fun _ result same out returned => ?_
  cases same
  cases returned
  exact ⟨rfl, rfl⟩

theorem abandon_reports (pid : Int) (st : LoopState) (e : SysError) :
    (WaitLoop.abandon st e).Returns fun left => ∀ result, left = .inr result → Reports pid true result := by
  refine .bind fun _ => .bind fun _ result same out returned => ?_
  cases same
  cases returned

theorem body_reports (cfg : WaitConfig) (startTime : Nat) (st : LoopState) :
    (WaitLoop.body cfg startTime st).Returns
      fun left => ∀ result, left = .inr result → Reports cfg.pid true result := by
  refine .bind fun checked => .bind fun collected => ?_
  obtain ⟨st, result⟩ := collected
  rcases result with e | ⟨⟩
  · exact abandon_reports cfg.pid st e
  · show (if st.drain.isDone = true then WaitLoop.finish cfg st else WaitLoop.poll st checked.2).Returns _
    split
    · unfold WaitLoop.finish
      split
      · exact deliver_reports cfg st _
      · refine .bind fun s => ?_
        rcases s with e | s
        · exact abandon_reports cfg.pid st e
        · exact deliver_reports cfg st s
    · refine .bind fun waited => ?_
      obtain ⟨reactor, events, result⟩ := waited
      rcases result with e | n
      · exact abandon_reports cfg.pid _ e
      · refine .bind fun dispatched => ?_
        obtain ⟨drain, result⟩ := dispatched
        rcases result with e | ⟨⟩
        · exact abandon_reports cfg.pid _ e
        · intro result same
          cases same

theorem waitLoop_reports {cfg : WaitConfig} {drain : DrainState} {reactor : Reactor} {t : Trace}
    {result : Except SysError Output} (run : Exec (waitLoop cfg drain reactor) t (.done result)) :
    Reports cfg.pid true result := by
  obtain ⟨_, stepped, _, rfl, _, rest⟩ := exec_bind_done.mp run
  rcases stepped with e | status
  · obtain ⟨_, _, _, _, _, rest⟩ := exec_bind_done.mp rest
    obtain ⟨_, _, _, _, _, rest⟩ := exec_bind_done.mp rest
    cases ((exec_pure_iff _ _ _).mp rest).2
    intro out returned
    cases returned
  · obtain ⟨_, startTime, _, rfl, _, looped⟩ := exec_bind_done.mp rest
    obtain ⟨_, st, _, rfl, _, left⟩ := exec_iterate_done.mp looped
    exact left.returns (body_reports cfg startTime st) result rfl

theorem settle_reports {opts : SpawnOptions} {reactor : Reactor} {pid : Int} {drain : DrainState} {t : Trace}
    {result : Except SysError Output} (run : Exec (settle opts reactor (.ok (pid, drain))) t (.done result)) :
    Reports pid opts.wait result := by
  obtain ⟨_, ⟨drain', reactor', registered⟩, _, rfl, _, rest⟩ := exec_bind_done.mp run
  rcases registered with e | ⟨⟩
  · obtain ⟨_, _, _, _, _, rest⟩ := exec_bind_done.mp rest
    obtain ⟨_, _, _, _, _, rest⟩ := exec_bind_done.mp rest
    cases ((exec_pure_iff _ _ _).mp rest).2
    intro out returned
    cases returned
  · change Exec (if !opts.wait then _ else _) _ _ at rest
    by_cases waits : opts.wait = true
    · rw [if_neg (by simp [waits])] at rest
      rw [waits]
      exact waitLoop_reports rest
    · rw [if_pos (by simp [waits])] at rest
      obtain ⟨_, _, _, _, _, rest⟩ := exec_bind_done.mp rest
      obtain ⟨_, _, _, _, _, rest⟩ := exec_bind_done.mp rest
      cases ((exec_pure_iff _ _ _).mp rest).2
      intro out returned
      cases returned
      exact ⟨rfl, (Bool.eq_false_iff.mpr waits).symm⟩

theorem new_quiet : Reactor.new.Issues fun c => isSetupCall c = true ∧ actsOnProcess c = false :=
  reactor_new_issues_of ⟨rfl, rfl⟩ ⟨rfl, rfl⟩

theorem not_acts {P : Prop} {c : Call} (quiet : actsOnProcess c = false) (acts : actsOnProcess c = true) : P := by
  rw [quiet] at acts
  cases acts

/-- A run of `spawn` begins one process at most. It passes only the pid of that process to `waitpid`, only the pid
    or its negation to `kill`, and none in the background; what it returns names that process. -/
theorem one_child {platform : Platform} {opts : SpawnOptions} {t : Trace} {o}
    (run : Exec (spawn platform opts) t o) :
    (∀ c, o = .waiting c → BeginsFirst t c ∧
      (actsOnProcess c = true → opts.wait = true ∧
        ∃ pid, created t = [pid] ∧ WaitLoop.LoopCall (.ofOptions opts pid) c)) ∧
      ∀ out, o = .done (.ok out) → created t = [out.pid] ∧ out.status.isSome = opts.wait := by
  refine ⟨fun c same => ?_, fun out same => ?_⟩
  · subst same
    rcases exec_bind_waiting.mp run with stopped | ⟨t₀, made, u, rfl, polled, rest⟩
    · obtain ⟨setup, quiet⟩ := (stopped.issues new_quiet).2 c rfl
      exact ⟨beginsFirst_of_setup setup, not_acts quiet⟩
    have first := polled.issues new_quiet
    rcases made with e | reactor
    · cases ((exec_pure_iff _ _ _).mp rest).2
    rcases exec_bind_waiting.mp rest with stopped | ⟨t₁, started, t₂, rfl, starting, settling⟩
    · refine ⟨fun begins => ?_, not_acts (not_acts_of_start ((stopped.issues (spawnStart_starts _ _)).2 c rfl))⟩
      have later := spawnStart_beginsFirst stopped begins
      exact List.forall_mem_append.mpr ⟨fun e member => not_begins_of_setup (first.1 e member).1, later⟩
    rcases started with e | ⟨pid, drain⟩
    · have closes : (settle opts reactor (.error e)).Issues (isClose · = true) :=
        .bind (reactor_drop_closes reactor) fun _ => trivial
      have close := (settling.issues closes).2 c rfl
      exact ⟨beginsFirst_of_setup (setup_of_close close), not_acts (not_acts_of_start (start_of_close close))⟩
    · obtain ⟨unbegun, tended⟩ := (settling.issues (settle_tended opts reactor pid drain)).2 c rfl
      have polls : created t₀ = [] := created_of_none fun e member => createdBy_of_setup (first.1 e member).1
      have one : created (t₀ ++ (t₁ ++ t₂)) = [pid] := by
        rw [created_append, created_append, polls, spawnStart_created starting,
          uncreated_of_setup (settle_issues _ _ _) settling]
        rfl
      refine ⟨fun begins => ?_, fun acts => ?_⟩
      · rw [unbegun] at begins
        cases begins
      · obtain ⟨waits, loop⟩ := tended acts
        exact ⟨waits, pid, one, loop⟩
  · subst same
    obtain ⟨c, rfl⟩ := exec_spawn_course run
    obtain ⟨same, reported⟩ := settle_reports c.settled out rfl
    have polls : created c.polls = [] :=
      created_of_none fun e member => createdBy_of_setup ((c.polled.issues new_quiet).1 e member).1
    have whole : c.trace = c.polls ++ ((c.makes ++ (c.prepares ++ c.launch :: c.drains)) ++ c.settles) := by
      simp [Course.trace]
    refine ⟨?_, reported⟩
    rw [whole, created_append, created_append, polls, spawnStart_created c.started,
      uncreated_of_setup (settle_issues _ _ _) c.settled, same]
    rfl

theorem captured_alone : created (capturingStart ++ capturingChild :: oftenInterrupted) = [42] := by
  have run : Exec (spawn .linux capturing) (capturingStart ++ capturingChild :: oftenInterrupted)
      (.done (.ok ⟨42, some (.exited 0), [104], [], false⟩)) := .of_replay 5 rfl
  exact ((one_child run).2 _ rfl).1

end CoreShift
