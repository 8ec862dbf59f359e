import CoreShift.Spawn.Group
import CoreShift.Observe

namespace CoreShift

open Interaction

/-- `ChildOf platform opts parentGroup pid m`: the spawn path that `resolve_backend` chooses created
    the child `pid`, and job control knows it as `m` when its program begins. The child starts in the
    group of its parent. -/
inductive ChildOf (platform : Platform) (opts : SpawnOptions) (parentGroup pid : Int) : Jobs.Member → Prop where
  | posixSpawn {before after : Trace} {path : CString} {actions : List FileAction} {attr : SpawnAttr}
      {argv : List CStrPtr} {envp : Option (List CStrPtr)} {drain : DrainState} {m : Jobs.Member}
      (backend : resolveBackend platform opts = .posixSpawn)
      (run : Exec (spawnPosixInternal opts) (before ++ ⟨.posixSpawn path actions attr argv envp, .ok pid⟩ :: after)
        (.done (.ok (pid, drain))))
      (acts : Jobs.Run ⟨pid, parentGroup, false⟩ (SpawnPosix.attrJobs attr) m) :
      ChildOf platform opts parentGroup pid m
  | fork {before after inChild : Trace} {path : CString} {argv : List CStrPtr} {envp : Option (List CStrPtr)}
      {drain : DrainState} {m : Jobs.Member} (backend : resolveBackend platform opts = .fork)
      (run : Exec (spawnForkInternal opts) (before ++ ⟨.fork, .ok pid⟩ :: after) (.done (.ok (pid, drain))))
      (child : Exec (spawnForkInternal opts) (before ++ ⟨.fork, .ok 0⟩ :: inChild)
        (.waiting (.execve path argv envp)))
      (acts : Jobs.Run ⟨pid, parentGroup, false⟩ (jobs inChild) m) : ChildOf platform opts parentGroup pid m

theorem drainPipes_issues (pipes : Pipes) (opts : SpawnOptions) (pid : Int) :
    (drainPipes pipes opts pid).Issues (isSetupCall · = true) := by
  have drained : ∀ stdin stdinBuf stdout stderr limit earlyExit,
      (DrainState.new stdin stdinBuf stdout stderr limit earlyExit).Issues (isSetupCall · = true) :=
    DrainState.new_issues_of (fun _ => rfl) (fun _ flags => nonblocking_or flags) fun _ => rfl
  refine .bind (dropFd_issues _) fun _ => .bind (dropFd_issues _) fun _ => .bind (dropFd_issues _) fun _ => ?_
  by_cases nothing : opts.stdin.isNone = true
  · simp only [nothing, ↓reduceIte]
    refine .bind (dropFd_issues _) fun _ => .bind (drained _ _ _ _ _ _) fun result => ?_
    rcases result with e | drain <;> trivial
  · simp only [nothing]
    refine .bind (drained _ _ _ _ _ _) fun result => ?_
    rcases result with e | drain <;> trivial

theorem exec_spawnPosix_waits {opts : SpawnOptions} {t : Trace} {c : Call}
    (run : Exec (spawnPosixInternal opts) t (.waiting c)) :
    isSetupCall c = true ∨ ∃ pipes actions attr, SpawnPosix.Prepared opts pipes actions attr t ∧
      c = .posixSpawn opts.ctx.exePtr actions attr opts.ctx.getArgvPtrs opts.ctx.getEnvpPtrs := by
  rcases exec_spawnPosix_launch run with setup | ⟨t₁, u, pipes, actions, attr, rfl, prepared, launching⟩
  · exact .inl (setup.waits c rfl)
  rcases launching.ask_cases with ⟨rfl, same⟩ | ⟨created, u, rfl, spawned⟩
  · cases same
    rw [List.append_nil]
    exact .inr ⟨pipes, actions, attr, prepared, rfl⟩
  · rcases created with e | pid
    · exact .inl ((spawned.issues (Pipes.failing_issues pipes _)).2 c rfl)
    · exact .inl ((spawned.issues (drainPipes_issues _ _ _)).2 c rfl)

namespace SpawnPosix

section
variable {opts : SpawnOptions} {before after : Trace} {path : CString} {actions : List FileAction} {attr : SpawnAttr}
  {argv : List CStrPtr} {envp : Option (List CStrPtr)} {pid : Int} {o : Outcome os (Except SysError (Int × DrainState))}

theorem exec_spawnPosix_waiting
    (run : Exec (spawnPosixInternal opts) before (.waiting (.posixSpawn path actions attr argv envp))) :
    ∃ pipes, Prepared opts pipes actions attr before := by
  rcases exec_spawnPosix_waits run with setup | ⟨pipes, actions', attr', prepared, same⟩
  · cases setup
  · cases same
    exact ⟨pipes, prepared⟩

theorem exec_spawnPosix_attr {created : Except Errno Int}
    (run : Exec (spawnPosixInternal opts) (before ++ ⟨.posixSpawn path actions attr argv envp, created⟩ :: after) o) :
    attr = attrOf opts.pgroup := by
  obtain ⟨pipes, prepared⟩ := exec_spawnPosix_waiting (run.before rfl)
  cases prepared with
  | steps _ _ _ building => exact exec_buildAttr_ok building

end

end SpawnPosix

namespace SpawnFork

section
variable {opts : SpawnOptions} {before inChild : Trace} {path : CString} {argv : List CStrPtr}
  {envp : Option (List CStrPtr)}

theorem exec_spawnFork_child
    (run : Exec (spawnForkInternal opts) (before ++ ⟨.fork, .ok 0⟩ :: inChild) (.waiting (.execve path argv envp))) :
    ∃ pipes, Exec (Pipes.new opts.stdin opts.captureStdout opts.captureStderr) before (.done (.ok pipes)) ∧
      Exec (child opts pipes : Prog (Except SysError (Int × DrainState))) inChild
        (.waiting (.execve path argv envp)) := by
  rcases exec_spawnFork run with quiet | ⟨t₁, t₂, pipes, pid, same, piping, ⟨rfl, child⟩ | ⟨parent, drained⟩⟩
  · exact absurd rfl (quiet _ (List.mem_append_right _ (List.mem_cons_self ..))).2
  · have notFork : ∀ {u : Trace}, (∀ e ∈ u, isSetupCall e.call = true) → (⟨.fork, .ok 0⟩ : Event os) ∉ u :=
      fun setup member => by cases setup _ member
    have first := notFork (piping.issues (Pipes.new_issues _ _ _)).1
    have second : (⟨.fork, .ok 0⟩ : Event os) ∉ t₂ := by
      refine notFork fun e member => ?_
      have called : e.call ∈ childCalls opts pipes := exec_child_execve child ▸ List.mem_map_of_mem member
      exact setup_of_child called
    obtain ⟨rfl, -, rfl⟩ := (List.append_cons_inj_of_notMem first second).mp same.symm
    exact ⟨pipes, piping, child⟩
  · cases (drained.issues (drainPipes_issues _ _ _)).2 _ rfl

theorem exec_spawnFork_execve
    (run : Exec (spawnForkInternal opts) (before ++ ⟨.fork, .ok 0⟩ :: inChild) (.waiting (.execve path argv envp))) :
    ∃ pipes, Exec (Pipes.new opts.stdin opts.captureStdout opts.captureStderr) before (.done (.ok pipes)) ∧
      inChild.map Event.call = childCalls opts pipes := by
  obtain ⟨pipes, piping, child⟩ := exec_spawnFork_child run
  exact ⟨pipes, piping, exec_child_execve child⟩

end

end SpawnFork

theorem isolated_of_posixSpawn {platform : Platform} {opts : SpawnOptions}
    (backend : resolveBackend platform opts = .posixSpawn) : opts.pgroup.isolated = false := by
  by_cases isolated : opts.pgroup.isolated = true
  · simp [resolveBackend, forceFork, isolated] at backend
  · exact Bool.eq_false_iff.mpr isolated

section
variable {platform : Platform} {opts : SpawnOptions} {parentGroup pid : Int} {m : Jobs.Member}

theorem ChildOf.acts (spawned : ChildOf platform opts parentGroup pid m) :
    ∃ started joined, Jobs.Run ⟨pid, parentGroup, false⟩ ((if opts.pgroup.isolated then [.setsid started] else []) ++
      opts.pgroup.leader.toList.map fun pg => .setpgid pg joined) m := by
  cases spawned with
  | posixSpawn backend run acts =>
    rw [SpawnPosix.exec_spawnPosix_attr run, SpawnPosix.attrJobs_attrOf] at acts
    refine ⟨false, true, ?_⟩
    simpa [isolated_of_posixSpawn backend] using acts
  | fork backend run child acts =>
    obtain ⟨pipes, -, calls⟩ := SpawnFork.exec_spawnFork_execve child
    obtain ⟨started, joined, same⟩ := SpawnFork.jobs_child calls
    rw [same] at acts
    exact ⟨started, joined, acts⟩

theorem ChildOf.denotes_iff (spawned : ChildOf platform opts parentGroup pid m) (proper : 1 < pid)
    (fresh : parentGroup ≠ pid) :
    Jobs.Denotes parentGroup (WaitLoop.target (.ofOptions opts pid)) m ↔
      opts.pgroup.isolated = true ∨ opts.pgroup.leader = none ∨ opts.pgroup.leader = some 0 ∨
        opts.pgroup.leader = some pid := by
  obtain ⟨started, joined, acts⟩ := spawned.acts
  have same : m.pid = pid := acts.pid
  have grouped : Jobs.Denotes parentGroup (-pid) m ↔ m.group = pid := by
    rw [← same]
    exact Jobs.denotes_group parentGroup (by omega)
  by_cases isolated : opts.pgroup.isolated = true
  · have target : WaitLoop.target (.ofOptions opts pid) = -pid := by
      simp [WaitLoop.target, WaitLoop.targetIsGroup, WaitConfig.ofOptions, isolated]
    simp only [isolated, ↓reduceIte, List.cons_append] at acts
    have own := (Jobs.run_session acts fresh).2
    rw [target, grouped, ← same]
    simp [own, isolated]
  · cases leader : opts.pgroup.leader with
    | none =>
      have target : WaitLoop.target (.ofOptions opts pid) = pid := by
        simp [WaitLoop.target, WaitLoop.targetIsGroup, WaitConfig.ofOptions, isolated, leader]
      have denotes := Jobs.denotes_pid (m := m) parentGroup (by omega)
      rw [target, ← same]
      simp [denotes]
    | some pg =>
      have target : WaitLoop.target (.ofOptions opts pid) = -pid := by
        simp [WaitLoop.target, WaitLoop.targetIsGroup, WaitConfig.ofOptions, leader]
      simp only [isolated, leader, Option.toList_some, List.map_cons, List.map_nil] at acts
      have own := Jobs.run_setpgid acts fresh rfl
      rw [same] at own
      rw [target, grouped, own]
      simp [isolated]

end

namespace WaitLoop

variable {cfg : WaitConfig} {drain : DrainState} {reactor : Reactor} {t : Trace}

theorem not_kill_of_poll {α : Type} {p : Prog α} {recipient sig : Int} (issues : p.Issues (isPollCall · = true)) :
    ¬Exec p t (.waiting (.kill recipient sig)) := by
  intro run
  cases (run.issues issues).2 _ rfl

theorem waiting_kill {recipient sig : Int}
    (run : Exec (waitLoop cfg drain reactor) t (.waiting (.kill recipient sig))) :
    recipient = target cfg ∧ ∃ startTime before st now, t = before ++ [⟨.instantNow, now⟩] ∧
      Head cfg drain reactor startTime before st ∧ due cfg startTime st.state now = some sig := by
  rcases exec_waitLoop run with ⟨c, same, step⟩ | ⟨t₁, t₂, e, rfl, step, rest⟩ | ⟨s, impossible, step⟩ |
    ⟨startTime, t₁, t₂, st, rfl, head, ⟨c, same, stopped⟩ | ⟨result, impossible, _⟩⟩
  · cases same
    cases step
  · refine absurd rest (not_kill_of_poll ?_)
    exact .bind (reactor_drop_issues _) fun _ => .bind (drain_drop_issues _) fun _ => trivial
  · cases impossible
  · cases same
    cases exec_body stopped with
    | checking check =>
      cases check with
      | signaling now sends => exact ⟨rfl, startTime, t₁, st, now, rfl, head, sends⟩
    | collecting check collect =>
      cases collect with
      | waiting missing step => cases step
    | abandoning check collect abandoned => exact absurd abandoned (not_kill_of_poll (abandon_issues _ _))
    | polling check collect pending polled => exact absurd polled (not_kill_of_poll (poll_issues _ _))
    | finishing check collect drained finished =>
      cases exec_finish finished with
      | present present delivered => exact absurd delivered (not_kill_of_poll (deliver_issues _ _ _))
      | waiting missing wait => cases wait
      | waited missing wait delivered => exact absurd delivered (not_kill_of_poll (deliver_issues _ _ _))
      | failed missing wait abandoned => exact absurd abandoned (not_kill_of_poll (abandon_issues _ _))
  · cases impossible

theorem signaling_run (cfg : WaitConfig) (drain : DrainState) (reactor : Reactor) {ms : UInt32}
    (limited : cfg.timeoutMs = some ms) (cancels : cfg.cancel ≠ .none) :
    ∃ t sig, Exec (waitLoop cfg drain reactor) t (.waiting (.kill (target cfg) sig)) ∧
      statuses cfg.pid t = [] := by
  have step : Exec (Process.mk cfg.pid).waitStep [⟨.waitpidNoHang cfg.pid, .ok none⟩] (.done (.ok none)) := by
    have asked : Exec (retry (.waitpidNoHang cfg.pid) interrupted) ([⟨.waitpidNoHang cfg.pid, .ok none⟩] ++ [])
        (.done (.ok none)) := .leave (.call _ (.ret _)) (.ret _)
    exact asked.bind_done (.ret _)
  have sends : ∃ sig, due cfg 0 .none (fromMillis ms.toNat) = some sig := by
    rw [due_limited limited, Nat.sub_zero, if_pos (Nat.le_refl _)]
    cases policy : cfg.cancel with
    | none => exact absurd policy cancels
    | graceful => exact ⟨SIGTERM, by simp only [dueSignal, policy]⟩
    | kill => exact ⟨SIGKILL, by simp only [dueSignal, policy]⟩
  obtain ⟨sig, sends⟩ := sends
  have head : Head cfg drain reactor 0 _ ⟨drain, reactor, none, .none, false⟩ := .start step
  exact ⟨_, sig, head.waiting (exec_due sends), by simp [statusBy]⟩

end WaitLoop

open WaitLoop in
/-- The signals that `wait_loop` sends while the child is alive reach it if and only if it is signaled
    by its pid, or is in the group of its own. -/
theorem signals_reach_child_iff {platform : Platform} {opts : SpawnOptions} {parentGroup pid : Int}
    {m : Jobs.Member} {ms : UInt32} (drain : DrainState) (reactor : Reactor)
    (spawned : ChildOf platform opts parentGroup pid m) (proper : 1 < pid) (fresh : parentGroup ≠ pid)
    (limited : opts.timeoutMs = some ms) (cancels : opts.cancel ≠ .none) :
    (∀ t recipient sig, Exec (waitLoop (.ofOptions opts pid) drain reactor) t (.waiting (.kill recipient sig)) →
      statuses pid t = [] → Jobs.Denotes parentGroup recipient m) ↔
      opts.pgroup.isolated = true ∨ opts.pgroup.leader = none ∨ opts.pgroup.leader = some 0 ∨
        opts.pgroup.leader = some pid := by
  rw [← spawned.denotes_iff proper fresh]
  apply Iff.intro
  · intro reaches
    obtain ⟨t, sig, run, alive⟩ := signaling_run (.ofOptions opts pid) drain reactor limited cancels
    exact reaches t _ sig run alive
  · intro denotes t recipient sig run _
    rw [(waiting_kill run).1]
    exact denotes

theorem slash_no_nul : (0 : UInt8) ∉ [47] := by
  decide

theorem slash_nonempty : [(⟨[47], slash_no_nul⟩ : CString)] ≠ [] := by
  simp

def ledBy (leader : Int) : SpawnOptions :=
  { ctx := ⟨[⟨[47], slash_no_nul⟩], none, none, slash_nonempty⟩
    stdin := none
    captureStdout := false
    captureStderr := false
    wait := true
    pgroup := ⟨some leader, false⟩
    maxOutput := 0
    timeoutMs := some 100
    killGraceMs := 0
    cancel := .kill
    backend := .auto
    earlyExit := false }

theorem childOf_ledBy_zero : ChildOf .linux (ledBy 0) 10 42 ⟨42, 42, false⟩ := by
  have run : Exec (spawnPosixInternal (ledBy 0))
      ([⟨.fileActionsInit, .ok ()⟩, ⟨.openProcSelfFd, .error 2⟩, ⟨.spawnattrInit, .ok ()⟩,
          ⟨.spawnattrSetpgroup 0, .ok ()⟩, ⟨.spawnattrSetflags 14, .ok ()⟩, ⟨.spawnattrSetsigmask [], .ok ()⟩,
          ⟨.spawnattrSetsigdefault [13], .ok ()⟩] ++
        ⟨.posixSpawn ⟨[47], slash_no_nul⟩ [] ⟨14, 0, [], [13]⟩ [some ⟨[47], slash_no_nul⟩, none] none, .ok 42⟩ :: [])
      (.done (.ok (42, ⟨none, none, none, .new 0, .new none, false⟩))) := .of_replay 3 rfl
  exact .posixSpawn rfl run (.cons (.joined rfl (by decide)) (.nil _))

theorem childOf_ledBy_seven : ChildOf .linux (ledBy 7) 10 42 ⟨42, 7, false⟩ := by
  have run : Exec (spawnPosixInternal (ledBy 7))
      ([⟨.fileActionsInit, .ok ()⟩, ⟨.openProcSelfFd, .error 2⟩, ⟨.spawnattrInit, .ok ()⟩,
          ⟨.spawnattrSetpgroup 7, .ok ()⟩, ⟨.spawnattrSetflags 14, .ok ()⟩, ⟨.spawnattrSetsigmask [], .ok ()⟩,
          ⟨.spawnattrSetsigdefault [13], .ok ()⟩] ++
        ⟨.posixSpawn ⟨[47], slash_no_nul⟩ [] ⟨14, 7, [], [13]⟩ [some ⟨[47], slash_no_nul⟩, none] none, .ok 42⟩ :: [])
      (.done (.ok (42, ⟨none, none, none, .new 0, .new none, false⟩))) := .of_replay 3 rfl
  exact .posixSpawn rfl run (.cons (.joined rfl (by decide)) (.nil _))

theorem signals_reach_own_group :
    ∃ t sig, Exec (waitLoop (.ofOptions (ledBy 0) 42) ⟨none, none, none, .new 0, .new none, false⟩
        ⟨3, 1, ⟨[], 64⟩, none, none, none⟩) t (.waiting (.kill (-42) sig)) ∧
      statuses 42 t = [] ∧ Jobs.Denotes 10 (-42) ⟨42, 42, false⟩ := by
  obtain ⟨t, sig, run, alive⟩ := WaitLoop.signaling_run (.ofOptions (ledBy 0) 42)
    ⟨none, none, none, .new 0, .new none, false⟩ ⟨3, 1, ⟨[], 64⟩, none, none, none⟩ rfl (by decide)
  have reached : Jobs.Denotes 10 (-42) ⟨42, 42, false⟩ :=
    (signals_reach_child_iff _ _ childOf_ledBy_zero (by decide) (by decide) rfl (by decide)).mpr (by decide)
      t _ sig run alive
  exact ⟨t, sig, run, alive, reached⟩

/-- The child joins group 7, and the signal goes to group 42. -/
theorem signal_misses_joined_group :
    ¬∀ (platform : Platform) (opts : SpawnOptions) (parentGroup pid : Int) (m : Jobs.Member) (drain : DrainState)
      (reactor : Reactor), ChildOf platform opts parentGroup pid m → 1 < pid → parentGroup ≠ pid →
      opts.timeoutMs.isSome = true → opts.cancel ≠ .none → ∀ t recipient sig,
      Exec (waitLoop (.ofOptions opts pid) drain reactor) t (.waiting (.kill recipient sig)) →
      statuses pid t = [] → Jobs.Denotes parentGroup recipient m := by
  intro reaches
  obtain ⟨t, sig, run, alive⟩ := WaitLoop.signaling_run (.ofOptions (ledBy 7) 42)
    ⟨none, none, none, .new 0, .new none, false⟩ ⟨3, 1, ⟨[], 64⟩, none, none, none⟩ rfl (by decide)
  have denoted := reaches _ _ _ _ _ _ _ childOf_ledBy_seven (by decide) (by decide) rfl (by decide) t _ sig run alive
  exact absurd denoted (by decide)

end CoreShift
