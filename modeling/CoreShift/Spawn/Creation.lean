import CoreShift.Spawn.Spawn

namespace CoreShift

open Interaction

def createdBy : Event os → Option Int
  | ⟨.posixSpawn _ _ _ _ _, .ok pid⟩ => some pid
  | ⟨.fork, .ok pid⟩ => if pid = 0 then none else some pid
  | _ => none

def isNonblockingCall : Call → Bool
  | .pipe2 flags | .fcntlSetFl _ flags => flags &&& O_NONBLOCK != 0
  | _ => true

def isSetupCall : Call → Bool
  | .posixSpawn _ _ _ _ _ | .fork | .execve _ _ _ => false
  | c => isNonblockingCall c

theorem nonblocking_of_setup {c : Call} (setup : isSetupCall c = true) : isNonblockingCall c = true := by
  cases c <;> first | rfl | exact setup

theorem nonblocking_or (flags : Nat) : ((flags ||| O_NONBLOCK) &&& O_NONBLOCK != 0) = true := by
  have kept : (flags ||| O_NONBLOCK) &&& O_NONBLOCK = O_NONBLOCK := by
    apply Nat.eq_of_testBit_eq
    intro i
    rw [Nat.testBit_and, Nat.testBit_or]
    cases flags.testBit i <;> cases O_NONBLOCK.testBit i <;> rfl
  rw [kept]
  decide

theorem createdBy_of_setup {e : Event os} (setup : isSetupCall e.call = true) : createdBy e = none := by
  obtain ⟨call, answer⟩ := e
  cases call <;> first | rfl | cases setup

theorem uncreated_of_issues {α : Type} {p : Prog α} {t : Trace} {o} (issues : p.Issues (isSetupCall · = true))
    (run : Exec p t o) : ∀ e ∈ t, createdBy e = none :=
  fun e member => createdBy_of_setup ((run.issues issues).1 e member)

theorem reactor_new_issues_of {allowed : Call → Prop} (creates : allowed .epollCreate1)
    (reserves : allowed (.reserve 0 0 64)) : Reactor.new.Issues allowed := by
  refine .bind ((Program.issues_ask _ _).mpr creates) fun answer => ?_
  rcases answer with e | epfd
  · trivial
  · exact .bind ((Program.issues_ask _ _).mpr reserves) fun _ => trivial

theorem dropFd_issues (fd : Option Fd) : (dropFd fd).Issues (isSetupCall · = true) := by
  cases fd with
  | none => trivial
  | some fd => exact .bind ((Program.issues_ask _ _).mpr rfl) fun _ => trivial

namespace Pipes

theorem pipeIf_issues (wanted : Bool) : (pipeIf wanted).Issues (isSetupCall · = true) := by
  unfold pipeIf
  split
  · refine .bind (.bind ((Program.issues_ask _ _).mpr rfl) fun answer => ?_) fun answer => ?_
    · rcases answer with e | ⟨r, w⟩ <;> trivial
    · rcases answer with e | ⟨r, w⟩ <;> trivial
  · trivial

theorem new_issues (inBuf : Option Bytes) (out err : Bool) : (new inBuf out err).Issues (isSetupCall · = true) := by
  refine .bind (pipeIf_issues _) fun answer => ?_
  rcases answer with e | ⟨stdinR, stdinW⟩
  · trivial
  refine .bind (pipeIf_issues _) fun answer => ?_
  rcases answer with e | ⟨stdoutR, stdoutW⟩
  · exact .bind (dropFd_issues _) fun _ => .bind (dropFd_issues _) fun _ => trivial
  refine .bind (pipeIf_issues _) fun answer => ?_
  rcases answer with e | ⟨stderrR, stderrW⟩
  · exact .bind (dropFd_issues _) fun _ => .bind (dropFd_issues _) fun _ =>
      .bind (dropFd_issues _) fun _ => .bind (dropFd_issues _) fun _ => trivial
  · trivial

theorem closeAll_issues (p : Pipes) : p.closeAll.Issues (isSetupCall · = true) :=
  .bind (dropFd_issues _) fun _ => .bind (dropFd_issues _) fun _ => .bind (dropFd_issues _) fun _ =>
    .bind (dropFd_issues _) fun _ => .bind (dropFd_issues _) fun _ => dropFd_issues _

theorem failing_issues {β : Type} (p : Pipes) (e : SysError) :
    (p.closeAll >>= fun _ => (pure (.error e) : Prog (Except SysError β))).Issues (isSetupCall · = true) :=
  .bind (closeAll_issues p) fun _ => trivial

end Pipes

namespace SpawnPosix

def isLibcCall : Call → Bool
  | .fileActionsInit | .fileActionsAddDup2 _ _ | .fileActionsAddClose _ | .spawnattrInit | .spawnattrSetpgroup _
  | .spawnattrSetflags _ | .spawnattrSetsigmask _ | .spawnattrSetsigdefault _ => true
  | _ => false

theorem setup_of_libc {c : Call} (libc : isLibcCall c = true) : isSetupCall c = true := by
  cases c <;> first | rfl | cases libc

theorem record_issues (steps : List (FileAction × String)) (actions : List FileAction) :
    (record steps actions).Issues (isLibcCall · = true) := by
  induction steps generalizing actions with
  | nil => trivial
  | cons step rest ih =>
    obtain ⟨action, op⟩ := step
    have added : (add action).Issues (isLibcCall · = true) := by
      cases action
      · exact (Program.issues_ask _ _).mpr rfl
      · exact (Program.issues_ask _ _).mpr rfl
    refine .bind added fun answer => ?_
    rcases answer with e | ⟨⟩
    · trivial
    · exact ih _

theorem closeListed_issues (handled : List Nat) (actions : List FileAction) :
    (closeListed handled actions).Issues (isSetupCall · = true) := by
  refine .bind ((Program.issues_ask _ _).mpr rfl) fun answer => ?_
  rcases answer with e | dirFd
  · trivial
  refine .bind ((Program.issues_ask _ _).mpr rfl) fun opened => ?_
  cases opened
  · exact .bind ((Program.issues_ask _ _).mpr rfl) fun _ => trivial
  refine .bind (.iterate _ fun actions => ?_) fun _ => .bind ((Program.issues_ask _ _).mpr rfl) fun _ => trivial
  refine .bind ((Program.issues_ask _ _).mpr rfl) fun entry => ?_
  rcases entry with _ | ⟨_ | fd⟩
  · trivial
  · trivial
  · show (if 2 < fd ∧ fd ≠ dirFd ∧ fd ∉ handled then _ else _ : Prog _).Issues _
    split
    · refine .bind ((Program.issues_ask _ _).mpr rfl) fun answer => ?_
      rcases answer with e | ⟨⟩ <;> trivial
    · trivial

theorem buildAttr_issues (pgroup : ProcessGroup) : (buildAttr pgroup).Issues (isLibcCall · = true) := by
  refine .bind ((Program.issues_ask _ _).mpr rfl) fun answer => ?_
  rcases answer with e | ⟨⟩
  · trivial
  have leading : ∀ attr, (setLeader attr pgroup.leader).Issues (isLibcCall · = true) := by
    intro attr
    unfold setLeader
    split
    · refine .bind ((Program.issues_ask _ _).mpr rfl) fun answer => ?_
      rcases answer with e | ⟨⟩ <;> trivial
    · trivial
  refine .bind (leading _) fun answer => ?_
  rcases answer with e | ⟨attr, flags⟩
  · trivial
  refine .bind ((Program.issues_ask _ _).mpr rfl) fun answer => ?_
  rcases answer with e | ⟨⟩
  · trivial
  refine .bind ((Program.issues_ask _ _).mpr rfl) fun answer => ?_
  rcases answer with e | ⟨⟩
  · trivial
  refine .bind ((Program.issues_ask _ _).mpr rfl) fun answer => ?_
  rcases answer with e | ⟨⟩ <;> trivial

inductive Prepared (opts : SpawnOptions) (pipes : Pipes) (actions : List FileAction) (attr : SpawnAttr) :
    Trace → Prop where
  | steps {t₁ t₂ t₃ t₄ : Trace} {recorded : List FileAction}
      (piped : Exec (Pipes.new opts.stdin opts.captureStdout opts.captureStderr) t₁ (.done (.ok pipes)))
      (recording : Exec (record (pipeActions pipes) []) t₂ (.done (.ok recorded)))
      (listing : Exec (closeListed (handledFds pipes) recorded) t₃ (.done actions))
      (building : Exec (buildAttr opts.pgroup) t₄ (.done (.ok attr))) :
      Prepared opts pipes actions attr (t₁ ++ ⟨.fileActionsInit, .ok ()⟩ :: (t₂ ++ (t₃ ++ t₄)))

theorem Prepared.setup {opts : SpawnOptions} {pipes : Pipes} {actions : List FileAction} {attr : SpawnAttr}
    {t : Trace} (prepared : Prepared opts pipes actions attr t) : ∀ e ∈ t, isSetupCall e.call = true := by
  cases prepared with
  | steps piped recording listing building =>
    intro e member
    simp only [List.mem_append, List.mem_cons] at member
    rcases member with member | rfl | member | member | member
    · exact (piped.issues (Pipes.new_issues _ _ _)).1 e member
    · rfl
    · exact setup_of_libc ((recording.issues (record_issues _ _)).1 e member)
    · exact (listing.issues (closeListed_issues _ _)).1 e member
    · exact setup_of_libc ((building.issues (buildAttr_issues _)).1 e member)

theorem Prepared.uncreated {opts : SpawnOptions} {pipes : Pipes} {actions : List FileAction} {attr : SpawnAttr}
    {t : Trace} (prepared : Prepared opts pipes actions attr t) : ∀ e ∈ t, createdBy e = none :=
  fun e member => createdBy_of_setup (prepared.setup e member)

end SpawnPosix

structure Setup {α : Type} (t : Trace) (o : Outcome os (Except SysError α)) : Prop where
  calls : ∀ e ∈ t, isSetupCall e.call = true
  waits : ∀ c, o = .waiting c → isSetupCall c = true
  fails : ∀ value, o ≠ .done (.ok value)

theorem Setup.after {α : Type} {t t' : Trace} {o : Outcome os (Except SysError α)}
    (first : ∀ e ∈ t, isSetupCall e.call = true) (second : Setup t' o) : Setup (t ++ t') o where
  calls e member := (List.mem_append.mp member).elim (first e) (second.calls e)
  waits := second.waits
  fails := second.fails

theorem Setup.stopped {α β : Type} {p : Prog β} {t : Trace} {c : Call} (run : Exec p t (.waiting c))
    (issues : p.Issues (isSetupCall · = true)) : Setup t (.waiting c : Outcome os (Except SysError α)) where
  calls := (run.issues issues).1
  waits c' same := by
    cases same
    exact (run.issues issues).2 c rfl
  fails value same := by cases same

theorem Setup.uncreated {α : Type} {t : Trace} {o : Outcome os (Except SysError α)} (setup : Setup t o) :
    ∀ e ∈ t, createdBy e = none :=
  fun e member => createdBy_of_setup (setup.calls e member)

theorem Pipes.exec_orClose {α β : Type} {p : Pipes} {step : Except SysError α}
    {rest : α → Prog (Except SysError β)} {t : Trace} {o} (run : Exec (p.orClose step rest) t o) :
    Setup t o ∨ ∃ value, step = .ok value ∧ Exec (rest value) t o := by
  rcases step with e | value
  · refine .inl ⟨(run.issues (Pipes.failing_issues p e)).1, (run.issues (Pipes.failing_issues p e)).2, ?_⟩
    rintro value rfl
    obtain ⟨_, _, _, _, _, rest⟩ := exec_bind_done.mp run
    cases ((exec_pure_iff _ _ _).mp rest).2
  · exact .inr ⟨value, rfl, run⟩

open SpawnPosix in
theorem exec_spawnPosix_launch {opts : SpawnOptions} {t : Trace} {o} (run : Exec (spawnPosixInternal opts) t o) :
    Setup t o ∨ ∃ t₁ u pipes actions attr, t = t₁ ++ u ∧ Prepared opts pipes actions attr t₁ ∧
      Exec (ask (.posixSpawn opts.ctx.exePtr actions attr opts.ctx.getArgvPtrs opts.ctx.getEnvpPtrs) >>= fun created =>
        pipes.orClose (posixRet created "posix_spawn") fun pid => drainPipes pipes opts pid) u o := by
  have records := fun steps actions => (record_issues steps actions).mono fun _ => setup_of_libc
  have builds := (buildAttr_issues opts.pgroup).mono fun _ => setup_of_libc
  have asks : (ask .fileActionsInit).Issues (isSetupCall · = true) := (Program.issues_ask _ _).mpr rfl
  rcases exec_bind_cases run with ⟨c, rfl, stopped⟩ | ⟨t₁, piped, u, rfl, piping, run⟩
  · exact .inl (.stopped stopped (Pipes.new_issues _ _ _))
  have first := (piping.issues (Pipes.new_issues _ _ _)).1
  rcases piped with e | pipes
  · obtain ⟨rfl, rfl⟩ := (exec_pure_iff _ _ _).mp run
    exact .inl (.after first ⟨by simp, by simp, by simp⟩)
  rcases exec_bind_cases run with ⟨c, rfl, stopped⟩ | ⟨t₀, answer, u, rfl, asked, run⟩
  · exact .inl (.after first (.stopped stopped asks))
  have init := (asked.issues asks).1
  rw [exec_ask_done] at asked
  rcases Pipes.exec_orClose run with quiet | ⟨⟨⟩, initialized, run⟩
  · exact .inl (.after first (.after init quiet))
  rcases exec_bind_cases run with ⟨c, rfl, stopped⟩ | ⟨t₂, recorded, u, rfl, recording, run⟩
  · exact .inl (.after first (.after init (.stopped stopped (records _ _))))
  have second := (recording.issues (records _ _)).1
  rcases Pipes.exec_orClose run with quiet | ⟨recorded, rfl, run⟩
  · exact .inl (.after first (.after init (.after second quiet)))
  rcases exec_bind_cases run with ⟨c, rfl, stopped⟩ | ⟨t₃, actions, u, rfl, listing, run⟩
  · exact .inl (.after first (.after init (.after second (.stopped stopped (closeListed_issues _ _)))))
  have third := (listing.issues (closeListed_issues _ _)).1
  rcases exec_bind_cases run with ⟨c, rfl, stopped⟩ | ⟨t₄, attr, u, rfl, building, run⟩
  · exact .inl (.after first (.after init (.after second (.after third (.stopped stopped builds)))))
  have fourth := (building.issues builds).1
  rcases Pipes.exec_orClose run with quiet | ⟨attr, rfl, launching⟩
  · exact .inl (.after first (.after init (.after second (.after third (.after fourth quiet)))))
  subst asked
  rcases answer with e | ⟨⟩
  · cases initialized
  · exact .inr ⟨_, u, pipes, actions, attr, by simp, .steps piping recording listing building, launching⟩

theorem exec_spawnPosix {opts : SpawnOptions} {t : Trace} {o} (run : Exec (spawnPosixInternal opts) t o) :
    (∀ e ∈ t, createdBy e = none) ∨
      ∃ t₁ t₂ pipes actions attr pid, SpawnPosix.Prepared opts pipes actions attr t₁ ∧
        t = t₁ ++ ⟨.posixSpawn opts.ctx.exePtr actions attr opts.ctx.getArgvPtrs opts.ctx.getEnvpPtrs, .ok pid⟩ ::
          t₂ ∧
        Exec (drainPipes pipes opts pid) t₂ o := by
  rcases exec_spawnPosix_launch run with setup | ⟨t₁, u, pipes, actions, attr, rfl, prepared, launching⟩
  · exact .inl setup.uncreated
  have before := prepared.uncreated
  rcases launching.ask_cases with ⟨rfl, rfl⟩ | ⟨created, u, rfl, spawned⟩
  · rw [List.append_nil]
    exact .inl before
  rcases created with e | pid
  · have closing := uncreated_of_issues (Pipes.failing_issues pipes _) spawned
    refine .inl fun e' member => ?_
    rcases List.mem_append.mp member with member | member
    · exact before e' member
    rcases List.mem_cons.mp member with rfl | member
    · rfl
    · exact closing e' member
  · exact .inr ⟨t₁, u, pipes, actions, attr, pid, prepared, rfl, spawned⟩

theorem exec_spawnFork {opts : SpawnOptions} {t : Trace} {o} (run : Exec (spawnForkInternal opts) t o) :
    (∀ e ∈ t, createdBy e = none ∧ e ≠ ⟨.fork, .ok 0⟩) ∨
      ∃ t₁ t₂ pipes pid, t = t₁ ++ ⟨.fork, .ok pid⟩ :: t₂ ∧
        Exec (Pipes.new opts.stdin opts.captureStdout opts.captureStderr) t₁ (.done (.ok pipes)) ∧
        (pid = 0 ∧ Exec (SpawnFork.child opts pipes) t₂ o ∨ pid ≠ 0 ∧ Exec (drainPipes pipes opts pid) t₂ o) := by
  have quiet : ∀ {α : Type} {p : Prog α} {t : Trace} {o}, p.Issues (isSetupCall · = true) → Exec p t o →
      ∀ e ∈ t, createdBy e = none ∧ e ≠ ⟨.fork, .ok 0⟩ := by
    intro α p t o issues run e member
    refine ⟨uncreated_of_issues issues run e member, fun same => ?_⟩
    have setup := (run.issues issues).1 e member
    rw [same] at setup
    cases setup
  rcases exec_bind_cases run with ⟨c, rfl, stopped⟩ | ⟨t₁, piped, u, rfl, piping, run⟩
  · exact .inl (quiet (Pipes.new_issues _ _ _) stopped)
  have first := quiet (Pipes.new_issues _ _ _) piping
  rcases piped with e | pipes
  · obtain ⟨rfl, -⟩ := (exec_pure_iff _ _ _).mp run
    rw [List.append_nil]
    exact .inl first
  rcases run.ask_cases with ⟨rfl, rfl⟩ | ⟨answer, u, rfl, rest⟩
  · rw [List.append_nil]
    exact .inl first
  rcases answer with e | pid
  · have closing := quiet (Pipes.failing_issues pipes _) rest
    refine .inl fun e' member => ?_
    rcases List.mem_append.mp member with member | member
    · exact first e' member
    rcases List.mem_cons.mp member with rfl | member
    · exact ⟨rfl, fun same => by cases same⟩
    · exact closing e' member
  · refine .inr ⟨t₁, u, pipes, pid, rfl, piping, ?_⟩
    by_cases child : pid = 0
    · simp only [child, ↓reduceIte] at rest
      exact .inl ⟨child, rest⟩
    · simp only [child, ↓reduceIte] at rest
      exact .inr ⟨child, rest⟩

end CoreShift
