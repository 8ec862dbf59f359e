import CoreShift.Spawn.Faults
import CoreShift.Spawn.Signals
import CoreShift.Spawn.Orphan

namespace CoreShift

open Interaction

/-- What comes of the child's own calls: of `setpgid`, and of `execve`, which returns only to report an
    error. -/
structure ChildSetup where
  join : Except Errno Unit
  exec : Option Errno

def ChildSetup.failure (setup : ChildSetup) (joins : Bool) : Option Errno :=
  match joins, setup.join with
  | true, .error e => some e
  | _, _ => setup.exec

def refused : Event os → Bool
  | ⟨.pipe2 _, .error _⟩ | ⟨.fork, .error _⟩ | ⟨.fileActionsInit, .error _⟩ | ⟨.fileActionsAddDup2 _ _, .error _⟩
  | ⟨.fileActionsAddClose _, .error _⟩ | ⟨.spawnattrInit, .error _⟩ | ⟨.spawnattrSetpgroup _, .error _⟩
  | ⟨.spawnattrSetflags _, .error _⟩ | ⟨.spawnattrSetsigmask _, .error _⟩
  | ⟨.spawnattrSetsigdefault _, .error _⟩ => true
  | e => isFault e

def startFault : Event os → Bool
  | ⟨.posixSpawn _ _ _ _ _, .error _⟩ => true
  | e => refused e

theorem startFault_cases {e : Event os} (fault : startFault e = true) :
    refused e = true ∨
      ∃ path actions attr argv envp errno, e = ⟨.posixSpawn path actions attr argv envp, .error errno⟩ := by
  obtain ⟨call, answer⟩ := e
  cases call
  case posixSpawn path actions attr argv envp =>
    rcases answer with errno | pid
    · exact .inr ⟨path, actions, attr, argv, envp, errno, rfl⟩
    · cases fault
  all_goals exact .inl fault

theorem startFault_of_refused (e : Event os) (refusal : refused e = true) : startFault e = true := by
  obtain ⟨call, answer⟩ := e
  cases call <;> first | exact refusal | cases refusal

abbrev Blamed {α : Type} (blame : Event os → Bool) (failed : α → Prop) (p : Prog α) : Prop :=
  FailsFor (fun e => blame e = true) failed p

section
variable {α β : Type} {blame : Event os → Bool} {failed : β → Prop}

theorem blamed_ok (value : α) : Blamed blame Fails (pure (.ok value) : Prog (Except SysError α)) :=
  failsFor_of_returns (not_fails_ok value)

theorem Blamed.andThen {p : Prog (Except SysError α)} {rest : Except SysError α → Prog β} (first : Blamed blame Fails p)
    (goesOn : ∀ value, Blamed blame failed (rest (.ok value))) : Blamed blame failed (p >>= rest) := by
  refine FailsFor.bind first fun result succeeds => ?_
  rcases result with e | value
  · exact absurd (fails_error e) succeeds
  · exact goesOn value

theorem ask_blamed {c : Call} {rest : c.Answer → Prog β}
    (goesOn : ∀ answer, blame ⟨c, answer⟩ = false → Blamed blame failed (rest answer)) :
    Blamed blame failed (ask c >>= rest) :=
  FailsFor.bind failsFor_ask fun answer granted => goesOn answer (Bool.eq_false_iff.mpr granted)

theorem blamed_after {p : Prog α} {rest : α → Prog β} (goesOn : ∀ value, Blamed blame failed (rest value)) :
    Blamed blame failed (p >>= rest) := by
  have first : Blamed blame (fun _ => False) p := fun _ _ _ fails => fails.elim
  exact FailsFor.bind first fun value _ => goesOn value

end

namespace Pipes

theorem pipeIf_blamed (wanted : Bool) : Blamed refused Fails (pipeIf wanted) := by
  have made : Blamed refused Fails makePipe := by
    refine ask_blamed fun answer granted => ?_
    rcases answer with e | ⟨r, w⟩
    · cases granted
    · exact blamed_ok _
  unfold pipeIf
  split
  · exact made.andThen fun ⟨r, w⟩ => blamed_ok _
  · exact blamed_ok _

theorem new_blamed (inBuf : Option Bytes) (out err : Bool) : Blamed refused Fails (new inBuf out err) :=
  (pipeIf_blamed _).andThen fun ⟨_, _⟩ => (pipeIf_blamed _).andThen fun ⟨_, _⟩ =>
    (pipeIf_blamed _).andThen fun ⟨_, _⟩ => blamed_ok _

end Pipes

theorem refused_of_fault (e : Event os) (fault : isFault e = true) : refused e = true := by
  obtain ⟨call, answer⟩ := e
  cases call <;> first | exact fault | cases fault

theorem drainPipes_blamed (p : Pipes) (opts : SpawnOptions) (pid : Int) :
    Blamed refused Fails (drainPipes p opts pid) :=
  (drainPipes_sound p opts pid).failsFor refused_of_fault

namespace SpawnPosix

theorem record_blamed (steps : List (FileAction × String)) (actions : List FileAction) :
    Blamed refused Fails (record steps actions) := by
  induction steps generalizing actions with
  | nil => exact blamed_ok _
  | cons step rest ih =>
    obtain ⟨action, op⟩ := step
    cases action with
    | dup2 fd newfd =>
      refine ask_blamed fun answer granted => ?_
      rcases answer with e | ⟨⟩
      · cases granted
      · exact ih _
    | close fd =>
      refine ask_blamed fun answer granted => ?_
      rcases answer with e | ⟨⟩
      · cases granted
      · exact ih _

theorem buildAttr_blamed (pgroup : ProcessGroup) : Blamed refused Fails (buildAttr pgroup) := by
  have leading : ∀ attr, Blamed refused Fails (setLeader attr pgroup.leader) := by
    intro attr
    unfold setLeader
    split
    · refine ask_blamed fun answer granted => ?_
      rcases answer with e | ⟨⟩
      · cases granted
      · exact blamed_ok _
    · exact blamed_ok _
  refine ask_blamed fun answer granted => ?_
  rcases answer with e | ⟨⟩
  · cases granted
  refine (leading _).andThen fun ⟨attr, flags⟩ => ask_blamed fun answer granted => ?_
  rcases answer with e | ⟨⟩
  · cases granted
  refine ask_blamed fun answer granted => ?_
  rcases answer with e | ⟨⟩
  · cases granted
  refine ask_blamed fun answer granted => ?_
  rcases answer with e | ⟨⟩
  · cases granted
  · exact blamed_ok _

end SpawnPosix

open SpawnPosix in
theorem spawnPosix_blamed (opts : SpawnOptions) : Blamed startFault Fails (spawnPosixInternal opts) := by
  refine Blamed.andThen ((Pipes.new_blamed _ _ _).mono startFault_of_refused) fun pipes => ?_
  refine ask_blamed fun answer granted => ?_
  rcases answer with e | ⟨⟩
  · cases granted
  refine Blamed.andThen ((record_blamed _ _).mono startFault_of_refused) fun recorded => blamed_after fun actions => ?_
  refine Blamed.andThen ((buildAttr_blamed _).mono startFault_of_refused) fun attr => ?_
  refine ask_blamed fun answer granted => ?_
  rcases answer with e | pid
  · cases granted
  · exact (drainPipes_blamed _ _ _).mono startFault_of_refused

theorem spawnFork_blamed (opts : SpawnOptions) : Blamed refused Fails (spawnForkInternal opts) := by
  refine (Pipes.new_blamed _ _ _).andThen fun pipes => ask_blamed fun answer granted => ?_
  rcases answer with e | pid
  · cases granted
  · show Blamed refused Fails (if pid = 0 then SpawnFork.child opts pipes else drainPipes pipes opts pid)
    by_cases child : pid = 0
    · rw [if_pos child]
      exact fun t value run => (run.returns (SpawnFork.child_returns opts pipes)).elim
    · rw [if_neg child]
      exact drainPipes_blamed _ _ _

/-- `posix_spawn` answers with what has failed in the child. -/
def ChildSetup.Reported (setup : ChildSetup) (attr : SpawnAttr) (answer : Except Errno Int) : Prop :=
  match setup.failure (attr.flags &&& POSIX_SPAWN_SETPGROUP ≠ 0) with
  | some e => answer = .error e
  | none => ∃ pid, answer = .ok pid

/-- A run of `spawn_start` in which nothing fails except in the child. -/
structure Starts (platform : Platform) (opts : SpawnOptions) (setup : ChildSetup) (t : Trace)
    (result : Except SysError (Int × DrainState)) : Prop where
  run : Exec (spawnStart platform opts) t (.done result)
  granted : ∀ e ∈ t, refused e = false
  reported : ∀ path actions attr argv envp answer, ⟨.posixSpawn path actions attr argv envp, answer⟩ ∈ t →
    setup.Reported attr answer

/-- `Begun platform opts setup parentGroup t m`: the run of `spawn_start` began the program that job
    control knows as `m`. The child starts in the group of its parent. -/
inductive Begun (platform : Platform) (opts : SpawnOptions) (setup : ChildSetup) (parentGroup : Int) :
    Trace → Jobs.Member → Prop where
  | posixSpawn {before after : Trace} {path : CString} {actions : List FileAction} {attr : SpawnAttr}
      {argv : List CStrPtr} {envp : Option (List CStrPtr)} {pid : Int} {m : Jobs.Member}
      (backend : resolveBackend platform opts = .posixSpawn)
      (acts : Jobs.Run ⟨pid, parentGroup, false⟩ (SpawnPosix.attrJobs attr) m) :
      Begun platform opts setup parentGroup (before ++ ⟨.posixSpawn path actions attr argv envp, .ok pid⟩ :: after) m
  | fork {before after inChild : Trace} {path : CString} {argv : List CStrPtr} {envp : Option (List CStrPtr)}
      {pid : Int} {m : Jobs.Member} (backend : resolveBackend platform opts = .fork)
      (child : Exec (spawnStart platform opts) (before ++ ⟨.fork, .ok 0⟩ :: inChild)
        (.waiting (.execve path argv envp)))
      (joins : ∀ pgid answer, ⟨.setpgid 0 pgid, answer⟩ ∈ inChild → answer = setup.join) (begins : setup.exec = none)
      (acts : Jobs.Run ⟨pid, parentGroup, false⟩ (jobs inChild) m) :
      Begun platform opts setup parentGroup (before ++ ⟨.fork, .ok pid⟩ :: after) m

def groupFor (parentGroup pid : Int) : Option Int → Int
  | none => parentGroup
  | some pgid => if pgid = 0 then pid else pgid

def SameGroup (m m' : Jobs.Member) : Prop := m.group = m'.group ∨ m.group = m.pid ∧ m'.group = m'.pid

structure Alike (platform : Platform) (opts : SpawnOptions) (setup : ChildSetup) (t t' : Trace)
    (result result' : Except SysError (Int × DrainState)) : Prop where
  fails : Fails result ↔ Fails result'
  group : ¬Fails result → ¬Fails result' → ∀ parentGroup m m',
    Begun platform { opts with backend := .posixSpawn } setup parentGroup t m →
      Begun platform { opts with backend := .fork } setup parentGroup t' m' → SameGroup m m'

def capturesInBackground (opts : SpawnOptions) : Bool :=
  !opts.wait && (opts.stdin.isSome || opts.captureStdout || opts.captureStderr)

section
variable {platform : Platform} {opts : SpawnOptions} {setup : ChildSetup} {t : Trace}
  {result : Except SysError (Int × DrainState)}

theorem joins_attrOf (pgroup : ProcessGroup) :
    decide ((SpawnPosix.attrOf pgroup).flags &&& POSIX_SPAWN_SETPGROUP ≠ 0) = pgroup.leader.isSome := by
  cases leader : pgroup.leader <;> simp [SpawnPosix.attrOf, leader, POSIX_SPAWN_SETPGROUP, POSIX_SPAWN_SETSIGMASK,
    POSIX_SPAWN_SETSIGDEF]

theorem spawnPosix_fails_iff (run : Exec (spawnPosixInternal opts) t (.done result))
    (granted : ∀ e ∈ t, refused e = false)
    (reported : ∀ path actions attr argv envp answer, ⟨.posixSpawn path actions attr argv envp, answer⟩ ∈ t →
      setup.Reported attr answer) : Fails result ↔ setup.failure opts.pgroup.leader.isSome ≠ none := by
  have attributes : ∀ {path actions attr argv envp answer}, ⟨.posixSpawn path actions attr argv envp, answer⟩ ∈ t →
      decide (attr.flags &&& POSIX_SPAWN_SETPGROUP ≠ 0) = opts.pgroup.leader.isSome := by
    intro path actions attr argv envp answer member
    obtain ⟨before, after, rfl⟩ := List.append_of_mem member
    rw [SpawnPosix.exec_spawnPosix_attr run, joins_attrOf]
  apply Iff.intro
  · intro fails nothing
    obtain ⟨e, member, fault⟩ := spawnPosix_blamed opts t result run fails
    rcases startFault_cases fault with refusal | ⟨path, actions, attr, argv, envp, errno, rfl⟩
    · simp [granted e member] at refusal
    · have report := reported _ _ _ _ _ _ member
      unfold ChildSetup.Reported at report
      rw [attributes member, nothing] at report
      obtain ⟨pid, impossible⟩ := report
      cases impossible
  · intro failure
    obtain ⟨e, failed⟩ := Option.ne_none_iff_exists'.mp failure
    rcases exec_spawnPosix_launch run with setup' | ⟨t₁, u, pipes, actions, attr, rfl, prepared, launching⟩
    · rcases result with e | value
      · exact fails_error e
      · exact absurd rfl (setup'.fails value)
    · obtain ⟨answer, u', rfl, spawned⟩ := launching.ask_done
      have member := List.mem_append_right t₁ (List.mem_cons_self (a := (⟨.posixSpawn opts.ctx.exePtr actions attr
        opts.ctx.getArgvPtrs opts.ctx.getEnvpPtrs, answer⟩ : Event os)) (l := u'))
      have report := reported _ _ _ _ _ _ member
      unfold ChildSetup.Reported at report
      rw [attributes member, failed] at report
      subst report
      obtain ⟨_, _, _, _, _, rest⟩ := exec_bind_done.mp spawned
      cases ((exec_pure_iff _ _ _).mp rest).2
      exact fails_error _

theorem spawnFork_succeeds (run : Exec (spawnForkInternal opts) t (.done result))
    (granted : ∀ e ∈ t, refused e = false) : ¬Fails result := by
  intro fails
  obtain ⟨e, member, refusal⟩ := spawnFork_blamed opts t result run fails
  simp [granted e member] at refusal

theorem spawnStart_of_captures (captures : capturesInBackground opts = true) :
    spawnStart platform opts =
      pure (.error (.sys EINVAL "background I/O capture not supported (wait must be true)")) :=
  if_pos captures

theorem spawnStart_of_posixSpawn (supported : capturesInBackground opts = false)
    (backend : resolveBackend platform opts = .posixSpawn) : spawnStart platform opts = spawnPosixInternal opts := by
  have checked : ¬(!opts.wait && (opts.stdin.isSome || opts.captureStdout || opts.captureStderr)) = true :=
    ne_true_of_eq_false supported
  unfold spawnStart
  rw [if_neg checked, backend]

theorem spawnStart_of_fork (supported : capturesInBackground opts = false)
    (backend : resolveBackend platform opts = .fork) : spawnStart platform opts = spawnForkInternal opts := by
  have checked : ¬(!opts.wait && (opts.stdin.isSome || opts.captureStdout || opts.captureStderr)) = true :=
    ne_true_of_eq_false supported
  unfold spawnStart
  rw [if_neg checked, backend]

theorem Starts.captures (starts : Starts platform opts setup t result) (captures : capturesInBackground opts = true) :
    Fails result := by
  have run := starts.run
  rw [spawnStart_of_captures captures] at run
  cases ((exec_pure_iff _ _ _).mp run).2
  exact fails_error _

theorem Starts.posix_fails_iff (starts : Starts platform opts setup t result)
    (supported : capturesInBackground opts = false) (backend : resolveBackend platform opts = .posixSpawn) :
    Fails result ↔ setup.failure opts.pgroup.leader.isSome ≠ none := by
  have run := starts.run
  rw [spawnStart_of_posixSpawn supported backend] at run
  exact spawnPosix_fails_iff run starts.granted starts.reported

theorem Starts.fork_succeeds (starts : Starts platform opts setup t result)
    (supported : capturesInBackground opts = false) (backend : resolveBackend platform opts = .fork) :
    ¬Fails result := by
  have run := starts.run
  rw [spawnStart_of_fork supported backend] at run
  exact spawnFork_succeeds run starts.granted

theorem Begun.group {parentGroup : Int} {m : Jobs.Member} (begun : Begun platform opts setup parentGroup t m)
    (starts : Starts platform opts setup t result) (supported : capturesInBackground opts = false)
    (shared : opts.pgroup.isolated = false) (succeeds : setup.failure opts.pgroup.leader.isSome = none) :
    m.group = groupFor parentGroup m.pid opts.pgroup.leader := by
  have joined : ∀ {pid},
      Jobs.Run ⟨pid, parentGroup, false⟩ (opts.pgroup.leader.toList.map fun pg => .setpgid pg true) m →
      m.group = groupFor parentGroup m.pid opts.pgroup.leader := by
    intro pid acts
    cases leader : opts.pgroup.leader with
    | none =>
      rw [leader] at acts
      rw [Jobs.run_nil acts]
      rfl
    | some pgid =>
      rw [leader] at acts
      rw [acts.pid]
      exact Jobs.run_joined acts
  cases begun with
  | posixSpawn backend acts =>
    have run := starts.run
    rw [spawnStart_of_posixSpawn supported backend] at run
    rw [SpawnPosix.exec_spawnPosix_attr run, SpawnPosix.attrJobs_attrOf] at acts
    exact joined acts
  | @fork before after inChild _ _ _ pid _ backend child joins begins acts =>
    rw [spawnStart_of_fork supported backend] at child
    obtain ⟨pipes, -, calls⟩ := SpawnFork.exec_spawnFork_execve child
    obtain ⟨started, ok, same⟩ := SpawnFork.jobs_child calls
    rw [shared] at same
    change jobs inChild = opts.pgroup.leader.toList.map fun pg => .setpgid pg ok at same
    have all : jobs inChild = opts.pgroup.leader.toList.map fun pg => .setpgid pg true := by
      cases leader : opts.pgroup.leader with
      | none =>
        rw [leader] at same
        exact same
      | some pgid =>
        rw [leader] at same succeeds
        have job : .setpgid pgid ok ∈ jobs inChild := by
          rw [same]
          simp
        obtain ⟨answer, called, answered⟩ := setpgid_of_jobs job
        have joinable : ∃ u, setup.join = .ok u := by
          unfold ChildSetup.failure at succeeds
          cases join : setup.join with
          | error e =>
            rw [join] at succeeds
            cases succeeds
          | ok u => exact ⟨u, rfl⟩
        obtain ⟨u, joinable⟩ := joinable
        rw [joins _ _ called, joinable] at answered
        rw [same, ← answered]
        rfl
    rw [all] at acts
    exact joined acts

/-- With what the options say, both backends report failures alike exactly when there is nothing to
    report, or the options are refused at once: what fails in a forked child is not reported. -/
theorem failures_alike_iff {t' : Trace} {result' : Except SysError (Int × DrainState)}
    (accepted : forceFork opts = false)
    (posix : Starts platform { opts with backend := .posixSpawn } setup t result)
    (fork : Starts platform { opts with backend := .fork } setup t' result') :
    Alike platform opts setup t t' result result' ↔
      capturesInBackground opts = true ∨ setup.failure opts.pgroup.leader.isSome = none := by
  have posixSpawns : resolveBackend platform { opts with backend := .posixSpawn } = .posixSpawn :=
    if_neg (ne_true_of_eq_false accepted)
  have forks : resolveBackend platform { opts with backend := .fork } = .fork :=
    if_neg (ne_true_of_eq_false accepted)
  by_cases captures : capturesInBackground opts = true
  · have first := posix.captures captures
    have second := fork.captures captures
    refine iff_of_true ⟨iff_of_true first second, fun succeeds => absurd first succeeds⟩ (.inl captures)
  · have supported := Bool.eq_false_iff.mpr captures
    have first := posix.posix_fails_iff supported posixSpawns
    have second := fork.fork_succeeds supported forks
    apply Iff.intro
    · intro alike
      right
      by_contra failure
      exact second (alike.fails.mp (first.mpr failure))
    · intro condition
      have succeeds := condition.resolve_left captures
      refine ⟨iff_of_false (fun fails => first.mp fails succeeds) second, fun _ _ parentGroup m m' begun begun' => ?_⟩
      have shared : opts.pgroup.isolated = false := by
        by_contra isolated
        simp [forceFork, isolated] at accepted
      have group : m.group = groupFor parentGroup m.pid opts.pgroup.leader :=
        begun.group posix supported shared succeeds
      have group' : m'.group = groupFor parentGroup m'.pid opts.pgroup.leader :=
        begun'.group fork supported shared succeeds
      unfold SameGroup
      rw [group, group']
      cases leader : opts.pgroup.leader with
      | none => exact .inl rfl
      | some pgid =>
        by_cases own : pgid = 0
        · simp [groupFor, own]
        · simp [groupFor, own]

end

def plain : SpawnOptions := { capturing with captureStdout := false }

def plainStart : Trace :=
  [⟨.fileActionsInit, .ok ()⟩, ⟨.openProcSelfFd, .error 2⟩, ⟨.spawnattrInit, .ok ()⟩, ⟨.spawnattrSetflags 12, .ok ()⟩,
    ⟨.spawnattrSetsigmask [], .ok ()⟩, ⟨.spawnattrSetsigdefault [13], .ok ()⟩]

def plainChild (created : Except Errno Int) : Event os :=
  ⟨.posixSpawn ⟨[47], slash_no_nul⟩ [] ⟨12, 0, [], [13]⟩ [some ⟨[47], slash_no_nul⟩, none] none, created⟩

theorem plain_posix_starts {setup : ChildSetup} {created : Except Errno Int}
    {result : Except SysError (Int × DrainState)}
    (run : Exec (spawnStart .linux { plain with backend := .posixSpawn }) (plainStart ++ [plainChild created])
      (.done result))
    (reported : setup.Reported ⟨12, 0, [], [13]⟩ created) :
    Starts .linux { plain with backend := .posixSpawn } setup (plainStart ++ [plainChild created]) result where
  run := run
  granted := by
    cases created <;> simp [plainStart, plainChild, refused, isFault]
  reported path actions attr argv envp answer member := by
    simp [plainStart, plainChild] at member
    obtain ⟨⟨-, -, rfl, -, -⟩, same⟩ := member
    cases same
    exact reported

theorem plain_fork_starts (setup : ChildSetup) :
    ∃ drain, Starts .linux { plain with backend := .fork } setup [⟨.fork, .ok 42⟩] (.ok (42, drain)) := by
  have run : ∃ drain,
      Exec (spawnStart .linux { plain with backend := .fork }) [⟨.fork, .ok 42⟩] (.done (.ok (42, drain))) :=
    ⟨_, .of_replay 3 rfl⟩
  obtain ⟨drain, run⟩ := run
  exact ⟨drain, run, by simp [refused, isFault], by simp⟩

theorem plain_alike :
    ∃ drain drain', Alike .linux plain ⟨.ok (), none⟩ (plainStart ++ [plainChild (.ok 41)]) [⟨.fork, .ok 42⟩]
      (.ok (41, drain)) (.ok (42, drain')) := by
  have run : ∃ drain, Exec (spawnStart .linux { plain with backend := .posixSpawn })
      (plainStart ++ [plainChild (.ok 41)]) (.done (.ok (41, drain))) := ⟨_, .of_replay 9 rfl⟩
  obtain ⟨drain, run⟩ := run
  obtain ⟨drain', fork⟩ := plain_fork_starts ⟨.ok (), none⟩
  have posix : Starts .linux { plain with backend := .posixSpawn } ⟨.ok (), none⟩ _ _ :=
    plain_posix_starts run ⟨41, rfl⟩
  exact ⟨drain, drain', (failures_alike_iff rfl posix fork).mpr (.inr rfl)⟩

/-- The program does not exist: `posix_spawn` reports that, and the forked child exits with 127. -/
theorem missing_program_unreported :
    ¬∀ (platform : Platform) (opts : SpawnOptions) (setup : ChildSetup) (t t' : Trace)
      (result result' : Except SysError (Int × DrainState)), forceFork opts = false →
      Starts platform { opts with backend := .posixSpawn } setup t result →
      Starts platform { opts with backend := .fork } setup t' result' →
      Alike platform opts setup t t' result result' := by
  intro alike
  have run : Exec (spawnStart .linux { plain with backend := .posixSpawn }) (plainStart ++ [plainChild (.error 2)])
      (.done (.error (.sys 2 "posix_spawn"))) := .of_replay 9 rfl
  obtain ⟨drain, fork⟩ := plain_fork_starts ⟨.ok (), some 2⟩
  have same := alike .linux plain ⟨.ok (), some 2⟩ _ _ _ _ rfl (plain_posix_starts run rfl) fork
  exact not_fails_ok _ (same.fails.mp (fails_error _))

end CoreShift
