import CoreShift.Spawn.Refused

namespace CoreShift

open Interaction

def isStartCall : Call → Bool
  | .close _ | .fcntlGetFl _ | .fcntlSetFl _ _ | .pipe2 _ | .dup2 _ _ | .closeRange _ _ _ | .openProcSelfFd
  | .fdopendir _ | .readdir _ | .closedir _ | .fork | .execve _ _ _ | .exit _ | .setsid | .setpgid _ _ | .chdir _
  | .sigprocmask _ _ | .signalDefault _ | .posixSpawn _ _ _ _ _ => true
  | c => SpawnPosix.isLibcCall c

theorem start_of_libc {c : Call} (libc : SpawnPosix.isLibcCall c = true) : isStartCall c = true := by
  cases c <;> first | rfl | cases libc

theorem start_of_close {c : Call} (close : isClose c = true) : isStartCall c = true := by
  cases c <;> first | rfl | cases close

theorem dropFd_starts (fd : Option Fd) : (dropFd fd).Issues (isStartCall · = true) :=
  (dropFd_closes fd).mono fun _ => start_of_close

namespace Pipes

theorem pipeIf_starts (wanted : Bool) : (pipeIf wanted).Issues (isStartCall · = true) := by
  unfold pipeIf
  split
  · refine .bind (.bind ((Program.issues_ask _ _).mpr rfl) fun answer => ?_) fun answer => ?_
    · rcases answer with e | ⟨r, w⟩ <;> trivial
    · rcases answer with e | ⟨r, w⟩ <;> trivial
  · trivial

theorem new_starts (inBuf : Option Bytes) (out err : Bool) : (new inBuf out err).Issues (isStartCall · = true) := by
  refine .bind (pipeIf_starts _) fun answer => ?_
  rcases answer with e | ⟨stdinR, stdinW⟩
  · trivial
  refine .bind (pipeIf_starts _) fun answer => ?_
  rcases answer with e | ⟨stdoutR, stdoutW⟩
  · exact .bind (dropFd_starts _) fun _ => .bind (dropFd_starts _) fun _ => trivial
  refine .bind (pipeIf_starts _) fun answer => ?_
  rcases answer with e | ⟨stderrR, stderrW⟩
  · exact .bind (dropFd_starts _) fun _ => .bind (dropFd_starts _) fun _ =>
      .bind (dropFd_starts _) fun _ => .bind (dropFd_starts _) fun _ => trivial
  · trivial

theorem closeAll_starts (p : Pipes) : p.closeAll.Issues (isStartCall · = true) :=
  .bind (dropFd_starts _) fun _ => .bind (dropFd_starts _) fun _ => .bind (dropFd_starts _) fun _ =>
    .bind (dropFd_starts _) fun _ => .bind (dropFd_starts _) fun _ => dropFd_starts _

theorem orClose_starts {α β : Type} (p : Pipes) (step : Except SysError α) {rest : α → Prog (Except SysError β)}
    (later : ∀ value, (rest value).Issues (isStartCall · = true)) :
    (p.orClose step rest).Issues (isStartCall · = true) := by
  rcases step with e | value
  · exact .bind p.closeAll_starts fun _ => trivial
  · exact later value

end Pipes

theorem drainPipes_starts (pipes : Pipes) (opts : SpawnOptions) (pid : Int) :
    (drainPipes pipes opts pid).Issues (isStartCall · = true) := by
  have drained : ∀ stdin stdinBuf stdout stderr limit earlyExit,
      (DrainState.new stdin stdinBuf stdout stderr limit earlyExit).Issues (isStartCall · = true) :=
    DrainState.new_issues_of (fun _ => rfl) (fun _ _ => rfl) fun _ => rfl
  refine .bind (dropFd_starts _) fun _ => .bind (dropFd_starts _) fun _ => .bind (dropFd_starts _) fun _ => ?_
  by_cases nothing : opts.stdin.isNone = true
  · simp only [nothing, ↓reduceIte]
    refine .bind (dropFd_starts _) fun _ => .bind (drained _ _ _ _ _ _) fun result => ?_
    rcases result with e | drain <;> trivial
  · simp only [nothing]
    refine .bind (drained _ _ _ _ _ _) fun result => ?_
    rcases result with e | drain <;> trivial

namespace SpawnPosix

theorem closeListed_starts (handled : List Nat) (actions : List FileAction) :
    (closeListed handled actions).Issues (isStartCall · = true) := by
  refine .bind ((Program.issues_ask _ _).mpr rfl) fun answer => ?_
  rcases answer with e | dirFd
  · trivial
  refine .bind ((Program.issues_ask _ _).mpr rfl) fun opened => ?_
  cases opened
  · exact .bind ((Program.issues_ask _ _).mpr rfl) fun _ => trivial
  refine .bind (.iterate _ fun actions => ?_) fun _ => .bind ((Program.issues_ask _ _).mpr rfl) fun _ => trivial
  refine .bind ((Program.issues_ask _ _).mpr rfl) fun entry => ?_
  rcases entry with _ | ⟨_ | fd⟩
  · trivial
  · trivial
  · show (if 2 < fd ∧ fd ≠ dirFd ∧ fd ∉ handled then _ else _ : Prog _).Issues _
    split
    · refine .bind ((Program.issues_ask _ _).mpr rfl) fun answer => ?_
      rcases answer with e | ⟨⟩ <;> trivial
    · trivial

theorem spawnPosix_starts (opts : SpawnOptions) : (spawnPosixInternal opts).Issues (isStartCall · = true) := by
  have records := fun steps actions => (record_issues steps actions).mono fun _ => start_of_libc
  have builds := (buildAttr_issues opts.pgroup).mono fun _ => start_of_libc
  refine .bind (Pipes.new_starts _ _ _) fun made => ?_
  rcases made with e | pipes
  · trivial
  refine .bind ((Program.issues_ask _ _).mpr rfl) fun _ => pipes.orClose_starts _ fun _ => ?_
  refine .bind (records _ _) fun _ => pipes.orClose_starts _ fun _ => ?_
  refine .bind (closeListed_starts _ _) fun _ => ?_
  refine .bind builds fun _ => pipes.orClose_starts _ fun _ => ?_
  refine .bind ((Program.issues_ask _ _).mpr rfl) fun _ => pipes.orClose_starts _ fun _ => ?_
  exact drainPipes_starts _ _ _

end SpawnPosix

namespace SpawnFork

theorem start_of_child {c : Call} (child : isChildCall c = true) : isStartCall c = true := by
  cases c <;> first | rfl | cases child

theorem child_starts {α : Type} (opts : SpawnOptions) (pipes : Pipes) :
    (child opts pipes : Prog α).Issues (isStartCall · = true) :=
  (child_issues opts pipes).mono fun _ => start_of_child

theorem spawnFork_starts (opts : SpawnOptions) : (spawnForkInternal opts).Issues (isStartCall · = true) := by
  refine .bind (Pipes.new_starts _ _ _) fun made => ?_
  rcases made with e | pipes
  · trivial
  refine .bind ((Program.issues_ask _ _).mpr rfl) fun forked => ?_
  rcases forked with e | pid
  · exact .bind pipes.closeAll_starts fun _ => trivial
  · by_cases child : pid = 0
    · simp only [child, ↓reduceIte]
      exact child_starts _ _
    · simp only [child, ↓reduceIte]
      exact drainPipes_starts _ _ _

end SpawnFork

theorem spawnStart_starts (platform : Platform) (opts : SpawnOptions) :
    (spawnStart platform opts).Issues (isStartCall · = true) := by
  unfold spawnStart
  split
  · trivial
  · cases resolveBackend platform opts with
    | posixSpawn => exact SpawnPosix.spawnPosix_starts opts
    | fork => exact SpawnFork.spawnFork_starts opts

end CoreShift
