import CoreShift.Kernel.Jobs
import CoreShift.Spawn.Creation
import CoreShift.Spawn.Iteration

namespace CoreShift

open Interaction

def jobBy : Event os → List Jobs.Act
  | ⟨.setsid, answer⟩ => [.setsid answer.isOk]
  | ⟨.setpgid 0 pgid, answer⟩ => [.setpgid pgid answer.isOk]
  | _ => []

def jobs (t : Trace) : List Jobs.Act := t.flatMap jobBy

def isJobCall : Call → Bool
  | .setsid | .setpgid _ _ => true
  | _ => false

theorem jobs_filter (t : Trace) : jobs t = jobs (t.filter (isJobCall ·.call)) := by
  induction t with
  | nil => rfl
  | cons e t ih =>
    have first : jobs (e :: t) = jobBy e ++ jobs t := List.flatMap_cons ..
    rw [first, ih]
    obtain ⟨call, answer⟩ := e
    cases call
    case setsid => rfl
    case setpgid => rfl
    all_goals rfl

theorem setpgid_of_jobs {t : Trace} {pgid : Int} {ok : Bool} (member : .setpgid pgid ok ∈ jobs t) :
    ∃ answer, ⟨.setpgid 0 pgid, answer⟩ ∈ t ∧ answer.isOk = ok := by
  obtain ⟨⟨call, answer⟩, here, act⟩ := List.mem_flatMap.mp member
  cases call
  case setsid => cases List.mem_singleton.mp act
  case setpgid pid group =>
    rcases pid with (_ | n) | n
    · cases List.mem_singleton.mp act
      exact ⟨answer, here, rfl⟩
    · cases act
    · cases act
  all_goals cases act

theorem refused_iff {t : Trace} {pgid : Int} :
    .setpgid pgid false ∈ jobs t ↔ ∃ e, ⟨.setpgid 0 pgid, .error e⟩ ∈ t := by
  apply Iff.intro
  · intro member
    obtain ⟨e | ⟨⟩, here, failed⟩ := setpgid_of_jobs member
    · exact ⟨e, here⟩
    · cases failed
  · intro refused
    obtain ⟨e, here⟩ := refused
    exact List.mem_flatMap.mpr ⟨_, here, List.mem_singleton.mpr rfl⟩

namespace SpawnFork

def dupCalls : Option Fd → Option Fd → Nat → List Call
  | some fd, some _, target => [.dup2 fd.raw target]
  | _, _, _ => []

def closeCalls (fds : List (Option Fd)) : List Call := (fds.filterMap id).map fun fd => .close fd.raw

def wireCalls (p : Pipes) : List Call :=
  dupCalls p.stdinR p.stdinW 0 ++ dupCalls p.stdoutW p.stdoutR 1 ++ dupCalls p.stderrW p.stderrR 2 ++
    closeCalls [p.stdinR, p.stdinW, p.stdoutR, p.stdoutW, p.stderrR, p.stderrW] ++
    [.closeRange 3 0xffffffff 0]

def childCalls (opts : SpawnOptions) (p : Pipes) : List Call :=
  wireCalls p ++ ((if opts.pgroup.isolated then [.setsid] else []) ++ (opts.ctx.cwd.toList.map .chdir ++
    (opts.pgroup.leader.toList.map (.setpgid 0) ++
      [.sigprocmask SIG_SETMASK SignalRuntime.emptySet, .signalDefault SIGPIPE])))

theorem dupTo_straight (source other : Option Fd) (target : Nat) :
    (dupTo source other target).Straight (dupCalls source other target) := by
  cases source <;> cases other <;> first | rfl | exact (Program.straight_ask _).bind fun _ => rfl

theorem dropFd_straight (fd : Option Fd) : (dropFd fd).Straight (closeCalls [fd]) := by
  cases fd
  · rfl
  · exact (Program.straight_ask _).bind fun _ => rfl

theorem closeCalls_cons (fd : Option Fd) (rest : List (Option Fd)) :
    closeCalls (fd :: rest) = closeCalls [fd] ++ closeCalls rest := by
  cases fd <;> rfl

theorem closeAll_straight (p : Pipes) :
    p.closeAll.Straight (closeCalls [p.stdinR, p.stdinW, p.stdoutR, p.stdoutW, p.stderrR, p.stderrW]) := by
  rw [closeCalls_cons, closeCalls_cons _ [_, _, _, _], closeCalls_cons _ [_, _, _], closeCalls_cons _ [_, _],
    closeCalls_cons _ [_]]
  exact (dropFd_straight _).bind fun _ => (dropFd_straight _).bind fun _ => (dropFd_straight _).bind fun _ =>
    (dropFd_straight _).bind fun _ => (dropFd_straight _).bind fun _ => dropFd_straight _

theorem wire_straight (p : Pipes) : (wire p).Straight (wireCalls p) := by
  simp only [wireCalls, List.append_assoc]
  exact (dupTo_straight _ _ _).bind fun _ => (dupTo_straight _ _ _).bind fun _ =>
    (dupTo_straight _ _ _).bind fun _ => (closeAll_straight p).bind fun _ =>
      (Program.straight_ask _).bind fun _ => rfl

theorem not_execve_of_wire {p : Pipes} {path : CString} {argv : List CStrPtr} {envp : Option (List CStrPtr)} :
    Call.execve path argv envp ∉ wireCalls p := by
  have dups : ∀ source other target, Call.execve path argv envp ∉ dupCalls source other target := by
    intro source other target
    cases source <;> cases other <;> simp [dupCalls]
  simp [wireCalls, dups, closeCalls]

section
variable {α : Type} {opts : SpawnOptions} {t : Trace} {path : CString} {argv : List CStrPtr}
  {envp : Option (List CStrPtr)}

theorem not_execve_of_exit {status : Int} : ¬Exec (exit status : Prog α) t (.waiting (.execve path argv envp)) := by
  intro run
  rcases run.ask_cases with ⟨-, same⟩ | ⟨never, -⟩
  · cases same
  · nomatch never

def launchCalls (opts : SpawnOptions) : List Call :=
  opts.pgroup.leader.toList.map (.setpgid 0) ++
    [.sigprocmask SIG_SETMASK SignalRuntime.emptySet, .signalDefault SIGPIPE]

theorem exec_launch_execve (run : Exec (launch opts : Prog α) t (.waiting (.execve path argv envp))) :
    t.map Event.call = launchCalls opts := by
  have last : ∀ {u : Trace}, Exec (SignalRuntime.unblockAll >>= fun _ =>
      SignalRuntime.resetDefault SIGPIPE >>= fun _ =>
        ask (.execve opts.ctx.exePtr opts.ctx.getArgvPtrs opts.ctx.getEnvpPtrs) >>= fun _ =>
          (exit 127 : Prog α)) u (.waiting (.execve path argv envp)) →
      u.map Event.call = [.sigprocmask SIG_SETMASK SignalRuntime.emptySet, .signalDefault SIGPIPE] := by
    intro u run
    have mask : SignalRuntime.unblockAll.Straight [.sigprocmask SIG_SETMASK SignalRuntime.emptySet] :=
      (Program.straight_ask _).bind fun _ => rfl
    have default : (SignalRuntime.resetDefault SIGPIPE).Straight [.signalDefault SIGPIPE] :=
      (Program.straight_ask _).bind fun _ => rfl
    obtain ⟨u₁, _, u', rfl, first, run⟩ := run.past mask (by simp)
    obtain ⟨u₂, _, u₃, rfl, second, run⟩ := run.past default (by simp)
    rcases run.ask_cases with ⟨rfl, -⟩ | ⟨answer, u₄, rfl, later⟩
    · simp [first, second]
    · exact absurd later not_execve_of_exit
  unfold launch at run
  unfold launchCalls
  cases leader : opts.pgroup.leader with
  | none =>
    simp only [leader] at run
    exact last run
  | some pg =>
    simp only [leader] at run
    rcases run.ask_cases with ⟨-, same⟩ | ⟨answer, u', rfl, later⟩
    · cases same
    · rw [List.map_cons, last later]
      rfl

theorem exec_enter_execve (run : Exec (enter opts : Prog α) t (.waiting (.execve path argv envp))) :
    t.map Event.call = opts.ctx.cwd.toList.map .chdir ++ launchCalls opts := by
  unfold enter at run
  cases cwd : opts.ctx.cwd with
  | none =>
    simp only [cwd] at run
    exact exec_launch_execve run
  | some dir =>
    simp only [cwd] at run
    rcases run.ask_cases with ⟨-, same⟩ | ⟨answer, u', rfl, later⟩
    · cases same
    · rcases answer with e | ⟨⟩
      · exact absurd later not_execve_of_exit
      · rw [List.map_cons, exec_launch_execve later]
        rfl

theorem exec_child_execve {p : Pipes} (run : Exec (child opts p : Prog α) t (.waiting (.execve path argv envp))) :
    t.map Event.call = childCalls opts p := by
  unfold child at run
  obtain ⟨t₁, _, t₂, rfl, wired, run⟩ := Exec.past run (wire_straight p) not_execve_of_wire
  rw [List.map_append, wired]
  unfold childCalls
  congr 1
  by_cases isolated : opts.pgroup.isolated = true
  · simp only [isolated, ↓reduceIte] at run ⊢
    rcases run.ask_cases with ⟨-, same⟩ | ⟨answer, u', rfl, later⟩
    · cases same
    · rw [List.map_cons, exec_enter_execve later]
      rfl
  · simp only [isolated, Bool.false_eq_true, ↓reduceIte] at run ⊢
    exact exec_enter_execve run

end

theorem setup_of_wire {p : Pipes} {c : Call} (member : c ∈ wireCalls p) :
    isSetupCall c = true ∧ isJobCall c = false := by
  have dups : ∀ source other target, c ∈ dupCalls source other target →
      isSetupCall c = true ∧ isJobCall c = false := by
    intro source other target member
    cases source <;> cases other <;> simp only [dupCalls, List.not_mem_nil, List.mem_singleton] at member
    rw [member]
    exact ⟨rfl, rfl⟩
  simp only [wireCalls, closeCalls, List.mem_append, List.mem_map, List.mem_singleton] at member
  rcases member with (((member | member) | member) | ⟨fd, -, rfl⟩) | rfl
  · exact dups _ _ _ member
  · exact dups _ _ _ member
  · exact dups _ _ _ member
  · exact ⟨rfl, rfl⟩
  · exact ⟨rfl, rfl⟩

theorem setup_of_child {opts : SpawnOptions} {p : Pipes} {c : Call} (member : c ∈ childCalls opts p) :
    isSetupCall c = true := by
  rcases List.mem_append.mp member with wired | member
  · exact (setup_of_wire wired).1
  simp only [List.mem_append, List.mem_map, List.mem_cons, List.not_mem_nil, or_false] at member
  rcases member with session | ⟨_, -, rfl⟩ | ⟨_, -, rfl⟩ | rfl | rfl
  · split at session
    · rw [List.mem_singleton.mp session]
      rfl
    · cases session
  all_goals rfl

theorem jobs_child {opts : SpawnOptions} {p : Pipes} {t : Trace} (calls : t.map Event.call = childCalls opts p) :
    ∃ started joined, jobs t = (if opts.pgroup.isolated then [.setsid started] else []) ++
      opts.pgroup.leader.toList.map fun pg => .setpgid pg joined := by
  have wired : (wireCalls p).filter isJobCall = [] :=
    List.filter_eq_nil_iff.mpr fun c member => by simp [(setup_of_wire member).2]
  have kept : (t.filter (isJobCall ·.call)).map Event.call =
      (if opts.pgroup.isolated then [.setsid] else []) ++ opts.pgroup.leader.toList.map (.setpgid 0) := by
    have both := congrArg (List.filter isJobCall) calls
    rw [List.filter_map, childCalls, List.filter_append, wired] at both
    rw [show (isJobCall ·.call) = isJobCall ∘ (Event.call : Event os → Call) from rfl, both]
    by_cases isolated : opts.pgroup.isolated = true
    · cases opts.pgroup.leader <;> cases opts.ctx.cwd <;> simp only [isolated, ↓reduceIte] <;> rfl
    · cases opts.pgroup.leader <;> cases opts.ctx.cwd <;> simp only [isolated] <;> rfl
  rw [jobs_filter]
  generalize t.filter (isJobCall ·.call) = u at kept
  have single : ∀ {c : Call} {u : Trace}, u.map Event.call = [c] → ∃ answer, u = [⟨c, answer⟩] := by
    intro c u same
    obtain ⟨⟨call, answer⟩, rfl, rfl⟩ := List.map_eq_singleton_iff.mp same
    exact ⟨answer, rfl⟩
  obtain ⟨first, second, rfl, session, joins⟩ := List.map_eq_append_iff.mp kept
  have started : ∃ started, jobs first = if opts.pgroup.isolated then [.setsid started] else [] := by
    by_cases isolated : opts.pgroup.isolated = true
    · simp only [isolated, ↓reduceIte] at session ⊢
      obtain ⟨answer, rfl⟩ := single session
      exact ⟨answer.isOk, rfl⟩
    · simp only [isolated, Bool.false_eq_true, ↓reduceIte, List.map_eq_nil_iff] at session ⊢
      exact ⟨false, by simp [jobs, session]⟩
  have joined : ∃ joined, jobs second = opts.pgroup.leader.toList.map fun pg => .setpgid pg joined := by
    cases leader : opts.pgroup.leader with
    | none =>
      rw [leader, Option.toList_none, List.map_nil, List.map_eq_nil_iff] at joins
      exact ⟨false, by simp [jobs, joins]⟩
    | some pg =>
      rw [leader] at joins
      obtain ⟨answer, rfl⟩ := single joins
      exact ⟨answer.isOk, rfl⟩
  obtain ⟨started, first_jobs⟩ := started
  obtain ⟨joined, second_jobs⟩ := joined
  refine ⟨started, joined, ?_⟩
  rw [← first_jobs, ← second_jobs]
  exact List.flatMap_append ..

end SpawnFork

namespace SpawnPosix

/-- What the attribute object holds when every setter succeeds. -/
def attrOf (pgroup : ProcessGroup) : SpawnAttr :=
  { flags := (if pgroup.leader.isSome then 0 ||| POSIX_SPAWN_SETPGROUP else 0) |||
      (POSIX_SPAWN_SETSIGMASK ||| POSIX_SPAWN_SETSIGDEF)
    pgroup := pgroup.leader.getD 0
    sigmask := SignalRuntime.emptySet
    sigdefault := SignalRuntime.setWith [SIGPIPE] }

theorem exec_buildAttr_ok {pgroup : ProcessGroup} {attr : SpawnAttr} {t : Trace}
    (run : Exec (buildAttr pgroup) t (.done (.ok attr))) : attr = attrOf pgroup := by
  have failed : ∀ {e : SysError} {u : Trace},
      ¬Exec (pure (.error e) : Prog (Except SysError SpawnAttr)) u (.done (.ok attr)) := by
    intro e u run
    cases ((exec_pure_iff _ _ _).mp run).2
  obtain ⟨_, init, _, rfl, -, run⟩ := exec_bind_done.mp run
  rcases init with e | ⟨⟩
  · exact absurd run failed
  obtain ⟨_, led, _, rfl, leading, run⟩ := exec_bind_done.mp run
  rcases led with e | ⟨attr', flags⟩
  · exact absurd run failed
  obtain ⟨_, flagged, _, rfl, -, run⟩ := exec_bind_done.mp run
  rcases flagged with e | ⟨⟩
  · exact absurd run failed
  obtain ⟨_, masked, _, rfl, -, run⟩ := exec_bind_done.mp run
  rcases masked with e | ⟨⟩
  · exact absurd run failed
  obtain ⟨_, defaulted, _, rfl, -, run⟩ := exec_bind_done.mp run
  rcases defaulted with e | ⟨⟩
  · exact absurd run failed
  cases ((exec_pure_iff _ _ _).mp run).2
  unfold attrOf
  cases leader : pgroup.leader with
  | none =>
    simp only [setLeader, leader, exec_pure_iff, Outcome.done.injEq] at leading
    cases leading.2
    rfl
  | some pg =>
    simp only [setLeader, leader] at leading
    obtain ⟨_, set, _, rfl, -, rest⟩ := exec_bind_done.mp leading
    rcases set with e | ⟨⟩
    · cases ((exec_pure_iff _ _ _).mp rest).2
    · cases ((exec_pure_iff _ _ _).mp rest).2
      rfl

def attrJobs (attr : SpawnAttr) : List Jobs.Act :=
  if attr.flags &&& POSIX_SPAWN_SETPGROUP = 0 then [] else [.setpgid attr.pgroup true]

theorem attrJobs_attrOf (pgroup : ProcessGroup) :
    attrJobs (attrOf pgroup) = pgroup.leader.toList.map fun pg => .setpgid pg true := by
  cases leader : pgroup.leader <;> simp [attrJobs, attrOf, leader, POSIX_SPAWN_SETPGROUP,
    POSIX_SPAWN_SETSIGMASK, POSIX_SPAWN_SETSIGDEF]

end SpawnPosix

end CoreShift
