import CoreShift.Kernel.Inherited
import CoreShift.Spawn.Refused
import CoreShift.Sys.ExecArguments

namespace CoreShift

open Interaction

abbrev AttributeAct := Inherited.Act CString

def attributeActs : Event os → List AttributeAct
  | ⟨.sigprocmask how set, answer⟩ =>
    if how = SIG_SETMASK then [.setMask set answer.isOk] else if how = SIG_BLOCK then [.block set answer.isOk] else []
  | ⟨.signalDefault sig, answer⟩ => [.setDefault sig answer.isOk]
  | ⟨.chdir path, answer⟩ => [.chdir path answer.isOk]
  | e => (jobBy e).map .job

def attributesBy (t : Trace) : List AttributeAct := t.flatMap attributeActs

theorem attributesBy_append (t t' : Trace) : attributesBy (t ++ t') = attributesBy t ++ attributesBy t' :=
  List.flatMap_append ..

theorem mem_attributesBy {t : Trace} {act : Jobs.Act} : .job act ∈ attributesBy t ↔ act ∈ jobs t := by
  have mapped : ∀ acts : List Jobs.Act, (.job act : AttributeAct) ∈ acts.map .job ↔ act ∈ acts :=
    fun acts => List.mem_map_of_injective fun _ _ same => Inherited.Act.job.inj same
  have one : ∀ e : Event os, .job act ∈ attributeActs e ↔ act ∈ jobBy e := by
    intro e
    obtain ⟨call, answer⟩ := e
    cases call
    case sigprocmask how set =>
      show .job act ∈ (if how = SIG_SETMASK then [.setMask set answer.isOk]
        else if how = SIG_BLOCK then [.block set answer.isOk] else [] : List AttributeAct) ↔ act ∈ []
      split
      · simp
      · split <;> simp
    case signalDefault sig =>
      show .job act ∈ ([.setDefault sig answer.isOk] : List AttributeAct) ↔ act ∈ []
      simp
    case chdir path =>
      show .job act ∈ ([.chdir path answer.isOk] : List AttributeAct) ↔ act ∈ []
      simp
    all_goals exact mapped _
  simp only [attributesBy, jobs, List.mem_flatMap, one]

/-- What both backends have the child do before its program begins. -/
def attributesOf (opts : SpawnOptions) (started joined masks resets : Bool) : List AttributeAct :=
  (if opts.pgroup.isolated then [.setsid started] else [] : List Jobs.Act).map .job ++
    (opts.ctx.cwd.toList.map (.chdir · true) ++
      ((opts.pgroup.leader.toList.map fun pg => Jobs.Act.setpgid pg joined).map .job ++
        [.setMask SignalRuntime.emptySet masks, .setDefault SIGPIPE resets]))

def Asks (opts : SpawnOptions) (path : CString) (argv : List CStrPtr) (envp : Option (List CStrPtr)) : Prop :=
  path = opts.ctx.exePtr ∧ argv = opts.ctx.getArgvPtrs ∧ envp = opts.ctx.getEnvpPtrs

namespace SpawnFork

section
variable {α : Type} {opts : SpawnOptions} {t : Trace} {path : CString} {argv : List CStrPtr}
  {envp : Option (List CStrPtr)}

theorem exec_single {c : Call} (calls : t.map Event.call = [c]) : ∃ answer, t = [⟨c, answer⟩] := by
  obtain ⟨⟨call, answer⟩, rfl, rfl⟩ := List.map_eq_singleton_iff.mp calls
  exact ⟨answer, rfl⟩

theorem exec_launch_acts (run : Exec (launch opts : Prog α) t (.waiting (.execve path argv envp))) :
    Asks opts path argv envp ∧ ∃ joined masks resets, attributesBy t =
      (opts.pgroup.leader.toList.map fun pg => Jobs.Act.setpgid pg joined).map .job ++
        [.setMask SignalRuntime.emptySet masks, .setDefault SIGPIPE resets] := by
  have last : ∀ {u : Trace}, Exec (SignalRuntime.unblockAll >>= fun _ =>
      SignalRuntime.resetDefault SIGPIPE >>= fun _ =>
        ask (.execve opts.ctx.exePtr opts.ctx.getArgvPtrs opts.ctx.getEnvpPtrs) >>= fun _ =>
          (exit 127 : Prog α)) u (.waiting (.execve path argv envp)) →
      Asks opts path argv envp ∧
        ∃ masks resets, attributesBy u = [.setMask SignalRuntime.emptySet masks, .setDefault SIGPIPE resets] := by
    intro u run
    have mask : SignalRuntime.unblockAll.Straight [.sigprocmask SIG_SETMASK SignalRuntime.emptySet] :=
      (Program.straight_ask _).bind fun _ => rfl
    have default : (SignalRuntime.resetDefault SIGPIPE).Straight [.signalDefault SIGPIPE] :=
      (Program.straight_ask _).bind fun _ => rfl
    obtain ⟨u₁, _, u', rfl, first, unmasked⟩ := run.past mask (by simp)
    obtain ⟨u₂, _, u₃, rfl, second, begins⟩ := unmasked.past default (by simp)
    obtain ⟨masks, rfl⟩ := exec_single first
    obtain ⟨resets, rfl⟩ := exec_single second
    rcases begins.ask_cases with ⟨rfl, same⟩ | ⟨answer, u₄, rfl, later⟩
    · cases same
      exact ⟨⟨rfl, rfl, rfl⟩, masks.isOk, resets.isOk, rfl⟩
    · exact absurd later not_execve_of_exit
  unfold launch at run
  cases leader : opts.pgroup.leader with
  | none =>
    simp only [leader] at run
    obtain ⟨asks, masks, resets, same⟩ := last run
    exact ⟨asks, false, masks, resets, same⟩
  | some pg =>
    simp only [leader] at run
    rcases run.ask_cases with ⟨-, same⟩ | ⟨answer, u', rfl, later⟩
    · cases same
    · obtain ⟨asks, masks, resets, same⟩ := last later
      refine ⟨asks, answer.isOk, masks, resets, ?_⟩
      rw [attributesBy, List.flatMap_cons, ← attributesBy, same]
      rfl

theorem exec_enter_acts (run : Exec (enter opts : Prog α) t (.waiting (.execve path argv envp))) :
    Asks opts path argv envp ∧ ∃ joined masks resets, attributesBy t = opts.ctx.cwd.toList.map (.chdir · true) ++
      ((opts.pgroup.leader.toList.map fun pg => Jobs.Act.setpgid pg joined).map .job ++
        [.setMask SignalRuntime.emptySet masks, .setDefault SIGPIPE resets]) := by
  unfold enter at run
  cases cwd : opts.ctx.cwd with
  | none =>
    simp only [cwd] at run
    exact exec_launch_acts run
  | some dir =>
    simp only [cwd] at run
    rcases run.ask_cases with ⟨-, same⟩ | ⟨answer, u', rfl, later⟩
    · cases same
    · rcases answer with e | ⟨⟩
      · exact absurd later not_execve_of_exit
      · obtain ⟨asks, joined, masks, resets, same⟩ := exec_launch_acts later
        refine ⟨asks, joined, masks, resets, ?_⟩
        rw [attributesBy, List.flatMap_cons, ← attributesBy, same]
        rfl

theorem attributesBy_wire {p : Pipes} (wired : t.map Event.call = wireCalls p) : attributesBy t = [] := by
  refine List.flatMap_eq_nil_iff.mpr fun e member => ?_
  have called : e.call ∈ wireCalls p := wired ▸ List.mem_map_of_mem member
  obtain ⟨call, answer⟩ := e
  have dups : ∀ source other target, call ∈ dupCalls source other target → ∃ fd, call = .dup2 fd target := by
    intro source other target member
    cases source <;> cases other <;> simp only [dupCalls, List.not_mem_nil, List.mem_singleton] at member
    exact ⟨_, member⟩
  simp only [wireCalls, closeCalls, List.mem_append, List.mem_map, List.mem_singleton] at called
  rcases called with (((member | member) | member) | ⟨fd, -, rfl⟩) | rfl
  · obtain ⟨fd, rfl⟩ := dups _ _ _ member
    rfl
  · obtain ⟨fd, rfl⟩ := dups _ _ _ member
    rfl
  · obtain ⟨fd, rfl⟩ := dups _ _ _ member
    rfl
  · rfl
  · rfl

theorem exec_child_acts {p : Pipes} (run : Exec (child opts p : Prog α) t (.waiting (.execve path argv envp))) :
    Asks opts path argv envp ∧
      ∃ started joined masks resets, attributesBy t = attributesOf opts started joined masks resets := by
  unfold child at run
  obtain ⟨t₁, _, t₂, rfl, wired, run⟩ := Exec.past run (wire_straight p) not_execve_of_wire
  rw [attributesBy_append, attributesBy_wire wired, List.nil_append]
  unfold attributesOf
  by_cases isolated : opts.pgroup.isolated = true
  · simp only [isolated, ↓reduceIte] at run ⊢
    rcases run.ask_cases with ⟨-, same⟩ | ⟨answer, u', rfl, later⟩
    · cases same
    · obtain ⟨asks, joined, masks, resets, same⟩ := exec_enter_acts later
      refine ⟨asks, answer.isOk, joined, masks, resets, ?_⟩
      rw [attributesBy, List.flatMap_cons, ← attributesBy, same]
      rfl
  · simp only [isolated, Bool.false_eq_true, ↓reduceIte] at run ⊢
    obtain ⟨asks, joined, masks, resets, same⟩ := exec_enter_acts run
    exact ⟨asks, false, joined, masks, resets, same⟩

end

end SpawnFork

namespace SpawnPosix

def attrActs (attr : SpawnAttr) : List AttributeAct :=
  (attrJobs attr).map .job ++
    ((if attr.flags &&& POSIX_SPAWN_SETSIGMASK = 0 then [] else [.setMask attr.sigmask true]) ++
      if attr.flags &&& POSIX_SPAWN_SETSIGDEF = 0 then [] else attr.sigdefault.map (.setDefault · true))

theorem attrActs_attrOf (pgroup : ProcessGroup) :
    attrActs (attrOf pgroup) = (pgroup.leader.toList.map fun pg => Jobs.Act.setpgid pg true).map .job ++
      [.setMask SignalRuntime.emptySet true, .setDefault SIGPIPE true] := by
  rw [attrActs, attrJobs_attrOf]
  cases leader : pgroup.leader <;> simp [attrOf, leader, POSIX_SPAWN_SETPGROUP, POSIX_SPAWN_SETSIGMASK,
    POSIX_SPAWN_SETSIGDEF, SignalRuntime.setWith]

end SpawnPosix

theorem anywhere_of_posixSpawn {platform : Platform} {opts : SpawnOptions}
    (backend : resolveBackend platform opts = .posixSpawn) : opts.ctx.cwd = none := by
  cases cwd : opts.ctx.cwd with
  | none => rfl
  | some dir => simp [resolveBackend, forceFork, cwd] at backend

section
variable {D : Type} {platform : Platform} {opts : SpawnOptions} {enters : D → CString → D → Prop}
  {A A' : Inherited.Attributes D} {path : CString} {argv : List CStrPtr} {envp : Option (List CStrPtr)}

/-- `spawn` begins the program `path` with these arguments, where the attributes of the child were `A` when it
    was created, and are `A'` for the program, but for the handlers that it does not have. The calls are those
    that a child of `fork` makes; `posix_spawn` begins no program where the child cannot join its group. -/
inductive Begins (platform : Platform) (opts : SpawnOptions) (enters : D → CString → D → Prop)
    (A : Inherited.Attributes D) (path : CString) (argv : List CStrPtr) (envp : Option (List CStrPtr)) :
    Trace → Inherited.Attributes D → Prop where
  | posixSpawn {t : Trace} {actions : List FileAction} {attr : SpawnAttr} {A' : Inherited.Attributes D}
      (run : Exec (spawn platform opts) t (.waiting (.posixSpawn path actions attr argv envp)))
      (acts : Inherited.Run enters A (SpawnPosix.attrActs attr) A') :
      Begins platform opts enters A path argv envp [] A'
  | fork {before inChild : Trace} {A' : Inherited.Attributes D}
      (run : Exec (spawn platform opts) (before ++ ⟨.fork, .ok 0⟩ :: inChild) (.waiting (.execve path argv envp)))
      (acts : Inherited.Run enters A (attributesBy inChild) A') :
      Begins platform opts enters A path argv envp inChild A'

theorem exec_spawn_start {t : Trace} {c : Call} (creates : isSetupCall c = false)
    (run : Exec (spawn platform opts) t (.waiting c)) :
    ∃ t₀ u, t = t₀ ++ u ∧ (∀ e ∈ t₀, isSetupCall e.call = true) ∧ Exec (spawnStart platform opts) u (.waiting c) := by
  have reactors : Reactor.new.Issues (isSetupCall · = true) := reactor_new_issues_of rfl rfl
  have quiet : ∀ {c' : Call}, c' = c → isSetupCall c' ≠ true := by
    intro c' same setup
    rw [same, creates] at setup
    cases setup
  rcases exec_bind_waiting.mp run with stopped | ⟨t₀, made, u, rfl, polled, rest⟩
  · exact absurd ((stopped.issues reactors).2 c rfl) (quiet rfl)
  rcases made with e | reactor
  · cases ((exec_pure_iff _ _ _).mp rest).2
  rcases exec_bind_waiting.mp rest with starting | ⟨_, started, _, -, -, settling⟩
  · exact ⟨t₀, u, rfl, (polled.issues reactors).1, starting⟩
  · exact absurd ((settling.issues (settle_issues _ _ _)).2 c rfl) (quiet rfl)

theorem spawnFork_issues (opts : SpawnOptions) :
    (spawnForkInternal opts).Issues fun c : Call =>
      c = .fork ∨ isSetupCall c = true ∨ SpawnFork.isChildCall c = true := by
  have setup : ∀ {α : Type} {p : Prog α}, p.Issues (isSetupCall · = true) →
      p.Issues fun c : Call => c = .fork ∨ isSetupCall c = true ∨ SpawnFork.isChildCall c = true :=
    fun issues => issues.mono fun _ called => .inr (.inl called)
  refine .bind (setup (Pipes.new_issues _ _ _)) fun made => ?_
  rcases made with e | pipes
  · trivial
  refine .bind ((Program.issues_ask _ _).mpr (.inl rfl)) fun forked => ?_
  rcases forked with e | pid
  · exact .bind (setup (Pipes.closeAll_issues pipes)) fun _ => trivial
  · by_cases child : pid = 0
    · simp only [child, ↓reduceIte]
      exact (SpawnFork.child_issues opts pipes).mono fun _ called => .inr (.inr called)
    · simp only [child, ↓reduceIte]
      exact setup (drainPipes_issues _ _ _)

theorem exec_spawn_posixSpawn {t : Trace} {actions : List FileAction} {attr : SpawnAttr}
    (run : Exec (spawn platform opts) t (.waiting (.posixSpawn path actions attr argv envp))) :
    resolveBackend platform opts = .posixSpawn ∧ Asks opts path argv envp ∧ attr = SpawnPosix.attrOf opts.pgroup := by
  obtain ⟨t₀, u, rfl, -, starting⟩ := exec_spawn_start rfl run
  unfold spawnStart at starting
  split at starting
  · cases ((exec_pure_iff _ _ _).mp starting).2
  cases backend : resolveBackend platform opts with
  | posixSpawn =>
    rw [backend] at starting
    refine ⟨rfl, ?_⟩
    rcases exec_spawnPosix_waits starting with setup | ⟨pipes, actions', attr', prepared, same⟩
    · cases setup
    · cases same
      cases prepared with
      | steps _ _ _ building => exact ⟨⟨rfl, rfl, rfl⟩, SpawnPosix.exec_buildAttr_ok building⟩
  | fork =>
    rw [backend] at starting
    rcases (starting.issues (spawnFork_issues opts)).2 _ rfl with same | setup | child
    · cases same
    · cases setup
    · cases child

theorem exec_spawn_child {before inChild : Trace}
    (run : Exec (spawn platform opts) (before ++ ⟨.fork, .ok 0⟩ :: inChild) (.waiting (.execve path argv envp))) :
    ∃ pipes, Exec (SpawnFork.child opts pipes : Prog (Except SysError (Int × DrainState))) inChild
      (.waiting (.execve path argv envp)) := by
  obtain ⟨t₀, u, split, quiet, starting⟩ := exec_spawn_start rfl run
  have forks : (⟨.fork, .ok 0⟩ : Event os) ∉ t₀ := fun member => by cases quiet _ member
  have inside : ∃ t₁, u = t₁ ++ ⟨.fork, .ok 0⟩ :: inChild := by
    rcases List.append_eq_append_iff.mp split with ⟨u', rfl, same⟩ | ⟨u', rfl, same⟩
    · cases u' with
      | nil => exact ⟨[], same.symm⟩
      | cons e u' =>
        rw [(List.cons_eq_cons.mp same).1] at forks
        exact absurd (List.mem_append_right _ (List.mem_cons_self ..)) forks
    · exact ⟨u', same⟩
  obtain ⟨t₁, rfl⟩ := inside
  unfold spawnStart at starting
  split at starting
  · cases ((exec_pure_iff _ _ _).mp starting).2
  cases backend : resolveBackend platform opts with
  | posixSpawn =>
    rw [backend] at starting
    rcases exec_spawnPosix_waits starting with setup | ⟨pipes, actions', attr', -, same⟩
    · cases setup
    · cases same
  | fork =>
    rw [backend] at starting
    obtain ⟨pipes, -, child⟩ := SpawnFork.exec_spawnFork_child starting
    exact ⟨pipes, child⟩

theorem mem_attributesOf {pgid : Int} {started joined masks resets : Bool} :
    .job (.setpgid pgid false) ∈ attributesOf opts started joined masks resets ↔
      opts.pgroup.leader = some pgid ∧ joined = false := by
  have session : ∀ isolated : Bool, Inherited.Act.job (P := CString) (.setpgid pgid false) ∉
      (if isolated then [.setsid started] else [] : List Jobs.Act).map .job := by
    intro isolated
    cases isolated <;> simp
  simp [attributesOf, session]

theorem Begins.acts {t : Trace} (begins : Begins platform opts enters A path argv envp t A') :
    Asks opts path argv envp ∧ ∃ started joined masks resets,
      Inherited.Run enters A (attributesOf opts started joined masks resets) A' ∧
        ∀ pgid, (∃ e, ⟨.setpgid 0 pgid, .error e⟩ ∈ t) ↔ opts.pgroup.leader = some pgid ∧ joined = false := by
  cases begins with
  | posixSpawn run acts =>
    obtain ⟨backend, asks, rfl⟩ := exec_spawn_posixSpawn run
    rw [SpawnPosix.attrActs_attrOf] at acts
    refine ⟨asks, false, true, true, true, ?_, by simp⟩
    simpa [attributesOf, isolated_of_posixSpawn backend, anywhere_of_posixSpawn backend] using acts
  | fork run acts =>
    obtain ⟨pipes, child⟩ := exec_spawn_child run
    obtain ⟨asks, started, joined, masks, resets, same⟩ := SpawnFork.exec_child_acts child
    refine ⟨asks, started, joined, masks, resets, same ▸ acts, fun pgid => ?_⟩
    rw [← refused_iff, ← mem_attributesBy, same, mem_attributesOf]

end

theorem attributes_of_acts {D : Type} {enters : D → CString → D → Prop} {A A' : Inherited.Attributes D}
    {opts : SpawnOptions} {started joined masks resets : Bool}
    (run : Inherited.Run enters A (attributesOf opts started joined masks resets) A') :
    (opts.ctx.cwd = none → A'.cwd = A.cwd) ∧ (∀ dir, opts.ctx.cwd = some dir → enters A.cwd dir A'.cwd) ∧
      Jobs.Run A.job ((if opts.pgroup.isolated then [.setsid started] else []) ++
        opts.pgroup.leader.toList.map fun pg => .setpgid pg joined) A'.job ∧
      A'.blocked = (fun _ => false) ∧ A'.action = Function.update A.action SIGPIPE .default := by
  obtain ⟨A₁, session, run⟩ := Inherited.run_append.mp run
  obtain ⟨A₂, entering, run⟩ := Inherited.run_append.mp run
  obtain ⟨A₃, joining, signals⟩ := Inherited.run_append.mp run
  obtain ⟨began, same₁⟩ := Inherited.run_jobs session
  obtain ⟨moves, stays, same₂⟩ := Inherited.run_chdir entering
  obtain ⟨joined, same₃⟩ := Inherited.run_jobs joining
  have same₄ := Inherited.run_signals signals
  rw [same₁] at moves stays same₂
  rw [same₂] at joined same₃
  rw [same₃] at same₄
  rw [same₄]
  exact ⟨stays, moves, began.append joined, rfl, rfl⟩

theorem job_of_acts {A A' : Jobs.Member} {isolated : Bool} {leader : Option Int} {started joined : Bool}
    (run : Jobs.Run A ((if isolated then [.setsid started] else []) ++ leader.toList.map (.setpgid · joined)) A')
    (new : A.New) :
    A'.leadsSession = isolated ∧ A'.group =
      if isolated then A.pid else if leader.isSome = true ∧ joined = false then A.group else A.groupFor leader := by
  cases isolated with
  | true =>
    obtain ⟨leads, own⟩ := Jobs.run_session run new.1
    exact ⟨leads, own.trans run.pid⟩
  | false => exact Jobs.run_asked run new.2

/-- The program is the one asked for, with its arguments and variables, and stands in its directory. It leads a
    session exactly when it was to be isolated. Else it is in the group asked for, or where that was refused in
    the group of the parent. No signal is blocked, and none is ignored that the parent does not ignore. -/
structure Ordered {D : Type} (enters : D → CString → D → Prop) (pgroup : ProcessGroup) (args : List String)
    (env : Option (List String)) (cwd : Option String) (A : Inherited.Attributes D) (path : CString)
    (argv : List CStrPtr) (envp : Option (List CStrPtr)) (t : Trace) (A' : Inherited.Attributes D) : Prop where
  program : readString path.storage = args.head?.map Utf8.bytes
  argv : readArray argv = some (args.map Utf8.bytes)
  envp : envp.map readArray = env.map fun vars => some (vars.map Utf8.bytes)
  stays : cwd = none → A'.cwd = A.cwd
  moves : ∀ dir, cwd = some dir → ∃ c : CString, readString c.storage = some (Utf8.bytes dir) ∧ enters A.cwd c A'.cwd
  session : A.job.New → A'.job.leadsSession = pgroup.isolated
  alone : A.job.New → pgroup.isolated = true → A'.job.group = A.job.pid
  joined : A.job.New → pgroup.isolated = false → (∀ pgid e, ⟨.setpgid 0 pgid, .error e⟩ ∉ t) →
    A'.job.group = A.job.groupFor pgroup.leader
  refused : A.job.New → pgroup.isolated = false → ∀ pgid e, ⟨.setpgid 0 pgid, .error e⟩ ∈ t →
    A'.job.group = A.job.group
  unblocked : ∀ sig, A'.exec.blocked sig = false
  pipe : A'.exec.action SIGPIPE = .default
  kept : ∀ sig, sig ≠ SIGPIPE → A'.exec.action sig = (A.action sig).exec

/-- Whichever backend is taken, the program begins as it was ordered, whatever the parent has blocked. -/
theorem begins_as_ordered {D : Type} {platform : Platform} {opts : SpawnOptions} {enters : D → CString → D → Prop}
    {A A' : Inherited.Attributes D} {path : CString} {argv : List CStrPtr} {envp : Option (List CStrPtr)} {t : Trace}
    {args : List String} {env : Option (List String)} {cwd : Option String}
    (made : ExecContext.new args env cwd = .ok opts.ctx)
    (begins : Begins platform opts enters A path argv envp t A') :
    Ordered enters opts.pgroup args env cwd A path argv envp t A' := by
  obtain ⟨asks, started, joined, masks, resets, acts, refusals⟩ := begins.acts
  obtain ⟨rfl, rfl, rfl⟩ := asks
  obtain ⟨stays, moves, job, blocked, action⟩ := attributes_of_acts acts
  obtain ⟨strings, _, dirs⟩ := ExecContext.checks_of_new made
  have unaltered := ExecContext.unaltered made
  have first : some opts.ctx.exePtr.val = args.head?.map Utf8.bytes := by
    rw [← List.head?_map, ← ExecContext.collected_bytes strings, List.head?_map, ExecContext.exePtr,
      List.head?_eq_some_head opts.ctx.nonempty, Option.map_some]
  exact {
    program := by rw [readString_storage, first]
    argv := unaltered.argv
    envp := unaltered.envp
    stays := by
      intro none
      rw [none] at dirs
      exact stays (Option.map_eq_none_iff.mp dirs.symm)
    moves := by
      intro dir given
      rw [given] at dirs
      obtain ⟨c, there, same⟩ := Option.map_eq_some_iff.mp dirs.symm
      refine ⟨c, ?_, moves c there⟩
      rw [readString_storage, CString.new_eq_some.mp same.symm]
    session := fun new => (job_of_acts job new).1
    alone := by
      intro new isolated
      rw [(job_of_acts job new).2, if_pos isolated]
    joined := by
      intro new shared accepted
      have free : ¬(opts.pgroup.leader.isSome = true ∧ joined = false) := by
        intro both
        obtain ⟨pgid, leader⟩ := Option.isSome_iff_exists.mp both.1
        obtain ⟨e, refused⟩ := (refusals pgid).mpr ⟨leader, both.2⟩
        exact accepted pgid e refused
      rw [(job_of_acts job new).2, if_neg (Bool.eq_false_iff.mp shared), if_neg free]
    refused := by
      intro new shared pgid e refused
      obtain ⟨leader, failed⟩ := (refusals pgid).mp ⟨e, refused⟩
      have kept : opts.pgroup.leader.isSome = true ∧ joined = false := ⟨by rw [leader]; rfl, failed⟩
      rw [(job_of_acts job new).2, if_neg (Bool.eq_false_iff.mp shared), if_pos kept]
    unblocked := fun sig => congrFun blocked sig
    pipe := by
      show (A'.action SIGPIPE).exec = .default
      rw [action, Function.update_self]
      rfl
    kept := by
      intro sig other
      show (A'.action sig).exec = (A.action sig).exec
      rw [action, Function.update_of_ne other] }

theorem ls_nonempty : [(⟨[108, 115], ls_no_nul⟩ : CString)] ≠ [] := by
  simp

def lsInRoot : SpawnOptions :=
  { ledBy 0 with
    ctx := ⟨[⟨[108, 115], ls_no_nul⟩], none, some ⟨[47], slash_no_nul⟩, ls_nonempty⟩
    pgroup := ⟨some 0, true⟩ }

def blocking : Inherited.Attributes Bytes :=
  { job := ⟨42, 10, false⟩
    cwd := []
    blocked := fun sig => sig = SIGCHLD
    action := fun sig => if sig = SIGPIPE then .ignored else .default }

def absolute (_ : Bytes) (path : CString) (dir : Bytes) : Prop := dir = path.val

def lsChild : Trace :=
  [⟨.closeRange 3 0xffffffff 0, .ok ()⟩, ⟨.setsid, .ok ()⟩, ⟨.chdir ⟨[47], slash_no_nul⟩, .ok ()⟩,
    ⟨.setpgid 0 0, .error EPERM⟩, ⟨.sigprocmask SIG_SETMASK [], .ok ()⟩, ⟨.signalDefault SIGPIPE, .ok ()⟩]

def lsAttributes : Inherited.Attributes Bytes :=
  { job := ⟨42, 42, true⟩
    cwd := [47]
    blocked := fun sig => [].contains sig
    action := Function.update blocking.action SIGPIPE .default }

theorem ls_acts : Inherited.Run absolute blocking (attributesBy lsChild) lsAttributes :=
  .cons (.job (.session (by decide))) <| .cons (.chdir rfl) <| .cons (.job (.kept (.inl rfl))) <|
    .cons .setMask <| .cons .setDefault <| .nil _

theorem ls_as_ordered : Ordered absolute ⟨some 0, true⟩ [String.ofList ['l', 's']] none (some (String.ofList ['/']))
    blocking ⟨[108, 115], ls_no_nul⟩ [some ⟨[108, 115], ls_no_nul⟩, none] none lsChild lsAttributes := by
  have made : ExecContext.new [String.ofList ['l', 's']] none (some (String.ofList ['/'])) = .ok lsInRoot.ctx := by
    refine ExecContext.new_eq_ok.mpr ⟨ExecContext.collect_eq_ok.mpr ?_, rfl, ?_⟩
    · refine congrArg (fun c => [c]) (CString.new_eq_some.mpr ?_)
      rw [Utf8.bytes, String.toList_ofList]
      decide
    · refine congrArg some (CString.new_eq_some.mpr ?_)
      rw [Utf8.bytes, String.toList_ofList]
      decide
  have run : Exec (spawn .linux lsInRoot)
      ([⟨.epollCreate1, .ok 3⟩, ⟨.reserve 0 0 64, ⟨64, WaitLoop.room_for_events⟩⟩] ++ ⟨.fork, .ok 0⟩ :: lsChild)
      (.waiting (.execve ⟨[108, 115], ls_no_nul⟩ [some ⟨[108, 115], ls_no_nul⟩, none] none)) := .of_replay 3 rfl
  exact begins_as_ordered made (.fork run ls_acts)

end CoreShift
