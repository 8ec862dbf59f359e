import CoreShift.Spawn.World

namespace CoreShift

open Interaction Descriptors

theorem nonblocking_of_libc {c : Call} (libc : SpawnPosix.isLibcCall c = true) : isNonblockingCall c = true :=
  nonblocking_of_setup (SpawnPosix.setup_of_libc libc)

theorem reactor_nonblocking : Reactor.new.Issues (isNonblockingCall · = true) := reactor_new_issues_of rfl rfl

theorem drainPipes_nonblocking (pipes : Pipes) (opts : SpawnOptions) (pid : Int) :
    (drainPipes pipes opts pid).Issues (isNonblockingCall · = true) :=
  (drainPipes_issues pipes opts pid).mono fun _ => nonblocking_of_setup

namespace Pipes

theorem orClose_nonblocking {α β : Type} (p : Pipes) (step : Except SysError α)
    {rest : α → Prog (Except SysError β)} (later : ∀ value, (rest value).Issues (isNonblockingCall · = true)) :
    (p.orClose step rest).Issues (isNonblockingCall · = true) := by
  rcases step with e | value
  · exact (failing_issues p e).mono fun _ => nonblocking_of_setup
  · exact later value

theorem new_nonblocking (inBuf : Option Bytes) (out err : Bool) :
    (new inBuf out err).Issues (isNonblockingCall · = true) :=
  (new_issues inBuf out err).mono fun _ => nonblocking_of_setup

end Pipes

open SpawnPosix in
theorem spawnPosix_nonblocking (opts : SpawnOptions) :
    (spawnPosixInternal opts).Issues (isNonblockingCall · = true) := by
  have records := fun steps actions => (record_issues steps actions).mono fun _ => nonblocking_of_libc
  have lists := fun handled actions => (closeListed_issues handled actions).mono fun _ => nonblocking_of_setup
  have builds := (buildAttr_issues opts.pgroup).mono fun _ => nonblocking_of_libc
  refine .bind (Pipes.new_nonblocking _ _ _) fun made => ?_
  rcases made with e | pipes
  · trivial
  refine .bind ((Program.issues_ask _ _).mpr rfl) fun _ => pipes.orClose_nonblocking _ fun _ => ?_
  refine .bind (records _ _) fun _ => pipes.orClose_nonblocking _ fun _ => ?_
  refine .bind (lists _ _) fun _ => ?_
  refine .bind builds fun _ => pipes.orClose_nonblocking _ fun _ => ?_
  refine .bind ((Program.issues_ask _ _).mpr rfl) fun _ => pipes.orClose_nonblocking _ fun _ => ?_
  exact drainPipes_nonblocking _ _ _

namespace SpawnFork

def isChildCall : Call → Bool
  | .dup2 _ _ | .close _ | .closeRange _ _ _ | .setsid | .chdir _ | .setpgid _ _ | .sigprocmask _ _ | .signalDefault _
  | .execve _ _ _ | .exit _ => true
  | _ => false

theorem child_of_wire {p : Pipes} {c : Call} (member : c ∈ wireCalls p) : isChildCall c = true := by
  have dups : ∀ source other target, ∀ c ∈ dupCalls source other target, isChildCall c = true := by
    intro source other target c member
    cases source <;> cases other <;> simp only [dupCalls, List.mem_singleton, List.not_mem_nil] at member
    rw [member]
    rfl
  simp only [wireCalls, List.mem_append, closeCalls, List.mem_map, List.mem_singleton] at member
  rcases member with (((member | member) | member) | ⟨fd, _, rfl⟩) | rfl
  · exact dups _ _ _ _ member
  · exact dups _ _ _ _ member
  · exact dups _ _ _ _ member
  · rfl
  · rfl

theorem exit_issues {α : Type} (status : Int) : (exit status : Prog α).Issues (isChildCall · = true) :=
  .bind ((Program.issues_ask _ _).mpr rfl) fun never => nomatch never

theorem child_issues {α : Type} (opts : SpawnOptions) (pipes : Pipes) :
    (child opts pipes : Prog α).Issues (isChildCall · = true) := by
  have wires : (wire pipes).Issues (isChildCall · = true) := (wire_straight pipes).issues fun c => child_of_wire
  have launched : (launch opts : Prog α).Issues (isChildCall · = true) := by
    have last : (SignalRuntime.unblockAll >>= fun _ => SignalRuntime.resetDefault SIGPIPE >>= fun _ =>
        ask (.execve opts.ctx.exePtr opts.ctx.getArgvPtrs opts.ctx.getEnvpPtrs) >>= fun _ =>
          (exit 127 : Prog α)).Issues (isChildCall · = true) := by
      refine .bind (.bind ((Program.issues_ask _ _).mpr rfl) fun _ => trivial) fun _ => ?_
      refine .bind (.bind ((Program.issues_ask _ _).mpr rfl) fun _ => trivial) fun _ => ?_
      exact .bind ((Program.issues_ask _ _).mpr rfl) fun _ => exit_issues _
    unfold launch
    cases leader : opts.pgroup.leader with
    | none => exact last
    | some pg => exact .bind ((Program.issues_ask _ _).mpr rfl) fun _ => last
  have entered : (enter opts : Prog α).Issues (isChildCall · = true) := by
    have started : ∀ answer, (launchOrExit opts answer : Prog α).Issues (isChildCall · = true) := by
      intro answer
      rcases answer with e | ⟨⟩
      · exact exit_issues _
      · exact launched
    unfold enter
    cases cwd : opts.ctx.cwd with
    | none => exact started (.ok ())
    | some cwd => exact .bind ((Program.issues_ask _ _).mpr rfl) started
  unfold child
  refine .bind wires fun _ => ?_
  by_cases isolated : opts.pgroup.isolated = true
  · simp only [isolated, ↓reduceIte]
    exact .bind ((Program.issues_ask _ _).mpr rfl) fun _ => entered
  · simp only [isolated, Bool.false_eq_true, ↓reduceIte]
    exact entered

theorem nonblocking_of_child {c : Call} (child : isChildCall c = true) : isNonblockingCall c = true := by
  cases c <;> first | rfl | cases child

theorem child_nonblocking {α : Type} (opts : SpawnOptions) (pipes : Pipes) :
    (child opts pipes : Prog α).Issues (isNonblockingCall · = true) :=
  (child_issues opts pipes).mono fun _ => nonblocking_of_child

end SpawnFork

theorem spawnFork_nonblocking (opts : SpawnOptions) : (spawnForkInternal opts).Issues (isNonblockingCall · = true) := by
  refine .bind (Pipes.new_nonblocking _ _ _) fun made => ?_
  rcases made with e | pipes
  · trivial
  refine .bind ((Program.issues_ask _ _).mpr rfl) fun forked => ?_
  rcases forked with e | pid
  · exact (Pipes.failing_issues pipes _).mono fun _ => nonblocking_of_setup
  · by_cases child : pid = 0
    · simp only [child, ↓reduceIte]
      exact SpawnFork.child_nonblocking _ _
    · simp only [child, ↓reduceIte]
      exact drainPipes_nonblocking _ _ _

theorem spawn_nonblocking (platform : Platform) (opts : SpawnOptions) :
    (spawn platform opts).Issues (isNonblockingCall · = true) := by
  have starts : (spawnStart platform opts).Issues (isNonblockingCall · = true) := by
    unfold spawnStart
    split
    · trivial
    · split
      · exact spawnPosix_nonblocking opts
      · exact spawnFork_nonblocking opts
  refine .bind reactor_nonblocking fun made => ?_
  rcases made with e | reactor
  · trivial
  · exact .bind starts fun started => (settle_issues opts reactor started).mono fun _ => nonblocking_of_setup

/-- In every order of the exchanges of the parent and the calls of the child, no call of the child on
    its pipes is refused exactly when none is made that would have to wait. -/
theorem stdio_not_refused_iff {platform : Platform} {opts : SpawnOptions} {T : Descriptors.Table Nat} {W : World}
    {hs : List Happening} {o : Outcome os (Except SysError Output)}
    (world : World.Run platform opts (.start T) hs W) (run : Exec (spawn platform opts) W.past o) :
    (∀ V fd op answer, .child V fd op answer ∈ hs → answer ≠ .again) ↔
      ∀ V fd op answer, .child V fd op answer ∈ hs → ¬V.Stalls fd op := by
  have keeps := (run.issues (spawn_nonblocking platform opts)).1
  have none : World.AllNonblock (World.start T).pipes := by
    intro k c here
    cases here
  have refused := world.refused_iff keeps none
  apply Iff.intro
  · intro answered V fd op answer member stalls
    exact answered V fd op answer member ((refused V fd op answer member).mpr stalls)
  · intro ready V fd op answer member again
    exact ready V fd op answer member ((refused V fd op answer member).mp again)

namespace World

def captured (capacity : Nat) : World :=
  let table := (((start standardOnly).table.install 3 ⟨.other 100, true⟩).install 4 ⟨.readEnd 0, true⟩).install 5
    ⟨.writeEnd 0, true⟩
  { past := captureStart 3 4 5 ++ [capturingChild]
    table
    child := some (((table.install 1 ⟨.writeEnd 0, false⟩).close 5).close 4).exec
    pipes := Function.update (fun _ => none) 0 (some (.new UInt8 capacity true)) }

theorem captured_run (capacity : Nat) :
    Run .linux capturing (start standardOnly) ((captureStart 3 4 5 ++ [capturingChild]).map .parent)
      (captured capacity) := by
  have polls : (start standardOnly).table.Least 3 := by decide
  have reads : ((start standardOnly).table.install 3 ⟨.other 100, true⟩).Least 4 := by decide
  have writes : (((start standardOnly).table.install 3 ⟨.other 100, true⟩).install 4 ⟨.readEnd 0, true⟩).Least 5 := by
    decide
  refine .cons (.parent (.epollCreate1 (f := .other 100) polls) (.stays rfl) (.leaves rfl)) ?_
  refine .cons (.parent (.leaves rfl) (.stays rfl) (.leaves rfl)) ?_
  refine .cons (.parent (.pipe2 (g := .writeEnd 0) rfl reads writes) (.stays rfl)
    (.pipe2 (k := 0) capacity rfl rfl rfl)) ?_
  refine Run.append (run_quiet (t := (captureStart 3 4 5).drop 3) (by simp [captureStart, leavesTable, leavesPipes,
    createdBy])) (.cons (.parent (.leaves rfl) (.posixSpawn rfl) (.leaves rfl)) (.nil _))

theorem not_child_of_parent {t : Trace} {V : World} {fd : Nat} {op : Channel.Op UInt8}
    {answer : Channel.Answer UInt8} : .child V fd op answer ∉ t.map Happening.parent := by
  intro member
  obtain ⟨e, -, same⟩ := List.mem_map.mp member
  cases same

theorem captured_exec : Exec (spawn .linux capturing) (captureStart 3 4 5 ++ [capturingChild]) (.waiting (.close 5)) :=
  .of_replay 3 rfl

def filled (data : Bytes) : World :=
  { captured data.length with
    pipes := Function.update (captured data.length).pipes 0
      (some ((Channel.new UInt8 data.length true).put data (Nat.le_of_eq (Nat.zero_add _)))) }

theorem filled_run {data : Bytes} (given : data ≠ []) :
    Run .linux capturing (start standardOnly) ((captureStart 3 4 5 ++ [capturingChild]).map .parent ++
      [.child (captured data.length) 1 (.write data) (.wrote data.length)]) (filled data) := by
  have write : Step .linux capturing (captured data.length)
      (.child (captured data.length) 1 (.write data) (.wrote data.length)) (filled data) :=
    .child (k := 0) rfl (by decide) rfl rfl (.write given ⟨4, .inl rfl⟩ _)
  exact (captured_run data.length).append (.cons write (.nil _))

end World

theorem stdout_not_refused :
    ∃ W hs, World.Run .linux capturing (.start standardOnly) hs W ∧
      .child (World.captured 1) 1 (.write [104]) (.wrote 1) ∈ hs ∧
      ∀ V fd op answer, .child V fd op answer ∈ hs → answer ≠ .again := by
  have given : ([104] : Bytes) ≠ [] := by decide
  have world := World.filled_run given
  refine ⟨_, _, world, List.mem_append_right _ (List.mem_cons_self ..), ?_⟩
  refine (stdio_not_refused_iff world World.captured_exec).mpr fun V fd op answer member stalls => ?_
  rcases List.mem_append.mp member with member | member
  · exact World.not_child_of_parent member
  · cases List.mem_singleton.mp member
    obtain ⟨T, k, c, running, refers, here, -, -, full⟩ := stalls
    cases running
    have same : some (File.writeEnd 0) = some (.writeEnd k) := refers
    cases same
    have empty : some (Channel.new UInt8 1 true) = some c := here
    cases empty
    simp [Channel.Full, Channel.new, PIPE_BUF] at full

/-- The child fills the pipe before the parent reads, and its next write is refused. -/
theorem full_stdout_refused :
    ¬∀ (platform : Platform) (opts : SpawnOptions) (T : Descriptors.Table Nat) (W : World) (hs : List Happening)
      (o : Outcome os (Except SysError Output)), World.Run platform opts (.start T) hs W →
      Exec (spawn platform opts) W.past o → ∀ V fd op answer, .child V fd op answer ∈ hs → answer ≠ .again := by
  intro accepted
  have refused : ∀ data : Bytes, data ≠ [] → False := by
    intro data given
    have full : (World.filled data).pipes 0 = some ((Channel.new UInt8 data.length true).put data
        (Nat.le_of_eq (Nat.zero_add _))) := rfl
    have write : ∃ W, World.Step .linux capturing (World.filled data)
        (.child (World.filled data) 1 (.write [0]) .again) W ∧ W.past = (World.filled data).past := by
      refine ⟨_, .child (k := 0) rfl (by decide) rfl full (.writeAgain rfl ⟨⟨4, .inl rfl⟩, by simp, ?_⟩), rfl⟩
      simp [Channel.Full, Channel.put, Channel.new, PIPE_BUF]
    obtain ⟨W, again, past⟩ := write
    have run := (World.filled_run given).append (.cons again (.nil _))
    have parent : Exec (spawn .linux capturing) W.past (.waiting (.close 5)) := by
      rw [past]
      exact World.captured_exec
    exact accepted _ _ _ _ _ _ run parent _ _ _ _ (List.mem_append_right _ (List.mem_cons_self ..)) rfl
  have full : (List.replicate 65536 (0 : UInt8)).length = 65536 := List.length_replicate
  exact refused (List.replicate 65536 0) (List.ne_nil_of_length_pos (by rw [full]; omega))

end CoreShift
