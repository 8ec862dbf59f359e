import CoreShift.Spawn.Launch

namespace CoreShift

open Interaction Descriptors

def opensNothing (c : Call) : Bool := leavesCall c || isClose c

theorem opensNothing_of_close {c : Call} (close : isClose c = true) : opensNothing c = true := by
  simp [opensNothing, close]

theorem drainPipes_opensNothing (pipes : Pipes) (opts : SpawnOptions) (pid : Int) :
    (drainPipes pipes opts pid).Issues (opensNothing · = true) := by
  have drops : ∀ fd, (dropFd fd).Issues (opensNothing · = true) := fun fd =>
    (dropFd_closes fd).mono fun _ => opensNothing_of_close
  have drained : ∀ stdin stdinBuf stdout stderr limit earlyExit,
      (DrainState.new stdin stdinBuf stdout stderr limit earlyExit).Issues (opensNothing · = true) :=
    DrainState.new_issues_of (fun _ => rfl) (fun _ _ => rfl) fun _ => rfl
  refine .bind (drops _) fun _ => .bind (drops _) fun _ => .bind (drops _) fun _ => ?_
  by_cases nothing : opts.stdin.isNone = true
  · simp only [nothing, ↓reduceIte]
    refine .bind (drops _) fun _ => .bind (drained _ _ _ _ _ _) fun result => ?_
    rcases result with e | drain <;> trivial
  · simp only [nothing]
    refine .bind (drained _ _ _ _ _ _) fun result => ?_
    rcases result with e | drain <;> trivial

theorem opensNothing_of_loop {c : Call} (loop : WaitLoop.isLoopCall c = true) : opensNothing c = true := by
  cases c <;> first | rfl | cases loop

theorem registerWithReactor_opensNothing (d : DrainState) (reactor : Reactor) :
    (d.registerWithReactor reactor).Issues (opensNothing · = true) :=
  registerWithReactor_issues_of (fun _ _ _ _ => rfl) (fun _ => opensNothing_of_close) d reactor

theorem settle_opensNothing (opts : SpawnOptions) (reactor : Reactor) (started : Except SysError (Int × DrainState)) :
    (settle opts reactor started).Issues (opensNothing · = true) := by
  have reactors : ∀ r : Reactor, r.drop.Issues (opensNothing · = true) :=
    fun r => (reactor_drop_closes r).mono fun _ => opensNothing_of_close
  have drains : ∀ d : DrainState, d.drop.Issues (opensNothing · = true) :=
    fun d => (DrainState.drop_closes d).mono fun _ => opensNothing_of_close
  rcases started with e | ⟨pid, drain⟩
  · exact .bind (reactors _) fun _ => trivial
  refine .bind (registerWithReactor_opensNothing _ _) fun answer => ?_
  obtain ⟨drain, reactor, result⟩ := answer
  rcases result with e | ⟨⟩
  · exact .bind (drains _) fun _ => .bind (reactors _) fun _ => trivial
  · show (if !opts.wait then _ else _ : Prog (Except SysError Output)).Issues _
    split
    · exact .bind (.bind (drains _) fun _ => trivial) fun _ => .bind (reactors _) fun _ => trivial
    · exact (WaitLoop.waitLoop_issues _ _ _).mono fun _ => opensNothing_of_loop

section
variable {F : Type} {T T' : Table F} {t : Trace}

theorem effect_opensNothing {e : Event os} (effect : Effect T e T') (opens : opensNothing e.call = true) (n : Nat) :
    e.call = .close n ∧ T' n = none ∨ e.call ≠ .close n ∧ T' n = T n := by
  cases effect with
  | epollCreate1 | openProcSelfFd | inotifyInit1 | signalfd | pipe2 | dup2 | badFd | closeRange | closedir =>
    cases opens
  | @close fd _ =>
    by_cases here : n = fd
    · rw [here]
      exact .inl ⟨rfl, Table.close_self T fd⟩
    · exact .inr ⟨fun same => here (Call.close.inj same).symm, Table.close_of_ne T here⟩
  | leaves leaves =>
    refine .inr ⟨fun same => ?_, rfl⟩
    obtain ⟨call, answer⟩ := e
    cases same
    cases leaves

theorem effects_opensNothing (effects : Effects T t T') (opens : ∀ e ∈ t, opensNothing e.call = true) (n : Nat) :
    DrainState.Closed n t ∧ T' n = none ∨ ¬DrainState.Closed n t ∧ T' n = T n := by
  induction effects with
  | nil T =>
    refine .inr ⟨fun closed => ?_, rfl⟩
    obtain ⟨e, member, -⟩ := closed
    cases member
  | @cons T T₁ T₂ e t first _ ih =>
    have here := effect_opensNothing first (opens e (List.mem_cons_self ..)) n
    rcases ih fun e member => opens e (List.mem_cons_of_mem _ member) with ⟨closed, gone⟩ | ⟨kept, same⟩
    · exact .inl ⟨closed.imp fun _ both => ⟨List.mem_cons_of_mem _ both.1, both.2⟩, gone⟩
    · rcases here with ⟨close, none⟩ | ⟨other, still⟩
      · exact .inl ⟨⟨e, List.mem_cons_self .., close⟩, same.trans none⟩
      · refine .inr ⟨fun closed => ?_, same.trans still⟩
        obtain ⟨e', member, close⟩ := closed
        rcases List.mem_cons.mp member with rfl | member
        · exact other close
        · exact kept ⟨e', member, close⟩

end

theorem closed_of_drop {fd : Fd} {t : Trace} {u : Unit} (run : Exec (dropFd (some fd)) t (.done u)) :
    DrainState.Closed fd.raw t := by
  obtain ⟨answer, rest, rfl, _⟩ := Exec.ask_done run
  exact ⟨_, List.mem_cons_self .., rfl⟩

theorem drainPipes_closes {p : Pipes} {opts : SpawnOptions} {pid : Int} {t : Trace} {result fd}
    (run : Exec (drainPipes p opts pid) t (.done result))
    (childs : p.stdinR = some fd ∨ p.stdoutW = some fd ∨ p.stderrW = some fd) : DrainState.Closed fd.raw t := by
  obtain ⟨t₁, _, t₂, rfl, first, run⟩ := exec_bind_done.mp run
  obtain ⟨t₃, _, t₄, rfl, second, run⟩ := exec_bind_done.mp run
  obtain ⟨t₅, _, t₆, rfl, third, run⟩ := exec_bind_done.mp run
  have inside : ∀ {u}, DrainState.Closed fd.raw u → u ⊆ t₁ ++ (t₃ ++ (t₅ ++ t₆)) →
      DrainState.Closed fd.raw (t₁ ++ (t₃ ++ (t₅ ++ t₆))) :=
    fun closed sub => closed.imp fun _ both => ⟨sub both.1, both.2⟩
  rcases childs with stdin | stdout | stderr
  · rw [stdin] at first
    exact inside (closed_of_drop first) (List.subset_append_left ..)
  · rw [stdout] at second
    exact inside (closed_of_drop second) fun e member => by simp [member]
  · rw [stderr] at third
    exact inside (closed_of_drop third) fun e member => by simp [member]

namespace Course

variable {platform : Platform} {opts : SpawnOptions} {out : Output} (c : Course platform opts out)

theorem opensNothing_after : ∀ e ∈ c.drains ++ c.settles, opensNothing e.call = true :=
  List.forall_mem_append.mpr ⟨(c.drained.issues (drainPipes_opensNothing _ _ _)).1,
    (c.settled.issues (settle_opensNothing _ _ _)).1⟩

theorem untouched_drains : ∀ e ∈ c.drains, touched e.call = 0 := by
  intro e member
  refine c.untouched_start e (List.mem_append_right _ (List.mem_append_right _ (List.mem_cons_of_mem _ member)))

theorem touches {T₀ : Table Nat} {V X : Table File} {t t' : Trace} {e : Event os} {fd : Nat}
    (before : Effects (World.start T₀).table (c.polls ++ (c.makes ++ c.prepares)) V) (effects : Effects V t X)
    (split : c.drains ++ c.settles = t ++ e :: t') (touches : fd ∈ touched e.call) :
    X fd = V fd ∧ X fd ≠ none ∧ ∀ child : Fd,
      c.pipes.stdinR = some child ∨ c.pipes.stdoutW = some child ∨ c.pipes.stderrW = some child → fd ≠ child.raw := by
  have whole : Effects (World.start T₀).table (c.polls ++ (c.makes ++ c.prepares) ++ c.launch :: t) X :=
    effects_append.mpr ⟨V, before, .cons (.leaves c.launched.leaves) effects⟩
  have ledger := c.ledger
  rw [trace, split, ← List.cons_append, ← List.append_assoc] at ledger
  obtain ⟨held, earlier, names⟩ := ledger.names
  have isOpen : X fd ≠ none :=
    ((ledger_beside earlier whole (beside_nothing _)).fresh fd (Multiset.mem_of_le names touches)).2
  have opens : ∀ e ∈ t, opensNothing e.call = true := by
    intro e' member
    refine c.opensNothing_after e' ?_
    rw [split]
    exact List.mem_append_left _ member
  have kept : ∀ n, X n ≠ none → ¬DrainState.Closed n t ∧ X n = V n := by
    intro n isOpen
    rcases effects_opensNothing effects opens n with ⟨_, gone⟩ | kept
    · exact absurd gone isOpen
    · exact kept
  refine ⟨(kept fd isOpen).2, isOpen, fun child ends same => ?_⟩
  -- no descriptor is touched before the ends of the child are closed
  have later : c.drains ⊆ t := by
    rcases List.append_eq_append_iff.mp split with ⟨middle, rfl, -⟩ | ⟨middle, drains, rest⟩
    · exact List.subset_append_left ..
    · cases middle with
      | nil =>
        rw [drains, List.append_nil]
        exact List.Subset.refl _
      | cons e' middle =>
        have here : e = e' := (List.cons_eq_cons.mp rest).1
        have none := c.untouched_drains e (by rw [drains, here]; simp)
        rw [none] at touches
        exact absurd touches (Multiset.notMem_zero fd)
  have closed := drainPipes_closes c.drained ends
  rw [← same] at closed
  exact (kept fd isOpen).1 (closed.imp fun _ both => ⟨later both.1, both.2⟩)

end Course

namespace Family

theorem flatMap_congr {α β : Type} {l : List α} {f g : α → List β} (same : ∀ x ∈ l, f x = g x) :
    l.flatMap f = l.flatMap g := by
  rw [List.flatMap_def, List.flatMap_def, List.map_congr_left same]

theorem flatMap_exchanges {β : Type} (f : Event os → List β) (hs : List Happening) :
    (exchanges hs).flatMap f = hs.flatMap fun h => (exchange h).toList.flatMap f := by
  induction hs with
  | nil => rfl
  | cons h hs ih =>
    rw [List.flatMap_cons, ← ih, ← List.flatMap_append]
    congr 1
    cases h <;> rfl

section
variable {platform : Platform} {opts : SpawnOptions} {out : Output} {c : Course platform opts out} {T₀ : Table Nat}
  {V V' W : World} {T : Table File} {hs : List Happening} {rest : Trace}

theorem Run.heirs (run : Run platform opts V' hs W) (child : V'.child = some T)
    (uncreated : ∀ e ∈ exchanges hs, createdBy e = none) :
    ∃ T', W.child = some T' ∧ ∀ fd f, T'.file fd = some f → ∃ fd', T.file fd' = some f := by
  induction run generalizing T with
  | nil W => exact ⟨T, child, fun fd f refers => ⟨fd, refers⟩⟩
  | @cons W W₁ W₂ h hs first _ ih =>
    cases first with
    | @parent _ e step =>
      cases step with
      | parent effect begins flow =>
        have none := uncreated e (List.mem_cons_self ..)
        have later : ∀ e ∈ exchanges hs, createdBy e = Option.none :=
          fun e member => uncreated e (List.mem_cons_of_mem _ member)
        cases begins with
        | posixSpawn => cases none
        | fork parent => simp [createdBy, parent] at none
        | stays => exact ih child later
    | call => exact ih child uncreated
    | inherit running had =>
      cases child.symm.trans running
      obtain ⟨T', same, kept⟩ := ih rfl uncreated
      refine ⟨T', same, fun fd f refers => ?_⟩
      obtain ⟨fd', refers'⟩ := kept fd f refers
      exact had fd' f refers'

structure Serving (c : Course platform opts out) (T₀ : Table Nat) (V V' : World) (T : Table File)
    (hs : List Happening) (rest : Trace) (W : World) : Prop where
  launching : Launching c T₀ V V' T
  run : Run platform opts V' hs W
  split : c.drains ++ c.settles = exchanges hs ++ rest

theorem Serving.uncreated (serving : Serving c T₀ V V' T hs rest W) : ∀ e ∈ exchanges hs, createdBy e = none := by
  intro e member
  refine createdBy_of_setup (c.setup_after e ?_)
  rw [serving.split]
  exact List.mem_append_left _ member

theorem Serving.cut {hs' : List Happening} (serving : Serving c T₀ V V' T (hs ++ hs') rest W) :
    ∃ X, Serving c T₀ V V' T hs (exchanges hs' ++ rest) X ∧ Run platform opts X hs' W := by
  obtain ⟨X, before, after⟩ := run_append.mp serving.run
  refine ⟨X, ⟨serving.launching, before, ?_⟩, after⟩
  rw [serving.split, exchanges_append, List.append_assoc]

theorem Serving.touches {X X' : World} {e : Event os} {fd : Nat} (serving : Serving c T₀ V V' T hs rest W)
    (member : .parent X e X' ∈ hs) (touches : fd ∈ touched e.call) :
    X.table fd = V.table fd ∧ X.table fd ≠ none ∧ ∀ child : Fd,
      c.pipes.stdinR = some child ∨ c.pipes.stdoutW = some child ∨ c.pipes.stderrW = some child → fd ≠ child.raw := by
  obtain ⟨hs₁, hs₂, Y, Y', rfl, before, step, -⟩ := serving.run.reaches member
  cases step with
  | parent =>
    have effects := before.effects
    rw [serving.launching.table] at effects
    have split := serving.split
    rw [exchanges_append, List.append_assoc] at split
    exact c.touches serving.launching.before effects split touches

theorem Serving.holds {k : Nat} {op : Channel.Op UInt8} {answer : Channel.Answer UInt8}
    (serving : Serving c T₀ V V' T hs rest W) (member : .call k op answer ∈ hs) :
    ∃ w ∈ c.pipes.wires, V.table.file w.source = some (endOf k op) := by
  obtain ⟨hs₁, hs₂, X, X', rfl, before, step, -⟩ := serving.run.reaches member
  cases step with
  | call running refers =>
    have uncreated : ∀ e ∈ exchanges hs₁, createdBy e = none := fun e inside =>
      serving.uncreated e (by rw [exchanges_append]; exact List.mem_append_left _ inside)
    obtain ⟨T', same, had⟩ := before.heirs serving.launching.child uncreated
    cases same.symm.trans running
    obtain ⟨fd', refers'⟩ := had _ _ refers
    have isEnd : (endOf k op).pipe ≠ none := by
      cases op <;> exact Option.some_ne_none k
    exact serving.launching.handed.only fd' _ refers' isEnd

end

theorem mem_wires {p : Pipes} {w : Wire} (member : w ∈ p.wires) :
    p.stdinR = some ⟨w.source⟩ ∧ p.stdinW = some ⟨w.other⟩ ∨ p.stdoutW = some ⟨w.source⟩ ∧ p.stdoutR = some ⟨w.other⟩ ∨
      p.stderrW = some ⟨w.source⟩ ∧ p.stderrR = some ⟨w.other⟩ := by
  have one : ∀ {source other : Option Fd} {target : Nat}, w ∈ Pipes.wire source other target →
      source = some ⟨w.source⟩ ∧ other = some ⟨w.other⟩ := by
    intro source other target member
    cases source <;> cases other <;> simp only [Pipes.wire, List.mem_singleton, List.not_mem_nil] at member
    rw [member]
    exact ⟨rfl, rfl⟩
  rw [Pipes.wires, List.mem_append, List.mem_append] at member
  rcases member with (stdin | stdout) | stderr
  · exact .inl (one stdin)
  · exact .inr (.inl (one stdout))
  · exact .inr (.inr (one stderr))

theorem apart_of_sublist {p : Pipes} {a b : Fd} (distinct : p.ends.Nodup)
    (sub : [some a, some b].Sublist [p.stdinR, p.stdinW, p.stdoutR, p.stdoutW, p.stderrR, p.stderrW]) :
    a.raw ≠ b.raw := by
  have two : [a.raw, b.raw].Sublist p.ends := (sub.filterMap id).map Fd.raw
  have pair := distinct.sublist two
  intro same
  rw [same] at pair
  exact (List.nodup_cons.mp pair).1 (List.mem_singleton_self _)

section
variable {platform : Platform} {opts : SpawnOptions} {out : Output} {c : Course platform opts out} {T₀ : Table Nat}
  {V V' W : World} {T : Table File} {hs : List Happening} {rest : Trace} {r w : Fd} {k : Nat}

/-- A pipe for an output of the child: the parent reads from it with `r`, and has no other end of it in the end. -/
structure Incoming (c : Course platform opts out) (V : World) (r w : Fd) (k : Nat) : Prop where
  mine : V.table.file r.raw = some (.readEnd k)
  theirs : V.table.file w.raw = some (.writeEnd k)
  childs : c.pipes.stdoutW = some w ∨ c.pipes.stderrW = some w
  kept : ∀ wire ∈ c.pipes.wires, wire.source ≠ r.raw

theorem Serving.incoming (serving : Serving c T₀ V V' T hs rest W) (incoming : Incoming c V r w k) :
    ∀ h ∈ hs, takenBy k h = (exchange h).toList.flatMap (deliveredBy r.raw) ∧ enteredBy k h = writtenBy k h := by
  have plumbed := serving.launching.plumbed
  intro h member
  cases h with
  | parent X e X' =>
    have seen := fun fd => @Serving.touches _ _ _ _ _ _ _ _ _ _ _ _ _ _ fd serving member
    obtain ⟨call, answer⟩ := e
    cases call
    case read fd count =>
      rcases answer with e | data
      · exact ⟨rfl, rfl⟩
      · obtain ⟨same, -, -⟩ := seen fd (Multiset.mem_singleton_self fd)
        have here := plumbed.refers_iff same (by simp [File.pipe]) incoming.mine
        refine ⟨?_, rfl⟩
        simp [takenBy, exchange, deliveredBy, here]
    case write fd bytes =>
      rcases answer with e | n
      · exact ⟨rfl, rfl⟩
      · obtain ⟨same, -, closed⟩ := seen fd (Multiset.mem_singleton_self fd)
        have theirs := plumbed.refers_iff same (by simp [File.pipe]) incoming.theirs
        exact ⟨rfl, if_neg fun refers => closed w (.inr incoming.childs) (theirs.mp refers)⟩
    all_goals exact ⟨rfl, rfl⟩
  | call k' op answer =>
    refine ⟨?_, rfl⟩
    by_cases same : k' = k
    · subst same
      cases op with
      | write => simp [takenBy, exchange, Channel.taken]
      | read count =>
        -- nobody but the parent has the end to read from
        obtain ⟨wire, inside, refers⟩ := serving.holds member
        have own := plumbed.alone _ _ _ (by simp [File.pipe, endOf]) refers incoming.mine
        exact absurd own (incoming.kept wire inside)
    · simp [takenBy, exchange, same]
  | inherit => exact ⟨rfl, rfl⟩

structure Outgoing (c : Course platform opts out) (V : World) (r w : Fd) (k : Nat) : Prop where
  mine : V.table.file w.raw = some (.writeEnd k)
  theirs : V.table.file r.raw = some (.readEnd k)
  childs : c.pipes.stdinR = some r
  kept : ∀ wire ∈ c.pipes.wires, wire.source ≠ w.raw

theorem Serving.outgoing (serving : Serving c T₀ V V' T hs rest W) (outgoing : Outgoing c V r w k) :
    ∀ h ∈ hs, enteredBy k h = (exchange h).toList.flatMap (acceptedBy w.raw) ∧ takenBy k h = readBy k h := by
  have plumbed := serving.launching.plumbed
  intro h member
  cases h with
  | parent X e X' =>
    have seen := fun fd => @Serving.touches _ _ _ _ _ _ _ _ _ _ _ _ _ _ fd serving member
    obtain ⟨call, answer⟩ := e
    cases call
    case write fd bytes =>
      rcases answer with e | n
      · exact ⟨rfl, rfl⟩
      · obtain ⟨same, -, -⟩ := seen fd (Multiset.mem_singleton_self fd)
        have here := plumbed.refers_iff same (by simp [File.pipe]) outgoing.mine
        refine ⟨?_, rfl⟩
        simp [enteredBy, exchange, acceptedBy, here]
    case read fd count =>
      rcases answer with e | data
      · exact ⟨rfl, rfl⟩
      · obtain ⟨same, -, closed⟩ := seen fd (Multiset.mem_singleton_self fd)
        have theirs := plumbed.refers_iff same (by simp [File.pipe]) outgoing.theirs
        exact ⟨rfl, if_neg fun refers => closed r (.inl outgoing.childs) (theirs.mp refers)⟩
    all_goals exact ⟨rfl, rfl⟩
  | call k' op answer =>
    refine ⟨?_, rfl⟩
    by_cases same : k' = k
    · subst same
      cases op with
      | read => simp [enteredBy, exchange, Channel.entered]
      | write data =>
        -- nobody but the parent has the end to write to
        obtain ⟨wire, inside, refers⟩ := serving.holds member
        have own := plumbed.alone _ _ _ (by simp [File.pipe, endOf]) refers outgoing.mine
        exact absurd own (outgoing.kept wire inside)
    · simp [enteredBy, exchange, same]
  | inherit => exact ⟨rfl, rfl⟩

theorem Serving.empty (serving : Serving c T₀ V V' T hs rest W) {fd : Nat} {f : File}
    (refers : V.table.file fd = some f) (isEnd : f.pipe = some k) :
    ∃ c₀ c', c₀.content = [] ∧ V'.pipes k = some c₀ ∧ W.pipes k = some c' ∧
      hs.flatMap (enteredBy k) = hs.flatMap (takenBy k) ++ c'.content := by
  have plumbed := serving.launching.plumbed
  obtain ⟨c₀, used⟩ := Option.ne_none_iff_exists'.mp (plumbed.used fd f k refers isEnd)
  have empty := plumbed.empty k c₀ used
  rw [← serving.launching.pipes] at used
  obtain ⟨c', used', fifo⟩ := serving.run.fifo used
  rw [empty, List.nil_append] at fifo
  exact ⟨c₀, c', empty, used, used', fifo⟩

theorem Serving.delivered (serving : Serving c T₀ V V' T hs rest W) (incoming : Incoming c V r w k) :
    ∃ c', W.pipes k = some c' ∧ written k hs = CoreShift.delivered r.raw (exchanges hs) ++ c'.content := by
  obtain ⟨_, c', _, _, used, fifo⟩ := serving.empty incoming.mine rfl
  refine ⟨c', used, ?_⟩
  have labels := serving.incoming incoming
  rw [CoreShift.delivered, flatMap_exchanges, ← flatMap_congr fun h member => (labels h member).1, ← fifo]
  exact (flatMap_congr fun h member => (labels h member).2).symm

theorem Serving.accepted (serving : Serving c T₀ V V' T hs rest W) (outgoing : Outgoing c V r w k) :
    ∃ c', W.pipes k = some c' ∧ CoreShift.accepted w.raw (exchanges hs) = read k hs ++ c'.content := by
  obtain ⟨_, c', _, _, used, fifo⟩ := serving.empty outgoing.mine rfl
  refine ⟨c', used, ?_⟩
  have labels := serving.outgoing outgoing
  rw [CoreShift.accepted, flatMap_exchanges, ← flatMap_congr fun h member => (labels h member).1, fifo]
  congr 1
  exact flatMap_congr fun h member => (labels h member).2

theorem Run.unwritten (run : Run platform opts V' hs W) (child : V'.child = some T)
    (uncreated : ∀ e ∈ exchanges hs, createdBy e = none) (closed : ¬V'.Opened (.writeEnd k)) : written k hs = [] := by
  refine List.flatMap_eq_nil_iff.mpr fun h member => ?_
  cases h with
  | parent | inherit => rfl
  | call k' op answer =>
    by_cases same : k' = k
    · subst same
      cases op with
      | read => simp [writtenBy, Channel.entered]
      | write data =>
        obtain ⟨hs₁, hs₂, X, X', rfl, before, step, -⟩ := run.reaches member
        cases step with
        | call running refers =>
          have earlier : ∀ e ∈ exchanges hs₁, createdBy e = none := fun e inside =>
            uncreated e (by rw [exchanges_append]; exact List.mem_append_left _ inside)
          obtain ⟨T', still, had⟩ := before.heirs child earlier
          cases still.symm.trans running
          obtain ⟨fd', refers'⟩ := had _ _ refers
          exact absurd ⟨fd', .inr ⟨T, child, refers'⟩⟩ closed
    · simp [writtenBy, same]

theorem read_eof_step {X X' : World} {fd count : Nat} (wanted : 0 < count)
    (refers : X.table.file fd = some (.readEnd k))
    (step : X.Step platform opts (.parent ⟨.read fd count, .ok ⟨[], Nat.zero_le _⟩⟩) X') :
    ¬X'.Opened (.writeEnd k) ∧ X'.child = X.child ∧ ∃ c', X'.pipes k = some c' ∧ c'.content = [] := by
  cases step with
  | parent effect begins flow =>
    have table := effect_leaves effect rfl
    cases begins with
    | stays =>
      cases flow with
      | @read _ _ k' _ c₁ c₁' refers' here move =>
        cases refers.symm.trans refers'
        obtain ⟨content, closed⟩ := move.atEnd (by omega)
        have fifo := move.fifo
        rw [content] at fifo
        refine ⟨fun isOpen => closed ?_, rfl, c₁', Function.update_self .., ?_⟩
        · rw [table] at isOpen
          exact isOpen
        · simpa [Channel.entered, Channel.taken] using fifo.symm
      | leaves leaves => simp [World.leavesPipes, refers] at leaves

theorem Serving.ended (serving : Serving c T₀ V V' T hs rest W) (incoming : Incoming c V r w k)
    (seen : SawEof r.raw (exchanges hs)) : written k hs = CoreShift.delivered r.raw (exchanges hs) := by
  obtain ⟨count, wanted, member⟩ := seen
  obtain ⟨h, inside, here⟩ := List.mem_filterMap.mp member
  cases h with
  | call | inherit => cases here
  | parent X e X' =>
    cases here
    obtain ⟨same, -, -⟩ := serving.touches inside (Multiset.mem_singleton_self r.raw)
    have refers : X.table.file r.raw = some (.readEnd k) := (file_of_entry same).trans incoming.mine
    obtain ⟨hs₁, hs₂, Y, Y', rfl, before, step, after⟩ := serving.run.reaches inside
    cases step with
    | parent step =>
      have earlier : ∀ e ∈ exchanges hs₁, createdBy e = none := fun e inside =>
        serving.uncreated e (by rw [exchanges_append]; exact List.mem_append_left _ inside)
      obtain ⟨T', child, -⟩ := before.heirs serving.launching.child earlier
      obtain ⟨closed, same, c₁, used, empty⟩ := read_eof_step wanted refers step
      have later : ∀ e ∈ exchanges hs₂, createdBy e = none := fun e inside =>
        serving.uncreated e (by rw [exchanges_append]; exact List.mem_append_right _ (List.mem_cons_of_mem _ inside))
      have silent := after.unwritten (same.trans child) later closed
      obtain ⟨c', used', fifo⟩ := after.fifo used
      have nothing : hs₂.flatMap (enteredBy k) = [] := by
        rw [← silent]
        exact flatMap_congr fun h member => (serving.incoming incoming h (by simp [member])).2
      rw [empty, nothing, List.append_nil] at fifo
      obtain ⟨c'', final, whole⟩ := serving.delivered incoming
      cases used'.symm.trans final
      rw [whole, (List.append_eq_nil_iff.mp fifo.symm).2, List.append_nil]

theorem Launching.apart (launching : Launching c T₀ V V' T) {a b : Fd} (sub : [some a, some b].Sublist
    [c.pipes.stdinR, c.pipes.stdinW, c.pipes.stdoutR, c.pipes.stdoutW, c.pipes.stderrR, c.pipes.stderrW]) :
    a.raw ≠ b.raw := by
  obtain ⟨B, made⟩ := launching.made
  exact apart_of_sublist made.grown.nodup sub

theorem Launching.stdout (launching : Launching c T₀ V V' T) (reading : c.pipes.stdoutR = some r)
    (writing : c.pipes.stdoutW = some w) : ∃ k, Incoming c V r w k ∧ T.file 1 = some (.writeEnd k) := by
  obtain ⟨k, mine, theirs⟩ := launching.laid.stdout r w reading writing
  have wire : ⟨w.raw, r.raw, 1⟩ ∈ c.pipes.wires := by simp [Pipes.wires, Pipes.wire, reading, writing]
  refine ⟨k, ⟨mine, theirs, .inl writing, fun wire member => ?_⟩, (launching.handed.given _ wire).trans theirs⟩
  rcases mem_wires member with ⟨source, -⟩ | ⟨source, -⟩ | ⟨source, -⟩
  · refine launching.apart (a := ⟨wire.source⟩) (b := r) ?_
    rw [source, reading]
    exact .cons_cons _ (.cons _ (.cons_cons _ (List.nil_sublist _)))
  · refine (launching.apart (a := r) (b := ⟨wire.source⟩) ?_).symm
    rw [source, reading]
    exact .cons _ (.cons _ (.cons_cons _ (.cons_cons _ (List.nil_sublist _))))
  · refine (launching.apart (a := r) (b := ⟨wire.source⟩) ?_).symm
    rw [source, reading]
    exact .cons _ (.cons _ (.cons_cons _ (.cons _ (.cons _ (.cons_cons _ (List.nil_sublist _))))))

theorem Launching.stderr (launching : Launching c T₀ V V' T) (reading : c.pipes.stderrR = some r)
    (writing : c.pipes.stderrW = some w) : ∃ k, Incoming c V r w k ∧ T.file 2 = some (.writeEnd k) := by
  obtain ⟨k, mine, theirs⟩ := launching.laid.stderr r w reading writing
  have wire : ⟨w.raw, r.raw, 2⟩ ∈ c.pipes.wires := by simp [Pipes.wires, Pipes.wire, reading, writing]
  refine ⟨k, ⟨mine, theirs, .inr writing, fun wire member => ?_⟩, (launching.handed.given _ wire).trans theirs⟩
  rcases mem_wires member with ⟨source, -⟩ | ⟨source, -⟩ | ⟨source, -⟩
  · refine launching.apart (a := ⟨wire.source⟩) (b := r) ?_
    rw [source, reading]
    exact .cons_cons _ (.cons _ (.cons _ (.cons _ (.cons_cons _ (List.nil_sublist _)))))
  · refine launching.apart (a := ⟨wire.source⟩) (b := r) ?_
    rw [source, reading]
    exact .cons _ (.cons _ (.cons _ (.cons_cons _ (.cons_cons _ (List.nil_sublist _)))))
  · refine (launching.apart (a := r) (b := ⟨wire.source⟩) ?_).symm
    rw [source, reading]
    exact .cons _ (.cons _ (.cons _ (.cons _ (.cons_cons _ (.cons_cons _ (List.nil_sublist _))))))

theorem Launching.stdin (launching : Launching c T₀ V V' T) (reading : c.pipes.stdinR = some r)
    (writing : c.pipes.stdinW = some w) : ∃ k, Outgoing c V r w k ∧ T.file 0 = some (.readEnd k) := by
  obtain ⟨k, theirs, mine⟩ := launching.laid.stdin r w reading writing
  have wire : ⟨r.raw, w.raw, 0⟩ ∈ c.pipes.wires := by simp [Pipes.wires, Pipes.wire, reading, writing]
  refine ⟨k, ⟨mine, theirs, reading, fun wire member => ?_⟩, (launching.handed.given _ wire).trans theirs⟩
  rcases mem_wires member with ⟨source, -⟩ | ⟨source, -⟩ | ⟨source, -⟩
  · refine launching.apart (a := ⟨wire.source⟩) (b := w) ?_
    rw [source, writing]
    exact .cons_cons _ (.cons_cons _ (List.nil_sublist _))
  · refine (launching.apart (a := w) (b := ⟨wire.source⟩) ?_).symm
    rw [source, writing]
    exact .cons _ (.cons_cons _ (.cons _ (.cons_cons _ (List.nil_sublist _))))
  · refine (launching.apart (a := w) (b := ⟨wire.source⟩) ?_).symm
    rw [source, writing]
    exact .cons _ (.cons_cons _ (.cons _ (.cons _ (.cons _ (.cons_cons _ (List.nil_sublist _))))))

end

end Family

end CoreShift
