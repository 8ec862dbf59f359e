import CoreShift.Spawn.Backends
import CoreShift.Spawn.Course
import CoreShift.Spawn.Plumbing

namespace CoreShift

open Interaction Descriptors

namespace Family

/-- What the program of the child begins with, of the ends of the pipes that are in the table `T` of the parent. -/
structure Handed (p : Pipes) (T T' : Table File) : Prop where
  given : ∀ w ∈ p.wires, T'.file w.target = T.file w.source
  only : ∀ n f, T'.file n = some f → f.pipe ≠ none → ∃ w ∈ p.wires, T.file w.source = some f

section
variable {platform : Platform} {opts : SpawnOptions} {W W' : World} {hs : List Happening} {p : Pipes} {out : Output}

theorem Run.around {t t' : Trace} {e : Event os} (run : Run platform opts W hs W')
    (same : exchanges hs = t ++ e :: t') :
    ∃ hs₁ V V' hs₂, hs = hs₁ ++ .parent V e V' :: hs₂ ∧ exchanges hs₁ = t ∧ exchanges hs₂ = t' ∧
      Run platform opts W hs₁ V ∧ V.Step platform opts (.parent e) V' ∧ Run platform opts V' hs₂ W' := by
  obtain ⟨hs₁, rest, W₁, rfl, first, second, before, run⟩ := run.split same
  obtain ⟨others, h, hs₂, rfl, silent, here, after⟩ := List.filterMap_eq_cons_iff.mp second
  obtain ⟨V, between, run⟩ := run_append.mp run
  obtain ⟨V', step, later⟩ := run_cons.mp run
  have none : exchanges others = [] := List.filterMap_eq_nil_iff.mpr silent
  cases step with
  | parent step =>
    cases here
    refine ⟨hs₁ ++ others, V, V', hs₂, by simp, ?_, after, run_append.mpr ⟨W₁, before, between⟩, step, later⟩
    rw [exchanges_append, first, none, List.append_nil]
  | call | inherit => cases here

theorem handed {T₀ : Table Nat} {T T₁ : Table File} {T' : Table File} {epfd : Nat} (made : Pipes.Made opts T p T₁)
    (grown : Grown (World.start T₀).table (epfd :: p.ends) T₁) (standard : ∀ n ≤ 2, T₀ n ≠ none)
    (low : ∀ n ≤ 2, T' n = (dupAll T₁ p.wires).closeAll p.ends n)
    (below : ∀ n, T' n = none ∨ T' n = (dupAll T₁ p.wires).closeAll p.ends n) : Handed p T₁ T'.exec := by
  have high : ∀ n ∈ p.ends, 2 < n := by
    intro n member
    have free := grown.free n (List.mem_cons_of_mem _ member)
    by_contra le
    obtain ⟨e, isOpen⟩ := Option.ne_none_iff_exists'.mp (standard n (Nat.not_lt.mp le))
    simp [World.start, isOpen] at free
  have clear : Clear p.wires := by
    intro w first w' second hit
    have le := Pipes.target_le p w first
    have gt := high _ ((made.mem_ends _).mpr ⟨w', second, hit⟩)
    omega
  have apart : ∀ w ∈ p.wires, ∀ w' ∈ p.wires, w.target ≠ w'.source :=
    fun w first w' second same => clear w first w' second (by simp [Wire.ends, same])
  have target : ∀ w ∈ p.wires, (dupAll T₁ p.wires).closeAll p.ends w.target =
      (T₁ w.source).map fun e => ⟨e.file, false⟩ := by
    intro w member
    have outside : w.target ∉ p.ends := by
      intro inside
      have le := Pipes.target_le p w member
      have gt := high _ inside
      omega
    rw [Table.closeAll_apply, if_neg outside]
    exact dupAll_target (Pipes.targets_nodup p) apart made.opened w member
  refine ⟨fun w member => ?_, fun n f refers isEnd => ?_⟩
  · obtain ⟨e, isOpen⟩ := Option.isSome_iff_exists.mp (made.opened w member)
    have arrived := (low _ (Pipes.target_le p w member)).trans (target w member)
    rw [isOpen, Option.map_some] at arrived
    rw [Table.file_exec_of_kept arrived rfl, Table.file, isOpen, Option.map_some]
  · obtain ⟨e, here, rfl⟩ := Option.map_eq_some_iff.mp refers
    obtain ⟨here, stays⟩ := Option.filter_eq_some_iff.mp here
    have kept : (dupAll T₁ p.wires).closeAll p.ends n = some e := by
      rcases below n with none | same
      · rw [none] at here
        cases here
      · rw [← same, here]
    by_cases wired : ∃ w ∈ p.wires, n = w.target
    · obtain ⟨w, member, rfl⟩ := wired
      rw [target w member, Option.map_eq_some_iff] at kept
      obtain ⟨e', isOpen, rfl⟩ := kept
      refine ⟨w, member, ?_⟩
      rw [Table.file, isOpen, Option.map_some]
    · have others : ∀ w ∈ p.wires, n ≠ w.target := fun w member same => wired ⟨w, member, same⟩
      rw [Table.closeAll_apply, dupAll_of_ne others] at kept
      split at kept
      · cases kept
      · rename_i outside
        by_cases polling : n = epfd
        · obtain ⟨f, flagged⟩ := grown.opened n (by rw [polling]; exact List.mem_cons_self ..)
          rw [flagged] at kept
          cases kept
          cases stays
        · have old := grown.others n (List.not_mem_cons_of_ne_of_not_mem polling outside)
          have before : (World.start T₀).table.file n = some e.file := by
            rw [Table.file, ← old, kept, Option.map_some]
          obtain ⟨id, other⟩ := file_start before
          rw [other] at isEnd
          exact absurd rfl isEnd

theorem closeAll_or {T : Table File} (fds : List Nat) (n : Nat) : T.closeAll fds n = none ∨ T.closeAll fds n = T n := by
  rw [Table.closeAll_apply]
  split
  · exact .inl rfl
  · exact .inr rfl

theorem launched_table (c : Course platform opts out) {V V' : World} {T : Table File}
    (made : Pipes.Made opts T c.pipes V.table) (standard : ∀ n ≤ 2, T n ≠ none)
    (past : V.past = c.polls ++ (c.makes ++ c.prepares)) (prepares : Effects V.table c.prepares V.table)
    (step : V.Step platform opts (.parent c.launch) V') :
    V'.table = V.table ∧ V'.pipes = V.pipes ∧ ∃ T' : Table File, V'.child = some T'.exec ∧
      (∀ n ≤ 2, T' n = (dupAll V.table c.pipes.wires).closeAll c.pipes.ends n) ∧
      ∀ n, T' n = none ∨ T' n = (dupAll V.table c.pipes.wires).closeAll c.pipes.ends n := by
  obtain ⟨polls, makes, prepares, launch, drains, settles, reactor, pipes, pid, drain, polled, piped, launched, drained,
    settled, started⟩ := c
  dsimp only at *
  cases launched with
  | posixSpawn backend prepared =>
    cases step with
    | parent effect begins flow =>
      have leaves := effect_leaves effect rfl
      cases flow with
      | leaves =>
        cases begins with
        | posixSpawn applied =>
          obtain ⟨-, fds, rfl, above, -⟩ := prepared.effects piped prepares
          obtain ⟨wired, wires, rfl⟩ := SpawnPosix.applyActions_prepared applied
          have same :=
            wireEach_eq_dupAll made.mem_ends (made.clear standard) (Pipes.targets_nodup _) made.disjoint made.opened
          cases wires.symm.trans same
          refine ⟨leaves, rfl, _, rfl, fun n low => ?_, closeAll_or fds⟩
          rw [Table.closeAll_apply, if_neg fun member => absurd (above n member) (Nat.not_lt.mpr low)]
        | stays creates => cases creates
  | fork backend parent =>
    cases step with
    | parent effect begins flow =>
      have leaves := effect_leaves effect rfl
      cases flow with
      | leaves =>
        cases begins with
        | fork other child effects =>
          rw [past, List.append_nil, List.append_assoc] at child
          have started := exec_spawn_execve polled child
          rw [spawnStart_of_event started, backend] at started
          obtain ⟨pipes', piped', calls⟩ := SpawnFork.exec_spawnFork_execve started
          have same : pipes' = pipes := Except.ok.inj ((Pipes.new _ _ _).determined.result piped' piped)
          subst same
          obtain ⟨answer, -, range⟩ := SpawnFork.effects_child calls effects
          refine ⟨leaves, rfl, _, rfl, SpawnFork.effects_child_low calls effects, fun n => ?_⟩
          cases range with
          | closeRange =>
            unfold Table.closeRange
            split
            · exact .inl rfl
            · exact .inr rfl
          | leaves => exact .inr rfl
        | stays creates => exact absurd creates (by simp [createdBy, parent])

end

end Family

namespace Course

variable {platform : Platform} {opts : SpawnOptions} {out : Output} (c : Course platform opts out)

theorem setup_of_prepares : ∀ e ∈ c.makes ++ c.prepares, isSetupCall e.call = true := by
  obtain ⟨polls, makes, prepares, launch, drains, settles, reactor, pipes, pid, drain, polled, piped, launched, drained,
    settled, started⟩ := c
  have first := (piped.issues (Pipes.new_issues _ _ _)).1
  cases launched with
  | posixSpawn backend prepared =>
    show ∀ e ∈ makes ++ prepares, _
    generalize makes ++ prepares = t at prepared
    cases prepared with
    | steps piped recording listing building =>
      have records := (recording.issues ((SpawnPosix.record_issues _ _).mono fun _ => SpawnPosix.setup_of_libc)).1
      have lists := (listing.issues (SpawnPosix.closeListed_issues _ _)).1
      have builds := (building.issues ((SpawnPosix.buildAttr_issues _).mono fun _ => SpawnPosix.setup_of_libc)).1
      refine List.forall_mem_append.mpr ⟨(piped.issues (Pipes.new_issues _ _ _)).1, List.forall_mem_cons.mpr ⟨rfl, ?_⟩⟩
      exact List.forall_mem_append.mpr ⟨records, List.forall_mem_append.mpr ⟨lists, builds⟩⟩
  | fork => simpa using first

theorem setup_of_polls : ∀ e ∈ c.polls, isSetupCall e.call = true := by
  have asks : Reactor.new.Issues (isSetupCall · = true) := reactor_new_issues_of rfl rfl
  exact (c.polled.issues asks).1

theorem setup_after : ∀ e ∈ c.drains ++ c.settles, isSetupCall e.call = true :=
  List.forall_mem_append.mpr
    ⟨(c.drained.issues (drainPipes_issues _ _ _)).1, (c.settled.issues (settle_issues _ _ _)).1⟩

theorem inParent : ∀ e ∈ c.trace, InParent e := by
  have setup : ∀ e : Event os, isSetupCall e.call = true → InParent e := by
    intro e setup same
    rw [same] at setup
    cases setup
  have launch : InParent c.launch := by
    intro same
    have creates := c.launched.creates
    rw [same] at creates
    cases creates
  refine List.forall_mem_append.mpr ⟨List.forall_mem_append.mpr ⟨fun e member => setup e (c.setup_of_polls e member),
    fun e member => setup e (c.setup_of_prepares e member)⟩, List.forall_mem_cons.mpr ⟨launch, fun e member => ?_⟩⟩
  exact setup e (c.setup_after e member)

theorem untouched_start : ∀ e ∈ c.makes ++ (c.prepares ++ c.launch :: c.drains), touched e.call = 0 :=
  fun e member => untouched_of_start ((c.started.issues (spawnStart_starts _ _)).1 e member)

theorem untouched_polls : ∀ e ∈ c.polls, touched e.call = 0 := by
  have asks : Reactor.new.Issues (touched · = 0) := reactor_new_issues_of rfl rfl
  exact (c.polled.issues asks).1

theorem runs : Exec (spawn platform opts) c.trace (.done (.ok out)) := by
  have rest := c.started.bind_done c.settled
  have whole : Exec (spawn platform opts) _ _ := c.polled.bind_done rest
  simpa [trace] using whole

theorem ledger : accounts.Ledger 0 c.trace 0 := by
  obtain ⟨held, ledger, done⟩ := tends_spawn platform opts _ _ c.runs c.inParent
  rwa [done _ rfl] at ledger

theorem quiet : ∀ e ∈ c.polls ++ (c.makes ++ c.prepares), Family.Quiet e := by
  intro e member
  have known : ¬overwrites e.call = true :=
    c.ledger.known e (List.mem_append_left _ member)
  rcases List.mem_append.mp member with polls | prepares
  · exact ⟨createdBy_of_setup (c.setup_of_polls e polls), known, c.untouched_polls e polls⟩
  · refine ⟨createdBy_of_setup (c.setup_of_prepares e prepares), known, c.untouched_start e ?_⟩
    rcases List.mem_append.mp prepares with made | prepared
    · exact List.mem_append_left _ made
    · exact List.mem_append_right _ (List.mem_append_left _ prepared)

end Course

namespace Family

section
variable {platform : Platform} {opts : SpawnOptions} {out : Output} {W : World} {hs : List Happening}

structure Launching (c : Course platform opts out) (T₀ : Table Nat) (V V' : World) (T : Table File) : Prop where
  plumbed : Plumbed V
  table : V'.table = V.table
  pipes : V'.pipes = V.pipes
  child : V'.child = some T
  laid : Laid c.pipes V.table
  handed : Handed c.pipes V.table T
  made : ∃ B, Pipes.Made opts B c.pipes V.table
  before : Effects (World.start T₀).table (c.polls ++ (c.makes ++ c.prepares)) V.table

theorem Run.launching (c : Course platform opts out) {T₀ : Table Nat} (standard : ∀ n ≤ 2, T₀ n ≠ none)
    (run : Run platform opts (World.start T₀) hs W) (same : exchanges hs = c.trace) :
    ∃ hs₁ V V' hs₂ T, hs = hs₁ ++ .parent V c.launch V' :: hs₂ ∧ (∀ h ∈ hs₁, ∃ V e V', h = .parent V e V') ∧
      exchanges hs₂ = c.drains ++ c.settles ∧ Run platform opts V' hs₂ W ∧ Launching c T₀ V V' T := by
  obtain ⟨hs₁, V, V', hs₂, rfl, first, later, before, step, after⟩ := run.around same
  have quiet : ∀ e ∈ exchanges hs₁, Quiet e := first ▸ c.quiet
  have plumbed := before.plumbed (plumbed_start T₀) quiet
  have past : V.past = c.polls ++ (c.makes ++ c.prepares) := by
    rw [before.past, first]
    exact List.nil_append _
  have effects : Effects (World.start T₀).table (c.polls ++ (c.makes ++ c.prepares)) V.table := first ▸ before.effects
  obtain ⟨hs₀, rest, V₀, same₁, polls, others, run₀, run₁⟩ := before.split first
  obtain ⟨hsM, hsP, V₁, same₂, makes, prepares, runM, runP⟩ := run₁.split others
  have made := Pipes.new_made c.made (makes ▸ runM.effects)
  obtain ⟨epfd, polling⟩ := reactor_grown c.polled (polls ▸ run₀.effects)
  have grown := polling.trans made.grown
  have laid := new_laid c.made runM makes
  have prepared : Effects V₁.table c.prepares V.table := prepares ▸ runP.effects
  have unchanged : V.table = V₁.table := by
    obtain ⟨polls, makes, prepares, launch, drains, settles, reactor, pipes, pid, drain, polled, piped, launched,
      drained, settled, started⟩ := c
    cases launched with
    | posixSpawn backend recorded => exact (recorded.effects piped prepared).1
    | fork => exact effects_nil prepared
  rw [← unchanged] at made grown laid prepared
  have opened : ∀ n ≤ 2, V₀.table n ≠ none := by
    intro n low closed
    have before : (World.start T₀).table n ≠ none := by
      obtain ⟨e, isOpen⟩ := Option.ne_none_iff_exists'.mp (standard n low)
      simp [World.start, isOpen]
    have outside : n ∉ [epfd] := fun member => before (polling.free n member)
    exact before ((polling.others n outside).symm.trans closed)
  obtain ⟨table, pipes, T, child, low, below⟩ := launched_table c made opened past prepared step
  exact ⟨hs₁, V, V', hs₂, T.exec, rfl, before.parents (plumbed_start T₀) quiet, later, after, plumbed, table, pipes,
    child, laid, handed made grown standard low below, ⟨_, made⟩, effects⟩

end

end Family

end CoreShift
