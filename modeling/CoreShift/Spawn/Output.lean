import CoreShift.Spawn.Conveyed
import Mathlib.Data.List.Infix

namespace CoreShift

open Interaction Descriptors

namespace Family

section
variable {platform : Platform} {opts : SpawnOptions} {out : Output} {c : Course platform opts out} {T₀ : Table Nat}
  {V V' W X : World} {T : Table File} {hs : List Happening} {rest : Trace} {e : Event os} {r w : Fd} {k : Nat}

theorem mem_exchanges (member : e ∈ exchanges hs) : ∃ X X', .parent X e X' ∈ hs := by
  obtain ⟨h, inside, here⟩ := List.mem_filterMap.mp member
  cases h with
  | parent X _ X' =>
    cases here
    exact ⟨X, X', inside⟩
  | call | inherit => cases here

theorem Serving.unclosed (serving : Serving c T₀ V V' T hs [] W) {fd : Nat} (member : e ∈ c.settles)
    (touches : fd ∈ touched e.call) : ¬DrainState.Closed fd c.drains := by
  intro closed
  obtain ⟨t, t', split⟩ := List.append_of_mem member
  have whole : c.drains ++ c.settles = (c.drains ++ t) ++ e :: t' := by rw [split, List.append_assoc]
  have same : exchanges hs = (c.drains ++ t) ++ e :: t' := by rw [← whole, serving.split, List.append_nil]
  obtain ⟨hs₁, Y, Y', hs₂, rfl, earlier, -, before, -, -⟩ := serving.run.around same
  have effects := before.effects
  rw [earlier, serving.launching.table] at effects
  obtain ⟨-, isOpen, -⟩ := c.touches serving.launching.before effects whole touches
  have opens : ∀ e ∈ c.drains ++ t, opensNothing e.call = true := by
    intro e member
    refine c.opensNothing_after e ?_
    rw [whole]
    exact List.mem_append_left _ member
  rcases effects_opensNothing effects opens fd with ⟨-, none⟩ | ⟨kept, -⟩
  · exact isOpen none
  · exact kept (closed.mono t)

theorem Serving.unread (serving : Serving c T₀ V V' T hs rest W) (outgoing : Outgoing c V r w k)
    (ended : WriteEnded w.raw (exchanges hs)) :
    ∃ T', W.child = some T' ∧ ∀ fd, T'.file fd ≠ some (.readEnd k) := by
  obtain ⟨bytes, given, told⟩ := ended
  have reached : ∀ {answer}, ⟨.write w.raw bytes, answer⟩ ∈ exchanges hs → ∃ hs₁ hs₂ X X',
      hs = hs₁ ++ .parent X ⟨.write w.raw bytes, answer⟩ X' :: hs₂ ∧ Run platform opts V' hs₁ X ∧
        Step platform opts X (.parent X ⟨.write w.raw bytes, answer⟩ X') X' ∧ Run platform opts X' hs₂ W ∧
          X.table.file w.raw = some (.writeEnd k) := by
    intro answer member
    obtain ⟨X, X', inside⟩ := mem_exchanges member
    obtain ⟨same, -, -⟩ := serving.touches inside (Multiset.mem_singleton_self w.raw)
    obtain ⟨hs₁, hs₂, Y, Y', split, before, step, after⟩ := serving.run.reaches inside
    cases step with
    | parent step ordinary honest =>
      exact ⟨hs₁, hs₂, X, X', split, before, .parent step ordinary honest, after,
        (file_of_entry same).trans outgoing.mine⟩
  rcases told with broken | nothing
  · obtain ⟨hs₁, hs₂, X, X', rfl, before, step, after, refers⟩ := reached broken
    have none := serving.uncreated
    rw [exchanges_append] at none
    obtain ⟨earlier, later⟩ := List.forall_mem_append.mp none
    obtain ⟨T₁, child, -⟩ := before.heirs serving.launching.child earlier
    cases step with
    | parent step ordinary honest =>
      have closed := honest rfl k refers
      have still : X'.child = some T₁ := by
        cases step with
        | parent _ begins =>
          cases begins
          exact child
      obtain ⟨T', last, had⟩ := after.heirs still fun e member => later e (List.mem_cons_of_mem _ member)
      refine ⟨T', last, fun fd refers' => ?_⟩
      obtain ⟨fd', earlier⟩ := had fd _ refers'
      exact closed ⟨fd', .inr ⟨T₁, child, earlier⟩⟩
  · obtain ⟨hs₁, hs₂, X, X', rfl, before, step, after, refers⟩ := reached nothing
    cases step with
    | parent step =>
      cases step with
      | parent _ _ flow =>
        cases flow with
        | write _ _ move => exact absurd (move.progress given) (Nat.lt_irrefl 0)
        | leaves leaves => simp [World.leavesPipes, refers] at leaves

theorem silent_drains (c : Course platform opts out) (fd : Nat) :
    CoreShift.delivered fd c.drains = [] ∧ CoreShift.accepted fd c.drains = [] := by
  have quiet : ∀ e ∈ c.drains, deliveredBy fd e = [] ∧ acceptedBy fd e = [] := by
    intro e member
    have nothing := c.untouched_drains e member
    obtain ⟨call, answer⟩ := e
    cases call
    case read | write => exact absurd nothing (Multiset.singleton_ne_zero _)
    all_goals exact ⟨rfl, rfl⟩
  exact ⟨delivered_of_forall fun e member => (quiet e member).1, accepted_of_forall fun e member => (quiet e member).2⟩

theorem Serving.silent (serving : Serving c T₀ V V' T hs [] W) (fd : Nat) :
    CoreShift.delivered fd (exchanges hs) = CoreShift.delivered fd c.settles ∧
      CoreShift.accepted fd (exchanges hs) = CoreShift.accepted fd c.settles := by
  have same := serving.split
  rw [List.append_nil] at same
  rw [← same, delivered_append, accepted_append, (silent_drains c fd).1, (silent_drains c fd).2]
  exact ⟨rfl, rfl⟩

theorem Serving.captures (serving : Serving c T₀ V V' T hs [] W) (incoming : Incoming c V r w k) {bytes : Bytes}
    {limit : Nat} {stopped : Prop} (kept : bytes = (CoreShift.delivered r.raw c.settles).take limit)
    (ended : SawEof r.raw c.settles ∨ stopped) :
    bytes <+: (written k hs).take limit ∧ (¬stopped → bytes = (written k hs).take limit) := by
  rw [← (serving.silent r.raw).1] at kept
  obtain ⟨c', -, whole⟩ := serving.delivered incoming
  refine ⟨?_, fun going => ?_⟩
  · rw [kept, whole]
    exact List.IsPrefix.take (List.prefix_append _ _) limit
  · have seen : SawEof r.raw (exchanges hs) := by
      refine (ended.resolve_right going).mono ?_
      rw [← List.append_nil (exchanges hs), ← serving.split]
      exact List.subset_append_right ..
    rw [kept, serving.ended incoming seen]

theorem Serving.supplies (serving : Serving c T₀ V V' T hs [] W) (outgoing : Outgoing c V r w k) {data : Bytes}
    (supplied : CoreShift.accepted w.raw c.settles <+: data) (unclosed : ¬DrainState.Closed w.raw c.drains)
    (guarded : Guarded (DrainState.Ended data .stdin w.raw) (fun e => e.call = .close w.raw) c.settles) :
    read k hs <+: data ∧ ∀ count, 0 < count → .call k (.read count) (.data []) ∈ hs → read k hs = data := by
  obtain ⟨c', -, whole⟩ := serving.accepted outgoing
  have part : read k hs <+: data := by
    rw [← (serving.silent w.raw).2, whole] at supplied
    exact (List.prefix_append _ _).trans supplied
  refine ⟨part, fun count wanted member => part.eq_of_length_le ?_⟩
  obtain ⟨hs₁, hs₂, X, X', rfl, -, -, -⟩ := serving.run.reaches member
  obtain ⟨X, earlier, after⟩ := serving.cut
  obtain ⟨X', step, -⟩ := run_cons.mp after
  cases step with
  | @call _ T' fd _ _ c₁ _ running refers here move =>
    obtain ⟨content, shut⟩ := move.atEnd (Nat.ne_of_gt wanted)
    obtain ⟨c₂, used, taken⟩ := earlier.accepted outgoing
    cases here.symm.trans used
    rw [content, List.append_nil] at taken
    -- the parent has closed its end, and before that it has written everything
    have effects := earlier.run.effects
    rw [earlier.launching.table] at effects
    have opens : ∀ e ∈ exchanges hs₁, opensNothing e.call = true := by
      intro e inside
      refine c.opensNothing_after e ?_
      rw [earlier.split]
      exact List.mem_append_left _ inside
    have closed : DrainState.Closed w.raw (exchanges hs₁) := by
      rcases effects_opensNothing effects opens w.raw with ⟨closed, -⟩ | ⟨-, same⟩
      · exact closed
      · exact absurd ⟨w.raw, .inl ((file_of_entry same).trans outgoing.mine)⟩ shut
    have ready : DrainState.Ended data .stdin w.raw (exchanges hs₁) := by
      obtain ⟨e, inside, closes⟩ := closed
      rcases List.append_eq_append_iff.mp earlier.split with ⟨u, same, later⟩ | ⟨u, same, -⟩
      · rw [same] at inside ⊢
        rcases List.mem_append.mp inside with drained | settled
        · exact absurd ⟨e, drained, closes⟩ unclosed
        · obtain ⟨before, after, rfl⟩ := List.append_of_mem settled
          have ended := guarded before e (after ++ _) (by rw [later, List.append_assoc, List.cons_append]) closes
          have still := ended.mono (e :: after)
          refine still.imp (fun whole => ?_) (·.mono (List.subset_append_right ..))
          rwa [accepted_append, (silent_drains c _).2, List.nil_append]
      · refine absurd ⟨e, ?_, closes⟩ unclosed
        rw [same]
        exact List.mem_append_left _ inside
    rcases ready with everything | ended
    · rw [taken] at everything
      refine everything.length_le.trans ?_
      rw [read, read, List.flatMap_append, List.length_append]
      exact Nat.le_add_right ..
    · obtain ⟨T', same, none⟩ := earlier.unread outgoing ended
      cases running.symm.trans same
      exact absurd refers (none _)

theorem Launching.distinct (launching : Launching c T₀ V V' T) : c.drain.Distinct := by
  obtain ⟨stdin, stdout, stderr⟩ := exec_drainPipes_ok c.drained
  have input : ∀ slot, c.drain.slotOf .stdin = some slot → c.pipes.stdinW = some slot.fd := by
    intro slot filled
    rw [DrainState.slotOf, stdin, Option.map_eq_some_iff] at filled
    obtain ⟨fd, here, rfl⟩ := filled
    split at here
    · exact here
    · cases here
  have output : ∀ slot, c.drain.slotOf .stdout = some slot → c.pipes.stdoutR = some slot.fd := by
    intro slot filled
    rw [DrainState.slotOf, stdout, Option.map_eq_some_iff] at filled
    obtain ⟨fd, here, rfl⟩ := filled
    exact here
  have errors : ∀ slot, c.drain.slotOf .stderr = some slot → c.pipes.stderrR = some slot.fd := by
    intro slot filled
    rw [DrainState.slotOf, stderr, Option.map_eq_some_iff] at filled
    obtain ⟨fd, here, rfl⟩ := filled
    exact here
  have inOut : ∀ a b, c.pipes.stdinW = some a → c.pipes.stdoutR = some b → a ≠ b := by
    intro a b first second same
    refine launching.apart (a := a) (b := b) ?_ (congrArg Fd.raw same)
    rw [← first, ← second]
    exact .cons _ (.cons_cons _ (.cons_cons _ (List.nil_sublist _)))
  have inErr : ∀ a b, c.pipes.stdinW = some a → c.pipes.stderrR = some b → a ≠ b := by
    intro a b first second same
    refine launching.apart (a := a) (b := b) ?_ (congrArg Fd.raw same)
    rw [← first, ← second]
    exact .cons _ (.cons_cons _ (.cons _ (.cons _ (.cons_cons _ (List.nil_sublist _)))))
  have outErr : ∀ a b, c.pipes.stdoutR = some a → c.pipes.stderrR = some b → a ≠ b := by
    intro a b first second same
    refine launching.apart (a := a) (b := b) ?_ (congrArg Fd.raw same)
    rw [← first, ← second]
    exact .cons _ (.cons _ (.cons_cons _ (.cons _ (.cons_cons _ (List.nil_sublist _)))))
  intro s s' slot slot' filled filled' same
  cases s <;> cases s' <;> first
    | rfl
    | exact absurd same (inOut _ _ (input _ filled) (output _ filled'))
    | exact absurd same (inErr _ _ (input _ filled) (errors _ filled'))
    | exact absurd same (outErr _ _ (output _ filled) (errors _ filled'))
    | exact absurd same.symm (inOut _ _ (input _ filled') (output _ filled))
    | exact absurd same.symm (inErr _ _ (input _ filled') (errors _ filled))
    | exact absurd same.symm (outErr _ _ (output _ filled') (errors _ filled))

theorem Launching.waits (launching : Launching c T₀ V V' T) :
    opts.wait = true ∨ ∀ s, c.drain.slotOf s = none := by
  obtain ⟨B, made⟩ := launching.made
  obtain ⟨stdin, stdout, stderr⟩ := exec_drainPipes_ok c.drained
  have started := c.started
  unfold spawnStart at started
  split at started
  · cases ((exec_pure_iff _ _ _).mp started).2
  · rename_i permitted
    cases waits : opts.wait with
    | true => exact .inl rfl
    | false =>
      simp only [waits, Bool.not_false, Bool.true_and, Bool.not_eq_true, Bool.or_eq_false_iff] at permitted
      refine .inr fun s => ?_
      cases s with
      | stdin => simp [DrainState.slotOf, stdin, permitted.1.1]
      | stdout =>
        have none := made.stdout.1
        rw [permitted.1.2, Option.isSome_eq_false_iff, Option.isNone_iff_eq_none] at none
        simp [DrainState.slotOf, stdout, none]
      | stderr =>
        have none := made.stderr.1
        rw [permitted.2, Option.isSome_eq_false_iff, Option.isNone_iff_eq_none] at none
        simp [DrainState.slotOf, stderr, none]

theorem Launching.served (launching : Launching c T₀ V V' T) : WaitLoop.Served c.drain c.settles out := by
  have buffer := (drainPipes_drain c.drained).2.1
  refine settle_served launching.distinct (fun isStdout => ?_) launching.waits c.settled
  rw [buffer]
  cases isStdout <;> rfl

theorem settle_registers {reactor : Reactor} {pid : Int} {drain : DrainState} {t : Trace} {slot : FdSlot}
    (run : Exec (settle opts reactor (.ok (pid, drain))) t (.done (.ok out))) (filled : drain.stdinSlot = some slot) :
    ∃ e ∈ t, slot.fd.raw ∈ touched e.call := by
  obtain ⟨t₁, answer, t₂, rfl, registered, -⟩ := exec_bind_done.mp run
  obtain ⟨t₃, first, t₄, rfl, slots, -⟩ := exec_bind_done.mp registered
  rw [filled] at slots
  obtain ⟨t₅, added, t₆, rfl, adding, -⟩ := exec_bind_done.mp slots
  obtain ⟨-, answer, rfl, -⟩ := Reactor.exec_add adding
  refine ⟨_, List.mem_append_left _ (List.mem_append_left _ (List.mem_append_left _ (List.mem_singleton_self _))), ?_⟩
  exact Multiset.mem_add.mpr (.inr (Multiset.mem_singleton_self _))

end

/-- What is returned for an output of the child: what the descriptor `n` of the child leads to is a pipe, and of
    all that was ever written to it the first bytes are returned, or fewer of them after a stop. -/
def Captures (wanted : Bool) (limit : Nat) (stopped : Prop) (T : Table File) (n : Nat) (hs : List Happening)
    (bytes : Bytes) : Prop :=
  if wanted then
    ∃ k, T.file n = some (.writeEnd k) ∧ bytes <+: (written k hs).take limit ∧
      (¬stopped → bytes = (written k hs).take limit)
  else bytes = []

/-- Descendants read the first bytes of the input, and all of it before they see its end. -/
def Supplies (input : Option Bytes) (T : Table File) (hs : List Happening) : Prop :=
  ∀ data, input = some data → ∃ k, T.file 0 = some (.readEnd k) ∧ read k hs <+: data ∧
    ∀ count, 0 < count → .call k (.read count) (.data []) ∈ hs → read k hs = data

/-- What `spawn` returns, against what the child that began with the table `T` and its descendants did. -/
structure Conveyed (opts : SpawnOptions) (T : Table File) (hs : List Happening) (out : Output) : Prop where
  stdout : Captures opts.captureStdout opts.maxOutput (StopAsked (exchanges hs)) T 1 hs out.stdout
  stderr : Captures opts.captureStderr opts.maxOutput False T 2 hs out.stderr
  stdin : Supplies opts.stdin T hs

section
variable {platform : Platform} {opts : SpawnOptions} {out : Output} {c : Course platform opts out} {T₀ : Table Nat}
  {V V' W : World} {T : Table File} {hs hs' : List Happening}

theorem moved_of_parents (alone : ∀ h ∈ hs, ∃ X e X', h = .parent X e X') (k : Nat) :
    written k (hs ++ hs') = written k hs' ∧ read k (hs ++ hs') = read k hs' := by
  have none : ∀ h ∈ hs, writtenBy k h = [] ∧ readBy k h = [] := by
    intro h member
    obtain ⟨X, e, X', rfl⟩ := alone h member
    exact ⟨rfl, rfl⟩
  have silent : written k hs = [] ∧ read k hs = [] :=
    ⟨List.flatMap_eq_nil_iff.mpr fun h member => (none h member).1,
      List.flatMap_eq_nil_iff.mpr fun h member => (none h member).2⟩
  have whole : written k (hs ++ hs') = written k hs ++ written k hs' ∧ read k (hs ++ hs') = read k hs ++ read k hs' :=
    ⟨List.flatMap_append, List.flatMap_append⟩
  rw [whole.1, whole.2, silent.1, silent.2]
  exact ⟨rfl, rfl⟩

theorem Conveyed.before (alone : ∀ h ∈ hs, ∃ X e X', h = .parent X e X') (conveyed : Conveyed opts T hs' out) :
    Conveyed opts T (hs ++ hs') out := by
  have moved := fun k => @moved_of_parents hs hs' alone k
  have outputs : ∀ {wanted limit n bytes} {stopped stopped' : Prop}, (stopped → stopped') →
      Captures wanted limit stopped T n hs' bytes → Captures wanted limit stopped' T n (hs ++ hs') bytes := by
    intro wanted limit n bytes stopped stopped' weaker captures
    unfold Captures at captures ⊢
    split at captures <;> rename_i piped
    · rw [if_pos piped]
      obtain ⟨k, refers, part, whole⟩ := captures
      refine ⟨k, refers, ?_, fun going => ?_⟩
      · rw [(moved k).1]
        exact part
      · rw [(moved k).1]
        exact whole fun stop => going (weaker stop)
    · rw [if_neg piped]
      exact captures
  refine ⟨outputs (fun asked => ?_) conveyed.stdout, outputs id conveyed.stderr, fun data given => ?_⟩
  · rw [exchanges_append]
    exact asked.mono (List.subset_append_right ..)
  · obtain ⟨k, refers, part, whole⟩ := conveyed.stdin data given
    refine ⟨k, refers, ?_, fun count wanted member => ?_⟩
    · rw [(moved k).2]
      exact part
    · rw [(moved k).2]
      refine whole count wanted ?_
      rcases List.mem_append.mp member with first | second
      · obtain ⟨X, e, X', impossible⟩ := alone _ first
        cases impossible
      · exact second

theorem Serving.conveyed (serving : Serving c T₀ V V' T hs [] W) : Conveyed opts T hs out := by
  have launching := serving.launching
  have served := launching.served
  obtain ⟨B, made⟩ := launching.made
  obtain ⟨stdin, stdout, stderr⟩ := exec_drainPipes_ok c.drained
  obtain ⟨-, buffer, writer⟩ := drainPipes_drain c.drained
  have later : c.settles ⊆ exchanges hs := by
    rw [← List.append_nil (exchanges hs), ← serving.split]
    exact List.subset_append_right ..
  have limit : c.drain.buffer.limit = opts.maxOutput := by
    rw [buffer]
    rfl
  have kept := served.stdout
  have kept' := served.stderr
  rw [limit, WaitLoop.outFds, DrainState.outSlot, if_pos rfl, stdout] at kept
  rw [limit, WaitLoop.outFds, DrainState.outSlot, if_neg Bool.false_ne_true, stderr] at kept'
  refine ⟨?_, ?_, fun data given => ?_⟩
  · unfold Captures
    rcases Pipes.paired made.stdout with ⟨unwanted, none, -⟩ | ⟨r, w, wanted, reading, writing⟩
    · rw [none] at kept
      simpa [unwanted, DrainState.deliveredOn] using kept
    · rw [if_pos wanted]
      obtain ⟨k, incoming, refers⟩ := launching.stdout reading writing
      have ended := served.ended .stdout ⟨none, r⟩ (by rw [DrainState.slotOf, stdout, reading]; rfl)
      rw [reading] at kept
      exact ⟨k, refers, serving.captures incoming kept (ended.imp_right fun asked => asked.mono later)⟩
  · unfold Captures
    rcases Pipes.paired made.stderr with ⟨unwanted, none, -⟩ | ⟨r, w, wanted, reading, writing⟩
    · rw [none] at kept'
      simpa [unwanted, DrainState.deliveredOn] using kept'
    · rw [if_pos wanted]
      obtain ⟨k, incoming, refers⟩ := launching.stderr reading writing
      have ended := served.ended .stderr ⟨none, r⟩ (by rw [DrainState.slotOf, stderr, reading]; rfl)
      rw [reading] at kept'
      exact ⟨k, refers, serving.captures incoming kept' (.inl ended)⟩
  · rcases Pipes.paired made.stdin with ⟨unwanted, -, -⟩ | ⟨r, w, wanted, reading, writing⟩
    · rw [given] at unwanted
      cases unwanted
    · obtain ⟨k, outgoing, refers⟩ := launching.stdin reading writing
      have slot : c.drain.stdinSlot = some ⟨none, w⟩ := by
        rw [stdin, if_pos wanted, writing]
        rfl
      have whole : c.drain.writer.rest = data := by
        rw [writer, given]
        rfl
      obtain ⟨e, member, touches⟩ := settle_registers c.settled slot
      have supplied := served.supplied _ slot
      have guarded := served.guarded .stdin _ slot
      rw [whole] at supplied guarded
      exact ⟨k, refers, serving.supplies outgoing supplied (serving.unclosed member touches) guarded⟩

end

/-- In every order of what the parent, the child and its descendants do, `spawn` returns for each output that is
    captured the first bytes that were written to it, and descendants read the input as it was given. -/
theorem output_conveyed {platform : Platform} {opts : SpawnOptions} {T₀ : Table Nat} {hs : List Happening} {W : World}
    {out : Output} (standard : ∀ n ≤ 2, T₀ n ≠ none) (run : Run platform opts (World.start T₀) hs W)
    (returned : Exec (spawn platform opts) (exchanges hs) (.done (.ok out))) :
    ∃ V e V' T, .parent V e V' ∈ hs ∧ V.child = none ∧ V'.child = some T ∧ Conveyed opts T hs out := by
  obtain ⟨c, same⟩ := exec_spawn_course returned
  obtain ⟨hs₁, V, V', hs₂, T, rfl, alone, later, after, launching⟩ := run.launching c standard same
  have serving : Serving c T₀ V V' T hs₂ [] W := ⟨launching, after, by rw [later, List.append_nil]⟩
  have parents : ∀ h ∈ hs₁ ++ [.parent V c.launch V'], ∃ X e X', h = .parent X e X' := by
    intro h member
    rcases List.mem_append.mp member with first | last
    · exact alone h first
    · exact ⟨V, _, V', List.mem_singleton.mp last⟩
  refine ⟨V, c.launch, V', T, by simp, launching.plumbed.childless, launching.child, ?_⟩
  rw [show hs₁ ++ .parent V c.launch V' :: hs₂ = (hs₁ ++ [.parent V c.launch V']) ++ hs₂ by simp]
  exact serving.conveyed.before parents

def Comes (opts : SpawnOptions) (W : World) (t : Trace) (W' : World) : Prop :=
  ∃ hs, exchanges hs = t ∧ Run .linux opts W hs W'

section
variable {opts : SpawnOptions} {W W' W'' : World} {t t' : Trace}

theorem Comes.append (first : Comes opts W t W') (rest : Comes opts W' t' W'') : Comes opts W (t ++ t') W'' := by
  obtain ⟨hs, rfl, before⟩ := first
  obtain ⟨hs', rfl, after⟩ := rest
  exact ⟨hs ++ hs', exchanges_append hs hs', run_append.mpr ⟨W', before, after⟩⟩

theorem Comes.next {e : Event os} {T : Table File} {child : Option (Table File)} {pipes : Channels}
    (before : Comes opts W t W') (effect : Effect W'.table e T) (begins : World.Begins .linux opts W' e child)
    (flow : W'.Flow T e pipes) (ordinary : Ordinary e T) (honest : Honest W' e) :
    Comes opts W (t ++ [e]) ⟨W'.past ++ [e], T, child, pipes⟩ :=
  before.append ⟨_, rfl, .cons (.parent (.parent effect begins flow) ordinary honest) (.nil _)⟩

theorem Comes.beside {h : Happening} (before : Comes opts W t W') (step : Step .linux opts W' h W'')
    (none : exchange h = none) : Comes opts W t W'' := by
  have last : Comes opts W' [] W'' := ⟨[h], List.filterMap_cons_none none, .cons step (.nil W'')⟩
  have whole := before.append last
  rwa [List.append_nil] at whole

theorem Comes.aside (before : Comes opts W t W') (t' : Trace) (quiet : ∀ e ∈ t', leavesTable e = true ∧
    World.leavesPipes W'.table e = true ∧ createdBy e = none ∧ Ordinary e W'.table ∧ ∀ V, Honest V e) :
    Comes opts W (t ++ t') { W' with past := W'.past ++ t' } := by
  induction t' generalizing W' t with
  | nil =>
    rw [List.append_nil, List.append_nil]
    exact before
  | cons e t' ih =>
    obtain ⟨table, pipes, creates, ordinary, honest⟩ := quiet e (List.mem_cons_self ..)
    have first := before.next (.leaves table) (.stays creates) (.leaves pipes) ordinary (honest W')
    have rest := ih first fun e' member => quiet e' (List.mem_cons_of_mem _ member)
    rw [List.append_assoc, List.append_assoc] at rest
    exact rest

end

def greeted : Trace :=
  [⟨.close 5, .ok ()⟩, ⟨.fcntlGetFl 4, .ok 0⟩, ⟨.fcntlSetFl 4 0o4000, .ok ()⟩,
    ⟨.epollCtlAdd 3 4 0x80000001 1, .ok ()⟩, ⟨.waitpidNoHang 42, .ok none⟩, ⟨.instantNow, (0 : Nat)⟩,
    ⟨.waitpidNoHang 42, .ok (some 0)⟩, ⟨.reserve 0 0 64, ⟨64, WaitLoop.room_for_events⟩⟩,
    ⟨.epollWait 3 64 1, .ok ⟨[⟨0x011, 1⟩], by decide⟩⟩, ⟨.read 4 16, .ok ⟨[104], by decide⟩⟩,
    ⟨.read 4 15, .ok ⟨[], by decide⟩⟩, ⟨.epollCtlDel 3 4, .ok ()⟩, ⟨.close 4, .ok ()⟩, ⟨.close 3, .ok ()⟩]

theorem captured_comes : Comes capturing (World.start standardOnly) (captureStart 3 4 5 ++ [capturingChild])
    (World.captured 1) := by
  have polls : (World.start standardOnly).table.Least 3 := by decide
  have reads : ((World.start standardOnly).table.install 3 ⟨.other 100, true⟩).Least 4 := by decide
  have writes :
      (((World.start standardOnly).table.install 3 ⟨.other 100, true⟩).install 4 ⟨.readEnd 0, true⟩).Least 5 := by
    decide
  have start : Comes capturing (World.start standardOnly) [] (World.start standardOnly) := ⟨[], rfl, .nil _⟩
  have polling := start.next (.epollCreate1 (f := .other 100) polls) (.stays rfl) (.leaves rfl) ⟨100, rfl⟩ trivial
  have room := polling.aside [⟨.reserve 0 0 64, ⟨64, WaitLoop.room_for_events⟩⟩] (by
    simp [leavesTable, World.leavesPipes, createdBy, Ordinary, Honest])
  have piped := room.next (e := ⟨.pipe2 0o2004000, .ok (4, 5)⟩) (.pipe2 (g := .writeEnd 0) rfl reads writes)
    (.stays rfl) (.pipe2 (k := 0) 1 rfl rfl rfl) trivial trivial
  have prepared := piped.aside ((captureStart 3 4 5).drop 3) (by
    simp [captureStart, leavesTable, World.leavesPipes, createdBy, Ordinary, Honest])
  exact prepared.next (e := capturingChild) (.leaves rfl) (.posixSpawn rfl) (.leaves rfl) trivial trivial

theorem not_opened_of_close (W : World) (table : W.table = (World.captured 1).table.close 5)
    (child : W.child = some fun _ => none) : ¬W.Opened (.writeEnd 0) := by
  intro isOpen
  obtain ⟨fd, here | ⟨T, running, refers⟩⟩ := isOpen
  · rw [table] at here
    by_cases own : fd = 5
    · rw [own, Table.file, Table.close_self] at here
      cases here
    · rw [file_of_entry (Table.close_of_ne _ own)] at here
      have before : (((World.start standardOnly).table.install 3 ⟨.other 100, true⟩).install 4 ⟨.readEnd 0, true⟩).file
          fd = some (.writeEnd 0) := by
        rwa [World.captured, file_of_entry (Table.install_of_ne _ _ own)] at here
      by_cases reading : fd = 4
      · rw [reading] at before
        cases before
      · rw [file_of_entry (Table.install_of_ne _ _ reading)] at before
        by_cases polling : fd = 3
        · rw [polling] at before
          cases before
        · rw [file_of_entry (Table.install_of_ne _ _ polling)] at before
          obtain ⟨id, other⟩ := file_start before
          cases other
  · have none := child.symm.trans running
    rw [← Option.some.inj none] at refers
    cases refers

theorem greeted_comes : ∃ W, Comes capturing (World.start standardOnly)
    (captureStart 3 4 5 ++ [capturingChild] ++ greeted) W := by
  have given : ([104] : Bytes) ≠ [] := by decide
  have wrote := captured_comes.beside (@Step.call .linux capturing _ _ 1 0 _ _ _ _ rfl rfl rfl
    (.write given ⟨4, .inl rfl⟩ (by decide))) rfl
  have ended := wrote.beside (@Step.inherit .linux capturing _ _ (fun _ => none) rfl nofun) rfl
  have shut := ended.next (e := ⟨.close 5, .ok ()⟩) .close (.stays rfl) (.leaves rfl) trivial trivial
  have flags := shut.aside [⟨.fcntlGetFl 4, .ok 0⟩] (by
    simp [leavesTable, World.leavesPipes, createdBy, Ordinary, Honest])
  have reads := flags.next (e := ⟨.fcntlSetFl 4 0o4000, .ok ()⟩) (.leaves rfl) (.stays rfl)
    (.setReadFlags (k := 0) rfl rfl) trivial trivial
  have polled := reads.aside ((greeted.drop 3).take 6) (by
    simp [greeted, leavesTable, World.leavesPipes, createdBy, Ordinary, Honest])
  have first := polled.next (e := ⟨.read 4 16, .ok ⟨[104], by decide⟩⟩) (.leaves rfl) (.stays rfl)
    (.read (k := 0) rfl rfl (.read (by decide) (by decide))) trivial trivial
  have last := first.next (e := ⟨.read 4 15, .ok ⟨[], by decide⟩⟩) (.leaves rfl) (.stays rfl)
    (.read (k := 0) rfl rfl (.eof rfl (not_opened_of_close _ rfl rfl))) trivial trivial
  have released := last.aside [⟨.epollCtlDel 3 4, .ok ()⟩] (by
    simp [leavesTable, World.leavesPipes, createdBy, Ordinary, Honest])
  have closed := released.next (e := ⟨.close 4, .ok ()⟩) .close (.stays rfl) (.leaves rfl) trivial trivial
  have done := closed.next (e := ⟨.close 3, .ok ()⟩) .close (.stays rfl) (.leaves rfl) trivial trivial
  exact ⟨_, done⟩

theorem greeted_exec : Exec (spawn .linux capturing) (captureStart 3 4 5 ++ [capturingChild] ++ greeted)
    (.done (.ok ⟨42, some (.exited 0), [104], [], false⟩)) := .of_replay 5 rfl

theorem greeting_conveyed : ∃ hs k, exchanges hs = captureStart 3 4 5 ++ [capturingChild] ++ greeted ∧
    [104] = (written k hs).take 16 := by
  have opened : ∀ n ≤ 2, standardOnly n ≠ none := by decide
  obtain ⟨W, hs, same, run⟩ := greeted_comes
  have returned := greeted_exec
  rw [← same] at returned
  obtain ⟨V, e, V', T, -, -, -, conveyed⟩ := output_conveyed opened run returned
  obtain ⟨k, -, -, whole⟩ := conveyed.stdout
  refine ⟨hs, k, same, whole ?_⟩
  rw [same]
  simp [StopAsked, captureStart, capturingChild, greeted]

end Family

end CoreShift
