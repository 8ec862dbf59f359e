import CoreShift.Spawn.Family
import CoreShift.Spawn.Upkeep

namespace CoreShift

open Interaction Descriptors

theorem file_of_entry {T T' : Table File} {n : Nat} (same : T' n = T n) : T'.file n = T.file n := by
  rw [Table.file, same, Table.file]

theorem file_close {T : Table File} {fd n : Nat} {f : File} (refers : (T.close fd).file n = some f) :
    T.file n = some f := by
  by_cases here : n = fd
  · rw [here, Table.file, Table.close_self] at refers
    cases refers
  · rwa [file_of_entry (Table.close_of_ne _ here)] at refers

theorem file_open {T : Table File} {n : Nat} {f : File} (refers : T.file n = some f) : T n ≠ none := by
  intro closed
  rw [Table.file, closed] at refers
  cases refers

namespace Family

def makesPipe : Event os → Bool
  | ⟨.pipe2 _, .ok _⟩ => true
  | _ => false

theorem pipe_of_makes {e : Event os} (makes : makesPipe e = true) : ∃ flags r w, e = ⟨.pipe2 flags, .ok (r, w)⟩ := by
  obtain ⟨call, answer⟩ := e
  cases call
  case pipe2 flags =>
    rcases answer with e | ⟨r, w⟩
    · cases makes
    · exact ⟨flags, r, w, rfl⟩
  all_goals cases makes

theorem ends_of_effect {T T' : Table File} {e : Event os} {n : Nat} {f : File} (effect : Effect T e T')
    (ordinary : Ordinary e T') (known : ¬overwrites e.call = true) (plain : makesPipe e = false) (isEnd : f.pipe ≠ none)
    (refers : T'.file n = some f) : T.file n = some f := by
  have new : ∀ {T : Table File} {fd : Nat} {e : Entry File}, (∃ id, (T.install fd e).file fd = some (.other id)) →
      (T.install fd e).file n = some f → T.file n = some f := by
    intro T fd e other refers
    by_cases here : n = fd
    · obtain ⟨id, same⟩ := other
      rw [here, same] at refers
      cases refers
      exact absurd rfl isEnd
    · rwa [file_of_entry (Table.install_of_ne _ _ here)] at refers
  cases effect with
  | epollCreate1 | openProcSelfFd | inotifyInit1 | signalfd => exact new ordinary refers
  | pipe2 => cases plain
  | close | closedir => exact file_close refers
  | dup2 | badFd | closeRange => exact absurd rfl known
  | leaves => exact refers

def Quiet (e : Event os) : Prop := createdBy e = none ∧ ¬overwrites e.call = true ∧ touched e.call = 0

section
variable {platform : Platform} {opts : SpawnOptions} {W W' : World} {T : Table File} {e : Event os} {pipes : Channels}

theorem flow_quiet (flow : W.Flow T e pipes) (quiet : touched e.call = 0) (plain : makesPipe e = false) (k : Nat) :
    (pipes k).map Channel.content = (W.pipes k).map Channel.content := by
  cases flow with
  | pipe2 => cases plain
  | @setReadFlags fd flags k' c refers here | @setWriteFlags fd flags k' c refers here =>
    by_cases same : k = k'
    · rw [same, Function.update_self, here]
      rfl
    · rw [Function.update_of_ne same]
  | read | write => exact absurd quiet (Multiset.singleton_ne_zero _)
  | leaves => rfl

/-- Before a program begins, one descriptor refers to each end of a pipe, and nothing is in the pipe. -/
structure Plumbed (W : World) : Prop where
  childless : W.child = none
  used : ∀ fd f k, W.table.file fd = some f → f.pipe = some k → W.pipes k ≠ none
  alone : ∀ fd fd' f, f.pipe ≠ none → W.table.file fd = some f → W.table.file fd' = some f → fd = fd'
  empty : ∀ k c, W.pipes k = some c → c.content = []

theorem Plumbed.refers_iff {W : World} {T : Table File} {fd own : Nat} {f : File} (plumbed : Plumbed W)
    (same : T fd = W.table fd) (isEnd : f.pipe ≠ none) (mine : W.table.file own = some f) :
    T.file fd = some f ↔ fd = own := by
  rw [file_of_entry same]
  refine ⟨fun refers => plumbed.alone fd own f isEnd refers mine, fun here => ?_⟩
  rw [here]
  exact mine

theorem file_start {T : Table Nat} {fd : Nat} {f : File} (refers : (World.start T).table.file fd = some f) :
    ∃ id, f = .other id := by
  obtain ⟨e, here, rfl⟩ := Option.map_eq_some_iff.mp refers
  obtain ⟨e', -, rfl⟩ := Option.map_eq_some_iff.mp here
  exact ⟨_, rfl⟩

theorem plumbed_start (T : Table Nat) : Plumbed (World.start T) where
  childless := rfl
  used fd f k refers isEnd := by
    obtain ⟨id, rfl⟩ := file_start refers
    cases isEnd
  alone fd fd' f isEnd refers _ := by
    obtain ⟨id, rfl⟩ := file_start refers
    exact absurd rfl isEnd
  empty _ _ here := by cases here

theorem Plumbed.quiet (plumbed : Plumbed W) (effect : Effect W.table e T) (flow : W.Flow T e pipes)
    (ordinary : Ordinary e T) (quiet : Quiet e) (plain : makesPipe e = false) :
    Plumbed ⟨W.past ++ [e], T, W.child, pipes⟩ := by
  have before := fun fd f => @ends_of_effect _ _ _ fd f effect ordinary quiet.2.1 plain
  have still := flow_quiet flow quiet.2.2 plain
  refine ⟨plumbed.childless, fun fd f k refers isEnd unused => ?_, fun fd fd' f isEnd refers refers' => ?_,
    fun k c here => ?_⟩
  · have earlier := before fd f (by simp [isEnd]) refers
    have same := still k
    rw [show pipes k = none from unused, Option.map_none, eq_comm, Option.map_eq_none_iff] at same
    exact plumbed.used fd f k earlier isEnd same
  · exact plumbed.alone fd fd' f isEnd (before fd f isEnd refers) (before fd' f isEnd refers')
  · have same := still k
    rw [show pipes k = some c from here, Option.map_some, eq_comm, Option.map_eq_some_iff] at same
    obtain ⟨c', used, content⟩ := same
    rw [← content]
    exact plumbed.empty k c' used

structure Piped (W : World) (r w : Nat) (W' : World) : Prop where
  free : W.table r = none ∧ W.table w = none
  others : ∀ n, n ≠ r → n ≠ w → W'.table n = W.table n
  joined : ∃ k c, W.pipes k = none ∧ W'.table.file r = some (.readEnd k) ∧ W'.table.file w = some (.writeEnd k) ∧
    c.content = [] ∧ W'.pipes = Function.update W.pipes k (some c)

theorem piped_of_step {flags r w : Nat} (step : W.Step platform opts (.parent ⟨.pipe2 flags, .ok (r, w)⟩) W') :
    Piped W r w W' ∧ W'.child = W.child := by
  cases step with
  | parent effect begins flow =>
    cases begins with
    | stays creates =>
      cases flow with
      | pipe2 capacity unused reading writing =>
        cases effect with
        | pipe2 opened least least' =>
          have apart : w ≠ r := by
            intro same
            have taken := least'.1
            rw [same, Table.install_self] at taken
            cases taken
          have free := least'.1
          rw [Table.install_of_ne _ _ apart] at free
          refine ⟨⟨⟨least.1, free⟩, fun n notR notW => ?_, _, _, unused, reading, writing, rfl, rfl⟩, rfl⟩
          exact (Table.install_of_ne _ _ notW).trans (Table.install_of_ne _ _ notR)
        | leaves leaves => cases leaves
      | leaves leaves => cases leaves

theorem Piped.mem_ends {r w fd k : Nat} {f : File} (piped : Piped W r w W') (used : ∀ fd f k, W.table.file fd = some f →
    f.pipe = some k → W.pipes k ≠ none) (new : W.pipes k = none) (refers : W'.table.file fd = some f)
    (isEnd : f.pipe = some k) : fd = r ∨ fd = w := by
  by_contra outside
  rw [not_or] at outside
  rw [file_of_entry (piped.others fd outside.1 outside.2)] at refers
  exact used fd f k refers isEnd new

theorem Plumbed.piped {r w : Nat} (plumbed : Plumbed W) (piped : Piped W r w W') (childless : W'.child = none) :
    Plumbed W' := by
  obtain ⟨k, c, unused, reading, writing, empty, pipes⟩ := piped.joined
  have old : ∀ fd f k', W'.table.file fd = some f → f.pipe = some k' → k' ≠ k → W.table.file fd = some f := by
    intro fd f k' refers isEnd other
    have apart : fd ≠ r ∧ fd ≠ w := by
      refine ⟨fun same => ?_, fun same => ?_⟩
      · rw [same, reading] at refers
        cases refers
        exact other (Option.some.inj isEnd).symm
      · rw [same, writing] at refers
        cases refers
        exact other (Option.some.inj isEnd).symm
    rwa [file_of_entry (piped.others fd apart.1 apart.2)] at refers
  refine ⟨childless, fun fd f k' refers isEnd => ?_, fun fd fd' f isEnd refers refers' => ?_, fun k' c' here => ?_⟩
  · rw [pipes]
    by_cases same : k' = k
    · rw [same, Function.update_self]
      exact Option.some_ne_none c
    · rw [Function.update_of_ne same]
      exact plumbed.used fd f k' (old fd f k' refers isEnd same) isEnd
  · obtain ⟨k', which⟩ := Option.ne_none_iff_exists'.mp isEnd
    by_cases same : k' = k
    · subst same
      have among := piped.mem_ends plumbed.used unused refers which
      have among' := piped.mem_ends plumbed.used unused refers' which
      have differ : (File.readEnd k' : File) ≠ .writeEnd k' := nofun
      rcases among with rfl | rfl <;> rcases among' with rfl | rfl
      · rfl
      · exact absurd (Option.some.inj ((reading.symm.trans refers).trans (refers'.symm.trans writing))) differ
      · exact absurd (Option.some.inj ((reading.symm.trans refers').trans (refers.symm.trans writing))) differ
      · rfl
    · exact plumbed.alone fd fd' f isEnd (old fd f k' refers which same) (old fd' f k' refers' which same)
  · rw [pipes] at here
    by_cases same : k' = k
    · rw [same, Function.update_self] at here
      cases here
      exact empty
    · rw [Function.update_of_ne same] at here
      exact plumbed.empty k' c' here

theorem Step.plumbed {h : Happening} (plumbed : Plumbed W) (step : Step platform opts W h W')
    (quiet : ∀ e, exchange h = some e → Quiet e) : Plumbed W' := by
  cases step with
  | @parent _ e step ordinary =>
    have calm := quiet e rfl
    by_cases makes : makesPipe e = true
    · obtain ⟨flags, r, w, rfl⟩ := pipe_of_makes makes
      obtain ⟨piped, childless⟩ := piped_of_step step
      exact plumbed.piped piped (childless.trans plumbed.childless)
    · cases step with
      | parent effect begins flow =>
        cases begins with
        | posixSpawn => cases calm.1
        | fork parent =>
          have created := calm.1
          simp only [createdBy, parent, ↓reduceIte, reduceCtorEq] at created
        | stays => exact plumbed.quiet effect flow ordinary calm (Bool.not_eq_true _ ▸ makes)
  | call running | inherit running => cases plumbed.childless.symm.trans running

theorem Run.plumbed {hs : List Happening} (run : Run platform opts W hs W') (plumbed : Plumbed W)
    (quiet : ∀ e ∈ exchanges hs, Quiet e) : Plumbed W' := by
  induction run with
  | nil W => exact plumbed
  | @cons W W₁ W₂ h hs first _ ih =>
    have here : ∀ e, exchange h = some e → Quiet e := by
      intro e same
      exact quiet e (List.mem_filterMap.mpr ⟨h, List.mem_cons_self .., same⟩)
    refine ih (first.plumbed plumbed here) fun e member => quiet e ?_
    obtain ⟨h', inside, same⟩ := List.mem_filterMap.mp member
    exact List.mem_filterMap.mpr ⟨h', List.mem_cons_of_mem _ inside, same⟩

theorem Run.parents {hs : List Happening} (run : Run platform opts W hs W') (plumbed : Plumbed W)
    (quiet : ∀ e ∈ exchanges hs, Quiet e) : ∀ h ∈ hs, ∃ V e V', h = .parent V e V' := by
  induction run with
  | nil W => simp
  | @cons W W₁ W₂ h hs first rest ih =>
    have alone : Run platform opts W [h] W₁ := .cons first (.nil W₁)
    have here : ∀ e ∈ exchanges [h], Quiet e := by
      intro e member
      refine quiet e ?_
      rw [show h :: hs = [h] ++ hs from rfl, exchanges_append]
      exact List.mem_append_left _ member
    have later : ∀ e ∈ exchanges hs, Quiet e := by
      intro e member
      refine quiet e ?_
      rw [show h :: hs = [h] ++ hs from rfl, exchanges_append]
      exact List.mem_append_right _ member
    refine List.forall_mem_cons.mpr ⟨?_, ih (alone.plumbed plumbed here) later⟩
    cases first with
    | parent => exact ⟨_, _, _, rfl⟩
    | call running | inherit running => cases plumbed.childless.symm.trans running

def Joined (T : Table File) (r w : Option Fd) : Prop :=
  ∀ r' w', r = some r' → w = some w' →
    ∃ k, T.file r'.raw = some (.readEnd k) ∧ T.file w'.raw = some (.writeEnd k)

structure Laid (p : Pipes) (T : Table File) : Prop where
  stdin : Joined T p.stdinR p.stdinW
  stdout : Joined T p.stdoutR p.stdoutW
  stderr : Joined T p.stderrR p.stderrW

theorem Joined.kept {T T' : Table File} {r w : Option Fd} {fds : List Nat} (joined : Joined T r w)
    (grown : Grown T fds T') : Joined T' r w := by
  have still : ∀ {n f}, T.file n = some f → T'.file n = some f := by
    intro n f refers
    have outside : n ∉ fds := fun member => file_open refers (grown.free n member)
    rwa [file_of_entry (grown.others n outside)]
  intro r' w' first second
  obtain ⟨k, reading, writing⟩ := joined r' w' first second
  exact ⟨k, still reading, still writing⟩

theorem Run.table_of_nothing {hs : List Happening} (run : Run platform opts W hs W') (nothing : exchanges hs = []) :
    W'.table = W.table := by
  have effects := run.effects
  rw [nothing] at effects
  exact effects_nil effects

theorem Run.single {hs : List Happening} (run : Run platform opts W hs W') (same : exchanges hs = [e]) :
    ∃ V V' : World, V.Step platform opts (.parent e) V' ∧ V.table = W.table ∧ W'.table = V'.table := by
  obtain ⟨hs₁, h, hs₂, rfl, before, here, after⟩ := List.filterMap_eq_cons_iff.mp same
  obtain ⟨V, first, rest⟩ := run_append.mp run
  obtain ⟨V', step, last⟩ := run_cons.mp rest
  have none : exchanges hs₁ = [] := List.filterMap_eq_nil_iff.mpr before
  cases step with
  | parent step =>
    cases here
    exact ⟨V, V', step, first.table_of_nothing none, last.table_of_nothing after⟩
  | call | inherit => cases here

theorem exec_pipeIf_ok {wanted : Bool} {r w : Option Fd} {t : Trace}
    (making : Exec (Pipes.pipeIf wanted) t (.done (.ok (r, w)))) :
    r = none ∨ ∃ flags a b, t = [⟨.pipe2 flags, .ok (a, b)⟩] ∧ r = some ⟨a⟩ ∧ w = some ⟨b⟩ := by
  cases wanted with
  | false =>
    simp only [Pipes.pipeIf, Bool.false_eq_true, ↓reduceIte, exec_pure_iff, Outcome.done.injEq, Except.ok.injEq,
      Prod.mk.injEq] at making
    exact .inl making.2.1
  | true =>
    obtain ⟨t₁, made, t₂, rfl, making, rest⟩ := exec_bind_done.mp making
    obtain ⟨answer, t₃, rfl, returned⟩ := Exec.ask_done making
    rcases answer with e | ⟨a, b⟩
    · cases ((exec_pure_iff _ _ _).mp returned).2
      cases ((exec_pure_iff _ _ _).mp rest).2
    · obtain ⟨rfl, same⟩ := (exec_pure_iff _ _ _).mp returned
      cases same
      obtain ⟨rfl, same⟩ := (exec_pure_iff _ _ _).mp rest
      cases same
      exact .inr ⟨_, a, b, rfl, rfl, rfl⟩

theorem pipeIf_joined {wanted : Bool} {r w : Option Fd} {t : Trace} {hs : List Happening}
    (making : Exec (Pipes.pipeIf wanted) t (.done (.ok (r, w)))) (run : Run platform opts W hs W')
    (same : exchanges hs = t) : Joined W'.table r w := by
  rcases exec_pipeIf_ok making with none | ⟨flags, a, b, rfl, rfl, rfl⟩
  · intro r' w' first
    rw [none] at first
    cases first
  · obtain ⟨V, V', step, _, table⟩ := run.single same
    obtain ⟨k, c, _, reading, writing, _⟩ := (piped_of_step step).1.joined
    intro r' w' first second
    cases first
    cases second
    rw [table]
    exact ⟨k, reading, writing⟩

theorem new_laid {p : Pipes} {t : Trace} {hs : List Happening}
    (making : Exec (Pipes.new opts.stdin opts.captureStdout opts.captureStderr) t (.done (.ok p)))
    (run : Run platform opts W hs W') (same : exchanges hs = t) : Laid p W'.table := by
  have failed : ∀ {q : Prog Unit} {e : SysError} {t : Trace},
      ¬Exec (q >>= fun _ => pure (.error e)) t (.done (Except.ok p)) := by
    intro q e t run
    obtain ⟨_, _, _, _, _, rest⟩ := exec_bind_done.mp run
    cases ((exec_pure_iff _ _ _).mp rest).2
  obtain ⟨t₁, first, u, rfl, making₁, making⟩ := exec_bind_done.mp making
  obtain ⟨hs₁, hs', W₁, rfl, same₁, same, run₁, run⟩ := run.split same
  rcases first with e | ⟨stdinR, stdinW⟩
  · cases ((exec_pure_iff _ _ _).mp making).2
  obtain ⟨t₂, second, u, rfl, making₂, making⟩ := exec_bind_done.mp making
  obtain ⟨hs₂, hs', W₂, rfl, same₂, same, run₂, run⟩ := run.split same
  rcases second with e | ⟨stdoutR, stdoutW⟩
  · simp only [← bind_assoc] at making
    exact absurd making failed
  obtain ⟨t₃, third, u, rfl, making₃, making⟩ := exec_bind_done.mp making
  obtain ⟨hs₃, hs', W₃, rfl, same₃, same, run₃, run⟩ := run.split same
  rcases third with e | ⟨stderrR, stderrW⟩
  · simp only [← bind_assoc] at making
    exact absurd making failed
  obtain ⟨rfl, made⟩ := (exec_pure_iff _ _ _).mp making
  cases made
  rw [run.table_of_nothing same]
  have grown₂ := (Pipes.pipeIf_grown making₂ (same₂ ▸ run₂.effects)).1
  have grown₃ := (Pipes.pipeIf_grown making₃ (same₃ ▸ run₃.effects)).1
  exact ⟨((pipeIf_joined making₁ run₁ same₁).kept grown₂).kept grown₃,
    (pipeIf_joined making₂ run₂ same₂).kept grown₃, pipeIf_joined making₃ run₃ same₃⟩

end

end Family

end CoreShift
