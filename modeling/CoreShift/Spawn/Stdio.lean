import CoreShift.Spawn.Orphan
import CoreShift.Spawn.Wiring

namespace CoreShift

open Interaction Descriptors

namespace Pipes

theorem paired {a b : Option Fd} {wanted : Bool} (both : a.isSome = wanted ∧ b.isSome = wanted) :
    (wanted = false ∧ a = none ∧ b = none) ∨ ∃ x y, wanted = true ∧ a = some x ∧ b = some y := by
  obtain ⟨rfl, same⟩ := both
  cases a <;> cases b <;> simp_all

def ends (p : Pipes) : List Nat := raws [p.stdinR, p.stdinW, p.stdoutR, p.stdoutW, p.stderrR, p.stderrW]

section
variable {F : Type} {opts : SpawnOptions} {T T' : Table F} {p : Pipes}

theorem wire_ends {source other : Option Fd} {wanted : Bool}
    (both : source.isSome = wanted ∧ other.isSome = wanted) (target : Nat) :
    (wire source other target).flatMap Wire.ends = raws [source, other] := by
  have same := both.1.trans both.2.symm
  cases source <;> cases other <;> first | rfl | cases same

theorem raws_swap (a b : Option Fd) : (raws [a, b]).Perm (raws [b, a]) :=
  ((List.Perm.swap b a []).filterMap id).map Fd.raw

-- the wires of the two outputs have the writing end first, the pipes are made with the reading end first
theorem Made.wire_ends_perm (made : Made opts T p T') : (p.wires.flatMap Wire.ends).Perm p.ends := by
  have apart : p.ends =
      raws [p.stdinR, p.stdinW] ++ raws [p.stdoutR, p.stdoutW] ++ raws [p.stderrR, p.stderrW] := by
    simp only [ends, raws, ← List.map_append, ← List.filterMap_append, List.cons_append, List.nil_append]
  rw [apart, wires, List.flatMap_append, List.flatMap_append, wire_ends made.stdin,
    wire_ends made.stdout.symm, wire_ends made.stderr.symm]
  exact ((List.Perm.refl _).append (raws_swap _ _)).append (raws_swap _ _)

theorem Made.mem_ends (made : Made opts T p T') (n : Nat) : n ∈ p.ends ↔ ∃ w ∈ p.wires, n ∈ w.ends := by
  rw [← made.wire_ends_perm.mem_iff, List.mem_flatMap]

theorem Made.wire_ends_nodup (made : Made opts T p T') : (p.wires.flatMap Wire.ends).Nodup :=
  made.wire_ends_perm.nodup_iff.mpr made.grown.nodup

theorem targets_nodup (p : Pipes) : (p.wires.map Wire.target).Nodup := by
  obtain ⟨stdinR, stdinW, stdoutR, stdoutW, stderrR, stderrW⟩ := p
  have one : ∀ source other target, (wire source other target).map Wire.target = [] ∨
      (wire source other target).map Wire.target = [target] := by
    intro source other target
    cases source <;> cases other <;> simp [wire]
  simp only [wires, List.map_append]
  rcases one stdinR stdinW 0 with first | first <;> rcases one stdoutW stdoutR 1 with second | second <;>
    rcases one stderrW stderrR 2 with third | third <;> simp [first, second, third]

theorem target_le (p : Pipes) : ∀ w ∈ p.wires, w.target ≤ 2 := by
  obtain ⟨stdinR, stdinW, stdoutR, stdoutW, stderrR, stderrW⟩ := p
  have one : ∀ source other target, ∀ w ∈ wire source other target, w.target = target := by
    intro source other target w member
    cases source <;> cases other <;> simp [wire] at member
    rw [member]
  intro w member
  simp only [wires, List.mem_append] at member
  rcases member with (member | member) | member
  · rw [one _ _ _ w member]
    omega
  · rw [one _ _ _ w member]
    omega
  · exact Nat.le_of_eq (one _ _ _ w member)

theorem Made.disjoint (made : Made opts T p T') :
    p.wires.Pairwise fun w w' => ∀ n ∈ w.ends, n ∉ w'.ends :=
  (List.nodup_flatMap.mp made.wire_ends_nodup).2.imp fun apart _ first second => apart first second

theorem Made.distinct (made : Made opts T p T') : ∀ w ∈ p.wires, w.source ≠ w.other := by
  intro w member same
  have ends := (List.nodup_flatMap.mp made.wire_ends_nodup).1 w member
  rw [Wire.ends, same] at ends
  exact (List.nodup_cons.mp ends).1 (List.mem_singleton.mpr rfl)

theorem Made.opened (made : Made opts T p T') : ∀ w ∈ p.wires, (T' w.source).isSome = true := by
  intro w member
  have source : w.source ∈ p.ends := (made.mem_ends _).mpr ⟨w, member, by simp [Wire.ends]⟩
  obtain ⟨f, same⟩ := made.grown.opened _ source
  simp [same]

end

end Pipes

def piped (opts : SpawnOptions) : Nat → Bool
  | 0 => opts.stdin.isSome
  | 1 => opts.captureStdout
  | 2 => opts.captureStderr
  | _ => false

def childEnd (p : Pipes) : Nat → Option Fd
  | 0 => p.stdinR
  | 1 => p.stdoutW
  | 2 => p.stderrW
  | _ => none

/-- `Launched platform opts T₀ p T₁ T₂`: with the table `T₀` when `spawn_start` is called, and the pipes
    `p`, the parent has the table `T₁` when the child is created, and the child the table `T₂` when its
    program begins, except for what `execve` closes. -/
inductive Launched {F : Type} (platform : Platform) (opts : SpawnOptions) (T₀ : Table F) (p : Pipes) :
    Table F → Table F → Prop where
  | posixSpawn {t₁ t₂ after : Trace} {path : CString} {actions : List FileAction} {attr : SpawnAttr}
      {argv : List CStrPtr} {envp : Option (List CStrPtr)} {pid : Int} {T₁ T₂ : Table F} {o}
      (backend : resolveBackend platform opts = .posixSpawn)
      (pipes : Exec (Pipes.new opts.stdin opts.captureStdout opts.captureStderr) t₁ (.done (.ok p)))
      (run : Exec (spawnStart platform opts)
        (t₁ ++ t₂ ++ ⟨.posixSpawn path actions attr argv envp, .ok pid⟩ :: after) o)
      (parent : Effects T₀ (t₁ ++ t₂) T₁) (child : SpawnPosix.applyActions T₁ actions = some T₂) :
      Launched platform opts T₀ p T₁ T₂
  | fork {t₁ inChild : Trace} {path : CString} {argv : List CStrPtr} {envp : Option (List CStrPtr)}
      {T₁ T₂ : Table F} (backend : resolveBackend platform opts = .fork)
      (pipes : Exec (Pipes.new opts.stdin opts.captureStdout opts.captureStderr) t₁ (.done (.ok p)))
      (run : Exec (spawnStart platform opts) (t₁ ++ ⟨.fork, .ok 0⟩ :: inChild) (.waiting (.execve path argv envp)))
      (parent : Effects T₀ t₁ T₁) (child : Effects T₁ inChild T₂) : Launched platform opts T₀ p T₁ T₂

/-- The same for a call of `spawn`, which makes the descriptor of its `epoll` first. -/
inductive LaunchedBySpawn {F : Type} (platform : Platform) (opts : SpawnOptions) (T₀ : Table F) (p : Pipes) :
    Table F → Table F → Prop where
  | posixSpawn {t₀ t₁ t₂ after : Trace} {reactor : Reactor} {path : CString} {actions : List FileAction}
      {attr : SpawnAttr} {argv : List CStrPtr} {envp : Option (List CStrPtr)} {pid : Int} {T₁ T₂ : Table F} {o}
      (backend : resolveBackend platform opts = .posixSpawn)
      (polls : Exec Reactor.new t₀ (.done (.ok reactor)))
      (pipes : Exec (Pipes.new opts.stdin opts.captureStdout opts.captureStderr) t₁ (.done (.ok p)))
      (run : Exec (spawn platform opts)
        (t₀ ++ (t₁ ++ t₂ ++ ⟨.posixSpawn path actions attr argv envp, .ok pid⟩ :: after)) o)
      (parent : Effects T₀ (t₀ ++ (t₁ ++ t₂)) T₁) (child : SpawnPosix.applyActions T₁ actions = some T₂) :
      LaunchedBySpawn platform opts T₀ p T₁ T₂
  | fork {t₀ t₁ inChild : Trace} {reactor : Reactor} {path : CString} {argv : List CStrPtr}
      {envp : Option (List CStrPtr)} {T₁ T₂ : Table F} (backend : resolveBackend platform opts = .fork)
      (polls : Exec Reactor.new t₀ (.done (.ok reactor)))
      (pipes : Exec (Pipes.new opts.stdin opts.captureStdout opts.captureStderr) t₁ (.done (.ok p)))
      (run : Exec (spawn platform opts) (t₀ ++ (t₁ ++ ⟨.fork, .ok 0⟩ :: inChild)) (.waiting (.execve path argv envp)))
      (parent : Effects T₀ (t₀ ++ t₁) T₁) (child : Effects T₁ inChild T₂) : LaunchedBySpawn platform opts T₀ p T₁ T₂

/-- The new program has the ends of the pipes as its piped standard descriptors, and else the standard
    descriptors of the parent. -/
def Wired {F : Type} (opts : SpawnOptions) (p : Pipes) (T₀ T₁ T₂ : Table F) : Prop :=
  ∀ n ≤ 2, if piped opts n then ∃ fd, childEnd p n = some fd ∧ T₂.exec.file n = T₁.file fd.raw
    else T₂.exec.file n = T₀.file n

section
variable {F : Type} {opts : SpawnOptions} {T₀ T₀' T₁ T₂ : Table F} {p : Pipes}

theorem forall_standard {P : Nat → Prop} : (∀ n ≤ 2, P n) ↔ P 0 ∧ P 1 ∧ P 2 := by
  refine ⟨fun all => ⟨all 0 (by omega), all 1 (by omega), all 2 (by omega)⟩, fun three n low => ?_⟩
  obtain rfl | rfl | rfl : n = 0 ∨ n = 1 ∨ n = 2 := by omega
  · exact three.1
  · exact three.2.1
  · exact three.2.2

theorem wired_iff (made : Pipes.Made opts T₀' p T₁) :
    Wired opts p T₀ T₁ T₂ ↔ (∀ w ∈ p.wires, T₂.exec.file w.target = T₁.file w.source) ∧
      ∀ n ≤ 2, piped opts n = false → T₂.exec.file n = T₀.file n := by
  obtain ⟨stdinR, stdinW, stdoutR, stdoutW, stderrR, stderrW⟩ := p
  rw [Wired, forall_standard, forall_standard]
  rcases Pipes.paired made.stdin with ⟨stdin, rfl, rfl⟩ | ⟨r₀, w₀, stdin, rfl, rfl⟩ <;>
    rcases Pipes.paired made.stdout with ⟨stdout, rfl, rfl⟩ | ⟨r₁, w₁, stdout, rfl, rfl⟩ <;>
      rcases Pipes.paired made.stderr with ⟨stderr, rfl, rfl⟩ | ⟨r₂, w₂, stderr, rfl, rfl⟩ <;>
        simp [piped, childEnd, Pipes.wires, Pipes.wire, stdin, stdout, stderr] <;> tauto

theorem targets_eq (made : Pipes.Made opts T₀' p T₁) :
    p.wires.map Wire.target = [0, 1, 2].filter (piped opts) := by
  have one : ∀ {source other : Option Fd} {wanted : Bool} (target : Nat),
      source.isSome = wanted ∧ other.isSome = wanted →
      (Pipes.wire source other target).map Wire.target = if wanted then [target] else [] := by
    intro source other wanted target both
    obtain ⟨unwanted, rfl, rfl⟩ | ⟨x, y, wanted, rfl, rfl⟩ := Pipes.paired both
    · simp [Pipes.wire, unwanted]
    · simp [Pipes.wire, wanted]
  rw [Pipes.wires, List.map_append, List.map_append, one 0 made.stdin, one 1 made.stdout.symm,
    one 2 made.stderr.symm]
  simp only [List.filter_cons, List.filter_nil, piped]
  split <;> split <;> split <;> rfl

theorem piped_low {n : Nat} (wanted : piped opts n = true) : n = 0 ∨ n = 1 ∨ n = 2 := by
  unfold piped at wanted
  split at wanted
  · omega
  · omega
  · omega
  · cases wanted

theorem piped_iff (made : Pipes.Made opts T₀' p T₁) (n : Nat) :
    piped opts n = true ↔ ∃ w ∈ p.wires, w.target = n := by
  rw [← List.mem_map, targets_eq made, List.mem_filter]
  refine ⟨fun wanted => ⟨?_, wanted⟩, And.right⟩
  simpa using piped_low wanted

theorem target_piped (made : Pipes.Made opts T₀' p T₁) {n : Nat} (unpiped : piped opts n = false) :
    ∀ w ∈ p.wires, n ≠ w.target := by
  intro w member same
  have wanted := (piped_iff made n).mpr ⟨w, member, same.symm⟩
  rw [unpiped] at wanted
  cases wanted

theorem reactor_grown {t : Trace} {reactor : Reactor} (run : Exec Reactor.new t (.done (.ok reactor)))
    (effects : Effects T₀ t T₁) : ∃ epfd, Grown T₀ [epfd] T₁ := by
  obtain ⟨answer, u, rfl, rest⟩ := run.ask_done
  rcases answer with e | epfd
  · cases ((exec_pure_iff _ _ _).mp rest).2
  · obtain ⟨capacity, u', rfl, rest'⟩ := rest.ask_done
    obtain ⟨rfl, -⟩ := (exec_pure_iff _ _ _).mp rest'
    obtain ⟨T, first, effects'⟩ := effects_cons effects
    have same := effect_leaves (effects_single effects') rfl
    subst same
    cases first with
    | epollCreate1 least => exact ⟨epfd, grown_install _ least⟩
    | leaves leaves => cases leaves

theorem exec_spawn_started {platform : Platform} {opts : SpawnOptions} {t₀ before after : Trace} {e : Event os}
    {reactor : Reactor} {o} (creates : isSetupCall e.call = false) (polls : Exec Reactor.new t₀ (.done (.ok reactor)))
    (run : Exec (spawn platform opts) (t₀ ++ (before ++ e :: after)) o) :
    ∃ after' o', Exec (spawnStart platform opts) (before ++ e :: after') o' := by
  have rest : Exec (spawnStart platform opts >>= settle opts reactor) (before ++ e :: after) o := polls.rest run
  rcases exec_bind_cases rest with ⟨c, rfl, stopped⟩ | ⟨first, started, second, split, starting, settling⟩
  · exact ⟨after, _, stopped⟩
  · have setup := (settling.issues (settle_issues _ _ _)).1
    have absent : e ∉ second := by
      intro member
      have allowed := setup e member
      simp [allowed] at creates
    rcases List.append_eq_append_iff.mp split with ⟨u, rfl, same⟩ | ⟨u, -, rfl⟩
    · cases u with
      | nil =>
        rw [List.nil_append] at same
        exact absurd (same ▸ List.mem_cons_self ..) absent
      | cons e' after' =>
        cases (List.cons_eq_cons.mp same).1
        exact ⟨after', _, starting⟩
    · exact absurd (List.mem_append_right _ (List.mem_cons_self ..)) absent

theorem exec_spawn_execve {platform : Platform} {opts : SpawnOptions} {t₀ t : Trace} {reactor : Reactor}
    {path : CString} {argv : List CStrPtr} {envp : Option (List CStrPtr)}
    (polls : Exec Reactor.new t₀ (.done (.ok reactor)))
    (run : Exec (spawn platform opts) (t₀ ++ t) (.waiting (.execve path argv envp))) :
    Exec (spawnStart platform opts) t (.waiting (.execve path argv envp)) := by
  have rest : Exec (spawnStart platform opts >>= settle opts reactor) t (.waiting (.execve path argv envp)) :=
    polls.rest run
  rcases exec_bind_waiting.mp rest with stopped | ⟨_, started, _, -, -, settling⟩
  · exact stopped
  · have setup := (settling.issues (settle_issues _ _ _)).2 _ rfl
    cases setup

theorem spawnStart_of_event {platform : Platform} {opts : SpawnOptions} {before after : Trace} {e : Event os} {o}
    (run : Exec (spawnStart platform opts) (before ++ e :: after) o) :
    spawnStart platform opts = match resolveBackend platform opts with
      | .posixSpawn => spawnPosixInternal opts
      | .fork => spawnForkInternal opts := by
  unfold spawnStart at run ⊢
  split at run
  · have nothing := ((exec_pure_iff _ _ _).mp run).1
    simp at nothing
  · rename_i supported
    exact if_neg supported

theorem exec_spawnStart_prepared {platform : Platform} {opts : SpawnOptions} {before after : Trace} {path : CString}
    {actions : List FileAction} {attr : SpawnAttr} {argv : List CStrPtr} {envp : Option (List CStrPtr)} {answer} {o}
    (backend : resolveBackend platform opts = .posixSpawn)
    (run : Exec (spawnStart platform opts) (before ++ ⟨.posixSpawn path actions attr argv envp, answer⟩ :: after) o) :
    ∃ pipes, SpawnPosix.Prepared opts pipes actions attr before := by
  rw [spawnStart_of_event run, backend] at run
  exact SpawnPosix.exec_spawnPosix_waiting (run.before rfl)

end

namespace SpawnPosix

section
variable {F : Type} {T T' : Table F}

theorem ListsOpen.inner {t₁ t₂ t₃ : Trace} (exact_ : ListsOpen T (t₁ ++ (t₂ ++ t₃)))
    (libc : ∀ e ∈ t₁, isLibcCall e.call = true) : ListsOpen T t₂ := by
  have member : ∀ e ∈ t₂, e ∈ t₁ ++ (t₂ ++ t₃) :=
    fun e here => List.mem_append_right _ (List.mem_append_left _ here)
  refine ⟨fun e here => exact_.opens e (member _ here), fun fd here => exact_.reads fd (member _ here), ?_,
    fun fd e here => exact_.records fd e (member _ here)⟩
  intro before dirFd after split n
  subst split
  have elsewhere : (⟨.openProcSelfFd, .ok n⟩ : Event os) ∉ t₁ := fun here => by cases libc _ here
  have whole := exact_.lists (t₁ ++ before) dirFd (after ++ t₃) (by simp) n
  rwa [listed_append, listed_of_libc libc, List.nil_append, List.mem_append, or_iff_right elsewhere] at whole

theorem Prepared.effects {opts : SpawnOptions} {p pipes : Pipes} {actions : List FileAction} {attr : SpawnAttr}
    {t₁ t₂ : Trace} (prepared : Prepared opts pipes actions attr (t₁ ++ t₂))
    (piped : Exec (Pipes.new opts.stdin opts.captureStdout opts.captureStderr) t₁ (.done (.ok p)))
    (effects : Effects T t₂ T') :
    T' = T ∧ ∃ fds : List Nat, actions = (pipeActions p).map Prod.fst ++ fds.map .close ∧ (∀ fd ∈ fds, 2 < fd) ∧
      (ListsOpen T t₂ → ∀ n, 2 < n → n ∉ handledFds p → T n ≠ none → n ∈ fds) := by
  generalize split : t₁ ++ t₂ = t at prepared
  cases prepared with
  | steps piped' recording listing building =>
    obtain ⟨rfl, same⟩ := (Pipes.new _ _ _).determined.done piped piped' split
    cases same
    have later := List.append_cancel_left split
    subst later
    obtain ⟨T₁, init, effects⟩ := effects_cons effects
    obtain ⟨T₂, records, effects⟩ := effects_append.mp effects
    obtain ⟨T₃, lists, builds⟩ := effects_append.mp effects
    have first : T₁ = T := effect_leaves init rfl
    have second : T₂ = T₁ := effects_of_issues ((record_issues _ _).mono fun _ => leaves_of_libc) recording records
    rw [second, first] at lists
    obtain ⟨third, fds, same, above, all⟩ := closeListed_effects listing lists
    have fourth : T' = T₃ := effects_of_issues ((buildAttr_issues _).mono fun _ => leaves_of_libc) building builds
    refine ⟨by rw [fourth, third], fds, ?_, above, fun exact_ => all ?_⟩
    · rw [same, exec_record_ok recording, List.nil_append]
    · refine @ListsOpen.inner _ _ (⟨.fileActionsInit, .ok ()⟩ :: _) _ _ exact_ ?_
      exact List.forall_mem_cons.mpr ⟨rfl, (recording.issues (record_issues _ _)).1⟩

theorem applyActions_prepared {p : Pipes} {fds : List Nat}
    (applied : applyActions T ((pipeActions p).map Prod.fst ++ fds.map .close) = some T') :
    ∃ wired, wireEach T p.wires = some wired ∧ T' = wired.closeAll fds := by
  rw [applyActions_append, applyActions_pipes] at applied
  obtain ⟨wired, wires, closes⟩ := Option.bind_eq_some_iff.mp applied
  rw [applyActions_closes] at closes
  exact ⟨wired, wires, (Option.some.inj closes).symm⟩

end

end SpawnPosix

namespace SpawnFork

section
variable {F : Type} {T T' : Table F} {t : Trace}

theorem effect_dup2 {fd newfd : Nat} {answer : Except Errno Unit} (effect : Effect T ⟨.dup2 fd newfd, answer⟩ T') :
    T' = (T.dup2 fd newfd).getD T := by
  cases effect with
  | dup2 copied => rw [copied, Option.getD_some]
  | badFd closed => simp [Table.dup2, closed]
  | leaves leaves => cases leaves

theorem effects_dupCalls {source other : Option Fd} {target : Nat}
    (calls : t.map Event.call = dupCalls source other target) (effects : Effects T t T') :
    T' = dupAll T (Pipes.wire source other target) := by
  have nothing : dupCalls source other target = [] → Pipes.wire source other target = [] →
      T' = dupAll T (Pipes.wire source other target) := by
    intro none unwired
    rw [none, List.map_eq_nil_iff] at calls
    subst calls
    rw [effects_nil effects, unwired]
    rfl
  cases source with
  | none => exact nothing rfl rfl
  | some fd =>
    cases other with
    | none => exact nothing rfl rfl
    | some unused =>
      obtain ⟨⟨call, answer⟩, rfl, rfl⟩ := List.map_eq_singleton_iff.mp calls
      exact effect_dup2 (effects_single effects)

theorem effects_closeCalls {fds : List (Option Fd)} (calls : t.map Event.call = closeCalls fds)
    (effects : Effects T t T') : T' = T.closeAll (Pipes.raws fds) := by
  unfold closeCalls at calls
  unfold Pipes.raws
  generalize fds.filterMap id = opened at calls
  induction opened generalizing T t with
  | nil =>
    have none := List.map_eq_nil_iff.mp calls
    subst none
    exact effects_nil effects
  | cons fd rest ih =>
    obtain ⟨⟨call, answer⟩, later, rfl, rfl, calls'⟩ := List.map_eq_cons_iff.mp calls
    obtain ⟨T₁, first, effects'⟩ := effects_cons effects
    have closed : T₁ = T.close fd.raw := by
      cases first with
      | close => rfl
      | leaves leaves => cases leaves
    rw [ih effects' calls', closed]
    rfl

theorem effects_child {opts : SpawnOptions} {p : Pipes} (calls : t.map Event.call = childCalls opts p)
    (effects : Effects T t T') :
    ∃ answer, ⟨.closeRange 3 0xffffffff 0, answer⟩ ∈ t ∧
      Effect ((dupAll T p.wires).closeAll p.ends) ⟨.closeRange 3 0xffffffff 0, answer⟩ T' := by
  unfold childCalls wireCalls at calls
  rw [List.append_assoc] at calls
  obtain ⟨wired, later, rfl, calls, after⟩ := List.map_eq_append_iff.mp calls
  obtain ⟨duped, closed, rfl, calls, closes⟩ := List.map_eq_append_iff.mp calls
  obtain ⟨duped, third, rfl, calls, third_calls⟩ := List.map_eq_append_iff.mp calls
  obtain ⟨first, second, rfl, first_calls, second_calls⟩ := List.map_eq_append_iff.mp calls
  obtain ⟨T₄, effects, last⟩ := effects_append.mp effects
  obtain ⟨T₃, effects, fourth⟩ := effects_append.mp effects
  obtain ⟨T₂, effects, third⟩ := effects_append.mp effects
  obtain ⟨T₁, first, second⟩ := effects_append.mp effects
  have duplicated : T₃ = dupAll T p.wires := by
    rw [Pipes.wires, dupAll_append, dupAll_append, ← effects_dupCalls first_calls first,
      ← effects_dupCalls second_calls second]
    exact effects_dupCalls third_calls third
  have released : T₄ = T₃.closeAll p.ends := effects_closeCalls closes fourth
  obtain ⟨⟨call, answer⟩, rest, rfl, rfl, rest_calls⟩ := List.map_eq_cons_iff.mp after
  obtain ⟨T₅, range, quiet⟩ := effects_cons last
  have leaves : ∀ e ∈ rest, leavesCall e.call = true := by
    intro e member
    have called : e.call ∈ rest.map Event.call := List.mem_map_of_mem member
    rw [rest_calls] at called
    change e.call ∈ (if opts.pgroup.isolated then [.setsid] else []) ++ (opts.ctx.cwd.toList.map .chdir ++
        (opts.pgroup.leader.toList.map (.setpgid 0) ++
          [.sigprocmask SIG_SETMASK SignalRuntime.emptySet, .signalDefault SIGPIPE])) at called
    simp only [List.mem_append, List.mem_map, List.mem_cons, List.not_mem_nil, or_false] at called
    rcases called with session | ⟨_, -, same⟩ | ⟨_, -, same⟩ | same | same
    · split at session
      · rw [List.mem_singleton.mp session]
        rfl
      · cases session
    · rw [← same]
      rfl
    · rw [← same]
      rfl
    · rw [same]
      rfl
    · rw [same]
      rfl
  have still : T' = T₅ := effects_leaves quiet fun e member => leaves_of_call (leaves e member)
  rw [← duplicated, ← released, still]
  exact ⟨answer, by simp, range⟩

theorem effects_child_low {opts : SpawnOptions} {p : Pipes} (calls : t.map Event.call = childCalls opts p)
    (effects : Effects T t T') : ∀ n ≤ 2, T' n = (dupAll T p.wires).closeAll p.ends n := by
  obtain ⟨answer, -, range⟩ := effects_child calls effects
  intro n low
  cases range with
  | closeRange => exact if_neg (by omega)
  | leaves => rfl

end

end SpawnFork

section
variable {F : Type} {platform : Platform} {opts : SpawnOptions} {p : Pipes} {T₀ T₁ T₂ : Table F}

def Untangled : Backend → Pipes → Prop
  | .posixSpawn, p => LaterClear p.wires
  | .fork, p => Clear p.wires

def Inheritable (opts : SpawnOptions) (T : Table F) : Prop :=
  ∀ n ≤ 2, piped opts n = false → ∀ e, T n = some e → e.cloexec = false

theorem wired_of_wireEach {T wired : Table F} {fds : List Nat} (made : Pipes.Made opts T p T₁)
    (grown : Grown T₀ fds T₁) (inside : p.ends ⊆ fds) (wires : wireEach T₁ p.wires = some wired)
    (low : ∀ n ≤ 2, T₂ n = wired n) :
    Wired opts p T₀ T₁ T₂ ↔ LaterClear p.wires ∧ Inheritable opts T₀ := by
  have same : ∀ n ≤ 2, T₂.exec.file n = wired.exec.file n := by
    intro n le
    simp only [Table.file, Table.exec, low n le]
  have targets : ∀ w ∈ p.wires, w.target ≤ 2 := Pipes.target_le p
  have arrived := wireEach_iff wires (Pipes.targets_nodup p) made.disjoint
  rw [wired_iff made, ← arrived]
  apply and_congr
  · exact forall₂_congr fun w member => by rw [same _ (targets w member)]
  · refine forall₃_congr fun n le unpiped => ?_
    have kept := wireEach_of_ne wires (target_piped made unpiped)
    have among : wired n = if n ∈ p.ends then none else T₁ n := by
      simp only [kept, made.mem_ends]
    rw [same n le]
    exact grown.file_exec_iff among inside

theorem wired_of_dupAll {T : Table F} {fds : List Nat} (made : Pipes.Made opts T p T₁) (grown : Grown T₀ fds T₁)
    (inside : p.ends ⊆ fds) (low : ∀ n ≤ 2, T₂ n = (dupAll T₁ p.wires).closeAll p.ends n) :
    Wired opts p T₀ T₁ T₂ ↔ Clear p.wires ∧ Inheritable opts T₀ := by
  have same : ∀ n ≤ 2, T₂.exec.file n = ((dupAll T₁ p.wires).closeAll p.ends).exec.file n := by
    intro n le
    simp only [Table.file, Table.exec, low n le]
  have targets : ∀ w ∈ p.wires, w.target ≤ 2 := Pipes.target_le p
  have arrived := dupAll_close_iff made.mem_ends (Pipes.targets_nodup p) made.opened
  rw [wired_iff made, ← arrived]
  apply and_congr
  · exact forall₂_congr fun w member => by rw [same _ (targets w member)]
  · refine forall₃_congr fun n le unpiped => ?_
    have among : (dupAll T₁ p.wires).closeAll p.ends n = if n ∈ p.ends then none else T₁ n := by
      rw [Table.closeAll_apply, dupAll_of_ne (target_piped made unpiped)]
    rw [same n le]
    exact grown.file_exec_iff among inside

theorem Launched.made (launched : Launched platform opts T₀ p T₁ T₂) : Pipes.Made opts T₀ p T₁ := by
  cases launched with
  | posixSpawn backend pipes run parent child =>
    obtain ⟨T, made, prepares⟩ := effects_append.mp parent
    obtain ⟨pipes', prepared⟩ := exec_spawnStart_prepared backend run
    obtain ⟨rfl, -⟩ := prepared.effects pipes prepares
    exact Pipes.new_made pipes made
  | fork backend pipes run parent child => exact Pipes.new_made pipes parent

theorem Launched.wired_iff {T : Table F} {fds : List Nat} (launched : Launched platform opts T p T₁ T₂)
    (grown : Grown T₀ fds T₁) (inside : p.ends ⊆ fds) :
    Wired opts p T₀ T₁ T₂ ↔ Untangled (resolveBackend platform opts) p ∧ Inheritable opts T₀ := by
  have made := launched.made
  cases launched with
  | posixSpawn backend pipes run parent child =>
    obtain ⟨T', -, prepares⟩ := effects_append.mp parent
    obtain ⟨pipes', prepared⟩ := exec_spawnStart_prepared backend run
    obtain ⟨rfl, fds', rfl, above, -⟩ := prepared.effects pipes prepares
    obtain ⟨wired, wires, rfl⟩ := SpawnPosix.applyActions_prepared child
    rw [backend]
    refine wired_of_wireEach made grown inside wires fun n low => ?_
    rw [Table.closeAll_apply, if_neg fun member => absurd (above n member) (Nat.not_lt.mpr low)]
  | fork backend pipes run parent child =>
    rw [spawnStart_of_event run, backend] at run
    obtain ⟨pipes', piped, calls⟩ := SpawnFork.exec_spawnFork_execve run
    have same : pipes' = p := Except.ok.inj ((Pipes.new _ _ _).determined.result piped pipes)
    rw [backend]
    exact wired_of_dupAll made grown inside (SpawnFork.effects_child_low (same ▸ calls) child)

theorem LaunchedBySpawn.start (launched : LaunchedBySpawn platform opts T₀ p T₁ T₂) :
    ∃ T epfd, Grown T₀ [epfd] T ∧ Launched platform opts T p T₁ T₂ := by
  cases launched with
  | posixSpawn backend polls pipes run parent child =>
    obtain ⟨T, opened, parent⟩ := effects_append.mp parent
    obtain ⟨epfd, grown⟩ := reactor_grown polls opened
    obtain ⟨after, o, started⟩ := exec_spawn_started rfl polls run
    exact ⟨T, epfd, grown, .posixSpawn backend pipes started parent child⟩
  | fork backend polls pipes run parent child =>
    obtain ⟨T, opened, parent⟩ := effects_append.mp parent
    obtain ⟨epfd, grown⟩ := reactor_grown polls opened
    exact ⟨T, epfd, grown, .fork backend pipes (exec_spawn_execve polls run) parent child⟩

theorem clear_iff (made : Pipes.Made opts T₀' p T₁) :
    Clear p.wires ↔ ∀ n ≤ 2, piped opts n = true → n ∉ p.ends := by
  constructor
  · intro clear n low wanted inside
    obtain ⟨w, member, rfl⟩ := (piped_iff made n).mp wanted
    obtain ⟨w', member', hit⟩ := (made.mem_ends _).mp inside
    exact clear w member w' member' hit
  · intro apart w member w' member' hit
    exact apart w.target (Pipes.target_le p w member) ((piped_iff made _).mpr ⟨w, member, rfl⟩)
      ((made.mem_ends _).mpr ⟨w', member', hit⟩)

theorem laterClear_iff (made : Pipes.Made opts T₀' p T₁) :
    LaterClear p.wires ↔ ∀ n ≤ 2, piped opts n = true → (∀ m < n, piped opts m = false) → n ∉ p.ends := by
  have sorted : p.ends.Pairwise (· < ·) := made.grown.sorted
  rw [forall_standard]
  obtain ⟨stdinR, stdinW, stdoutR, stdoutW, stderrR, stderrW⟩ := p
  have one : (∀ m < 1, piped opts m = false) ↔ piped opts 0 = false := by
    refine ⟨fun all => all 0 (by omega), fun zero m below => ?_⟩
    obtain rfl : m = 0 := by omega
    exact zero
  have two : (∀ m < 2, piped opts m = false) ↔ piped opts 0 = false ∧ piped opts 1 = false := by
    refine ⟨fun all => ⟨all 0 (by omega), all 1 (by omega)⟩, fun both m below => ?_⟩
    obtain rfl | rfl : m = 0 ∨ m = 1 := by omega
    · exact both.1
    · exact both.2
  rw [one, two]
  rcases Pipes.paired made.stdin with ⟨stdin, rfl, rfl⟩ | ⟨r₀, w₀, stdin, rfl, rfl⟩ <;>
    rcases Pipes.paired made.stdout with ⟨stdout, rfl, rfl⟩ | ⟨r₁, w₁, stdout, rfl, rfl⟩ <;>
      rcases Pipes.paired made.stderr with ⟨stderr, rfl, rfl⟩ | ⟨r₂, w₂, stderr, rfl, rfl⟩ <;>
        simp [Pipes.ends, Pipes.raws] at sorted <;>
        simp [piped, LaterClear, Wire.ends, Pipes.ends, Pipes.raws, Pipes.wires, Pipes.wire, stdin, stdout, stderr] <;>
        omega

theorem untangled_iff (made : Pipes.Made opts T₀' p T₁) (backend : Backend) :
    Untangled backend p ↔ ∀ n ≤ 2, piped opts n = true →
      (backend = .posixSpawn → ∀ m < n, piped opts m = false) → n ∉ p.ends := by
  cases backend with
  | posixSpawn =>
    refine (laterClear_iff made).trans (forall₃_congr fun n low wanted => ?_)
    exact ⟨fun spared first => spared (first rfl), fun spared first => spared fun _ => first⟩
  | fork =>
    refine (clear_iff made).trans (forall₃_congr fun n low wanted => ?_)
    exact ⟨fun spared _ => spared, fun spared => spared fun same => by cases same⟩

theorem length_ends (made : Pipes.Made opts T₀' p T₁) :
    p.ends.length = 2 * ([0, 1, 2].filter (piped opts)).length := by
  have two : ∀ w ∈ p.wires, w.ends.length = 2 := fun _ _ => rfl
  rw [← made.wire_ends_perm.length_eq, List.length_flatMap, List.map_congr_left two, ← targets_eq made,
    List.length_map, List.map_const', List.sum_replicate_nat, Nat.mul_comm]

/-- No pipe gets the number of a standard descriptor that another end is to become: this number is open, or
    the numbers closed below it are enough for all ends. `posix_spawn` wires one pipe after the other, so
    that only the first can be hit. -/
def Spared {F : Type} (backend : Backend) (opts : SpawnOptions) (T : Table F) : Prop :=
  ∀ n ≤ 2, piped opts n = true → (backend = .posixSpawn → ∀ m < n, piped opts m = false) → T n = none →
    2 * ([0, 1, 2].filter (piped opts)).length ≤ (T.closedBelow n).length

/-- The new program has its standard descriptors exactly when no pipe hits a standard descriptor that
    is to be another end, and none that is to be shared is closed by `execve`. -/
theorem stdio_wired_iff (launched : Launched platform opts T₀ p T₁ T₂) :
    Wired opts p T₀ T₁ T₂ ↔ Spared (resolveBackend platform opts) opts T₀ ∧ Inheritable opts T₀ := by
  have made := launched.made
  rw [launched.wired_iff made.grown (List.Subset.refl _), untangled_iff made]
  refine and_congr_left' (forall₄_congr fun n low wanted first => ?_)
  have ends : n ∈ p.ends ↔ T₀ n = none ∧ (T₀.closedBelow n).length < p.ends.length := made.grown.mem_iff
  rw [ends, not_and, Nat.not_lt, length_ends made]

theorem mem_ends_iff (made : Pipes.Made opts T₀' p T₁) {epfd n : Nat} (grown : Grown T₀ (epfd :: p.ends) T₁)
    (low : n ≤ 2) (wanted : piped opts n = true) : n ∈ p.ends ↔ T₀ n = none ∧ ¬T₀.Least n := by
  obtain ⟨w, member, -⟩ := (piped_iff made n).mp wanted
  have source : w.source ∈ p.ends := (made.mem_ends _).mpr ⟨w, member, by simp [Wire.ends]⟩
  have other : w.other ∈ p.ends := (made.mem_ends _).mpr ⟨w, member, by simp [Wire.ends]⟩
  have distinct := made.distinct w member
  have above := (List.pairwise_cons.mp grown.sorted).1
  have first := above _ source
  have second := above _ other
  refine grown.mem_tail_iff ?_
  by_cases order : w.source < w.other
  · exact ⟨w.other, List.mem_cons_of_mem _ other, by omega⟩
  · exact ⟨w.source, List.mem_cons_of_mem _ source, by omega⟩

/-- With `spawn`, `epoll` takes the lowest closed number, and spares it. -/
theorem spawn_stdio_wired_iff (launched : LaunchedBySpawn platform opts T₀ p T₁ T₂) :
    Wired opts p T₀ T₁ T₂ ↔
      (∀ n ≤ 2, piped opts n = true → (resolveBackend platform opts = .posixSpawn → ∀ m < n, piped opts m = false) →
        T₀ n = none → T₀.Least n) ∧ Inheritable opts T₀ := by
  obtain ⟨T, epfd, polling, started⟩ := launched.start
  have made := started.made
  have grown : Grown T₀ (epfd :: p.ends) T₁ := polling.trans made.grown
  rw [started.wired_iff grown (List.subset_cons_self ..), untangled_iff made]
  refine and_congr_left' (forall₄_congr fun n low wanted first => ?_)
  rw [mem_ends_iff made grown low wanted, not_and, not_not]

end

def capturePipe (r w : Nat) : Pipes := ⟨none, none, some ⟨r⟩, some ⟨w⟩, none, none⟩

def captureStart (epfd r w : Nat) : Trace :=
  [⟨.epollCreate1, .ok epfd⟩, ⟨.reserve 0 0 64, ⟨64, WaitLoop.room_for_events⟩⟩, ⟨.pipe2 0o2004000, .ok (r, w)⟩,
    ⟨.fileActionsInit, .ok ()⟩, ⟨.fileActionsAddDup2 w 1, .ok ()⟩, ⟨.fileActionsAddClose w, .ok ()⟩,
    ⟨.fileActionsAddClose r, .ok ()⟩, ⟨.openProcSelfFd, .error 2⟩, ⟨.spawnattrInit, .ok ()⟩,
    ⟨.spawnattrSetflags 12, .ok ()⟩, ⟨.spawnattrSetsigmask [], .ok ()⟩, ⟨.spawnattrSetsigdefault [13], .ok ()⟩]

def withPipe (T : Table Nat) (r w : Nat) : Table Nat := (T.install r ⟨101, true⟩).install w ⟨102, true⟩

def capturedBy (r w : Nat) : Event os :=
  ⟨.posixSpawn ⟨[47], slash_no_nul⟩ [.dup2 w 1, .close w, .close r] ⟨12, 0, [], [13]⟩
    [some ⟨[47], slash_no_nul⟩, none] none, .ok 42⟩

theorem captureStart_effects {T : Table Nat} {r w : Nat} (reading : T.Least r)
    (writing : (T.install r ⟨101, true⟩).Least w) :
    Effects T ((captureStart 0 r w).drop 2) (withPipe T r w) := by
  refine .cons (.pipe2 (g := 102) rfl reading writing) ?_
  exact effects_of_leaves _ (by simp [leavesTable])

def standardOnly : Table Nat := fun n => if n ≤ 2 then some ⟨n, false⟩ else none

theorem launched_standardOnly :
    Launched .linux capturing standardOnly (capturePipe 3 4) (withPipe standardOnly 3 4)
      (((withPipe standardOnly 3 4).install 1 ⟨102, false⟩).close 4 |>.close 3) := by
  have pipes : Exec (Pipes.new none true false) (((captureStart 0 3 4).drop 2).take 1)
      (.done (.ok (capturePipe 3 4))) := .of_replay 3 rfl
  have run : Exec (spawnStart .linux capturing)
      (((captureStart 0 3 4).drop 2).take 1 ++ (captureStart 0 3 4).drop 3 ++ capturedBy 3 4 :: [])
      (.waiting (.close 4)) := .of_replay 3 rfl
  exact .posixSpawn rfl pipes run (captureStart_effects (by decide) (by decide)) rfl

theorem stdio_wired_standardOnly :
    Wired capturing (capturePipe 3 4) standardOnly (withPipe standardOnly 3 4)
      (((withPipe standardOnly 3 4).install 1 ⟨102, false⟩).close 4 |>.close 3) := by
  refine (stdio_wired_iff launched_standardOnly).mpr ⟨?_, ?_⟩
  · intro n low _ _ closed
    simp [standardOnly, low] at closed
  · intro n low _ e here
    simp only [standardOnly, low, ↓reduceIte, Option.some.injEq] at here
    rw [← here]

/-- Stdout is closed, so that the pipe gets its number, which is closed as an end of the pipe after it
    has been wired. -/
theorem stdout_lost :
    ¬∀ (platform : Platform) (opts : SpawnOptions) (T₀ T₁ T₂ : Table Nat) (p : Pipes),
      Launched platform opts T₀ p T₁ T₂ → Wired opts p T₀ T₁ T₂ := by
  intro wired
  have pipes : Exec (Pipes.new none true false) (((captureStart 0 1 3).drop 2).take 1)
      (.done (.ok (capturePipe 1 3))) := .of_replay 3 rfl
  have run : Exec (spawnStart .linux capturing)
      (((captureStart 0 1 3).drop 2).take 1 ++ (captureStart 0 1 3).drop 3 ++ capturedBy 1 3 :: [])
      (.waiting (.close 3)) := .of_replay 3 rfl
  have parent : Effects (standardOnly.close 1) ((captureStart 0 1 3).drop 2) (withPipe (standardOnly.close 1) 1 3) :=
    captureStart_effects (by decide) (by decide)
  have lost := wired _ _ _ _ _ _ (.posixSpawn rfl pipes run parent rfl) 1 (by omega)
  obtain ⟨fd, same, reached⟩ := lost
  cases same
  cases reached

end CoreShift
