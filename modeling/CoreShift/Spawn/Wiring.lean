import CoreShift.Kernel.Descriptors
import CoreShift.Spawn.Signals

namespace CoreShift

open Interaction Descriptors

def leavesTable : Event os → Bool
  | ⟨.epollCreate1, .ok _⟩ | ⟨.openProcSelfFd, .ok _⟩ | ⟨.pipe2 _, .ok _⟩ | ⟨.close _, _⟩ | ⟨.closedir _, _⟩
  | ⟨.dup2 _ _, _⟩ | ⟨.closeRange _ _ _, .ok _⟩ | ⟨.inotifyInit1 _, .ok _⟩ | ⟨.signalfd _ _ _, .ok _⟩ => false
  | _ => true

/-- What an exchange does to the descriptors of the process that makes it. -/
inductive Effect {F : Type} : Table F → Event os → Table F → Prop where
  | epollCreate1 {T : Table F} {fd : Nat} {f : F} (least : T.Least fd) :
      Effect T ⟨.epollCreate1, .ok fd⟩ (T.install fd ⟨f, true⟩)
  | openProcSelfFd {T : Table F} {fd : Nat} {f : F} (least : T.Least fd) :
      Effect T ⟨.openProcSelfFd, .ok fd⟩ (T.install fd ⟨f, true⟩)
  | inotifyInit1 {T : Table F} {flags fd : Nat} {f : F} (least : T.Least fd) :
      Effect T ⟨.inotifyInit1 flags, .ok fd⟩ (T.install fd ⟨f, flags &&& IN_CLOEXEC ≠ 0⟩)
  | signalfd {T : Table F} {set : List Int} {flags fd : Nat} {f : F} (least : T.Least fd) :
      Effect T ⟨.signalfd (-1) set flags, .ok fd⟩ (T.install fd ⟨f, flags &&& SFD_CLOEXEC ≠ 0⟩)
  | pipe2 {T : Table F} {flags r w : Nat} {f g : F} {e : Entry F} (opened : e = ⟨f, flags &&& O_CLOEXEC ≠ 0⟩)
      (reading : T.Least r) (writing : (T.install r e).Least w) :
      Effect T ⟨.pipe2 flags, .ok (r, w)⟩ ((T.install r e).install w ⟨g, e.cloexec⟩)
  | close {T : Table F} {fd : Nat} {answer : Except Errno Unit} : Effect T ⟨.close fd, answer⟩ (T.close fd)
  | closedir {T : Table F} {fd : Nat} {answer : Except Errno Unit} : Effect T ⟨.closedir fd, answer⟩ (T.close fd)
  | dup2 {T T' : Table F} {fd newfd : Nat} (copied : T.dup2 fd newfd = some T') :
      Effect T ⟨.dup2 fd newfd, .ok ()⟩ T'
  | badFd {T : Table F} {fd newfd : Nat} {e : Errno} (closed : T fd = none) :
      Effect T ⟨.dup2 fd newfd, .error e⟩ T
  | closeRange {T : Table F} {first last flags : Nat} :
      Effect T ⟨.closeRange first last flags, .ok ()⟩ (T.closeRange first last)
  | leaves {T : Table F} {e : Event os} (leaves : leavesTable e = true) : Effect T e T

inductive Effects {F : Type} : Table F → Trace → Table F → Prop where
  | nil (T : Table F) : Effects T [] T
  | cons {T T' T'' : Table F} {e : Event os} {t : Trace} (first : Effect T e T') (rest : Effects T' t T'') :
      Effects T (e :: t) T''

section
variable {F : Type} {T T' T'' : Table F} {t t' : Trace}

theorem effects_append : Effects T (t ++ t') T'' ↔ ∃ T', Effects T t T' ∧ Effects T' t' T'' := by
  apply Iff.intro
  · intro effects
    induction t generalizing T with
    | nil => exact ⟨T, .nil T, effects⟩
    | cons e t ih =>
      cases effects with
      | cons first rest =>
        obtain ⟨T', before, after⟩ := ih rest
        exact ⟨T', .cons first before, after⟩
  · intro effects
    obtain ⟨T', before, after⟩ := effects
    induction before with
    | nil T => exact after
    | cons first _ ih => exact .cons first (ih after)

theorem effects_nil (effects : Effects T [] T') : T' = T := by
  cases effects
  rfl

theorem effects_cons {e : Event os} (effects : Effects T (e :: t) T'') :
    ∃ T', Effect T e T' ∧ Effects T' t T'' := by
  cases effects with
  | cons first rest => exact ⟨_, first, rest⟩

theorem effects_single {e : Event os} (effects : Effects T [e] T') : Effect T e T' := by
  obtain ⟨T₁, first, rest⟩ := effects_cons effects
  rwa [effects_nil rest]

theorem effect_leaves {e : Event os} (effect : Effect T e T') (leaves : leavesTable e = true) : T' = T := by
  cases effect <;> first | rfl | cases leaves

theorem effects_leaves (effects : Effects T t T') (leaves : ∀ e ∈ t, leavesTable e = true) : T' = T := by
  induction effects with
  | nil T => rfl
  | cons first _ ih =>
    rw [ih fun e member => leaves e (List.mem_cons_of_mem _ member)]
    exact effect_leaves first (leaves _ (List.mem_cons_self ..))

theorem effects_of_leaves (T : Table F) (leaves : ∀ e ∈ t, leavesTable e = true) : Effects T t T := by
  induction t with
  | nil => exact .nil T
  | cons e t ih => exact .cons (.leaves (leaves e (by simp))) (ih fun e' member => leaves e' (by simp [member]))

end

def leavesCall : Call → Bool
  | .epollCreate1 | .openProcSelfFd | .pipe2 _ | .close _ | .closedir _ | .dup2 _ _ | .closeRange _ _ _
  | .inotifyInit1 _ | .signalfd _ _ _ => false
  | _ => true

theorem leaves_of_call {e : Event os} (leaves : leavesCall e.call = true) : leavesTable e = true := by
  obtain ⟨call, answer⟩ := e
  cases call <;> first | rfl | cases leaves

theorem effects_of_issues {F : Type} {T T' : Table F} {α : Type} {p : Prog α} {t : Trace} {o}
    (issues : p.Issues (leavesCall · = true)) (run : Exec p t o) (effects : Effects T t T') : T' = T := by
  exact effects_leaves effects fun e member => leaves_of_call ((run.issues issues).1 e member)

namespace Pipes

def wire (source other : Option Fd) (target : Nat) : List Wire :=
  match source, other with
  | some source, some other => [⟨source.raw, other.raw, target⟩]
  | _, _ => []

def wires (p : Pipes) : List Wire :=
  wire p.stdinR p.stdinW 0 ++ wire p.stdoutW p.stdoutR 1 ++ wire p.stderrW p.stderrR 2

def raws (fds : List (Option Fd)) : List Nat := (fds.filterMap id).map Fd.raw

section
variable {F : Type} {T T' : Table F} {t : Trace}

theorem pipeIf_grown {wanted : Bool} {r w : Option Fd} (run : Exec (pipeIf wanted) t (.done (.ok (r, w))))
    (effects : Effects T t T') :
    Grown T (raws [r, w]) T' ∧ r.isSome = wanted ∧ w.isSome = wanted := by
  cases wanted
  · simp only [pipeIf, Bool.false_eq_true, ↓reduceIte, exec_pure_iff, Outcome.done.injEq, Except.ok.injEq,
      Prod.mk.injEq] at run
    obtain ⟨rfl, rfl, rfl⟩ := run
    rw [effects_nil effects]
    exact ⟨.refl T, rfl, rfl⟩
  · simp only [pipeIf, ↓reduceIte] at run
    obtain ⟨t₁, made, t₂, rfl, making, rest⟩ := exec_bind_done.mp run
    obtain ⟨t₃, answer, t₄, rfl, asked, returned⟩ := exec_bind_done.mp making
    rw [exec_ask_done] at asked
    subst asked
    rcases answer with e | ⟨a, b⟩
    · obtain ⟨rfl, same⟩ := (exec_pure_iff _ _ _).mp returned
      cases same
      cases ((exec_pure_iff _ _ _).mp rest).2
    · obtain ⟨rfl, same⟩ := (exec_pure_iff _ _ _).mp returned
      cases same
      obtain ⟨rfl, same⟩ := (exec_pure_iff _ _ _).mp rest
      cases same
      have effect := effects_single (by simpa using effects)
      cases effect with
      | pipe2 opened reading writing =>
        have flagged : _ = (⟨_, true⟩ : Entry F) := opened
        subst flagged
        exact ⟨(grown_install _ reading).trans (grown_install _ writing), rfl, rfl⟩
      | leaves leaves => cases leaves

structure Made (opts : SpawnOptions) (T : Table F) (p : Pipes) (T' : Table F) : Prop where
  grown : Grown T (raws [p.stdinR, p.stdinW, p.stdoutR, p.stdoutW, p.stderrR, p.stderrW]) T'
  stdin : p.stdinR.isSome = opts.stdin.isSome ∧ p.stdinW.isSome = opts.stdin.isSome
  stdout : p.stdoutR.isSome = opts.captureStdout ∧ p.stdoutW.isSome = opts.captureStdout
  stderr : p.stderrR.isSome = opts.captureStderr ∧ p.stderrW.isSome = opts.captureStderr

theorem new_made {opts : SpawnOptions} {p : Pipes}
    (run : Exec (new opts.stdin opts.captureStdout opts.captureStderr) t (.done (.ok p))) (effects : Effects T t T') :
    Made opts T p T' := by
  have failed : ∀ {q : Prog Unit} {e : SysError} {t : Trace},
      ¬Exec (q >>= fun _ => pure (.error e)) t (.done (Except.ok p)) := by
    intro q e t run
    obtain ⟨_, _, _, _, _, rest⟩ := exec_bind_done.mp run
    cases ((exec_pure_iff _ _ _).mp rest).2
  obtain ⟨t₁, first, u, rfl, making, run⟩ := exec_bind_done.mp run
  obtain ⟨T₁, effects₁, effects⟩ := effects_append.mp effects
  rcases first with e | ⟨stdinR, stdinW⟩
  · cases ((exec_pure_iff _ _ _).mp run).2
  obtain ⟨t₂, second, u, rfl, making', run⟩ := exec_bind_done.mp run
  obtain ⟨T₂, effects₂, effects⟩ := effects_append.mp effects
  rcases second with e | ⟨stdoutR, stdoutW⟩
  · simp only [← bind_assoc] at run
    exact absurd run failed
  obtain ⟨t₃, third, u, rfl, making'', run⟩ := exec_bind_done.mp run
  obtain ⟨T₃, effects₃, effects⟩ := effects_append.mp effects
  rcases third with e | ⟨stderrR, stderrW⟩
  · simp only [← bind_assoc] at run
    exact absurd run failed
  obtain ⟨rfl, same⟩ := (exec_pure_iff _ _ _).mp run
  cases same
  rw [effects_nil effects]
  have stdin := pipeIf_grown making effects₁
  have stdout := pipeIf_grown making' effects₂
  have stderr := pipeIf_grown making'' effects₃
  have all := (stdin.1.trans stdout.1).trans stderr.1
  refine ⟨?_, stdin.2, stdout.2, stderr.2⟩
  simpa only [raws, ← List.map_append, ← List.filterMap_append, List.cons_append, List.nil_append] using all

end

end Pipes

namespace SpawnPosix

theorem leaves_of_libc {c : Call} (libc : isLibcCall c = true) : leavesCall c = true := by
  cases c <;> first | rfl | cases libc

theorem exec_record_ok {steps : List (FileAction × String)} {actions recorded : List FileAction} {t : Trace}
    (run : Exec (record steps actions) t (.done (.ok recorded))) : recorded = actions ++ steps.map Prod.fst := by
  induction steps generalizing actions t with
  | nil =>
    cases ((exec_pure_iff _ _ _).mp run).2
    simp
  | cons step rest ih =>
    obtain ⟨action, op⟩ := step
    obtain ⟨_, answer, _, rfl, _, run⟩ := exec_bind_done.mp run
    rcases answer with e | ⟨⟩
    · cases ((exec_pure_iff _ _ _).mp run).2
    · rw [ih run]
      simp

theorem listRound_issues (dirFd : Nat) (handled : List Nat) (actions : List FileAction) :
    (listRound dirFd handled actions).Issues (leavesCall · = true) := by
  refine .bind ((Program.issues_ask _ _).mpr rfl) fun entry => ?_
  rcases entry with _ | ⟨_ | fd⟩
  · trivial
  · trivial
  · show (if 2 < fd ∧ fd ≠ dirFd ∧ fd ∉ handled then _ else _ : Prog _).Issues _
    split
    · refine .bind ((Program.issues_ask _ _).mpr rfl) fun answer => ?_
      rcases answer with e | ⟨⟩ <;> trivial
    · trivial

def listed (t : Trace) : List Nat :=
  t.filterMap fun
    | ⟨.readdir _, some entry⟩ => entry.fd
    | _ => none

theorem listed_append (t t' : Trace) : listed (t ++ t') = listed t ++ listed t' := List.filterMap_append ..

theorem listed_of_libc {t : Trace} (libc : ∀ e ∈ t, isLibcCall e.call = true) : listed t = [] := by
  refine List.filterMap_eq_nil_iff.mpr fun e member => ?_
  obtain ⟨call, answer⟩ := e
  cases call <;> first | rfl | cases libc _ member

def unhandled (dirFd : Nat) (handled : List Nat) (fd : Nat) : Bool := 2 < fd ∧ fd ≠ dirFd ∧ fd ∉ handled

/-- The descriptors `fds` for which a listing has recorded a close. A close that cannot be recorded is
    left out. -/
structure Recorded (dirFd : Nat) (handled : List Nat) (t : Trace) (fds : List Nat) : Prop where
  above : ∀ fd ∈ fds, 2 < fd
  all : (∀ fd e, ⟨.fileActionsAddClose fd, .error e⟩ ∉ t) → fds = (listed t).filter (unhandled dirFd handled)

theorem Recorded.append {dirFd : Nat} {handled fds fds' : List Nat} {t t' : Trace}
    (first : Recorded dirFd handled t fds) (second : Recorded dirFd handled t' fds') :
    Recorded dirFd handled (t ++ t') (fds ++ fds') where
  above fd member := (List.mem_append.mp member).elim (first.above fd) (second.above fd)
  all recorded := by
    rw [listed_append, List.filter_append, first.all fun fd e member => recorded fd e (List.mem_append_left _ member),
      second.all fun fd e member => recorded fd e (List.mem_append_right _ member)]

theorem exec_listRound_done {dirFd : Nat} {handled : List Nat} {actions : List FileAction} {t : Trace}
    {next : List FileAction ⊕ List FileAction} (run : Exec (listRound dirFd handled actions) t (.done next)) :
    ∃ fds : List Nat, Sum.elim id id next = actions ++ fds.map .close ∧ Recorded dirFd handled t fds := by
  obtain ⟨entry, u, rfl, rest⟩ := run.ask_done
  have same : ∀ {e : Event os}, listed [e] = [] →
      ∃ fds, actions = actions ++ fds.map FileAction.close ∧ Recorded dirFd handled [e] fds :=
    fun nothing => ⟨[], (List.append_nil _).symm, by simp, fun _ => by rw [nothing]; rfl⟩
  rcases entry with _ | ⟨_ | fd⟩
  · obtain ⟨rfl, done⟩ := (exec_pure_iff _ _ _).mp rest
    cases done
    exact same rfl
  · obtain ⟨rfl, done⟩ := (exec_pure_iff _ _ _).mp rest
    cases done
    exact same rfl
  · change Exec (if 2 < fd ∧ fd ≠ dirFd ∧ fd ∉ handled then _ else _ : Prog _) _ _ at rest
    have named : ∀ u, (∀ e ∈ u, isLibcCall e.call = true) →
        listed (⟨.readdir dirFd, some ⟨some fd⟩⟩ :: u) = [fd] := by
      intro u libc
      show fd :: listed u = [fd]
      rw [listed_of_libc libc]
    split at rest
    · rename_i open_
      obtain ⟨answer, u, rfl, rest'⟩ := rest.ask_done
      rcases answer with e | ⟨⟩
      · obtain ⟨rfl, done⟩ := (exec_pure_iff _ _ _).mp rest'
        cases done
        exact ⟨[], (List.append_nil _).symm, by simp, fun recorded => absurd (by simp) (recorded fd e)⟩
      · obtain ⟨rfl, done⟩ := (exec_pure_iff _ _ _).mp rest'
        cases done
        refine ⟨[fd], rfl, by simp [open_.1], fun _ => ?_⟩
        rw [named _ (by simp [isLibcCall]), List.filter_cons_of_pos (by simpa [unhandled] using open_), List.filter_nil]
    · rename_i handled_
      obtain ⟨rfl, done⟩ := (exec_pure_iff _ _ _).mp rest
      cases done
      refine ⟨[], (List.append_nil _).symm, by simp, fun _ => ?_⟩
      rw [named _ (by simp), List.filter_cons_of_neg (by simpa [unhandled] using handled_), List.filter_nil]

theorem exec_listRound_more {dirFd : Nat} {handled fds : List Nat} {actions : List FileAction} {t t' : Trace}
    {next : List FileAction ⊕ List FileAction} (earlier : Recorded dirFd handled t fds)
    (round : Exec (listRound dirFd handled (actions ++ fds.map .close)) t' (.done next)) :
    ∃ fds : List Nat, Sum.elim id id next = actions ++ fds.map .close ∧ Recorded dirFd handled (t ++ t') fds := by
  obtain ⟨more, same, later⟩ := exec_listRound_done round
  refine ⟨fds ++ more, ?_, earlier.append later⟩
  rw [List.map_append, ← List.append_assoc]
  exact same

theorem iterates_listRound {dirFd : Nat} {handled : List Nat} {actions state : List FileAction} {t : Trace}
    (rounds : Iterates (listRound dirFd handled) actions t state) :
    ∃ fds : List Nat, state = actions ++ fds.map .close ∧ Recorded dirFd handled t fds := by
  induction rounds with
  | start => exact ⟨[], (List.append_nil _).symm, by simp, fun _ => rfl⟩
  | next _ round ih =>
    obtain ⟨fds, rfl, earlier⟩ := ih
    exact exec_listRound_more earlier round

theorem exec_listing {dirFd : Nat} {handled : List Nat} {actions actions' : List FileAction} {t : Trace}
    (listing : Exec (Program.iterate (listRound dirFd handled) actions) t (.done actions')) :
    ∃ fds : List Nat, actions' = actions ++ fds.map .close ∧ Recorded dirFd handled t fds := by
  obtain ⟨rounds, state, last, rfl, reached, finish⟩ := exec_iterate_done.mp listing
  obtain ⟨fds, rfl, earlier⟩ := iterates_listRound reached
  exact exec_listRound_more earlier finish

theorem exec_listRound_last {dirFd : Nat} {handled : List Nat} {actions actions' : List FileAction} {t : Trace}
    (run : Exec (listRound dirFd handled actions) t (.done (.inr actions'))) : t = [⟨.readdir dirFd, none⟩] := by
  obtain ⟨entry, u, rfl, rest⟩ := run.ask_done
  rcases entry with _ | ⟨_ | fd⟩
  · rw [((exec_pure_iff _ _ _).mp rest).1]
  · cases ((exec_pure_iff _ _ _).mp rest).2
  · change Exec (if 2 < fd ∧ fd ≠ dirFd ∧ fd ∉ handled then _ else _ : Prog _) _ _ at rest
    split at rest
    · obtain ⟨answer, u, rfl, rest'⟩ := rest.ask_done
      rcases answer with e | ⟨⟩
      · cases ((exec_pure_iff _ _ _).mp rest').2
      · cases ((exec_pure_iff _ _ _).mp rest').2
    · cases ((exec_pure_iff _ _ _).mp rest).2

theorem exec_listing_ends {dirFd : Nat} {handled : List Nat} {actions actions' : List FileAction} {t : Trace}
    (listing : Exec (Program.iterate (listRound dirFd handled) actions) t (.done actions')) :
    ∃ t', t = t' ++ [⟨.readdir dirFd, none⟩] := by
  obtain ⟨rounds, state, last, rfl, -, finish⟩ := exec_iterate_done.mp listing
  exact ⟨rounds, by rw [exec_listRound_last finish]⟩

/-- `/proc/self/fd` can be read. When a listing is at its end, it has named just the open descriptors, of
    which its own is one; and every close can be recorded. -/
structure ListsOpen {F : Type} (T : Table F) (t : Trace) : Prop where
  opens : ∀ e, ⟨.openProcSelfFd, .error e⟩ ∉ t
  reads : ∀ dirFd, ⟨.fdopendir dirFd, false⟩ ∉ t
  lists : ∀ before dirFd after, t = before ++ ⟨.readdir dirFd, none⟩ :: after →
    ∀ n, n ∈ listed before ↔ T n ≠ none ∨ ⟨.openProcSelfFd, .ok n⟩ ∈ before
  records : ∀ fd e, ⟨.fileActionsAddClose fd, .error e⟩ ∉ t

section
variable {F : Type} {T T' : Table F} {t : Trace}

theorem closeListed_effects {handled : List Nat} {actions actions' : List FileAction}
    (run : Exec (closeListed handled actions) t (.done actions')) (effects : Effects T t T') :
    T' = T ∧ ∃ fds : List Nat, actions' = actions ++ fds.map .close ∧ (∀ fd ∈ fds, 2 < fd) ∧
      (ListsOpen T t → ∀ n, 2 < n → n ∉ handled → T n ≠ none → n ∈ fds) := by
  obtain ⟨opened, u₁, rfl, rest₁⟩ := run.ask_done
  obtain ⟨T₁, first, effects₁⟩ := effects_cons effects
  rcases opened with e | dirFd
  · obtain ⟨rfl, same⟩ := (exec_pure_iff _ _ _).mp rest₁
    cases same
    rw [effects_nil effects₁]
    exact ⟨effect_leaves first rfl, [], (List.append_nil _).symm, by simp,
      fun exact_ => absurd (by simp) (exact_.opens e)⟩
  obtain ⟨isOpen, u₂, rfl, rest₂⟩ := rest₁.ask_done
  obtain ⟨T₂, second, effects₂⟩ := effects_cons effects₁
  have unread := effect_leaves second rfl
  subst unread
  -- the directory has a descriptor of its own, which is free again in the end
  have free : T dirFd = none ∧ T₂.close dirFd = T := by
    cases first with
    | openProcSelfFd least => exact ⟨least.1, install_close least.1⟩
    | leaves leaves => cases leaves
  cases isOpen
  · obtain ⟨answer, u₃, rfl, rest₃⟩ := rest₂.ask_done
    obtain ⟨rfl, same⟩ := (exec_pure_iff _ _ _).mp rest₃
    cases same
    have third := effects_single effects₂
    cases third with
    | close =>
      exact ⟨free.2, [], (List.append_nil _).symm, by simp, fun exact_ => absurd (by simp) (exact_.reads dirFd)⟩
    | leaves leaves => cases leaves
  · obtain ⟨t₃, actions₃, u₃, rfl, listing, rest₃⟩ := exec_bind_done.mp rest₂
    obtain ⟨answer, u₄, rfl, rest₄⟩ := rest₃.ask_done
    obtain ⟨rfl, same⟩ := (exec_pure_iff _ _ _).mp rest₄
    cases same
    obtain ⟨T₃, third, effects₃⟩ := effects_append.mp effects₂
    have unread : T₃ = T₂ := effects_of_issues (.iterate _ (listRound_issues dirFd handled)) listing third
    subst unread
    have fourth := effects_single effects₃
    obtain ⟨fds, added, recorded⟩ := exec_listing listing
    obtain ⟨t₃, rfl⟩ := exec_listing_ends listing
    have closes :
        ListsOpen T (⟨.openProcSelfFd, .ok dirFd⟩ :: ⟨.fdopendir dirFd, true⟩ ::
          (t₃ ++ [⟨.readdir dirFd, none⟩] ++ [⟨.closedir dirFd, answer⟩])) →
        ∀ n, 2 < n → n ∉ handled → T n ≠ none → n ∈ fds := by
      intro exact_ n high unhandled_ isOpen
      have split : (⟨.openProcSelfFd, .ok dirFd⟩ :: ⟨.fdopendir dirFd, true⟩ ::
          (t₃ ++ [⟨.readdir dirFd, none⟩] ++ [⟨.closedir dirFd, answer⟩]) : Trace) =
            (⟨.openProcSelfFd, .ok dirFd⟩ :: ⟨.fdopendir dirFd, true⟩ :: t₃) ++ ⟨.readdir dirFd, none⟩ ::
              [⟨.closedir dirFd, answer⟩] := by
        rw [List.append_assoc]
        rfl
      have named : n ∈ listed t₃ := (exact_.lists _ _ _ split n).mpr (.inl isOpen)
      have everything : listed (t₃ ++ [⟨.readdir dirFd, none⟩]) = listed t₃ := by
        rw [listed_append]
        exact List.append_nil _
      rw [← everything] at named
      have different : n ≠ dirFd := fun same => isOpen (same ▸ free.1)
      rw [recorded.all fun fd e member => exact_.records fd e (.tail _ (.tail _ (List.mem_append_left _ member)))]
      exact List.mem_filter.mpr ⟨named, by simp [unhandled, high, different, unhandled_]⟩
    cases fourth with
    | closedir => exact ⟨free.2, fds, added, recorded.above, closes⟩
    | leaves leaves => cases leaves

end

/-- What `posix_spawn` does with one action; a close cannot fail. -/
def applyAction {F : Type} (T : Table F) : FileAction → Option (Table F)
  | .dup2 fd newfd => T.dup2Action fd newfd
  | .close fd => some (T.close fd)

def applyActions {F : Type} (T : Table F) (actions : List FileAction) : Option (Table F) :=
  actions.foldlM applyAction T

theorem applyActions_append {F : Type} (T : Table F) (actions actions' : List FileAction) :
    applyActions T (actions ++ actions') = (applyActions T actions).bind (applyActions · actions') :=
  List.foldlM_append ..

def wireActions (w : Wire) : List FileAction := [.dup2 w.source w.target, .close w.source, .close w.other]

theorem pipeActions_eq (p : Pipes) : (pipeActions p).map Prod.fst = p.wires.flatMap wireActions := by
  have stdin : ∀ r w, (stdinActions r w).map Prod.fst = (Pipes.wire r w 0).flatMap wireActions := by
    intro r w
    cases r <;> cases w <;> rfl
  have stdout : ∀ r w, (stdoutActions r w).map Prod.fst = (Pipes.wire w r 1).flatMap wireActions := by
    intro r w
    cases r <;> cases w <;> rfl
  have stderr : ∀ r w, (stderrActions r w).map Prod.fst = (Pipes.wire w r 2).flatMap wireActions := by
    intro r w
    cases r <;> cases w <;> rfl
  simp only [pipeActions, Pipes.wires, List.map_append, List.flatMap_append, stdin, stdout, stderr]

theorem applyActions_wires {F : Type} (T : Table F) (wires : List Wire) :
    applyActions T (wires.flatMap wireActions) = wireEach T wires := by
  induction wires generalizing T with
  | nil => rfl
  | cons w rest ih =>
    show applyActions T (wireActions w ++ rest.flatMap wireActions) = _
    rw [applyActions_append]
    show (T.dup2Action w.source w.target >>= fun T' => _).bind _ = _
    cases copied : T.dup2Action w.source w.target with
    | none => simp [wireEach, copied]
    | some T' =>
      show applyActions _ _ = _
      rw [ih]
      simp [wireEach, copied]

theorem applyActions_pipes {F : Type} (T : Table F) (p : Pipes) :
    applyActions T ((pipeActions p).map Prod.fst) = wireEach T p.wires := by
  rw [pipeActions_eq, applyActions_wires]

theorem applyActions_closes {F : Type} (T : Table F) (fds : List Nat) :
    applyActions T (fds.map .close) = some (T.closeAll fds) := by
  induction fds generalizing T with
  | nil => rfl
  | cons fd rest ih => exact ih (T.close fd)

end SpawnPosix

end CoreShift
