import CoreShift.Interaction.Ownership
import CoreShift.Io.Settled
import CoreShift.Spawn.Stdio
import Mathlib.Tactic.Abel

namespace CoreShift

open Interaction Descriptors

def opened : Event os → Multiset Nat
  | ⟨.pipe2 _, .ok (r, w)⟩ => {r} + {w}
  | ⟨.openProcSelfFd, .ok fd⟩ | ⟨.epollCreate1, .ok fd⟩ | ⟨.inotifyInit1 _, .ok fd⟩ | ⟨.signalfd _ _ _, .ok fd⟩ => {fd}
  | _ => 0

def closed : Event os → Multiset Nat
  | ⟨.close fd, _⟩ | ⟨.closedir fd, _⟩ => {fd}
  | _ => 0

def overwrites : Call → Bool
  | .dup2 _ _ | .closeRange _ _ _ => true
  | _ => false

def descriptors : Custody os Nat where
  created := opened
  returned := closed
  foreign e := overwrites e.call = true

/-- The run goes on in the process that called `fork`. -/
def InParent (e : Event os) : Prop := e ≠ ⟨.fork, .ok 0⟩

abbrev Keeps {α : Type} (p : Prog α) (held : Multiset Nat) (left : α → Multiset Nat) : Prop :=
  descriptors.Manages InParent p held left

theorem silent_of_leaves {c : Call} (leaves : leavesCall c = true) (answer : c.Answer) :
    descriptors.Silent ⟨c, answer⟩ := by
  cases c <;> first | exact ⟨Bool.false_ne_true, rfl, rfl⟩ | cases leaves

theorem keeps_of_leaves {α : Type} {p : Prog α} (issues : p.Issues (leavesCall · = true)) (held : Multiset Nat) :
    Keeps p held fun _ => held :=
  Custody.manages_of_issues (issues.mono fun _ leaves answer => silent_of_leaves leaves answer) held

def heldFd : Option Fd → Multiset Nat
  | none => 0
  | some fd => {fd.raw}

def heldSlot : Option FdSlot → Multiset Nat
  | none => 0
  | some slot => {slot.fd.raw}

theorem keeps_close (fd : Nat) : Keeps (ask (.close fd)) {fd} fun _ => 0 :=
  Custody.manages_ask fun _ _ => .returned Bool.false_ne_true rfl rfl

theorem keeps_drop (fd : Fd) : Keeps fd.drop {fd.raw} fun _ => 0 :=
  (keeps_close fd.raw).bind fun _ => Custody.manages_pure () fun _ => 0

theorem keeps_dropFd (fd : Option Fd) : Keeps (dropFd fd) (heldFd fd) fun _ => 0 := by
  cases fd with
  | none => exact Custody.manages_pure () fun _ => 0
  | some fd => exact keeps_drop fd

theorem keeps_dropSlot (slot : Option FdSlot) : Keeps (dropSlot slot) (heldSlot slot) fun _ => 0 := by
  cases slot with
  | none => exact Custody.manages_pure () fun _ => 0
  | some slot => exact keeps_drop slot.fd

def onOk {α : Type} (held : α → Multiset Nat) : Except SysError α → Multiset Nat
  | .ok value => held value
  | .error _ => 0

namespace DrainState

def held (d : DrainState) : Multiset Nat := heldSlot d.stdinSlot + heldSlot d.stdoutSlot + heldSlot d.stderrSlot

def heldAfter (fd : Option Fd) : Except SysError (Option FdSlot) → Multiset Nat
  | .ok slot => heldSlot slot
  | .error _ => heldFd fd

theorem keeps_adopt (fd : Option Fd) : Keeps (adopt fd) (heldFd fd) (heldAfter fd) := by
  cases fd with
  | none => exact Custody.manages_pure (Except.ok none) (heldAfter none)
  | some fd =>
    have flags : fd.setNonblock.Issues (leavesCall · = true) := by
      refine .bind ((Program.issues_ask _ _).mpr rfl) fun answer => ?_
      rcases answer with e | flags
      · trivial
      · exact .bind ((Program.issues_ask _ _).mpr rfl) fun _ => trivial
    apply (keeps_of_leaves flags {fd.raw}).bind
    intro result
    rcases result with e | ⟨⟩
    · exact Custody.manages_pure (Except.error e) (heldAfter (some fd))
    · exact Custody.manages_pure (Except.ok (some ⟨none, fd⟩)) (heldAfter (some fd))

def leftOver (stdinBuf : Option Bytes) (stdinFd : Option Fd) : Option Fd := if stdinBuf.isSome then none else stdinFd

theorem keeps_new (stdinFd : Option Fd) (stdinBuf : Option Bytes) (stdoutFd stderrFd : Option Fd) (limit : Nat)
    (earlyExit : Bool) :
    Keeps (new stdinFd stdinBuf stdoutFd stderrFd limit earlyExit) (heldFd stdinFd + heldFd stdoutFd + heldFd stderrFd)
      (onOk held) := by
  -- what is not taken for stdin is left until the end
  have parts : heldFd stdinFd =
      heldFd (if stdinBuf.isSome then stdinFd else none) + heldFd (leftOver stdinBuf stdinFd) := by
    cases stdinBuf with
    | none => exact (zero_add _).symm
    | some bytes => exact (add_zero _).symm
  have fails : ∀ e : SysError, Keeps (pure (.error e)) 0 (onOk held) := fun e =>
    Custody.manages_pure (Except.error e) (onOk held)
  refine (keeps_adopt _).beside (heldFd (leftOver stdinBuf stdinFd) + heldFd stdoutFd + heldFd stderrFd)
    (by rw [parts, add_assoc, add_assoc, add_assoc]) fun result => ?_
  rcases result with e | stdinSlot
  · have drops := (keeps_dropFd stderrFd).before fun _ => (keeps_dropFd stdoutFd).before fun _ =>
      (keeps_dropFd stdinFd).before fun _ => fails e
    apply drops.congr _ fun _ => rfl
    rw [parts]
    show heldFd _ + _ = _
    abel
  refine (keeps_adopt stdoutFd).beside (heldSlot stdinSlot + heldFd (leftOver stdinBuf stdinFd) + heldFd stderrFd)
    (by show heldSlot stdinSlot + _ = _; abel) fun result => ?_
  rcases result with e | stdoutSlot
  · have drops := (keeps_dropSlot stdinSlot).before fun _ => (keeps_dropFd stderrFd).before fun _ =>
      (keeps_dropFd stdoutFd).before fun _ => (keeps_dropFd (leftOver stdinBuf stdinFd)).before fun _ => fails e
    apply drops.congr _ fun _ => rfl
    show heldFd _ + _ = _
    abel
  refine (keeps_adopt stderrFd).beside (heldSlot stdinSlot + heldSlot stdoutSlot + heldFd (leftOver stdinBuf stdinFd))
    (by show heldSlot stdoutSlot + _ = _; abel) fun result => ?_
  rcases result with e | stderrSlot
  · have drops := (keeps_dropSlot stdoutSlot).before fun _ => (keeps_dropSlot stdinSlot).before fun _ =>
      (keeps_dropFd stderrFd).before fun _ => (keeps_dropFd (leftOver stdinBuf stdinFd)).before fun _ => fails e
    apply drops.congr _ fun _ => rfl
    show heldFd _ + _ = _
    abel
  refine (keeps_dropFd (leftOver stdinBuf stdinFd)).beside
    (heldSlot stdinSlot + heldSlot stdoutSlot + heldSlot stderrSlot)
    (by show heldSlot stderrSlot + _ = _; abel) fun _ => ?_
  apply (Custody.manages_pure _ (onOk held)).congr _ fun _ => rfl
  exact zero_add _

end DrainState

namespace Pipes

def held (p : Pipes) : Multiset Nat :=
  heldFd p.stdinR + heldFd p.stdinW + heldFd p.stdoutR + heldFd p.stdoutW + heldFd p.stderrR + heldFd p.stderrW

def heldEnds (ends : Option Fd × Option Fd) : Multiset Nat := heldFd ends.1 + heldFd ends.2

theorem keeps_makePipe : Keeps makePipe 0 (onOk fun ends => {ends.1.raw} + {ends.2.raw}) := by
  have asked : Keeps (ask (.pipe2 (O_CLOEXEC ||| O_NONBLOCK))) 0 fun answer => opened ⟨.pipe2 _, answer⟩ :=
    Custody.manages_ask fun _ _ => .created Bool.false_ne_true rfl rfl
  apply asked.bind
  intro answer
  rcases answer with e | ⟨r, w⟩
  · exact Custody.manages_pure (Except.error _) (onOk _)
  · exact Custody.manages_pure (Except.ok (⟨r⟩, ⟨w⟩)) (onOk fun ends : Fd × Fd => {ends.1.raw} + {ends.2.raw})

theorem keeps_pipeIf (wanted : Bool) : Keeps (pipeIf wanted) 0 (onOk heldEnds) := by
  cases wanted with
  | false => exact Custody.manages_pure (Except.ok (none, none)) (onOk heldEnds)
  | true =>
    apply keeps_makePipe.bind
    intro result
    rcases result with e | ⟨r, w⟩
    · exact Custody.manages_pure (Except.error e) (onOk heldEnds)
    · exact Custody.manages_pure (Except.ok (some r, some w)) (onOk heldEnds)

theorem keeps_new (inBuf : Option Bytes) (out err : Bool) : Keeps (new inBuf out err) 0 (onOk held) := by
  have fails : ∀ e : SysError, Keeps (pure (.error e)) 0 (onOk held) := fun e =>
    Custody.manages_pure (Except.error e) (onOk held)
  apply (keeps_pipeIf _).bind
  intro result
  rcases result with e | ⟨stdinR, stdinW⟩
  · exact fails e
  refine (keeps_pipeIf out).beside (heldEnds (stdinR, stdinW)) (zero_add _).symm fun result => ?_
  rcases result with e | ⟨stdoutR, stdoutW⟩
  · have drops := (keeps_dropFd stdinW).before fun _ => (keeps_dropFd stdinR).before fun _ => fails e
    apply drops.congr _ fun _ => rfl
    show 0 + (heldFd stdinR + heldFd stdinW) = _
    abel
  refine (keeps_pipeIf err).beside (heldEnds (stdoutR, stdoutW) + heldEnds (stdinR, stdinW)) (zero_add _).symm
    fun result => ?_
  rcases result with e | ⟨stderrR, stderrW⟩
  · have drops := (keeps_dropFd stdoutW).before fun _ => (keeps_dropFd stdoutR).before fun _ =>
      (keeps_dropFd stdinW).before fun _ => (keeps_dropFd stdinR).before fun _ => fails e
    apply drops.congr _ fun _ => rfl
    show 0 + (heldFd stdoutR + heldFd stdoutW + (heldFd stdinR + heldFd stdinW)) = _
    abel
  · apply (Custody.manages_pure (Except.ok _) (onOk held)).congr _ fun _ => rfl
    show heldFd stderrR + heldFd stderrW + (heldFd stdoutR + heldFd stdoutW + (heldFd stdinR + heldFd stdinW)) =
      heldFd stdinR + heldFd stdinW + heldFd stdoutR + heldFd stdoutW + heldFd stderrR + heldFd stderrW
    abel

theorem keeps_closeAll (p : Pipes) : Keeps p.closeAll p.held fun _ => 0 := by
  have drops := (keeps_dropFd p.stdinR).before fun _ => (keeps_dropFd p.stdinW).before fun _ =>
    (keeps_dropFd p.stdoutR).before fun _ => (keeps_dropFd p.stdoutW).before fun _ =>
      (keeps_dropFd p.stderrR).before fun _ => keeps_dropFd p.stderrW
  apply drops.congr _ fun _ => rfl
  unfold held
  abel

theorem keeps_failing {α : Type} (p : Pipes) (e : SysError) (left : α → Multiset Nat) :
    Keeps (p.closeAll >>= fun _ => (pure (.error e) : Prog (Except SysError α))) p.held (onOk left) :=
  p.keeps_closeAll.bind fun _ => Custody.manages_pure (Except.error e) (onOk left)

theorem keeps_orClose {α β : Type} {p : Pipes} {left : β → Multiset Nat} (step : Except SysError α)
    {rest : α → Prog (Except SysError β)} (next : ∀ value, Keeps (rest value) p.held (onOk left)) :
    Keeps (p.orClose step rest) p.held (onOk left) := by
  cases step with
  | error e => exact p.keeps_failing e left
  | ok value => exact next value

end Pipes

def heldByDrain (started : Int × DrainState) : Multiset Nat := started.2.held

theorem keeps_drainPipes (p : Pipes) (opts : SpawnOptions) (pid : Int) :
    Keeps (drainPipes p opts pid) p.held (onOk heldByDrain) := by
  have drained : ∀ stdinW (rest : Except SysError DrainState → Prog (Except SysError (Int × DrainState))),
      (∀ e, rest (.error e) = pure (.error e)) → (∀ drain, rest (.ok drain) = pure (.ok (pid, drain))) →
      Keeps (DrainState.new stdinW opts.stdin p.stdoutR p.stderrR opts.maxOutput opts.earlyExit >>= rest)
        (heldFd stdinW + heldFd p.stdoutR + heldFd p.stderrR) (onOk heldByDrain) := by
    intro stdinW rest fails succeeds
    apply (DrainState.keeps_new stdinW opts.stdin p.stdoutR p.stderrR opts.maxOutput opts.earlyExit).bind
    intro result
    rcases result with e | drain
    · rw [fails]
      exact Custody.manages_pure (Except.error e) (onOk heldByDrain)
    · rw [succeeds]
      exact Custody.manages_pure (Except.ok (pid, drain)) (onOk heldByDrain)
  refine (keeps_dropFd p.stdinR).beside
    (heldFd p.stdinW + heldFd p.stdoutR + heldFd p.stdoutW + heldFd p.stderrR + heldFd p.stderrW)
    (by unfold Pipes.held; abel) fun _ => ?_
  refine (keeps_dropFd p.stdoutW).beside (heldFd p.stdinW + heldFd p.stdoutR + heldFd p.stderrR + heldFd p.stderrW)
    (by abel) fun _ => ?_
  refine (keeps_dropFd p.stderrW).beside (heldFd p.stdinW + heldFd p.stdoutR + heldFd p.stderrR)
    (by abel) fun _ => ?_
  by_cases nothing : opts.stdin.isNone = true
  · have missing : opts.stdin.isSome = false := by
      rw [← Option.not_isNone, nothing]
      rfl
    simp only [nothing, missing, ↓reduceIte, Bool.false_eq_true]
    refine (keeps_dropFd p.stdinW).beside (heldFd p.stdoutR + heldFd p.stderrR) (by abel) fun _ => ?_
    apply (drained none _ (fun _ => rfl) fun _ => rfl).congr _ fun _ => rfl
    show 0 + (heldFd p.stdoutR + heldFd p.stderrR) = 0 + heldFd p.stdoutR + heldFd p.stderrR
    abel
  · have present : opts.stdin.isSome = true := by
      rw [← Option.not_isNone, Bool.eq_false_iff.mpr nothing]
      rfl
    simp only [nothing, present, ↓reduceIte, Bool.false_eq_true]
    apply (drained p.stdinW _ (fun _ => rfl) fun _ => rfl).congr _ fun _ => rfl
    exact zero_add _

namespace SpawnPosix

theorem keeps_closeListed (handled : List Nat) (actions : List FileAction) :
    Keeps (closeListed handled actions) 0 fun _ => 0 := by
  have asked : Keeps (ask .openProcSelfFd) 0 fun answer => opened ⟨.openProcSelfFd, answer⟩ :=
    Custody.manages_ask fun _ _ => .created Bool.false_ne_true rfl rfl
  apply asked.bind
  intro answer
  rcases answer with e | dirFd
  · exact Custody.manages_pure actions fun _ => 0
  have read : Keeps (ask (.fdopendir dirFd)) {dirFd} fun _ => {dirFd} :=
    keeps_of_leaves ((Program.issues_ask _ _).mpr rfl) {dirFd}
  apply read.bind
  intro isOpen
  cases isOpen with
  | false =>
    apply (keeps_close dirFd).bind
    intro _
    exact Custody.manages_pure actions fun _ => 0
  | true =>
    apply (keeps_of_leaves (.iterate _ (listRound_issues dirFd handled)) {dirFd}).bind
    intro listed
    have closes : Keeps (ask (.closedir dirFd)) {dirFd} fun _ => 0 :=
      Custody.manages_ask fun _ _ => .returned Bool.false_ne_true rfl rfl
    apply closes.bind
    intro _
    exact Custody.manages_pure listed fun _ => 0

theorem keeps_spawnPosixInternal (opts : SpawnOptions) : Keeps (spawnPosixInternal opts) 0 (onOk heldByDrain) := by
  have quiet : ∀ {α : Type} {q : Prog α} (held : Multiset Nat), q.Issues (isLibcCall · = true) →
      Keeps q held fun _ => held := fun held issues => keeps_of_leaves (issues.mono fun _ => leaves_of_libc) held
  apply (Pipes.keeps_new opts.stdin opts.captureStdout opts.captureStderr).bind
  intro result
  rcases result with e | pipes
  · exact Custody.manages_pure (Except.error e) (onOk heldByDrain)
  apply (quiet pipes.held ((Program.issues_ask _ Call.fileActionsInit).mpr rfl)).bind
  intro answer
  apply Pipes.keeps_orClose
  intro _
  apply (quiet pipes.held (record_issues (pipeActions pipes) [])).bind
  intro recorded
  apply Pipes.keeps_orClose
  intro actions
  refine (keeps_closeListed (handledFds pipes) actions).beside pipes.held (zero_add _).symm fun actions => ?_
  rw [zero_add]
  apply (quiet pipes.held (buildAttr_issues opts.pgroup)).bind
  intro built
  apply Pipes.keeps_orClose
  intro attr
  apply (keeps_of_leaves ((Program.issues_ask _ (Call.posixSpawn ..)).mpr rfl) pipes.held).bind
  intro created
  apply Pipes.keeps_orClose
  intro pid
  exact keeps_drainPipes pipes opts pid

end SpawnPosix

theorem keeps_spawnForkInternal (opts : SpawnOptions) : Keeps (spawnForkInternal opts) 0 (onOk heldByDrain) := by
  apply (Pipes.keeps_new opts.stdin opts.captureStdout opts.captureStderr).bind
  intro result
  rcases result with e | pipes
  · exact Custody.manages_pure (Except.error e) (onOk heldByDrain)
  refine Custody.manages_asked (fun answer _ => .silent (@silent_of_leaves .fork rfl answer) pipes.held)
    fun answer parent => ?_
  rcases answer with e | pid
  · exact pipes.keeps_failing _ heldByDrain
  · have other : pid ≠ 0 := by
      rintro rfl
      exact parent rfl
    simp only [other, ↓reduceIte]
    exact keeps_drainPipes pipes opts pid

theorem keeps_spawnStart (platform : Platform) (opts : SpawnOptions) :
    Keeps (spawnStart platform opts) 0 (onOk heldByDrain) := by
  unfold spawnStart
  split
  · exact Custody.manages_pure (Except.error _) (onOk heldByDrain)
  · cases resolveBackend platform opts with
    | posixSpawn => exact SpawnPosix.keeps_spawnPosixInternal opts
    | fork => exact keeps_spawnForkInternal opts

/-- A table that has open what is held, each once, beside what `T` has. -/
structure Beside {F : Type} (T : Table F) (held : Multiset Nat) (T' : Table F) : Prop where
  distinct : held.Nodup
  fresh : ∀ fd ∈ held, T fd = none ∧ T' fd ≠ none
  same : ∀ fd, fd ∉ held → T' fd = T fd

section
variable {F : Type} {T T₁ T₂ T' : Table F} {held held' rest : Multiset Nat} {t : Trace}

theorem beside_nothing (T : Table F) : Beside T 0 T where
  distinct := Multiset.nodup_zero
  fresh _ member := absurd member (Multiset.notMem_zero _)
  same _ _ := rfl

theorem Beside.eq (beside : Beside T 0 T') : T' = T := by
  funext fd
  exact beside.same fd (Multiset.notMem_zero fd)

theorem Beside.install (beside : Beside T held T') {fd : Nat} (free : T' fd = none) (e : Entry F) :
    Beside T (held + {fd}) (T'.install fd e) := by
  have new : fd ∉ held := fun member => (beside.fresh fd member).2 free
  refine ⟨?_, fun n member => ?_, fun n outside => ?_⟩
  · rw [Multiset.nodup_add]
    exact ⟨beside.distinct, Multiset.nodup_singleton fd, Multiset.disjoint_singleton.mpr new⟩
  · by_cases here : n = fd
    · rw [here, Table.install_self, ← beside.same fd new]
      exact ⟨free, nofun⟩
    · rw [Table.install_of_ne _ _ here]
      rcases Multiset.mem_add.mp member with before | now
      · exact beside.fresh n before
      · exact absurd (Multiset.mem_singleton.mp now) here
  · rw [Multiset.mem_add, not_or, Multiset.mem_singleton] at outside
    rw [Table.install_of_ne _ _ outside.2]
    exact beside.same n outside.1

theorem Beside.close {fd : Nat} (beside : Beside T ({fd} + held) T') : Beside T held (T'.close fd) := by
  have apart := beside.distinct
  rw [Multiset.nodup_add, Multiset.singleton_disjoint] at apart
  refine ⟨apart.2.1, fun n member => ?_, fun n outside => ?_⟩
  · have here : n ≠ fd := by
      rintro rfl
      exact apart.2.2 member
    rw [Table.close_of_ne _ here]
    exact beside.fresh n (Multiset.mem_add.mpr (.inr member))
  · by_cases here : n = fd
    · rw [here, Table.close_self]
      exact (beside.fresh fd (Multiset.mem_add.mpr (.inl (Multiset.mem_singleton_self fd)))).1.symm
    · rw [Table.close_of_ne _ here]
      apply beside.same
      rw [Multiset.mem_add, not_or, Multiset.mem_singleton]
      exact ⟨here, outside⟩

theorem silent_of_leavesTable {e : Event os} (leaves : leavesTable e = true) : opened e = 0 ∧ closed e = 0 := by
  obtain ⟨call, answer⟩ := e
  cases call
  case pipe2 | openProcSelfFd | epollCreate1 | inotifyInit1 | signalfd =>
    cases answer with
    | error => exact ⟨rfl, rfl⟩
    | ok => cases leaves
  all_goals first | exact ⟨rfl, rfl⟩ | cases leaves

theorem Beside.effect {e : Event os} (beside : Beside T (closed e + held) T₁) (known : ¬overwrites e.call = true)
    (effect : Effect T₁ e T₂) : Beside T (held + opened e) T₂ := by
  have none : ∀ {held : Multiset Nat} {T' : Table F}, Beside T (0 + held) T' → Beside T held T' := by
    intro held T' beside
    rwa [zero_add] at beside
  cases effect with
  | epollCreate1 least | openProcSelfFd least | inotifyInit1 least | signalfd least =>
    exact (none beside).install least.1 _
  | @pipe2 flags r w f g e flagged reading writing =>
    have both := ((none beside).install reading.1 e).install writing.1 ⟨g, e.cloexec⟩
    rwa [add_assoc] at both
  | close | closedir =>
    have after := beside.close
    rwa [← add_zero held] at after
  | dup2 | badFd | closeRange => exact absurd rfl known
  | leaves leaves =>
    obtain ⟨nothing, nothing'⟩ := silent_of_leavesTable leaves
    rw [nothing'] at beside
    rw [nothing, add_zero]
    exact none beside

theorem ledger_beside (ledger : descriptors.Ledger held t held') (effects : Effects T₁ t T₂)
    (beside : Beside T held T₁) : Beside T held' T₂ := by
  induction ledger generalizing T₁ with
  | nil =>
    rw [effects_nil effects]
    exact beside
  | cons known _ ih =>
    obtain ⟨T', first, later⟩ := effects_cons effects
    exact ih later (beside.effect known first)

end

structure Piped (t : Trace) (p : Pipes) : Prop where
  stdin : ∀ fd, p.stdinW = some fd → ∃ flags r, (⟨.pipe2 flags, .ok (r, fd.raw)⟩ : Event os) ∈ t
  stdout : ∀ fd, p.stdoutR = some fd → ∃ flags w, (⟨.pipe2 flags, .ok (fd.raw, w)⟩ : Event os) ∈ t
  stderr : ∀ fd, p.stderrR = some fd → ∃ flags w, (⟨.pipe2 flags, .ok (fd.raw, w)⟩ : Event os) ∈ t

theorem exec_pipeIf_ends {wanted : Bool} {r w : Option Fd} {t : Trace}
    (run : Exec (Pipes.pipeIf wanted) t (.done (.ok (r, w)))) :
    (∀ fd, r = some fd → ∃ flags w, (⟨.pipe2 flags, .ok (fd.raw, w)⟩ : Event os) ∈ t) ∧
      ∀ fd, w = some fd → ∃ flags r, (⟨.pipe2 flags, .ok (r, fd.raw)⟩ : Event os) ∈ t := by
  cases wanted with
  | false =>
    simp only [Pipes.pipeIf, Bool.false_eq_true, ↓reduceIte, exec_pure_iff, Outcome.done.injEq, Except.ok.injEq,
      Prod.mk.injEq] at run
    obtain ⟨_, rfl, rfl⟩ := run
    exact ⟨nofun, nofun⟩
  | true =>
    obtain ⟨t₁, made, t₂, rfl, making, rest⟩ := exec_bind_done.mp run
    obtain ⟨answer, t₃, rfl, returned⟩ := Exec.ask_done making
    rcases answer with e | ⟨a, b⟩
    · cases ((exec_pure_iff _ _ _).mp returned).2
      cases ((exec_pure_iff _ _ _).mp rest).2
    · cases ((exec_pure_iff _ _ _).mp returned).2
      cases ((exec_pure_iff _ _ _).mp rest).2
      refine ⟨fun fd same => ?_, fun fd same => ?_⟩
      · cases same
        exact ⟨_, b, List.mem_append_left _ (List.mem_cons_self ..)⟩
      · cases same
        exact ⟨_, a, List.mem_append_left _ (List.mem_cons_self ..)⟩

theorem exec_new_piped {inBuf : Option Bytes} {out err : Bool} {p : Pipes} {t : Trace}
    (run : Exec (Pipes.new inBuf out err) t (.done (.ok p))) : Piped t p := by
  have failed : ∀ {q : Prog Unit} {e : SysError} {t : Trace},
      ¬Exec (q >>= fun _ => pure (.error e)) t (.done (Except.ok p)) := by
    intro q e t run
    obtain ⟨_, _, _, _, _, rest⟩ := exec_bind_done.mp run
    cases ((exec_pure_iff _ _ _).mp rest).2
  obtain ⟨t₁, first, u, rfl, making, run⟩ := exec_bind_done.mp run
  rcases first with e | ⟨stdinR, stdinW⟩
  · cases ((exec_pure_iff _ _ _).mp run).2
  obtain ⟨t₂, second, u, rfl, making', run⟩ := exec_bind_done.mp run
  rcases second with e | ⟨stdoutR, stdoutW⟩
  · simp only [← bind_assoc] at run
    exact absurd run failed
  obtain ⟨t₃, third, u, rfl, making'', run⟩ := exec_bind_done.mp run
  rcases third with e | ⟨stderrR, stderrW⟩
  · simp only [← bind_assoc] at run
    exact absurd run failed
  obtain ⟨rfl, same⟩ := (exec_pure_iff _ _ _).mp run
  cases same
  refine ⟨fun fd same => ?_, fun fd same => ?_, fun fd same => ?_⟩
  · obtain ⟨flags, r, member⟩ := (exec_pipeIf_ends making).2 fd same
    exact ⟨flags, r, List.mem_append_left _ member⟩
  · obtain ⟨flags, w, member⟩ := (exec_pipeIf_ends making').1 fd same
    exact ⟨flags, w, List.mem_append_right _ (List.mem_append_left _ member)⟩
  · obtain ⟨flags, w, member⟩ := (exec_pipeIf_ends making'').1 fd same
    exact ⟨flags, w, List.mem_append_right _ (List.mem_append_right _ (List.mem_append_left _ member))⟩

theorem Piped.mono {t t' : Trace} {p : Pipes} (piped : Piped t p) (inside : t ⊆ t') : Piped t' p where
  stdin fd same := by
    obtain ⟨flags, r, member⟩ := piped.stdin fd same
    exact ⟨flags, r, inside member⟩
  stdout fd same := by
    obtain ⟨flags, w, member⟩ := piped.stdout fd same
    exact ⟨flags, w, inside member⟩
  stderr fd same := by
    obtain ⟨flags, w, member⟩ := piped.stderr fd same
    exact ⟨flags, w, inside member⟩

theorem exec_drainPipes_new {p : Pipes} {opts : SpawnOptions} {pid : Int} {t : Trace} {started : Int × DrainState}
    (run : Exec (drainPipes p opts pid) t (.done (.ok started))) :
    started.1 = pid ∧ ∃ u, Exec (DrainState.new (if opts.stdin.isSome then p.stdinW else none) opts.stdin p.stdoutR
      p.stderrR opts.maxOutput opts.earlyExit) u (.done (.ok started.2)) := by
  obtain ⟨_, _, _, rfl, _, run⟩ := exec_bind_done.mp run
  obtain ⟨_, _, _, rfl, _, run⟩ := exec_bind_done.mp run
  obtain ⟨_, _, _, rfl, _, run⟩ := exec_bind_done.mp run
  have drained : ∀ {u : Trace} {stdinW : Option Fd}
      (rest : Except SysError DrainState → Prog (Except SysError (Int × DrainState))),
      (∀ e, rest (.error e) = pure (.error e)) → (∀ d, rest (.ok d) = pure (.ok (pid, d))) →
      Exec (DrainState.new stdinW opts.stdin p.stdoutR p.stderrR opts.maxOutput opts.earlyExit >>= rest) u
        (.done (.ok started)) →
      started.1 = pid ∧ ∃ u, Exec (DrainState.new stdinW opts.stdin p.stdoutR p.stderrR opts.maxOutput
        opts.earlyExit) u (.done (.ok started.2)) := by
    intro u stdinW rest fails succeeds run
    obtain ⟨_, result, _, rfl, made, returned⟩ := exec_bind_done.mp run
    rcases result with e | d
    · rw [fails] at returned
      cases ((exec_pure_iff _ _ _).mp returned).2
    · rw [succeeds] at returned
      cases ((exec_pure_iff _ _ _).mp returned).2
      exact ⟨rfl, _, made⟩
  by_cases nothing : opts.stdin.isNone = true
  · simp only [nothing, ↓reduceIte] at run
    obtain ⟨_, _, _, rfl, _, run⟩ := exec_bind_done.mp run
    exact drained _ (fun _ => rfl) (fun _ => rfl) run
  · simp only [nothing] at run
    exact drained _ (fun _ => rfl) (fun _ => rfl) run

theorem exec_drainPipes_ok {p : Pipes} {opts : SpawnOptions} {pid pid' : Int} {t : Trace} {drain : DrainState}
    (run : Exec (drainPipes p opts pid) t (.done (.ok (pid', drain)))) :
    drain.stdinSlot = (if opts.stdin.isSome then p.stdinW else none).map (FdSlot.mk none) ∧
      drain.stdoutSlot = p.stdoutR.map (FdSlot.mk none) ∧ drain.stderrSlot = p.stderrR.map (FdSlot.mk none) := by
  obtain ⟨-, u, made⟩ := exec_drainPipes_new run
  have fresh : drain = _ := DrainState.exec_new_ok made
  rw [fresh]
  refine ⟨?_, rfl, rfl⟩
  cases opts.stdin <;> rfl

def OwnsEnd (t : Trace) : Stream → FdSlot → Prop
  | .stdin, slot => ∃ flags r, (⟨.pipe2 flags, .ok (r, slot.fd.raw)⟩ : Event os) ∈ t
  | .stdout, slot | .stderr, slot => ∃ flags w, (⟨.pipe2 flags, .ok (slot.fd.raw, w)⟩ : Event os) ∈ t

theorem ownsEnd_of_started {platform : Platform} {opts : SpawnOptions} {t : Trace} {started : Int × DrainState}
    (run : Exec (spawnStart platform opts) t (.done (.ok started))) {s : Stream} {slot : FdSlot}
    (filled : started.2.slotOf s = some slot) : OwnsEnd t s slot := by
  obtain ⟨t₁, t₂, e, t₃, pipes, pid, rfl, piping, -, draining⟩ := exec_spawnStart_launched run
  obtain ⟨stdin, stdout, stderr⟩ := exec_drainPipes_ok draining
  have piped := (exec_new_piped piping).mono (List.subset_append_left t₁ (t₂ ++ e :: t₃))
  cases s with
  | stdin =>
    have same := stdin.symm.trans filled
    split at same
    · obtain ⟨fd, here, rfl⟩ := Option.map_eq_some_iff.mp same
      exact piped.stdin fd here
    · cases same
  | stdout =>
    obtain ⟨fd, here, rfl⟩ := Option.map_eq_some_iff.mp (stdout.symm.trans filled)
    exact piped.stdout fd here
  | stderr =>
    obtain ⟨fd, here, rfl⟩ := Option.map_eq_some_iff.mp (stderr.symm.trans filled)
    exact piped.stderr fd here

/-- Where the descriptors of a run stand, finished or not. -/
structure NothingLost {F : Type} (T : Table F) (t : Trace) (o : Outcome os (Except SysError (Int × DrainState)))
    (T' : Table F) : Prop where
  failed : ∀ e, o = .done (.error e) → T' = T
  started : ∀ pid drain, o = .done (.ok (pid, drain)) →
    Beside T drain.held T' ∧ ∀ s slot, drain.slotOf s = some slot → OwnsEnd t s slot
  closes : ∀ t₁ e t₂ fd, t = t₁ ++ e :: t₂ → e.call = .close fd ∨ e.call = .closedir fd →
    ∃ T₁, Effects T t₁ T₁ ∧ T₁ fd ≠ none ∧ T fd = none

/-- The parent keeps just the ends that it drains, and closes only what it opened and still has open. -/
theorem spawn_start_loses_nothing {F : Type} {T T' : Table F} {platform : Platform} {opts : SpawnOptions} {t : Trace}
    {o : Outcome os (Except SysError (Int × DrainState))} (run : Exec (spawnStart platform opts) t o)
    (parent : (⟨.fork, .ok 0⟩ : Event os) ∉ t) (effects : Effects T t T') : NothingLost T t o T' := by
  have permitted : ∀ e ∈ t, InParent e := fun e member same => parent (same ▸ member)
  obtain ⟨held, ledger, finished⟩ := keeps_spawnStart platform opts t o run permitted
  have whole := ledger_beside ledger effects (beside_nothing T)
  refine ⟨fun e same => ?_, fun pid drain same => ?_, fun t₁ e t₂ fd split closing => ?_⟩
  · rw [finished _ same] at whole
    exact whole.eq
  · rw [finished _ same] at whole
    subst same
    exact ⟨whole, fun s slot filled => ownsEnd_of_started run filled⟩
  · rw [split] at ledger effects
    obtain ⟨held₁, before, after⟩ := ledger.split
    obtain ⟨T₁, effects₁, _⟩ := effects_append.mp effects
    have here := ledger_beside before effects₁ (beside_nothing T)
    have closed_ : closed e = {fd} := by
      obtain ⟨call, answer⟩ := e
      rcases closing with rfl | rfl
      · rfl
      · rfl
    have returned : {fd} ≤ held₁ := closed_ ▸ after.returns
    have owned := here.fresh fd (Multiset.singleton_le.mp returned)
    exact ⟨T₁, effects₁, owned.2, owned.1⟩

def refusedStart : Trace :=
  (captureStart 0 3 4).drop 2 ++
    [⟨.posixSpawn ⟨[47], slash_no_nul⟩ [.dup2 4 1, .close 4, .close 3] ⟨12, 0, [], [13]⟩
      [some ⟨[47], slash_no_nul⟩, none] none, .error 2⟩, ⟨.close 3, .ok ()⟩, ⟨.close 4, .ok ()⟩]

theorem refused_start_loses_nothing :
    NothingLost standardOnly refusedStart (.done (.error (.sys 2 "posix_spawn")))
      (((standardOnly.install 3 ⟨101, true⟩).install 4 ⟨102, true⟩).close 3 |>.close 4) := by
  have run : Exec (spawnStart .linux capturing) refusedStart (.done (.error (.sys 2 "posix_spawn"))) :=
    .of_replay 9 rfl
  have quiet : ∀ T : Table Nat, Effects T (refusedStart.tail.take 9) T :=
    fun T => effects_of_leaves T (by simp [refusedStart, captureStart, leavesTable])
  have closes : ∀ T : Table Nat, Effects T (refusedStart.drop 10) (T.close 3 |>.close 4) :=
    fun T => .cons (.leaves rfl) (.cons .close (.cons .close (.nil _)))
  have made : standardOnly.Least 3 ∧ (standardOnly.install 3 ⟨101, true⟩).Least 4 := by decide
  exact spawn_start_loses_nothing run (by simp [refusedStart, captureStart])
    (.cons (.pipe2 (g := 102) rfl made.1 made.2) (effects_append.mpr ⟨_, quiet _, closes _⟩))

end CoreShift
