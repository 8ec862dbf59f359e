import CoreShift.Spawn.Faults
import CoreShift.Spawn.Signals

namespace CoreShift

open Interaction

theorem setup_of_loop {c : Call} (loop : WaitLoop.isLoopCall c = true) : isSetupCall c = true := by
  cases c <;> first | rfl | cases loop

theorem setup_of_close {c : Call} (close : isClose c = true) : isSetupCall c = true := by
  cases c <;> first | rfl | cases close

theorem registerWithReactor_issues_of {allowed : Call → Prop}
    (adds : ∀ epfd fd events data, allowed (.epollCtlAdd epfd fd events data))
    (closes : ∀ c, isClose c = true → allowed c) (d : DrainState) (reactor : Reactor) :
    (d.registerWithReactor reactor).Issues allowed := by
  have slots : ∀ (r : Reactor) readable writable slot,
      (DrainState.registerSlot r readable writable slot).Issues allowed := by
    intro r readable writable slot
    cases slot with
    | none => trivial
    | some slot =>
      have adding : (r.add slot.fd readable writable).Issues allowed := by
        refine .bind (.bind ((Program.issues_ask _ _).mpr (adds _ _ _ _)) fun _ => trivial) fun answer => ?_
        rcases answer with e | ⟨⟩ <;> trivial
      refine .bind adding fun answer => ?_
      obtain ⟨r, result⟩ := answer
      rcases result with e | token
      · exact .bind ((drop_closes _).mono closes) fun _ => trivial
      · trivial
  refine .bind (slots _ _ _ _) fun answer => ?_
  obtain ⟨r, slot, result⟩ := answer
  rcases result with e | ⟨⟩
  · trivial
  refine .bind (slots _ _ _ _) fun answer => ?_
  obtain ⟨r, slot, result⟩ := answer
  rcases result with e | ⟨⟩
  · trivial
  · exact .bind (slots _ _ _ _) fun _ => trivial

theorem registerWithReactor_issues (d : DrainState) (reactor : Reactor) :
    (d.registerWithReactor reactor).Issues (isSetupCall · = true) :=
  registerWithReactor_issues_of (fun _ _ _ _ => rfl) (fun _ => setup_of_close) d reactor

theorem settle_issues (opts : SpawnOptions) (reactor : Reactor) (started : Except SysError (Int × DrainState)) :
    (settle opts reactor started).Issues (isSetupCall · = true) := by
  have reactors : ∀ r : Reactor, r.drop.Issues (isSetupCall · = true) :=
    fun r => (reactor_drop_closes r).mono fun _ => setup_of_close
  have drains : ∀ d : DrainState, d.drop.Issues (isSetupCall · = true) :=
    fun d => (DrainState.drop_closes d).mono fun _ => setup_of_close
  rcases started with e | ⟨pid, drain⟩
  · exact .bind (reactors _) fun _ => trivial
  refine .bind (registerWithReactor_issues _ _) fun answer => ?_
  obtain ⟨drain, reactor, result⟩ := answer
  rcases result with e | ⟨⟩
  · exact .bind (drains _) fun _ => .bind (reactors _) fun _ => trivial
  · show (if !opts.wait then _ else _ : Prog (Except SysError Output)).Issues _
    split
    · exact .bind (.bind (drains _) fun _ => trivial) fun _ => .bind (reactors _) fun _ => trivial
    · exact (WaitLoop.waitLoop_issues _ _ _).mono fun _ => setup_of_loop

namespace SpawnFork

theorem exit_returns {α : Type} (status : Int) (good : α → Prop) : (exit status : Prog α).Returns good :=
  fun never => nomatch never

theorem child_returns {α : Type} (opts : SpawnOptions) (pipes : Pipes) :
    (child opts pipes : Prog α).Returns fun _ => False := by
  have launched : (launch opts : Prog α).Returns fun _ => False := by
    unfold launch
    cases leader : opts.pgroup.leader with
    | none => exact .bind fun _ => .bind fun _ => .bind fun _ => exit_returns _ _
    | some pg => exact .bind fun _ => .bind fun _ => .bind fun _ => .bind fun _ => exit_returns _ _
  have entered : (enter opts : Prog α).Returns fun _ => False := by
    have started : ∀ answer, (launchOrExit opts answer : Prog α).Returns fun _ => False := by
      intro answer
      rcases answer with e | ⟨⟩
      · exact exit_returns _ _
      · exact launched
    unfold enter
    cases cwd : opts.ctx.cwd with
    | none => exact .bind started
    | some cwd => exact .bind started
  unfold child
  refine .bind fun _ => ?_
  by_cases isolated : opts.pgroup.isolated = true
  · simp only [isolated, ↓reduceIte]
    exact .bind fun _ => entered
  · simp only [isolated, Bool.false_eq_true, ↓reduceIte]
    exact entered

end SpawnFork

/-- How a backend creates the child, once the pipes are there: what it does before, and the exchange itself. -/
inductive Launches (platform : Platform) (opts : SpawnOptions) (p : Pipes) (t₁ : Trace) :
    Trace → Event os → Int → Prop where
  | posixSpawn {t₂ : Trace} {actions : List FileAction} {attr : SpawnAttr} {pid : Int}
      (backend : resolveBackend platform opts = .posixSpawn)
      (prepared : SpawnPosix.Prepared opts p actions attr (t₁ ++ t₂)) :
      Launches platform opts p t₁ t₂
        ⟨.posixSpawn opts.ctx.exePtr actions attr opts.ctx.getArgvPtrs opts.ctx.getEnvpPtrs, .ok pid⟩ pid
  | fork {pid : Int} (backend : resolveBackend platform opts = .fork) (parent : pid ≠ 0) :
      Launches platform opts p t₁ [] ⟨.fork, .ok pid⟩ pid

section
variable {platform : Platform} {opts : SpawnOptions} {p : Pipes} {t t₁ t₂ : Trace} {e : Event os} {pid : Int}

theorem Launches.creates (launches : Launches platform opts p t₁ t₂ e pid) : createdBy e = some pid := by
  cases launches with
  | posixSpawn => rfl
  | fork backend parent => exact if_neg parent

theorem exec_spawnStart_launched {started : Int × DrainState}
    (run : Exec (spawnStart platform opts) t (.done (.ok started))) :
    ∃ t₁ t₂ e t₃ p pid, t = t₁ ++ (t₂ ++ e :: t₃) ∧
      Exec (Pipes.new opts.stdin opts.captureStdout opts.captureStderr) t₁ (.done (.ok p)) ∧
      Launches platform opts p t₁ t₂ e pid ∧ Exec (drainPipes p opts pid) t₃ (.done (.ok started)) := by
  have closing : ∀ {p : Pipes} {e : SysError} {u : Trace},
      ¬Exec (p.closeAll >>= fun _ => pure (.error e)) u (.done (Except.ok started)) := by
    intro p e u run
    obtain ⟨_, _, _, _, _, rest⟩ := exec_bind_done.mp run
    cases ((exec_pure_iff _ _ _).mp rest).2
  unfold spawnStart at run
  split at run
  · cases ((exec_pure_iff _ _ _).mp run).2
  · split at run
    · rename_i backend
      rcases exec_spawnPosix_launch run with setup | ⟨t₁, u, pipes, actions, attr, rfl, prepared, launching⟩
      · exact absurd rfl (setup.fails started)
      · obtain ⟨created, u', rfl, spawned⟩ := launching.ask_done
        rcases created with e | pid
        · exact absurd spawned closing
        · cases prepared with
          | steps piped recording listing building =>
            refine ⟨_, _, _, u', pipes, pid, ?_, piped, .posixSpawn backend (.steps piped recording listing building),
              spawned⟩
            rw [List.append_assoc]
    · rename_i backend
      obtain ⟨t₁, result, u, rfl, piped, rest⟩ := exec_bind_done.mp run
      rcases result with e | pipes
      · cases ((exec_pure_iff _ _ _).mp rest).2
      · obtain ⟨answer, u', rfl, forked⟩ := rest.ask_done
        rcases answer with e | pid
        · exact absurd forked closing
        · by_cases child : pid = 0
          · simp only [child, ↓reduceIte] at forked
            exact (forked.returns (SpawnFork.child_returns _ _)).elim
          · simp only [child, ↓reduceIte] at forked
            exact ⟨t₁, [], _, u', pipes, pid, rfl, piped, .fork backend child, forked⟩

end

theorem exec_spawnStart_done {platform : Platform} {opts : SpawnOptions} {t : Trace}
    {result : Except SysError (Int × DrainState)} (run : Exec (spawnStart platform opts) t (.done result)) :
    (∀ e ∈ t, createdBy e = none) ∨
      ∃ t₁ t₂ created pid pipes, t = t₁ ++ created :: t₂ ∧ createdBy created = some pid ∧
        (∀ e ∈ t₁, createdBy e = none) ∧ Exec (drainPipes pipes opts pid) t₂ (.done result) := by
  unfold spawnStart at run
  split at run
  · obtain ⟨rfl, -⟩ := (exec_pure_iff _ _ _).mp run
    exact .inl (by simp)
  · split at run
    · rcases exec_spawnPosix run with quiet | ⟨t₁, t₂, pipes, actions, attr, pid, prepared, rfl, drained⟩
      · exact .inl quiet
      · exact .inr ⟨t₁, t₂, _, pid, pipes, rfl, rfl, prepared.uncreated, drained⟩
    · rcases exec_spawnFork run with quiet | ⟨t₁, t₂, pipes, pid, rfl, piping, ⟨rfl, child⟩ | ⟨parent, drained⟩⟩
      · exact .inl fun e member => (quiet e member).1
      · exact (child.returns (SpawnFork.child_returns _ _)).elim
      · have before := uncreated_of_issues (Pipes.new_issues _ _ _) piping
        exact .inr ⟨t₁, t₂, _, pid, pipes, rfl, if_neg parent, before, drained⟩

theorem exec_spawn_created {platform : Platform} {opts : SpawnOptions} {before after : Trace} {created : Event os}
    {pid : Int} {result : Except SysError Output} (creates : createdBy created = some pid)
    (run : Exec (spawn platform opts) (before ++ created :: after) (.done result)) :
    ∃ pipes reactor, Exec (drainPipes pipes opts pid >>= settle opts reactor) after (.done result) := by
  have absent : ∀ {u : Trace}, (∀ e ∈ u, createdBy e = none) → created ∉ u := by
    intro u quiet member
    simp [quiet created member] at creates
  have reactors : Reactor.new.Issues (isSetupCall · = true) := reactor_new_issues_of rfl rfl
  have member : created ∈ before ++ created :: after := List.mem_append_right _ (List.mem_cons_self ..)
  obtain ⟨r, made, u, split, making, rest⟩ := exec_bind_done.mp run
  have quiet := uncreated_of_issues reactors making
  rcases made with e | reactor
  · obtain ⟨rfl, -⟩ := (exec_pure_iff _ _ _).mp rest
    rw [split, List.append_nil] at member
    exact absurd member (absent quiet)
  obtain ⟨s, started, v, rfl, starting, settling⟩ := exec_bind_done.mp rest
  have settled := uncreated_of_issues (settle_issues _ _ _) settling
  rcases exec_spawnStart_done starting with none | ⟨s₁, s₂, created', pid', pipes, rfl, creates', first, drained⟩
  · rw [split, List.mem_append, List.mem_append] at member
    exact absurd member (by simp [absent quiet, absent none, absent settled])
  · have drains := uncreated_of_issues (drainPipes_issues _ _ _) drained
    have same : (r ++ s₁) ++ created' :: (s₂ ++ v) = before ++ created :: after := by
      rw [split]
      simp
    have left : created ∉ r ++ s₁ := by simp [absent quiet, absent first]
    have right : created ∉ s₂ ++ v := by simp [absent drains, absent settled]
    obtain ⟨-, rfl, rfl⟩ := (List.append_cons_inj_of_notMem left right).mp same
    cases creates.symm.trans creates'
    exact ⟨pipes, reactor, drained.bind_done settling⟩

theorem drainPipes_sound (pipes : Pipes) (opts : SpawnOptions) (pid : Int) :
    Sound Fails (drainPipes pipes opts pid) := by
  have drops : ∀ fd, (dropFd fd).Issues (mayFail · = false) :=
    fun fd => (dropFd_closes fd).mono fun _ => harmless_of_close
  refine sound_after (drops _) fun _ => sound_after (drops _) fun _ => sound_after (drops _) fun _ => ?_
  by_cases nothing : opts.stdin.isNone = true
  · simp only [nothing, ↓reduceIte]
    exact sound_after (drops _) fun _ => (DrainState.new_sound _ _ _ _ _ _).andThen
      (fun _ => failsOn_pure (not_fails_ok _)) (fun _ => trivial) fun e => fails_error e
  · simp only [nothing]
    exact (DrainState.new_sound _ _ _ _ _ _).andThen (fun _ => failsOn_pure (not_fails_ok _)) (fun _ => trivial)
      fun e => fails_error e

theorem settle_sound {opts : SpawnOptions} (waits : opts.wait = true) (reactor : Reactor) (pid : Int)
    (drain : DrainState) : Sound Fails (settle opts reactor (.ok (pid, drain))) := by
  refine (DrainState.registerWithReactor_sound _ _).andThenLast (fun drain reactor ⟨⟩ => ?_) (fun _ _ e => ?_)
    fun _ _ e => ?_
  · show Sound Fails (if !opts.wait then _ else _ : Prog (Except SysError Output))
    simp only [waits, Bool.not_true, Bool.false_eq_true, ↓reduceIte]
    exact WaitLoop.waitLoop_sound _ _ _
  · exact .bind (DrainState.drop_closes _) fun _ => .bind (reactor_drop_closes _) fun _ => trivial
  · exact .bind fun _ => .bind fun _ => fails_error e

def goneBy (pid : Int) : Event os → Bool
  | ⟨.waitpidNoHang pid', .error e⟩ | ⟨.waitpid pid', .error e⟩ => pid' = pid ∧ e = ECHILD
  | _ => false

def Reaped (pid : Int) (t : Trace) : Prop := statuses pid t ≠ [] ∨ ∃ e ∈ t, goneBy pid e = true

theorem isFault_of_gone {pid : Int} {e : Event os} (gone : goneBy pid e = true) : isFault e = true := by
  obtain ⟨call, answer⟩ := e
  cases call
  case waitpidNoHang =>
    rcases answer with e | status
    · have missing : e = ECHILD := by
        simp only [goneBy, decide_eq_true_eq] at gone
        exact gone.2
      simp [isFault_waitpidNoHang, missing, ECHILD, EINTR]
    · cases gone
  case waitpid =>
    rcases answer with e | status
    · have missing : e = ECHILD := by
        simp only [goneBy, decide_eq_true_eq] at gone
        exact gone.2
      simp [isFault_waitpid, missing, ECHILD, EINTR]
    · cases gone
  all_goals cases gone

theorem statusBy_of_fault {pid : Int} {e : Event os} (fault : isFault e = true) : statusBy pid e = [] := by
  obtain ⟨call, answer⟩ := e
  cases call
  case waitpidNoHang =>
    rcases answer with e | status
    · rfl
    · cases fault
  case waitpid =>
    rcases answer with e | status
    · rfl
    · cases fault
  all_goals rfl

theorem not_fault_of_close {e : Event os} (close : isClose e.call = true) : isFault e = false := by
  obtain ⟨call, answer⟩ := e
  cases call <;> first | rfl | cases close

/-- Everything that fails, other than a `waitpid` without a child, fails after the child's status. -/
def FailsAfterStatus (pid : Int) (t : Trace) : Prop :=
  Guarded (fun before => statuses pid before ≠ []) (fun e => isFault e = true ∧ goneBy pid e = false) t

/-- When `spawn` fails after it has created a child, the child is reaped if and only if what failed is
    a `waitpid` without a child, or failed after the status of the child was collected. -/
theorem reaped_on_failure_iff {platform : Platform} {opts : SpawnOptions} {before after : Trace}
    {created : Event os} {pid : Int} {e : SysError} (waits : opts.wait = true) (creates : createdBy created = some pid)
    (run : Exec (spawn platform opts) (before ++ created :: after) (.done (.error e))) :
    Reaped pid after ↔ FailsAfterStatus pid after := by
  obtain ⟨pipes, reactor, rest⟩ := exec_spawn_created creates run
  have sound : Sound Fails (drainPipes pipes opts pid >>= settle opts reactor) := by
    refine (drainPipes_sound _ _ _).andThen (fun started => settle_sound waits _ _ _) (fun e => ?_) fun e => ?_
    · exact .bind (reactor_drop_closes _) fun _ => trivial
    · exact .bind fun _ => fails_error e
  obtain ⟨b, f, a, rfl, clean, fault, closes⟩ := (sound _ _ rest).1 (fails_error e)
  have quiet : ∀ e ∈ a, isFault e = false := fun e member => not_fault_of_close (closes e member)
  apply Iff.intro
  · intro reaped b' f' a' same fails
    obtain ⟨fault', other⟩ := fails
    -- there is only one fault in the run
    have left : f' ∉ b := fun member => clean f' member fault'
    have right : f' ∉ a := fun member => by simp [quiet f' member] at fault'
    obtain ⟨rfl, rfl, rfl⟩ := (List.append_cons_inj_of_notMem left right).mp same
    rcases reaped with collected | ⟨e, member, gone⟩
    · have silent : statuses pid a = [] := by
        refine statuses_of_forall fun e member => ?_
        have close := closes e member
        obtain ⟨call, answer⟩ := e
        cases call <;> first | rfl | cases close
      rw [statuses_append, statuses_cons, statusBy_of_fault fault, silent] at collected
      simpa using collected
    · rcases List.mem_append.mp member with member | member
      · exact absurd (isFault_of_gone gone) (clean e member)
      rcases List.mem_cons.mp member with rfl | member
      · simp [gone] at other
      · have fault' := isFault_of_gone gone
        simp [quiet e member] at fault'
  · intro condition
    by_cases gone : goneBy pid f = true
    · exact .inr ⟨f, by simp, gone⟩
    · have collected := condition b f a rfl ⟨fault, Bool.eq_false_iff.mpr gone⟩
      left
      rw [statuses_append]
      simp [collected]

def capturing : SpawnOptions :=
  { ctx := ⟨[⟨[47], slash_no_nul⟩], none, none, slash_nonempty⟩
    stdin := none
    captureStdout := true
    captureStderr := false
    wait := true
    pgroup := ⟨none, false⟩
    maxOutput := 16
    timeoutMs := none
    killGraceMs := 0
    cancel := .none
    backend := .auto
    earlyExit := false }

def capturingStart : Trace :=
  [⟨.epollCreate1, .ok 3⟩, ⟨.reserve 0 0 64, ⟨64, WaitLoop.room_for_events⟩⟩, ⟨.pipe2 0o2004000, .ok (4, 5)⟩,
    ⟨.fileActionsInit, .ok ()⟩, ⟨.fileActionsAddDup2 5 1, .ok ()⟩, ⟨.fileActionsAddClose 5, .ok ()⟩,
    ⟨.fileActionsAddClose 4, .ok ()⟩, ⟨.openProcSelfFd, .error 2⟩, ⟨.spawnattrInit, .ok ()⟩,
    ⟨.spawnattrSetflags 12, .ok ()⟩, ⟨.spawnattrSetsigmask [], .ok ()⟩, ⟨.spawnattrSetsigdefault [13], .ok ()⟩]

def capturingChild : Event os :=
  ⟨.posixSpawn ⟨[47], slash_no_nul⟩ [.dup2 5 1, .close 5, .close 4] ⟨12, 0, [], [13]⟩
    [some ⟨[47], slash_no_nul⟩, none] none, .ok 42⟩

theorem reaped_before_failure :
    ∃ after, Exec (spawn .linux capturing) (capturingStart ++ capturingChild :: after)
      (.done (.error (.syscall 12 "epoll_wait"))) ∧ Reaped 42 after := by
  have run : Exec (spawn .linux capturing) (capturingStart ++ capturingChild ::
      [⟨.close 5, .ok ()⟩, ⟨.fcntlGetFl 4, .ok 0⟩, ⟨.fcntlSetFl 4 0o4000, .ok ()⟩,
        ⟨.epollCtlAdd 3 4 0x80000001 1, .ok ()⟩, ⟨.waitpidNoHang 42, .ok (some 0)⟩, ⟨.instantNow, (0 : Nat)⟩,
        ⟨.reserve 0 0 64, ⟨64, WaitLoop.room_for_events⟩⟩, ⟨.epollWait 3 64 1, .error 12⟩, ⟨.close 3, .ok ()⟩,
        ⟨.close 4, .ok ()⟩])
      (.done (.error (.syscall 12 "epoll_wait"))) := .of_replay 3 rfl
  refine ⟨_, run, (reaped_on_failure_iff rfl rfl run).mpr ?_⟩
  simp [FailsAfterStatus, isFault, statusBy]

/-- The registration fails, and the child is left running. -/
theorem orphan_after_failed_registration :
    ¬∀ (platform : Platform) (opts : SpawnOptions) (before after : Trace) (created : Event os) (pid : Int)
      (e : SysError), opts.wait = true → createdBy created = some pid →
      Exec (spawn platform opts) (before ++ created :: after) (.done (.error e)) → Reaped pid after := by
  intro reaps
  have run : Exec (spawn .linux capturing) (capturingStart ++ capturingChild ::
      [⟨.close 5, .ok ()⟩, ⟨.fcntlGetFl 4, .ok 0⟩, ⟨.fcntlSetFl 4 0o4000, .ok ()⟩,
        ⟨.epollCtlAdd 3 4 0x80000001 1, .error 28⟩, ⟨.close 4, .ok ()⟩, ⟨.close 3, .ok ()⟩])
      (.done (.error (.syscall 28 "epoll_ctl_add"))) := .of_replay 3 rfl
  rcases reaps _ _ _ _ _ _ _ rfl rfl run with collected | ⟨e, member, gone⟩
  · exact collected rfl
  · have all : ∀ e ∈ ([⟨.close 5, .ok ()⟩, ⟨.fcntlGetFl 4, .ok 0⟩, ⟨.fcntlSetFl 4 0o4000, .ok ()⟩,
        ⟨.epollCtlAdd 3 4 0x80000001 1, .error 28⟩, ⟨.close 4, .ok ()⟩, ⟨.close 3, .ok ()⟩] : Trace),
        goneBy 42 e = false := by simp [goneBy]
    simp [all e member] at gone

end CoreShift
