import CoreShift.Interaction.Borrowing
import CoreShift.Spawn.Leak
import CoreShift.Spawn.Readiness
import CoreShift.Spawn.StartCalls

namespace CoreShift

open Interaction Descriptors

def touched : Call → Multiset Nat
  | .read fd _ | .write fd _ => {fd}
  | .epollCtlAdd epfd fd _ _ | .epollCtlDel epfd fd => {epfd} + {fd}
  | .epollWait epfd _ _ => {epfd}
  | _ => 0

def accounts : Custody os Nat := descriptors.lending touched

abbrev Tends {α : Type} (p : Prog α) (held : Multiset Nat) (left : α → Multiset Nat) : Prop :=
  accounts.Manages InParent p held left

section
variable {α : Type} {p : Prog α} {held : Multiset Nat} {left : α → Multiset Nat}

theorem tends_pure {value : α} (same : left value = held) : Tends (pure value) held left :=
  (Custody.manages_pure value left).congr same.symm fun _ => rfl

theorem tends_of_keeps (keeps : Keeps p held left) (untouched : p.Issues (touched · = 0)) : Tends p held left :=
  keeps.lend untouched

theorem untouched_of_start {c : Call} (start : isStartCall c = true) : touched c = 0 := by
  cases c <;> first | rfl | cases start

theorem untouched_of_close {c : Call} (close : isClose c = true) : touched c = 0 :=
  untouched_of_start (start_of_close close)

theorem tends_of_closes (keeps : Keeps p held left) (closes : p.Issues (isClose · = true)) : Tends p held left :=
  tends_of_keeps keeps (closes.mono fun _ => untouched_of_close)

def Within (held : Multiset Nat) (c : Call) : Prop := leavesCall c = true ∧ touched c ≤ held

theorem tends_within (issues : p.Issues (Within held)) : Tends p held fun _ => held :=
  Custody.manages_of_borrows (issues.mono fun _ within answer => ⟨silent_of_leaves within.1 answer, within.2⟩)

theorem tends_result (tends : Tends p held fun _ => held)
    (same : ∀ t value, Exec p t (.done value) → left value = held) : Tends p held left := by
  intro t o run parent
  obtain ⟨after, ledger, done⟩ := tends t o run parent
  refine ⟨after, ledger, fun value finished => ?_⟩
  rw [done value finished, same t value (finished ▸ run)]

theorem within_elsewhere {c : Call} (held : Multiset Nat) (elsewhere : Kernel.isElsewhere c = true) :
    Within held c := by
  have both : leavesCall c = true ∧ touched c = 0 := by
    cases c <;> first | exact ⟨rfl, rfl⟩ | cases elsewhere
  refine ⟨both.1, ?_⟩
  rw [both.2]
  exact Multiset.zero_le held

theorem tends_elsewhere (issues : p.Issues (Kernel.isElsewhere · = true)) (held : Multiset Nat) :
    Tends p held fun _ => held :=
  tends_within (issues.mono fun _ => within_elsewhere held)

end

theorem tends_drop (fd : Fd) : Tends fd.drop {fd.raw} fun _ => 0 := tends_of_closes (keeps_drop fd) (drop_closes fd)

namespace Reactor

def held (r : Reactor) : Multiset Nat := {r.epfd} + heldFd r.signalfd

theorem tends_new : Tends Reactor.new 0 (onOk held) := by
  have asked : Keeps (ask .epollCreate1) 0 fun answer => opened ⟨.epollCreate1, answer⟩ :=
    Custody.manages_ask fun _ _ => .created Bool.false_ne_true rfl rfl
  apply (tends_of_keeps asked ((Program.issues_ask _ _).mpr rfl)).bind
  intro answer
  rcases answer with e | epfd
  · exact tends_pure rfl
  · apply (tends_elsewhere ((Program.issues_ask _ _).mpr rfl) {epfd}).bind
    intro capacity
    exact tends_pure (add_zero _)

theorem tends_drop (r : Reactor) : Tends r.drop r.held fun _ => 0 := by
  have closes := (keeps_close r.epfd).before fun _ => keeps_dropFd r.signalfd
  exact tends_of_closes closes (reactor_drop_closes r)

theorem tends_add (r : Reactor) (fd : Fd) (readable writable : Bool) :
    Tends (r.add fd readable writable) (r.held + {fd.raw}) fun added => added.1.held + {fd.raw} := by
  have within : (r.add fd readable writable).Issues (Within (r.held + {fd.raw})) := by
    refine .bind (.bind ((Program.issues_ask _ _).mpr ⟨rfl, ?_⟩) fun _ => trivial) fun result => ?_
    · show {r.epfd} + {fd.raw} ≤ r.held + {fd.raw}
      exact Multiset.add_le_add_right (Multiset.le_add_right _ _)
    · rcases result with e | ⟨⟩ <;> trivial
  apply tends_result (tends_within within)
  intro t added run
  obtain ⟨advanced, _⟩ := exec_add run
  rw [advanced]
  rfl

theorem tends_wait (r : Reactor) (buffer : RoomyVec Event) (maxEvents : Nat) (timeout : Int) :
    Tends (r.wait buffer maxEvents timeout) r.held fun waited => waited.1.held := by
  have roomy : ∀ {α : Type} (v : RoomyVec α), (v.reserveFor maxEvents).Issues (Kernel.isElsewhere · = true) := by
    intro α v
    unfold RoomyVec.reserveFor
    split
    · exact .bind ((Program.issues_ask _ _).mpr rfl) fun _ => trivial
    · trivial
  unfold wait
  split
  · exact tends_pure rfl
  · apply (tends_elsewhere (roomy _) _).bind
    intro given
    apply (tends_elsewhere (roomy _) _).bind
    intro eventsBuf
    have within : Within r.held (.epollWait r.epfd (asI32 maxEvents) timeout) := ⟨rfl, Multiset.le_add_right _ _⟩
    apply (tends_within ((Program.issues_ask _ _).mpr within)).bind
    intro answer
    rcases answer with e | ready
    · show Tends (if e = EINTR then _ else _) _ _
      split
      · exact tends_pure rfl
      · exact tends_pure rfl
    · show Tends (if 0 < ready.val.length then _ else _) _ _
      split
      · exact tends_pure rfl
      · exact tends_pure rfl

end Reactor

namespace DrainState

theorem tends_registerSlot (reactor : Reactor) (readable writable : Bool) (slot : Option FdSlot) :
    Tends (registerSlot reactor readable writable slot) (reactor.held + heldSlot slot)
      fun registered => registered.1.held + heldSlot registered.2.1 := by
  cases slot with
  | none => exact tends_pure rfl
  | some slot =>
    apply (reactor.tends_add slot.fd readable writable).bind
    intro added
    obtain ⟨reactor', result⟩ := added
    rcases result with e | token
    · exact (tends_drop slot.fd).beside reactor'.held (add_comm _ _) fun _ => tends_pure (add_comm _ _)
    · exact tends_pure rfl

theorem tends_registerWithReactor (d : DrainState) (reactor : Reactor) :
    Tends (d.registerWithReactor reactor) (reactor.held + d.held) fun registered =>
      registered.2.1.held + registered.1.held := by
  refine (tends_registerSlot reactor false true d.stdinSlot).beside (heldSlot d.stdoutSlot + heldSlot d.stderrSlot)
    (by unfold held; abel) fun registered => ?_
  obtain ⟨reactor, stdinSlot, result⟩ := registered
  rcases result with e | ⟨⟩
  · exact tends_pure (by unfold held; abel)
  refine (tends_registerSlot reactor true false d.stdoutSlot).beside (heldSlot stdinSlot + heldSlot d.stderrSlot)
    (by dsimp only; abel) fun registered => ?_
  obtain ⟨reactor, stdoutSlot, result⟩ := registered
  rcases result with e | ⟨⟩
  · exact tends_pure (by unfold held; abel)
  refine (tends_registerSlot reactor true false d.stderrSlot).beside (heldSlot stdinSlot + heldSlot stdoutSlot)
    (by dsimp only; abel) fun registered => ?_
  exact tends_pure (by unfold held; abel)

theorem tends_dropAll (d : DrainState) : Tends d.drop d.held fun _ => 0 := by
  have drops := (keeps_dropSlot d.stdoutSlot).before fun _ => (keeps_dropSlot d.stderrSlot).before fun _ =>
    keeps_dropSlot d.stdinSlot
  apply tends_of_closes _ (drop_closes d)
  apply drops.congr _ fun _ => rfl
  unfold held
  abel

theorem tends_release (reactor : Reactor) (slot : FdSlot) :
    Tends (release reactor slot) (reactor.held + {slot.fd.raw}) fun _ => reactor.held := by
  have within : Within (reactor.held + {slot.fd.raw}) (.epollCtlDel reactor.epfd slot.fd.raw) :=
    ⟨rfl, Multiset.add_le_add_right (Multiset.le_add_right _ _)⟩
  have deletes : Tends (reactor.del slot.fd) (reactor.held + {slot.fd.raw}) fun _ => reactor.held + {slot.fd.raw} :=
    tends_within (.bind ((Program.issues_ask _ _).mpr within) fun _ => trivial)
  apply deletes.bind
  intro _
  apply ((tends_drop slot.fd).frame reactor.held).congr (add_comm _ _)
  intro _
  exact (zero_add _).symm

theorem held_out {d : DrainState} {isStdout : Bool} {slot : FdSlot} (filled : d.outSlot isStdout = some slot) :
    d.held = (d.clearOut isStdout).held + {slot.fd.raw} := by
  have only : heldSlot (d.outSlot isStdout) = {slot.fd.raw} := by
    rw [filled]
    rfl
  rw [← only]
  cases isStdout
  · show _ = heldSlot d.stdinSlot + heldSlot d.stdoutSlot + 0 + heldSlot d.stderrSlot
    rw [add_zero]
    rfl
  · show _ = heldSlot d.stdinSlot + 0 + heldSlot d.stderrSlot + heldSlot d.stdoutSlot
    unfold held
    abel

theorem held_stdin {d : DrainState} {slot : FdSlot} (filled : d.stdinSlot = some slot) (writer : WriterState) :
    d.held = held { d with stdinSlot := none, writer } + {slot.fd.raw} := by
  have only : heldSlot d.stdinSlot = {slot.fd.raw} := by
    rw [filled]
    rfl
  rw [← only]
  show _ = 0 + heldSlot d.stdoutSlot + heldSlot d.stderrSlot + heldSlot d.stdinSlot
  unfold held
  abel

theorem tends_dropOut (d : DrainState) (isStdout : Bool) (reactor : Reactor) :
    Tends (d.dropOut isStdout reactor) (reactor.held + d.held) fun d' => reactor.held + d'.held := by
  unfold dropOut
  split
  · exact tends_pure rfl
  · rename_i slot filled
    rw [held_out filled]
    exact (tends_release reactor slot).beside (d.clearOut isStdout).held (by abel) fun _ => tends_pure rfl

theorem tends_dropStdin (d : DrainState) (reactor : Reactor) :
    Tends (d.dropStdin reactor) (reactor.held + d.held) fun d' => reactor.held + d'.held := by
  unfold dropStdin
  split
  · exact tends_pure rfl
  · rename_i slot filled
    rw [held_stdin filled { d.writer with buf := none }]
    exact (tends_release reactor slot).beside
      (held { d with stdinSlot := none, writer := { d.writer with buf := none } })
      (by abel) fun _ => tends_pure rfl

theorem touches_slot {d : DrainState} {slot : FdSlot} {other : Multiset Nat} (part : {slot.fd.raw} ≤ d.held) {c : Call}
    (concerns : leavesCall c = true ∧ (touched c = {slot.fd.raw} ∨ touched c = 0)) :
    Within (other + d.held) c := by
  refine ⟨concerns.1, ?_⟩
  rcases concerns.2 with one | none
  · rw [one]
    exact part.trans (Multiset.le_add_left _ _)
  · rw [none]
    exact Multiset.zero_le _

theorem tends_handleOutReady (d : DrainState) (isStdout : Bool) (reactor : Reactor) :
    Tends (d.handleOutReady isStdout reactor) (reactor.held + d.held) fun step => reactor.held + step.1.held := by
  unfold handleOutReady
  split
  · exact tends_pure rfl
  · rename_i slot filled
    have part : {slot.fd.raw} ≤ d.held := by
      rw [held_out filled]
      exact Multiset.le_add_left _ _
    have reads : (d.buffer.readFromFd slot.fd isStdout d.earlyExit).Issues (Within (reactor.held + d.held)) :=
      BufferState.readFromFd_issues_of (fun _ => touches_slot part ⟨rfl, .inl rfl⟩)
        fun _ _ => touches_slot part ⟨rfl, .inr rfl⟩
    apply (tends_within reads).bind
    intro answer
    obtain ⟨buffer, result⟩ := answer
    rcases result with e | eof
    · exact tends_pure rfl
    · cases eof with
      | false => exact tends_pure rfl
      | true =>
        apply (tends_dropOut { d with buffer } isStdout reactor).bind
        intro d'
        exact tends_pure rfl

theorem tends_handleStdinWritable (d : DrainState) (reactor : Reactor) :
    Tends (d.handleStdinWritable reactor) (reactor.held + d.held) fun step => reactor.held + step.1.held := by
  unfold handleStdinWritable
  split
  · exact tends_pure rfl
  · rename_i slot filled
    have part : {slot.fd.raw} ≤ d.held := by
      rw [held_stdin filled d.writer]
      exact Multiset.le_add_left _ _
    have writes : (d.writer.writeToFd slot.fd).Issues (Within (reactor.held + d.held)) := by
      apply (WriterState.writeToFd_issues _ _).mono
      intro c write
      obtain ⟨bytes, same⟩ := write
      rw [same]
      exact touches_slot part ⟨rfl, .inl rfl⟩
    apply (tends_within writes).bind
    intro answer
    obtain ⟨writer, result⟩ := answer
    rcases result with e | done
    · exact tends_pure rfl
    · cases done with
      | false => exact tends_pure rfl
      | true =>
        apply (tends_dropStdin { d with writer } reactor).bind
        intro d'
        exact tends_pure rfl

end DrainState

def LoopState.held (st : LoopState) : Multiset Nat := st.reactor.held + st.drain.held

namespace WaitLoop

open DrainState

theorem tends_handleEvent (reactor : Reactor) (d : DrainState) (ev : Reactor.Event) :
    Tends (handleEvent reactor d ev) (reactor.held + d.held) fun step => reactor.held + step.1.held := by
  have dropped : ∀ isStdout, Tends (d.dropOut isStdout reactor >>= fun d' => pure (d', (.ok () : Except SysError Unit)))
      (reactor.held + d.held) fun step => reactor.held + step.1.held := by
    intro isStdout
    apply (tends_dropOut d isStdout reactor).bind
    intro d'
    exact tends_pure rfl
  unfold handleEvent
  split
  · split
    · exact tends_handleOutReady d true reactor
    · split
      · exact dropped true
      · exact tends_pure rfl
  · split
    · split
      · exact tends_handleOutReady d false reactor
      · split
        · exact dropped false
        · exact tends_pure rfl
    · split
      · split
        · exact tends_handleStdinWritable d reactor
        · split
          · apply (tends_dropStdin d reactor).bind
            intro d'
            exact tends_pure rfl
          · exact tends_pure rfl
      · exact tends_pure rfl

theorem tends_dispatch (reactor : Reactor) (d : DrainState) (events : List Reactor.Event) :
    Tends (dispatch reactor d events) (reactor.held + d.held) fun step => reactor.held + step.1.held := by
  induction events generalizing d with
  | nil => exact tends_pure rfl
  | cons ev rest ih =>
    apply (tends_handleEvent reactor d ev).bind
    intro answer
    obtain ⟨d', result⟩ := answer
    rcases result with e | ⟨⟩
    · exact tends_pure rfl
    · exact ih d'

theorem tends_releaseAll (reactor : Reactor) (slots : List FdSlot) :
    Tends (releaseAll reactor slots) (reactor.held + (slots.map fun slot => heldSlot (some slot)).sum)
      fun _ => reactor.held := by
  induction slots with
  | nil => exact tends_pure (add_zero _).symm
  | cons slot rest ih =>
    refine (tends_release reactor slot).beside (rest.map fun slot => heldSlot (some slot)).sum ?_ fun _ => ih
    rw [List.map_cons, List.sum_cons, add_assoc]
    rfl

theorem held_takeAllSlots (d : DrainState) :
    d.held = (d.takeAllSlots.2.map fun slot => heldSlot (some slot)).sum ∧ d.takeAllSlots.1.held = 0 := by
  have listed : ∀ slot : Option FdSlot, (slot.toList.map fun slot => heldSlot (some slot)).sum = heldSlot slot := by
    intro slot
    cases slot with
    | none => rfl
    | some slot => exact add_zero _
  refine ⟨?_, rfl⟩
  simp only [takeAllSlots, List.map_append, List.sum_append, listed]
  rfl

theorem tends_abandon (st : LoopState) (e : SysError) :
    Tends (abandon st e) st.held (Sum.elim LoopState.held fun _ => 0) := by
  have ended : Tends (pure (.inr (.error e)) : Prog (LoopState ⊕ Except SysError Output)) 0
      (Sum.elim LoopState.held fun _ => 0) := tends_pure rfl
  have drops := (tends_dropAll st.drain).bind fun _ => ended
  exact st.reactor.tends_drop.before fun _ => drops

theorem tends_deliver (cfg : WaitConfig) (st : LoopState) (s : ExitStatus) :
    Tends (deliver cfg st s) st.held (Sum.elim LoopState.held fun _ => 0) := by
  obtain ⟨same, none⟩ := held_takeAllSlots st.drain
  unfold LoopState.held deliver
  rw [same]
  apply (tends_releaseAll st.reactor _).bind
  intro _
  have parts : Tends st.drain.takeAllSlots.1.intoParts 0 fun _ => 0 := by
    rw [← none]
    apply (tends_dropAll _).bind
    intro _
    exact tends_pure rfl
  refine parts.beside st.reactor.held (zero_add _).symm fun _ => ?_
  rw [zero_add]
  apply st.reactor.tends_drop.bind
  intro _
  exact tends_pure rfl

theorem tends_finish (cfg : WaitConfig) (st : LoopState) :
    Tends (finish cfg st) st.held (Sum.elim LoopState.held fun _ => 0) := by
  unfold finish
  split
  · exact tends_deliver cfg st _
  · have waits : ((Process.mk cfg.pid).waitBlocking).Issues (Kernel.isElsewhere · = true) :=
      .bind (.retry _ rfl) fun _ => trivial
    apply (tends_elsewhere waits st.held).bind
    intro s
    rcases s with e | s
    · exact tends_abandon st e
    · exact tends_deliver cfg st s

theorem tends_poll (st : LoopState) (pollTimeout : Int) :
    Tends (poll st pollTimeout) st.held (Sum.elim LoopState.held fun _ => 0) := by
  refine (st.reactor.tends_wait _ _ _).beside st.drain.held rfl fun waited => ?_
  obtain ⟨reactor, events, result⟩ := waited
  rcases result with e | nevents
  · exact tends_abandon { st with reactor } e
  · apply (tends_dispatch reactor st.drain (events.items.take nevents)).bind
    intro dispatched
    obtain ⟨drain, result⟩ := dispatched
    rcases result with e | ⟨⟩
    · exact tends_abandon { st with reactor, drain } e
    · exact tends_pure rfl

theorem checkDeadline_elsewhere (cfg : WaitConfig) (startTime : Nat) (st : LoopState) :
    (checkDeadline cfg startTime st).Issues (Kernel.isElsewhere · = true) := by
  have signals : ∀ sig, (signal cfg sig).Issues (Kernel.isElsewhere · = true) := by
    intro sig
    unfold signal
    split
    · refine .bind ((Program.issues_ask _ _).mpr rfl) fun answer => ?_
      rcases answer with e | ⟨⟩ <;> trivial
    · refine .bind ((Program.issues_ask _ _).mpr rfl) fun answer => ?_
      rcases answer with e | ⟨⟩ <;> trivial
  cases limited : cfg.timeoutMs with
  | none =>
    simp only [checkDeadline, limited]
    trivial
  | some ms =>
    rw [checkDeadline_eq startTime st limited]
    refine .bind ((Program.issues_ask _ _).mpr rfl) fun now => ?_
    unfold afterReading
    split
    · exact .bind (signals _) fun _ => trivial
    · split <;> trivial

theorem tends_checkDeadline (cfg : WaitConfig) (startTime : Nat) (st : LoopState) :
    Tends (checkDeadline cfg startTime st) st.held fun checked => checked.1.held := by
  apply tends_result (tends_elsewhere (checkDeadline_elsewhere cfg startTime st) st.held)
  intro t checked run
  obtain ⟨_, drain, reactor⟩ := (exec_checkDeadline run).unchanged
  unfold LoopState.held
  rw [drain, reactor]

theorem tends_collectStatus (cfg : WaitConfig) (st : LoopState) :
    Tends (collectStatus cfg st) st.held fun collected => collected.1.held := by
  have waits : (collectStatus cfg st).Issues (Kernel.isElsewhere · = true) := by
    unfold collectStatus
    split
    · trivial
    · refine .bind (.bind (.retry _ rfl) fun _ => trivial) fun result => ?_
      rcases result with e | _ | s <;> trivial
  apply tends_result (tends_elsewhere waits st.held)
  intro t collected run
  obtain ⟨_, drain, reactor⟩ := (exec_collectStatus run).unchanged
  unfold LoopState.held
  rw [drain, reactor]

theorem tends_body (cfg : WaitConfig) (startTime : Nat) (st : LoopState) :
    Tends (body cfg startTime st) st.held (Sum.elim LoopState.held fun _ => 0) := by
  apply (tends_checkDeadline cfg startTime st).bind
  intro checked
  apply (tends_collectStatus cfg checked.1).bind
  intro collected
  obtain ⟨st', result⟩ := collected
  rcases result with e | ⟨⟩
  · exact tends_abandon st' e
  · show Tends (if st'.drain.isDone = true then finish cfg st' else poll st' checked.2) _ _
    split
    · exact tends_finish cfg st'
    · exact tends_poll st' checked.2

theorem tends_waitLoop (cfg : WaitConfig) (drain : DrainState) (reactor : Reactor) :
    Tends (waitLoop cfg drain reactor) (reactor.held + drain.held) fun _ => 0 := by
  have waits : ((Process.mk cfg.pid).waitStep).Issues (Kernel.isElsewhere · = true) :=
    .bind (.retry _ rfl) fun _ => trivial
  apply (tends_elsewhere waits (reactor.held + drain.held)).bind
  intro result
  rcases result with e | statusRaw
  · exact reactor.tends_drop.before fun _ => (tends_dropAll drain).bind fun _ => tends_pure rfl
  · apply (tends_elsewhere ((Program.issues_ask _ _).mpr rfl) (reactor.held + drain.held)).bind
    intro startTime
    exact Custody.manages_iterate (tends_body cfg startTime)
      { drain, reactor, statusRaw, state := .none, timedOut := false }

end WaitLoop

theorem tends_settle (opts : SpawnOptions) (reactor : Reactor) (started : Except SysError (Int × DrainState)) :
    Tends (settle opts reactor started) (reactor.held + onOk heldByDrain started) fun _ => 0 := by
  rcases started with e | ⟨pid, drain⟩
  · have none : reactor.held + onOk heldByDrain (.error e) = reactor.held := add_zero _
    rw [none]
    apply reactor.tends_drop.bind
    intro _
    exact tends_pure rfl
  · apply (drain.tends_registerWithReactor reactor).bind
    intro registered
    obtain ⟨drain, reactor, result⟩ := registered
    rcases result with e | ⟨⟩
    · rw [add_comm]
      exact drain.tends_dropAll.before fun _ => reactor.tends_drop.bind fun _ => tends_pure rfl
    · show Tends (if !opts.wait then _ else _) _ _
      split
      · have parts : Tends drain.intoParts drain.held fun _ => 0 :=
          drain.tends_dropAll.bind fun _ => tends_pure rfl
        rw [add_comm]
        exact parts.before fun _ => reactor.tends_drop.bind fun _ => tends_pure rfl
      · exact WaitLoop.tends_waitLoop _ drain reactor

theorem tends_spawn (platform : Platform) (opts : SpawnOptions) : Tends (spawn platform opts) 0 fun _ => 0 := by
  apply Reactor.tends_new.bind
  intro made
  rcases made with e | reactor
  · exact tends_pure rfl
  · have starts : Tends (spawnStart platform opts) 0 (onOk heldByDrain) :=
      tends_of_keeps (keeps_spawnStart platform opts)
        ((spawnStart_starts platform opts).mono fun _ => untouched_of_start)
    refine starts.beside reactor.held (zero_add _).symm fun started => ?_
    exact (tends_settle opts reactor started).congr (add_comm _ _) fun _ => rfl

end CoreShift
