import CoreShift.Spawn.PollTimeout
import CoreShift.Spawn.Readiness

namespace CoreShift

open Interaction

def interest : Stream → UInt32
  | .stdin => EPOLLET ||| EPOLLOUT
  | .stdout | .stderr => EPOLLET ||| EPOLLIN

theorem quiet_readEnd {K : Kernel} {fd k : Nat} (refers : K.file fd = some (.readEnd k)) :
    K.revents fd (interest .stdout) = 0 ↔ (K.pipes k).channel.content = [] ∧ (K.pipes k).writers = true := by
  simp only [Kernel.revents, Kernel.poll, refers, Pipe.readEvents]
  by_cases empty : (K.pipes k).channel.content = [] <;> cases (K.pipes k).writers <;> simp [empty] <;> decide

theorem quiet_writeEnd {K : Kernel} {fd k : Nat} (refers : K.file fd = some (.writeEnd k)) :
    K.revents fd (interest .stdin) = 0 ↔
      ¬(K.pipes k).channel.content.length + PIPE_BUF ≤ (K.pipes k).channel.capacity ∧ (K.pipes k).readers = true := by
  simp only [Kernel.revents, Kernel.poll, refers, Pipe.writeEvents]
  by_cases space : (K.pipes k).channel.content.length + PIPE_BUF ≤ (K.pipes k).channel.capacity <;>
    cases (K.pipes k).readers <;> simp [space] <;> decide

def Wakes : Stream → Reactor.Event → Prop
  | .stdin, ev => ev.writable = true
  | .stdout, ev | .stderr, ev => ev.readable = true

def pollMasks : List UInt32 :=
  [0, EPOLLIN, EPOLLHUP, EPOLLIN ||| EPOLLHUP, EPOLLOUT, EPOLLERR, EPOLLOUT ||| EPOLLERR]

theorem poll_mem (K : Kernel) (fd : Nat) : K.poll fd ∈ pollMasks := by
  unfold Kernel.poll
  split
  · unfold Pipe.readEvents
    split <;> split <;> decide
  · unfold Pipe.writeEvents
    split <;> split <;> decide
  · decide

def Tells (events : UInt32) (test : Reactor.Event → Bool) : Bool :=
  pollMasks.all fun mask =>
    let told := mask &&& (events ||| EPOLLERR ||| EPOLLHUP)
    told = 0 || test (Reactor.translate ⟨told, 0⟩)

theorem of_tells {events mask : UInt32} {test : Reactor.Event → Bool} (tells : Tells events test = true)
    (known : mask ∈ pollMasks) (some : mask &&& (events ||| EPOLLERR ||| EPOLLHUP) ≠ 0) :
    test (Reactor.translate ⟨mask &&& (events ||| EPOLLERR ||| EPOLLHUP), 0⟩) = true := by
  have told := List.all_eq_true.mp tells mask known
  simpa [some] using told

theorem wakes_of_reported {K : Kernel} {fd : Nat} {s : Stream} {data : UInt64}
    (some : K.revents fd (interest s) ≠ 0) : Wakes s (Reactor.translate ⟨K.revents fd (interest s), data⟩) := by
  have reads : Tells (EPOLLET ||| EPOLLIN) Reactor.Event.readable = true := by decide
  have writes : Tells (EPOLLET ||| EPOLLOUT) Reactor.Event.writable = true := by decide
  have known := poll_mem K fd
  unfold Kernel.revents at some ⊢
  cases s with
  | stdin => exact of_tells writes known some
  | stdout => exact of_tells reads known some
  | stderr => exact of_tells reads known some

def isTransfer : Call → Bool
  | .read _ _ | .write _ _ | .earlyExit _ => true
  | _ => false

namespace BufferState

theorem reads_transfer {b : BufferState} {fd : Fd} {isStdout earlyExit : Bool} {t : Trace} {o}
    (run : Exec (b.readFromFd fd isStdout earlyExit) t o) : ∀ e ∈ t, isTransfer e.call = true := by
  intro e member
  rcases (run.issues (readFromFd_issues _ _ _ _)).1 e member with ⟨count, same⟩ | ⟨slice, same⟩ <;> rw [same] <;> rfl

theorem readFromFd_refused {b b' : BufferState} {fd : Fd} {isStdout earlyExit : Bool} {t : Trace}
    (run : Exec (b.readFromFd fd isStdout earlyExit) t (.done (b', .ok false))) :
    ∃ io e, t = io ++ [e] ∧ Kernel.Refused fd.raw e := by
  obtain ⟨rounds, last, dest, final, rfl, rfl, reached, finish⟩ := exec_readFromFd_done run
  generalize outcome : Outcome.done (I := os) (Sum.inr (final, Except.ok false)) = o at finish
  cases finish with
  | blocked k => exact ⟨_, _, (List.append_assoc ..).symm, .inl ⟨_, rfl⟩⟩
  | consulted k data present asked stop => cases stop <;> cases outcome
  | waiting | eof | failed | data | consulting => cases outcome

end BufferState

namespace WriterState

theorem writes_transfer {w : WriterState} {fd : Fd} {t : Trace} {o} (run : Exec (w.writeToFd fd) t o) :
    ∀ e ∈ t, isTransfer e.call = true := by
  intro e member
  obtain ⟨bytes, same⟩ := (run.issues (writeToFd_issues _ _)).1 e member
  rw [same]
  rfl

theorem writeToFd_refused {w w' : WriterState} {fd : Fd} {t : Trace}
    (run : Exec (w.writeToFd fd) t (.done (w', .ok false))) : ∃ io e, t = io ++ [e] ∧ Kernel.Refused fd.raw e := by
  cases pending : w.buf with
  | none =>
    simp only [writeToFd, pending] at run
    cases ((exec_pure_iff _ _ _).mp run).2
  | some buf =>
    obtain ⟨rounds, last, off, rfl, reached, finish⟩ := exec_writeToFd_done pending run
    generalize outcome : Outcome.done (I := os) (Sum.inr (w', Except.ok false)) = o at finish
    cases finish with
    | blocked k left => exact ⟨_, _, (List.append_assoc ..).symm, .inr ⟨_, rfl⟩⟩
    | finished | waiting | accepted | refused | broken | failed => cases outcome

end WriterState

namespace DrainState

inductive Handled (reactor : Reactor) (d : DrainState) (s : Stream) : Trace → DrainState → Prop where
  | absent (empty : d.slotOf s = none) : Handled reactor d s [] d
  | blocked {slot : FdSlot} {io : Trace} {e : Event os} {d' : DrainState} (filled : d.slotOf s = some slot)
      (transfer : ∀ e' ∈ io ++ [e], isTransfer e'.call = true) (refused : Kernel.Refused slot.fd.raw e)
      (same : ∀ s', d'.slotOf s' = d.slotOf s') : Handled reactor d s (io ++ [e]) d'
  | closed {slot : FdSlot} {io cleanup : Trace} {d' : DrainState} (filled : d.slotOf s = some slot)
      (transfer : ∀ e ∈ io, isTransfer e.call = true) (released : Released reactor slot cleanup)
      (others : ∀ s', d'.slotOf s' = if s' = s then none else d.slotOf s') : Handled reactor d s (io ++ cleanup) d'

variable {reactor : Reactor} {d d' : DrainState} {t : Trace}

theorem OutServed.handled {isStdout : Bool} (served : OutServed d isStdout (Released reactor) t d' none) :
    Handled reactor d (outStream isStdout) t d' := by
  cases served with
  | absent empty => exact .absent (by rw [slotOf_outStream, empty])
  | blocked filled read =>
    obtain ⟨io, e, rfl, refused⟩ := BufferState.readFromFd_refused read
    refine .blocked (by rw [slotOf_outStream, filled]) (BufferState.reads_transfer read) refused fun s => ?_
    cases s <;> rfl
  | closed filled read closes =>
    refine .closed (by rw [slotOf_outStream, filled]) (BufferState.reads_transfer read) closes fun s => ?_
    rw [slotOf_clearOut]
    cases s <;> rfl

theorem StdinServed.handled (served : StdinServed d reactor t d' none) : Handled reactor d .stdin t d' := by
  cases served with
  | absent empty => exact .absent empty
  | blocked filled written =>
    obtain ⟨io, e, rfl, refused⟩ := WriterState.writeToFd_refused written
    refine .blocked filled (WriterState.writes_transfer written) refused fun s => ?_
    cases s <;> rfl
  | closed filled written closes =>
    refine .closed filled (WriterState.writes_transfer written) closes fun s => ?_
    cases s <;> rfl

theorem Handled.kept {s s' : Stream} {slot : FdSlot} (handled : Handled reactor d s t d')
    (filled : d'.slotOf s' = some slot) : d.slotOf s' = some slot := by
  cases handled with
  | absent empty => exact filled
  | blocked filled' transfer refused same => rwa [same] at filled
  | closed filled' transfer released others =>
    rw [others] at filled
    split at filled
    · cases filled
    · exact filled

structure Watched (K : Kernel) (d : DrainState) : Prop where
  registered : ∀ s slot, d.slotOf s = some slot →
    ∃ token, slot.token = some token ∧ K.registered slot.fd.raw = some ⟨interest s, token.val⟩
  distinct : ∀ s s' slot slot', d.slotOf s = some slot → d.slotOf s' = some slot' →
    slot.token = slot'.token → s = s'

/-- Every open slot is alert, or an event for it has been fetched and is yet to be handled. -/
def Awake (K : Kernel) (d : DrainState) (events : List Reactor.Event) : Prop :=
  ∀ s slot, d.slotOf s = some slot →
    K.Alert slot.fd.raw ∨ ∃ ev ∈ events, slot.token = some ev.token ∧ Wakes s ev

variable {K K' : Kernel} {epfd : Nat} {events : List Reactor.Event}

theorem Awake.settled {s : Stream} {slot : FdSlot} (awake : Awake K d []) (watched : Watched K d)
    (filled : d.slotOf s = some slot) : K.Pending slot.fd.raw ∨ K.revents slot.fd.raw (interest s) = 0 := by
  obtain ⟨token, _, entry⟩ := watched.registered s slot filled
  rcases awake s slot filled with alert | ⟨ev, member, _⟩
  · rcases EdgeTriggered.alert_iff.mp alert with pending | quiet
    · exact .inl pending
    · refine .inr (Decidable.byContradiction fun some => quiet ?_)
      exact ⟨_, entry, some⟩
  · simp at member

theorem Watched.separate {s s' : Stream} {slot slot' : FdSlot} (watched : Watched K d)
    (filled : d.slotOf s = some slot) (filled' : d.slotOf s' = some slot') (other : s ≠ s') :
    slot.fd.raw ≠ slot'.fd.raw := by
  intro same
  obtain ⟨token, own, entry⟩ := watched.registered s slot filled
  obtain ⟨token', own', entry'⟩ := watched.registered s' slot' filled'
  rw [same, entry', Option.some.injEq, Registration.mk.injEq] at entry
  have tokens : token' = token := congrArg Token.mk entry.2
  exact other (watched.distinct s s' slot slot' filled filled' (by rw [own, own', tokens]))

theorem Watched.of_kept (watched : Watched K d) (kept : ∀ s slot, d'.slotOf s = some slot → d.slotOf s = some slot)
    (entries : ∀ s slot r, d'.slotOf s = some slot → K.registered slot.fd.raw = some r →
      K'.registered slot.fd.raw = some r) : Watched K' d' := by
  refine ⟨fun s slot filled => ?_, fun s s' slot slot' filled filled' => ?_⟩
  · obtain ⟨token, own, entry⟩ := watched.registered s slot (kept s slot filled)
    exact ⟨token, own, entries s slot _ filled entry⟩
  · exact watched.distinct s s' slot slot' (kept s slot filled) (kept s' slot' filled')

def isStill (epfd : Nat) : Call → Prop
  | .epollWait epfd' _ _ | .epollCtlDel epfd' _ => epfd' ≠ epfd
  | .close _ => False
  | _ => True

theorem registered_still {fd : Nat} {r : Registration} (entry : K.registered fd = some r)
    (run : Kernel.Run epfd K t K') (still : ∀ e ∈ t, isStill epfd e.call) : K'.registered fd = some r := by
  refine Kernel.Run.registered run entry fun e member => ⟨fun deletes => ?_, fun closes => ?_⟩
  · have unmoved := still e member
    rw [deletes] at unmoved
    exact unmoved rfl
  · have unmoved := still e member
    rw [closes] at unmoved
    exact unmoved

theorem Watched.still (watched : Watched K d) (run : Kernel.Run epfd K t K') (still : ∀ e ∈ t, isStill epfd e.call) :
    Watched K' d :=
  watched.of_kept (fun _ _ filled => filled) fun _ _ _ _ entry => registered_still entry run still

theorem alert_still {fd : Nat} (alert : K.Alert fd) (run : Kernel.Run epfd K t K')
    (still : ∀ e ∈ t, isStill epfd e.call) : K'.Alert fd := by
  refine Kernel.Run.alert run (fun e member maxEvents timeout waits => ?_) alert
  have unmoved := still e member
  rw [waits] at unmoved
  exact unmoved rfl

theorem Awake.still (awake : Awake K d events) (run : Kernel.Run epfd K t K')
    (still : ∀ e ∈ t, isStill epfd e.call) : Awake K' d events :=
  fun s slot filled => (awake s slot filled).imp_left fun alert => alert_still alert run still

theorem Handled.calls {s : Stream} {e : Event os} (handled : Handled reactor d s t d') (member : e ∈ t) :
    isTransfer e.call = true ∨ ∃ slot, d.slotOf s = some slot ∧ d'.slotOf s = none ∧
      (e.call = .epollCtlDel reactor.epfd slot.fd.raw ∨ e.call = .close slot.fd.raw) := by
  cases handled with
  | absent empty => simp at member
  | blocked filled transfer refused same => exact .inl (transfer e member)
  | @closed slot io cleanup _ filled transfer released others =>
    obtain ⟨deleted, answer, rfl⟩ := released
    have gone : d'.slotOf s = none := by rw [others, if_pos rfl]
    rcases List.mem_append.mp member with here | there
    · exact .inl (transfer e here)
    · simp only [List.mem_cons, List.not_mem_nil, or_false] at there
      rcases there with same | same
      · exact .inr ⟨slot, filled, gone, .inl (congrArg Event.call same)⟩
      · exact .inr ⟨slot, filled, gone, .inr (congrArg Event.call same)⟩

theorem Handled.watched {s : Stream} (watched : Watched K d) (handled : Handled reactor d s t d')
    (run : Kernel.Run reactor.epfd K t K') : Watched K' d' := by
  refine watched.of_kept (fun _ _ => handled.kept) fun s' slot' r filled' entry => ?_
  refine Kernel.Run.registered run entry fun e member => ?_
  rcases handled.calls member with transfer | ⟨slot, filled, gone, touches⟩
  · refine ⟨fun deletes => ?_, fun closes => ?_⟩
    · rw [deletes] at transfer
      cases transfer
    · rw [closes] at transfer
      cases transfer
  · have other : s' ≠ s := by
      intro same
      rw [same, gone] at filled'
      cases filled'
    have apart := watched.separate (handled.kept filled') filled other
    refine ⟨fun deletes => ?_, fun closes => ?_⟩
    · rcases touches with same | same
      · exact apart (Call.epollCtlDel.inj (deletes.symm.trans same)).2
      · cases deletes.symm.trans same
    · rcases touches with same | same
      · cases closes.symm.trans same
      · exact apart (Call.close.inj (closes.symm.trans same))

theorem Handled.alert {s : Stream} {fd : Nat} (handled : Handled reactor d s t d')
    (run : Kernel.Run reactor.epfd K t K') (alert : K.Alert fd) : K'.Alert fd := by
  refine Kernel.Run.alert run (fun e member maxEvents timeout waits => ?_) alert
  rcases handled.calls member with transfer | ⟨slot, _, _, same | same⟩
  · rw [waits] at transfer
    cases transfer
  · cases waits.symm.trans same
  · cases waits.symm.trans same

theorem Handled.own {s : Stream} {slot : FdSlot} (handled : Handled reactor d s t d')
    (run : Kernel.Run reactor.epfd K t K') (filled : d'.slotOf s = some slot) : K'.Alert slot.fd.raw := by
  cases handled with
  | absent empty => rw [empty] at filled; cases filled
  | blocked filled' transfer refused same =>
    rw [same, filled'] at filled
    cases filled
    exact Kernel.Run.refused run refused
  | closed filled' transfer released others =>
    rw [others, if_pos rfl] at filled
    cases filled

end DrainState

namespace WaitLoop

open DrainState

variable {K K' : Kernel} {reactor : Reactor} {d d' : DrainState} {ev : Reactor.Event} {t : Trace}

theorem slotMatches_iff {slot : Option FdSlot} {token : Token} :
    slotMatches slot token = true ↔ ∃ filled, slot = some filled ∧ filled.token = some token := by
  cases slot <;> simp [slotMatches]

theorem exec_handleEvent_own {s : Stream} {slot : FdSlot} (watched : Watched K d) (filled : d.slotOf s = some slot)
    (own : slot.token = some ev.token) (wakes : Wakes s ev)
    (run : Exec (handleEvent reactor d ev) t (.done (d', .ok ()))) : Handled reactor d s t d' := by
  have here : slotMatches (d.slotOf s) ev.token = true := slotMatches_iff.mpr ⟨slot, filled, own⟩
  have elsewhere : ∀ s', s' ≠ s → ¬slotMatches (d.slotOf s') ev.token = true := by
    intro s' other same
    obtain ⟨slot', filled', own'⟩ := slotMatches_iff.mp same
    exact other (watched.distinct s' s slot' slot filled' filled (own'.trans own.symm))
  unfold handleEvent at run
  cases s with
  | stdout =>
    have first : d.stdoutMatches ev.token = true := here
    have readable : ev.readable = true := wakes
    rw [if_pos first, if_pos readable] at run
    exact (exec_handleOutReady_done run).handled
  | stderr =>
    have first : ¬d.stdoutMatches ev.token = true := elsewhere .stdout (by decide)
    have second : d.stderrMatches ev.token = true := here
    have readable : ev.readable = true := wakes
    rw [if_neg first, if_pos second, if_pos readable] at run
    exact (exec_handleOutReady_done run).handled
  | stdin =>
    have first : ¬d.stdoutMatches ev.token = true := elsewhere .stdout (by decide)
    have second : ¬d.stderrMatches ev.token = true := elsewhere .stderr (by decide)
    have third : d.stdinMatches ev.token = true := here
    have writable : ev.writable = true := wakes
    rw [if_neg first, if_neg second, if_pos third, if_pos writable] at run
    exact (exec_handleStdinWritable_done run).handled

theorem exec_handleEvent_handled {raw : EpollEvent}
    (run : Exec (handleEvent reactor d (Reactor.translate raw)) t (.done (d', .ok ()))) :
    (t = [] ∧ d' = d) ∨ ∃ s, Handled reactor d s t d' := by
  cases exec_handleEvent_done run with
  | out served => exact .inr ⟨_, served.handled⟩
  | stdin served => exact .inr ⟨_, served.handled⟩
  | passed => exact .inl ⟨rfl, rfl⟩

theorem handleEvent_awake {raw : EpollEvent} {rest : List Reactor.Event} (watched : Watched K d)
    (awake : Awake K d (Reactor.translate raw :: rest))
    (handled : Exec (handleEvent reactor d (Reactor.translate raw)) t (.done (d', .ok ())))
    (run : Kernel.Run reactor.epfd K t K') : Watched K' d' ∧ Awake K' d' rest := by
  rcases exec_handleEvent_handled handled with ⟨none, same⟩ | ⟨s, does⟩
  · subst none same
    refine ⟨watched.still run (by simp), fun s slot filled => ?_⟩
    rcases awake s slot filled with alert | ⟨ev, member, own, wakes⟩
    · exact .inl (alert_still alert run (by simp))
    · rcases List.mem_cons.mp member with first | later
      · rw [first] at own wakes
        exact .inl ((exec_handleEvent_own watched filled own wakes handled).own run filled)
      · exact .inr ⟨ev, later, own, wakes⟩
  · refine ⟨does.watched watched run, fun s' slot filled => ?_⟩
    have before := does.kept filled
    rcases awake s' slot before with alert | ⟨ev, member, own, wakes⟩
    · exact .inl (does.alert run alert)
    · rcases List.mem_cons.mp member with first | later
      · rw [first] at own wakes
        exact .inl ((exec_handleEvent_own watched before own wakes handled).own run filled)
      · exact .inr ⟨ev, later, own, wakes⟩

theorem dispatch_awake {raws : List EpollEvent} (watched : Watched K d)
    (awake : Awake K d (raws.map Reactor.translate))
    (dispatched : Exec (dispatch reactor d (raws.map Reactor.translate)) t (.done (d', .ok ())))
    (run : Kernel.Run reactor.epfd K t K') : Watched K' d' ∧ Awake K' d' [] := by
  induction raws generalizing K d t with
  | nil =>
    obtain ⟨none, same⟩ := (exec_pure_iff _ _ _).mp dispatched
    cases same
    subst none
    exact ⟨watched.still run (by simp), awake.still run (by simp)⟩
  | cons raw raws ih =>
    obtain ⟨first, ⟨served, result⟩, second, rfl, handled, rest⟩ := exec_bind_done.mp dispatched
    obtain ⟨K₁, run₁, run₂⟩ := run.split
    rcases result with e | ⟨⟩
    · cases ((exec_pure_iff _ _ _).mp rest).2
    · have next := handleEvent_awake watched awake handled run₁
      exact ih next.1 next.2 rest run₂

theorem fetch_awake {epfd : Nat} {maxEvents timeout : Int}
    {answer : Except Errno { events : List EpollEvent // events.length ≤ maxEvents.toNat }} (watched : Watched K d)
    (awake : Awake K d []) (step : Kernel.Parent epfd K ⟨.epollWait epfd maxEvents timeout, answer⟩ K') :
    Watched K' d ∧ Awake K' d ((fetched answer).map Reactor.translate) := by
  have alert : ∀ s slot, d.slotOf s = some slot → K.Alert slot.fd.raw := by
    intro s slot filled
    rcases awake s slot filled with alert | ⟨ev, member, _⟩
    · exact alert
    · simp at member
  have entries : Watched K' d := by
    refine watched.of_kept (fun _ _ filled => filled) fun s slot r _ entry => ?_
    exact step.registered entry (by simp) (by simp)
  refine ⟨entries, fun s slot filled => ?_⟩
  cases step with
  | exchange change marks => exact .inl (marks.alert (alert s slot filled))
  | @wait _ _ answer fds pending distinct reported cleared kept =>
    by_cases here : slot.fd.raw ∈ fds
    · obtain ⟨ev, member, _, r, entry, event, some⟩ := Kernel.fetched_of_mem reported here
      obtain ⟨token, own, entry'⟩ := watched.registered s slot filled
      rw [entry, Option.some.injEq] at entry'
      rw [entry'] at event
      rw [event] at some
      refine .inr ⟨Reactor.translate ev, List.mem_map_of_mem member, ?_, ?_⟩
      · rw [own, event]
        rfl
      · rw [event]
        exact wakes_of_reported some
    · exact .inl (kept.alert (alert s slot filled) here)

theorem still_of_reserve {epfd : Nat} {c : Call}
    (reserve : ∃ len capacity additional, c = .reserve len capacity additional) : isStill epfd c := by
  obtain ⟨len, capacity, additional, rfl⟩ := reserve
  trivial

variable {cfg : WaitConfig} {startTime : Nat} {st st' : LoopState} {r : Reactor}

theorem Deadline.still {epfd : Nat} {o} (check : Deadline cfg startTime st t o) : ∀ e ∈ t, isStill epfd e.call := by
  cases check <;> simp [isStill]

theorem Collected.still {epfd : Nat} {o} (collect : Collected cfg st t o) : ∀ e ∈ t, isStill epfd e.call := by
  intro e member
  rw [collect.calls e member]
  trivial

theorem poll_awake {timeout : Int} (watched : Watched K st.drain) (awake : Awake K st.drain [])
    (polled : Exec (poll st timeout) t (.done (.inl st'))) (run : Kernel.Run st.reactor.epfd K t K') :
    Watched K' st'.drain ∧ Awake K' st'.drain [] ∧ st'.reactor.epfd = st.reactor.epfd := by
  obtain ⟨t₁, t₂, reactor', events, n, d', rfl, waited, dispatched, rfl⟩ := exec_poll_next polled
  obtain ⟨reserves, answer, rfl, made, epfd, items, count⟩ := exec_wait_fetched (by decide) waited
  obtain ⟨K₁, fetching, handling⟩ := run.split
  obtain ⟨K₂, K₃, reserving, step, idle⟩ := fetching.last
  have still : ∀ e ∈ reserves, isStill st.reactor.epfd e.call := fun e member => still_of_reserve (made e member)
  have fetched := fetch_awake (watched.still reserving still) (awake.still reserving still) step
  have watched₁ := fetched.1.still idle (by simp)
  have awake₁ := fetched.2.still idle (by simp)
  rw [items, count, ← List.length_map (f := Reactor.translate), List.take_length] at dispatched
  rw [← epfd] at handling
  have after := dispatch_awake watched₁ awake₁ dispatched handling
  exact ⟨after.1, after.2, epfd⟩

theorem Head.awake (head : Head cfg d r startTime t st) (watched : Watched K d) (awake : Awake K d [])
    (run : Kernel.Run r.epfd K t K') :
    Watched K' st.drain ∧ Awake K' st.drain [] ∧ st.reactor.epfd = r.epfd := by
  induction head generalizing K' with
  | @start t _ step =>
    have still : ∀ e ∈ t ++ [(⟨.instantNow, startTime⟩ : Event os)], isStill r.epfd e.call := by
      intro e member
      rcases List.mem_append.mp member with first | last
      · rw [(Process.exec_waitStep step).calls e first]
        trivial
      · rw [List.mem_singleton.mp last]
        trivial
    exact ⟨watched.still run still, awake.still run still, rfl⟩
  | next _ round ih =>
    obtain ⟨K₁, before, iteration⟩ := run.split
    obtain ⟨watched₁, awake₁, epfd⟩ := ih before
    obtain ⟨t₁, t₂, t₃, checked, collected, timeout, rfl, check, collect, _, polled⟩ := (exec_body round).polled
    obtain ⟨K₂, checking, run₁⟩ := iteration.split
    obtain ⟨K₃, collecting, polling⟩ := run₁.split
    have drain := collect.unchanged.2.1.trans check.unchanged.2.1
    have reactor := (congrArg Reactor.epfd (collect.unchanged.2.2.trans check.unchanged.2.2)).trans epfd
    have watched₂ := (watched₁.still checking check.still).still collecting collect.still
    have awake₂ := (awake₁.still checking check.still).still collecting collect.still
    rw [← drain] at watched₂ awake₂
    rw [← reactor] at polling
    obtain ⟨watched₃, awake₃, epfd'⟩ := poll_awake watched₂ awake₂ polled polling
    exact ⟨watched₃, awake₃, epfd'.trans reactor⟩

end WaitLoop

namespace DrainState

variable {K K' : Kernel} {d d' : DrainState} {r r' : Reactor} {t : Trace}

def Enrolled (K : Kernel) (s : Stream) (slot : FdSlot) : Prop :=
  (∃ token, slot.token = some token ∧ K.registered slot.fd.raw = some ⟨interest s, token.val⟩) ∧ K.Alert slot.fd.raw

theorem exec_registerSlot_ok {readable writable : Bool} {slot slot' : Option FdSlot}
    (run : Exec (registerSlot r readable writable slot) t (.done (r', slot', .ok ()))) :
    (slot' = none ∧ t = [] ∧ r' = r) ∨ ∃ filled : FdSlot, slot' = some { filled with token := some ⟨r.nextToken⟩ } ∧
      r' = { r with nextToken := r.nextToken + 1 } ∧
      t = [⟨.epollCtlAdd r.epfd filled.fd.raw (Reactor.interestIn readable writable) r.nextToken, .ok ()⟩] := by
  cases slot with
  | none =>
    obtain ⟨none, result⟩ := (exec_pure_iff _ _ _).mp run
    cases result
    exact .inl ⟨rfl, none, rfl⟩
  | some filled =>
    obtain ⟨first, ⟨reactor, result⟩, second, rfl, adding, rest⟩ := exec_bind_done.mp run
    obtain ⟨rfl, answer, rfl, rfl⟩ := Reactor.exec_add adding
    cases answer with
    | error e =>
      obtain ⟨_, _, _, _, _, impossible⟩ := exec_bind_done.mp rest
      cases ((exec_pure_iff _ _ _).mp impossible).2
    | ok u =>
      obtain ⟨rfl, same⟩ := (exec_pure_iff _ _ _).mp rest
      cases same
      exact .inr ⟨filled, rfl, rfl, rfl⟩

theorem Enrolled.still {epfd : Nat} {s : Stream} {slot : FdSlot} (enrolled : Enrolled K s slot)
    (run : Kernel.Run epfd K t K') (still : ∀ e ∈ t, isStill epfd e.call) : Enrolled K' s slot := by
  obtain ⟨⟨token, own, entry⟩, alert⟩ := enrolled
  exact ⟨⟨token, own, registered_still entry run still⟩, alert_still alert run still⟩

theorem enrolled_of_add {epfd : Nat} {s : Stream} {slot : FdSlot} {token : Token} (own : slot.token = some token)
    (run : Kernel.Run epfd K [⟨.epollCtlAdd epfd slot.fd.raw (interest s) token.val, .ok ()⟩] K') :
    Enrolled K' s slot := by
  obtain ⟨K₁, K₂, _, step, idle⟩ := Interleaved.last (t := []) run
  have new : K₁.registered slot.fd.raw = none ∧ K₂.registered slot.fd.raw = some ⟨interest s, token.val⟩ := by
    cases step with
    | exchange change marks =>
      cases change with
      | add new => exact ⟨new, Function.update_self ..⟩
      | elsewhere impossible => cases impossible
  have alert : K₁.Alert slot.fd.raw := EdgeTriggered.alert_of_not_ready fun reports => by
    obtain ⟨entry, here, _⟩ := reports
    rw [new.1] at here
    cases here
  have added : Enrolled K₂ s slot := ⟨⟨token, own, new.2⟩, step.alert (by simp) alert⟩
  exact added.still idle (by simp)

def Filed (K : Kernel) (s : Stream) (slot : Option FdSlot) (n m : UInt64) : Prop :=
  (slot = none ∧ m = n) ∨ ∃ filled, slot = some filled ∧ filled.token = some ⟨n⟩ ∧ m = n + 1 ∧ Enrolled K s filled

theorem Filed.still {epfd : Nat} {s : Stream} {slot : Option FdSlot} {n m : UInt64} (filed : Filed K s slot n m)
    (run : Kernel.Run epfd K t K') (still : ∀ e ∈ t, isStill epfd e.call) : Filed K' s slot n m := by
  rcases filed with none | ⟨filled, same, own, next, enrolled⟩
  · exact .inl none
  · exact .inr ⟨filled, same, own, next, enrolled.still run still⟩

theorem Filed.filled {s : Stream} {slot : Option FdSlot} {filled : FdSlot} {n m : UInt64}
    (filed : Filed K s slot n m) (same : slot = some filled) :
    filled.token = some ⟨n⟩ ∧ m = n + 1 ∧ Enrolled K s filled := by
  rcases filed with ⟨none, _⟩ | ⟨filled', same', rest⟩
  · rw [none] at same
    cases same
  · rw [same] at same'
    cases same'
    exact rest

theorem registerSlot_filed {s : Stream} {readable writable : Bool} {slot slot' : Option FdSlot}
    (events : interest s = Reactor.interestIn readable writable)
    (registered : Exec (registerSlot r readable writable slot) t (.done (r', slot', .ok ())))
    (run : Kernel.Run r.epfd K t K') :
    r'.epfd = r.epfd ∧ (∀ e ∈ t, isStill r.epfd e.call) ∧ Filed K' s slot' r.nextToken r'.nextToken := by
  rcases exec_registerSlot_ok registered with ⟨rfl, rfl, rfl⟩ | ⟨filled, rfl, rfl, rfl⟩
  · exact ⟨rfl, by simp, .inl ⟨rfl, rfl⟩⟩
  · rw [← events] at run
    have enrolled : Enrolled K' s { filled with token := some ⟨r.nextToken⟩ } := enrolled_of_add rfl run
    exact ⟨rfl, by simp [isStill], .inr ⟨_, rfl, rfl, rfl, enrolled⟩⟩

theorem next_ne (n : UInt64) : n ≠ n + 1 := by
  intro same
  have value := congrArg UInt64.toNat same
  rw [UInt64.toNat_add] at value
  have one : (1 : UInt64).toNat = 1 := rfl
  omega

theorem next_next_ne (n : UInt64) : n ≠ n + 1 + 1 := by
  intro same
  have value := congrArg UInt64.toNat same
  rw [UInt64.toNat_add, UInt64.toNat_add] at value
  have one : (1 : UInt64).toNat = 1 := rfl
  omega

theorem tokens_apart {slots : Stream → Option FdSlot} {n₀ n₁ n₂ n₃ : UInt64}
    (stdin : Filed K .stdin (slots .stdin) n₀ n₁) (stdout : Filed K .stdout (slots .stdout) n₁ n₂)
    (stderr : Filed K .stderr (slots .stderr) n₂ n₃) :
    ∀ s s' slot slot', slots s = some slot → slots s' = some slot' → slot.token = slot'.token → s = s' := by
  have inOut : ∀ slot slot', slots .stdin = some slot → slots .stdout = some slot' → slot.token ≠ slot'.token := by
    intro slot slot' filled filled' same
    obtain ⟨own, next, _⟩ := stdin.filled filled
    obtain ⟨own', _, _⟩ := stdout.filled filled'
    rw [own, own', next] at same
    exact next_ne n₀ (congrArg Token.val (Option.some.inj same))
  have outErr : ∀ slot slot', slots .stdout = some slot → slots .stderr = some slot' → slot.token ≠ slot'.token := by
    intro slot slot' filled filled' same
    obtain ⟨own, next, _⟩ := stdout.filled filled
    obtain ⟨own', _, _⟩ := stderr.filled filled'
    rw [own, own', next] at same
    exact next_ne n₁ (congrArg Token.val (Option.some.inj same))
  have inErr : ∀ slot slot', slots .stdin = some slot → slots .stderr = some slot' → slot.token ≠ slot'.token := by
    intro slot slot' filled filled' same
    obtain ⟨own, next, _⟩ := stdin.filled filled
    obtain ⟨own', _, _⟩ := stderr.filled filled'
    rcases stdout with ⟨_, skipped⟩ | ⟨_, _, _, next', _⟩
    · rw [own, own', skipped, next] at same
      exact next_ne n₀ (congrArg Token.val (Option.some.inj same))
    · rw [own, own', next', next] at same
      exact next_next_ne n₀ (congrArg Token.val (Option.some.inj same))
  intro s s' slot slot' filled filled' same
  cases s with
  | stdin =>
    cases s' with
    | stdin => rfl
    | stdout => exact absurd same (inOut slot slot' filled filled')
    | stderr => exact absurd same (inErr slot slot' filled filled')
  | stdout =>
    cases s' with
    | stdin => exact absurd same.symm (inOut slot' slot filled' filled)
    | stdout => rfl
    | stderr => exact absurd same (outErr slot slot' filled filled')
  | stderr =>
    cases s' with
    | stdin => exact absurd same.symm (inErr slot' slot filled' filled)
    | stdout => exact absurd same.symm (outErr slot' slot filled' filled)
    | stderr => rfl

theorem registerWithReactor_awake (registered : Exec (d.registerWithReactor r) t (.done (d', r', .ok ())))
    (run : Kernel.Run r.epfd K t K') : Watched K' d' ∧ Awake K' d' [] ∧ r'.epfd = r.epfd := by
  obtain ⟨t₁, ⟨r₁, slot₁, result₁⟩, _, rfl, first, rest⟩ := exec_bind_done.mp registered
  rcases result₁ with e | ⟨⟩
  · cases ((exec_pure_iff _ _ _).mp rest).2
  obtain ⟨t₂, ⟨r₂, slot₂, result₂⟩, _, rfl, second, rest⟩ := exec_bind_done.mp rest
  rcases result₂ with e | ⟨⟩
  · cases ((exec_pure_iff _ _ _).mp rest).2
  obtain ⟨t₃, ⟨r₃, slot₃, result₃⟩, t₄, rfl, third, rest⟩ := exec_bind_done.mp rest
  simp only [exec_pure_iff, Outcome.done.injEq, Prod.mk.injEq] at rest
  obtain ⟨rfl, drained, rfl, rfl⟩ := rest
  rw [List.append_nil] at run
  obtain ⟨K₁, run₁, run⟩ := run.split
  obtain ⟨K₂, run₂, run₃⟩ := run.split
  obtain ⟨epfd₁, _, filed₁⟩ := registerSlot_filed (s := .stdin) rfl first run₁
  rw [← epfd₁] at run₂ run₃
  obtain ⟨epfd₂, still₂, filed₂⟩ := registerSlot_filed (s := .stdout) rfl second run₂
  rw [← epfd₂] at run₃
  obtain ⟨epfd₃, still₃, filed₃⟩ := registerSlot_filed (s := .stderr) rfl third run₃
  have stdin : Filed K' .stdin (d'.slotOf .stdin) r.nextToken r₁.nextToken := by
    rw [drained]
    exact (filed₁.still run₂ still₂).still run₃ still₃
  have stdout : Filed K' .stdout (d'.slotOf .stdout) r₁.nextToken r₂.nextToken := by
    rw [drained]
    exact filed₂.still run₃ still₃
  have stderr : Filed K' .stderr (d'.slotOf .stderr) r₂.nextToken r'.nextToken := by
    rw [drained]
    exact filed₃
  have enrolled : ∀ s slot, d'.slotOf s = some slot → Enrolled K' s slot := by
    intro s slot filled
    cases s with
    | stdin => exact (stdin.filled filled).2.2
    | stdout => exact (stdout.filled filled).2.2
    | stderr => exact (stderr.filled filled).2.2
  refine ⟨⟨fun s slot filled => (enrolled s slot filled).1, tokens_apart stdin stdout stderr⟩, ?_, ?_⟩
  · exact fun s slot filled => .inl (enrolled s slot filled).2
  · rw [epfd₃, epfd₂, epfd₁]

end DrainState

namespace WaitLoop

open DrainState

/-- At every head of an iteration each open slot is pending or has nothing to report, so that the loop
    only sleeps while no stream has data, space, an end or an error for it. -/
theorem no_lost_wakeup {K₀ K : Kernel} {d₀ d : DrainState} {r₀ r : Reactor} {cfg : WaitConfig} {startTime : Nat}
    {st : LoopState} {t t' : Trace} (registered : Exec (d₀.registerWithReactor r₀) t (.done (d, r, .ok ())))
    (head : Head cfg d r startTime t' st) (run : Kernel.Run r₀.epfd K₀ (t ++ t') K) :
    (∀ s slot, st.drain.slotOf s = some slot →
      K.Pending slot.fd.raw ∨ K.revents slot.fd.raw (interest s) = 0) ∧
    ∀ t'' K' epfd n timeout, Exec (body cfg startTime st) t'' (.waiting (.epollWait epfd n timeout)) →
      Kernel.Run r₀.epfd K t'' K' → K'.Sleeps →
      ∀ s slot, st.drain.slotOf s = some slot → K'.revents slot.fd.raw (interest s) = 0 := by
  obtain ⟨K₁, registering, looping⟩ := run.split
  obtain ⟨begun, first, epfd⟩ := registerWithReactor_awake registered registering
  rw [← epfd] at looping ⊢
  obtain ⟨watched, awake, _⟩ := head.awake begun first looping
  refine ⟨fun s slot filled => awake.settled watched filled, fun t'' K' epfd n timeout stopped waiting asleep => ?_⟩
  obtain ⟨t₁, t₂, t₃, checked, collected, pollTimeout, rfl, check, collect, polled⟩ := (exec_body stopped).epollWait
  have still : ∀ e ∈ t₁ ++ (t₂ ++ t₃), isStill r.epfd e.call := by
    refine List.forall_mem_append.mpr ⟨check.still, List.forall_mem_append.mpr ⟨collect.still, ?_⟩⟩
    exact fun e member => still_of_reserve ((exec_poll_waiting polled).2 e member)
  intro s slot filled
  have entries := watched.still waiting still
  rcases (awake.still waiting still).settled entries filled with pending | quiet
  · obtain ⟨token, _, entry⟩ := entries.registered s slot filled
    refine Decidable.byContradiction fun some => asleep _ pending ⟨_, entry, some⟩
  · exact quiet

def unread : Kernel where
  file fd := if fd = 5 then some (.readEnd 0) else none
  pipes _ := ⟨⟨16, [7], by decide, true, false⟩, true, true⟩
  registered _ := none
  pending _ := false

def onlyStdout : DrainState :=
  { stdinSlot := none, stdoutSlot := some ⟨none, ⟨5⟩⟩, stderrSlot := none, buffer := .new 8, writer := .new none,
    earlyExit := false }

def finished : Kernel :=
  { unread with
    pipes := Function.update unread.pipes 0 { unread.pipes 0 with writers := false }
    registered := Function.update unread.registered 5 (some ⟨interest .stdout, 1⟩)
    pending := fun fd => fd = 5 }

theorem marks_of_pending {K K' : Kernel} (all : ∀ fd r, K'.registered fd = some r → K'.Pending fd) :
    Kernel.Marks K K' := by
  intro fd reports
  obtain ⟨r, entry, _⟩ := reports
  exact .inl (all fd r entry)

theorem marks_finished {K K' : Kernel} (entries : K'.registered = finished.registered)
    (marks : K'.pending = finished.pending) : Kernel.Marks K K' := by
  refine marks_of_pending fun fd r entry => ?_
  rw [entries] at entry
  unfold Kernel.Pending
  rw [marks]
  by_cases same : fd = 5
  · exact decide_eq_true same
  · have none : finished.registered fd = none := Function.update_of_ne same _ _
    rw [none] at entry
    cases entry

theorem run_finished : Kernel.Run 3 unread ([⟨.epollCtlAdd 3 5 (interest .stdout) 1, .ok ()⟩] ++
    ([⟨.waitpidNoHang 42, .ok none⟩] ++ [⟨.instantNow, (0 : Nat)⟩])) finished := by
  have added : Kernel.Run 3 unread [⟨.epollCtlAdd 3 5 (interest .stdout) 1, .ok ()⟩] _ :=
    .step .start (@Kernel.Parent.exchange 3 _ _ _ finished.pending (.add rfl) (marks_finished rfl rfl))
  have ended := added.env
    (@Kernel.Child.far _ _ finished.pending (@Kernel.Far.closeWriters _ 0) (marks_finished rfl rfl))
  have waited : Kernel.Run 3 unread
      [⟨.epollCtlAdd 3 5 (interest .stdout) 1, .ok ()⟩, ⟨.waitpidNoHang 42, .ok none⟩] _ :=
    ended.step (@Kernel.Parent.exchange 3 _ _ _ finished.pending (.elsewhere rfl) (marks_finished rfl rfl))
  exact waited.step (@Kernel.Parent.exchange 3 _ _ _ finished.pending (.elsewhere rfl) (marks_finished rfl rfl))

theorem finished_pending : finished.Pending 5 ∨ finished.revents 5 (interest .stdout) = 0 := by
  have registered : Exec (onlyStdout.registerWithReactor ⟨3, 1, ⟨[], 64⟩, none, none, none⟩)
      [⟨.epollCtlAdd 3 5 (interest .stdout) 1, .ok ()⟩]
      (.done ({ onlyStdout with stdoutSlot := some ⟨some ⟨1⟩, ⟨5⟩⟩ }, ⟨3, 2, ⟨[], 64⟩, none, none, none⟩, .ok ())) :=
    .of_replay 1 rfl
  have head : Head gracefully { onlyStdout with stdoutSlot := some ⟨some ⟨1⟩, ⟨5⟩⟩ }
      ⟨3, 2, ⟨[], 64⟩, none, none, none⟩ 0 ([⟨.waitpidNoHang 42, .ok none⟩] ++ [⟨.instantNow, (0 : Nat)⟩]) _ :=
    .start (.of_replay 3 rfl)
  exact (no_lost_wakeup registered head run_finished).1 .stdout _ rfl

end WaitLoop

end CoreShift
