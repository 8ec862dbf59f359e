import CoreShift.Memory.RawVec
import CoreShift.Reactor.Setup

namespace Memory.RawVec

open Interaction CoreShift

variable {α : Type}

def reserveFor (v : RawVec α) (max : Nat) : Prog (RawVec α) := do
  if v.capacity < max then
    let capacity ← ask (.reserve v.len v.capacity (max - v.len))
    return v.grow capacity.val
  else return v

def push (v : RawVec α) (x : α) : Prog (Except Fault (RawVec α)) := do
  if v.len = v.capacity then
    let capacity ← ask (.reserve v.len v.capacity 1)
    return (v.grow capacity.val).put x
  else return v.put x

def view (v : RawVec α) : RoomyVec α := ⟨v.contents, v.capacity⟩

theorem Holds.view {v : RawVec α} {xs : List α} (holds : v.Holds xs) : v.view = ⟨xs, v.capacity⟩ := by
  rw [RawVec.view, holds.contents]

theorem Holds.reserved {v : RawVec α} {xs : List α} (holds : v.Holds xs) {max capacity : Nat}
    (answered : v.len + (max - v.len) ≤ capacity) :
    (v.grow capacity).Holds xs ∧ max ≤ (v.grow capacity).capacity ∧ (v.grow capacity).capacity = capacity := by
  rw [holds.len] at answered
  have grown : (v.grow capacity).capacity = capacity := holds.capacity_grow (by omega)
  exact ⟨holds.grow capacity, by omega, grown⟩

theorem exec_reserveFor {v w : RawVec α} {xs : List α} {max : Nat} {t : Trace} (holds : v.Holds xs)
    (run : Exec (v.reserveFor max) t (.done w)) : w.Holds xs ∧ max ≤ w.capacity := by
  unfold reserveFor at run
  split at run
  · obtain ⟨capacity, _, rfl, returned⟩ := run.ask_done
    cases ((exec_pure_iff _ _ _).mp returned).2
    have reserved := holds.reserved capacity.property
    exact ⟨reserved.1, reserved.2.1⟩
  · rename_i enough
    cases ((exec_pure_iff _ _ _).mp run).2
    exact ⟨holds, Nat.le_of_not_lt enough⟩

theorem reserveFor_issues (v : RawVec α) (max : Nat) :
    (v.reserveFor max).Issues fun c : Call => ∃ len capacity additional, c = .reserve len capacity additional := by
  unfold reserveFor
  split
  · exact .bind ((Program.issues_ask _ _).mpr ⟨_, _, _, rfl⟩) fun _ => trivial
  · trivial

theorem Holds.bind_reserveFor {β : Type} {v : RawVec α} {xs : List α} (holds : v.Holds xs) {max : Nat}
    {rest : RawVec α → Prog β} {rest' : RoomyVec α → Prog β}
    (same : ∀ w, w.Holds xs → max ≤ w.capacity → rest w = rest' w.view) :
    v.reserveFor max >>= rest = v.view.reserveFor max >>= rest' := by
  rw [holds.view]
  obtain ⟨cells, len⟩ := v
  have size : len = xs.length := holds.len
  subst size
  unfold reserveFor RoomyVec.reserveFor
  by_cases room : RawVec.capacity ⟨cells, xs.length⟩ < max
  · simp only [room, ↓reduceIte, bind_assoc, pure_bind]
    refine congrArg (Program.call _) (funext fun capacity => ?_)
    have reserved := holds.reserved capacity.property
    show rest _ = rest' _
    rw [same _ reserved.1 reserved.2.1, reserved.1.view, reserved.2.2]
  · simp only [room, ↓reduceIte, pure_bind]
    rw [same _ holds (Nat.le_of_not_lt room), holds.view]

theorem Holds.push {v : RawVec α} {xs : List α} (holds : v.Holds xs) (room : xs.length < v.capacity) (x : α) :
    ∃ v', v.push x = pure (.ok v') ∧ v'.Holds (xs ++ [x]) ∧ v'.capacity = v.capacity := by
  obtain ⟨v', stored, holds', same⟩ := holds.put room x
  have space : v.len ≠ v.capacity := by
    rw [holds.len]
    omega
  refine ⟨v', ?_, holds', same⟩
  rw [RawVec.push, if_neg space, stored]

end Memory.RawVec

namespace CoreShift

open Interaction Memory

structure RawReactor where
  epfd : Nat
  nextToken : UInt64
  eventsBuf : RawVec EpollEvent
  signalfd : Option Fd
  sigchldToken : Option Token
  inotifyToken : Option Token
  deriving DecidableEq, Repr

namespace RawReactor

def view (r : RawReactor) : Reactor where
  epfd := r.epfd
  nextToken := r.nextToken
  eventsBuf := r.eventsBuf.view
  signalfd := r.signalfd
  sigchldToken := r.sigchldToken
  inotifyToken := r.inotifyToken

def new : Prog (Except SysError RawReactor) := do
  match syscallRet (← ask .epollCreate1) "epoll_create1" with
  | .error e => return .error e
  | .ok epfd =>
    let capacity ← ask (.reserve 0 0 64)
    return .ok {
      epfd
      nextToken := 1
      eventsBuf := .withCapacity capacity.val
      signalfd := none
      sigchldToken := none
      inotifyToken := none }

/-- `for i in 0..n { let ev = self.events_buf[i]; ...; buffer.push(...) }`, from `i` on. -/
def pushFrom (eventsBuf : RawVec EpollEvent) : Nat → Nat → RawVec Reactor.Event →
    Prog (Except Fault (RawVec Reactor.Event))
  | _, 0, buffer => return .ok buffer
  | i, left + 1, buffer =>
    match eventsBuf.get i with
    | .error fault => return .error fault
    | .ok ev => do
      match ← buffer.push (Reactor.translate ev) with
      | .error fault => return .error fault
      | .ok buffer => pushFrom eventsBuf (i + 1) left buffer

/-- What `wait` does with the answer of `epoll_wait`. The kernel was given `events_buf.as_mut_ptr()`: it stores
    there, from the start of the allocation on, and knows nothing of how long it is. -/
def receive (r : RawReactor) (buffer : RawVec Reactor.Event) (eventsBuf : RawVec EpollEvent) {count : Int} :
    Except Errno { events : List EpollEvent // events.length ≤ count.toNat } →
    Prog (Except Fault (RawReactor × RawVec Reactor.Event × Except SysError Nat))
  | .ok ready =>
    if 0 < ready.val.length then
      match eventsBuf.store ready.val >>= (·.setLen ready.val.length) with
      | .error fault => return .error fault
      | .ok eventsBuf => do
        match ← pushFrom eventsBuf 0 ready.val.length buffer with
        | .error fault => return .error fault
        | .ok buffer => return .ok ({ r with eventsBuf }, buffer, .ok ready.val.length)
    else return .ok ({ r with eventsBuf }, buffer, .ok 0)
  | .error e =>
    if e = EINTR then return .ok ({ r with eventsBuf }, buffer, .ok 0)
    else return .ok ({ r with eventsBuf }, buffer, .error (.sys e "epoll_wait"))

def wait (r : RawReactor) (buffer : RawVec Reactor.Event) (maxEvents : Nat) (timeout : Int) :
    Prog (Except Fault (RawReactor × RawVec Reactor.Event × Except SysError Nat)) := do
  let buffer := buffer.clear
  if maxEvents = 0 then return .ok (r, buffer, .ok 0)
  else
    let buffer ← buffer.reserveFor maxEvents
    let eventsBuf ← r.eventsBuf.reserveFor maxEvents
    r.receive buffer eventsBuf (← ask (.epollWait r.epfd (Reactor.asI32 maxEvents) timeout))

section
variable {stored : List EpollEvent} {eventsBuf : RawVec EpollEvent}

theorem pushFrom_eq (holds : eventsBuf.Holds stored) (left i : Nat) {buffer : RawVec Reactor.Event}
    (pushed : buffer.Holds ((stored.take i).map Reactor.translate)) (whole : i + left = stored.length)
    (room : stored.length ≤ buffer.capacity) :
    ∃ buffer', pushFrom eventsBuf i left buffer = pure (.ok buffer') ∧
      buffer'.Holds (stored.map Reactor.translate) ∧ buffer'.capacity = buffer.capacity := by
  induction left generalizing i buffer with
  | zero =>
    have all : stored.length ≤ i := by omega
    rw [List.take_of_length_le all] at pushed
    exact ⟨buffer, rfl, pushed, rfl⟩
  | succ left ih =>
    have inside : i < stored.length := by omega
    have space : ((stored.take i).map Reactor.translate).length < buffer.capacity := by
      rw [List.length_map, List.length_take]
      omega
    obtain ⟨next, pushes, longer, same⟩ := pushed.push space (Reactor.translate stored[i])
    have taken : (stored.take i).map Reactor.translate ++ [Reactor.translate stored[i]] =
        (stored.take (i + 1)).map Reactor.translate := by
      rw [List.take_succ_eq_append_getElem inside, List.map_append]
      rfl
    rw [taken] at longer
    obtain ⟨buffer', rest, holds', kept⟩ := ih (i + 1) longer (by omega) (by omega)
    refine ⟨buffer', ?_, holds', kept.trans same⟩
    simp only [pushFrom, holds.get inside, pushes, pure_bind]
    exact rest

def fetchedBy : Interaction.Event os → List EpollEvent
  | ⟨.epollWait _ _ _, .ok ready⟩ => ready.val
  | _ => []

def fetched (t : Trace) : List EpollEvent := t.flatMap fetchedBy

@[simp] theorem fetched_append (t t' : Trace) : fetched (t ++ t') = fetched t ++ fetched t' := List.flatMap_append ..

theorem fetched_of_reserved {α : Type} {v w : RawVec α} {max : Nat} {t : Trace}
    (run : Exec (v.reserveFor max) t (.done w)) : fetched t = [] := by
  refine List.flatMap_eq_nil_iff.mpr fun e member => ?_
  obtain ⟨call, answer⟩ := e
  obtain ⟨len, capacity, additional, same⟩ := (run.issues (v.reserveFor_issues max)).1 _ member
  cases same
  rfl

def resultOf {count : Int} :
    Except Errno { events : List EpollEvent // events.length ≤ count.toNat } → Except SysError Nat
  | .ok ready => .ok ready.val.length
  | .error e => if e = EINTR then .ok 0 else .error (.sys e "epoll_wait")

theorem length_of_result {epfd n : Nat} {count timeout : Int} {answer : (Call.epollWait epfd count timeout).Answer}
    (same : resultOf answer = .ok n) : n = (fetchedBy ⟨.epollWait epfd count timeout, answer⟩).length := by
  cases answer with
  | ok ready => exact (Except.ok.inj same).symm
  | error e =>
    simp only [resultOf] at same
    split at same
    · exact (Except.ok.inj same).symm
    · cases same

theorem receive_eq (r : RawReactor) {buffer : RawVec Reactor.Event} (holds : eventsBuf.Holds stored)
    (empty : buffer.Holds []) {epfd : Nat} {count timeout : Int} (room : count.toNat ≤ eventsBuf.capacity)
    (room' : count.toNat ≤ buffer.capacity) (answer : (Call.epollWait epfd count timeout).Answer) :
    ∃ eventsBuf' buffer', r.receive buffer eventsBuf answer =
        pure (.ok ({ r with eventsBuf := eventsBuf' }, buffer', resultOf answer)) ∧
      buffer'.Holds ((fetchedBy ⟨.epollWait epfd count timeout, answer⟩).map Reactor.translate) ∧
      eventsBuf'.Holds (if fetchedBy ⟨.epollWait epfd count timeout, answer⟩ = [] then stored
        else fetchedBy ⟨.epollWait epfd count timeout, answer⟩) ∧
      eventsBuf'.capacity = eventsBuf.capacity ∧ buffer'.capacity = buffer.capacity := by
  cases answer with
  | error e =>
    refine ⟨eventsBuf, buffer, ?_, empty, holds, rfl, rfl⟩
    by_cases interrupted : e = EINTR
    · simp only [receive, resultOf, interrupted, ↓reduceIte]
    · simp only [receive, resultOf, interrupted, ↓reduceIte]
  | ok ready =>
    obtain ⟨events, few⟩ := ready
    by_cases some : 0 < events.length
    · have fits : events.length ≤ eventsBuf.capacity := Nat.le_trans few room
      obtain ⟨eventsBuf', lengthened, holds', same⟩ := eventsBuf.store_setLen fits
      obtain ⟨buffer', pushes, pushed, same'⟩ :=
        pushFrom_eq holds' events.length 0 empty (Nat.zero_add _) (Nat.le_trans few room')
      have present : events ≠ [] := List.length_pos_iff.mp some
      refine ⟨eventsBuf', buffer', ?_, pushed, ?_, same, same'⟩
      · simp only [receive, resultOf, some, ↓reduceIte, lengthened, pushes, pure_bind]
      · simp only [fetchedBy, present, ↓reduceIte]
        exact holds'
    · have nothing : events = [] := List.eq_nil_of_length_eq_zero (Nat.eq_zero_of_not_pos some)
      subst nothing
      exact ⟨eventsBuf, buffer, rfl, empty, holds, rfl, rfl⟩

end

section
variable {r : RawReactor} {buffer : RawVec Reactor.Event} {maxEvents : Nat} {timeout : Int}

theorem wait_eq (some : maxEvents ≠ 0) :
    r.wait buffer maxEvents timeout = (do
      let buffer ← buffer.clear.reserveFor maxEvents
      let eventsBuf ← r.eventsBuf.reserveFor maxEvents
      r.receive buffer eventsBuf (← ask (.epollWait r.epfd (Reactor.asI32 maxEvents) timeout))) := by
  unfold wait
  rw [if_neg some]

theorem asI32_toNat_le (n : Nat) : (Reactor.asI32 n).toNat ≤ n := by
  have wrapped : (BitVec.ofNat 32 n).toNat ≤ n := by
    rw [BitVec.toNat_ofNat]
    exact Nat.mod_le _ _
  unfold Reactor.asI32
  rw [BitVec.toInt_eq_toNat_cond]
  split <;> omega

def seen : RawReactor × RawVec Reactor.Event × Except SysError Nat →
    Reactor × RoomyVec Reactor.Event × Except SysError Nat
  | (r, buffer, result) => (r.view, buffer.view, result)

/-- With its memory or without it, `wait` is the same program. -/
theorem wait_refines (valid : r.eventsBuf.Valid) :
    Except.map seen <$> r.wait buffer maxEvents timeout = Except.ok <$> r.view.wait buffer.view maxEvents timeout := by
  obtain ⟨stored, holds⟩ := valid
  have cleared : { buffer.view with items := [] } = buffer.clear.view := by
    rw [buffer.holds_clear.view]
    rfl
  unfold Reactor.wait
  simp only [cleared]
  by_cases none : maxEvents = 0
  · simp only [wait, none, ↓reduceIte, map_pure]
    rfl
  · rw [wait_eq none]
    simp only [none, ↓reduceIte, map_bind]
    refine buffer.holds_clear.bind_reserveFor fun room empty enough => ?_
    refine holds.bind_reserveFor fun eventsBuf kept enough' => ?_
    refine congrArg (Program.call _) (funext fun answer => ?_)
    have bound := asI32_toNat_le maxEvents
    obtain ⟨eventsBuf', buffer', received, pushed, holds', same, same'⟩ :=
      r.receive_eq kept empty (Nat.le_trans bound enough') (Nat.le_trans bound enough) answer
    show Except.map seen <$> r.receive room eventsBuf answer = _
    rw [received, map_pure]
    show pure (Except.ok ({ r.view with eventsBuf := eventsBuf'.view }, buffer'.view, resultOf answer)) = _
    rw [holds'.view, pushed.view, same, same', kept.view, empty.view]
    cases answer with
    | error e =>
      by_cases interrupted : e = EINTR
      · subst interrupted
        rfl
      · show _ = Except.ok <$> ite (e = EINTR) _ _
        rw [if_neg interrupted, resultOf, if_neg interrupted]
        rfl
    | ok ready =>
      show _ = Except.ok <$> ite (0 < ready.val.length) _ _
      by_cases some : 0 < ready.val.length
      · have present : ready.val ≠ [] := List.length_pos_iff.mp some
        rw [if_pos some, fetchedBy, if_neg present]
        rfl
      · have nothing : ready.val = [] := List.eq_nil_of_length_eq_zero (Nat.eq_zero_of_not_pos some)
        rw [if_neg some, fetchedBy, resultOf, nothing]
        rfl

end

def adopt (r : RawReactor) (reactor : Reactor) : RawReactor :=
  { r with
    nextToken := reactor.nextToken
    signalfd := reactor.signalfd
    sigchldToken := reactor.sigchldToken
    inotifyToken := reactor.inotifyToken }

/-- The histories of a reactor: it is waited on, with any buffer each time, and descriptors are added in
    between. A call that panics in a reservation leaves it as it was. -/
inductive Used : RawReactor → Prop where
  | new {r : RawReactor} {t : Trace} (made : Exec RawReactor.new t (.done (.ok r))) : Used r
  | wait {r r' : RawReactor} {buffer buffer' : RawVec Reactor.Event} {maxEvents : Nat} {timeout : Int} {t : Trace}
      {result : Except SysError Nat} (before : Used r)
      (run : Exec (r.wait buffer maxEvents timeout) t (.done (.ok (r', buffer', result)))) : Used r'
  | setup {r : RawReactor} {reactor : Reactor} {s : Reactor.Setup} {t : Trace} {result : Except SysError s.Result}
      (before : Used r) (run : Exec (r.view.perform s) t (.done (reactor, result))) : Used (r.adopt reactor)

theorem new_refines : Except.map view <$> new = Reactor.new := by
  unfold new Reactor.new
  simp only [map_bind]
  refine congrArg (Program.call _) (funext fun answer => ?_)
  cases answer with
  | error e => rfl
  | ok epfd =>
    refine congrArg (Program.call _) (funext fun capacity => ?_)
    have fresh := (RawVec.holds_withCapacity (α := EpollEvent) capacity.val).view
    show (pure (.ok (view _)) : Prog (Except SysError Reactor)) = _
    rw [view, fresh, RawVec.capacity_withCapacity]
    rfl

theorem performed_keeps {r r' : Reactor} {s : Reactor.Setup} {t : Trace} {result : Except SysError s.Result}
    (performed : Reactor.Performed r s t r' result) : r'.epfd = r.epfd ∧ r'.eventsBuf = r.eventsBuf := by
  cases performed <;> exact ⟨rfl, rfl⟩

theorem setup_refines {r : RawReactor} {reactor : Reactor} {s : Reactor.Setup} {t : Trace}
    {result : Except SysError s.Result} (run : Exec (r.view.perform s) t (.done (reactor, result))) :
    (r.adopt reactor).view = reactor := by
  obtain ⟨epoll, events⟩ := performed_keeps (Reactor.exec_perform run)
  cases reactor
  simp only [adopt, view] at *
  rw [epoll, events]

section
variable {r : RawReactor} {buffer : RawVec Reactor.Event} {maxEvents : Nat} {timeout : Int} {t : Trace}
  {o : Outcome os (Except Fault (RawReactor × RawVec Reactor.Event × Except SysError Nat))}

inductive Waited (r : RawReactor) (buffer : RawVec Reactor.Event) (maxEvents : Nat) (timeout : Int)
    (stored : List EpollEvent) :
    Trace → Outcome os (Except Fault (RawReactor × RawVec Reactor.Event × Except SysError Nat)) → Prop where
  | nothing (none : maxEvents = 0) :
      Waited r buffer maxEvents timeout stored [] (.done (.ok (r, buffer.clear, .ok 0)))
  | reserving {t : Trace} {len capacity additional : Nat} :
      Waited r buffer maxEvents timeout stored t (.waiting (.reserve len capacity additional))
  | asking {t₁ t₂ : Trace} {room : RawVec Reactor.Event} {eventsBuf : RawVec EpollEvent}
      (roomy : Exec (buffer.clear.reserveFor maxEvents) t₁ (.done room))
      (reserved : Exec (r.eventsBuf.reserveFor maxEvents) t₂ (.done eventsBuf))
      (enough : maxEvents ≤ eventsBuf.capacity) :
      Waited r buffer maxEvents timeout stored (t₁ ++ t₂)
        (.waiting (.epollWait r.epfd (Reactor.asI32 maxEvents) timeout))
  | answered {t : Trace} {buffer' : RawVec Reactor.Event} {eventsBuf : RawVec EpollEvent}
      {answer : (Call.epollWait r.epfd (Reactor.asI32 maxEvents) timeout).Answer} {events : List EpollEvent}
      (reserves : fetched t = [])
      (brought : fetchedBy ⟨.epollWait r.epfd (Reactor.asI32 maxEvents) timeout, answer⟩ = events)
      (pushed : buffer'.Holds (events.map Reactor.translate))
      (holds : eventsBuf.Holds (if events = [] then stored else events)) :
      Waited r buffer maxEvents timeout stored
        (t ++ [⟨.epollWait r.epfd (Reactor.asI32 maxEvents) timeout, answer⟩])
        (.done (.ok ({ r with eventsBuf }, buffer', resultOf answer)))

theorem exec_wait {stored : List EpollEvent} (holds : r.eventsBuf.Holds stored)
    (run : Exec (r.wait buffer maxEvents timeout) t o) : Waited r buffer maxEvents timeout stored t o := by
  by_cases none : maxEvents = 0
  · simp only [wait, none, ↓reduceIte, exec_pure_iff] at run
    obtain ⟨rfl, rfl⟩ := run
    exact .nothing none
  · rw [wait_eq none] at run
    rcases exec_bind_cases run with ⟨c, rfl, stopped⟩ | ⟨t₁, room, u, rfl, roomy, run⟩
    · obtain ⟨len, capacity, additional, rfl⟩ := (stopped.issues (RawVec.reserveFor_issues _ _)).2 c rfl
      exact .reserving
    · rcases exec_bind_cases run with ⟨c, rfl, stopped⟩ | ⟨t₂, eventsBuf, v, rfl, reserved, run⟩
      · obtain ⟨len, capacity, additional, rfl⟩ := (stopped.issues (RawVec.reserveFor_issues _ _)).2 c rfl
        exact .reserving
      · obtain ⟨empty, enough⟩ := RawVec.exec_reserveFor buffer.holds_clear roomy
        obtain ⟨kept, enough'⟩ := RawVec.exec_reserveFor holds reserved
        rcases run.ask_cases with ⟨rfl, rfl⟩ | ⟨answer, w, rfl, received⟩
        · rw [List.append_nil]
          exact .asking roomy reserved enough'
        · have bound := asI32_toNat_le maxEvents
          obtain ⟨eventsBuf', buffer', same, pushed, holds', _, _⟩ :=
            r.receive_eq kept empty (Nat.le_trans bound enough') (Nat.le_trans bound enough) answer
          rw [same] at received
          obtain ⟨rfl, rfl⟩ := (exec_pure_iff _ _ _).mp received
          rw [← List.append_assoc]
          have quiet := fetched_of_reserved roomy
          have quiet' := fetched_of_reserved reserved
          refine .answered ?_ rfl pushed holds'
          rw [fetched_append, quiet, quiet']
          rfl

theorem Waited.valid {r' : RawReactor} {buffer' : RawVec Reactor.Event} {result : Except SysError Nat}
    {stored : List EpollEvent} (holds : r.eventsBuf.Holds stored)
    (waited : Waited r buffer maxEvents timeout stored t (.done (.ok (r', buffer', result)))) :
    r'.eventsBuf.Valid := by
  cases waited with
  | nothing none => exact ⟨_, holds⟩
  | answered reserves brought pushed holds' => exact ⟨_, holds'⟩

theorem Used.valid (used : Used r) : r.eventsBuf.Valid := by
  induction used with
  | new made =>
    obtain ⟨answer, _, rfl, created⟩ := made.ask_done
    cases answer with
    | error e => cases ((exec_pure_iff _ _ _).mp created).2
    | ok epfd =>
      obtain ⟨capacity, _, rfl, reserved⟩ := created.ask_done
      cases ((exec_pure_iff _ _ _).mp reserved).2
      exact ⟨[], RawVec.holds_withCapacity _⟩
  | wait before run ih =>
    obtain ⟨stored, holds⟩ := ih
    exact (exec_wait holds run).valid holds
  | setup before run ih => exact ih

/-- What a call does with memory. The count that the kernel is given, when it is positive, is no more than there
    is room for; a length is set to what was just stored; and the caller gets the events of this call. -/
structure Contained (r : RawReactor) (buffer : RawVec Reactor.Event) (maxEvents : Nat) (timeout : Int) (t : Trace)
    (o : Outcome os (Except Fault (RawReactor × RawVec Reactor.Event × Except SysError Nat))) : Prop where
  unfaulted : ∀ fault, o ≠ .done (.error fault)
  lent : ∀ epfd count passed, o = .waiting (.epollWait epfd count passed) →
    epfd = r.epfd ∧ count = Reactor.asI32 maxEvents ∧ passed = timeout ∧
    ∃ t₁ t₂ room eventsBuf, t = t₁ ++ t₂ ∧ Exec (buffer.clear.reserveFor maxEvents) t₁ (.done room) ∧
      Exec (r.eventsBuf.reserveFor maxEvents) t₂ (.done eventsBuf) ∧ (0 < count → count ≤ eventsBuf.capacity)
  lengthened : ∀ r' buffer' result, o = .done (.ok (r', buffer', result)) → fetched t ≠ [] →
    r'.eventsBuf.len = (fetched t).length ∧ (fetched t).length ≤ r'.eventsBuf.capacity ∧
      r'.eventsBuf.contents = fetched t
  handed : ∀ r' buffer' result, o = .done (.ok (r', buffer', result)) →
    buffer'.Holds ((fetched t).map Reactor.translate) ∧ ∀ n, result = .ok n → n = (fetched t).length

/-- Whatever the calls before it, and however `max_events` grows and shrinks, a call of `wait` stays
    inside the event buffer. -/
theorem event_buffer_never_overrun (used : Used r) (run : Exec (r.wait buffer maxEvents timeout) t o) :
    Contained r buffer maxEvents timeout t o := by
  obtain ⟨stored, holds⟩ := used.valid
  cases exec_wait holds run with
  | nothing none =>
    refine ⟨nofun, nofun, fun _ _ _ _ present => absurd rfl present, fun r' buffer' result same => ?_⟩
    cases same
    exact ⟨buffer.holds_clear, fun n same => (Except.ok.inj same).symm⟩
  | reserving => exact ⟨nofun, nofun, nofun, nofun⟩
  | asking roomy reserved enough =>
    refine ⟨nofun, fun epfd count passed same => ?_, nofun, nofun⟩
    cases same
    have bound := asI32_toNat_le maxEvents
    exact ⟨rfl, rfl, rfl, _, _, _, _, rfl, roomy, reserved, fun positive => by omega⟩
  | @answered u buffer₁ eventsBuf answer events reserves brought pushed holds' =>
    have whole : fetched (u ++ [⟨.epollWait r.epfd (Reactor.asI32 maxEvents) timeout, answer⟩]) = events := by
      rw [fetched_append, reserves, ← brought]
      exact List.append_nil _
    refine ⟨nofun, nofun, fun r' buffer' result same present => ?_, fun r' buffer' result same => ?_⟩
    · cases same
      rw [whole] at present ⊢
      rw [if_neg present] at holds'
      exact ⟨holds'.len, holds'.within, holds'.contents⟩
    · cases same
      rw [whole]
      exact ⟨pushed, fun n same => brought ▸ length_of_result same⟩

end

def noEvents : RawVec Reactor.Event := ⟨[], 0⟩

def afterOne : RawReactor :=
  { epfd := 3
    nextToken := 1
    eventsBuf := ⟨some ⟨EPOLLIN, 1⟩ :: List.replicate 63 none, 1⟩
    signalfd := none
    sigchldToken := none
    inotifyToken := none }

theorem used_afterOne : Used afterOne := by
  have made : Exec RawReactor.new [⟨.epollCreate1, .ok 3⟩, ⟨.reserve 0 0 64, ⟨64, by omega⟩⟩]
      (.done (.ok ⟨3, 1, .withCapacity 64, none, none, none⟩)) := .of_replay 2 rfl
  have waited : Exec (RawReactor.wait ⟨3, 1, .withCapacity 64, none, none, none⟩ noEvents 64 (-1))
      [⟨.reserve 0 0 64, ⟨64, by omega⟩⟩, ⟨.epollWait 3 64 (-1), .ok ⟨[⟨EPOLLIN, 1⟩], by decide⟩⟩]
      (.done (.ok (afterOne, ⟨some ⟨⟨1⟩, true, false, false⟩ :: List.replicate 63 none, 1⟩, .ok 1))) :=
    .of_replay 2 rfl
  exact (Used.new made).wait waited

def moreAsked : Trace :=
  [⟨.reserve 0 0 100, ⟨100, by omega⟩⟩, ⟨.reserve 1 64 99, ⟨128, by omega⟩⟩,
    ⟨.epollWait 3 100 (-1), .ok ⟨[⟨EPOLLOUT, 2⟩, ⟨EPOLLIN, 1⟩], by decide⟩⟩]

def afterTwo : RawReactor :=
  { afterOne with eventsBuf := ⟨[some ⟨EPOLLOUT, 2⟩, some ⟨EPOLLIN, 1⟩] ++ List.replicate 126 none, 2⟩ }

def twoEvents : RawVec Reactor.Event :=
  ⟨[some ⟨⟨2⟩, false, true, false⟩, some ⟨⟨1⟩, true, false, false⟩] ++ List.replicate 98 none, 2⟩

theorem more_asked_contained :
    Contained afterOne noEvents 100 (-1) moreAsked (.done (.ok (afterTwo, twoEvents, .ok 2))) := by
  have run : Exec (afterOne.wait noEvents 100 (-1)) moreAsked (.done (.ok (afterTwo, twoEvents, .ok 2))) :=
    .of_replay 3 rfl
  exact event_buffer_never_overrun used_afterOne run

end RawReactor

end CoreShift
