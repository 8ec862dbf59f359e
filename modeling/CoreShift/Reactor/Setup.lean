import CoreShift.Reactor
import Mathlib.Logic.Function.Basic

namespace CoreShift.Reactor

open Interaction

inductive Setup where
  | add (fd : Fd) (readable writable : Bool)
  | setupInotify
  | setupSignalfd

@[reducible] def Setup.Result : Setup → Type
  | .add .. => Token
  | .setupInotify => Fd
  | .setupSignalfd => Unit

def perform (r : Reactor) : (s : Setup) → Prog (Reactor × Except SysError s.Result)
  | .add fd readable writable => r.add fd readable writable
  | .setupInotify => r.setupInotify
  | .setupSignalfd => r.setupSignalfd

/-- What the calls of a reactor may change outside it: the caller's signal mask, the open descriptors, and
    the registrations of the epoll instance. No two descriptors share an open file, so that closing one
    ends its registration. -/
structure Environment where
  blocked : Int → Bool
  isOpen : Nat → Bool
  registered : Nat → Option UInt64

namespace Environment

def opened (E : Environment) (fd : Nat) : Environment := { E with isOpen := Function.update E.isOpen fd true }

def closed (E : Environment) (fd : Nat) : Environment where
  blocked := E.blocked
  isOpen := Function.update E.isOpen fd false
  registered := Function.update E.registered fd none

def withBlocked (E : Environment) (set : List Int) : Environment :=
  { E with blocked := fun sig => E.blocked sig || set.contains sig }

def register (E : Environment) (fd : Nat) (entry : Option UInt64) : Environment :=
  { E with registered := Function.update E.registered fd entry }

/-- What an exchange does. A call that fails does nothing, and a new descriptor was not open. -/
inductive Step (epfd : Nat) (E : Environment) : Interaction.Event os → Environment → Prop where
  | inotify {flags fd : Nat} (fresh : E.isOpen fd = false) : Step epfd E ⟨.inotifyInit1 flags, .ok fd⟩ (E.opened fd)
  | inotifyFails {flags : Nat} {e : Errno} : Step epfd E ⟨.inotifyInit1 flags, .error e⟩ E
  | signalfd {set : List Int} {flags fd : Nat} (fresh : E.isOpen fd = false) :
      Step epfd E ⟨.signalfd (-1) set flags, .ok fd⟩ (E.opened fd)
  | signalfdFails {set : List Int} {flags : Nat} {e : Errno} : Step epfd E ⟨.signalfd (-1) set flags, .error e⟩ E
  | block {set : List Int} : Step epfd E ⟨.sigprocmask SIG_BLOCK set, .ok ()⟩ (E.withBlocked set)
  | blockFails {set : List Int} {e : Errno} : Step epfd E ⟨.sigprocmask SIG_BLOCK set, .error e⟩ E
  | add {fd : Nat} {events : UInt32} {data : UInt64} (isOpen : E.isOpen fd = true) (new : E.registered fd = none) :
      Step epfd E ⟨.epollCtlAdd epfd fd events data, .ok ()⟩ (E.register fd (some data))
  | addFails {fd : Nat} {events : UInt32} {data : UInt64} {e : Errno} :
      Step epfd E ⟨.epollCtlAdd epfd fd events data, .error e⟩ E
  | del {fd : Nat} : Step epfd E ⟨.epollCtlDel epfd fd, .ok ()⟩ (E.register fd none)
  | delFails {fd : Nat} {e : Errno} : Step epfd E ⟨.epollCtlDel epfd fd, .error e⟩ E
  | close {fd : Nat} {answer : Except Errno Unit} : Step epfd E ⟨.close fd, answer⟩ (E.closed fd)

inductive Run (epfd : Nat) : Environment → Trace → Environment → Prop where
  | nil {E : Environment} : Run epfd E [] E
  | cons {E E₁ E' : Environment} {e : Interaction.Event os} {t : Trace} (step : Step epfd E e E₁)
      (rest : Run epfd E₁ t E') :
      Run epfd E (e :: t) E'

variable {E E' : Environment} {epfd : Nat}

theorem Run.of_nil (run : Run epfd E [] E') : E' = E := by
  cases run
  rfl

theorem Run.head {e : Interaction.Event os} {t : Trace} (run : Run epfd E (e :: t) E') :
    ∃ E₁, Step epfd E e E₁ ∧ Run epfd E₁ t E' := by
  cases run with
  | cons step rest => exact ⟨_, step, rest⟩

theorem Run.added {fd : Nat} {events : UInt32} {data : UInt64} {t : Trace}
    (run : Run epfd E (⟨.epollCtlAdd epfd fd events data, .ok ()⟩ :: t) E') :
    E.isOpen fd = true ∧ E.registered fd = none ∧ Run epfd (E.register fd (some data)) t E' := by
  obtain ⟨E₁, step, rest⟩ := run.head
  cases step with
  | add isOpen new => exact ⟨isOpen, new, rest⟩

theorem Run.refused {fd : Nat} {events : UInt32} {data : UInt64} {e : Errno} {t : Trace}
    (run : Run epfd E (⟨.epollCtlAdd epfd fd events data, .error e⟩ :: t) E') : Run epfd E t E' := by
  obtain ⟨E₁, step, rest⟩ := run.head
  cases step with
  | addFails => exact rest

theorem Run.inotify {flags fd : Nat} {t : Trace} (run : Run epfd E (⟨.inotifyInit1 flags, .ok fd⟩ :: t) E') :
    E.isOpen fd = false ∧ Run epfd (E.opened fd) t E' := by
  obtain ⟨E₁, step, rest⟩ := run.head
  cases step with
  | inotify fresh => exact ⟨fresh, rest⟩

theorem Run.signalfd {set : List Int} {flags fd : Nat} {t : Trace}
    (run : Run epfd E (⟨.signalfd (-1) set flags, .ok fd⟩ :: t) E') :
    E.isOpen fd = false ∧ Run epfd (E.opened fd) t E' := by
  obtain ⟨E₁, step, rest⟩ := run.head
  cases step with
  | signalfd fresh => exact ⟨fresh, rest⟩

theorem Run.masked {set : List Int} {t : Trace} (run : Run epfd E (⟨.sigprocmask SIG_BLOCK set, .ok ()⟩ :: t) E') :
    Run epfd (E.withBlocked set) t E' := by
  obtain ⟨E₁, step, rest⟩ := run.head
  cases step with
  | block => exact rest

theorem Run.closes {fd : Nat} {answer : Except Errno Unit} {t : Trace}
    (run : Run epfd E (⟨.close fd, answer⟩ :: t) E') : Run epfd (E.closed fd) t E' := by
  obtain ⟨E₁, step, rest⟩ := run.head
  cases step with
  | close => exact rest

theorem closed_opened {fd : Nat} (closed : E.isOpen fd = false) (unregistered : E.registered fd = none) :
    (E.opened fd).closed fd = E := by
  have opens : Function.update (Function.update E.isOpen fd true) fd false = E.isOpen := by
    rw [Function.update_idem, ← closed, Function.update_eq_self]
  have entries : Function.update E.registered fd none = E.registered := by
    rw [← unregistered, Function.update_eq_self]
  unfold opened Environment.closed
  rw [opens, entries]

theorem withBlocked_eq_iff {sig : Int} : E.withBlocked [sig] = E ↔ E.blocked sig = true := by
  constructor
  · intro same
    rw [← same]
    simp [withBlocked]
  · intro blocked
    have all : (fun other => E.blocked other || [sig].contains other) = E.blocked := by
      funext other
      by_cases this : other = sig
      · rw [this, blocked, Bool.true_or]
      · simp [this]
    unfold withBlocked
    rw [all]

def Consistent (E : Environment) : Prop := ∀ fd data, E.registered fd = some data → E.isOpen fd = true

theorem Consistent.unregistered (consistent : E.Consistent) {fd : Nat} (closed : E.isOpen fd = false) :
    E.registered fd = none := by
  cases entry : E.registered fd with
  | none => rfl
  | some data =>
    rw [consistent fd data entry] at closed
    cases closed

theorem Consistent.closed (consistent : E.Consistent) (fd : Nat) : (E.closed fd).Consistent := by
  intro other data entry
  by_cases same : other = fd
  · rw [same] at entry
    simp [Environment.closed] at entry
  · simp only [Environment.closed, ne_eq, same, not_false_eq_true, Function.update_of_ne] at entry ⊢
    exact consistent other data entry

theorem Consistent.opened (consistent : E.Consistent) (fd : Nat) : (E.opened fd).Consistent := by
  intro other data entry
  by_cases same : other = fd
  · rw [same]
    simp [Environment.opened]
  · simp only [Environment.opened, ne_eq, same, not_false_eq_true, Function.update_of_ne]
    exact consistent other data entry

theorem Consistent.register (consistent : E.Consistent) {fd : Nat} (isOpen : E.isOpen fd = true)
    (entry : Option UInt64) : (E.register fd entry).Consistent := by
  intro other data present
  by_cases same : other = fd
  · rw [same]
    exact isOpen
  · simp only [Environment.register, ne_eq, same, not_false_eq_true, Function.update_of_ne] at present
    exact consistent other data present

theorem Consistent.unregister (consistent : E.Consistent) (fd : Nat) : (E.register fd none).Consistent := by
  intro other data present
  by_cases same : other = fd
  · rw [same] at present
    simp [Environment.register] at present
  · simp only [Environment.register, ne_eq, same, not_false_eq_true, Function.update_of_ne] at present
    exact consistent other data present

theorem Step.consistent {e : Interaction.Event os} (step : Step epfd E e E') (consistent : E.Consistent) :
    E'.Consistent := by
  cases step with
  | inotify | signalfd => exact consistent.opened _
  | add isOpen => exact consistent.register isOpen _
  | del => exact consistent.unregister _
  | close => exact consistent.closed _
  | block | inotifyFails | signalfdFails | blockFails | addFails | delFails => exact consistent

theorem Run.consistent {t : Trace} (run : Run epfd E t E') (consistent : E.Consistent) : E'.Consistent := by
  induction run with
  | nil => exact consistent
  | cons step _ ih => exact ih (step.consistent consistent)

end Environment

inductive Performed (r : Reactor) : (s : Setup) → Trace → Reactor → Except SysError s.Result → Prop where
  | refused {fd : Fd} {readable writable : Bool} {e : Errno} :
      Performed r (.add fd readable writable)
        [⟨.epollCtlAdd r.epfd fd.raw (interestIn readable writable) r.nextToken, .error e⟩]
        r.advanced (.error (.sys e "epoll_ctl_add"))
  | added {fd : Fd} {readable writable : Bool} :
      Performed r (.add fd readable writable)
        [⟨.epollCtlAdd r.epfd fd.raw (interestIn readable writable) r.nextToken, .ok ()⟩]
        r.advanced (.ok ⟨r.nextToken⟩)
  | noInotify {e : Errno} :
      Performed r .setupInotify [⟨.inotifyInit1 (IN_CLOEXEC ||| IN_NONBLOCK), .error e⟩] r
        (.error (.sys e "inotify_init1"))
  | inotifyRefused {fd : Nat} {e : Errno} {answer : Except Errno Unit} :
      Performed r .setupInotify
        [⟨.inotifyInit1 (IN_CLOEXEC ||| IN_NONBLOCK), .ok fd⟩,
          ⟨.epollCtlAdd r.epfd fd (interestIn true false) r.nextToken, .error e⟩, ⟨.close fd, answer⟩]
        r.advanced (.error (.sys e "epoll_ctl_add"))
  | inotify {fd : Nat} :
      Performed r .setupInotify
        [⟨.inotifyInit1 (IN_CLOEXEC ||| IN_NONBLOCK), .ok fd⟩,
          ⟨.epollCtlAdd r.epfd fd (interestIn true false) r.nextToken, .ok ()⟩]
        { r.advanced with inotifyToken := some ⟨r.nextToken⟩ } (.ok ⟨fd⟩)
  | unmasked {e : Errno} :
      Performed r .setupSignalfd [⟨.sigprocmask SIG_BLOCK [SIGCHLD], .error e⟩] r (.error (.sys e "sigprocmask"))
  | noSignalfd {e : Errno} :
      Performed r .setupSignalfd
        [⟨.sigprocmask SIG_BLOCK [SIGCHLD], .ok ()⟩,
          ⟨.signalfd (-1) [SIGCHLD] (SFD_NONBLOCK ||| SFD_CLOEXEC), .error e⟩]
        r (.error (.sys e "signalfd"))
  | signalfdRefused {fd : Nat} {e : Errno} {answer : Except Errno Unit} :
      Performed r .setupSignalfd
        [⟨.sigprocmask SIG_BLOCK [SIGCHLD], .ok ()⟩,
          ⟨.signalfd (-1) [SIGCHLD] (SFD_NONBLOCK ||| SFD_CLOEXEC), .ok fd⟩,
          ⟨.epollCtlAdd r.epfd fd (interestIn true false) r.nextToken, .error e⟩, ⟨.close fd, answer⟩]
        r.advanced (.error (.sys e "epoll_ctl_add"))
  | signalfd {fd : Nat} {dropped : Trace}
      (closes : dropped = [] ∧ r.signalfd = none ∨
        ∃ old answer, r.signalfd = some old ∧ dropped = [⟨.close old.raw, answer⟩]) :
      Performed r .setupSignalfd
        (⟨.sigprocmask SIG_BLOCK [SIGCHLD], .ok ()⟩ ::
          ⟨.signalfd (-1) [SIGCHLD] (SFD_NONBLOCK ||| SFD_CLOEXEC), .ok fd⟩ ::
          ⟨.epollCtlAdd r.epfd fd (interestIn true false) r.nextToken, .ok ()⟩ :: dropped)
        { r.advanced with signalfd := some ⟨fd⟩, sigchldToken := some ⟨r.nextToken⟩ } (.ok ())

variable {r r' : Reactor} {t : Trace}

theorem exec_drop {fd : Fd} {u : Unit} (run : Exec fd.drop t (.done u)) : ∃ answer, t = [⟨.close fd.raw, answer⟩] := by
  obtain ⟨answer, rest, rfl, returned⟩ := Exec.ask_done run
  obtain ⟨rfl, _⟩ := (exec_pure_iff _ _ _).mp returned
  exact ⟨answer, rfl⟩

theorem exec_dropFd {fd : Option Fd} {u : Unit} (run : Exec (dropFd fd) t (.done u)) :
    t = [] ∧ fd = none ∨ ∃ old answer, fd = some old ∧ t = [⟨.close old.raw, answer⟩] := by
  cases fd with
  | none => exact .inl ⟨((exec_pure_iff _ _ _).mp run).1, rfl⟩
  | some old =>
    obtain ⟨answer, rfl⟩ := exec_drop run
    exact .inr ⟨old, answer, rfl, rfl⟩

theorem exec_setupInotify {result : Except SysError Fd} (run : Exec r.setupInotify t (.done (r', result))) :
    Performed r .setupInotify t r' result := by
  obtain ⟨answer, rest, rfl, answered⟩ := Exec.ask_done run
  cases answer with
  | error e =>
    obtain ⟨rfl, same⟩ := (exec_pure_iff _ _ _).mp answered
    cases same
    exact .noInotify
  | ok fd =>
    obtain ⟨first, ⟨reactor, added⟩, second, rfl, adding, resumed⟩ := exec_bind_done.mp answered
    obtain ⟨rfl, answer, rfl, rfl⟩ := exec_add adding
    cases answer with
    | error e =>
      obtain ⟨third, _, fourth, rfl, dropping, returned⟩ := exec_bind_done.mp resumed
      obtain ⟨answer, rfl⟩ := exec_drop dropping
      obtain ⟨rfl, same⟩ := (exec_pure_iff _ _ _).mp returned
      cases same
      exact .inotifyRefused
    | ok u =>
      obtain ⟨rfl, same⟩ := (exec_pure_iff _ _ _).mp resumed
      cases same
      exact .inotify

theorem exec_setupSignalfd {result : Except SysError Unit} (run : Exec r.setupSignalfd t (.done (r', result))) :
    Performed r .setupSignalfd t r' result := by
  obtain ⟨answer, rest, rfl, masked⟩ := Exec.ask_done run
  cases answer with
  | error e =>
    obtain ⟨rfl, same⟩ := (exec_pure_iff _ _ _).mp masked
    cases same
    exact .unmasked
  | ok u =>
    obtain ⟨answer, rest, rfl, created⟩ := Exec.ask_done masked
    cases answer with
    | error e =>
      obtain ⟨rfl, same⟩ := (exec_pure_iff _ _ _).mp created
      cases same
      exact .noSignalfd
    | ok fd =>
      obtain ⟨first, ⟨reactor, added⟩, second, rfl, adding, resumed⟩ := exec_bind_done.mp created
      obtain ⟨rfl, answer, rfl, rfl⟩ := exec_add adding
      cases answer with
      | error e =>
        obtain ⟨third, _, fourth, rfl, dropping, returned⟩ := exec_bind_done.mp resumed
        obtain ⟨answer, rfl⟩ := exec_drop dropping
        obtain ⟨rfl, same⟩ := (exec_pure_iff _ _ _).mp returned
        cases same
        exact .signalfdRefused
      | ok u =>
        obtain ⟨dropped, _, last, rfl, dropping, returned⟩ := exec_bind_done.mp resumed
        obtain ⟨rfl, same⟩ := (exec_pure_iff _ _ _).mp returned
        cases same
        rw [List.append_nil]
        exact .signalfd (exec_dropFd dropping)

theorem exec_perform {s : Setup} {result : Except SysError s.Result}
    (run : Exec (r.perform s) t (.done (r', result))) : Performed r s t r' result := by
  cases s with
  | add fd readable writable =>
    obtain ⟨rfl, answer, rfl, rfl⟩ := exec_add run
    cases answer with
    | error e => exact .refused
    | ok u => exact .added
  | setupInotify => exact exec_setupInotify run
  | setupSignalfd => exact exec_setupSignalfd run

def Masked (t : Trace) : Prop := ∃ set, (⟨.sigprocmask SIG_BLOCK set, .ok ()⟩ : Interaction.Event os) ∈ t

def Refused (t : Trace) : Prop :=
  ∃ e : Errno, (∃ set flags, (⟨.signalfd (-1) set flags, .error e⟩ : Interaction.Event os) ∈ t) ∨
    ∃ epfd fd events data, (⟨.epollCtlAdd epfd fd events data, .error e⟩ : Interaction.Event os) ∈ t

/-- `sigchld_token` is the token of the stored signalfd. -/
def Paired (r : Reactor) (E : Environment) : Prop :=
  ∃ fd token, r.signalfd = some fd ∧ r.sigchldToken = some token ∧ E.registered fd.raw = some token.val

structure Sound (r : Reactor) (E : Environment) : Prop where
  consistent : E.Consistent
  owned : ∀ fd, r.signalfd = some fd → E.isOpen fd.raw = true

def SameFields (r r' : Reactor) : Prop :=
  r'.signalfd = r.signalfd ∧ r'.sigchldToken = r.sigchldToken ∧ r'.inotifyToken = r.inotifyToken

variable {E E' : Environment}

theorem Performed.undone {s : Setup} {e : SysError} (performed : Performed r s t r' (.error e))
    (run : Environment.Run r.epfd E t E') (consistent : E.Consistent) :
    SameFields r r' ∧ (¬Masked t ∧ E' = E ∨
      s = .setupSignalfd ∧ Masked t ∧ Refused t ∧ E' = E.withBlocked [SIGCHLD]) := by
  cases performed with
  | refused =>
    exact ⟨⟨rfl, rfl, rfl⟩, .inl ⟨by simp [Masked], run.refused.of_nil⟩⟩
  | noInotify =>
    obtain ⟨E₁, step, rest⟩ := run.head
    cases step
    exact ⟨⟨rfl, rfl, rfl⟩, .inl ⟨by simp [Masked], rest.of_nil⟩⟩
  | inotifyRefused =>
    obtain ⟨fresh, rest⟩ := run.inotify
    have back := rest.refused.closes.of_nil
    rw [Environment.closed_opened fresh (consistent.unregistered fresh)] at back
    exact ⟨⟨rfl, rfl, rfl⟩, .inl ⟨by simp [Masked], back⟩⟩
  | unmasked =>
    obtain ⟨E₁, step, rest⟩ := run.head
    cases step
    exact ⟨⟨rfl, rfl, rfl⟩, .inl ⟨by simp [Masked], rest.of_nil⟩⟩
  | noSignalfd =>
    obtain ⟨E₁, step, rest⟩ := run.masked.head
    cases step
    exact ⟨⟨rfl, rfl, rfl⟩, .inr ⟨rfl, by simp [Masked], by simp [Refused], rest.of_nil⟩⟩
  | signalfdRefused =>
    obtain ⟨fresh, rest⟩ := run.masked.signalfd
    have back := rest.refused.closes.of_nil
    rw [Environment.closed_opened fresh (consistent.unregistered fresh)] at back
    exact ⟨⟨rfl, rfl, rfl⟩, .inr ⟨rfl, by simp [Masked], by simp [Refused], back⟩⟩

theorem Performed.accepted {s : Setup} {value : s.Result} (performed : Performed r s t r' (.ok value)) :
    ¬Refused t := by
  cases performed with
  | added => simp [Refused]
  | inotify => simp [Refused]
  | signalfd closes =>
    rcases closes with ⟨rfl, _⟩ | ⟨old, answer, _, rfl⟩
    · simp [Refused]
    · simp [Refused]

theorem Paired.register {fd : Nat} {data : UInt64} (paired : Paired r E) (new : E.registered fd = none)
    (signalfd : r'.signalfd = r.signalfd) (token : r'.sigchldToken = r.sigchldToken) :
    Paired r' (E.register fd (some data)) := by
  obtain ⟨own, mark, stored, known, entry⟩ := paired
  have other : own.raw ≠ fd := by
    intro same
    rw [same, new] at entry
    cases entry
  refine ⟨own, mark, signalfd.trans stored, token.trans known, ?_⟩
  rw [← entry]
  exact Function.update_of_ne other _ _

theorem replaced_keeps {fd : Nat} {dropped : Trace} (run : Environment.Run r.epfd E dropped E')
    (closes : dropped = [] ∧ r.signalfd = none ∨
      ∃ old answer, r.signalfd = some old ∧ dropped = [⟨.close old.raw, answer⟩])
    (other : ∀ old, r.signalfd = some old → fd ≠ old.raw) :
    E'.isOpen fd = E.isOpen fd ∧ E'.registered fd = E.registered fd := by
  rcases closes with ⟨rfl, _⟩ | ⟨old, answer, stored, rfl⟩
  · rw [run.of_nil]
    exact ⟨rfl, rfl⟩
  · have apart := other old stored
    rw [run.closes.of_nil]
    exact ⟨Function.update_of_ne apart _ _, Function.update_of_ne apart _ _⟩

theorem Sound.fresh_ne (sound : Sound r E) {fd : Nat} (fresh : E.isOpen fd = false) :
    ∀ old, r.signalfd = some old → fd ≠ old.raw := by
  intro old stored same
  rw [same, sound.owned old stored] at fresh
  cases fresh

theorem Performed.paired {s : Setup} {value : s.Result} (performed : Performed r s t r' (.ok value))
    (run : Environment.Run r.epfd E t E') (sound : Sound r E) :
    (∀ fd, r'.signalfd = some fd → E'.isOpen fd.raw = true) ∧ (s = .setupSignalfd ∨ Paired r E → Paired r' E') := by
  cases performed with
  | added =>
    obtain ⟨isOpen, new, rest⟩ := run.added
    rw [rest.of_nil]
    refine ⟨sound.owned, fun before => ?_⟩
    rcases before with impossible | paired
    · cases impossible
    · exact paired.register new rfl rfl
  | inotify =>
    obtain ⟨fresh, rest⟩ := run.inotify
    obtain ⟨_, new, rest⟩ := rest.added
    rw [rest.of_nil]
    refine ⟨fun fd stored => ?_, fun before => ?_⟩
    · have apart := sound.fresh_ne fresh fd stored
      rw [← sound.owned fd stored]
      exact Function.update_of_ne apart.symm _ _
    · rcases before with impossible | paired
      · cases impossible
      · exact Paired.register (E := E.opened _) paired new rfl rfl
  | @signalfd fd dropped closes =>
    obtain ⟨fresh, rest⟩ := run.masked.signalfd
    obtain ⟨isOpen, _, rest⟩ := rest.added
    have kept := replaced_keeps rest closes (sound.fresh_ne fresh)
    have stays : E'.isOpen fd = true := kept.1.trans isOpen
    have entry : E'.registered fd = some r.nextToken := kept.2.trans (Function.update_self ..)
    refine ⟨fun own stored => ?_, fun _ => ⟨⟨fd⟩, ⟨r.nextToken⟩, rfl, rfl, entry⟩⟩
    cases stored
    exact stays

theorem Sound.perform {s : Setup} {result : Except SysError s.Result} (sound : Sound r E)
    (performed : Performed r s t r' result) (run : Environment.Run r.epfd E t E') : Sound r' E' := by
  refine ⟨run.consistent sound.consistent, ?_⟩
  cases result with
  | ok value => exact (performed.paired run sound).1
  | error e =>
    obtain ⟨⟨stored, _, _⟩, outcome⟩ := performed.undone run sound.consistent
    rw [stored]
    rcases outcome with ⟨_, rfl⟩ | ⟨_, _, _, rfl⟩
    · exact sound.owned
    · exact sound.owned

/-- The histories of a reactor. Its client opens and closes other descriptors in between, and sets the mask. -/
inductive Reachable : Reactor → Environment → Prop where
  | new {r : Reactor} {t : Trace} {E : Environment} (made : Exec Reactor.new t (.done (.ok r)))
      (unused : E.registered = fun _ => none) : Reachable r E
  | setup {r r' : Reactor} {E E' : Environment} {t : Trace} {s : Setup} {result : Except SysError s.Result}
      (before : Reachable r E) (called : Exec (r.perform s) t (.done (r', result)))
      (run : Environment.Run r.epfd E t E') : Reachable r' E'
  | del {r : Reactor} {E E' : Environment} {t : Trace} {fd : Fd} {u : Unit} (before : Reachable r E)
      (called : Exec (r.del fd) t (.done u)) (run : Environment.Run r.epfd E t E') : Reachable r E'
  | opened {r : Reactor} {E : Environment} {fd : Nat} (before : Reachable r E) : Reachable r (E.opened fd)
  | closed {r : Reactor} {E : Environment} {fd : Nat} (before : Reachable r E) (foreign : r.signalfd ≠ some ⟨fd⟩) :
      Reachable r (E.closed fd)
  | masked {r : Reactor} {E : Environment} {blocked : Int → Bool} (before : Reachable r E) :
      Reachable r { E with blocked }

theorem exec_new {r : Reactor} (made : Exec Reactor.new t (.done (.ok r))) :
    r.nextToken = 1 ∧ r.signalfd = none ∧ r.sigchldToken = none ∧ r.inotifyToken = none := by
  obtain ⟨answer, rest, rfl, created⟩ := Exec.ask_done made
  cases answer with
  | error e => cases ((exec_pure_iff _ _ _).mp created).2
  | ok epfd =>
    obtain ⟨capacity, rest', rfl, reserved⟩ := Exec.ask_done created
    cases ((exec_pure_iff _ _ _).mp reserved).2
    exact ⟨rfl, rfl, rfl, rfl⟩

theorem exec_del {fd : Fd} {u : Unit} (run : Exec (r.del fd) t (.done u)) :
    ∃ answer, t = [⟨.epollCtlDel r.epfd fd.raw, answer⟩] := by
  obtain ⟨answer, rest, rfl, returned⟩ := Exec.ask_done run
  obtain ⟨rfl, _⟩ := (exec_pure_iff _ _ _).mp returned
  exact ⟨answer, rfl⟩

theorem Reachable.sound (reachable : Reachable r E) : Sound r E := by
  induction reachable with
  | new made unused =>
    obtain ⟨_, absent, _, _⟩ := exec_new made
    refine ⟨fun fd data entry => ?_, fun fd stored => ?_⟩
    · rw [unused] at entry
      cases entry
    · rw [absent] at stored
      cases stored
  | setup _ called run sound => exact sound.perform (exec_perform called) run
  | del _ called run sound =>
    obtain ⟨answer, rfl⟩ := exec_del called
    refine ⟨run.consistent sound.consistent, ?_⟩
    obtain ⟨E₁, step, rest⟩ := run.head
    rw [rest.of_nil]
    cases step with
    | del => exact sound.owned
    | delFails => exact sound.owned
  | @opened r E fd _ sound =>
    refine ⟨sound.consistent.opened fd, fun own stored => ?_⟩
    have before := sound.owned own stored
    by_cases same : own.raw = fd
    · rw [same]
      exact Function.update_self ..
    · rw [← before]
      exact Function.update_of_ne same _ _
  | @closed r E fd _ foreign sound =>
    refine ⟨sound.consistent.closed fd, fun own stored => ?_⟩
    have other : own.raw ≠ fd := by
      rintro rfl
      exact foreign stored
    rw [← sound.owned own stored]
    exact Function.update_of_ne other _ _
  | masked _ sound => exact ⟨sound.consistent, sound.owned⟩

/-- An error leaves everything as it was; after a success of `setup_signalfd`, and after any success when it
    was so before, the stored signalfd is registered under `sigchld_token`. -/
def Atomic (r r' : Reactor) (E E' : Environment) (s : Setup) : Except SysError s.Result → Prop
  | .error _ => E' = E ∧ SameFields r r'
  | .ok _ => s = .setupSignalfd ∨ Paired r E → Paired r' E'

/-- The setup calls are atomic, but for the mask of a `setup_signalfd` that blocks SIGCHLD and then fails. -/
theorem setup_atomic_iff {s : Setup} {result : Except SysError s.Result} (reachable : Reachable r E)
    (called : Exec (r.perform s) t (.done (r', result))) (run : Environment.Run r.epfd E t E') :
    Atomic r r' E E' s result ↔
      ¬(s = .setupSignalfd ∧ E.blocked SIGCHLD = false ∧ Masked t ∧ Refused t) := by
  have performed := exec_perform called
  have sound := reachable.sound
  cases result with
  | ok value =>
    have fine := performed.accepted
    have paired := (performed.paired run sound).2
    exact ⟨fun _ ⟨_, _, _, refused⟩ => fine refused, fun _ => paired⟩
  | error e =>
    obtain ⟨same, ⟨unmasked, rfl⟩ | ⟨rfl, masked, refused, rfl⟩⟩ := performed.undone run sound.consistent
    · exact ⟨fun _ ⟨_, _, masked, _⟩ => unmasked masked, fun _ => ⟨rfl, same⟩⟩
    · have mask : E.withBlocked [SIGCHLD] = E ↔ E.blocked SIGCHLD = true := Environment.withBlocked_eq_iff
      constructor
      · rintro ⟨back, _⟩ ⟨_, unblocked, _, _⟩
        rw [mask.mp back] at unblocked
        cases unblocked
      · intro fine
        have blocked : E.blocked SIGCHLD = true := by
          by_contra not
          exact fine ⟨rfl, Bool.eq_false_iff.mpr not, masked, refused⟩
        exact ⟨mask.mpr blocked, same⟩

def fresh : Reactor := ⟨3, 1, ⟨[], 64⟩, none, none, none⟩

theorem exec_fresh : Exec Reactor.new [⟨.epollCreate1, .ok 3⟩, ⟨.reserve 0 0 64, ⟨64, by omega⟩⟩] (.done (.ok fresh)) :=
  .call _ (.call _ (.ret _))

def unmaskedEnvironment : Environment := ⟨fun _ => false, fun fd => fd == 3, fun _ => none⟩

def signalfdFails : Trace :=
  [⟨.sigprocmask SIG_BLOCK [SIGCHLD], .ok ()⟩, ⟨.signalfd (-1) [SIGCHLD] (SFD_NONBLOCK ||| SFD_CLOEXEC), .error 24⟩]

theorem exec_signalfdFails :
    Exec (fresh.perform .setupSignalfd) signalfdFails (.done (fresh, .error (.sys 24 "signalfd"))) :=
  .call _ (.call _ (.ret _))

theorem mask_survives_failure : Reachable fresh unmaskedEnvironment ∧
    Exec (fresh.perform .setupSignalfd) signalfdFails (.done (fresh, .error (.sys 24 "signalfd"))) ∧
    Environment.Run 3 unmaskedEnvironment signalfdFails (unmaskedEnvironment.withBlocked [SIGCHLD]) ∧
    ¬Atomic fresh fresh unmaskedEnvironment (unmaskedEnvironment.withBlocked [SIGCHLD]) .setupSignalfd
      (.error (.sys 24 "signalfd")) := by
  refine ⟨.new exec_fresh rfl, exec_signalfdFails, .cons .block (.cons .signalfdFails .nil), fun atomic => ?_⟩
  have blocked := Environment.withBlocked_eq_iff.mp atomic.1
  cases blocked

def signalfdWorks : Trace :=
  [⟨.sigprocmask SIG_BLOCK [SIGCHLD], .ok ()⟩, ⟨.signalfd (-1) [SIGCHLD] (SFD_NONBLOCK ||| SFD_CLOEXEC), .ok 4⟩,
    ⟨.epollCtlAdd 3 4 (interestIn true false) 1, .ok ()⟩]

def maskedEnvironment : Environment := unmaskedEnvironment.withBlocked [SIGCHLD]

theorem setup_atomic_first :
    (∃ r' E', Exec (fresh.perform .setupSignalfd) signalfdWorks (.done (r', .ok ())) ∧ Paired r' E') ∧
      Environment.Run 3 maskedEnvironment signalfdFails (maskedEnvironment.withBlocked [SIGCHLD]) ∧
      maskedEnvironment.withBlocked [SIGCHLD] = maskedEnvironment := by
  constructor
  · have called : Exec (fresh.perform .setupSignalfd) signalfdWorks
        (.done ({ fresh.advanced with signalfd := some ⟨4⟩, sigchldToken := some ⟨1⟩ }, .ok ())) :=
      .call _ (.call _ (.call _ (.ret _)))
    have run : Environment.Run fresh.epfd unmaskedEnvironment signalfdWorks _ :=
      .cons .block (.cons (.signalfd rfl) (.cons (.add rfl rfl) .nil))
    have fine : ¬Refused signalfdWorks := by simp [Refused, signalfdWorks]
    have atomic := (setup_atomic_iff (.new exec_fresh rfl) called run).mpr fun ⟨_, _, _, refused⟩ => fine refused
    exact ⟨_, _, called, atomic (.inl rfl)⟩
  · have run : Environment.Run fresh.epfd maskedEnvironment signalfdFails _ := .cons .block (.cons .signalfdFails .nil)
    have blocked : maskedEnvironment.blocked SIGCHLD = true := by decide
    have atomic := (setup_atomic_iff (.new exec_fresh rfl) exec_signalfdFails run).mpr fun ⟨_, unblocked, _, _⟩ => by
      rw [blocked] at unblocked
      cases unblocked
    exact ⟨run, atomic.1⟩

end CoreShift.Reactor
