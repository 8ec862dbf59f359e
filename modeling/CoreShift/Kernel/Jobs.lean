import Mathlib.Data.Int.Notation

/-! Job control, as `setsid`, `setpgid` and `kill` are documented. -/

namespace Jobs

structure Member where
  pid : Int
  group : Int
  leadsSession : Bool
  deriving DecidableEq, Repr

inductive Act where
  | setsid (ok : Bool)
  | setpgid (pgid : Int) (ok : Bool)
  deriving DecidableEq, Repr

/-- The leader of a group cannot begin a session, and the leader of a session keeps its group. The
    group of its own a process can always begin. -/
inductive Step : Member → Act → Member → Prop where
  | session {m : Member} (member : m.group ≠ m.pid) :
      Step m (.setsid true) { m with group := m.pid, leadsSession := true }
  | noSession {m : Member} (leads : m.group = m.pid) : Step m (.setsid false) m
  | joined {m : Member} {pgid : Int} (free : m.leadsSession = false) (valid : 0 ≤ pgid) :
      Step m (.setpgid pgid true) { m with group := if pgid = 0 then m.pid else pgid }
  | kept {m : Member} {pgid : Int} (refused : m.leadsSession = true ∨ pgid ≠ 0 ∧ pgid ≠ m.pid) :
      Step m (.setpgid pgid false) m

inductive Run : Member → List Act → Member → Prop where
  | nil (m : Member) : Run m [] m
  | cons {m m' m'' : Member} {act : Act} {acts : List Act} (step : Step m act m') (rest : Run m' acts m'') :
      Run m (act :: acts) m''

/-- A process that has just been created leads neither its group nor its session. -/
def Member.New (m : Member) : Prop := m.group ≠ m.pid ∧ m.leadsSession = false

/-- The group that a process asks for when it asks for one: 0 is its own. -/
def Member.groupFor (m : Member) : Option Int → Int
  | none => m.group
  | some pgid => if pgid = 0 then m.pid else pgid

/-- Whether the target of a `kill` that a process of the group `sender` calls denotes a process. -/
def Denotes (sender target : Int) (m : Member) : Prop :=
  if 0 < target then m.pid = target
  else if target = 0 then m.group = sender
  else if target = -1 then True
  else m.group = -target

instance (sender target : Int) (m : Member) : Decidable (Denotes sender target m) := by
  unfold Denotes
  infer_instance

section
variable {m m' m'' : Member}

theorem Step.pid {act : Act} (step : Step m act m') : m'.pid = m.pid := by
  cases step <;> rfl

theorem Run.pid {acts : List Act} (run : Run m acts m') : m'.pid = m.pid := by
  induction run with
  | nil m => rfl
  | cons step _ ih => exact ih.trans step.pid

theorem run_nil (run : Run m [] m') : m' = m := by
  cases run
  rfl

theorem run_cons {act : Act} {acts : List Act} (run : Run m (act :: acts) m'') :
    ∃ m', Step m act m' ∧ Run m' acts m'' := by
  cases run with
  | cons step rest => exact ⟨_, step, rest⟩

theorem Run.append {acts acts' : List Act} (first : Run m acts m') (second : Run m' acts' m'') :
    Run m (acts ++ acts') m'' := by
  induction first with
  | nil m => exact second
  | cons step _ ih => exact .cons step (ih second)

theorem Step.leads {act : Act} (step : Step m act m') (leads : m.leadsSession = true) (own : m.group = m.pid) :
    m'.leadsSession = true ∧ m'.group = m'.pid := by
  cases step with
  | session | noSession | kept => exact ⟨by simp [leads], by simp [own]⟩
  | joined free => simp [leads] at free

theorem Run.leads {acts : List Act} (run : Run m acts m') (leads : m.leadsSession = true)
    (own : m.group = m.pid) : m'.leadsSession = true ∧ m'.group = m'.pid := by
  induction run with
  | nil m => exact ⟨leads, own⟩
  | cons step _ ih =>
    have after := step.leads leads own
    exact ih after.1 after.2

theorem run_session {ok : Bool} {acts : List Act} (run : Run m (.setsid ok :: acts) m')
    (member : m.group ≠ m.pid) : m'.leadsSession = true ∧ m'.group = m'.pid := by
  obtain ⟨m₁, step, rest⟩ := run_cons run
  cases step with
  | session => exact rest.leads rfl rfl
  | noSession leads => exact absurd leads member

theorem run_setpgid {pgid : Int} {ok : Bool} (run : Run m [.setpgid pgid ok] m') (member : m.group ≠ m.pid)
    (free : m.leadsSession = false) : m'.group = m'.pid ↔ pgid = 0 ∨ pgid = m.pid := by
  obtain ⟨m₁, step, rest⟩ := run_cons run
  rw [run_nil rest]
  cases step with
  | joined free valid =>
    by_cases own : pgid = 0
    · simp [own]
    · simp [own]
  | kept refused =>
    have other : ¬(pgid = 0 ∨ pgid = m.pid) := by
      rcases refused with leads | other
      · simp [free] at leads
      · omega
    simp [member, other]

theorem run_joined {pgid : Int} (run : Run m [.setpgid pgid true] m') :
    m'.group = if pgid = 0 then m.pid else pgid := by
  obtain ⟨m₁, step, rest⟩ := run_cons run
  rw [run_nil rest]
  cases step with
  | joined free valid => rfl

theorem run_asked {leader : Option Int} {ok : Bool} (run : Run m (leader.toList.map (.setpgid · ok)) m')
    (free : m.leadsSession = false) :
    m'.leadsSession = false ∧
      m'.group = if leader.isSome = true ∧ ok = false then m.group else m.groupFor leader := by
  cases leader with
  | none =>
    rw [run_nil run]
    exact ⟨free, rfl⟩
  | some pgid =>
    obtain ⟨m₁, step, rest⟩ := run_cons run
    rw [run_nil rest]
    cases step with
    | joined => exact ⟨free, rfl⟩
    | kept => exact ⟨free, rfl⟩

theorem denotes_pid (sender : Int) (positive : 0 < m.pid) : Denotes sender m.pid m := by
  simp [Denotes, positive]

theorem denotes_group (sender : Int) (proper : 1 < m.pid) : Denotes sender (-m.pid) m ↔ m.group = m.pid := by
  unfold Denotes
  rw [if_neg (by omega), if_neg (by omega), if_neg (by omega), Int.neg_neg]

end

end Jobs
