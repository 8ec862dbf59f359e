import CoreShift.Spawn.Leak
import CoreShift.Spawn.Returned
import CoreShift.Spawn.StartCalls

namespace CoreShift

open Interaction

section
variable {platform : Platform} {opts : SpawnOptions} {p : Pipes} {t t₁ t₂ : Trace} {e : Event os} {pid : Int}

theorem Launches.leaves (launches : Launches platform opts p t₁ t₂ e pid) : leavesTable e = true := by
  cases launches <;> rfl

theorem drainPipes_drain {started : Int × DrainState}
    (run : Exec (drainPipes p opts pid) t (.done (.ok started))) :
    started.1 = pid ∧ started.2.buffer = .new opts.maxOutput ∧ started.2.writer = .new opts.stdin := by
  obtain ⟨same, _, made⟩ := exec_drainPipes_new run
  rw [DrainState.exec_new_ok made]
  exact ⟨same, rfl, rfl⟩

structure Course (platform : Platform) (opts : SpawnOptions) (out : Output) where
  polls : Trace
  makes : Trace
  prepares : Trace
  launch : Event os
  drains : Trace
  settles : Trace
  reactor : Reactor
  pipes : Pipes
  pid : Int
  drain : DrainState
  polled : Exec Reactor.new polls (.done (.ok reactor))
  made : Exec (Pipes.new opts.stdin opts.captureStdout opts.captureStderr) makes (.done (.ok pipes))
  launched : Launches platform opts pipes makes prepares launch pid
  drained : Exec (drainPipes pipes opts pid) drains (.done (.ok (pid, drain)))
  settled : Exec (settle opts reactor (.ok (pid, drain))) settles (.done (.ok out))
  started : Exec (spawnStart platform opts) (makes ++ (prepares ++ launch :: drains)) (.done (.ok (pid, drain)))

def Course.trace {out : Output} (c : Course platform opts out) : Trace :=
  c.polls ++ (c.makes ++ c.prepares) ++ c.launch :: (c.drains ++ c.settles)

theorem exec_spawn_course {out : Output} (run : Exec (spawn platform opts) t (.done (.ok out))) :
    ∃ c : Course platform opts out, t = c.trace := by
  obtain ⟨t₀, made, u, rfl, polled, rest⟩ := exec_bind_done.mp run
  rcases made with e | reactor
  · cases ((exec_pure_iff _ _ _).mp rest).2
  obtain ⟨t₁, started, t₂, rfl, starting, settling⟩ := exec_bind_done.mp rest
  rcases started with e | ⟨pid, drain⟩
  · obtain ⟨_, _, _, _, _, failed⟩ := exec_bind_done.mp settling
    cases ((exec_pure_iff _ _ _).mp failed).2
  obtain ⟨makes, prepares, e, drains, p, pid', rfl, piped, launched, drained⟩ := exec_spawnStart_launched starting
  have same : pid = pid' := (drainPipes_drain drained).1
  subst same
  refine ⟨⟨t₀, makes, prepares, e, drains, t₂, reactor, p, pid, drain, polled, piped, launched, drained, settling,
    starting⟩, ?_⟩
  simp [Course.trace]

end

end CoreShift
