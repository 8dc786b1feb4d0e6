import TelemetryAgent.Host.Basic

/-!
# Tasks

Workers are numbered in the order in which they were spawned.
-/
namespace TelemetryAgent.Host

/-- Spawns a worker, unless the host refuses. -/
def spawn (w : Worker) (stackBytes : UInt64) (h : Host) : Except Fault Nat × Host :=
  let pool := { h.tasks with spawns := h.tasks.spawns + 1 }
  match h.tasks.refusal h.tasks.spawns stackBytes with
  | some cause => (.error .startFailed, { h with tasks := pool }.note (.taskRefused cause))
  | none =>
    (.ok pool.workers.length, { h with tasks := { pool with workers := pool.workers ++ [w] } })

def setPhase (worker : Nat) (phase : WorkerPhase) (h : Host) : Host :=
  let workers := h.tasks.workers.modify worker fun w => { w with phase }
  { h with tasks := { h.tasks with workers } }

/-- A worker that was never spawned counts as ended. -/
def phase (worker : Nat) (h : Host) : WorkerPhase :=
  match h.tasks.workers[worker]? with
  | some w => w.phase
  | none => .ended

/-- Lets time pass for every worker. -/
def elapse (millis : Nat) (h : Host) : Host :=
  let workers := h.tasks.workers.map fun w => { w with phase := w.phase.later millis }
  { h with tasks := { h.tasks with workers } }

end TelemetryAgent.Host
