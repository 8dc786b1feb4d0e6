import TelemetryAgent.Schedule.Scheduler

/-!
# Delivery

How workers bring notifications to publishers. A worker is current while its scheduler runs in
the epoch it was spawned in. A current worker that is idle may take the oldest notification; a
worker that has taken one publishes it at some later time; a worker that looks at its scheduler
and has nothing to take sleeps if it is current, and ends if it is not.
-/
namespace TelemetryAgent

/-- A worker whose time has come finds nothing to publish: a current one goes to sleep, any other
ends. -/
def Worker.look (current : Bool) (w : Worker) : Worker :=
  if w.phase = .idle 0 then { w with phase := if current then .idle w.pollMillis else .ended }
  else w

/-- How a publisher came back. -/
inductive PublishEnd
  | returned (r : Outcome)
  | panicked

/-- What handing a kind to a publisher does. -/
abbrev Publisher := Nat → Kind → Host → PublishEnd × Host

namespace Scheduler

def isCurrent (s : Scheduler) (w : Worker) : Bool :=
  w.owner == s.ident && s.running && s.epoch == w.epoch

/-- The worker that would take a notification. -/
def ready? (s : Scheduler) (h : Host) : Option Nat :=
  h.tasks.workers.findIdx? fun w => w.phase.isIdle && s.isCurrent w

/-- A worker takes the oldest notification off the queue. -/
def take (worker : Nat) (s : Scheduler) (h : Host) : Scheduler × Host :=
  match s.queue with
  | [] => (s, h)
  | k :: rest => ({ s with queue := rest }, h.setPhase worker (.publishing k))

end Scheduler

namespace Host

/-- A worker publishes what it has taken. Failures are the worker's to note, not the caller's; a
panic ends the worker. -/
def finish (publisher : Publisher) (worker : Nat) (h : Host) : Host :=
  match h.tasks.workers[worker]? with
  | some w =>
    match w.phase with
    | .publishing k =>
      match publisher w.publisher k h with
      | (.returned _, h) => h.setPhase worker (.idle 0)
      | (.panicked, h) => h.setPhase worker .panicked
    | _ => h
  | none => h

/-- Every worker whose time has come looks at its scheduler. -/
def lookAround (current : Worker → Bool) (h : Host) : Host :=
  let workers := h.tasks.workers.map fun w => w.look (current w)
  { h with tasks := { h.tasks with workers } }

/-- One worker looks at its scheduler. -/
def look (current : Worker → Bool) (worker : Nat) (h : Host) : Host :=
  let workers := h.tasks.workers.modify worker fun w => w.look (current w)
  { h with tasks := { h.tasks with workers } }

end Host
end TelemetryAgent
