import TelemetryAgent.Bench.Step

/-!
# The bench

An agent under test with its host. After every step, and after every timer callback within one,
the bench waits until the worker is idle, held at the gate, or dead, so that a list of steps has
one result.
-/
namespace TelemetryAgent.Bench

/-- What is under test: a scheduler with a publisher that takes note of kinds, a device, or a
session that is published on. -/
inductive Subject
  | scheduler (s : Scheduler)
  | device (d : Device)
  | session (session : Nat)
  | gone

namespace Subject

def scheduler? : Subject → Option Scheduler
  | .scheduler s => some s
  | .device d => some d.scheduler
  | _ => none

def withScheduler (s : Scheduler) : Subject → Subject
  | .scheduler _ => .scheduler s
  | .device d => .device { d with scheduler := s }
  | subject => subject

end Subject

structure Rig where
  subject : Subject
  host : Host
  /-- What schedulers are made with. -/
  config : WorkerConfig := {}
  /-- How the publisher that takes note of kinds behaves; absent if workers publish on sessions. -/
  plan : Option PublishPlan := none
  shut : Bool := false
  /-- Workers held at the gate, the one that came first in front. -/
  held : List Nat := []

namespace Rig

/-! ## Workers -/

/-- A publisher that takes note of what it is handed, also if it then fails or panics. -/
def noting (plan : PublishPlan) : Publisher := fun publisher k h =>
  (if plan.panics then .panicked else .returned (.ofFault? plan.fault),
    h.record (.handed publisher k))

def publisher (b : Rig) : Publisher :=
  match b.plan with
  | some plan => noting plan
  | none => Device.publisher

def isCurrent (b : Rig) (w : Worker) : Bool :=
  match b.subject.scheduler? with
  | some s => s.isCurrent w
  | none => false

/-- Lets the current worker take a notification, if there is one for it. -/
def take? (b : Rig) : Option (Nat × Rig) :=
  match b.subject.scheduler? with
  | none => none
  | some s =>
    match s.ready? b.host, s.queue with
    | some worker, _ :: _ =>
      let (s, host) := s.take worker b.host
      some (worker, { b with subject := b.subject.withScheduler s, host })
    | _, _ => none

/-- A worker that takes a notification at the shut gate is held. -/
def hold (b : Rig) : Rig :=
  match b.take? with
  | some (worker, b) => { b with held := b.held ++ [worker] }
  | none => b

def finish (worker : Nat) (b : Rig) : Rig :=
  { b with host := b.host.finish b.publisher worker }

/-- Lets the current worker publish up to `count` notifications. -/
def drain : (count : Nat) → Rig → Rig
  | 0, b => b
  | count + 1, b =>
    match b.take? with
    | some (worker, b) => drain count (b.finish worker)
    | none => b

def pending (b : Rig) : Nat :=
  match b.subject.scheduler? with
  | some s => s.queue.length
  | none => 0

/-- Waits until no worker can go on by itself. -/
def settle (b : Rig) : Rig :=
  let b := if b.shut then b.hold else b.drain b.pending
  { b with host := b.host.lookAround b.isCurrent }

/-- Releases the held workers one by one, the one that came first in front. A worker that goes on
with the queue is held again, behind the others. -/
def releaseHeld : (count : Nat) → Rig → Rig
  | 0, b => b
  | count + 1, b =>
    match b.held with
    | [] => b
    | worker :: rest => releaseHeld count ({ b with held := rest }.finish worker).settle

def openGate (b : Rig) : Rig :=
  let b := { b with shut := true }.releaseHeld (b.held.length + b.pending)
  { b with shut := false }.settle

/-! ## Timers -/

/-- Runs the callback of a timer of a kind. -/
def expire (k : Kind) (b : Rig) : Rig :=
  match b.subject.scheduler? with
  | some s => { b with subject := b.subject.withScheduler (s.notify k) }.settle
  | none => b

def expireAll (kinds : List Kind) (b : Rig) : Rig := kinds.foldl (fun b k => b.expire k) b

/-- The kinds of the running timers that can be expired by hand, in order of their numbers. -/
def runningKinds (b : Rig) : List Kind :=
  match b.host.timers.backend with
  | .threaded => []
  | .manual => b.host.timers.timers.filterMap fun t => t.interval.map fun _ => t.kind

/-- The kind of a timer, if it is one of the scheduler under test. -/
def lateKinds (timer : Nat) (b : Rig) : List Kind :=
  match b.host.timers.backend, b.host.timers.timers[timer]?, b.subject.scheduler? with
  | .manual, some t, some s => if t.owner = s.ident then [t.kind] else []
  | _, _, _ => []

/-- Expires timers of the given kinds, in rounds. The answer is the number for one round, however
many rounds there are. -/
def rounds (kinds : List Kind) (times : Nat) (b : Rig) : Answer × Rig :=
  (.count kinds.length, times.repeat (expireAll kinds) b)

/-! ## Views -/

def entryView (s : Scheduler) (h : Host) (k : Kind) : Option EntryView :=
  (s.table.get? k).map fun e => ⟨e.period, e.enabled, s.isArmed k h⟩

def schedulerView (s : Scheduler) (h : Host) : SchedulerView :=
  ⟨s.running, s.dropped, Kind.schedulable.map (entryView s h)⟩

def view (b : Rig) : View :=
  match b.subject with
  | .scheduler s => .scheduler (schedulerView s b.host)
  | .device d => .device d.state d.burstDone (schedulerView d.scheduler b.host)
  | _ => .nothing

def flagText (b : Bool) : String := if b then "true" else "false"

/-- The text that stands for an entry in diagnostics. -/
def entryText (e : Entry) (armed : Bool) : String :=
  "TelemetryEntry \x7b kind: " ++ e.kind.name ++ ", period_seconds: " ++
    Text.decimal e.period.toInt ++ ", enabled: " ++ flagText e.enabled ++ ", armed: " ++
    flagText armed ++ " \x7d"

/-! ## Steps -/

def onScheduler (op : Scheduler → Host → Outcome × Scheduler × Host) (b : Rig) : Answer × Rig :=
  match b.subject.scheduler? with
  | none => (.gone, b)
  | some s =>
    let (r, s, host) := op s b.host
    (.outcome r, { b with subject := b.subject.withScheduler s, host })

def onDevice (op : Device → Host → Outcome × Device × Host) (b : Rig) : Answer × Rig :=
  match b.subject with
  | .device d =>
    let (r, d, host) := op d b.host
    (.outcome r, { b with subject := .device d, host })
  | _ => (.gone, b)

def onHost (op : Host → Outcome × Host) (b : Rig) : Answer × Rig :=
  let (r, host) := op b.host
  (.outcome r, { b with host })

def asked (b : Rig) (f : Scheduler → Answer) : Answer × Rig :=
  match b.subject.scheduler? with
  | none => (.gone, b)
  | some s => (f s, b)

/-- A stop that would wait for a held worker is given ten milliseconds. -/
def stopTimeout (given : Nat) (b : Rig) : Nat :=
  match (b.subject.scheduler?.bind (·.tracked)).map b.host.phase with
  | some (.publishing _) => 10
  | _ => given

/-- Lets what is under test go. -/
def discard (b : Rig) : Rig :=
  match b.subject with
  | .scheduler s => { b with subject := .gone, host := s.release b.host }
  | .device d => { b with subject := .gone, host := d.release b.host }
  | _ => { b with subject := .gone }

def build (baseline : List BaselineItem) (b : Rig) : Answer × Rig :=
  match Scheduler.create baseline b.config b.host with
  | (.ok s, host) => (.outcome (.ok ()), { b with subject := .scheduler s, host })
  | (.error f, host) => (.outcome (.error f), { b with subject := .gone, host })

def buildDevice (c : Config) (b : Rig) : Answer × Rig :=
  match Device.create c b.host with
  | (.ok d, host) => (.outcome (.ok ()), { b with subject := .device d, host })
  | (.error f, host) => (.outcome (.error f), { b with subject := .gone, host })

/-- Changes how the host behaves from now on. -/
def switch (f : Host → Host) (b : Rig) : Answer × Rig :=
  (.outcome (.ok ()), { b with host := f b.host })

def perform (step : Step) (b : Rig) : Answer × Rig :=
  match step with
  | .failTimers create start stop =>
    b.switch fun h => { h with timers := { h.timers with
      createFault := fun _ => create, startFault := fun _ => start, stopFault := fun _ => stop } }
  | .failSaves fault count =>
    b.switch fun h =>
      let first := h.settings.saves + count
      { h with settings := { h.settings with
        saveFault := fun n => if first ≤ n then fault else none } }
  | .failPublishes plan => (.outcome (.ok ()), { b with plan := b.plan.map fun _ => plan })
  | .failScans fault =>
    b.switch fun h => { h with platform := { h.platform with scanFault := fun _ => fault } }
  | .failServices fault =>
    b.switch fun h => { h with services := { h.services with fault := fun _ => fault } }
  | .failSessions opening connecting disconnecting paths =>
    b.switch fun h => { h with sessions := { h.sessions with
      openFault := fun _ => opening
      connectFault := fun _ => connecting
      disconnectFault := fun _ => disconnecting
      publishFault := fun _ path => paths.reverse.lookup path } }
  | .shutGate => (.outcome (.ok ()), { b with shut := true })
  | .openGate =>
    match b.subject with
    | .gone => (.gone, b)
    | _ => (.outcome (.ok ()), b.openGate)
  | .schedule k => b.onScheduler (Scheduler.schedule k)
  | .unschedule k => b.onScheduler (Scheduler.unschedule k)
  | .set path value => b.onScheduler (Scheduler.set path value)
  | .unset path => b.onScheduler (Scheduler.unset path)
  | .baseline =>
    b.asked fun s => .baseline s.baseline (Kind.all.map fun k => s.baselinePeriod? k)
  | .entry k =>
    b.asked fun s => .text ((s.table.get? k).map fun e => entryText e (s.isArmed k b.host))
  | .armed k => b.asked fun s => .flag (s.isArmed k b.host)
  | .store =>
    b.asked fun _ => .leaves (Medium.below Setting.subtree b.host.settings.leaves)
  | .fire k times =>
    match b.subject.scheduler? with
    | none => (.gone, b)
    | some _ => b.rounds (b.runningKinds.filter (· == k)) times
  | .fireAll times =>
    match b.subject.scheduler? with
    | none => (.gone, b)
    | some _ => b.rounds b.runningKinds times
  | .late timer times =>
    match b.subject.scheduler? with
    | none => (.gone, b)
    | some _ => b.rounds (b.lateKinds timer) times
  | .start =>
    match b.subject with
    | .device _ => b.onDevice Device.start
    | _ => b.onScheduler (Scheduler.start 0)
  | .stop timeoutMillis =>
    let timeout := b.stopTimeout timeoutMillis
    match b.subject with
    | .device _ => b.onDevice (Device.stop timeout)
    | _ => b.onScheduler (Scheduler.stop timeout)
  | .drop =>
    match b.subject, b.plan with
    | .gone, none => (.gone, b)
    | _, _ => (.outcome (.ok ()), b.discard)
  | .rebuild baseline => b.discard.build baseline
  | .poll arrived failure => b.onDevice (Device.poll arrived failure)
  | .destroy =>
    match b.subject with
    | .device d =>
      (.outcome (.ok ()), { b with subject := .gone, host := d.destroy b.host })
    | _ => (.gone, b)
  | .publish k =>
    match b.subject with
    | .session session => b.onHost (Host.publish session .main k)
    | _ => (.gone, b)
  | .burst =>
    match b.subject with
    | .session session => (.outcome (.ok ()), { b with host := b.host.burst session })
    | _ => (.gone, b)
  | .battery reading =>
    match b.subject with
    | .session session => b.onHost (Host.publishBattery session reading)
    | .device d => b.onHost (Device.publishBattery reading d)
    | _ => (.gone, b)

/-- Runs something with a clean record and lets the workers settle. -/
def recorded (act : Rig → Answer × Rig) (b : Rig) : Record × Rig :=
  let (answer, b) := act { b with host := { b.host with calls := [], notices := [] } }
  let b := b.settle
  (⟨answer, b.host.notices, b.host.calls, b.view⟩, b)

def run : List Step → Rig → List Record × Rig
  | [], b => ([], b)
  | step :: rest, b =>
    let (first, b) := b.recorded (perform step)
    let (others, b) := run rest b
    (first :: others, b)

end Rig
end TelemetryAgent.Bench
