import TelemetryAgent.Host.Tasks
import TelemetryAgent.Schedule.Persist
import TelemetryAgent.Schedule.Request

/-!
# The scheduler

Owns the entries and their timers, the queue of notifications, and the worker that publishes
them. Every change of a schedule is written to the store before a timer is touched, and the
store's failures change nothing else. Stopping disarms every timer before it waits for the
worker, so nothing is queued afterwards.

Every operation returns its outcome with the scheduler and the host as they are afterwards: what
happened before a failure stays.
-/
namespace TelemetryAgent

structure Scheduler where
  /-- Distinguishes the schedulers that a host has seen. -/
  ident : Nat
  baseline : List BaselineItem
  config : WorkerConfig
  table : Table
  running : Bool := false
  /-- The number of starts; a worker of an earlier one is stale. -/
  epoch : UInt32 := 0
  queue : List Kind := []
  /-- Notifications that found the queue full. -/
  dropped : UInt32 := 0
  /-- The worker that a stop waits for. -/
  tracked : Option Nat := none
deriving DecidableEq, Repr

namespace Scheduler

/-- One pending notification for each kind that can be scheduled. -/
def capacity : Nat := 4

/-! ## Construction -/

def create (baseline : List BaselineItem) (config : WorkerConfig) (h : Host) :
    Except Fault Scheduler × Host :=
  if baseline.any (·.kind == .invalid) then
    (.error (.invalidConfiguration "baseline contains an invalid kind"), h)
  else
    let (table, h) := Table.load h
    let ident := h.schedulers
    (.ok { ident, baseline, config, table := table.fill baseline },
      { h with schedulers := ident + 1 })

/-! ## Entries -/

def setEntry (k : Kind) (e : Option Entry) (s : Scheduler) : Scheduler :=
  { s with table := s.table.set k e }

def isArmed (k : Kind) (s : Scheduler) (h : Host) : Bool :=
  match (s.table.get? k).bind (·.timer) with
  | some timer => h.timerRunning timer
  | none => false

/-- The period of the first line of the baseline for a kind. -/
def baselinePeriod? (k : Kind) (s : Scheduler) : Option Int64 :=
  (s.baseline.find? (·.kind == k)).map (·.period)

/-! ## Scheduling -/

/-- Persists the entry of a kind and, if the scheduler is running, arms its timer. A kind whose
timer cannot be armed loses its entry. -/
def schedule (k : Kind) (s : Scheduler) (h : Host) : Outcome × Scheduler × Host :=
  match s.table.get? k with
  | none => (.error .invalidKind, s, h)
  | some e =>
    let h := h.persist e
    if e.period ≤ 0 then
      let (r, h) := h.disarm e
      let h := (h.noteFailure r (.disarmFailed k)).note (.periodNotPositive k e.period)
      (.error (.invalidPeriod e.period), s.setEntry k (some { e with timer := none }), h)
    else if s.running then
      match h.arm s.ident e e.period.toInt.toNat with
      | (.ok timer, h) => (.ok (), s.setEntry k (some { e with timer := some timer }), h)
      | (.error f, h) =>
        (.error .startFailed, s.setEntry k none, (h.note (.armFailed k f)).abandon e)
    else (.ok (), s, h)

/-- Persists the entry of a kind and disarms its timer. -/
def unschedule (k : Kind) (s : Scheduler) (h : Host) : Outcome × Scheduler × Host :=
  match s.table.get? k with
  | none => (.error .invalidKind, s, h)
  | some e =>
    let (r, h) := (h.persist e).disarm e
    (r, s.setEntry k (some { e with timer := none }), h)

/-! ## Lifecycle -/

def scheduleEnabled (k : Kind) (s : Scheduler) (h : Host) : Scheduler × Host :=
  match s.table.get? k with
  | none => (s, h)
  | some e =>
    if e.enabled then
      let (r, s, h) := s.schedule k h
      (s, h.noteFailure r (.notScheduled k))
    else (s, h)

def scheduleAll : List Kind → Scheduler → Host → Scheduler × Host
  | [], s, h => (s, h)
  | k :: rest, s, h =>
    let (s, h) := s.scheduleEnabled k h
    scheduleAll rest s h

/-- From here on a worker of the epoch is current. -/
def raise (s : Scheduler) : Scheduler := { s with running := true }

/-- Drops the oldest notification. -/
def discard (s : Scheduler) : Scheduler := { s with queue := s.queue.tail }

/-- Drops notifications until there are no more. -/
def drain (s : Scheduler) : Scheduler := s.queue.foldl (fun s _ => s.discard) s

/-- From here on a worker of an earlier start is stale. -/
def renew (s : Scheduler) : Scheduler := { s with epoch := s.epoch + 1 }

/-- Spawns a worker of the epoch for a publisher. Without one the scheduler does not run. -/
def enlist (publisher : Nat) (s : Scheduler) (h : Host) : Except Fault Nat × Scheduler × Host :=
  let pollMillis := s.config.pollMillis.toNat
  let w : Worker := { owner := s.ident, epoch := s.epoch, publisher, pollMillis }
  match h.spawn w s.config.stackBytes with
  | (.error _, h) => (.error .startFailed, { s with running := false }, h.note .spawnFailed)
  | (.ok worker, h) => (.ok worker, { s with tracked := some worker }, h)

/-- Empties the queue, spawns a worker for a publisher, and arms every enabled entry. -/
def start (publisher : Nat) (s : Scheduler) (h : Host) : Outcome × Scheduler × Host :=
  if s.running then (.error .alreadyRunning, s, h.note .alreadyRunning)
  else
    match s.raise.drain.renew.enlist publisher h with
    | (.error f, s, h) => (.error f, s, h)
    | (.ok _, s, h) =>
      let (s, h) := scheduleAll Kind.schedulable s h
      (.ok (), s, h)

def disarmEach : List Kind → Scheduler → Host → Scheduler × Host
  | [], s, h => (s, h)
  | k :: rest, s, h =>
    match s.table.get? k with
    | none => disarmEach rest s h
    | some e =>
      let (r, h) := h.disarm e
      disarmEach rest (s.setEntry k (some { e with timer := none }))
        (h.noteFailure r (.disarmFailed e.kind))

def disarmAll (s : Scheduler) (h : Host) : Scheduler × Host := disarmEach Kind.schedulable s h

/-- Disarms every timer and tells the worker to end. -/
def halt (s : Scheduler) (h : Host) : Scheduler × Host :=
  let (s, h) := s.disarmAll h
  ({ s with running := false }, h)

/-- Waits for the worker. One that is in the middle of a publish or sleeps for longer does not end
in time; it stays the one to wait for. -/
def await (timeoutMillis : Nat) (s : Scheduler) (h : Host) : Outcome × Scheduler × Host :=
  match s.tracked with
  | none => (.ok (), s, h)
  | some worker =>
    let phase := h.phase worker
    if phase.endsWithin timeoutMillis then
      let h := if phase = .panicked then h.note .workerPanicked else h.setPhase worker .ended
      (.ok (), { s with tracked := none }, h)
    else
      (.error .stopTimeout, s,
        (h.elapse timeoutMillis).note (.workerStillBusy (.ofMillis timeoutMillis)))

/-- Disarms every timer before it waits for the worker. -/
def stop (timeoutMillis : Nat) (s : Scheduler) (h : Host) : Outcome × Scheduler × Host :=
  let (s, h) := s.halt h
  s.await timeoutMillis h

/-- What is done when a scheduler goes away: its timers are disarmed and its worker is left to
find that it is stale. -/
def release (s : Scheduler) (h : Host) : Host := (s.disarmAll h).2

/-! ## Requests -/

/-- Schedules or unschedules a kind, as its entry says. -/
def apply (k : Kind) (s : Scheduler) (h : Host) : Outcome × Scheduler × Host :=
  match s.table.get? k with
  | some e => if e.enabled then s.schedule k h else s.unschedule k h
  | none => s.unschedule k h

/-- A value of the wrong type changes nothing. -/
def assign (field : ConfigField) (value : Value) (e : Entry) : Entry :=
  match field, value.boolean?, value.integer? with
  | .enable, some flag, _ => { e with enabled := flag }
  | .periodSeconds, _, some seconds => { e with period := seconds }
  | _, _, _ => e

/-- Sets a field of the entry that a path names, and applies the entry. A kind without an entry
gets a blank one. -/
def set (path : String) (value : Value) (s : Scheduler) (h : Host) :
    Outcome × Scheduler × Host :=
  match Request.parse path with
  | .error f => (.error f, s, h)
  | .ok (k, field) =>
    match s.table.getOrBlank? k with
    | none => (.error .invalidKind, s, h)
    | some e => (s.setEntry k (some (assign field value e))).apply k h

/-- What a field falls back to. -/
def restore (field : ConfigField) (baseline : Option Int64) (e : Entry) : Entry :=
  match field with
  | .enable => { e with enabled := baseline.isSome }
  | .periodSeconds => { e with period := baseline.getD (-1) }
  | .other => e

/-- Takes a field of the entry that a path names back to the baseline, and applies the entry. -/
def unset (path : String) (s : Scheduler) (h : Host) : Outcome × Scheduler × Host :=
  match Request.parse path with
  | .error f => (.error f, s, h)
  | .ok (k, field) =>
    match s.table.get? k with
    | none => (.error .startFailed, s, h.note (.unsetWithoutEntry k))
    | some e => (s.setEntry k (some (restore field (s.baselinePeriod? k) e))).apply k h

/-! ## Notifications -/

/-- A timer has expired. A notification that finds the queue full is counted and lost. -/
def notify (k : Kind) (s : Scheduler) : Scheduler :=
  if s.queue.length < capacity then { s with queue := s.queue ++ [k] }
  else { s with dropped := s.dropped + 1 }

end Scheduler
end TelemetryAgent
