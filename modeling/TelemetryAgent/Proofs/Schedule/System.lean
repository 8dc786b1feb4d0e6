import TelemetryAgent.Schedule.Delivery

/-!
# A scheduler at work

A scheduler with its host, driven by three parties at once. The caller makes one call after the
other. Timers expire, workers take, publish and sleep, and time passes, between any two calls and
while a stop waits. Whatever else happens on the host stays away from settings, timers and tasks.

A step is a function, and one that is not possible changes nothing, so that a run is any list of
moves. A log keeps what happened to notifications and workers; nothing in a run depends on it.
-/
namespace TelemetryAgent

/-- Something on the host that has nothing to do with a scheduler and opens no session. -/
structure Host.Aside where
  apply : Host → Host
  settings : ∀ h, (apply h).settings = h.settings
  timers : ∀ h, (apply h).timers = h.timers
  tasks : ∀ h, (apply h).tasks = h.tasks
  schedulers : ∀ h, (apply h).schedulers = h.schedulers
  opened : ∀ h, (apply h).sessions.opened = h.sessions.opened

/-- A publisher that reaches neither settings, timers nor tasks and opens no session. It may fail,
and it may panic. -/
structure Publisher.Confined where
  publish : Publisher
  settings : ∀ p k h, (publish p k h).2.settings = h.settings
  timers : ∀ p k h, (publish p k h).2.timers = h.timers
  tasks : ∀ p k h, (publish p k h).2.tasks = h.tasks
  schedulers : ∀ p k h, (publish p k h).2.schedulers = h.schedulers
  opened : ∀ p k h, (publish p k h).2.sessions.opened = h.sessions.opened

/-- A worker that is alive can still publish. -/
def WorkerPhase.isAlive : WorkerPhase → Bool
  | idle _ => true
  | publishing _ => true
  | ended => false
  | panicked => false

inductive Operation where
  | start (publisher : Nat)
  | stop (timeoutMillis : Nat)
  | schedule (k : Kind)
  | unschedule (k : Kind)
  | set (path : String) (value : Value)
  | unset (path : String)

def Operation.perform : Operation → Scheduler → Host → Outcome × Scheduler × Host
  | start publisher => Scheduler.start publisher
  | stop timeoutMillis => Scheduler.stop timeoutMillis
  | schedule k => Scheduler.schedule k
  | unschedule k => Scheduler.unschedule k
  | set path value => Scheduler.set path value
  | unset path => Scheduler.unset path

/-- What can happen at any time, without the caller. -/
inductive Ambient where
  /-- A timer comes to its end, or came to it just before it was stopped. -/
  | expire (timer : Nat)
  | take (worker : Nat)
  /-- A publish comes back. -/
  | finish (worker : Nat) (publisher : Publisher.Confined)
  | look (worker : Nat)
  | elapse (millis : Nat)
  | aside (change : Host.Aside)

inductive Move where
  | call (op : Operation)
  /-- A stop, with what happens while it waits. -/
  | stopWhile (timeoutMillis : Nat) (meanwhile : List Ambient)
  | ambient (a : Ambient)

/-- What happened to notifications and workers. A start that is taken step by step is called, drops
what it finds in the queue, finds the queue empty and begins an epoch, before it has a worker or is
refused one. -/
inductive Occurrence where
  | raised
  | discarded (k : Kind)
  | cleared
  | renewed
  | started (worker publisher : Nat)
  /-- The host would not spawn a worker for a start. -/
  | refused
  /-- A start took the place of a worker that was still alive. -/
  | displaced (worker : Nat)
  | accepted (k : Kind)
  | lost (k : Kind)
  /-- A worker has taken a notification and calls its publisher with it. -/
  | handed (worker publisher : Nat) (k : Kind)
  /-- The call has come back. -/
  | returned (worker publisher : Nat) (k : Kind)
deriving DecidableEq, Repr

structure System where
  scheduler : Scheduler
  host : Host
  log : List Occurrence := []

namespace System

abbrev workers (x : System) : List Worker := x.host.tasks.workers

/-! ## Calls -/

/-- The worker that is no longer waited for, if it is still alive. -/
def displacement (tracked : Option Nat) (h : Host) : List Occurrence :=
  match tracked with
  | none => []
  | some worker => if (h.phase worker).isAlive then [.displaced worker] else []

def arrival (worker : Nat) (h : Host) : List Occurrence :=
  match h.tasks.workers[worker]? with
  | none => []
  | some w => [.started worker w.publisher]

/-- What a call did to the workers. Only a start that is not refused for running begins an epoch. -/
def changeover (s : Scheduler) (h : Host) (s' : Scheduler) (h' : Host) : List Occurrence :=
  if s'.epoch = s.epoch then []
  else
    match s'.running, s'.tracked with
    | true, some worker => displacement s.tracked h ++ arrival worker h'
    | _, _ => [.refused]

def after (x : System) (s : Scheduler) (h : Host) : System :=
  ⟨s, h, x.log ++ changeover x.scheduler x.host s h⟩

def call (op : Operation) (x : System) : System :=
  let (_, s, h) := op.perform x.scheduler x.host
  x.after s h

/-! ## What happens without the caller -/

def expire (timer : Nat) (x : System) : System :=
  match x.host.timers.timers[timer]? with
  | none => x
  | some t =>
    if t.owner = x.scheduler.ident then
      let seen := if x.scheduler.queue.length < Scheduler.capacity then Occurrence.accepted t.kind
        else .lost t.kind
      { x with scheduler := x.scheduler.notify t.kind, log := x.log ++ [seen] }
    else x

def take (worker : Nat) (x : System) : System :=
  match x.workers[worker]?, x.scheduler.queue with
  | some w, k :: _ =>
    if w.phase.isIdle ∧ x.scheduler.isCurrent w then
      let (s, h) := x.scheduler.take worker x.host
      ⟨s, h, x.log ++ [.handed worker w.publisher k]⟩
    else x
  | _, _ => x

def finish (publisher : Publisher.Confined) (worker : Nat) (x : System) : System :=
  match x.workers[worker]? with
  | none => x
  | some w =>
    match w.phase with
    | .publishing k =>
      { x with
        host := x.host.finish publisher.publish worker
        log := x.log ++ [.returned worker w.publisher k] }
    | _ => x

/-- A worker of the scheduler looks at it. One for which there is a notification does not sleep. -/
def look (worker : Nat) (x : System) : System :=
  match x.workers[worker]? with
  | none => x
  | some w =>
    if w.owner = x.scheduler.ident ∧ (x.scheduler.isCurrent w → x.scheduler.queue = []) then
      { x with host := x.host.look x.scheduler.isCurrent worker }
    else x

def happen (a : Ambient) (x : System) : System :=
  match a with
  | .expire timer => x.expire timer
  | .take worker => x.take worker
  | .finish worker publisher => x.finish publisher worker
  | .look worker => x.look worker
  | .elapse millis => { x with host := x.host.elapse millis }
  | .aside change => { x with host := change.apply x.host }

def happenAll (events : List Ambient) (x : System) : System := events.foldl (fun x a => x.happen a) x

/-! ## Runs -/

def halted (x : System) : System :=
  let (s, h) := x.scheduler.halt x.host
  { x with scheduler := s, host := h }

/-- The state in which a stop comes to its decision. -/
def awaiting (meanwhile : List Ambient) (x : System) : System := x.halted.happenAll meanwhile

def stopWhile (timeoutMillis : Nat) (meanwhile : List Ambient) (x : System) : Outcome × System :=
  let y := x.awaiting meanwhile
  let (r, s, h) := y.scheduler.await timeoutMillis y.host
  (r, { y with scheduler := s, host := h })

def step (m : Move) (x : System) : System :=
  match m with
  | .call op => x.call op
  | .stopWhile timeoutMillis meanwhile => (x.stopWhile timeoutMillis meanwhile).2
  | .ambient a => x.happen a

def run (moves : List Move) (x : System) : System := moves.foldl (fun x m => x.step m) x

@[simp] theorem run_nil (x : System) : x.run [] = x := rfl

@[simp] theorem run_cons (m : Move) (moves : List Move) (x : System) :
    x.run (m :: moves) = (x.step m).run moves := rfl

/-- What every step keeps holds after every run. -/
theorem run_induction {p : System → Prop} {moves : List Move} {x : System} (hx : p x)
    (hstep : ∀ m ∈ moves, ∀ y, p y → p (y.step m)) : p (x.run moves) := by
  induction moves generalizing x with
  | nil => exact hx
  | cons m rest ih =>
      exact ih (hstep m List.mem_cons_self x hx) fun n hn => hstep n (List.mem_cons_of_mem m hn)

/-- What every event keeps holds after all of them. -/
theorem happenAll_induction {p : System → Prop} {events : List Ambient} {x : System} (hx : p x)
    (hstep : ∀ a ∈ events, ∀ y, p y → p (y.happen a)) : p (x.happenAll events) := by
  induction events generalizing x with
  | nil => exact hx
  | cons a rest ih =>
      exact ih (hstep a List.mem_cons_self x hx) fun b hb => hstep b (List.mem_cons_of_mem a hb)

/-- A stop during which nothing happens is a stop. -/
theorem stopWhile_nil (timeoutMillis : Nat) (x : System) :
    (x.stopWhile timeoutMillis []).1 = (x.scheduler.stop timeoutMillis x.host).1 ∧
      (x.stopWhile timeoutMillis []).2.scheduler = (x.scheduler.stop timeoutMillis x.host).2.1 ∧
      (x.stopWhile timeoutMillis []).2.host = (x.scheduler.stop timeoutMillis x.host).2.2 :=
  ⟨rfl, rfl, rfl⟩

end System
end TelemetryAgent
