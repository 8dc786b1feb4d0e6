import TelemetryAgent.Timer.Thread

/-!
# Timers on the bench

Drives one timer with threads through starts, stops and expiries, and finally lets it go.
-/
namespace TelemetryAgent.Bench

inductive TimerStep
  | start (period : Interval)
  | stop
  | drop
  /-- Waits for a number of expiries since the latest start. -/
  | awaitExpiries (count : Nat)
  /-- Watches for a while that nothing expires. -/
  | watchQuiet
deriving DecidableEq, Repr

inductive TimerAnswer
  | outcome (r : Outcome)
  | flag (b : Bool)
  | gone
deriving DecidableEq

structure TimerRecord where
  answer : TimerAnswer
  /-- Absent if the timer is gone. -/
  running : Option Bool
  notices : List Notice
deriving DecidableEq

structure TimerRig where
  timer : Option ThreadTimer
  /-- Whether the callback panics, after it has been counted. -/
  panics : Bool
  /-- What the latest start asked for. -/
  period : Interval := ⟨0, 0⟩
  /-- Expiries since the latest start. -/
  seen : Nat := 0

namespace TimerRig

/-- The time of the clock when a timer is started. -/
def clock : Interval := ⟨1, 0⟩

/-- Lets up to `count` deadlines of the armed thread come; there is none once it has ended. -/
def expire : (count : Nat) → TimerRig → TimerRig
  | 0, b => b
  | count + 1, b =>
    match b.timer with
    | none => b
    | some t =>
      match t.handle with
      | none => b
      | some thread =>
        match t.expire thread b.panics with
        | (true, t) => expire count { b with timer := some t, seen := b.seen + 1 }
        | (false, _) => b

/-- How many deadlines come while the bench waits for five seconds. -/
def patience (b : TimerRig) : Nat := 5000000000 / b.period.toNanos

/-- How many deadlines come while the bench watches for five milliseconds. -/
def attention (b : TimerRig) : Nat := 5000000 / b.period.toNanos

def answered (answer : TimerAnswer) (notices : List Notice) (b : TimerRig) :
    TimerRecord × TimerRig :=
  (⟨answer, b.timer.map (·.isRunning), notices⟩, b)

def perform (step : TimerStep) (b : TimerRig) : TimerRecord × TimerRig :=
  match step, b.timer with
  | .start period, some t =>
    let (r, t, notices) := t.start clock period
    { b with timer := some t, period, seen := 0 }.answered (.outcome r) notices
  | .stop, some t =>
    let (r, t) := t.stop
    { b with timer := some t }.answered (.outcome r) []
  | .drop, some t => { b with timer := none }.answered (.outcome (.ok ())) t.release.2
  | .drop, none => b.answered (.outcome (.ok ())) []
  | .awaitExpiries count, _ =>
    let b := b.expire (min (count - b.seen) b.patience)
    b.answered (.flag (decide (count ≤ b.seen))) []
  | .watchQuiet, _ =>
    let before := b.seen
    let b := b.expire (min 1 b.attention)
    b.answered (.flag (b.seen == before)) []
  | _, none => b.answered .gone []

def run : List TimerStep → TimerRig → List TimerRecord
  | [], _ => []
  | step :: rest, b =>
    let (first, b) := b.perform step
    first :: run rest b

end TimerRig
end TelemetryAgent.Bench
