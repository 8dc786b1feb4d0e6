import TelemetryAgent.Host.Basic
import TelemetryAgent.Timer.Thread

/-!
# Timer calls

A timer runs from a start that succeeds until a stop that succeeds or its release. Timers are
numbered in the order of their creation, and their numbers are not used again.
-/
namespace TelemetryAgent.Host

/-- Timers with threads keep no record of their calls. -/
def recordTimer (c : Call) (h : Host) : Host :=
  match h.timers.backend with
  | .manual => h.record c
  | .threaded => h

/-- Counts a call and tells whether it fails. Timers with threads do not fail on request. -/
def timerCall (plan : TimerBank → Nat → Option Fault) (h : Host) : Option Fault × Host :=
  let fault := match h.timers.backend with
    | .manual => plan h.timers h.timers.calls
    | .threaded => none
  (fault, { h with timers := { h.timers with calls := h.timers.calls + 1 } })

def setTimer (timer : Nat) (f : TimerState → TimerState) (h : Host) : Host :=
  { h with timers := { h.timers with timers := h.timers.timers.modify timer f } }

def createTimer (owner : Nat) (k : Kind) (h : Host) : Except Fault Nat × Host :=
  match h.timerCall TimerBank.createFault with
  | (some f, h) => (.error f, h.recordTimer (.timerCreate none k))
  | (none, h) =>
    let timer := h.timers.timers.length
    let h := h.recordTimer (.timerCreate (some timer) k)
    let added := h.timers.timers ++ [{ owner, kind := k }]
    (.ok timer, { h with timers := { h.timers with timers := added } })

def startTimer (timer seconds : Nat) (h : Host) : Outcome × Host :=
  let h := h.recordTimer (.timerStart timer seconds)
  match h.timerCall TimerBank.startFault with
  | (some f, h) => (.error f, h)
  | (none, h) =>
    if h.timers.backend = .threaded ∧ ThreadTimer.clockLimit ≤ seconds then
      let name := match h.timers.timers[timer]? with
        | some t => ThreadTimer.displayName t.kind.timerName
        | none => ""
      (.error .startFailed, h.note (.periodOutOfRange name ⟨seconds, 0⟩))
    else (.ok (), h.setTimer timer fun t => { t with interval := some seconds })

def stopTimer (timer : Nat) (h : Host) : Outcome × Host :=
  let h := h.recordTimer (.timerStop timer)
  match h.timerCall TimerBank.stopFault with
  | (some f, h) => (.error f, h)
  | (none, h) => (.ok (), h.setTimer timer fun t => { t with interval := none })

/-- Releasing a timer disarms it. -/
def releaseTimer (timer : Nat) (h : Host) : Host :=
  (h.recordTimer (.timerRelease timer)).setTimer timer fun t =>
    { t with interval := none, released := true }

/-- Whether a timer runs. -/
def timerRunning (timer : Nat) (h : Host) : Bool :=
  match h.timers.timers[timer]? with
  | some t => t.interval.isSome
  | none => false

end TelemetryAgent.Host
