import TelemetryAgent.Publish
import TelemetryAgent.Schedule.Delivery

/-!
# The device

The agent as a whole: a session, a scheduler, and the state that ties them. One caller drives it
by `start`, `poll` and `stop`. A poll delivers events to the router, which serves some of them
and passes the others to the caller's callbacks; a poll that ends connected publishes the
initial burst, once in the life of a device, and sees that the scheduler runs.
-/
namespace TelemetryAgent

inductive DeviceState
  | stopped | started | connected
deriving DecidableEq, Repr

namespace DeviceState

def name : DeviceState → String
  | stopped => "Stopped"
  | started => "Started"
  | connected => "Connected"

def number : DeviceState → Nat
  | stopped => 0
  | started => 1
  | connected => 2

/-- A confirmed connection leads to `connected` from every state. -/
def onConnected : DeviceState → DeviceState
  | _ => connected

/-- A lost connection matters only while connected. -/
def onDisconnected : DeviceState → DeviceState
  | connected => started
  | s => s

end DeviceState

structure Device where
  state : DeviceState := .stopped
  /-- Whether the initial burst has been published. -/
  burstDone : Bool := false
  disconnectMillis : Nat
  session : Option Nat := none
  scheduler : Scheduler
deriving DecidableEq, Repr

namespace Device

/-- Nothing is asked of the host before the configuration has been found valid. -/
def create (c : Config) (h : Host) : Except Fault Device × Host :=
  match c.validate with
  | .error f => (.error f, h)
  | .ok () =>
    match Scheduler.create c.telemetry c.worker h with
    | (.error f, h) => (.error f, h)
    | (.ok scheduler, h) =>
      (.ok { disconnectMillis := c.disconnectMillis.toNat, scheduler }, h)

/-! ## Starting -/

/-- Opens a session and asks it to connect. A failure leaves the device stopped. -/
def start (d : Device) (h : Host) : Outcome × Device × Host :=
  if d.state ≠ .stopped then (.error (.invalidState "device already started"), d, h)
  else
    match h.openSession with
    | (.error f, h) => (.error (.transport f), d, h.note (.openFailed f))
    | (.ok session, h) =>
      match h.connectSession session with
      | (.error f, h) => (.error (.transport f), d, h.note (.connectFailed f))
      | (.ok (), h) => (.ok (), { d with session := some session, state := .started }, h)

/-! ## Events -/

/-- Serves an event that has a route. -/
def serve (e : Event) (d : Device) (h : Host) : Outcome × Device × Host :=
  match e with
  | .connected _ => (.ok (), d, h)
  | .disconnected => (.ok (), d, h)
  | .individual target value =>
    match Route.ofIndividual? target with
    | some .command =>
      match value.text?.bind Command.ofName? with
      | none => (.error .unsupportedRequest, d, h)
      | some c =>
        let (r, h) := h.serve (.command c)
        (r, d, h)
    | _ =>
      match value.text? with
      | none => (.error .unsupportedRequest, d, h)
      | some behavior =>
        let (r, h) := h.serve (.led behavior)
        (r, d, h)
  | .object _ fields =>
    let (r, h) := h.serve (.ota fields (fields.find? "operation"))
    (r, d, h)
  | .propertySet target value =>
    let (r, scheduler, h) := d.scheduler.set target.path value h
    (r, { d with scheduler }, h)
  | .propertyUnset target =>
    let (r, scheduler, h) := d.scheduler.unset target.path h
    (r, { d with scheduler }, h)

/-- The endpoint of an event that has one. -/
def endpoint : Event → Endpoint
  | .connected _ => ⟨"", ""⟩
  | .disconnected => ⟨"", ""⟩
  | .individual target _ => target
  | .object target _ => target
  | .propertySet target _ => target
  | .propertyUnset target => target

/-- The state after an event. -/
def stateAfter (s : DeviceState) : Event → DeviceState
  | .connected _ => s.onConnected
  | .disconnected => s.onDisconnected
  | _ => s

/-- Serves an event or passes it on. A request that fails is noted and otherwise dropped. -/
def receive (e : Event) (d : Device) (h : Host) : Device × Host :=
  match Route.ofEvent? e with
  | some route =>
    let (r, d, h) := d.serve e h
    (d, h.noteFailure r (.requestFailed route (endpoint e)))
  | none => ({ d with state := stateAfter d.state e }, h.callBack e)

def receiveAll : List Event → Device → Host → Device × Host
  | [], d, h => (d, h)
  | e :: rest, d, h =>
    let (d, h) := d.receive e h
    receiveAll rest d h

/-! ## Polling -/

/-- Publishes the initial burst if it has not been done, and starts the scheduler if it does not
run. Workers publish on the session that the device holds. -/
def serviceConnection (session : Nat) (d : Device) (h : Host) : Outcome × Device × Host :=
  let (d, h) := if d.burstDone then (d, h) else ({ d with burstDone := true }, h.burst session)
  if d.scheduler.running then (.ok (), d, h)
  else
    let (r, scheduler, h) := d.scheduler.start session h
    (r, { d with scheduler }, h)

/-- Drives the session once: `arrived` are the inbound events, and `failure` is what the poll
reports after it has delivered them. -/
def poll (arrived : List Event) (failure : Option SessionFault) (d : Device) (h : Host) :
    Outcome × Device × Host :=
  if d.state = .stopped then (.error (.invalidState "device not started"), d, h)
  else
    match d.session with
    | none => (.error (.invalidState "device has no session"), d, h)
    | some session =>
      let (delivered, h) := h.pollSession session arrived
      let (d, h) := d.receiveAll delivered h
      match failure with
      | some f => (.error (.transport f), d, h)
      | none =>
        if d.state = .connected then d.serviceConnection session h else (.ok (), d, h)

/-! ## Battery readings -/

def publishBattery (b : BatteryStatus) (d : Device) (h : Host) : Outcome × Host :=
  if d.state ≠ .connected then (.error (.invalidState "device not connected"), h)
  else
    match d.session with
    | none => (.error (.invalidState "device has no session"), h)
    | some session => h.publishBattery session b

/-! ## Stopping -/

/-- Disconnects once telemetry has stopped. The session is given up even if it fails to disconnect;
a worker that is busy is found out before the session is touched. -/
def hangUp (timeoutMillis : Nat) (stopped : Outcome) (d : Device) (h : Host) :
    Outcome × Device × Host :=
  match stopped with
  | .error f => (.error f, d, h)
  | .ok () =>
    match d.session with
    | none => (.ok (), { d with state := .stopped }, h)
    | some session =>
      let d := { d with state := .stopped, session := none }
      match h.disconnectSession session timeoutMillis with
      | (.error f, h) => (.error (.transport f), d, h.note (.disconnectFailed f))
      | (.ok (), h) => (.ok (), d, h)

/-- Stops telemetry, then disconnects. -/
def stop (timeoutMillis : Nat) (d : Device) (h : Host) : Outcome × Device × Host :=
  let (r, scheduler, h) := d.scheduler.stop timeoutMillis h
  { d with scheduler }.hangUp timeoutMillis r h

/-- What is done when a device goes away: it is stopped if it needs to be, and the scheduler goes
with it. -/
def release (d : Device) (h : Host) : Host :=
  if d.state = .stopped ∧ d.session = none then d.scheduler.release h
  else
    let (r, d, h) := d.stop d.disconnectMillis h
    d.scheduler.release (h.noteFailure r .dropFailed)

/-- Stops the device as far as possible and lets it go. -/
def destroy (d : Device) (h : Host) : Host :=
  let (r, d, h) := d.stop d.disconnectMillis h
  d.release (h.noteFailure r .destroyFailed)

/-- How workers of a device publish: the publisher is the session. -/
def publisher : Publisher := fun session k h =>
  let (r, h) := h.publish session .worker k
  (.returned r, h)

end Device
end TelemetryAgent
