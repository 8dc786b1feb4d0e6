import TelemetryAgent.Device

/-!
# Bench steps

A bench drives an agent on a host whose timers expire by hand, whose calls fail on request, and
whose workers can be held at the beginning of a publish. This module has the vocabulary: what a
step asks for, what it answers, and what can be seen of the agent after it.
-/
namespace TelemetryAgent.Bench

/-- What a publisher that takes note of kinds does besides. -/
structure PublishPlan where
  fault : Option Fault := none
  panics : Bool := false
deriving DecidableEq, Repr

inductive Step
  | failTimers (create start stop : Option Fault)
  /-- Saves fail after `count` more that succeed. -/
  | failSaves (fault : Option SettingsFault) (count : Nat)
  | failPublishes (plan : PublishPlan)
  | failScans (fault : Option Fault)
  | failServices (fault : Option Fault)
  /-- Of several faults for one path the last one counts. -/
  | failSessions (opening connecting disconnecting : Option SessionFault)
      (paths : List (String × SessionFault))
  | shutGate
  | openGate
  | schedule (k : Kind)
  | unschedule (k : Kind)
  | set (path : String) (value : Value)
  | unset (path : String)
  | baseline
  | entry (k : Kind)
  | armed (k : Kind)
  | store
  /-- Expires the running timer of a kind. -/
  | fire (k : Kind) (times : Nat)
  | fireAll (times : Nat)
  /-- Runs the callback of a timer that may have been stopped or released. -/
  | late (timer times : Nat)
  | start
  | stop (timeoutMillis : Nat)
  | drop
  | rebuild (baseline : List BaselineItem)
  | poll (arrived : List Event) (failure : Option SessionFault)
  | destroy
  | publish (k : Kind)
  | burst
  | battery (reading : BatteryStatus)

inductive Answer
  | outcome (r : Outcome)
  | gone
  | flag (b : Bool)
  | count (n : Nat)
  | text (t : Option String)
  | leaves (l : List (String × Bytes))
  | baseline (items : List BaselineItem) (periods : List (Option Int64))
deriving DecidableEq

/-- What can be seen of an entry. -/
structure EntryView where
  period : Int64
  enabled : Bool
  armed : Bool
deriving DecidableEq, Repr

structure SchedulerView where
  running : Bool
  dropped : UInt32
  entries : List (Option EntryView)
deriving DecidableEq, Repr

inductive View
  | nothing
  | scheduler (v : SchedulerView)
  | device (state : DeviceState) (burstDone : Bool) (v : SchedulerView)
deriving DecidableEq, Repr

structure Record where
  answer : Answer
  notices : List Notice
  calls : List Call
  view : View
deriving DecidableEq

namespace Record

/-- The kinds that were handed to a publisher that takes note of them. -/
def published (r : Record) : List Kind :=
  r.calls.filterMap fun
    | .handed _ k => some k
    | _ => none

/-- The calls made to the host. -/
def hostCalls (r : Record) : List Call :=
  r.calls.filter fun
    | .handed _ _ => false
    | _ => true

end Record
end TelemetryAgent.Bench
