import TelemetryAgent.Host.Call
import TelemetryAgent.Notice
import TelemetryAgent.Platform
import TelemetryAgent.Session.Journal
import TelemetryAgent.Settings.Shelf

/-!
# The host

The machine and the network as an agent meets them: settings, timers, tasks, sessions, the
platform and the services of the caller. Each of them holds what it keeps between calls, and a
plan that says which of its calls fail, as a function of the number of calls made on it before.
The host also collects the calls and the notices of the agent, in order.
-/
namespace TelemetryAgent

/-! ## Settings -/

structure SettingsStore where
  leaves : Leaves := .empty
  saves : Nat := 0
  saveFault : Nat → Option SettingsFault := fun _ => none
  /-- A load that fails does so after it has visited this many leaves. -/
  loadFault : Option (Nat × SettingsFault) := none

/-! ## Timers -/

/-- A timer runs while it has an interval, in seconds. -/
structure TimerState where
  /-- The scheduler whose queue the timer feeds. -/
  owner : Nat
  kind : Kind
  interval : Option Nat := none
  released : Bool := false
deriving DecidableEq, Repr

/-- Timers that are expired by hand are recorded and can fail in any way. Timers with threads are
not recorded; they only refuse intervals beyond the clock. -/
inductive TimerBackend
  | manual | threaded
deriving DecidableEq, Repr

structure TimerBank where
  timers : List TimerState := []
  backend : TimerBackend := .manual
  calls : Nat := 0
  createFault : Nat → Option Fault := fun _ => none
  startFault : Nat → Option Fault := fun _ => none
  stopFault : Nat → Option Fault := fun _ => none

/-! ## Tasks -/

/-- What a worker is doing. An idle one looks at its scheduler again in so many milliseconds. -/
inductive WorkerPhase
  | idle (millis : Nat)
  | publishing (k : Kind)
  | ended
  | panicked
deriving DecidableEq, Repr

namespace WorkerPhase

def isIdle : WorkerPhase → Bool
  | idle _ => true
  | _ => false

/-- Whether a worker whose scheduler has stopped is found to have ended within some milliseconds.
Ending takes a moment, so that no time at all is not enough for a worker that is alive. -/
def endsWithin (millis : Nat) : WorkerPhase → Bool
  | idle rest => 0 < millis && rest ≤ millis
  | publishing _ => false
  | ended => true
  | panicked => true

/-- The phase some milliseconds later. A publish may take any time. -/
def later (millis : Nat) : WorkerPhase → WorkerPhase
  | idle rest => idle (rest - millis)
  | phase => phase

end WorkerPhase

structure Worker where
  /-- The scheduler that spawned it. -/
  owner : Nat
  epoch : UInt32
  publisher : Nat
  /-- How long it sleeps when there is nothing to publish. -/
  pollMillis : Nat := 0
  phase : WorkerPhase := .idle 0
deriving DecidableEq, Repr

/-- The size of the page that guards the end of a stack. -/
def guardBytes : Nat := 4096

/-- The size of the address space of a process. -/
def addressSpaceBytes : Nat := Nat.pow 2 47

/-- Refuses a stack for its size alone: together with its guard it has to fit into the address
space, and the sum has to be a 64-bit number. -/
def SpawnRefusal.ofStack? (stackBytes : UInt64) : Option SpawnRefusal :=
  let size := stackBytes.toNat + guardBytes
  if UInt64.size ≤ size then some .invalidSize
  else if addressSpaceBytes ≤ size then some .unavailable
  else none

structure TaskPool where
  workers : List Worker := []
  spawns : Nat := 0
  /-- Whether a spawn is refused, by its number and the size of the stack. -/
  refusal : Nat → UInt64 → Option SpawnRefusal := fun _ => SpawnRefusal.ofStack?

/-! ## Sessions -/

structure Network where
  opened : Nat := 0
  /-- What each session keeps, if sessions write what they carry. -/
  journals : Option (List Journal) := none
  calls : Nat := 0
  openFault : Nat → Option SessionFault := fun _ => none
  connectFault : Nat → Option SessionFault := fun _ => none
  disconnectFault : Nat → Option SessionFault := fun _ => none
  /-- Publishing can fail by path. -/
  publishFault : Nat → String → Option SessionFault := fun _ _ => none

/-! ## Platform, services, callbacks -/

structure Machine where
  facts : Facts := {}
  bootId : String := "boot"
  scans : Nat := 0
  scanFault : Nat → Option Fault := fun _ => none

/-- Services may be missing, or reject every request, or take it and answer. -/
inductive ServiceMode
  | missing | rejecting | answering
deriving DecidableEq, Repr

structure Services where
  mode : ServiceMode := .missing
  requests : Nat := 0
  fault : Nat → Option Fault := fun _ => none

/-! ## All together -/

structure Host where
  settings : SettingsStore := {}
  timers : TimerBank := {}
  tasks : TaskPool := {}
  sessions : Network := {}
  platform : Machine := {}
  services : Services := {}
  /-- Whether the caller has callbacks that take note of events. -/
  callbacks : Bool := false
  /-- Schedulers made so far. -/
  schedulers : Nat := 0
  calls : List Call := []
  notices : List Notice := []

namespace Host

def record (c : Call) (h : Host) : Host := { h with calls := h.calls ++ [c] }

def note (n : Notice) (h : Host) : Host := { h with notices := h.notices ++ [n] }

/-- Notes a failure, if there was one. -/
def noteFailure (r : Outcome) (n : Fault → Notice) (h : Host) : Host :=
  match r with
  | .ok () => h
  | .error f => h.note (n f)

/-! ### Settings -/

/-- Saves a leaf of a subtree. -/
def save (subtree key : String) (value : Bytes) (h : Host) : Option SettingsFault × Host :=
  let h := h.record (.save subtree key value)
  let store := { h.settings with saves := h.settings.saves + 1 }
  match h.settings.saveFault h.settings.saves with
  | some f => (some f, { h with settings := store })
  | none =>
    let leaves := store.leaves.put (Medium.path subtree key) value
    (none, { h with settings := { store with leaves } })

/-- The leaves that a load of a subtree visits, and how it ends. -/
def load (subtree : String) (h : Host) : List (String × Bytes) × Option SettingsFault × Host :=
  let found := Medium.below subtree h.settings.leaves
  let h := h.record (.load subtree)
  match h.settings.loadFault with
  | none => (found, none, h)
  | some (count, f) => (found.take count, some f, h)

end Host
end TelemetryAgent
