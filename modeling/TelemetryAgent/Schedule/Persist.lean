import TelemetryAgent.Config
import TelemetryAgent.Host.Timers
import TelemetryAgent.Schedule.Table

/-!
# Entries and the host

How an entry is written to the store and read back, and how its timer is armed and disarmed.
-/
namespace TelemetryAgent

namespace Host

/-- Saves settings of a kind in order, up to the first failure. -/
def saveSettings (k : Kind) : List Setting → Host → Option SettingsFault × Host
  | [], h => (none, h)
  | s :: rest, h =>
    match h.save Setting.subtree (s.key k) s.encode with
    | (some f, h) => (some f, h)
    | (none, h) => saveSettings k rest h

/-- Writes an entry to the store. A failure is noted and nothing else. -/
def persist (e : Entry) (h : Host) : Host :=
  match h.saveSettings e.kind e.settings with
  | (some f, h) => h.note (.persistFailed e.kind f)
  | (none, h) => h

/-- Stops and releases the timer of an entry, which is gone afterwards in any case. -/
def disarm (e : Entry) (h : Host) : Outcome × Host :=
  match e.timer with
  | none => (.ok (), h)
  | some timer =>
    let (r, h) := h.stopTimer timer
    (r, h.releaseTimer timer)

/-- Gives up the timer of an entry without stopping it first. -/
def abandon (e : Entry) (h : Host) : Host :=
  match e.timer with
  | none => h
  | some timer => h.releaseTimer timer

/-- Starts the timer of an entry afresh, or creates one that feeds the queue of `owner`. A timer
that was created and does not start is released. -/
def arm (owner : Nat) (e : Entry) (seconds : Nat) (h : Host) : Except Fault Nat × Host :=
  match e.timer with
  | some timer =>
    match h.stopTimer timer with
    | (.error f, h) => (.error f, h)
    | (.ok (), h) =>
      match h.startTimer timer seconds with
      | (.error f, h) => (.error f, h)
      | (.ok (), h) => (.ok timer, h)
  | none =>
    match h.createTimer owner e.kind with
    | (.error f, h) => (.error f, h)
    | (.ok timer, h) =>
      match h.startTimer timer seconds with
      | (.error f, h) => (.error f, h.releaseTimer timer)
      | (.ok (), h) => (.ok timer, h)

end Host

namespace Table

/-- Takes over the leaves in order. Those that do not decode are noted and skipped. -/
def absorbAll : List (String × Bytes) → Table → Host → Table × Host
  | [], t, h => (t, h)
  | (key, value) :: rest, t, h =>
    match Setting.decode key value with
    | .ok (k, s) => absorbAll rest (t.absorb k s) h
    | .error f => absorbAll rest t (h.note (.settingSkipped key f))

/-- The entries in the store. What was visited before a load failed is kept. -/
def load (h : Host) : Table × Host :=
  let (leaves, failure, h) := h.load Setting.subtree
  let (t, h) := absorbAll leaves {} h
  match failure with
  | none => (t, h)
  | some f => (t, h.note (.loadFailed f))

/-- Gives every kind without an entry the first one that the baseline has for it. -/
def fill (baseline : List BaselineItem) (t : Table) : Table :=
  baseline.foldl
    (fun t item =>
      match t.get? item.kind with
      | some _ => t
      | none => t.set item.kind (some ⟨item.kind, item.period, true, none⟩))
    t

end Table
end TelemetryAgent
