import TelemetryAgent.Session.Journal

/-!
# Sessions with a journal on the bench

Drives one session that writes what it carries.
-/
namespace TelemetryAgent.Bench

inductive JournalStep
  | connect
  | disconnect
  /-- Polls with callbacks that take note of events, or with callbacks that do nothing. -/
  | poll (noting : Bool)
  | inject (e : Event)
  | setProperty (target : Endpoint) (value : Value)
  | streamIndividual (target : Endpoint) (value : Value)
  | streamObject (target : Endpoint) (fields : Fields)
deriving DecidableEq, Repr

structure JournalRecord where
  connected : Bool
  notices : List Notice
  events : List Event
deriving DecidableEq, Repr

namespace JournalRig

def perform (step : JournalStep) (j : Journal) : List Event × Journal × List Notice :=
  match step with
  | .connect => ([], j.connect)
  | .disconnect => ([], j.disconnect)
  | .poll noting =>
    let (delivered, j) := j.poll
    (if noting then delivered else [], j, [])
  | .inject e => ([], j.inject e, [])
  | .setProperty target value => ([], j, [.sessionProperty target value])
  | .streamIndividual target value => ([], j, [.sessionIndividual target value])
  | .streamObject target fields => ([], j, [.sessionObject target fields])

def run : List JournalStep → Journal → List JournalRecord
  | [], _ => []
  | step :: rest, j =>
    let (events, j, notices) := perform step j
    ⟨j.connected, notices, events⟩ :: run rest j

end JournalRig
end TelemetryAgent.Bench
