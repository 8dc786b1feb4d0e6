import TelemetryAgent.Notice

/-!
# A session that writes what it carries

A stand-in for a connection: everything published is written to the log, a connection is
confirmed by the first poll after it was asked for, and inbound events are those that were
injected since the last poll.
-/
namespace TelemetryAgent

structure Journal where
  connecting : Bool := false
  connected : Bool := false
  inbound : List Event := []
deriving DecidableEq, Repr

namespace Journal

def connect (j : Journal) : Journal × List Notice :=
  ({ j with connecting := true }, [.sessionConnecting])

def disconnect (j : Journal) : Journal × List Notice :=
  ({ j with connecting := false, connected := false }, [.sessionDisconnected])

/-- Queues an event for the next poll. Confirmations are the session's own and are not taken. -/
def inject (e : Event) (j : Journal) : Journal :=
  match e with
  | .connected _ => j
  | e => { j with inbound := j.inbound ++ [e] }

/-- The flag after an event has been delivered. -/
def afterEvent (connected : Bool) : Event → Bool
  | .disconnected => false
  | _ => connected

/-- The events that are delivered, and the session afterwards. -/
def poll (j : Journal) : List Event × Journal :=
  let confirmation := if j.connecting then [.connected false] else []
  (confirmation ++ j.inbound,
    { connecting := false
      connected := j.inbound.foldl afterEvent (j.connecting || j.connected)
      inbound := [] })

end Journal
end TelemetryAgent
