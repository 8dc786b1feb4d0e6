import TelemetryAgent.Config
import TelemetryAgent.Wire.Varint

/-!
# Configuration as bytes

The fields in order, without names or framing: numbers and list lengths as varints, a period
interleaved, a priority as one byte, a kind by its ordinal. A reader returns the bytes it did
not need.
-/
namespace TelemetryAgent

open Wire

def Kind.encode (k : Kind) : Bytes := write .word32 k.ordinal

def Kind.decode? (bytes : Bytes) : Option (Kind × Bytes) := do
  let (n, rest) ← read? .word32 bytes
  let k ← Kind.all[n]?
  return (k, rest)

def BaselineItem.encode (item : BaselineItem) : Bytes :=
  item.kind.encode ++ writeLong item.period

def BaselineItem.decode? (bytes : Bytes) : Option (BaselineItem × Bytes) := do
  let (kind, bytes) ← Kind.decode? bytes
  let (period, bytes) ← readLong? bytes
  return (⟨kind, period⟩, bytes)

def WorkerConfig.encode (w : WorkerConfig) : Bytes :=
  write .word32 w.pollMillis.toNat ++ write .word64 w.stackBytes.toNat ++ [w.priority]

def WorkerConfig.decode? (bytes : Bytes) : Option (WorkerConfig × Bytes) := do
  let (poll, bytes) ← read? .word32 bytes
  let (stack, bytes) ← read? .word64 bytes
  let (priority, bytes) ← readByte? bytes
  return (⟨UInt32.ofNat poll, UInt64.ofNat stack, priority⟩, bytes)

/-- Reads `count` items. -/
def BaselineItem.decodeMany? : (count : Nat) → Bytes → Option (List BaselineItem × Bytes)
  | 0, bytes => some ([], bytes)
  | count + 1, bytes => do
    let (item, bytes) ← BaselineItem.decode? bytes
    let (items, bytes) ← BaselineItem.decodeMany? count bytes
    return (item :: items, bytes)

namespace Config

def encode (c : Config) : Bytes :=
  write .word64 c.telemetry.length ++ c.telemetry.flatMap BaselineItem.encode ++
    c.worker.encode ++ write .word32 c.disconnectMillis.toNat

def decode? (bytes : Bytes) : Option (Config × Bytes) := do
  let (count, bytes) ← read? .word64 bytes
  let (telemetry, bytes) ← BaselineItem.decodeMany? count bytes
  let (worker, bytes) ← WorkerConfig.decode? bytes
  let (timeout, bytes) ← read? .word32 bytes
  return (⟨telemetry, worker, UInt32.ofNat timeout⟩, bytes)

end Config
end TelemetryAgent
