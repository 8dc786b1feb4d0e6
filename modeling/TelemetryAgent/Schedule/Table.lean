import TelemetryAgent.Schedule.Setting

/-!
# Entries

The schedule of each kind as it stands. The table has one place for each kind that can be
scheduled, and `Kind.invalid` has none.
-/
namespace TelemetryAgent

/-- The schedule of one kind. It has a timer only while it is armed; a period that is not
positive cannot be armed. -/
structure Entry where
  kind : Kind
  period : Int64
  enabled : Bool
  timer : Option Nat := none
deriving DecidableEq, Repr

namespace Entry

/-- What a kind begins with when nothing is known of it but that it has an entry. -/
def blank (k : Kind) : Entry := ⟨k, 0, false, none⟩

def withSetting (e : Entry) : Setting → Entry
  | .period seconds => { e with period := seconds }
  | .enable flag => { e with enabled := flag }

/-- The two leaves that an entry is stored as, in the order in which they are written. -/
def settings (e : Entry) : List Setting := [.period e.period, .enable e.enabled]

end Entry

structure Table where
  hardwareInfo : Option Entry := none
  wifiScan : Option Entry := none
  systemStatus : Option Entry := none
  storageUsage : Option Entry := none
deriving DecidableEq, Repr

namespace Table

def get? (t : Table) : Kind → Option Entry
  | .invalid => none
  | .hardwareInfo => t.hardwareInfo
  | .wifiScan => t.wifiScan
  | .systemStatus => t.systemStatus
  | .storageUsage => t.storageUsage

/-- Replaces what the table holds for a kind. -/
def set (k : Kind) (e : Option Entry) (t : Table) : Table :=
  match k with
  | .invalid => t
  | .hardwareInfo => { t with hardwareInfo := e }
  | .wifiScan => { t with wifiScan := e }
  | .systemStatus => { t with systemStatus := e }
  | .storageUsage => { t with storageUsage := e }

/-- The entry of a kind, or a blank one where there is none. -/
def getOrBlank? (t : Table) (k : Kind) : Option Entry :=
  if k = .invalid then none else some ((t.get? k).getD (Entry.blank k))

/-- Takes over one leaf of the store. -/
def absorb (k : Kind) (s : Setting) (t : Table) : Table :=
  match t.getOrBlank? k with
  | none => t
  | some e => t.set k (some (e.withSetting s))

theorem get?_set (t : Table) (k j : Kind) (e : Option Entry) :
    (t.set k e).get? j = if j = k ∧ k ≠ .invalid then e else t.get? j := by
  cases k <;> cases j <;> rfl

end Table
end TelemetryAgent
