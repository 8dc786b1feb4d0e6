import TelemetryAgent.Settings.Leaves
import TelemetryAgent.Text.Split
import TelemetryAgent.Fault

/-!
# Stores

Several stores, each with access to a medium that it may share with its clones. A leaf is
addressed by a subtree and a key below it. A visitor that fails in the middle of a load leaves
the medium poisoned: from then on every change and every load on it fails.
-/
namespace TelemetryAgent

/-- What all clones of one store share. -/
inductive Medium
  | sound (leaves : Leaves)
  | poisoned

namespace Medium

/-- The namespace that holds all settings. -/
def root : String := "edgehog_device"

def folder (subtree : String) : String := root ++ "/" ++ subtree ++ "/"

def path (subtree key : String) : String := folder subtree ++ key

/-- Reads leaves, with the rest of their paths, up to the first one that is not in a folder. -/
def scan (folder : List Char) : List (String × Bytes) → List (String × Bytes)
  | [] => []
  | (path, value) :: rest =>
    match Text.after? folder path.toList with
    | some key => (String.ofList key, value) :: scan folder rest
    | none => []

/-- The leaves below a subtree with the rest of their paths, in increasing order. Only those are
looked at that do not come before the folder. -/
def below (subtree : String) (leaves : Leaves) : List (String × Bytes) :=
  scan (folder subtree).toList (leaves.list.dropWhile fun leaf => leaf.1 < folder subtree)

def save (subtree key : String) (value : Bytes) : Medium → Except SettingsFault Unit × Medium
  | .sound leaves => (.ok (), .sound (leaves.put (path subtree key) value))
  | .poisoned => (.error .io, .poisoned)

/-- To delete a leaf that is not there is no error. -/
def delete (subtree key : String) : Medium → Except SettingsFault Unit × Medium
  | .sound leaves => (.ok (), .sound (leaves.erase (path subtree key)))
  | .poisoned => (.error .io, .poisoned)

def get? (subtree key : String) : Medium → Option Bytes
  | .sound leaves => leaves.get? (path subtree key)
  | .poisoned => none

def load (subtree : String) : Medium → Except SettingsFault (List (String × Bytes))
  | .sound leaves => .ok (below subtree leaves)
  | .poisoned => .error .io

/-- Loads with a visitor that fails after so many leaves. It does no harm if there are no more. -/
def interrupt (count : Nat) (subtree : String) : Medium → Bool × Medium
  | .sound leaves =>
    if count < (below subtree leaves).length then (true, .poisoned) else (false, .sound leaves)
  | .poisoned => (false, .poisoned)

def size : Medium → Nat
  | .sound leaves => leaves.size
  | .poisoned => 0

end Medium

/-- Stores by number; `access` tells which medium each of them uses. -/
structure Shelf where
  media : List Medium
  access : List Nat

namespace Shelf

/-- One empty store. -/
def initial : Shelf := ⟨[.sound .empty], [0]⟩

def medium (s : Shelf) (store : Nat) : Medium :=
  (s.access[store]?.bind (s.media[·]?)).getD (.sound .empty)

def setMedium (s : Shelf) (store : Nat) (m : Medium) : Shelf :=
  match s.access[store]? with
  | some i => { s with media := s.media.set i m }
  | none => s

/-- Adds an empty store with a medium of its own. -/
def add (s : Shelf) : Shelf :=
  ⟨s.media ++ [.sound .empty], s.access ++ [s.media.length]⟩

/-- Adds a store that uses the medium of another one. -/
def clone (s : Shelf) (store : Nat) : Shelf :=
  match s.access[store]? with
  | some i => { s with access := s.access ++ [i] }
  | none => s

def save (s : Shelf) (store : Nat) (subtree key : String) (value : Bytes) :
    Except SettingsFault Unit × Shelf :=
  let (r, m) := (s.medium store).save subtree key value
  (r, s.setMedium store m)

def delete (s : Shelf) (store : Nat) (subtree key : String) :
    Except SettingsFault Unit × Shelf :=
  let (r, m) := (s.medium store).delete subtree key
  (r, s.setMedium store m)

def get? (s : Shelf) (store : Nat) (subtree key : String) : Option Bytes :=
  (s.medium store).get? subtree key

def load (s : Shelf) (store : Nat) (subtree : String) :
    Except SettingsFault (List (String × Bytes)) :=
  (s.medium store).load subtree

/-- Whether the visitor has failed, with the stores afterwards. -/
def interrupt (s : Shelf) (store count : Nat) (subtree : String) : Bool × Shelf :=
  let (failed, m) := (s.medium store).interrupt count subtree
  (failed, s.setMedium store m)

/-- Loads with a visitor that fails at once. -/
def poison (s : Shelf) (store : Nat) (subtree : String) : Bool × Shelf :=
  s.interrupt store 0 subtree

/-- The number of leaves that each store gives access to. -/
def sizes (s : Shelf) : List Nat := (List.range s.access.length).map fun i => (s.medium i).size

end Shelf
end TelemetryAgent
