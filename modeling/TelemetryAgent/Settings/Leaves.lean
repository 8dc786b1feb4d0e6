import TelemetryAgent.Wire.Varint

/-!
# Leaves

The content of a settings store: byte strings under full paths, each path once, in increasing
order. Text is ordered by code points, which is the order of its UTF-8 bytes.
-/
namespace TelemetryAgent

structure Leaves where
  list : List (String × Bytes)
  increasing : list.Pairwise (fun a b => a.1 < b.1)

namespace Leaves

def empty : Leaves := ⟨[], .nil⟩

def size (l : Leaves) : Nat := l.list.length

def get? (l : Leaves) (path : String) : Option Bytes := l.list.lookup path

/-- Puts a leaf at its place, over one under the same path. -/
def putInto (path : String) (value : Bytes) : List (String × Bytes) → List (String × Bytes)
  | [] => [(path, value)]
  | (other, held) :: rest =>
    if path = other then (path, value) :: rest
    else if path < other then (path, value) :: (other, held) :: rest
    else (other, held) :: putInto path value rest

theorem mem_putInto {path : String} {value : Bytes} {list : List (String × Bytes)}
    {a : String × Bytes} (h : a ∈ putInto path value list) : a = (path, value) ∨ a ∈ list := by
  induction list with
  | nil => simpa [putInto] using h
  | cons b rest ih =>
    obtain ⟨other, held⟩ := b
    unfold putInto at h
    split at h
    · grind
    · split at h
      · grind
      · grind

theorem pairwise_putInto (path : String) (value : Bytes) {list : List (String × Bytes)}
    (h : list.Pairwise (fun a b => a.1 < b.1)) :
    (putInto path value list).Pairwise (fun a b => a.1 < b.1) := by
  induction list with
  | nil => simp [putInto]
  | cons b rest ih =>
    obtain ⟨other, held⟩ := b
    obtain ⟨hb, hrest⟩ := List.pairwise_cons.1 h
    unfold putInto
    split
    · rename_i heq
      exact List.pairwise_cons.2 ⟨fun a ha => heq ▸ hb a ha, hrest⟩
    · split
      · rename_i hlt
        refine List.pairwise_cons.2 ⟨fun a ha => ?_, h⟩
        rcases List.mem_cons.1 ha with rfl | ha
        · exact hlt
        · exact String.lt_trans hlt (hb a ha)
      · rename_i hne hnlt
        refine List.pairwise_cons.2 ⟨fun a ha => ?_, ih hrest⟩
        rcases mem_putInto ha with rfl | ha
        · exact Std.lt_of_le_of_ne (Std.not_lt.1 hnlt) (Ne.symm hne)
        · exact hb a ha

def put (path : String) (value : Bytes) (l : Leaves) : Leaves :=
  ⟨putInto path value l.list, pairwise_putInto path value l.increasing⟩

def erase (path : String) (l : Leaves) : Leaves :=
  ⟨l.list.filter (fun leaf => leaf.1 != path), l.increasing.filter _⟩

def ofList (leaves : List (String × Bytes)) : Leaves :=
  leaves.foldl (fun l leaf => l.put leaf.1 leaf.2) empty

end Leaves
end TelemetryAgent
