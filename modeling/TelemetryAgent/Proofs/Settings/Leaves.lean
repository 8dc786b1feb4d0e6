import TelemetryAgent.Settings.Shelf

/-!
# What a save changes

A leaf that has been put is there and is the only one under its path; the other leaves are as they
were. The leaves below a subtree come in the order of their keys.
-/
namespace TelemetryAgent

namespace Leaves

variable {path : String} {value : Bytes}

theorem mem_putInto_self (path : String) (value : Bytes) (list : List (String × Bytes)) :
    (path, value) ∈ putInto path value list := by
  induction list with
  | nil => exact List.mem_singleton.mpr rfl
  | cons leaf rest ih =>
      unfold putInto
      split
      · exact List.mem_cons_self
      · split
        · exact List.mem_cons_self
        · exact List.mem_cons_of_mem _ ih

theorem mem_putInto_of_ne {list : List (String × Bytes)} {leaf : String × Bytes} (hmem : leaf ∈ list)
    (hne : leaf.1 ≠ path) : leaf ∈ putInto path value list := by
  induction list with
  | nil => cases hmem
  | cons other rest ih =>
      unfold putInto
      split
      · rename_i heq
        rcases List.mem_cons.mp hmem with rfl | hrest
        · exact (hne heq.symm).elim
        · exact List.mem_cons_of_mem _ hrest
      · split
        · exact List.mem_cons_of_mem _ hmem
        · rcases List.mem_cons.mp hmem with rfl | hrest
          · exact List.mem_cons_self
          · exact List.mem_cons_of_mem _ (ih hrest)

/-- A look at the leaves that does not see a path does not see that a leaf is put there. -/
theorem filterMap_putInto {α : Type} {f : String × Bytes → Option α}
    (hf : ∀ held, f (path, held) = none) (value : Bytes) (list : List (String × Bytes)) :
    (putInto path value list).filterMap f = list.filterMap f := by
  induction list with
  | nil => simp [putInto, hf]
  | cons leaf rest ih =>
      obtain ⟨other, held⟩ := leaf
      unfold putInto
      split
      · rename_i heq
        subst heq
        simp [hf]
      · split
        · simp [List.filterMap_cons, hf]
        · simp [List.filterMap_cons, ih]

/-- Among leaves of increasing paths the one under a path is found. -/
theorem lookup_eq_some_iff {list : List (String × Bytes)}
    (hincreasing : list.Pairwise fun a b => a.1 < b.1) :
    list.lookup path = some value ↔ (path, value) ∈ list := by
  induction list with
  | nil => simp
  | cons leaf rest ih =>
      obtain ⟨other, held⟩ := leaf
      obtain ⟨hfirst, hrest⟩ := List.pairwise_cons.mp hincreasing
      rw [List.lookup_cons, List.mem_cons, Prod.mk.injEq]
      by_cases hsame : path = other
      · subst hsame
        have hnone : (path, value) ∉ rest := fun hmem => by
          have hlt : path < path := hfirst _ hmem
          exact String.lt_irrefl _ hlt
        simp [hnone, eq_comm]
      · rw [beq_eq_false_iff_ne.mpr hsame]
        simp [hsame, ih hrest]

theorem get?_eq_some_iff {l : Leaves} : l.get? path = some value ↔ (path, value) ∈ l.list :=
  lookup_eq_some_iff l.increasing

theorem get?_put (path p : String) (value : Bytes) (l : Leaves) :
    (l.put path value).get? p = if p = path then some value else l.get? p := by
  split
  · rename_i heq
    subst heq
    exact get?_eq_some_iff.mpr (mem_putInto_self p value l.list)
  · rename_i hne
    refine Option.ext fun held => ?_
    rw [get?_eq_some_iff, get?_eq_some_iff]
    refine ⟨fun hmem => ?_, fun hmem => mem_putInto_of_ne hmem hne⟩
    exact (mem_putInto hmem).resolve_left fun heq => hne (congrArg Prod.fst heq)

theorem get?_erase (path p : String) (l : Leaves) :
    (l.erase path).get? p = if p = path then none else l.get? p := by
  have hmem : ∀ held, (p, held) ∈ (l.erase path).list ↔ (p, held) ∈ l.list ∧ p ≠ path := fun held => by
    unfold erase
    rw [List.mem_filter, bne_iff_ne]
  refine Option.ext fun held => ?_
  rw [get?_eq_some_iff, hmem]
  split
  · rename_i heq
    exact ⟨fun h => (h.2 heq).elim, fun h => nomatch h⟩
  · rename_i hne
    rw [get?_eq_some_iff]
    exact and_iff_left hne

end Leaves

namespace Medium

variable {subtree key : String} {value : Bytes} {leaves : Leaves}

theorem path_toList (subtree key : String) :
    (path subtree key).toList = (folder subtree).toList ++ key.toList := String.toList_append

theorem path_injective {key' : String} (h : path subtree key = path subtree key') : key = key' := by
  have hlists := congrArg String.toList h
  rw [path_toList, path_toList] at hlists
  exact String.toList_inj.mp (List.append_cancel_left hlists)

/-- What a load makes of one leaf. -/
def under? (subtree : String) (leaf : String × Bytes) : Option (String × Bytes) :=
  (Text.after? (folder subtree).toList leaf.1.toList).map fun key => (String.ofList key, leaf.2)

theorem under?_path (subtree key : String) (value : Bytes) :
    under? subtree (path subtree key, value) = some (key, value) := by
  have hafter : Text.after? (folder subtree).toList (path subtree key).toList = some key.toList :=
    Text.after?_eq_some_iff.mpr (path_toList subtree key)
  simp only [under?, hafter, Option.map_some, String.ofList_toList]

theorem eq_path_of_under? {leaf found : String × Bytes} (h : under? subtree leaf = some found) :
    leaf.1 = path subtree found.1 := by
  obtain ⟨chars, hafter, rfl⟩ := Option.map_eq_some_iff.mp h
  have htext := Text.after?_eq_some_iff.mp hafter
  rw [← String.toList_inj, htext, path_toList, String.toList_ofList]

theorem lt_of_path_lt {key' : String} (h : path subtree key < path subtree key') : key < key' := by
  rw [String.lt_iff, path_toList, path_toList] at h
  rw [String.lt_iff]
  generalize (folder subtree).toList = shared at h
  induction shared with
  | nil => exact h
  | cons c rest ih =>
      rcases List.cons_lt_cons_iff.mp h with hlt | ⟨-, hrest⟩
      · exact (Char.lt_irrefl c hlt).elim
      · exact ih hrest

/-- What does not come before some characters, but before others that begin with them, begins with
them. -/
theorem begins_of_between {lead rest text : List Char} (hlead : ¬ text < lead)
    (htext : text < lead ++ rest) : ∃ more, text = lead ++ more := by
  induction lead generalizing text with
  | nil => exact ⟨text, rfl⟩
  | cons c lead ih =>
      cases text with
      | nil => exact (hlead (List.nil_lt_cons c lead)).elim
      | cons d text =>
          rw [List.cons_append] at htext
          rw [List.cons_lt_cons_iff, not_or, not_and] at hlead
          rcases List.cons_lt_cons_iff.mp htext with hlt | ⟨rfl, hshorter⟩
          · exact (hlead.1 hlt).elim
          · obtain ⟨more, rfl⟩ := ih (hlead.2 rfl) hshorter
            exact ⟨more, rfl⟩

theorem append_not_lt (lead rest : List Char) : ¬ lead ++ rest < lead := by
  induction lead with
  | nil => exact List.not_lt_nil rest
  | cons c lead ih =>
      intro hlt
      rcases List.cons_lt_cons_iff.mp hlt with hlt | ⟨-, hlt⟩
      · exact Char.lt_irrefl c hlt
      · exact ih hlt

/-- What comes before a folder is not in it. -/
theorem under?_of_lt {leaf : String × Bytes} (hlt : leaf.1 < folder subtree) :
    under? subtree leaf = none := by
  cases hunder : under? subtree leaf with
  | none => rfl
  | some found =>
      rw [eq_path_of_under? hunder, String.lt_iff, path_toList] at hlt
      exact (append_not_lt _ _ hlt).elim

/-- A leaf that neither comes before a folder nor is in it has no leaf of the folder after it. -/
theorem under?_of_after {leaf later : String × Bytes} (hleaf : ¬ leaf.1 < folder subtree)
    (hnone : under? subtree leaf = none) (hlater : leaf.1 < later.1) :
    under? subtree later = none := by
  cases hunder : under? subtree later with
  | none => rfl
  | some found =>
      rw [eq_path_of_under? hunder, String.lt_iff, path_toList] at hlater
      rw [String.lt_iff] at hleaf
      obtain ⟨key, hkey⟩ := begins_of_between hleaf hlater
      have hafter := Text.after?_eq_some_iff.mpr hkey
      rw [under?, hafter] at hnone
      cases hnone

theorem scan_eq {list : List (String × Bytes)} (hincreasing : list.Pairwise fun a b => a.1 < b.1)
    (hlist : ∀ leaf ∈ list, ¬ leaf.1 < folder subtree) :
    scan (folder subtree).toList list = list.filterMap (under? subtree) := by
  induction list with
  | nil => rfl
  | cons leaf rest ih =>
      obtain ⟨hfirst, hrest⟩ := List.pairwise_cons.mp hincreasing
      have hscan := ih hrest fun later hlater => hlist later (List.mem_cons_of_mem leaf hlater)
      unfold scan
      rw [List.filterMap_cons]
      cases hafter : Text.after? (folder subtree).toList leaf.1.toList with
      | some key =>
          have hunder : under? subtree leaf = some (String.ofList key, leaf.2) := by
            rw [under?, hafter]
            rfl
          rw [hunder]
          exact congrArg (List.cons _) hscan
      | none =>
          have hunder : under? subtree leaf = none := by
            rw [under?, hafter]
            rfl
          have hnone : rest.filterMap (under? subtree) = [] :=
            List.filterMap_eq_nil_iff.mpr fun later hlater =>
              under?_of_after (hlist leaf List.mem_cons_self) hunder (hfirst later hlater)
          rw [hunder, hnone]

/-- A load misses no leaf of its folder, though it stops at the first one that is not in it. -/
theorem below_eq (subtree : String) (leaves : Leaves) :
    below subtree leaves = leaves.list.filterMap (under? subtree) := by
  obtain ⟨list, hincreasing⟩ := leaves
  unfold below
  dsimp only
  induction list with
  | nil => rfl
  | cons leaf rest ih =>
      obtain ⟨hfirst, hrest⟩ := List.pairwise_cons.mp hincreasing
      rw [List.dropWhile_cons]
      split
      · rename_i hlt
        rw [List.filterMap_cons, under?_of_lt (of_decide_eq_true hlt)]
        exact ih hrest
      · rename_i hlt
        have hleaf : ¬ leaf.1 < folder subtree := fun hlt' => hlt (decide_eq_true hlt')
        refine scan_eq hincreasing fun later hlater hlt' => ?_
        rcases List.mem_cons.mp hlater with rfl | hlater
        · exact hleaf hlt'
        · exact hleaf (String.lt_trans (hfirst later hlater) hlt')

theorem below_increasing (subtree : String) (leaves : Leaves) :
    (below subtree leaves).Pairwise fun a b => a.1 < b.1 := by
  rw [below_eq]
  refine List.Pairwise.filterMap (under? subtree) (fun a b hlt c hc d hd => ?_) leaves.increasing
  rw [eq_path_of_under? hc, eq_path_of_under? hd] at hlt
  exact lt_of_path_lt hlt

theorem mem_below (hmem : (path subtree key, value) ∈ leaves.list) :
    (key, value) ∈ below subtree leaves := by
  rw [below_eq]
  exact List.mem_filterMap.mpr ⟨_, hmem, under?_path subtree key value⟩

/-- A reading of the leaves below a subtree that does not see a key does not see that it is saved. -/
theorem filterMap_below_put {α : Type} {f : String × Bytes → Option α}
    (hf : ∀ held, f (key, held) = none) (value : Bytes) (leaves : Leaves) :
    (below subtree (leaves.put (path subtree key) value)).filterMap f =
      (below subtree leaves).filterMap f := by
  have hunseen : ∀ held, (under? subtree (path subtree key, held)).bind f = none := fun held => by
    rw [under?_path]
    exact hf held
  have hput := Leaves.filterMap_putInto (f := fun leaf => (under? subtree leaf).bind f) hunseen value
    leaves.list
  rw [below_eq, below_eq]
  calc ((leaves.put (path subtree key) value).list.filterMap (under? subtree)).filterMap f
      = (Leaves.putInto (path subtree key) value leaves.list).filterMap
          (fun leaf => (under? subtree leaf).bind f) := List.filterMap_filterMap
    _ = leaves.list.filterMap (fun leaf => (under? subtree leaf).bind f) := hput
    _ = (leaves.list.filterMap (under? subtree)).filterMap f := List.filterMap_filterMap.symm

end Medium
end TelemetryAgent
