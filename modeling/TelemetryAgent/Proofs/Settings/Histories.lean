import Mathlib.Data.Finset.Card
import Mathlib.Data.List.Induction
import TelemetryAgent.Proofs.Settings.ByteOrder
import TelemetryAgent.Proofs.Settings.Leaves

/-!
# Histories of stores

A store and its clones are a family, and every family is a plain map from paths to values: what is
under a path is what the last save to it has put there, unless it has been deleted since. A visitor
that fails during a load breaks the family of its store for good, and no other one.
-/
namespace TelemetryAgent

inductive ShelfAction
  | add
  | clone (store : Nat)
  | save (store : Nat) (subtree key : String) (value : Bytes)
  | delete (store : Nat) (subtree key : String)
  /-- A load with a visitor that fails after so many leaves. -/
  | interrupt (store count : Nat) (subtree : String)

namespace ShelfAction

def store? : ShelfAction → Option Nat
  | add => none
  | clone _ => none
  | save store _ _ _ => some store
  | delete store _ _ => some store
  | interrupt store _ _ => some store

/-- The families by their stores, each of them by the number of its first store. -/
def enroll (families : List Nat) : ShelfAction → List Nat
  | add => families ++ [families.length]
  | clone store => families ++ families[store]?.toList
  | _ => families

end ShelfAction

/-- A save to a path, or a deletion. -/
structure LeafChange where
  family : Nat
  path : String
  value : Option Bytes

def ShelfAction.change? (families : List Nat) : ShelfAction → Option LeafChange
  | save store subtree key value =>
    families[store]?.map fun f => ⟨f, Medium.path subtree key, some value⟩
  | delete store subtree key => families[store]?.map fun f => ⟨f, Medium.path subtree key, none⟩
  | _ => none

namespace Shelf

def act (s : Shelf) : ShelfAction → Shelf
  | .add => s.add
  | .clone store => s.clone store
  | .save store subtree key value => (s.save store subtree key value).2
  | .delete store subtree key => (s.delete store subtree key).2
  | .interrupt store count subtree => (s.interrupt store count subtree).2

/-- The stores after a history, which begins with one empty store. -/
def after (history : List ShelfAction) : Shelf := history.foldl act initial

/-! ## What a history says -/

def families (history : List ShelfAction) : List Nat := history.foldl ShelfAction.enroll [0]

/-- The changes that are asked for, in order, given the families of the stores before. -/
def changesFrom : List Nat → List ShelfAction → List LeafChange
  | _, [] => []
  | families, a :: rest => (a.change? families).toList ++ changesFrom (a.enroll families) rest

def changes (history : List ShelfAction) : List LeafChange := changesFrom [0] history

/-- What a family has under a path: what was put there by the last change. -/
def held (history : List ShelfAction) (family : Nat) (path : String) : Option Bytes :=
  ((changes history).filter fun c => c.family = family ∧ c.path = path).getLast?.bind (·.value)

/-- The paths under which a family has something. -/
def live (history : List ShelfAction) (family : Nat) : Finset String :=
  ((changes history).map (·.path)).toFinset.filter fun path => (held history family path).isSome

/-- Those of them that begin with the folder of a subtree. -/
def liveBelow (history : List ShelfAction) (family : Nat) (subtree : String) : Finset String :=
  (live history family).filter fun path => (Medium.folder subtree).toList <+: path.toList

/-- A visitor has failed during a load on a store of the family, at a leaf that there was to visit. -/
def Interrupted (history : List ShelfAction) (family : Nat) : Prop :=
  ∃ before later store count subtree, history = before ++ .interrupt store count subtree :: later ∧
    (families before)[store]? = some family ∧ count < (liveBelow before family subtree).card

variable {history : List ShelfAction} {a : ShelfAction} {f : Nat}

theorem after_concat (history : List ShelfAction) (a : ShelfAction) :
    after (history ++ [a]) = (after history).act a := by
  unfold after
  rw [List.foldl_concat]

theorem families_concat (history : List ShelfAction) (a : ShelfAction) :
    families (history ++ [a]) = a.enroll (families history) := by
  unfold families
  rw [List.foldl_concat]

theorem changes_concat (history : List ShelfAction) (a : ShelfAction) :
    changes (history ++ [a]) = changes history ++ (a.change? (families history)).toList := by
  have hfrom : ∀ before, changesFrom before (history ++ [a]) = changesFrom before history ++
      (a.change? (history.foldl ShelfAction.enroll before)).toList := by
    induction history with
    | nil => exact fun before => List.append_nil _
    | cons b rest ih =>
        intro before
        rw [List.cons_append, changesFrom, ih, ← List.append_assoc]
        rfl
  exact hfrom [0]

theorem interrupted_concat : Interrupted (history ++ [a]) f ↔
    Interrupted history f ∨ ∃ store count subtree, a = .interrupt store count subtree ∧
      (families history)[store]? = some f ∧ count < (liveBelow history f subtree).card := by
  constructor
  · rintro ⟨before, later, store, count, subtree, heq, hstore, hcount⟩
    rcases List.eq_nil_or_concat later with rfl | ⟨later, b, rfl⟩
    · obtain ⟨rfl, hlast⟩ := List.append_inj' heq rfl
      exact .inr ⟨store, count, subtree, (List.cons.inj hlast).1, hstore, hcount⟩
    · have hsplit : history ++ [a] =
          (before ++ .interrupt store count subtree :: later) ++ [b] := by simpa using heq
      obtain ⟨rfl, -⟩ := List.append_inj' hsplit rfl
      exact .inl ⟨before, later, store, count, subtree, rfl, hstore, hcount⟩
  · rintro (⟨before, later, store, count, subtree, rfl, hstore, hcount⟩ |
      ⟨store, count, subtree, rfl, hstore, hcount⟩)
    · exact ⟨before, later ++ [a], store, count, subtree, by simp, hstore, hcount⟩
    · exact ⟨history, [], store, count, subtree, rfl, hstore, hcount⟩

theorem held_concat_of_none {path : String}
    (hnone : ∀ c ∈ a.change? (families history), ¬ (c.family = f ∧ c.path = path)) :
    held (history ++ [a]) f path = held history f path := by
  unfold held
  rw [changes_concat, List.filter_append]
  have hempty : (a.change? (families history)).toList.filter
      (fun c => c.family = f ∧ c.path = path) = [] :=
    List.filter_eq_nil_iff.mpr fun c hc => by
      simpa using hnone c (Option.mem_toList.mp hc)
  rw [hempty, List.append_nil]

theorem held_concat_of_some {c : LeafChange} (hc : a.change? (families history) = some c) :
    held (history ++ [a]) c.family c.path = c.value := by
  unfold held
  rw [changes_concat, hc, List.filter_append]
  simp

/-- A path under which there is something has been changed. -/
theorem mem_live {path : String} : path ∈ live history f ↔ (held history f path).isSome = true := by
  unfold live
  rw [Finset.mem_filter, List.mem_toFinset, List.mem_map]
  refine and_iff_right_of_imp fun hsome => ?_
  obtain ⟨value, hvalue⟩ := Option.isSome_iff_exists.mp hsome
  obtain ⟨c, hlast, -⟩ := Option.bind_eq_some_iff.mp hvalue
  obtain ⟨hmem, hc⟩ := List.mem_filter.mp (List.mem_of_getLast? hlast)
  exact ⟨c, hmem, (of_decide_eq_true hc).2⟩

/-! ## Families and media -/

/-- A medium has what a family has, or it is broken as the family is. -/
def Keeps (history : List ShelfAction) (family : Nat) : Medium → Prop
  | .sound leaves => ¬ Interrupted history family ∧
      ∀ path, leaves.get? path = held history family path
  | .poisoned => Interrupted history family

variable {m : Medium} {s : Shelf} {store : Nat}

theorem family_of_change? {families : List Nat} {c : LeafChange}
    (hc : a.change? families = some c) :
    ∃ store, a.store? = some store ∧ families[store]? = some c.family := by
  cases a with
  | save store subtree key value =>
      obtain ⟨g, hg, rfl⟩ := Option.map_eq_some_iff.mp hc
      exact ⟨store, rfl, hg⟩
  | delete store subtree key =>
      obtain ⟨g, hg, rfl⟩ := Option.map_eq_some_iff.mp hc
      exact ⟨store, rfl, hg⟩
  | add | clone | interrupt => cases hc

/-- What is done with stores of other families means nothing to a family. -/
theorem Keeps.frame (hm : Keeps history f m)
    (hother : ∀ store, a.store? = some store → (families history)[store]? ≠ some f) :
    Keeps (history ++ [a]) f m := by
  have hinterrupted : Interrupted (history ++ [a]) f ↔ Interrupted history f := by
    rw [interrupted_concat]
    refine or_iff_left ?_
    rintro ⟨store, count, subtree, rfl, hstore, -⟩
    exact hother store rfl hstore
  have hheld : ∀ path, held (history ++ [a]) f path = held history f path := fun path =>
    held_concat_of_none fun c hc ⟨hfamily, _⟩ => by
      obtain ⟨store, hstore, hg⟩ := family_of_change? hc
      exact hother store hstore (hfamily ▸ hg)
  cases m with
  | sound leaves =>
      refine ⟨fun h => hm.1 (hinterrupted.mp h), fun path => ?_⟩
      rw [hheld]
      exact hm.2 path
  | poisoned => exact hinterrupted.mpr hm

/-- A change that succeeds is seen under its path and nowhere else. -/
theorem Keeps.change {leaves changed : Leaves} {c : LeafChange}
    (hm : Keeps history c.family (.sound leaves)) (hc : a.change? (families history) = some c)
    (hchanged : ∀ path, changed.get? path = if path = c.path then c.value else leaves.get? path) :
    Keeps (history ++ [a]) c.family (.sound changed) := by
  have hinterrupt : ∀ store count subtree, a ≠ .interrupt store count subtree := by
    rintro store count subtree rfl
    cases hc
  refine ⟨fun h => ?_, fun path => ?_⟩
  · rcases interrupted_concat.mp h with hbefore | ⟨store, count, subtree, heq, -⟩
    · exact hm.1 hbefore
    · exact hinterrupt store count subtree heq
  · rw [hchanged]
    split
    · rename_i hpath
      rw [hpath]
      exact (held_concat_of_some hc).symm
    · rename_i hpath
      rw [hm.2, held_concat_of_none]
      intro d hd ⟨_, hsame⟩
      rw [hc] at hd
      cases hd
      exact hpath hsame.symm

/-- What is below a subtree is what there is to visit. -/
theorem mem_below_iff {leaves : Leaves} {subtree key : String} {value : Bytes} :
    (key, value) ∈ Medium.below subtree leaves ↔
      leaves.get? (Medium.path subtree key) = some value := by
  rw [Leaves.get?_eq_some_iff]
  refine ⟨fun hmem => ?_, Medium.mem_below⟩
  rw [Medium.below_eq] at hmem
  obtain ⟨leaf, hleaf, hunder⟩ := List.mem_filterMap.mp hmem
  have hpath := Medium.eq_path_of_under? hunder
  have hvalue : leaf.2 = value := by
    obtain ⟨chars, -, heq⟩ := Option.map_eq_some_iff.mp hunder
    exact congrArg Prod.snd heq
  rw [← hpath, ← hvalue]
  exact hleaf

theorem card_of_nodup {list : List String} (paths : Finset String) (hnodup : list.Nodup)
    (hmem : ∀ path, path ∈ list ↔ path ∈ paths) : list.length = paths.card := by
  have hpaths : list.toFinset = paths := Finset.ext fun path => by rw [List.mem_toFinset, hmem]
  rw [← hpaths, List.toFinset_card_of_nodup hnodup]

theorem Keeps.size {leaves : Leaves} (hm : Keeps history f (.sound leaves)) :
    leaves.size = (live history f).card := by
  have hnodup : (leaves.list.map Prod.fst).Nodup :=
    List.pairwise_map.mpr (leaves.increasing.imp fun hlt => String.ne_of_lt hlt)
  have hcard := card_of_nodup (live history f) hnodup fun path => by
    rw [mem_live, ← hm.2, Option.isSome_iff_exists, List.mem_map]
    constructor
    · rintro ⟨leaf, hleaf, rfl⟩
      exact ⟨leaf.2, Leaves.get?_eq_some_iff.mpr hleaf⟩
    · rintro ⟨value, hvalue⟩
      exact ⟨(path, value), Leaves.get?_eq_some_iff.mp hvalue, rfl⟩
  rw [List.length_map] at hcard
  exact hcard

theorem Keeps.below {leaves : Leaves} (hm : Keeps history f (.sound leaves)) (subtree : String) :
    (Medium.below subtree leaves).length = (liveBelow history f subtree).card := by
  have hnodup : ((Medium.below subtree leaves).map fun leaf => Medium.path subtree leaf.1).Nodup :=
    List.pairwise_map.mpr ((Medium.below_increasing subtree leaves).imp fun hlt heq =>
      String.ne_of_lt hlt (Medium.path_injective heq))
  have hcard := card_of_nodup (liveBelow history f subtree) hnodup fun path => by
    unfold liveBelow
    rw [Finset.mem_filter, mem_live, ← hm.2, Option.isSome_iff_exists, List.mem_map]
    constructor
    · rintro ⟨leaf, hleaf, rfl⟩
      refine ⟨⟨leaf.2, mem_below_iff.mp hleaf⟩, ?_⟩
      rw [Medium.path_toList]
      exact List.prefix_append _ _
    · rintro ⟨⟨value, hvalue⟩, key, hkey⟩
      have hpath : Medium.path subtree (String.ofList key) = path := by
        rw [← String.toList_inj, Medium.path_toList, String.toList_ofList, hkey]
      refine ⟨(String.ofList key, value), mem_below_iff.mpr ?_, hpath⟩
      rw [hpath]
      exact hvalue
  rw [List.length_map] at hcard
  exact hcard

/-- A visitor that fails leaves a broken family behind, and only if there was a leaf to fail at. -/
theorem Keeps.interrupt {count : Nat} {subtree : String} (hm : Keeps history f m)
    (hstore : (families history)[store]? = some f) :
    Keeps (history ++ [.interrupt store count subtree]) f (m.interrupt count subtree).2 := by
  cases m with
  | sound leaves =>
      unfold Medium.interrupt
      dsimp only
      split
      · rename_i hcount
        rw [hm.below] at hcount
        exact interrupted_concat.mpr (.inr ⟨store, count, subtree, rfl, hstore, hcount⟩)
      · rename_i hcount
        rw [hm.below] at hcount
        refine ⟨fun h => ?_, fun path => ?_⟩
        · rcases interrupted_concat.mp h with hbefore | ⟨store', count', subtree', heq, -, hlt⟩
          · exact hm.1 hbefore
          · cases heq
            exact hcount hlt
        · rw [hm.2, held_concat_of_none]
          intro c hc
          cases hc
  | poisoned => exact interrupted_concat.mpr (.inl hm)

theorem Keeps.save {subtree key : String} {value : Bytes} (hm : Keeps history f m)
    (hstore : (families history)[store]? = some f) :
    Keeps (history ++ [.save store subtree key value]) f (m.save subtree key value).2 := by
  cases m with
  | sound leaves =>
      have hc : (ShelfAction.save store subtree key value).change? (families history) =
          some ⟨f, Medium.path subtree key, some value⟩ := by
        simp only [ShelfAction.change?, hstore, Option.map_some]
      exact hm.change hc fun path => Leaves.get?_put _ path value leaves
  | poisoned => exact interrupted_concat.mpr (.inl hm)

theorem Keeps.delete {subtree key : String} (hm : Keeps history f m)
    (hstore : (families history)[store]? = some f) :
    Keeps (history ++ [.delete store subtree key]) f (m.delete subtree key).2 := by
  cases m with
  | sound leaves =>
      have hc : (ShelfAction.delete store subtree key).change? (families history) =
          some ⟨f, Medium.path subtree key, none⟩ := by
        simp only [ShelfAction.change?, hstore, Option.map_some]
      exact hm.change hc fun path => Leaves.get?_erase _ path leaves
  | poisoned => exact interrupted_concat.mpr (.inl hm)

/-! ## Stores -/

/-- The stores after a history: each family has its place among the media, and no two have the same
one. -/
structure Kept (history : List ShelfAction) (place : Nat → Nat) (s : Shelf) : Prop where
  access : s.access = (families history).map place
  injective : ∀ f ∈ families history, ∀ g ∈ families history, place f = place g → f = g
  numbered : ∀ f ∈ families history, f < (families history).length
  keeps : ∀ f ∈ families history, ∃ m, s.media[place f]? = some m ∧ Keeps history f m
  /-- A family that is yet to come has nothing. -/
  unborn : ∀ f, (families history).length ≤ f → Keeps history f (.sound .empty)

namespace Kept

variable {place : Nat → Nat} {i : Nat}

theorem access_eq (hk : Kept history place s) (i : Nat) :
    s.access[i]? = (families history)[i]?.map place := by
  rw [hk.access, List.getElem?_map]

/-- The stores of a family use its medium. -/
theorem medium_eq (hk : Kept history place s) (hi : (families history)[i]? = some f)
    (hm : s.media[place f]? = some m) : s.medium i = m := by
  unfold medium
  rw [hk.access_eq, hi, Option.map_some, Option.bind_some, hm]
  rfl

theorem keeps_medium (hk : Kept history place s) (hi : (families history)[i]? = some f) :
    Keeps history f (s.medium i) := by
  obtain ⟨m, hm, hkeeps⟩ := hk.keeps f (List.mem_of_getElem? hi)
  rw [hk.medium_eq hi hm]
  exact hkeeps

theorem access_setMedium (store : Nat) (m : Medium) : (s.setMedium store m).access = s.access := by
  unfold Shelf.setMedium
  split <;> rfl

/-- Only the medium of the family of a store is replaced. -/
theorem media_setMedium (hk : Kept history place s) (hf : f ∈ families history) (store : Nat)
    (m : Medium) : (s.setMedium store m).media[place f]? =
      if (families history)[store]? = some f then some m else s.media[place f]? := by
  obtain ⟨m', hm', -⟩ := hk.keeps f hf
  unfold Shelf.setMedium
  rw [hk.access_eq]
  cases hg : (families history)[store]? with
  | none => rfl
  | some g =>
      rw [Option.map_some]
      dsimp only
      rw [List.getElem?_set]
      by_cases hgf : g = f
      · subst hgf
        rw [if_pos rfl, if_pos rfl, if_pos (List.getElem?_eq_some_iff.mp hm').1]
      · have hplace : place g ≠ place f := fun heq =>
          hgf (hk.injective g (List.mem_of_getElem? hg) f hf heq)
        rw [if_neg hplace, if_neg fun heq => hgf (Option.some.inj heq)]

/-- Something is done with the leaves of a store. -/
theorem setMedium (hk : Kept history place s) (hstore : a.store? = some store)
    (hm : ∀ f, (families history)[store]? = some f → Keeps (history ++ [a]) f m) :
    Kept (history ++ [a]) place (s.setMedium store m) := by
  have hfamilies : families (history ++ [a]) = families history := by
    rw [families_concat]
    cases a with
    | add | clone => cases hstore
    | save | delete | interrupt => rfl
  have hother : ∀ f, (families history)[store]? ≠ some f → ∀ {m}, Keeps history f m →
      Keeps (history ++ [a]) f m := fun f hne m hkeeps => hkeeps.frame fun i hi => by
    rw [hstore] at hi
    cases hi
    exact hne
  refine ⟨?_, ?_, ?_, fun f hf => ?_, fun f hf => ?_⟩
  · rw [access_setMedium, hfamilies, hk.access]
  · rw [hfamilies]
    exact hk.injective
  · rw [hfamilies]
    exact hk.numbered
  · rw [hfamilies] at hf
    rw [hk.media_setMedium hf]
    split
    · rename_i heq
      exact ⟨m, rfl, hm f heq⟩
    · rename_i hne
      obtain ⟨m', hm', hkeeps⟩ := hk.keeps f hf
      exact ⟨m', hm', hother f hne hkeeps⟩
  · rw [hfamilies] at hf
    refine hother f (fun heq => ?_) (hk.unborn f hf)
    exact Nat.not_lt.mpr hf (hk.numbered f (List.mem_of_getElem? heq))

/-- A new store is a family of its own. -/
theorem add (hk : Kept history place s) : Kept (history ++ [.add])
    (fun f => if f = (families history).length then s.media.length else place f) s.add := by
  have hfamilies : families (history ++ [.add]) = families history ++ [(families history).length] :=
    families_concat history .add
  have hframe : ∀ {f m}, Keeps history f m → Keeps (history ++ [.add]) f m := fun hkeeps =>
    hkeeps.frame fun i hi => nomatch hi
  have hold : ∀ f ∈ families history,
      (if f = (families history).length then s.media.length else place f) = place f :=
    fun f hf => if_neg (Nat.ne_of_lt (hk.numbered f hf))
  have hplace : ∀ f ∈ families history, place f < s.media.length := fun f hf => by
    obtain ⟨m, hm, -⟩ := hk.keeps f hf
    exact (List.getElem?_eq_some_iff.mp hm).1
  refine ⟨?_, fun f hf g hg heq => ?_, fun f hf => ?_, fun f hf => ?_, fun f hf => ?_⟩
  · unfold Shelf.add
    dsimp only
    rw [hfamilies, List.map_append, List.map_congr_left hold, hk.access, List.map_singleton,
      if_pos rfl]
  · rw [hfamilies] at hf hg
    rcases List.mem_append.mp hf with hf | hf <;> rcases List.mem_append.mp hg with hg | hg
    · rw [hold f hf, hold g hg] at heq
      exact hk.injective f hf g hg heq
    · rw [List.mem_singleton.mp hg, if_pos rfl, hold f hf] at heq
      exact absurd heq (Nat.ne_of_lt (hplace f hf))
    · rw [List.mem_singleton.mp hf, if_pos rfl, hold g hg] at heq
      exact absurd heq.symm (Nat.ne_of_lt (hplace g hg))
    · rw [List.mem_singleton.mp hf, List.mem_singleton.mp hg]
  · rw [hfamilies] at hf ⊢
    rw [List.length_append, List.length_singleton]
    rcases List.mem_append.mp hf with hf | hf
    · exact Nat.lt_succ_of_lt (hk.numbered f hf)
    · rw [List.mem_singleton.mp hf]
      exact Nat.lt_succ_self _
  · rw [hfamilies] at hf
    unfold Shelf.add
    dsimp only
    rcases List.mem_append.mp hf with hf | hf
    · obtain ⟨m, hm, hkeeps⟩ := hk.keeps f hf
      rw [hold f hf, List.getElem?_append_left (hplace f hf)]
      exact ⟨m, hm, hframe hkeeps⟩
    · rw [List.mem_singleton.mp hf, if_pos rfl, List.getElem?_concat_length]
      exact ⟨_, rfl, hframe (hk.unborn _ (Nat.le_refl _))⟩
  · rw [hfamilies, List.length_append] at hf
    exact hframe (hk.unborn f (Nat.le_of_succ_le hf))

/-- A clone joins the family of its store. -/
theorem clone (hk : Kept history place s) (store : Nat) :
    Kept (history ++ [.clone store]) place (s.clone store) := by
  have hfamilies : families (history ++ [.clone store]) =
      families history ++ (families history)[store]?.toList := families_concat history (.clone store)
  have hframe : ∀ {f m}, Keeps history f m → Keeps (history ++ [.clone store]) f m := fun hkeeps =>
    hkeeps.frame fun i hi => nomatch hi
  have hmem : ∀ f, f ∈ families (history ++ [.clone store]) ↔ f ∈ families history := fun f => by
    rw [hfamilies, List.mem_append, Option.mem_toList]
    exact or_iff_left_of_imp fun hf => List.mem_of_getElem? hf
  have hlength : (families history).length ≤ (families (history ++ [.clone store])).length := by
    rw [hfamilies, List.length_append]
    exact Nat.le_add_right _ _
  have hmedia : (s.clone store).media = s.media := by
    unfold Shelf.clone
    split <;> rfl
  refine ⟨?_, fun f hf g hg => ?_, fun f hf => ?_, fun f hf => ?_, fun f hf => ?_⟩
  · unfold Shelf.clone
    rw [hk.access_eq, hfamilies, List.map_append, ← hk.access]
    cases (families history)[store]? with
    | none => exact (List.append_nil _).symm
    | some f => rfl
  · exact hk.injective f ((hmem f).mp hf) g ((hmem g).mp hg)
  · exact Nat.lt_of_lt_of_le (hk.numbered f ((hmem f).mp hf)) hlength
  · obtain ⟨m, hm, hkeeps⟩ := hk.keeps f ((hmem f).mp hf)
    rw [hmedia]
    exact ⟨m, hm, hframe hkeeps⟩
  · exact hframe (hk.unborn f (Nat.le_trans hlength hf))

theorem act (hk : Kept history place s) (a : ShelfAction) :
    ∃ place', Kept (history ++ [a]) place' (s.act a) := by
  cases a with
  | add => exact ⟨_, hk.add⟩
  | clone store => exact ⟨place, hk.clone store⟩
  | save store subtree key value =>
      exact ⟨place, hk.setMedium rfl fun f hf => (hk.keeps_medium hf).save hf⟩
  | delete store subtree key =>
      exact ⟨place, hk.setMedium rfl fun f hf => (hk.keeps_medium hf).delete hf⟩
  | interrupt store count subtree =>
      exact ⟨place, hk.setMedium rfl fun f hf => (hk.keeps_medium hf).interrupt hf⟩

/-- What is done with a store of another family does not reach a medium. -/
theorem medium_act (hk : Kept history place s) (hi : (families history)[i]? = some f)
    (hother : ∀ j, a.store? = some j → (families history)[j]? ≠ some f) :
    (s.act a).medium i = s.medium i := by
  obtain ⟨m, hm, -⟩ := hk.keeps f (List.mem_of_getElem? hi)
  have hplace : s.access[i]? = some (place f) := by rw [hk.access_eq, hi, Option.map_some]
  have hset : ∀ store m', a.store? = some store →
      (s.setMedium store m').medium i = s.medium i := by
    intro store m' hstore
    have hmedia := hk.media_setMedium (List.mem_of_getElem? hi) store m'
    rw [if_neg (hother store hstore)] at hmedia
    unfold medium
    rw [access_setMedium, hplace, Option.bind_some, Option.bind_some, hmedia]
  have hmore : ∀ (media : List Medium) (access : List Nat),
      (Shelf.mk (s.media ++ media) (s.access ++ access)).medium i = s.medium i := by
    intro media access
    unfold medium
    rw [List.getElem?_append_left (List.getElem?_eq_some_iff.mp hplace).1, hplace,
      Option.bind_some, Option.bind_some,
      List.getElem?_append_left (List.getElem?_eq_some_iff.mp hm).1]
  cases a with
  | add => exact hmore _ _
  | clone store =>
      change (s.clone store).medium i = s.medium i
      unfold Shelf.clone
      split
      · rename_i n _
        have hclone := hmore [] [n]
        rw [List.append_nil] at hclone
        exact hclone
      · rfl
  | save store | delete store | interrupt store => exact hset store _ rfl

end Kept

theorem kept_initial : Kept [] id initial where
  access := rfl
  injective _ _ _ _ heq := heq
  numbered f hf := by
    rw [List.mem_singleton.mp hf]
    exact Nat.zero_lt_one
  keeps f hf := by
    rw [List.mem_singleton.mp hf]
    exact ⟨_, rfl, fun ⟨_, _, _, _, _, heq, _⟩ => by simp at heq, fun _ => rfl⟩
  unborn f hf := ⟨fun ⟨_, _, _, _, _, heq, _⟩ => by simp at heq, fun _ => rfl⟩

theorem kept_after (history : List ShelfAction) : ∃ place, Kept history place (after history) := by
  induction history using List.reverseRecOn with
  | nil => exact ⟨id, kept_initial⟩
  | append_singleton history a ih =>
      obtain ⟨place, hk⟩ := ih
      rw [after_concat]
      exact hk.act a

/-- A medium that is not broken is read as the map that its family is. -/
theorem Keeps.reads {leaves : Leaves} (hm : Keeps history f (.sound leaves)) (subtree : String) :
    (Medium.below subtree leaves).Pairwise (fun a b => Utf8.bytes a.1 < Utf8.bytes b.1) ∧
      ∀ key value, (key, value) ∈ Medium.below subtree leaves ↔
        held history f (Medium.path subtree key) = some value := by
  refine ⟨(Medium.below_increasing subtree leaves).imp fun hlt => (Utf8.lt_iff _ _).mp hlt,
    fun key value => ?_⟩
  rw [mem_below_iff, hm.2]

/-- Every family of stores is a plain map. All of its stores show the same, and nothing that is done
with a store of another family changes what they show. Until a visitor fails in a load that has a
leaf for it, a path has what the last save has put there, unless it has been deleted since; a load
visits what begins with the folder of its subtree, once each, in the order of the bytes; and the size
is the number of paths that have something. From then on whatever is done with the family fails, and
it shows nothing. -/
theorem maps_of_history (history : List ShelfAction) {i f : Nat}
    (hi : (families history)[i]? = some f) :
    let s := after history
    (∀ j, (families history)[j]? = some f → s.medium j = s.medium i) ∧
      (∀ a : ShelfAction, (∀ j, a.store? = some j → (families history)[j]? ≠ some f) →
        (s.act a).medium i = s.medium i) ∧
      (∀ count subtree, (s.interrupt i count subtree).1 = true ↔
        ¬ Interrupted history f ∧ count < (liveBelow history f subtree).card) ∧
      (¬ Interrupted history f →
        (∀ subtree key, s.get? i subtree key = held history f (Medium.path subtree key)) ∧
        (∀ subtree, ∃ visited, s.load i subtree = .ok visited ∧
          visited.Pairwise (fun a b => Utf8.bytes a.1 < Utf8.bytes b.1) ∧
          ∀ key value, (key, value) ∈ visited ↔
            held history f (Medium.path subtree key) = some value) ∧
        s.sizes[i]? = some (live history f).card ∧
        (∀ subtree key value, (s.save i subtree key value).1 = .ok ()) ∧
        ∀ subtree key, (s.delete i subtree key).1 = .ok ()) ∧
      (Interrupted history f →
        (∀ subtree key, s.get? i subtree key = none) ∧
        (∀ subtree, s.load i subtree = .error .io) ∧
        s.sizes[i]? = some 0 ∧
        (∀ subtree key value, (s.save i subtree key value).1 = .error .io) ∧
        ∀ subtree key, (s.delete i subtree key).1 = .error .io) := by
  intro s
  obtain ⟨place, hk⟩ := kept_after history
  have hkeeps : Keeps history f (s.medium i) := hk.keeps_medium hi
  obtain ⟨m, hm, -⟩ := hk.keeps f (List.mem_of_getElem? hi)
  have hsize : s.sizes[i]? = some (s.medium i).size := by
    have hlt : i < s.access.length := by
      rw [hk.access, List.length_map]
      exact (List.getElem?_eq_some_iff.mp hi).1
    unfold sizes
    rw [List.getElem?_map, List.getElem?_range hlt]
    rfl
  refine ⟨fun j hj => ?_, fun a hother => ?_, fun count subtree => ?_, fun hsound => ?_,
    fun hbroken => ?_⟩
  · rw [hk.medium_eq hi hm, hk.medium_eq hj hm]
  · exact hk.medium_act hi hother
  · change ((s.medium i).interrupt count subtree).1 = true ↔ _
    generalize s.medium i = m at hkeeps
    cases m with
    | sound leaves =>
        rw [← hkeeps.below]
        unfold Medium.interrupt
        dsimp only
        split
        · rename_i hcount
          exact ⟨fun _ => ⟨hkeeps.1, hcount⟩, fun _ => rfl⟩
        · rename_i hcount
          exact iff_of_false Bool.false_ne_true fun h => hcount h.2
    | poisoned => exact iff_of_false Bool.false_ne_true fun h => h.1 hkeeps
  · unfold get? load save delete
    rw [hsize]
    generalize s.medium i = m at hkeeps
    cases m with
    | sound leaves =>
        exact ⟨fun subtree key => hkeeps.2 _, fun subtree => ⟨_, rfl, hkeeps.reads subtree⟩,
          congrArg some hkeeps.size, fun _ _ _ => rfl, fun _ _ => rfl⟩
    | poisoned => exact (hsound hkeeps).elim
  · unfold get? load save delete
    rw [hsize]
    generalize s.medium i = m at hkeeps
    cases m with
    | sound leaves => exact (hkeeps.1 hbroken).elim
    | poisoned => exact ⟨fun _ _ => rfl, fun _ => rfl, rfl, fun _ _ _ => rfl, fun _ _ => rfl⟩

/-- Two clones save to one full path, which they spell in two ways; a third store is broken. -/
theorem shared_path_of_clones :
    let before := [ShelfAction.clone 0, .add, .save 0 "a" "b/c" [1], .save 1 "a/b" "c" [2],
      .save 2 "a" "x" [3]]
    let history := before ++ [.interrupt 2 0 "a"]
    (families history)[0]? = some 0 ∧ (families history)[1]? = some 0 ∧
      (families history)[2]? = some 2 ∧ ¬ Interrupted history 0 ∧ Interrupted history 2 ∧
      (after history).get? 0 "a" "b/c" = some [2] ∧ (after history).sizes[1]? = some 1 ∧
      (after history).load 2 "a" = .error .io := by
  intro before history
  have hunbroken : ¬ Interrupted history 0 := by
    rw [interrupted_concat]
    rintro (⟨earlier, later, store, count, subtree, heq, -⟩ | ⟨store, count, subtree, heq, hstore, -⟩)
    · have hmem : ShelfAction.interrupt store count subtree ∈ before := by
        rw [heq]
        exact List.mem_append_right _ List.mem_cons_self
      simp [before] at hmem
    · cases heq
      exact absurd hstore (by decide)
  have hbroken : Interrupted history 2 :=
    ⟨before, [], 2, 0, "a", rfl, by decide, by decide +kernel⟩
  obtain ⟨-, -, -, hreads, -⟩ := maps_of_history history (i := 0) (f := 0) (by decide)
  obtain ⟨-, -, -, hclone, -⟩ := maps_of_history history (i := 1) (f := 0) (by decide)
  obtain ⟨-, -, -, -, hfails⟩ := maps_of_history history (i := 2) (f := 2) (by decide)
  refine ⟨by decide, by decide, by decide, hunbroken, hbroken, ?_, ?_, (hfails hbroken).2.1 "a"⟩
  · rw [(hreads hunbroken).1]
    decide +kernel
  · rw [(hclone hunbroken).2.2.1]
    decide +kernel

end Shelf
end TelemetryAgent
