import TelemetryAgent.Proofs.Schedule.Load
import TelemetryAgent.Proofs.Settings.Leaves
import TelemetryAgent.Proofs.Settings.Spelling

/-!
# Entries in the store

An entry that has been written is what a load makes of its kind, whatever else the store holds: the
leaves of an entry come after all other leaves that stand for the same field of the same kind, and
the last leaf of a field wins. What is written of one kind does not reach another.
-/
namespace TelemetryAgent

/-! ## The last leaf of a field wins -/

namespace Entry

variable {α : Type} {f : Entry → α} {k : Kind} {s : Setting} {settings before after : List Setting}

theorem foldl_takeOver_isSome (k : Kind) (settings : List Setting) {o : Option Entry}
    (ho : o.isSome = true) : (settings.foldl (takeOver k) o).isSome = true := by
  induction settings generalizing o with
  | nil => exact ho
  | cons s rest ih => exact ih rfl

/-- The last of the settings that are for a field is what the field has, or what it had before if
none of them is. -/
theorem field_foldl_takeOver (g : Setting → Option α)
    (hset : ∀ (t : Setting) (d : Entry), f (d.withSetting t) = (g t).getD (f d)) (o : Option Entry) :
    ((settings.foldl (takeOver k) o).map f).getD (f (blank k)) =
      (settings.filterMap g).getLast?.getD ((o.map f).getD (f (blank k))) := by
  induction settings generalizing o with
  | nil => rfl
  | cons t rest ih =>
      have hfirst : ((takeOver k o t).map f).getD (f (blank k)) =
          (g t).getD ((o.map f).getD (f (blank k))) := by
        cases o <;> exact hset t _
      rw [List.foldl_cons, ih, hfirst]
      cases hg : g t with
      | none => rw [List.filterMap_cons_none hg, Option.getD_none]
      | some value => rw [List.filterMap_cons_some hg, List.getLast?_cons, Option.getD_some,
          Option.getD_some]

/-- A field that the settings do not touch stays as it was. -/
theorem field_of_untouched {e₀ e : Entry}
    (hkeep : ∀ t ∈ settings, ∀ d : Entry, f (d.withSetting t) = f d)
    (he : settings.foldl (takeOver k) (some e₀) = some e) : f e = f e₀ := by
  induction settings generalizing e₀ with
  | nil =>
      cases he
      rfl
  | cons t rest ih =>
      have hrest := ih (fun u hu => hkeep u (List.mem_cons_of_mem t hu)) he
      exact hrest.trans (hkeep t List.mem_cons_self e₀)

/-- A field has the value that the last setting for it says. -/
theorem field_of_last {value : α} {e : Entry} (hset : ∀ d : Entry, f (d.withSetting s) = value)
    (hkeep : ∀ t ∈ after, ∀ d : Entry, f (d.withSetting t) = f d)
    (he : ofSettings k (before ++ s :: after) = some e) : f e = value := by
  unfold ofSettings at he
  rw [List.foldl_append, List.foldl_cons] at he
  exact (field_of_untouched hkeep he).trans (hset _)

theorem withSetting_period_of_ne {t : Setting} (ht : t.leafName ≠ "periods") (d : Entry) :
    (d.withSetting t).period = d.period := by
  cases t with
  | period seconds => exact (ht rfl).elim
  | enable flag => rfl

theorem withSetting_enabled_of_ne {t : Setting} (ht : t.leafName ≠ "enable") (d : Entry) :
    (d.withSetting t).enabled = d.enabled := by
  cases t with
  | period seconds => rfl
  | enable flag => exact (ht rfl).elim

end Entry

/-! ## What the leaves say of a kind -/

/-- Among leaves in increasing order, no leaf after the one under the key that is written for a
setting stands for the same field. -/
theorem Setting.allOf_of_own {k : Kind} {s : Setting} {value : Bytes}
    {leaves : List (String × Bytes)} (hincreasing : leaves.Pairwise fun a b => a.1 < b.1)
    (hmem : (s.key k, value) ∈ leaves) (hdecode : decode (s.key k) value = .ok (k, s)) :
    ∃ before after, allOf k leaves = before ++ s :: after ∧
      ∀ t ∈ after, t.leafName ≠ s.leafName := by
  obtain ⟨earlier, later, hsplit⟩ := List.append_of_mem hmem
  rw [hsplit] at hincreasing ⊢
  have hafter := (List.pairwise_cons.mp (List.pairwise_append.mp hincreasing).2.1).1
  refine ⟨allOf k earlier, allOf k later, ?_, fun t ht hname => ?_⟩
  · unfold allOf
    rw [List.filterMap_append, List.filterMap_cons_some (of?_eq_some_iff.mpr hdecode)]
  · obtain ⟨leaf, hleaf, hd⟩ := mem_allOf.mp ht
    have hkey : t.key k = s.key k := key_eq_iff.mpr ⟨rfl, hname⟩
    have hlt := hafter leaf hleaf
    rcases key_le_of_decode hd with heq | hless
    · rw [heq, hkey] at hlt
      exact String.lt_irrefl _ hlt
    · rw [hkey] at hless
      exact String.lt_irrefl _ (String.lt_trans hlt hless)

namespace Leaves

def place (k : Kind) (s : Setting) : String := Medium.path Setting.subtree (s.key k)

theorem place_eq_iff {j k : Kind} {s t : Setting} :
    place j s = place k t ↔ j = k ∧ s.leafName = t.leafName := by
  constructor
  · exact fun heq => Setting.key_eq_iff.mp (Medium.path_injective heq)
  · exact fun hsame => congrArg (Medium.path Setting.subtree) (Setting.key_eq_iff.mpr hsame)

def store (e : Entry) (l : Leaves) : Leaves :=
  e.settings.foldl (fun l s => l.put (place e.kind s) s.encode) l

/-- Both leaves of an entry are there. -/
structure Holds (e : Entry) (l : Leaves) : Prop where
  period : (place e.kind (.period e.period), (Setting.period e.period).encode) ∈ l.list
  enable : (place e.kind (.enable e.enabled), (Setting.enable e.enabled).encode) ∈ l.list

/-- What a load makes of a kind. -/
def loaded? (k : Kind) (l : Leaves) : Option Entry :=
  Entry.ofSettings k (Setting.allOf k (Medium.below Setting.subtree l))

variable {l : Leaves} {d e : Entry} {k : Kind} {s : Setting}

theorem store_eq (e : Entry) (l : Leaves) : l.store e =
    (l.put (place e.kind (.period e.period)) (Setting.period e.period).encode).put
      (place e.kind (.enable e.enabled)) (Setting.enable e.enabled).encode := rfl

theorem holds_store (e : Entry) (l : Leaves) : (l.store e).Holds e := by
  have hplaces : place e.kind (.period e.period) ≠ place e.kind (.enable e.enabled) := by
    intro heq
    have hnames : "periods" = "enable" := (place_eq_iff.mp heq).2
    exact absurd hnames (by decide)
  rw [store_eq]
  constructor
  · exact mem_putInto_of_ne (mem_putInto_self _ _ _) hplaces
  · exact mem_putInto_self _ _ _

theorem mem_store_of_ne {leaf : String × Bytes} (hmem : leaf ∈ l.list)
    (hne : ∀ s, leaf.1 ≠ place d.kind s) : leaf ∈ (l.store d).list := by
  rw [store_eq]
  exact mem_putInto_of_ne (mem_putInto_of_ne hmem (hne _)) (hne _)

/-- To write one kind leaves what is held of another. -/
theorem Holds.store_of_ne (hl : l.Holds e) (hkinds : e.kind ≠ d.kind) : (l.store d).Holds e := by
  have hplaces : ∀ s t, place e.kind s ≠ place d.kind t := fun s t heq =>
    hkinds (place_eq_iff.mp heq).1
  exact ⟨mem_store_of_ne hl.period (hplaces _), mem_store_of_ne hl.enable (hplaces _)⟩

theorem allOf_put_of_ne {j : Kind} (hkinds : k ≠ j) (s : Setting) (value : Bytes) (l : Leaves) :
    Setting.allOf k (Medium.below Setting.subtree (l.put (place j s) value)) =
      Setting.allOf k (Medium.below Setting.subtree l) := by
  refine Medium.filterMap_below_put (fun held => ?_) value l
  unfold Setting.of?
  split
  · rename_i i t hd
    rw [if_neg fun hik => hkinds (hik.symm.trans (Setting.kind_of_decode_key hd))]
  · rfl

theorem loaded?_store_of_ne (hkinds : k ≠ d.kind) (l : Leaves) :
    (l.store d).loaded? k = l.loaded? k := by
  rw [store_eq]
  unfold loaded?
  rw [allOf_put_of_ne hkinds, allOf_put_of_ne hkinds]

/-! ## An entry that is held is found -/

/-- Of the settings that the leaves have for a kind, the one in its own place is the last one for
its field. -/
theorem allOf_of_mem (hk : k ≠ .invalid) (hmem : (place k s, s.encode) ∈ l.list) :
    ∃ before after, Setting.allOf k (Medium.below Setting.subtree l) = before ++ s :: after ∧
      ∀ t ∈ after, t.leafName ≠ s.leafName := by
  have hdecode := Setting.decode_key hk s []
  rw [List.append_nil] at hdecode
  exact Setting.allOf_of_own (Medium.below_increasing Setting.subtree l) (Medium.mem_below hmem)
    hdecode

theorem loaded?_of_holds (hl : l.Holds e) (hk : e.kind ≠ .invalid) :
    l.loaded? e.kind = some ⟨e.kind, e.period, e.enabled, none⟩ := by
  obtain ⟨before, after, hperiods, hlast⟩ := allOf_of_mem hk hl.period
  obtain ⟨before', after', henables, hlast'⟩ := allOf_of_mem hk hl.enable
  have hsome : (l.loaded? e.kind).isSome = true := by
    unfold loaded? Entry.ofSettings
    rw [hperiods, List.foldl_append, List.foldl_cons]
    exact Entry.foldl_takeOver_isSome e.kind after rfl
  obtain ⟨found, hfound⟩ := Option.isSome_iff_exists.mp hsome
  obtain ⟨hkind, htimer⟩ := Entry.of_mem_ofSettings hfound
  have hperiod : found.period = e.period := by
    unfold loaded? at hfound
    rw [hperiods] at hfound
    exact Entry.field_of_last (f := Entry.period) (fun _ => rfl)
      (fun t ht => Entry.withSetting_period_of_ne (hlast t ht)) hfound
  have henabled : found.enabled = e.enabled := by
    unfold loaded? at hfound
    rw [henables] at hfound
    exact Entry.field_of_last (f := Entry.enabled) (fun _ => rfl)
      (fun t ht => Entry.withSetting_enabled_of_ne (hlast' t ht)) hfound
  rw [hfound, ← hkind, ← hperiod, ← henabled, ← htimer]

end Leaves
end TelemetryAgent
