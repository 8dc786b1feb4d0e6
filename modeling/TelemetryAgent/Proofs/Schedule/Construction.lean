import TelemetryAgent.Proofs.Schedule.Interrupted
import TelemetryAgent.Proofs.Settings.ByteOrder

/-!
# What a scheduler begins with

A scheduler is made of one load and of its baseline. The leaves of a kind, under whatever spelling of
its ordinal, decide the entry of the kind field by field: the last one that can be read wins, and the
one under the key that is written comes last. A kind of which the store says nothing has the first
line of the baseline. What cannot be read does not count.
-/
namespace TelemetryAgent

namespace Setting

def period? : Setting → Option Int64
  | .period seconds => some seconds
  | .enable _ => none

def lastPeriod? (k : Kind) (leaves : List (String × Bytes)) : Option Int64 :=
  ((allOf k leaves).filterMap period?).getLast?

def lastFlag? (k : Kind) (leaves : List (String × Bytes)) : Option Bool :=
  ((allOf k leaves).filterMap flag?).getLast?

def isReadable (leaf : String × Bytes) : Bool := (decode leaf.1 leaf.2).isOk

theorem allOf_eq_nil_iff {k : Kind} {leaves : List (String × Bytes)} :
    allOf k leaves = [] ↔ ∀ leaf ∈ leaves, ∀ s, decode leaf.1 leaf.2 ≠ .ok (k, s) := by
  rw [List.eq_nil_iff_forall_not_mem]
  constructor
  · intro hnone leaf hleaf s hd
    exact hnone s (mem_allOf.mpr ⟨leaf, hleaf, hd⟩)
  · intro hnone s hs
    obtain ⟨leaf, hleaf, hd⟩ := mem_allOf.mp hs
    exact hnone leaf hleaf s hd

/-- Only what can be read says something. -/
theorem allOf_filter_isReadable (k : Kind) (leaves : List (String × Bytes)) :
    allOf k (leaves.filter isReadable) = allOf k leaves := by
  induction leaves with
  | nil => rfl
  | cons leaf rest ih =>
      unfold allOf at ih ⊢
      cases hd : decode leaf.1 leaf.2 with
      | error f =>
          have hnone : of? k leaf = none := by
            simp only [of?, hd]
          rw [List.filter_cons_of_neg (by simp [isReadable, hd, Except.isOk, Except.toBool]), ih,
            List.filterMap_cons_none hnone]
      | ok found =>
          rw [List.filter_cons_of_pos (by simp [isReadable, hd, Except.isOk, Except.toBool]),
            List.filterMap_cons, List.filterMap_cons, ih]

end Setting

/-- A kind of which something is said has the last period and the last flag. -/
theorem Entry.ofSettings_eq (k : Kind) {settings : List Setting} (hsome : settings ≠ []) :
    ofSettings k settings = some ⟨k, (settings.filterMap Setting.period?).getLast?.getD 0,
      (settings.filterMap Setting.flag?).getLast?.getD false, none⟩ := by
  have hperiod : ((settings.foldl (takeOver k) none).map (·.period)).getD 0 =
      (settings.filterMap Setting.period?).getLast?.getD 0 :=
    field_foldl_takeOver (f := Entry.period) Setting.period? (fun t _ => by cases t <;> rfl) none
  have henabled := enabled_foldl_takeOver k settings none
  obtain ⟨first, rest, rfl⟩ := List.exists_cons_of_ne_nil hsome
  obtain ⟨e, he⟩ := Option.isSome_iff_exists.mp
    (foldl_takeOver_isSome k rest (o := takeOver k none first) rfl)
  have hentry : ofSettings k (first :: rest) = some e := he
  obtain ⟨hkind, htimer⟩ := of_mem_ofSettings hentry
  rw [List.foldl_cons, he] at hperiod henabled
  simp only [Option.map_some, Option.getD_some, Option.map_none, Option.getD_none] at hperiod henabled
  rw [hentry, ← hperiod, ← henabled, ← hkind, ← htimer]

/-- What the key that is written says of a field of a kind is what the entry has. -/
theorem Entry.withSetting_of_own {k : Kind} {s : Setting} {value : Bytes}
    {leaves : List (String × Bytes)} (hincreasing : leaves.Pairwise fun a b => a.1 < b.1)
    (hmem : (s.key k, value) ∈ leaves) (hd : Setting.decode (s.key k) value = .ok (k, s)) {e : Entry}
    (he : ofSettings k (Setting.allOf k leaves) = some e) : e.withSetting s = e := by
  obtain ⟨before, after, hsplit, hlast⟩ := Setting.allOf_of_own hincreasing hmem hd
  rw [hsplit] at he
  cases s with
  | period seconds =>
      have hperiod : e.period = seconds :=
        field_of_last (f := Entry.period) (fun _ => rfl)
          (fun t ht => withSetting_period_of_ne (hlast t ht)) he
      rw [withSetting, ← hperiod]
  | enable flag =>
      have henabled : e.enabled = flag :=
        field_of_last (f := Entry.enabled) (fun _ => rfl)
          (fun t ht => withSetting_enabled_of_ne (hlast t ht)) he
      rw [withSetting, ← henabled]

namespace Table

/-! ## What is visited -/

theorem visited_increasing (h : Host) : (visited h).Pairwise fun a b => a.1 < b.1 := by
  have hbelow := Medium.below_increasing Setting.subtree h.settings.leaves
  unfold visited Host.load
  dsimp only
  split
  · exact hbelow
  · rename_i count f _
    exact hbelow.sublist (List.take_sublist count _)

/-- Leaves are visited in the order of the bytes of their keys. -/
theorem visited_bytes_increasing (h : Host) :
    (visited h).Pairwise fun a b => Utf8.bytes a.1 < Utf8.bytes b.1 :=
  (visited_increasing h).imp fun hlt => (Utf8.lt_iff _ _).mp hlt

/-- A load that does not fail visits exactly the leaves below the folder of the settings. -/
theorem mem_visited_iff {h : Host} (hload : h.settings.loadFault = none) (key : String)
    (value : Bytes) : (key, value) ∈ visited h ↔
      h.settings.leaves.get? (Medium.path Setting.subtree key) = some value := by
  rw [visited_of_sound hload, Leaves.get?_eq_some_iff]
  constructor
  · intro hmem
    rw [Medium.below_eq] at hmem
    obtain ⟨leaf, hleaf, hunder⟩ := List.mem_filterMap.mp hmem
    have hpath : leaf.1 = Medium.path Setting.subtree key := Medium.eq_path_of_under? hunder
    have hvalue : leaf.2 = value := by
      obtain ⟨rest, -, hfound⟩ := Option.map_eq_some_iff.mp hunder
      exact congrArg Prod.snd hfound
    rw [← hpath, ← hvalue]
    exact hleaf
  · exact Medium.mem_below

/-! ## What the baseline adds -/

/-- The first line of a baseline for a kind is the one before which there is none. -/
theorem find?_of_first {before after : List BaselineItem} {item : BaselineItem} {k : Kind}
    (hkind : item.kind = k) (hfirst : ∀ earlier ∈ before, earlier.kind ≠ k) :
    (before ++ item :: after).find? (·.kind == k) = some item := by
  have hnone : before.find? (·.kind == k) = none :=
    List.find?_eq_none.mpr fun earlier hmem => by simpa using hfirst earlier hmem
  have hitem : (item.kind == k) = true := beq_iff_eq.mpr hkind
  rw [List.find?_append, hnone, Option.none_or]
  exact List.find?_cons_of_pos hitem

end Table

namespace Scheduler

variable {baseline : List BaselineItem} {config : WorkerConfig} {h h₀ : Host} {s : Scheduler} {k : Kind}

/-- To make a scheduler is one load, and a number that is taken. -/
theorem create_host (hc : create baseline config h = (.ok s, h₀)) :
    h₀ = { h with
      calls := h.calls ++ [.load Setting.subtree]
      notices := h₀.notices
      schedulers := h.schedulers + 1 } := by
  have hnumbered := congrArg (fun g : Host => { g with schedulers := g.schedulers + 1 })
    (Table.load_host h)
  unfold create at hc
  split at hc
  · cases hc
  · cases hc
    exact hnumbered

theorem Fresh.isArmed (hfresh : Fresh baseline config h s h₀) (k : Kind) :
    s.isArmed k h₀ = false :=
  isArmed_of_unarmed (fun _ he => (hfresh.entry he).2) h₀

theorem Fresh.get?_of_read (hfresh : Fresh baseline config h s h₀) {leaf : String × Bytes}
    {t : Setting} (hleaf : leaf ∈ Table.visited h)
    (hd : Setting.decode leaf.1 leaf.2 = .ok (k, t)) :
    s.table.get? k = some ⟨k, (Setting.lastPeriod? k (Table.visited h)).getD 0,
      (Setting.lastFlag? k (Table.visited h)).getD false, none⟩ := by
  have hsome : Setting.allOf k (Table.visited h) ≠ [] :=
    List.ne_nil_of_mem (Setting.mem_allOf.mpr ⟨leaf, hleaf, hd⟩)
  rw [hfresh.table, Entry.ofSettings_eq k hsome]
  rfl

theorem Fresh.get?_of_unread (hfresh : Fresh baseline config h s h₀)
    (hnone : ∀ leaf ∈ Table.visited h, ∀ t, Setting.decode leaf.1 leaf.2 ≠ .ok (k, t)) :
    s.table.get? k = Table.ofBaseline baseline k := by
  rw [hfresh.table, Setting.allOf_eq_nil_iff.mpr hnone]
  rfl

/-- The line of a baseline for a kind gives its period, and its entry if there is nothing stored. -/
theorem Fresh.of_find? (hfresh : Fresh baseline config h s h₀) {line : Option BaselineItem}
    (hfind : baseline.find? (·.kind == k) = line) :
    s.baselinePeriod? k = line.map (·.period) ∧
      ((∀ leaf ∈ Table.visited h, ∀ t, Setting.decode leaf.1 leaf.2 ≠ .ok (k, t)) →
        s.table.get? k = line.map fun item => ⟨k, item.period, true, none⟩) := by
  constructor
  · rw [baselinePeriod?, hfresh.baseline, hfind]
  · intro hnone
    rw [hfresh.get?_of_unread hnone, Table.ofBaseline, hfind]

theorem Fresh.withSetting_of_own (hfresh : Fresh baseline config h s h₀) {t : Setting} {value : Bytes}
    (hmem : (t.key k, value) ∈ Table.visited h)
    (hd : Setting.decode (t.key k) value = .ok (k, t)) :
    ∃ e, s.table.get? k = some e ∧ e.withSetting t = e := by
  have hget := hfresh.get?_of_read hmem hd
  have hloaded := hfresh.table k
  have hsome : Setting.allOf k (Table.visited h) ≠ [] :=
    List.ne_nil_of_mem (Setting.mem_allOf.mpr ⟨_, hmem, hd⟩)
  rw [hget, Entry.ofSettings_eq k hsome, Option.some_or] at hloaded
  refine ⟨_, hget, Entry.withSetting_of_own (Table.visited_increasing h) hmem hd ?_⟩
  rw [Entry.ofSettings_eq k hsome, ← hloaded]

/-- What is made of the same readable leaves is the same. -/
theorem Fresh.table_of_readable {h' h₀' : Host} {s' : Scheduler} {config' : WorkerConfig}
    (hfresh : Fresh baseline config h s h₀) (hfresh' : Fresh baseline config' h' s' h₀')
    (hsame : (Table.visited h').filter Setting.isReadable =
      (Table.visited h).filter Setting.isReadable) : s'.table = s.table := by
  refine Table.ext_get? fun k => ?_
  rw [hfresh.table, hfresh'.table, ← Setting.allOf_filter_isReadable k (Table.visited h'), hsame,
    Setting.allOf_filter_isReadable]

/-- A scheduler is made with one call, idle and with nothing armed. For each kind it has what the
last readable leaves of its two fields say, those under the keys that are written before all others;
of a kind of which no leaf says anything it has the first line of the baseline; and what cannot be
read makes no difference. -/
theorem entries_of_create {baseline : List BaselineItem}
    (hb : ∀ item ∈ baseline, item.kind ≠ .invalid) (config : WorkerConfig) (h : Host) :
    let leaves := Table.visited h
    leaves.Pairwise (fun a b => Utf8.bytes a.1 < Utf8.bytes b.1) ∧
      (h.settings.loadFault = none → ∀ key value, (key, value) ∈ leaves ↔
        h.settings.leaves.get? (Medium.path Setting.subtree key) = some value) ∧
      ∃ s h₀, create baseline config h = (.ok s, h₀) ∧
        h₀ = { h with
          calls := h.calls ++ [.load Setting.subtree]
          notices := h₀.notices
          schedulers := h.schedulers + 1 } ∧
        s.running = false ∧ s.tracked = none ∧ (∀ k, s.isArmed k h₀ = false) ∧
        (∀ k leaf t, leaf ∈ leaves → Setting.decode leaf.1 leaf.2 = .ok (k, t) →
          s.table.get? k = some ⟨k, (Setting.lastPeriod? k leaves).getD 0,
            (Setting.lastFlag? k leaves).getD false, none⟩) ∧
        -- an entry that a setting does not change has what the setting says
        (∀ k t value, (t.key k, value) ∈ leaves → Setting.decode (t.key k) value = .ok (k, t) →
          ∃ e, s.table.get? k = some e ∧ e.withSetting t = e) ∧
        (∀ k before item after, baseline = before ++ item :: after → item.kind = k →
          (∀ earlier ∈ before, earlier.kind ≠ k) →
          s.baselinePeriod? k = some item.period ∧
            ((∀ leaf ∈ leaves, ∀ t, Setting.decode leaf.1 leaf.2 ≠ .ok (k, t)) →
              s.table.get? k = some ⟨k, item.period, true, none⟩)) ∧
        (∀ k, (∀ item ∈ baseline, item.kind ≠ k) →
          s.baselinePeriod? k = none ∧
            ((∀ leaf ∈ leaves, ∀ t, Setting.decode leaf.1 leaf.2 ≠ .ok (k, t)) →
              s.table.get? k = none)) ∧
        ∀ config' h', (Table.visited h').filter Setting.isReadable =
            leaves.filter Setting.isReadable →
          ∃ s' h₁, create baseline config' h' = (.ok s', h₁) ∧ s'.table = s.table := by
  intro leaves
  obtain ⟨s, h₀, hcreate, hfresh⟩ := create_fresh hb config h
  refine ⟨Table.visited_bytes_increasing h, Table.mem_visited_iff, s, h₀, hcreate,
    create_host hcreate, hfresh.running, hfresh.tracked, hfresh.isArmed, ?_, ?_, ?_, ?_, ?_⟩
  · intro k leaf t hleaf hd
    exact hfresh.get?_of_read hleaf hd
  · intro k t value hmem hd
    exact hfresh.withSetting_of_own hmem hd
  · intro k before item after hsplit hkind hfirst
    rw [hsplit] at hfresh
    exact hfresh.of_find? (Table.find?_of_first hkind hfirst)
  · intro k hunlisted
    exact hfresh.of_find?
      (List.find?_eq_none.mpr fun item hmem => by simpa using hunlisted item hmem)
  · intro config' h' hsame
    obtain ⟨s', h₁, hcreate', hfresh'⟩ := create_fresh hb config' h'
    exact ⟨s', h₁, hcreate', hfresh.table_of_readable hfresh' hsame⟩

/-- The flag comes from the one leaf that is spelled as it is written, the period from the last of
the other spellings that can be read; the baseline has two lines for a kind that has no leaf. -/
theorem entries_of_spellings :
    let h : Host :=
      { settings :=
          { leaves := Leaves.ofList [("edgehog_device/telemetry/+3/periods", [14]),
              ("edgehog_device/telemetry/+3/enable", [0]),
              ("edgehog_device/telemetry/03/periods", [20]),
              ("edgehog_device/telemetry/3/enable", [1]),
              ("edgehog_device/telemetry/3/periods", [128]),
              ("edgehog_device/telemetry/4/color", [1])] } }
    let baseline := [BaselineItem.mk .storageUsage 30, .mk .systemStatus 40, .mk .storageUsage 50]
    (∀ item ∈ baseline, item.kind ≠ .invalid) ∧ h.settings.loadFault = none ∧
      ∃ s h₀, create baseline {} h = (.ok s, h₀) ∧ h₀.calls = [.load "telemetry"] ∧
        s.table.get? .systemStatus = some ⟨.systemStatus, 10, true, none⟩ ∧
        s.table.get? .storageUsage = some ⟨.storageUsage, 30, true, none⟩ ∧
        s.baselinePeriod? .storageUsage = some 30 ∧ s.table.get? .wifiScan = none := by
  intro h baseline
  have hb : ∀ item ∈ baseline, item.kind ≠ .invalid := by decide
  have hvisited : Table.visited h = [("+3/enable", [0]), ("+3/periods", [14]), ("03/periods", [20]),
      ("3/enable", [1]), ("3/periods", [128]), ("4/color", [1])] := by decide +kernel
  obtain ⟨-, -, s, h₀, hcreate, hhost, -, -, -, hread, -, hlisted, hunlisted, -⟩ :=
    entries_of_create hb {} h
  refine ⟨hb, rfl, s, h₀, hcreate, congrArg Host.calls hhost, ?_⟩
  rw [hvisited] at hread hlisted hunlisted
  have hsystem := hread .systemStatus ("3/enable", [1]) (.enable true) (by decide) (by decide +kernel)
  obtain ⟨hperiod, hstorage⟩ := hlisted .storageUsage [] ⟨.storageUsage, 30⟩ _ rfl rfl (by decide)
  obtain ⟨-, hwifi⟩ := hunlisted .wifiScan (by decide)
  refine ⟨hsystem.trans (by decide +kernel), hstorage ?_, hperiod, hwifi ?_⟩
  · rw [← Setting.allOf_eq_nil_iff]
    decide +kernel
  · rw [← Setting.allOf_eq_nil_iff]
    decide +kernel

end Scheduler
end TelemetryAgent
