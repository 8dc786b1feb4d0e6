import TelemetryAgent.Proofs.Schedule.Change
import TelemetryAgent.Proofs.Settings.Spelling

/-!
# Loading a table

The entry of a kind after a load is a fold over the settings that the visited leaves have for that
kind, and filling from the baseline gives a kind its first line if the load gave it nothing. Kinds
do not meet: what a leaf says of one kind does not reach another.
-/
namespace TelemetryAgent

namespace Setting

def of? (k : Kind) (leaf : String × Bytes) : Option Setting :=
  match decode leaf.1 leaf.2 with
  | .ok (j, s) => if j = k then some s else none
  | .error _ => none

def allOf (k : Kind) (leaves : List (String × Bytes)) : List Setting := leaves.filterMap (of? k)

theorem of?_eq_some_iff {k : Kind} {leaf : String × Bytes} {s : Setting} :
    of? k leaf = some s ↔ decode leaf.1 leaf.2 = .ok (k, s) := by
  unfold of?
  cases decode leaf.1 leaf.2 with
  | error f => simp
  | ok found => simp [Prod.ext_iff]

theorem mem_allOf {k : Kind} {leaves : List (String × Bytes)} {s : Setting} :
    s ∈ allOf k leaves ↔ ∃ leaf ∈ leaves, decode leaf.1 leaf.2 = .ok (k, s) := by
  simp only [allOf, List.mem_filterMap, of?_eq_some_iff]

theorem ne_invalid_of_decode {key : String} {value : Bytes} {k : Kind} {s : Setting}
    (hd : decode key value = .ok (k, s)) : k ≠ .invalid :=
  (decode_eq_ok_iff.mp hd).1.ne_invalid

end Setting

namespace Entry

/-- Takes over a setting of a kind, from a blank entry on. -/
def takeOver (k : Kind) (e : Option Entry) (s : Setting) : Option Entry :=
  some ((e.getD (blank k)).withSetting s)

def ofSettings (k : Kind) (settings : List Setting) : Option Entry :=
  settings.foldl (takeOver k) none

@[simp] theorem withSetting_kind (e : Entry) (s : Setting) : (e.withSetting s).kind = e.kind := by
  cases s <;> rfl

@[simp] theorem withSetting_timer (e : Entry) (s : Setting) : (e.withSetting s).timer = e.timer := by
  cases s <;> rfl

theorem foldl_takeOver {k : Kind} {settings : List Setting} {e₀ : Option Entry} {e : Entry}
    (h₀ : ∀ e, e₀ = some e → e.kind = k ∧ e.timer = none)
    (he : settings.foldl (takeOver k) e₀ = some e) : e.kind = k ∧ e.timer = none := by
  induction settings generalizing e₀ with
  | nil => exact h₀ e he
  | cons s rest ih =>
      refine ih (fun e' he' => ?_) he
      cases he'
      cases e₀ with
      | none => simp [blank]
      | some e₁ => simpa using h₀ e₁ rfl

theorem of_mem_ofSettings {k : Kind} {settings : List Setting} {e : Entry}
    (he : ofSettings k settings = some e) : e.kind = k ∧ e.timer = none :=
  foldl_takeOver (by simp) he

end Entry

namespace Table

theorem getOrBlank?_of_ne {k : Kind} (hk : k ≠ .invalid) (t : Table) :
    t.getOrBlank? k = some ((t.get? k).getD (Entry.blank k)) := if_neg hk

theorem get?_absorb {j : Kind} (hj : j ≠ .invalid) (s : Setting) (t : Table) (k : Kind) :
    (t.absorb j s).get? k = if k = j then Entry.takeOver j (t.get? j) s else t.get? k := by
  simp only [absorb, getOrBlank?_of_ne hj, get?_set, hj, ne_eq, not_false_eq_true, and_true]
  rfl

theorem get?_absorbAll (k : Kind) (leaves : List (String × Bytes)) (t : Table) (h : Host) :
    (absorbAll leaves t h).1.get? k = (Setting.allOf k leaves).foldl (Entry.takeOver k) (t.get? k) := by
  induction leaves generalizing t h with
  | nil => rfl
  | cons leaf rest ih =>
      obtain ⟨key, value⟩ := leaf
      unfold absorbAll
      cases hd : Setting.decode key value with
      | error f => simp only [ih, Setting.allOf, List.filterMap_cons, Setting.of?, hd]
      | ok found =>
          obtain ⟨j, s⟩ := found
          have hj := Setting.ne_invalid_of_decode hd
          simp only [ih, Setting.allOf, List.filterMap_cons, Setting.of?, hd, get?_absorb hj]
          by_cases hjk : j = k
          · subst hjk
            simp
          · simp [hjk, Ne.symm hjk]

/-- A leaf that is skipped is noted, and nothing else on the host changes. -/
theorem absorbAll_host (leaves : List (String × Bytes)) (t : Table) (h : Host) :
    (absorbAll leaves t h).2 = { h with notices := (absorbAll leaves t h).2.notices } := by
  induction leaves generalizing t h with
  | nil => rfl
  | cons leaf rest ih =>
      obtain ⟨key, value⟩ := leaf
      unfold absorbAll
      split
      · exact ih _ h
      · rename_i f _
        exact ih _ (h.note (.settingSkipped key f))

def visited (h : Host) : List (String × Bytes) := (h.load Setting.subtree).1

/-- A load that does not fail visits every leaf of its subtree. -/
theorem visited_of_sound {h : Host} (hload : h.settings.loadFault = none) :
    visited h = Medium.below Setting.subtree h.settings.leaves := by
  have hrecord : (h.record (.load Setting.subtree)).settings = h.settings := rfl
  unfold visited Host.load
  simp only [hrecord, hload]

theorem get?_load (k : Kind) (h : Host) :
    (load h).1.get? k = Entry.ofSettings k (Setting.allOf k (visited h)) := by
  have habsorb := get?_absorbAll k (visited h) {} (h.load Setting.subtree).2.2
  have hblank : ({} : Table).get? k = none := by cases k <;> rfl
  rw [hblank] at habsorb
  unfold load
  dsimp only
  split <;> exact habsorb

/-- A load is one call, and changes nothing but what the host has collected. -/
theorem load_host (h : Host) : (load h).2 =
    { h with calls := h.calls ++ [.load Setting.subtree], notices := (load h).2.notices } := by
  have hload : (h.load Setting.subtree).2.2 = h.record (.load Setting.subtree) := by
    unfold Host.load
    dsimp only
    split <;> rfl
  have habsorb := absorbAll_host (visited h) {} (h.load Setting.subtree).2.2
  rw [hload] at habsorb
  unfold load
  dsimp only
  rw [hload]
  split
  · exact habsorb
  · rename_i f _
    exact congrArg (Host.note (.loadFailed f)) habsorb

theorem load_timersOnly (h : Host) : Host.TimersOnly h (load h).2 := by
  rw [load_host]
  exact ⟨rfl, rfl, rfl, rfl, rfl, rfl, rfl, rfl⟩

theorem load_timers (h : Host) : (load h).2.timers = h.timers := by
  rw [load_host]

/-- The entry that the baseline has for a kind: its first line for it, enabled. -/
def ofBaseline (baseline : List BaselineItem) (k : Kind) : Option Entry :=
  (baseline.find? (·.kind == k)).map fun item => ⟨k, item.period, true, none⟩

theorem get?_fill {k : Kind} (hk : k ≠ .invalid) (baseline : List BaselineItem) (t : Table) :
    (t.fill baseline).get? k = (t.get? k).or (ofBaseline baseline k) := by
  induction baseline generalizing t with
  | nil => simp [fill, ofBaseline]
  | cons item rest ih =>
      have hfound : ofBaseline (item :: rest) k =
          if item.kind = k then some ⟨k, item.period, true, none⟩ else ofBaseline rest k := by
        unfold ofBaseline
        rw [List.find?_cons]
        by_cases hik : item.kind = k
        · rw [if_pos hik, beq_iff_eq.mpr hik]
          rfl
        · rw [if_neg hik, beq_eq_false_iff_ne.mpr hik]
      rw [hfound]
      cases hget : t.get? item.kind with
      | some e =>
          have hkept : t.fill (item :: rest) = t.fill rest := by
            simp only [fill, List.foldl_cons, hget]
          rw [hkept, ih]
          by_cases hik : item.kind = k
          · rw [← hik, hget]
            rfl
          · rw [if_neg hik]
      | none =>
          have hgiven : t.fill (item :: rest) =
              fill rest (t.set item.kind (some ⟨item.kind, item.period, true, none⟩)) := by
            simp only [fill, List.foldl_cons, hget]
          rw [hgiven, ih, get?_set]
          by_cases hik : item.kind = k
          · rw [if_pos ⟨hik.symm, hik ▸ hk⟩, if_pos hik, ← hik, hget]
            rfl
          · rw [if_neg fun h => hik h.1.symm, if_neg hik]

end Table

namespace Scheduler

/-- A scheduler that has just been made: idle, without worker, queue or timer. -/
structure Fresh (baseline : List BaselineItem) (config : WorkerConfig) (h : Host) (s : Scheduler)
    (h' : Host) : Prop where
  table : ∀ k, s.table.get? k =
    (Entry.ofSettings k (Setting.allOf k (Table.visited h))).or (Table.ofBaseline baseline k)
  ident : s.ident = h.schedulers
  baseline : s.baseline = baseline
  config : s.config = config
  running : s.running = false
  epoch : s.epoch = 0
  queue : s.queue = []
  dropped : s.dropped = 0
  tracked : s.tracked = none
  timers : h'.timers = h.timers
  tasks : h'.tasks = h.tasks
  settings : h'.settings = h.settings
  schedulers : h'.schedulers = h.schedulers + 1

theorem ofBaseline_invalid {baseline : List BaselineItem}
    (hb : ∀ item ∈ baseline, item.kind ≠ .invalid) : Table.ofBaseline baseline .invalid = none := by
  unfold Table.ofBaseline
  rw [List.find?_eq_none.mpr (fun item hitem => by simpa using hb item hitem)]
  rfl

theorem create_fresh {baseline : List BaselineItem} (hb : ∀ item ∈ baseline, item.kind ≠ .invalid)
    (config : WorkerConfig) (h : Host) :
    ∃ s h', create baseline config h = (.ok s, h') ∧ Fresh baseline config h s h' := by
  have hany : ¬ (baseline.any (·.kind == .invalid)) = true := by
    simpa using hb
  have hload := Table.load_timersOnly h
  unfold create
  rw [if_neg hany]
  refine ⟨_, _, rfl, fun k => ?_, hload.schedulers, rfl, rfl, rfl, rfl, rfl, rfl, rfl,
    Table.load_timers h, hload.tasks, hload.settings, congrArg (· + 1) hload.schedulers⟩
  by_cases hk : k = .invalid
  · subst hk
    rw [ofBaseline_invalid hb, Option.or_none, ← Table.get?_load]
    rfl
  · change ((Table.load h).1.fill baseline).get? k = _
    rw [Table.get?_fill hk, Table.get?_load]

/-- What is made is made of a valid baseline. -/
theorem fresh_of_create {baseline : List BaselineItem} {config : WorkerConfig} {h h' : Host}
    {s : Scheduler} (hc : create baseline config h = (.ok s, h')) : Fresh baseline config h s h' := by
  have hb : ∀ item ∈ baseline, item.kind ≠ .invalid := by
    unfold create at hc
    split at hc
    · cases hc
    · rename_i hany
      simpa using hany
  obtain ⟨s', h'', hcreate, hfresh⟩ := create_fresh hb config h
  rw [hc] at hcreate
  cases hcreate
  exact hfresh

theorem Fresh.entry {baseline : List BaselineItem} {config : WorkerConfig} {h h' : Host}
    {s : Scheduler} (hs : Fresh baseline config h s h') {k : Kind} {e : Entry}
    (he : s.table.get? k = some e) : e.kind = k ∧ e.timer = none := by
  rw [hs.table] at he
  rcases Option.or_eq_some_iff.mp he with hload | ⟨-, hbase⟩
  · exact Entry.of_mem_ofSettings hload
  · unfold Table.ofBaseline at hbase
    obtain ⟨item, -, rfl⟩ := Option.map_eq_some_iff.mp hbase
    exact ⟨rfl, rfl⟩

end Scheduler
end TelemetryAgent
