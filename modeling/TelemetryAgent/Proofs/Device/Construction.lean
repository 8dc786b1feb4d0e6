import Mathlib.Data.List.Induction
import Mathlib.Data.List.Nodup
import TelemetryAgent.Device
import TelemetryAgent.Proofs.Schedule.Construction

/-!
# What a device can be built with

A configuration is fit if its baseline has every kind at most once, and none that cannot be
scheduled, and if its worker has time to sleep and room to run. Exactly those configurations are
found valid, and exactly from them a device is built; every other one is refused for the first thing
that is wrong with it, before anything is asked of the host. With nothing in the store the schedule
of a new device is its baseline.
-/
namespace TelemetryAgent

/-! ## Baselines -/

namespace BaselineItem

/-- Every kind can be scheduled, and none comes twice. -/
structure Proper (items : List BaselineItem) : Prop where
  schedulable : ∀ item ∈ items, item.kind ≠ .invalid
  distinct : (items.map (·.kind)).Nodup

variable {items before after : List BaselineItem} {item : BaselineItem} {f : Fault}

theorem proper_nil : Proper [] := ⟨nofun, List.nodup_nil⟩

theorem Proper.concat (hitems : Proper items) (hkind : item.kind ≠ .invalid)
    (hnew : item.kind ∉ items.map (·.kind)) : Proper (items ++ [item]) where
  schedulable := by simpa [or_imp, forall_and, hkind] using hitems.schedulable
  distinct := by
    rw [List.map_append, List.map_singleton, ← List.concat_eq_append]
    exact hitems.distinct.concat hnew

/-- What is wrong with the first line that does not belong into a baseline. -/
inductive Wrong (items : List BaselineItem) : Fault → Prop
  | unschedulable {before after : List BaselineItem} {item : BaselineItem}
      (hsplit : items = before ++ item :: after) (hbefore : Proper before)
      (hkind : item.kind = .invalid) :
      Wrong items (.invalidConfiguration "telemetry kind must not be Invalid")
  | repeated {before after : List BaselineItem} {item : BaselineItem}
      (hsplit : items = before ++ item :: after) (hbefore : Proper before)
      (hkind : item.kind ∈ before.map (·.kind)) :
      Wrong items (.invalidConfiguration "duplicate telemetry kind in baseline")

theorem Wrong.append (hitems : Wrong items f) (more : List BaselineItem) :
    Wrong (items ++ more) f := by
  cases hitems with
  | @unschedulable before after item hsplit hbefore hkind =>
      exact .unschedulable (by rw [hsplit, List.append_assoc]; rfl) hbefore hkind
  | @repeated before after item hsplit hbefore hkind =>
      exact .repeated (by rw [hsplit, List.append_assoc]; rfl) hbefore hkind

theorem proper_or_wrong (items : List BaselineItem) : Proper items ∨ ∃ f, Wrong items f := by
  induction items using List.reverseRecOn with
  | nil => exact .inl proper_nil
  | append_singleton items item ih =>
      rcases ih with hproper | ⟨f, hwrong⟩
      · by_cases hkind : item.kind = .invalid
        · exact .inr ⟨_, .unschedulable rfl hproper hkind⟩
        · by_cases hmem : item.kind ∈ items.map (·.kind)
          · exact .inr ⟨_, .repeated rfl hproper hmem⟩
          · exact .inl (hproper.concat hkind hmem)
      · exact .inr ⟨f, hwrong.append [item]⟩

end BaselineItem

namespace Config
open BaselineItem

/-- A line that is proper is passed, and its kind is kept in mind. -/
theorem checkBaseline_append {seen : List Kind} {before : List BaselineItem}
    (hbefore : Proper before) (hseen : ∀ item ∈ before, item.kind ∉ seen)
    (rest : List BaselineItem) :
    checkBaseline seen (before ++ rest) =
      checkBaseline ((before.map (·.kind)).reverse ++ seen) rest := by
  induction before generalizing seen with
  | nil => rfl
  | cons item before ih =>
      obtain ⟨hkind, hkinds⟩ := List.forall_mem_cons.mp hbefore.schedulable
      obtain ⟨hnew, hnews⟩ := List.forall_mem_cons.mp hseen
      have hdistinct := hbefore.distinct
      rw [List.map_cons, List.nodup_cons] at hdistinct
      have hrest := @ih (item.kind :: seen) ⟨hkinds, hdistinct.2⟩ fun other hother => by
        rw [List.mem_cons, not_or]
        exact ⟨fun heq => hdistinct.1 (List.mem_map.mpr ⟨other, hother, heq⟩), hnews other hother⟩
      rw [List.cons_append, checkBaseline, if_neg hkind, if_neg hnew, hrest]
      simp

theorem checkBaseline_of_proper {items : List BaselineItem} (hitems : Proper items) :
    checkBaseline [] items = .ok () := by
  rw [← List.append_nil items, checkBaseline_append hitems fun _ _ => List.not_mem_nil]
  rfl

theorem checkBaseline_of_wrong {items : List BaselineItem} {f : Fault} (hitems : Wrong items f) :
    checkBaseline [] items = .error f := by
  cases hitems with
  | @unschedulable before after item hsplit hbefore hkind =>
      rw [hsplit, checkBaseline_append hbefore fun _ _ => List.not_mem_nil]
      exact if_pos hkind
  | @repeated before after item hsplit hbefore hkind =>
      have hschedulable : item.kind ≠ .invalid := by
        obtain ⟨earlier, hmem, heq⟩ := List.mem_map.mp hkind
        rw [← heq]
        exact hbefore.schedulable earlier hmem
      rw [hsplit, checkBaseline_append hbefore fun _ _ => List.not_mem_nil, checkBaseline,
        if_neg hschedulable]
      exact if_pos (by simpa using hkind)

/-! ## Configurations -/

structure Fit (c : Config) : Prop where
  baseline : Proper c.telemetry
  pollMillis : 0 < c.worker.pollMillis
  stackBytes : 2048 ≤ c.worker.stackBytes

/-- The first thing that is wrong with a configuration. -/
inductive Unfit (c : Config) : Fault → Prop
  | baseline {f : Fault} (htelemetry : Wrong c.telemetry f) : Unfit c f
  | restless (htelemetry : Proper c.telemetry) (hpoll : c.worker.pollMillis = 0) :
      Unfit c (.invalidConfiguration "queue_poll_interval_ms must be > 0")
  | cramped (htelemetry : Proper c.telemetry) (hpoll : 0 < c.worker.pollMillis)
      (hstack : c.worker.stackBytes < 2048) :
      Unfit c (.invalidConfiguration "worker stack must be >= 2048 bytes")

variable {c : Config} {f : Fault}

theorem fit_or_unfit (c : Config) : Fit c ∨ ∃ f, Unfit c f := by
  rcases proper_or_wrong c.telemetry with hproper | ⟨f, hwrong⟩
  · by_cases hpoll : c.worker.pollMillis = 0
    · exact .inr ⟨_, .restless hproper hpoll⟩
    · have hpositive : 0 < c.worker.pollMillis := UInt32.pos_iff_ne_zero.mpr hpoll
      by_cases hstack : c.worker.stackBytes < 2048
      · exact .inr ⟨_, .cramped hproper hpositive hstack⟩
      · exact .inl ⟨hproper, hpositive, UInt64.not_lt.mp hstack⟩
  · exact .inr ⟨f, .baseline hwrong⟩

theorem validate_of_fit (hc : Fit c) : c.validate = .ok () := by
  rw [validate, checkBaseline_of_proper hc.baseline]
  dsimp only
  rw [if_neg (UInt32.pos_iff_ne_zero.mp hc.pollMillis)]
  exact if_neg (UInt64.not_lt.mpr hc.stackBytes)

theorem validate_of_unfit (hc : Unfit c f) : c.validate = .error f := by
  cases hc with
  | baseline htelemetry => rw [validate, checkBaseline_of_wrong htelemetry]
  | restless htelemetry hpoll =>
      rw [validate, checkBaseline_of_proper htelemetry]
      exact if_pos hpoll
  | cramped htelemetry hpoll hstack =>
      rw [validate, checkBaseline_of_proper htelemetry]
      dsimp only
      rw [if_neg (UInt32.pos_iff_ne_zero.mp hpoll)]
      exact if_pos hstack

theorem Unfit.not_fit (hc : Unfit c f) : ¬ Fit c := fun hfit => by
  have hvalid := validate_of_fit hfit
  rw [validate_of_unfit hc] at hvalid
  cases hvalid

theorem validate_eq_ok_iff : c.validate = .ok () ↔ Fit c := by
  refine ⟨fun hvalid => ?_, validate_of_fit⟩
  rcases fit_or_unfit c with hfit | ⟨f, hunfit⟩
  · exact hfit
  · rw [validate_of_unfit hunfit] at hvalid
    cases hvalid

theorem validate_eq_error_iff : c.validate = .error f ↔ Unfit c f := by
  refine ⟨fun hinvalid => ?_, validate_of_unfit⟩
  rcases fit_or_unfit c with hfit | ⟨g, hunfit⟩
  · rw [validate_of_fit hfit] at hinvalid
    cases hinvalid
  · rw [validate_of_unfit hunfit] at hinvalid
    cases hinvalid
    exact hunfit

end Config

/-! ## Devices -/

def BaselineItem.entry (item : BaselineItem) : Entry := ⟨item.kind, item.period, true, none⟩

namespace Table

def entries (t : Table) : List Entry := Kind.schedulable.filterMap t.get?

theorem mem_entries {t : Table} {e : Entry} : e ∈ t.entries ↔ ∃ k, t.get? k = some e := by
  rw [entries, List.mem_filterMap]
  constructor
  · rintro ⟨k, -, hk⟩
    exact ⟨k, hk⟩
  · rintro ⟨k, hk⟩
    exact ⟨k, Kind.mem_schedulable (ne_invalid_of_get? hk), hk⟩

theorem nodup_entries {t : Table} (hkind : ∀ k e, t.get? k = some e → e.kind = k) :
    t.entries.Nodup := by
  refine List.Nodup.filterMap (fun j k e hj hk => ?_) (by decide)
  rw [← hkind j e hj, hkind k e hk]

/-- Of a proper baseline no line stands behind another one. -/
theorem ofBaseline_of_mem {items : List BaselineItem} (hitems : BaselineItem.Proper items)
    {item : BaselineItem} (hmem : item ∈ items) :
    ofBaseline items item.kind = some item.entry := by
  obtain ⟨before, after, rfl⟩ := List.append_of_mem hmem
  have hdistinct := hitems.distinct
  rw [List.map_append, List.map_cons, List.nodup_middle, List.nodup_cons, List.mem_append,
    not_or] at hdistinct
  have hfirst : ∀ earlier ∈ before, earlier.kind ≠ item.kind := fun earlier hearlier heq =>
    hdistinct.1.1 (List.mem_map.mpr ⟨earlier, hearlier, heq⟩)
  rw [ofBaseline, find?_of_first rfl hfirst]
  rfl

theorem mem_of_ofBaseline {items : List BaselineItem} {k : Kind} {e : Entry}
    (he : ofBaseline items k = some e) : ∃ item ∈ items, item.entry = e := by
  obtain ⟨item, hfind, rfl⟩ := Option.map_eq_some_iff.mp he
  have hkind : item.kind = k := by simpa using List.find?_some hfind
  exact ⟨item, List.mem_of_find?_eq_some hfind, by rw [BaselineItem.entry, hkind]⟩

/-- A table that is filled from a proper baseline alone has its lines, and nothing else. -/
theorem entries_perm {t : Table} {items : List BaselineItem} (hitems : BaselineItem.Proper items)
    (ht : ∀ k, t.get? k = ofBaseline items k) : t.entries.Perm (items.map BaselineItem.entry) := by
  have hkind : ∀ k e, t.get? k = some e → e.kind = k := by
    intro k e he
    rw [ht] at he
    obtain ⟨item, -, rfl⟩ := Option.map_eq_some_iff.mp he
    rfl
  have hnodup : (items.map BaselineItem.entry).Nodup := by
    refine List.Nodup.of_map Entry.kind ?_
    rw [List.map_map]
    exact hitems.distinct
  refine (List.perm_ext_iff_of_nodup (nodup_entries hkind) hnodup).mpr fun e => ?_
  rw [mem_entries, List.mem_map]
  constructor
  · rintro ⟨k, hk⟩
    rw [ht] at hk
    exact mem_of_ofBaseline hk
  · rintro ⟨item, hmem, rfl⟩
    exact ⟨item.kind, by rw [ht, ofBaseline_of_mem hitems hmem]⟩

end Table

theorem Scheduler.Fresh.get?_of_empty {baseline : List BaselineItem} {config : WorkerConfig}
    {h h₀ : Host} {s : Scheduler} (hfresh : Fresh baseline config h s h₀)
    (hempty : h.settings.leaves = .empty) (k : Kind) :
    s.table.get? k = Table.ofBaseline baseline k := by
  have hnone : Table.visited h = [] := by
    unfold Table.visited Host.load
    rw [hempty]
    dsimp only
    split
    · rfl
    · exact List.take_nil
  refine hfresh.get?_of_unread fun leaf hleaf => ?_
  rw [hnone] at hleaf
  cases hleaf

namespace Device

variable {c : Config} {h : Host}

theorem create_of_fit (hc : c.Fit) (h : Host) :
    ∃ d h', create c h = (.ok d, h') ∧
      Scheduler.Fresh c.telemetry c.worker h d.scheduler h' := by
  obtain ⟨s, h', hcreate, hfresh⟩ := Scheduler.create_fresh hc.baseline.schedulable c.worker h
  rw [create, Config.validate_of_fit hc]
  dsimp only
  rw [hcreate]
  exact ⟨_, _, rfl, hfresh⟩

theorem create_of_unfit {f : Fault} (hc : c.Unfit f) (h : Host) : create c h = (.error f, h) := by
  rw [create, Config.validate_of_unfit hc]

/-- A device is built from exactly the configurations that are fit, which are those that are found
valid. Any other one is refused with what validation says of it, the first thing that is wrong, and
the host is as it was. A device that is built with nothing in the store has one entry for each line
of the baseline, enabled and with the period of that line, whatever the period is, and no other. -/
theorem created_iff_fit (c : Config) (h : Host) :
    (c.validate = .ok () ↔ c.Fit) ∧
      (∀ f, c.validate = .error f ↔ c.Unfit f) ∧
      ((∃ d h', create c h = (.ok d, h')) ↔ c.Fit) ∧
      (¬ c.Fit → ∃ f, c.validate = .error f ∧ create c h = (.error f, h)) ∧
      ∀ d h', create c h = (.ok d, h') → h.settings.leaves = .empty →
        (∀ item ∈ c.telemetry, d.scheduler.table.get? item.kind =
          some ⟨item.kind, item.period, true, none⟩) ∧
        d.scheduler.table.entries.Perm
          (c.telemetry.map fun item => ⟨item.kind, item.period, true, none⟩) := by
  refine ⟨Config.validate_eq_ok_iff, fun f => Config.validate_eq_error_iff, ?_⟩
  rcases c.fit_or_unfit with hfit | ⟨f, hunfit⟩
  · obtain ⟨d, h', hcreate, hfresh⟩ := create_of_fit hfit h
    refine ⟨iff_of_true ⟨d, h', hcreate⟩ hfit, fun hnot => (hnot hfit).elim,
      fun d' h'' hd hempty => ?_⟩
    rw [hcreate] at hd
    cases hd
    have hget := hfresh.get?_of_empty hempty
    refine ⟨fun item hmem => ?_, Table.entries_perm hfit.baseline hget⟩
    rw [hget, Table.ofBaseline_of_mem hfit.baseline hmem]
    rfl
  · have hcreate := create_of_unfit hunfit h
    refine ⟨iff_of_false ?_ hunfit.not_fit,
      fun _ => ⟨f, Config.validate_of_unfit hunfit, hcreate⟩, ?_⟩
    · rintro ⟨d, h', hd⟩
      rw [hcreate] at hd
      cases hd
    · intro d h' hd
      rw [hcreate] at hd
      cases hd

/-- Periods that cannot be armed are taken as they are; a second line for a kind is refused
before what comes after it is looked at. -/
theorem created_of_unarmable_periods :
    let c : Config := { telemetry := [⟨.storageUsage, 0⟩, ⟨.wifiScan, -5⟩, ⟨.systemStatus, 60⟩] }
    let twice : Config := { telemetry := c.telemetry ++ [⟨.wifiScan, 5⟩, ⟨.invalid, 1⟩] }
    let h : Host := {}
    c.Fit ∧ h.settings.leaves = .empty ∧
      (∃ d h', create c h = (.ok d, h') ∧
        d.scheduler.table.get? .wifiScan = some ⟨.wifiScan, -5, true, none⟩ ∧
        d.scheduler.table.entries.length = 3) ∧
      ¬ twice.Fit ∧
      create twice h =
        (.error (.invalidConfiguration "duplicate telemetry kind in baseline"), h) := by
  intro c twice h
  obtain ⟨hvalid, -, hbuilt, -, hentries⟩ := created_iff_fit c h
  obtain ⟨htwice, -, -, hrefused, -⟩ := created_iff_fit twice h
  have hfit : c.Fit := hvalid.mp (by decide)
  have hinvalid : twice.validate =
      .error (.invalidConfiguration "duplicate telemetry kind in baseline") := by decide
  have hunfit : ¬ twice.Fit := fun hfit => by
    have hok := htwice.mpr hfit
    rw [hinvalid] at hok
    cases hok
  obtain ⟨d, h', hcreate⟩ := hbuilt.mpr hfit
  obtain ⟨hget, hperm⟩ := hentries d h' hcreate rfl
  obtain ⟨f, hf, hcreated⟩ := hrefused hunfit
  rw [hinvalid] at hf
  cases hf
  exact ⟨hfit, rfl, ⟨d, h', hcreate, hget ⟨.wifiScan, -5⟩ (by decide), hperm.length_eq⟩, hunfit,
    hcreated⟩

end Device
end TelemetryAgent
