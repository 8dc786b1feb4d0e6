import TelemetryAgent.Proofs.Schedule.Fields
import TelemetryAgent.Proofs.Schedule.Interrupted

/-!
# The store as a mirror of the table

As long as no save fails, a rebuild gives every kind what the scheduler has for it. The one kind for
which this can fail is one whose timer could not be armed: it has lost its entry, and the store still
has it. A request for a field of such a kind begins from a blank entry, so that it also takes the
other field away from what the store had.
-/
namespace TelemetryAgent

namespace Scheduler

theorem assign_enabled {field : ConfigField} (hfield : field ≠ .enable) (value : Value) (e : Entry) :
    (assign field value e).enabled = e.enabled := by
  unfold assign
  split
  · exact (hfield rfl).elim
  · rfl
  · rfl

theorem assign_period {field : ConfigField} (hfield : field ≠ .periodSeconds) (value : Value)
    (e : Entry) : (assign field value e).period = e.period := by
  unfold assign
  split
  · rfl
  · exact (hfield rfl).elim
  · rfl

theorem assign_written (field : ConfigField) (value : Value) (k : Kind) (e : Entry) :
    (assign field value e).written k = assign field value (e.written k) := by
  unfold assign
  split <;> rfl

end Scheduler

namespace Leaves

variable {l : Leaves} {k : Kind} {e : Entry} {entries : List Entry} {baseline : List BaselineItem}

theorem last?_of_mem (he : e ∈ entries) (hkind : e.kind = k) : ∃ d, last? k entries = some d := by
  have hmem : e ∈ entries.filter fun d => d.kind == k :=
    List.mem_filter.mpr ⟨he, beq_iff_eq.mpr hkind⟩
  exact ⟨_, List.getLast?_eq_some_getLast (List.ne_nil_of_mem hmem)⟩

/-- What was written last of a kind is what a rebuild gives it. -/
theorem rebuilt?_of_last (hlast : last? k entries = some e) (hplain : System.Plain e)
    (baseline : List BaselineItem) (l : Leaves) :
    (l.storeAll entries).rebuilt? baseline k = some e := by
  have hentry := loaded?_of_holds (holds_last (l := l) hlast) hplain.kind
  rw [(of_last? hlast).2, ← hplain.timer] at hentry
  unfold rebuilt?
  rw [hentry, ← (of_last? hlast).2]
  rfl

theorem rebuilt?_storeAll_of_ne (hkinds : ∀ d ∈ entries, d.kind ≠ k) (baseline : List BaselineItem)
    (l : Leaves) : (l.storeAll entries).rebuilt? baseline k = l.rebuilt? baseline k := by
  unfold rebuilt?
  rw [loaded?_storeAll_of_ne hkinds]

end Leaves

namespace System
open Host Scheduler

variable {x : System} {first : Nat} {baseline : List BaselineItem} {k : Kind} {e : Entry}

/-- What a rebuild would give a kind now. -/
def rebuilt? (baseline : List BaselineItem) (k : Kind) (x : System) : Option Entry :=
  x.host.settings.leaves.rebuilt? baseline k

/-- What a call writes is what a rebuild gives. -/
theorem rebuilt?_of_written (hw : Wired first x.scheduler x.host.bank) {op : Operation}
    (hok : SavesSucceed x.host (x.call op).host) (he : e ∈ op.written x.scheduler x.host)
    (baseline : List BaselineItem) : (x.call op).rebuilt? baseline e.kind = some e := by
  have hleaves := (step_wrote hw.owned.keyed (.call op)).leaves hok
  obtain ⟨d, hlast⟩ := Leaves.last?_of_mem he rfl
  obtain ⟨hd, hkind⟩ := Leaves.of_last? hlast
  have hsame : some d = some e := by
    rw [← Operation.asked?_of_mem_written hd, ← Operation.asked?_of_mem_written he, hkind]
  rw [← hsame, rebuilt?]
  change (x.call op).host.settings.leaves = _ at hleaves
  rw [hleaves]
  exact Leaves.rebuilt?_of_last hlast (plain_of_mem_call hd) baseline _

/-- A rebuild after a step gives a kind what the step has asked for, or the step has asked for
nothing new and a rebuild gives what it would have given before. -/
theorem rebuilt?_step (hw : Wired first x.scheduler x.host.bank) {m : Move}
    (hok : SavesSucceed x.host (x.step m).host) (baseline : List BaselineItem) (k : Kind) :
    (x.step m).rebuilt? baseline k = x.asked? k m ∨
      (x.step m).rebuilt? baseline k = x.rebuilt? baseline k ∧
        x.asked? k m = x.scheduler.fields? k := by
  have hleaves := (step_wrote hw.owned.keyed m).leaves hok
  by_cases hmem : ∃ e ∈ x.writtenBy m, e.kind = k
  · left
    obtain ⟨e, he, rfl⟩ := hmem
    cases m with
    | stopWhile | ambient => cases he
    | call op =>
        exact (rebuilt?_of_written hw hok he baseline).trans
          (Operation.asked?_of_mem_written he).symm
  · right
    have hnone : ∀ e ∈ x.writtenBy m, e.kind ≠ k := fun e he hek => hmem ⟨e, he, hek⟩
    refine ⟨?_, ?_⟩
    · unfold rebuilt?
      rw [hleaves, Leaves.rebuilt?_storeAll_of_ne hnone]
    · cases m with
      | stopWhile | ambient => rfl
      | call op => exact Operation.asked?_of_not_written hnone

/-- A rebuild would give a kind what it has now, or the kind has no entry since `failed`. -/
def Mirrored (baseline : List BaselineItem) (k : Kind) (failed : Prop) (x : System) : Prop :=
  x.scheduler.fields? k = x.rebuilt? baseline k ∨ x.scheduler.fields? k = none ∧ failed

theorem Mirrored.step {failed : Prop} (hx : Mirrored baseline k failed x)
    (hw : Wired first x.scheduler x.host.bank) {m : Move}
    (hok : SavesSucceed x.host (x.step m).host) :
    Mirrored baseline k (failed ∨ ¬ x.ArmsIn k m) (x.step m) := by
  have hentry := step_fields? k m x
  rcases rebuilt?_step hw hok baseline k with hnew | ⟨hold, hsame⟩
  · refine hentry.imp (fun hasked => ?_) fun ⟨hnone, hfailed⟩ => ⟨hnone, .inr hfailed⟩
    rw [hasked, hnew]
  · rcases hentry with hasked | ⟨hnone, hfailed⟩
    · rw [hsame] at hasked
      unfold Mirrored
      rw [hasked, hold]
      exact hx.imp_right fun ⟨hnone, hfailed⟩ => ⟨hnone, .inl hfailed⟩
    · exact .inr ⟨hnone, .inr hfailed⟩

theorem Mirrored.run {failed : Prop} (hx : Mirrored baseline k failed x)
    (hw : Wired first x.scheduler x.host.bank) {moves : List Move}
    (hok : SavesSucceed x.host (x.run moves).host) :
    Mirrored baseline k (failed ∨ ¬ x.ArmsAll k moves) (x.run moves) := by
  induction moves generalizing x failed with
  | nil => exact hx.imp_right fun ⟨hnone, hfailed⟩ => ⟨hnone, .inl hfailed⟩
  | cons m rest ih =>
      have hw' := wired_step hw m
      obtain ⟨hnow, hlater⟩ := hok.split (step_wrote hw.owned.keyed m) (run_wrote hw' rest)
      refine (ih (hx.step hw hnow) hw' hlater).imp_right fun ⟨hnone, hfailed⟩ => ⟨hnone, ?_⟩
      rcases hfailed with (hfailed | hfailed) | hfailed
      · exact .inl hfailed
      · exact .inr fun hall => hfailed hall.1
      · exact .inr fun hall => hfailed hall.2

/-- A new scheduler has what the store and the baseline say. -/
theorem mirrored_of_fresh {config : WorkerConfig} {h h₀ : Host} {s : Scheduler}
    (hfresh : Fresh baseline config h s h₀) (hload : h.settings.loadFault = none) (k : Kind) :
    Mirrored baseline k False ⟨s, h₀, []⟩ := by
  left
  have hget := get?_of_fresh hfresh hload k
  unfold rebuilt? Leaves.rebuilt? fields?
  dsimp only
  rw [hfresh.settings, ← hget]
  cases he : s.table.get? k with
  | none => rfl
  | some e =>
      obtain ⟨hkind, htimer⟩ := hfresh.entry he
      unfold Entry.written
      rw [Option.map_some, ← hkind, ← htimer]

/-- A rebuild after a set gives the kind that it names what the set has asked for. -/
theorem rebuilt?_of_set (hw : Wired first x.scheduler x.host.bank) {path : String} {value : Value}
    {field : ConfigField} (hparse : Request.parse path = .ok (k, field))
    (hok : SavesSucceed x.host (x.call (.set path value)).host) (baseline : List BaselineItem) :
    (x.call (.set path value)).rebuilt? baseline k =
      some (assign field value ((x.scheduler.fields? k).getD (Entry.blank k))) := by
  have hasked : assign field value ((x.scheduler.fields? k).getD (Entry.blank k)) =
      (assign field value ((x.scheduler.table.get? k).getD (Entry.blank k))).written k := by
    rw [assign_written]
    unfold fields?
    cases x.scheduler.table.get? k <;> rfl
  have hrequest : (Operation.set path value).request? x.scheduler = some _ :=
    setRequest_of_parse hparse value x.scheduler
  have hmem : (assign field value ((x.scheduler.table.get? k).getD (Entry.blank k))).written k ∈
      (Operation.set path value).written x.scheduler x.host := by
    rw [Operation.written_of_request hrequest]
    exact List.mem_singleton_self _
  rw [hasked]
  exact rebuilt?_of_written hw hok hmem baseline

/-- A set of one field of a kind leaves the other field of what a rebuild gives, in every history in
which no save fails, whatever becomes of the timers. The exception is a kind that has no entry when
the set comes, though a rebuild would give it one: its timer could not be armed, the set begins from
a blank entry, and that is what a rebuild then gives. -/
theorem other_field_of_set (hb : ∀ item ∈ baseline, item.kind ≠ .invalid) (config : WorkerConfig)
    {h : Host} (hload : h.settings.loadFault = none) :
    ∃ s h₀, Scheduler.create baseline config h = (.ok s, h₀) ∧
      ∀ (moves : List Move) (path : String) (value : Value) (k : Kind) (field : ConfigField),
      let x := System.run moves ⟨s, h₀, []⟩
      let y := x.call (.set path value)
      Request.parse path = .ok (k, field) → SavesSucceed h y.host →
      ∀ (config' : WorkerConfig) (before after : Host),
        before.settings.leaves = x.host.settings.leaves → before.settings.loadFault = none →
        after.settings.leaves = y.host.settings.leaves → after.settings.loadFault = none →
        ∃ old new h₁ h₂, Scheduler.create baseline config' before = (.ok old, h₁) ∧
          Scheduler.create baseline config' after = (.ok new, h₂) ∧
          ∀ e, old.table.get? k = some e → ∃ e', new.table.get? k = some e' ∧
            (x.scheduler.table.get? k ≠ none →
              (field ≠ .enable → e'.enabled = e.enabled) ∧
              (field ≠ .periodSeconds → e'.period = e.period)) ∧
            (x.scheduler.table.get? k = none →
              e' = assign field value (Entry.blank k) ∧ ¬ ArmsAll k moves ⟨s, h₀, []⟩) := by
  obtain ⟨s, h₀, hcreate, hfresh⟩ := create_fresh hb config h
  refine ⟨s, h₀, hcreate, fun moves path value k field hparse hok config' before after hbefore hload₁
    hafter hload₂ => ?_⟩
  have hw₀ : Wired h₀.bank.length s h₀.bank := hfresh.wired
  have hw := wired_run (x := ⟨s, h₀, []⟩) hw₀ moves
  have hrun := (Wrote.ofSettings hfresh.settings).trans (run_wrote (x := ⟨s, h₀, []⟩) hw₀ moves)
  obtain ⟨hbegin, hnow⟩ := hok.split hrun (perform_wrote (.set path value) hw.owned.keyed _)
  have hmirror := (mirrored_of_fresh hfresh hload k).run hw₀ (hbegin.split (.ofSettings hfresh.settings)
    (run_wrote (x := ⟨s, h₀, []⟩) hw₀ moves)).2
  obtain ⟨old, h₁, hcreate₁, hfresh₁⟩ := create_fresh hb config' before
  obtain ⟨new, h₂, hcreate₂, hfresh₂⟩ := create_fresh hb config' after
  refine ⟨old, new, h₁, h₂, hcreate₁, hcreate₂, fun e he => ?_⟩
  have hold : (run moves ⟨s, h₀, []⟩).rebuilt? baseline k = some e := by
    rw [get?_of_fresh hfresh₁ hload₁, hbefore] at he
    exact he
  have hnew := get?_of_fresh hfresh₂ hload₂ k
  rw [hafter] at hnew
  refine ⟨_, hnew.trans (rebuilt?_of_set hw hparse hnow baseline), fun hsome => ?_, fun hnone => ?_⟩
  · have hentry : (run moves ⟨s, h₀, []⟩).scheduler.fields? k = some e := by
      rcases hmirror with hsame | ⟨hnone, -⟩
      · rw [hsame, hold]
      · exact (hsome (Option.map_eq_none_iff.mp hnone)).elim
    rw [hentry]
    exact ⟨fun hfield => assign_enabled hfield value e, fun hfield => assign_period hfield value e⟩
  · have hentry : (run moves ⟨s, h₀, []⟩).scheduler.fields? k = none :=
      Option.map_eq_none_iff.mpr hnone
    refine ⟨by rw [hentry]; rfl, ?_⟩
    rcases hmirror with hsame | ⟨-, hfailed⟩
    · rw [hentry, hold] at hsame
      cases hsame
    · exact hfailed.resolve_left id

/-- The flag of a kind survives a period that is not positive, also if the timer cannot be stopped. -/
theorem flag_kept_by_period :
    let h : Host := { timers := { stopFault := fun _ => some .stopFailed } }
    let period := "/request/io.edgehog.devicemanager.SystemStatus/periodSeconds"
    (∀ item ∈ [BaselineItem.mk .systemStatus 60], item.kind ≠ .invalid) ∧
      h.settings.loadFault = none ∧ Request.parse period = .ok (.systemStatus, .periodSeconds) ∧
      ∃ s h₀, Scheduler.create [⟨.systemStatus, 60⟩] {} h = (.ok s, h₀) ∧
        let x := System.run [.call (.start 0)] ⟨s, h₀, []⟩
        let y := x.call (.set period (.integer (-5)))
        SavesSucceed h y.host ∧ x.host.settings.loadFault = none ∧
          y.host.settings.loadFault = none ∧
          ∃ new h₁, Scheduler.create [⟨.systemStatus, 60⟩] {} y.host = (.ok new, h₁) ∧
            ∃ e, new.table.get? .systemStatus = some e ∧ e.enabled = true := by
  intro h period
  have hb : ∀ item ∈ [BaselineItem.mk .systemStatus 60], item.kind ≠ .invalid := by decide
  have hparse : Request.parse period = .ok (.systemStatus, .periodSeconds) := by decide +kernel
  refine ⟨hb, rfl, hparse, ?_⟩
  obtain ⟨s, h₀, hcreate, hrun⟩ := other_field_of_set hb {} (h := h) rfl
  refine ⟨s, h₀, hcreate, ?_⟩
  intro x y
  have hok : SavesSucceed h y.host := fun _ _ _ => rfl
  have hfresh := fresh_of_create hcreate
  have hload : h₀.settings.loadFault = none := congrArg SettingsStore.loadFault hfresh.settings
  have hloads : x.host.settings.loadFault = none ∧ y.host.settings.loadFault = none :=
    ⟨(run_wrote (x := ⟨s, h₀, []⟩) hfresh.wired [.call (.start 0)]).loadFault.trans hload,
      (run_wrote (x := ⟨s, h₀, []⟩) hfresh.wired [.call (.start 0),
        .call (.set period (.integer (-5)))]).loadFault.trans hload⟩
  obtain ⟨old, new, h₁, h₂, hcreate₁, hcreate₂, hlaw⟩ :=
    hrun [.call (.start 0)] period (.integer (-5)) .systemStatus .periodSeconds hparse hok {} _ _
      rfl hloads.1 rfl hloads.2
  have hrebuilt : (Scheduler.create [⟨.systemStatus, 60⟩] {} x.host).1.toOption.bind
      (fun old => old.table.get? .systemStatus) = some ⟨.systemStatus, 60, true, none⟩ := by
    cases hcreate
    decide +kernel
  have hentry : x.scheduler.table.get? .systemStatus ≠ none := by
    cases hcreate
    decide
  rw [show Scheduler.create [⟨.systemStatus, 60⟩] {} x.host = _ from hcreate₁] at hrebuilt
  obtain ⟨e, he, hkept, -⟩ := hlaw _ hrebuilt
  exact ⟨hok, hloads.1, hloads.2, new, h₂, hcreate₂, e, he, (hkept hentry).1 (by decide)⟩

/-- A period that the timer refuses costs a kind its entry, and the next period that is sent costs it
the flag that the store still had. -/
theorem flag_lost_after_refused_period :
    let h : Host := { timers := { backend := .threaded } }
    let period := "/request/io.edgehog.devicemanager.SystemStatus/periodSeconds"
    Request.parse period = .ok (.systemStatus, .periodSeconds) ∧
      ∃ s h₀, Scheduler.create [⟨.systemStatus, 60⟩] {} h = (.ok s, h₀) ∧
        let x := System.run [.call (.start 0),
          .call (.set period (.longInteger 9223372036854775807))] ⟨s, h₀, []⟩
        let y := x.call (.set period (.longInteger 3600))
        SavesSucceed h y.host ∧
          ∃ old new h₁ h₂, Scheduler.create [⟨.systemStatus, 60⟩] {} x.host = (.ok old, h₁) ∧
            Scheduler.create [⟨.systemStatus, 60⟩] {} y.host = (.ok new, h₂) ∧
            old.table.get? .systemStatus = some ⟨.systemStatus, 9223372036854775807, true, none⟩ ∧
            new.table.get? .systemStatus = some ⟨.systemStatus, 3600, false, none⟩ ∧
            ¬ (∀ e, old.table.get? .systemStatus = some e →
              ∃ e', new.table.get? .systemStatus = some e' ∧ e'.enabled = e.enabled) := by
  intro h period
  have hb : ∀ item ∈ [BaselineItem.mk .systemStatus 60], item.kind ≠ .invalid := by decide
  obtain ⟨s, h₀, hcreate, -⟩ := create_fresh hb {} h
  refine ⟨by decide +kernel, s, h₀, hcreate, ?_⟩
  intro x y
  obtain ⟨old, h₁, hcreate₁, -⟩ := create_fresh hb {} x.host
  obtain ⟨new, h₂, hcreate₂, -⟩ := create_fresh hb {} y.host
  have hentries : old.table.get? .systemStatus =
        some ⟨.systemStatus, 9223372036854775807, true, none⟩ ∧
      new.table.get? .systemStatus = some ⟨.systemStatus, 3600, false, none⟩ := by
    cases hcreate
    cases hcreate₁
    cases hcreate₂
    decide +kernel
  refine ⟨fun _ _ _ => rfl, old, new, h₁, h₂, hcreate₁, hcreate₂, hentries.1, hentries.2, ?_⟩
  intro hlaw
  obtain ⟨e', he', henabled⟩ := hlaw _ hentries.1
  rw [hentries.2] at he'
  cases he'
  cases henabled

end System
end TelemetryAgent
