import Mathlib.Data.List.Induction
import TelemetryAgent.Proofs.Schedule.Writing

/-!
# Rebuilding from the store

A scheduler that is made from what another one has left in the store has the entries that were
written last, and for the kinds of which nothing was written what the first one had to begin with.
-/
namespace TelemetryAgent

/-! ## The last entry that was written -/

namespace Leaves

variable {l : Leaves} {entries : List Entry} {e : Entry} {k : Kind}

def last? (k : Kind) (entries : List Entry) : Option Entry :=
  (entries.filter fun e => e.kind == k).getLast?

theorem of_last? (hlast : last? k entries = some e) : e ∈ entries ∧ e.kind = k := by
  have hmem := List.mem_of_getLast? hlast
  obtain ⟨hmem, hkind⟩ := List.mem_filter.mp hmem
  exact ⟨hmem, beq_iff_eq.mp hkind⟩

theorem holds_last (hlast : last? k entries = some e) : (l.storeAll entries).Holds e := by
  induction entries using List.reverseRecOn with
  | nil => cases hlast
  | append_singleton earlier d ih =>
      have hstore : l.storeAll (earlier ++ [d]) = (l.storeAll earlier).store d := by
        unfold storeAll
        rw [List.foldl_append]
        rfl
      rw [hstore]
      unfold last? at hlast ih
      rw [List.filter_append, List.filter_singleton] at hlast
      by_cases hd : d.kind = k
      · rw [beq_iff_eq.mpr hd, cond_true, List.getLast?_concat] at hlast
        cases hlast
        exact holds_store e _
      · rw [beq_eq_false_iff_ne.mpr hd, cond_false, List.append_nil] at hlast
        have hkind := (of_last? hlast).2
        refine (ih hlast).store_of_ne ?_
        rw [hkind]
        exact Ne.symm hd

theorem loaded?_storeAll_of_ne (hkinds : ∀ d ∈ entries, d.kind ≠ k) (l : Leaves) :
    (l.storeAll entries).loaded? k = l.loaded? k := by
  induction entries generalizing l with
  | nil => rfl
  | cons d rest ih =>
      have hrest := ih (fun e he => hkinds e (List.mem_cons_of_mem d he)) (l.store d)
      exact hrest.trans (loaded?_store_of_ne (Ne.symm (hkinds d List.mem_cons_self)) l)

end Leaves

/-! ## Runs -/

namespace System
open Host Scheduler

variable {x : System} {first : Nat}

def writtenBy (m : Move) (x : System) : List Entry :=
  match m with
  | .call op => op.written x.scheduler x.host
  | .stopWhile _ _ => []
  | .ambient _ => []

def written : List Move → System → List Entry
  | [], _ => []
  | m :: rest, x => x.writtenBy m ++ written rest (x.step m)

theorem step_wrote (hkeyed : x.scheduler.Keyed) (m : Move) :
    Wrote (x.writtenBy m) x.host (x.step m).host := by
  cases m with
  | call op => exact perform_wrote op hkeyed x.host
  | stopWhile timeoutMillis meanwhile =>
      have hhappen := (happenAll_offstage meanwhile x.halted).settings
      have hawaiting : Wrote [] x.host (x.awaiting meanwhile).host :=
        (halt_wrote x.scheduler x.host).trans (.ofSettings hhappen)
      exact hawaiting.trans (.ofSettings (await_work timeoutMillis _ _).settings)
  | ambient a => exact .ofSettings (happen_offstage a x).settings

theorem run_wrote (hw : Wired first x.scheduler x.host.bank) (moves : List Move) :
    Wrote (written moves x) x.host (x.run moves).host := by
  induction moves generalizing x with
  | nil => exact .ofSettings rfl
  | cons m rest ih =>
      exact (step_wrote hw.owned.keyed m).trans (ih (wired_step hw m))

/-- What is written is an entry of a kind that can be scheduled, without a timer. -/
structure Plain (e : Entry) : Prop where
  kind : e.kind ≠ .invalid
  timer : e.timer = none

theorem plain_written {k : Kind} (hk : k ≠ .invalid) (e : Entry) : Plain (e.written k) := ⟨hk, rfl⟩

theorem plain_of_mem_call {op : Operation} {s : Scheduler} {h : Host} {e : Entry}
    (hmem : e ∈ op.written s h) : Plain e := by
  have hentry : ∀ k, e ∈ s.entryWritten k → Plain e := by
    intro k hmem
    obtain ⟨d, hd, rfl⟩ := Option.map_eq_some_iff.mp (Option.mem_toList.mp hmem)
    exact plain_written (Table.ne_invalid_of_get? hd) d
  cases op with
  | start publisher =>
      unfold Operation.written at hmem
      dsimp only at hmem
      split at hmem
      · obtain ⟨k, -, hwanted⟩ := List.mem_filterMap.mp hmem
        obtain ⟨d, hd, rfl⟩ := Option.map_eq_some_iff.mp hwanted
        exact plain_written (Table.ne_invalid_of_get? (Option.filter_eq_some_iff.mp hd).1) d
      · cases hmem
  | stop => cases hmem
  | schedule k => exact hentry k hmem
  | unschedule k => exact hentry k hmem
  | set path value =>
      obtain ⟨r, hr, rfl⟩ := Option.map_eq_some_iff.mp (Option.mem_toList.mp hmem)
      exact plain_written (requested_of_set hr).schedulable r.2
  | unset path =>
      obtain ⟨r, hr, rfl⟩ := Option.map_eq_some_iff.mp (Option.mem_toList.mp hmem)
      exact plain_written (requested_of_unset hr).schedulable r.2

theorem plain_of_mem {moves : List Move} {e : Entry} (hmem : e ∈ written moves x) : Plain e := by
  induction moves generalizing x with
  | nil => cases hmem
  | cons m rest ih =>
      rcases List.mem_append.mp hmem with hnow | hlater
      · cases m with
        | call op => exact plain_of_mem_call hnow
        | stopWhile | ambient => cases hnow
      · exact ih hlater

/-- A new scheduler has for a kind what the leaves say of it, and else what the baseline says. -/
theorem get?_of_fresh {baseline : List BaselineItem} {config : WorkerConfig} {h h₀ : Host}
    {s : Scheduler} (hfresh : Fresh baseline config h s h₀) (hload : h.settings.loadFault = none)
    (k : Kind) : s.table.get? k =
      (h.settings.leaves.loaded? k).or (Table.ofBaseline baseline k) := by
  rw [hfresh.table, Table.visited_of_sound hload]
  rfl

/-- After a run in which no save has failed, a scheduler that is made from what the store then holds
has the entries that were written last. Of the kinds of which none was written it has what the
first one began with, if it is made from the same baseline. -/
theorem rebuilt_of_run {baseline : List BaselineItem}
    (hb : ∀ item ∈ baseline, item.kind ≠ .invalid) (config : WorkerConfig) {h : Host}
    (hload : h.settings.loadFault = none) :
    ∃ s h₀, Scheduler.create baseline config h = (.ok s, h₀) ∧ ∀ moves : List Move,
      let x := System.run moves ⟨s, h₀, []⟩
      SavesSucceed h x.host →
      ∀ (baseline' : List BaselineItem) (config' : WorkerConfig) (h' : Host),
        (∀ item ∈ baseline', item.kind ≠ .invalid) →
        h'.settings.leaves = x.host.settings.leaves → h'.settings.loadFault = none →
        ∃ s' h₁, Scheduler.create baseline' config' h' = (.ok s', h₁) ∧
          (∀ k e, Leaves.last? k (written moves ⟨s, h₀, []⟩) = some e →
            s'.table.get? k = some e) ∧
          ∀ k, (∀ e ∈ written moves ⟨s, h₀, []⟩, e.kind ≠ k) → baseline' = baseline →
            s'.table.get? k = s.table.get? k := by
  obtain ⟨s, h₀, hcreate, hfresh⟩ := create_fresh hb config h
  refine ⟨s, h₀, hcreate, fun moves hok baseline' config' h' hb' hleaves hload' => ?_⟩
  have hw : Wired h₀.bank.length s h₀.bank := hfresh.wired
  have hrun := (Wrote.ofSettings hfresh.settings).trans (run_wrote (x := ⟨s, h₀, []⟩) hw moves)
  have hstored : h'.settings.leaves =
      h.settings.leaves.storeAll (written moves ⟨s, h₀, []⟩) := hleaves.trans (hrun.leaves hok)
  obtain ⟨s', h₁, hcreate', hfresh'⟩ := create_fresh hb' config' h'
  refine ⟨s', h₁, hcreate', fun k e hlast => ?_, fun k hnone hsame => ?_⟩
  · obtain ⟨hmem, hkind⟩ := Leaves.of_last? hlast
    have hplain := plain_of_mem hmem
    have hentry := Leaves.loaded?_of_holds (Leaves.holds_last (l := h.settings.leaves) hlast) hplain.kind
    rw [hkind, ← hplain.timer, ← hstored] at hentry
    rw [get?_of_fresh hfresh' hload', hentry, ← hkind]
    rfl
  · rw [get?_of_fresh hfresh' hload', get?_of_fresh hfresh hload, hstored, hsame,
      Leaves.loaded?_storeAll_of_ne hnone]

/-- An entry that came from spellings of its ordinal, next to a leaf that cannot be read, is lost
when its timer cannot be created, and is there again after a rebuild without a baseline. -/
theorem rebuilt_after_drop :
    let h : Host :=
      { settings :=
          { leaves := Leaves.ofList [("edgehog_device/telemetry/+3/enable", [0]),
              ("edgehog_device/telemetry/03/periods", [14]),
              ("edgehog_device/telemetry/3/periods", [128])] }
        timers := { createFault := fun _ => some .startFailed } }
    (∀ item ∈ [BaselineItem.mk .systemStatus 10], item.kind ≠ .invalid) ∧
      h.settings.loadFault = none ∧
      ∃ s h₀, Scheduler.create [⟨.systemStatus, 10⟩] {} h = (.ok s, h₀) ∧
        let x := System.run [.call (.start 0), .call (.schedule .systemStatus)] ⟨s, h₀, []⟩
        SavesSucceed h x.host ∧ x.scheduler.table.get? .systemStatus = none ∧
          ∃ s' h₁, Scheduler.create [] {} x.host = (.ok s', h₁) ∧
            s'.table.get? .systemStatus = some ⟨.systemStatus, 7, false, none⟩ := by
  intro h
  have hb : ∀ item ∈ [BaselineItem.mk .systemStatus 10], item.kind ≠ .invalid := by decide
  refine ⟨hb, rfl, ?_⟩
  obtain ⟨s, h₀, hcreate, hrun⟩ := rebuilt_of_run hb {} (h := h) rfl
  refine ⟨s, h₀, hcreate, ?_⟩
  have hok : SavesSucceed h (System.run [.call (.start 0), .call (.schedule .systemStatus)]
      ⟨s, h₀, []⟩).host := fun _ _ _ => rfl
  have hfresh := fresh_of_create hcreate
  have hload := (run_wrote (x := ⟨s, h₀, []⟩) hfresh.wired
    [.call (.start 0), .call (.schedule .systemStatus)]).loadFault
  have hrebuilt := hrun [.call (.start 0), .call (.schedule .systemStatus)] hok [] {} _
    (fun _ hmem => nomatch hmem) rfl (hload.trans (congrArg SettingsStore.loadFault hfresh.settings))
  obtain ⟨s', h₁, hcreate', hlast, -⟩ := hrebuilt
  have hmoves : (System.run [.call (.start 0), .call (.schedule .systemStatus)]
        ⟨s, h₀, []⟩).scheduler.table.get? .systemStatus = none ∧
      Leaves.last? .systemStatus (written [.call (.start 0), .call (.schedule .systemStatus)]
        ⟨s, h₀, []⟩) = some ⟨.systemStatus, 7, false, none⟩ := by
    cases hcreate
    decide +kernel
  exact ⟨hok, hmoves.1, s', h₁, hcreate', hlast .systemStatus _ hmoves.2⟩

end System
end TelemetryAgent
