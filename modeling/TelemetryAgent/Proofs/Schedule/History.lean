import TelemetryAgent.Proofs.Schedule.Fields

/-!
# The history of a kind

The entry of a kind as a function of what a run has asked for. As long as the timer of the kind is
armed whenever it is to be, each field is what the last request for it says, and what it was to begin
with if there was none. Everything else that a run does leaves both fields alone. A kind that has no
entry gets a blank one with the first set of any of its fields.
-/
namespace TelemetryAgent

namespace Scheduler

theorem restore_eq (field : ConfigField) (period : Option Int64) (e : Entry) :
    restore field period e =
      { e with
        period := (if field = .periodSeconds then some (period.getD (-1)) else none).getD e.period
        enabled := (if field = .enable then some period.isSome else none).getD e.enabled } := by
  cases field <;> rfl

end Scheduler

/-! ## What a call says of a kind -/

namespace Operation
open Scheduler

variable {op : Operation} {s : Scheduler} {k : Kind} {e : Entry} {baseline : List BaselineItem}

def Sets (k : Kind) (op : Operation) : Prop :=
  ∃ path value field, op = .set path value ∧ Request.parse path = .ok (k, field)

def Unsets (k : Kind) (op : Operation) : Prop :=
  ∃ path field, op = .unset path ∧ Request.parse path = .ok (k, field)

/-- What a call says that the period of a kind is to be. A set says it with an integer of either
width, and an unset goes back to the first line of the baseline for the kind. -/
def period? (baseline : List BaselineItem) (k : Kind) : Operation → Option Int64
  | set path (.integer i) =>
    if Request.parse path = .ok (k, .periodSeconds) then some (.ofInt i.toInt) else none
  | set path (.longInteger i) =>
    if Request.parse path = .ok (k, .periodSeconds) then some i else none
  | unset path =>
    if Request.parse path = .ok (k, .periodSeconds) then
      some (((baseline.find? (·.kind == k)).map (·.period)).getD (-1))
    else none
  | _ => none

/-- What a call says that the flag of a kind is to be. A set says it with a truth value only. -/
def flag? (baseline : List BaselineItem) (k : Kind) : Operation → Option Bool
  | set path (.boolean b) => if Request.parse path = .ok (k, .enable) then some b else none
  | unset path =>
    if Request.parse path = .ok (k, .enable) then some (baseline.any (·.kind == k)) else none
  | _ => none

/-- An entry of a kind with what a call says of its fields. -/
def revise (baseline : List BaselineItem) (k : Kind) (op : Operation) (e : Entry) : Entry :=
  ⟨k, (op.period? baseline k).getD e.period, (op.flag? baseline k).getD e.enabled, none⟩

theorem named_iff {path : String} {field field' : ConfigField}
    (hparse : Request.parse path = .ok (k, field)) :
    Request.parse path = .ok (k, field') ↔ field = field' := by
  rw [hparse, Except.ok.injEq, Prod.mk.injEq]
  exact ⟨And.right, fun heq => ⟨rfl, heq⟩⟩

/-- A set does to an entry what it says, by the type of its value. -/
theorem written_assign {path : String} {value : Value} {field : ConfigField}
    (hparse : Request.parse path = .ok (k, field)) (e : Entry) :
    (assign field value e).written k = (Operation.set path value).revise baseline k e := by
  cases value with
  | boolean b =>
      simp only [revise, period?, flag?, named_iff hparse]
      cases field <;> rfl
  | integer i =>
      simp only [revise, period?, flag?, named_iff hparse, Int64.ofInt_int32ToInt]
      cases field <;> rfl
  | longInteger i =>
      simp only [revise, period?, flag?, named_iff hparse]
      cases field <;> rfl
  | double | text => cases field <;> rfl

theorem written_restore {path : String} {field : ConfigField}
    (hparse : Request.parse path = .ok (k, field)) (hbaseline : s.baseline = baseline) (e : Entry) :
    (restore field (s.baselinePeriod? k) e).written k =
      (Operation.unset path).revise baseline k e := by
  unfold revise period? flag? Entry.written baselinePeriod?
  dsimp only
  rw [restore_eq, hparse, hbaseline, Option.isSome_map, List.isSome_find?]
  simp only [Except.ok.injEq, Prod.mk.injEq, true_and]

theorem asked?_of_sets (hsets : op.Sets k) (baseline : List BaselineItem) (s : Scheduler) :
    op.asked? k s = some (op.revise baseline k ((s.fields? k).getD (Entry.blank k))) := by
  obtain ⟨path, value, field, rfl, hparse⟩ := hsets
  have hrequest : (Operation.set path value).request? s = some _ :=
    setRequest_of_parse hparse value s
  rw [asked?_of_request hrequest, if_pos rfl, written_assign hparse]
  unfold revise fields?
  cases s.table.get? k <;> rfl

theorem asked?_of_unsets (hunsets : op.Unsets k) (hbaseline : s.baseline = baseline) :
    op.asked? k s = (s.fields? k).map (op.revise baseline k) := by
  obtain ⟨path, field, rfl, hparse⟩ := hunsets
  have hrequest : (Operation.unset path).request? s =
      (s.table.get? k).map fun e => (k, restore field (s.baselinePeriod? k) e) :=
    unsetRequest_of_parse hparse s
  unfold fields?
  cases he : s.table.get? k with
  | none =>
      rw [he] at hrequest
      rw [asked?_of_no_request hrequest]
      unfold fields?
      rw [he]
      rfl
  | some e =>
      rw [he] at hrequest
      rw [asked?_of_request hrequest, if_pos rfl, written_restore hparse hbaseline]
      rfl

theorem names_of_request {r : Kind × Entry} (hr : op.request? s = some r) :
    op.Sets r.1 ∨ op.Unsets r.1 := by
  cases op with
  | start | stop | schedule | unschedule => cases hr
  | set path value =>
      change s.setRequest path value = some r at hr
      unfold setRequest at hr
      split at hr
      · cases hr
      · rename_i j field hparse
        obtain ⟨e, -, rfl⟩ := Option.map_eq_some_iff.mp hr
        exact .inl ⟨path, value, field, rfl, hparse⟩
  | unset path =>
      change s.unsetRequest path = some r at hr
      unfold unsetRequest at hr
      split at hr
      · cases hr
      · rename_i j field hparse
        obtain ⟨e, -, rfl⟩ := Option.map_eq_some_iff.mp hr
        exact .inr ⟨path, field, rfl, hparse⟩

/-- A call that is not a request for a kind asks nothing of it. -/
theorem asked?_of_other (hsets : ¬ op.Sets k) (hunsets : ¬ op.Unsets k) (s : Scheduler) :
    op.asked? k s = s.fields? k := by
  cases hr : op.request? s with
  | none => exact asked?_of_no_request hr
  | some r =>
      rw [asked?_of_request hr, if_neg]
      rintro rfl
      exact (names_of_request hr).elim hsets hunsets

theorem revise_of_other (hsets : ¬ op.Sets k) (hunsets : ¬ op.Unsets k)
    (baseline : List BaselineItem) (e : Entry) : op.revise baseline k e = e.written k := by
  have hnone : op.period? baseline k = none ∧ op.flag? baseline k = none := by
    cases op with
    | start | stop | schedule | unschedule => exact ⟨rfl, rfl⟩
    | set path value =>
        have hother : ∀ field, Request.parse path ≠ .ok (k, field) := fun field hparse =>
          hsets ⟨path, value, field, rfl, hparse⟩
        cases value with
        | boolean => exact ⟨rfl, if_neg (hother _)⟩
        | integer | longInteger => exact ⟨if_neg (hother _), rfl⟩
        | double | text => exact ⟨rfl, rfl⟩
    | unset path =>
        exact ⟨if_neg fun hparse => hunsets ⟨path, _, rfl, hparse⟩,
          if_neg fun hparse => hunsets ⟨path, _, rfl, hparse⟩⟩
  unfold revise
  rw [hnone.1, hnone.2]
  rfl

/-- An entry that is there is revised by every call, in what the call says of it. -/
theorem asked?_of_some (he : s.fields? k = some e) (hbaseline : s.baseline = baseline) :
    op.asked? k s = some (op.revise baseline k e) := by
  by_cases hsets : op.Sets k
  · rw [asked?_of_sets hsets baseline, he, Option.getD_some]
  · by_cases hunsets : op.Unsets k
    · rw [asked?_of_unsets hunsets hbaseline, he, Option.map_some]
    · rw [asked?_of_other hsets hunsets, he, revise_of_other hsets hunsets]
      obtain ⟨d, -, rfl⟩ := Option.map_eq_some_iff.mp he
      rfl

/-- Only a set gives an entry to a kind that has none. -/
theorem asked?_of_none (he : s.fields? k = none) (hsets : ¬ op.Sets k) : op.asked? k s = none := by
  by_cases hunsets : op.Unsets k
  · rw [asked?_of_unsets hunsets rfl, he, Option.map_none]
  · rw [asked?_of_other hsets hunsets, he]

/-! ## Periods that are not positive -/

theorem invalidPeriod_of_apply {d : Entry} {h : Host} (hd : s.table.get? k = some d)
    (he : (s.apply k h).2.1.fields? k = some e) (henabled : e.enabled = true)
    (hperiod : e.period ≤ 0) : (s.apply k h).1 = .error (.invalidPeriod e.period) := by
  have hk := Table.ne_invalid_of_get? hd
  cases hon : d.enabled with
  | false =>
      rw [apply_of_disabled h hd hon, unschedule_of_some h hd, fields?_setEntry hk, if_pos rfl] at he
      cases he
      exact absurd (hon.symm.trans henabled) Bool.false_ne_true
  | true =>
      rw [apply_of_enabled h hd hon] at he ⊢
      have hcases := schedule_cases (h := h) hd
      generalize (s.schedule k h).1 = r, (s.schedule k h).2.1 = s',
        (s.schedule k h).2.2.bank = bank' at hcases he ⊢
      cases hcases with
      | refused hrefused =>
          rw [fields?_setEntry hk, if_pos rfl] at he
          cases he
          rfl
      | written hpositive =>
          unfold fields? at he
          rw [hd] at he
          cases he
          exact absurd hperiod (Int64.not_le.mpr hpositive)
      | armed hpositive =>
          rw [fields?_setEntry hk, if_pos rfl] at he
          cases he
          exact absurd hperiod (Int64.not_le.mpr hpositive)
      | dropped =>
          rw [fields?_setEntry hk, if_pos rfl] at he
          cases he

/-- A request that leaves a kind enabled with a period that is not positive fails for it, though the
entry has the period. -/
theorem invalidPeriod_of_request (hnames : op.Sets k ∨ op.Unsets k) {h : Host}
    (he : (op.perform s h).2.1.fields? k = some e) (henabled : e.enabled = true)
    (hperiod : e.period ≤ 0) : (op.perform s h).1 = .error (.invalidPeriod e.period) := by
  have happly : ∀ d, op.perform s h = (s.setEntry k (some d)).apply k h → k ≠ .invalid →
      (op.perform s h).1 = .error (.invalidPeriod e.period) := fun d hperform hk => by
    rw [hperform] at he ⊢
    have hd : (s.setEntry k (some d)).table.get? k = some d := by
      rw [get?_setEntry hk, if_pos rfl]
    exact invalidPeriod_of_apply hd he henabled hperiod
  rcases hnames with ⟨path, value, field, rfl, hparse⟩ | ⟨path, field, rfl, hparse⟩
  · exact happly _ (set_of_request h (setRequest_of_parse hparse value s))
      (Request.kind_of_parse hparse)
  · have hrequest := unsetRequest_of_parse hparse s
    cases hd : s.table.get? k with
    | none =>
        rw [hd] at hrequest
        obtain ⟨f, h', hunset, -⟩ := unset_of_no_request h hrequest
        change (s.unset path h).2.1.fields? k = some e at he
        rw [hunset] at he
        unfold fields? at he
        rw [hd] at he
        cases he
    | some d =>
        rw [hd] at hrequest
        exact happly _ (unset_of_request h hrequest) (Request.kind_of_parse hparse)

end Operation

/-! ## Runs -/

def Move.period? (baseline : List BaselineItem) (k : Kind) : Move → Option Int64
  | call op => op.period? baseline k
  | stopWhile _ _ => none
  | ambient _ => none

def Move.flag? (baseline : List BaselineItem) (k : Kind) : Move → Option Bool
  | call op => op.flag? baseline k
  | stopWhile _ _ => none
  | ambient _ => none

def Move.Sets (k : Kind) (m : Move) : Prop := ∃ op, m = .call op ∧ op.Sets k

/-- The last word that some moves say, and `old` if they say none. -/
def latest {α : Type} (word : Move → Option α) (moves : List Move) (old : α) : α :=
  (moves.filterMap word).getLast?.getD old

theorem latest_cons {α : Type} (word : Move → Option α) (m : Move) (rest : List Move) (old : α) :
    latest word (m :: rest) old = latest word rest ((word m).getD old) := by
  unfold latest
  cases hm : word m with
  | none => rw [List.filterMap_cons_none hm, Option.getD_none]
  | some a =>
      rw [List.filterMap_cons_some hm, List.getLast?_cons, Option.getD_some, Option.getD_some]

namespace System
open Scheduler Host

variable {x : System} {k : Kind} {e : Entry} {baseline : List BaselineItem} {moves : List Move}

/-- An entry of a kind with the last words of some moves on its fields. -/
def revised (baseline : List BaselineItem) (k : Kind) (moves : List Move) (e : Entry) : Entry :=
  ⟨k, latest (Move.period? baseline k) moves e.period, latest (Move.flag? baseline k) moves e.enabled,
    none⟩

theorem revised_cons (m : Move) (rest : List Move) (e : Entry) :
    revised baseline k (m :: rest) e = revised baseline k rest
      ⟨k, (m.period? baseline k).getD e.period, (m.flag? baseline k).getD e.enabled, none⟩ := by
  unfold revised
  rw [latest_cons, latest_cons]

theorem asked?_of_some {m : Move} (he : x.scheduler.fields? k = some e)
    (hbaseline : x.scheduler.baseline = baseline) : x.asked? k m =
      some ⟨k, (m.period? baseline k).getD e.period, (m.flag? baseline k).getD e.enabled, none⟩ := by
  cases m with
  | call op => exact Operation.asked?_of_some he hbaseline
  | stopWhile | ambient =>
      refine Eq.trans he ?_
      obtain ⟨d, -, rfl⟩ := Option.map_eq_some_iff.mp he
      rfl

theorem asked?_of_none {m : Move} (he : x.scheduler.fields? k = none) (hsets : ¬ m.Sets k) :
    x.asked? k m = none := by
  cases m with
  | call op => exact Operation.asked?_of_none he fun hop => hsets ⟨op, rfl, hop⟩
  | stopWhile | ambient => exact he

/-- The fields of an entry that is there follow the last words on them. -/
theorem fields?_run_of_some (he : x.scheduler.fields? k = some e)
    (hbaseline : x.scheduler.baseline = baseline) (harms : x.ArmsAll k moves) :
    (x.run moves).scheduler.fields? k = some (revised baseline k moves e) := by
  induction moves generalizing x e with
  | nil =>
      obtain ⟨d, -, rfl⟩ := Option.map_eq_some_iff.mp he
      exact he
  | cons m rest ih =>
      obtain ⟨hnow, hlater⟩ := harms
      rw [revised_cons]
      refine ih ?_ ((step_baseline m x).trans hbaseline) hlater
      rw [fields?_of_armsIn hnow, asked?_of_some he hbaseline]

/-- A kind without an entry has none until the first set of one of its fields. -/
theorem fields?_run_of_none (he : x.scheduler.fields? k = none) (hsets : ∀ m ∈ moves, ¬ m.Sets k) :
    (x.run moves).scheduler.fields? k = none := by
  refine run_induction (p := fun y => y.scheduler.fields? k = none) he fun m hm y hy => ?_
  rcases step_fields? k m y with hasked | ⟨hnone, -⟩
  · rw [hasked, asked?_of_none hy (hsets m hm)]
  · exact hnone

theorem run_append (moves later : List Move) (x : System) :
    x.run (moves ++ later) = (x.run moves).run later := List.foldl_append

theorem armsAll_append {later : List Move} (harms : x.ArmsAll k (moves ++ later)) :
    (x.run moves).ArmsAll k later := by
  induction moves generalizing x with
  | nil => exact harms
  | cons m rest ih => exact ih harms.2

/-- The fields of a kind that has no entry to begin with follow the last words from the first set on,
which begins with a blank entry. -/
theorem fields?_run_of_set (he : x.scheduler.fields? k = none)
    (hbaseline : x.scheduler.baseline = baseline) {before after : List Move} {m : Move}
    (harms : x.ArmsAll k (before ++ m :: after)) (hbefore : ∀ n ∈ before, ¬ n.Sets k)
    (hm : m.Sets k) : (x.run (before ++ m :: after)).scheduler.fields? k =
      some (revised baseline k (m :: after) (Entry.blank k)) := by
  have hnone := fields?_run_of_none he hbefore
  have hsame : (x.run before).scheduler.baseline = baseline :=
    run_induction (p := fun y => y.scheduler.baseline = baseline) hbaseline fun n _ y hy =>
      (step_baseline n y).trans hy
  obtain ⟨hnow, hlater⟩ := armsAll_append harms
  obtain ⟨op, rfl, hop⟩ := hm
  rw [run_append, run_cons, revised_cons]
  refine fields?_run_of_some ?_ ((step_baseline _ _).trans hsame) hlater
  refine (fields?_of_armsIn hnow).trans ?_
  rw [show asked? k (.call op) (x.run before) = op.asked? k (x.run before).scheduler from rfl,
    Operation.asked?_of_sets hop baseline, hnone]
  rfl

/-- The history of a kind. In every run from every store and baseline, as long as the timer of the
kind is armed whenever it is to be, each field of an entry is what the last request for it says, or
what the entry began with. Timers of which no call fails are armed in every run. A kind that begins
without an entry has none until the first set of one of its fields, and an unset before fails and
changes nothing; from that set on it is as if it had begun with a blank entry. A period that is not
positive makes the request fail, and is kept. -/
theorem history_of_run (hb : ∀ item ∈ baseline, item.kind ≠ .invalid) (config : WorkerConfig)
    (h : Host) :
    ∃ s h₀, Scheduler.create baseline config h = (.ok s, h₀) ∧
      (h.timers.Reliable → ∀ moves k, ArmsAll k moves ⟨s, h₀, []⟩) ∧
      ∀ (moves : List Move) (k : Kind), ArmsAll k moves ⟨s, h₀, []⟩ →
      let x := System.run moves ⟨s, h₀, []⟩
      (∀ e, s.fields? k = some e → x.scheduler.fields? k = some (revised baseline k moves e)) ∧
      (s.fields? k = none → (∀ m ∈ moves, ¬ m.Sets k) → x.scheduler.fields? k = none ∧
        ∀ path field, Request.parse path = .ok (k, field) → x.scheduler.unset path x.host =
          (.error .startFailed, x.scheduler, x.host.note (.unsetWithoutEntry k))) ∧
      (s.fields? k = none → ∀ before m after, moves = before ++ m :: after →
        (∀ n ∈ before, ¬ n.Sets k) → m.Sets k →
        x.scheduler.fields? k = some (revised baseline k (m :: after) (Entry.blank k))) ∧
      ∀ op : Operation, op.Sets k ∨ op.Unsets k → ∀ e, (x.call op).scheduler.fields? k = some e →
        e.enabled = true → e.period ≤ 0 →
        (op.perform x.scheduler x.host).1 = .error (.invalidPeriod e.period) := by
  obtain ⟨s, h₀, hcreate, hfresh⟩ := create_fresh hb config h
  refine ⟨s, h₀, hcreate, armsAll_of_reliable ∘ fun hreliable => hfresh.timers ▸ hreliable,
    fun moves k harms => ?_⟩
  intro x
  refine ⟨fun e he => fields?_run_of_some he hfresh.baseline harms, fun hnone hsets => ?_,
    fun hnone before m after hsplit hbefore hm => ?_,
    fun op hnames e he => Operation.invalidPeriod_of_request hnames he⟩
  · have hstill : x.scheduler.fields? k = none := fields?_run_of_none hnone hsets
    refine ⟨hstill, fun path field hparse => ?_⟩
    have habsent : x.scheduler.table.get? k = none := Option.map_eq_none_iff.mp hstill
    unfold Scheduler.unset
    rw [hparse]
    dsimp only
    rw [habsent]
  · subst hsplit
    exact fields?_run_of_set hnone hfresh.baseline harms hbefore hm

/-- Over a store that is full, a kind of the baseline is set and taken back to its line. A kind that is
not in the baseline gets its entry from the first set; it keeps what was set last by a value of the
right type, and goes back to a blank entry with unsets. -/
theorem fields_after_requests :
    let h : Host := { settings := { saveFault := fun _ => some .full } }
    let period (name : String) := "/request/io.edgehog.devicemanager." ++ name ++ "/periodSeconds"
    let enable (name : String) := "/request/io.edgehog.devicemanager." ++ name ++ "/enable"
    let first : Move := .call (.set (period "SystemStatus") (.integer 5))
    let kept : List Move := [.call (.set (enable "SystemStatus") (.boolean true)),
      .call (.set (period "SystemStatus") (.longInteger 4294967296)),
      .call (.set (enable "SystemStatus") (.integer 0)),
      .call (.set (period "HardwareInfo") (.longInteger 90)),
      .call (.set (enable "HardwareInfo") (.boolean false)),
      .call (.unset (period "HardwareInfo")), .call (.unset (enable "HardwareInfo")), .call (.stop 0)]
    let lost : List Move := [.call (.set (enable "SystemStatus") (.boolean true)),
      .call (.unset (period "SystemStatus")), .call (.unset (enable "SystemStatus"))]
    (∀ item ∈ [BaselineItem.mk .hardwareInfo 60], item.kind ≠ .invalid) ∧ first.Sets .systemStatus ∧
      ∃ s h₀, Scheduler.create [⟨.hardwareInfo, 60⟩] {} h = (.ok s, h₀) ∧
        s.fields? .systemStatus = none ∧
        (∀ moves k, ArmsAll k moves ⟨s, h₀, []⟩) ∧
        let x := System.run (.call (.start 0) :: first :: kept) ⟨s, h₀, []⟩
        let y := System.run (.call (.start 0) :: first :: lost) ⟨s, h₀, []⟩
        x.scheduler.fields? .hardwareInfo = some ⟨.hardwareInfo, 60, true, none⟩ ∧
          x.scheduler.fields? .systemStatus = some ⟨.systemStatus, 4294967296, true, none⟩ ∧
          y.scheduler.fields? .systemStatus = some ⟨.systemStatus, -1, false, none⟩ := by
  intro h period enable first kept lost
  have hb : ∀ item ∈ [BaselineItem.mk .hardwareInfo 60], item.kind ≠ .invalid := by decide
  have hparse : Request.parse (period "SystemStatus") = .ok (.systemStatus, .periodSeconds) := by
    decide +kernel
  have hfirst : first.Sets .systemStatus := ⟨_, rfl, _, _, .periodSeconds, rfl, hparse⟩
  refine ⟨hb, hfirst, ?_⟩
  obtain ⟨s, h₀, hcreate, harmed, hrun⟩ := history_of_run hb {} h
  refine ⟨s, h₀, hcreate, ?_⟩
  have hmade : s.fields? .systemStatus = none ∧
      s.fields? .hardwareInfo = some ⟨.hardwareInfo, 60, true, none⟩ := by
    cases hcreate
    decide
  have harms := harmed ⟨rfl, fun _ => rfl, fun _ => rfl, fun _ => rfl⟩
  have hstart : ∀ n ∈ [Move.call (.start 0)], ¬ n.Sets .systemStatus := by
    rintro n hn ⟨op, hop, path, value, field, rfl, -⟩
    rw [List.mem_singleton.mp hn] at hop
    cases hop
  have hset := fun moves =>
    (hrun (.call (.start 0) :: first :: moves) .systemStatus (harms _ _)).2.2.1 hmade.1
      [.call (.start 0)] first moves rfl hstart hfirst
  refine ⟨hmade.1, harms, ?_, ?_, ?_⟩
  · rw [(hrun _ .hardwareInfo (harms _ _)).1 _ hmade.2]
    decide +kernel
  · rw [hset]
    decide +kernel
  · rw [hset]
    decide +kernel

end System
end TelemetryAgent
