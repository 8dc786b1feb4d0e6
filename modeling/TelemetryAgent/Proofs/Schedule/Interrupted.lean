import Mathlib.Data.List.Nodup
import TelemetryAgent.Proofs.Schedule.Rebuild

/-!
# Writes that are cut off

A call during which the store fails from some save on, as when the power is lost, leaves the first
leaves of what it writes. An entry is two leaves, and a load takes one of them for an entry: what it
lacks is read from older leaves, and is zero or off if there are none. So a rebuild gives every kind
what a rebuild before the call would have given it or what the call was writing, with one exception:
the kind between whose leaves the writes were cut off can have the new period with the old flag.
-/
namespace TelemetryAgent

/-! ## The flag of a kind -/

def Setting.flag? : Setting → Option Bool
  | .period _ => none
  | .enable flag => some flag

/-- The last flag among the settings is the flag of the entry that is made of them. -/
theorem Entry.enabled_foldl_takeOver (k : Kind) (settings : List Setting) (o : Option Entry) :
    ((settings.foldl (takeOver k) o).map (·.enabled)).getD false =
      (settings.filterMap Setting.flag?).getLast?.getD ((o.map (·.enabled)).getD false) :=
  field_foldl_takeOver (f := Entry.enabled) Setting.flag?
    (fun t _ => by cases t <;> rfl) o

namespace Leaves

variable {l : Leaves} {k : Kind} {e : Entry} {entries : List Entry}

/-- The flag that the leaves have for a kind, off if they have none. -/
def flag (k : Kind) (l : Leaves) : Bool := ((l.loaded? k).map (·.enabled)).getD false

theorem flag_eq (k : Kind) (l : Leaves) : l.flag k =
    ((Medium.below Setting.subtree l).filterMap fun leaf =>
      (Setting.of? k leaf).bind Setting.flag?).getLast?.getD false := by
  unfold flag loaded? Entry.ofSettings Setting.allOf
  rw [Entry.enabled_foldl_takeOver, List.filterMap_filterMap]
  rfl

/-- To write a period leaves every flag. -/
theorem flag_put_period (j k : Kind) (seconds : Int64) (l : Leaves) :
    (l.put (place j (.period seconds)) (Setting.period seconds).encode).flag k = l.flag k := by
  have hunseen : ∀ held, (Setting.of? k ((Setting.period seconds).key j, held)).bind
      Setting.flag? = none := fun held => by
    unfold Setting.of?
    split
    · rename_i i t hd
      split
      · -- a leaf that is read as a flag is not where periods are kept
        cases t with
        | period => rfl
        | enable flag =>
            have hnames : "enable" = "periods" := Setting.leafName_of_decode_key hd
            exact absurd hnames (by decide)
      · rfl
    · rfl
  rw [flag_eq, flag_eq]
  exact congrArg (fun flags : List Bool => flags.getLast?.getD false)
    (Medium.filterMap_below_put (f := fun leaf => (Setting.of? k leaf).bind Setting.flag?) hunseen _ l)

/-- A load after the period of a kind has been written, and not its flag. -/
theorem loaded?_put_period (hk : k ≠ .invalid) (seconds : Int64) (l : Leaves) :
    (l.put (place k (.period seconds)) (Setting.period seconds).encode).loaded? k =
      some ⟨k, seconds, l.flag k, none⟩ := by
  have hflag := flag_put_period k k seconds l
  have hmem : (place k (.period seconds), (Setting.period seconds).encode) ∈
      (l.put (place k (.period seconds)) (Setting.period seconds).encode).list :=
    mem_putInto_self _ _ _
  generalize l.put (place k (.period seconds)) (Setting.period seconds).encode = l' at hflag hmem ⊢
  obtain ⟨before, after, hperiods, hlast⟩ := allOf_of_mem hk hmem
  have hsome : (l'.loaded? k).isSome = true := by
    unfold loaded? Entry.ofSettings
    rw [hperiods, List.foldl_append, List.foldl_cons]
    exact Entry.foldl_takeOver_isSome k after rfl
  obtain ⟨found, hfound⟩ := Option.isSome_iff_exists.mp hsome
  obtain ⟨hkind, htimer⟩ := Entry.of_mem_ofSettings hfound
  have hperiod : found.period = seconds := by
    unfold loaded? at hfound
    rw [hperiods] at hfound
    exact Entry.field_of_last (f := Entry.period) (fun _ => rfl)
      (fun t ht => Entry.withSetting_period_of_ne (hlast t ht)) hfound
  have henabled : found.enabled = l.flag k := by
    rw [← hflag, flag, hfound]
    rfl
  rw [hfound, ← henabled, ← hperiod, ← hkind, ← htimer]

/-! ## The first leaves of some entries -/

theorem loaded?_putEach_of_ne {written : List (String × Bytes)}
    (hkinds : ∀ leaf ∈ written, ∃ j s, k ≠ j ∧ leaf.1 = place j s) (l : Leaves) :
    (l.putEach written).loaded? k = l.loaded? k := by
  induction written generalizing l with
  | nil => rfl
  | cons leaf rest ih =>
      obtain ⟨j, s, hkj, hplace⟩ := hkinds leaf List.mem_cons_self
      refine (ih (fun other hother => hkinds other (List.mem_cons_of_mem leaf hother)) _).trans ?_
      unfold loaded?
      dsimp only
      rw [hplace, allOf_put_of_ne hkj]

/-- Entries of other kinds do not matter, however much of them has been written. -/
theorem loaded?_storeFirst_of_ne (hkinds : ∀ e ∈ entries, e.kind ≠ k) (n : Nat) (l : Leaves) :
    (l.storeFirst n entries).loaded? k = l.loaded? k := by
  refine loaded?_putEach_of_ne (fun leaf hleaf => ?_) l
  obtain ⟨e, he, hin⟩ := List.mem_flatMap.mp (List.mem_of_mem_take hleaf)
  obtain ⟨s, -, rfl⟩ := List.mem_map.mp hin
  exact ⟨e.kind, s, Ne.symm (hkinds e he), rfl⟩

theorem storeFirst_zero (entries : List Entry) (l : Leaves) : l.storeFirst 0 entries = l := rfl

theorem storeFirst_one (e : Entry) (later : List Entry) (l : Leaves) :
    l.storeFirst 1 (e :: later) =
      l.put (place e.kind (.period e.period)) (Setting.period e.period).encode := rfl

theorem storeFirst_add_two (n : Nat) (e : Entry) (later : List Entry) (l : Leaves) :
    l.storeFirst (n + 2) (e :: later) = (l.store e).storeFirst n later := rfl

/-- What a load makes of the kind of an entry after the first leaves of some entries have been
written, `m` of them before this one. -/
theorem loaded?_storeFirst (hnodup : (entries.map Entry.kind).Nodup) {m : Nat}
    (he : entries[m]? = some e) (hk : e.kind ≠ .invalid) (htimer : e.timer = none) (n : Nat)
    (l : Leaves) : (l.storeFirst n entries).loaded? e.kind =
      if n ≤ 2 * m then l.loaded? e.kind
      else if n = 2 * m + 1 then some { e with enabled := l.flag e.kind }
      else some e := by
  induction entries generalizing m n l with
  | nil => cases he
  | cons d later ih =>
      obtain ⟨hd, hlater⟩ := List.nodup_cons.mp hnodup
      cases m with
      | zero =>
          cases he
          match n with
          | 0 => rw [storeFirst_zero, if_pos (Nat.le_refl _)]
          | 1 =>
              rw [storeFirst_one, if_neg (by decide), if_pos rfl, loaded?_put_period hk, ← htimer]
          | n + 2 =>
              have hothers : ∀ c ∈ later, c.kind ≠ e.kind := fun c hc heq =>
                hd (heq ▸ List.mem_map_of_mem hc)
              rw [storeFirst_add_two, loaded?_storeFirst_of_ne hothers,
                loaded?_of_holds (holds_store e l) hk, if_neg (by omega), if_neg (by omega), ← htimer]
      | succ m =>
          have hmem : e ∈ later := List.mem_of_getElem? he
          have hne : e.kind ≠ d.kind := fun heq => hd (heq ▸ List.mem_map_of_mem hmem)
          match n with
          | 0 => rw [storeFirst_zero, if_pos (Nat.zero_le _)]
          | 1 =>
              rw [storeFirst_one, if_pos (by omega)]
              unfold loaded?
              rw [allOf_put_of_ne hne]
          | n + 2 =>
              have hflag : (l.store d).flag e.kind = l.flag e.kind := by
                unfold flag
                rw [loaded?_store_of_ne hne]
              have hshift : n + 2 ≤ 2 * (m + 1) ↔ n ≤ 2 * m := by omega
              have hshift' : n + 2 = 2 * (m + 1) + 1 ↔ n = 2 * m + 1 := by omega
              rw [storeFirst_add_two, ih hlater he, loaded?_store_of_ne hne, hflag]
              simp only [hshift, hshift']

end Leaves

/-! ## What it comes to for a kind -/

/-- Writing was cut off between the two leaves of an entry, and a load shows it: the store had
another flag for the kind, and it had no entry or one with another period. -/
structure Torn (n : Nat) (written : List Entry) (stored : Option Entry) (e : Entry) : Prop where
  cut : n % 2 = 1 ∧ written[n / 2]? = some e
  flag : (stored.map (·.enabled)).getD false ≠ e.enabled
  period : ∀ d, stored = some d → d.period ≠ e.period

namespace Table

theorem enabled_of_ofBaseline {baseline : List BaselineItem} {k : Kind} {e : Entry}
    (he : ofBaseline baseline k = some e) : e.enabled = true := by
  obtain ⟨item, -, rfl⟩ := Option.map_eq_some_iff.mp he
  rfl

end Table

namespace Leaves

variable {l : Leaves} {k : Kind} {e : Entry} {entries : List Entry} {n : Nat}
  {baseline : List BaselineItem}

def rebuilt? (baseline : List BaselineItem) (k : Kind) (l : Leaves) : Option Entry :=
  (l.loaded? k).or (Table.ofBaseline baseline k)

/-- A torn entry is the new period with the old flag. -/
theorem rebuilt?_of_torn (hnodup : (entries.map Entry.kind).Nodup)
    (hplain : ∀ e ∈ entries, System.Plain e) (ht : Torn n entries (l.loaded? e.kind) e) :
    (l.storeFirst n entries).rebuilt? baseline e.kind =
      some { e with enabled := l.flag e.kind } := by
  obtain ⟨⟨hodd, he⟩, -, -⟩ := ht
  have hentry := hplain e (List.mem_of_getElem? he)
  have hn : n = 2 * (n / 2) + 1 := by omega
  unfold rebuilt?
  rw [loaded?_storeFirst hnodup he hentry.kind hentry.timer, if_neg (by omega), if_pos hn]
  rfl

/-- A torn entry is neither the old one nor the new one. -/
theorem rebuilt?_ne_of_torn (baseline : List BaselineItem) (hnodup : (entries.map Entry.kind).Nodup)
    (ht : Torn n entries (l.loaded? e.kind) e) :
    some { e with enabled := l.flag e.kind } ≠ l.rebuilt? baseline e.kind ∧
      ∀ d ∈ entries, d.kind = e.kind → some { e with enabled := l.flag e.kind } ≠ some d := by
  constructor
  · intro heq
    unfold rebuilt? at heq
    cases hloaded : l.loaded? e.kind with
    | some d =>
        rw [hloaded] at heq
        cases heq
        exact ht.period _ hloaded rfl
    | none =>
        rw [hloaded, Option.none_or] at heq
        have hflag : l.flag e.kind = false := by
          unfold flag
          rw [hloaded]
          rfl
        have henabled : l.flag e.kind = true := Table.enabled_of_ofBaseline heq.symm
        rw [hflag] at henabled
        cases henabled
  · intro d hd hkind heq
    have hsame : d = e := List.inj_on_of_nodup_map hnodup hd (List.mem_of_getElem? ht.cut.2) hkind
    have hflag := congrArg Entry.enabled (Option.some.inj heq)
    rw [hsame] at hflag
    exact ht.flag hflag

/-- To write the period that a kind has already is to write nothing. -/
theorem loaded?_of_period {d : Entry} (hd : l.loaded? e.kind = some d)
    (hperiod : d.period = e.period) (htimer : e.timer = none) :
    l.loaded? e.kind = some { e with enabled := l.flag e.kind } := by
  obtain ⟨hkind, hidle⟩ := Entry.of_mem_ofSettings hd
  have hflag : l.flag e.kind = d.enabled := by
    unfold flag
    rw [hd]
    rfl
  rw [hd, hflag, ← hperiod, ← hkind, htimer, ← hidle]

/-- After some leaves have been written a kind has what it had or what was to be written, unless its
entry is torn. -/
theorem rebuilt?_storeFirst (hnodup : (entries.map Entry.kind).Nodup)
    (hplain : ∀ e ∈ entries, System.Plain e)
    (hwhole : ¬ ∃ e, e.kind = k ∧ Torn n entries (l.loaded? k) e) :
    (l.storeFirst n entries).rebuilt? baseline k = l.rebuilt? baseline k ∨
      ∃ e ∈ entries, e.kind = k ∧ (l.storeFirst n entries).rebuilt? baseline k = some e := by
  by_cases hmem : ∃ e ∈ entries, e.kind = k
  · obtain ⟨e, he, rfl⟩ := hmem
    have hentry := hplain e he
    obtain ⟨m, hm⟩ := List.mem_iff_getElem?.mp he
    have hload := loaded?_storeFirst hnodup hm hentry.kind hentry.timer n l
    unfold rebuilt?
    rw [hload]
    split
    · exact .inl rfl
    · split
      · rename_i hn
        have hcut : n % 2 = 1 ∧ entries[n / 2]? = some e := by
          rw [show n / 2 = m by omega]
          exact ⟨by omega, hm⟩
        by_cases hflag : l.flag e.kind = e.enabled
        · rw [hflag]
          exact .inr ⟨e, he, rfl, rfl⟩
        · left
          have hold : ∃ d, l.loaded? e.kind = some d ∧ d.period = e.period := by
            by_contra hother
            exact hwhole ⟨e, rfl, hcut, hflag, fun d hd hperiod => hother ⟨d, hd, hperiod⟩⟩
          obtain ⟨d, hd, hperiod⟩ := hold
          rw [← loaded?_of_period hd hperiod hentry.timer, hd]
      · exact .inr ⟨e, he, rfl, rfl⟩
  · left
    unfold rebuilt?
    rw [loaded?_storeFirst_of_ne fun e he hkind => hmem ⟨e, he, hkind⟩]

end Leaves

/-! ## Runs -/

namespace System
open Host Scheduler

theorem map_kind_wanted? (kinds : List Kind) (s : Scheduler) :
    ((kinds.filterMap s.wanted?).map Entry.kind).Sublist kinds := by
  induction kinds with
  | nil => exact .slnil
  | cons k rest ih =>
      cases hwanted : s.wanted? k with
      | none =>
          rw [List.filterMap_cons_none (f := s.wanted?) hwanted]
          exact ih.cons k
      | some e =>
          obtain ⟨d, -, rfl⟩ := Option.map_eq_some_iff.mp hwanted
          rw [List.filterMap_cons_some (f := s.wanted?) hwanted]
          exact ih.cons_cons k

theorem nodup_map_toList {α β : Type} (f : α → β) (o : Option α) : (o.toList.map f).Nodup := by
  cases o with
  | none => exact .nil
  | some a => exact List.nodup_singleton _

/-- A call writes an entry of each kind once at most. -/
theorem nodup_written (op : Operation) (s : Scheduler) (h : Host) :
    ((op.written s h).map Entry.kind).Nodup := by
  cases op with
  | start publisher =>
      unfold Operation.written
      dsimp only
      split
      · have hnodup : Kind.schedulable.Nodup := by decide
        exact (map_kind_wanted? Kind.schedulable s).nodup hnodup
      · exact .nil
  | stop => exact .nil
  | schedule | unschedule | set | unset => exact nodup_map_toList _ _

/-- If the store fails during a call from some save on, a scheduler that is then made from it with
the same baseline has for each kind what one made before the call would have had, or what the call
was to write, except exactly for a kind whose entry is torn: that one has the new period with the
flag that the store had before. -/
theorem rebuilt_of_interrupted {baseline : List BaselineItem}
    (hb : ∀ item ∈ baseline, item.kind ≠ .invalid) (config : WorkerConfig) (h : Host) :
    ∃ s h₀, Scheduler.create baseline config h = (.ok s, h₀) ∧
      ∀ (moves : List Move) (op : Operation) (n : Nat),
      let x := System.run moves ⟨s, h₀, []⟩
      let written := op.written x.scheduler x.host
      x.host.SavesLeft n →
      ∀ (config' : WorkerConfig) (before after : Host),
        before.settings.leaves = x.host.settings.leaves → before.settings.loadFault = none →
        after.settings.leaves = (op.perform x.scheduler x.host).2.2.settings.leaves →
        after.settings.loadFault = none →
        ∃ stored old new h₁ h₂ h₃, Scheduler.create [] config' before = (.ok stored, h₁) ∧
          Scheduler.create baseline config' before = (.ok old, h₂) ∧
          Scheduler.create baseline config' after = (.ok new, h₃) ∧
          ∀ k,
            ((new.table.get? k = old.table.get? k ∨
                ∃ e ∈ written, e.kind = k ∧ new.table.get? k = some e) ↔
              ¬ ∃ e, e.kind = k ∧ Torn n written (stored.table.get? k) e) ∧
            ∀ e, e.kind = k → Torn n written (stored.table.get? k) e →
              new.table.get? k =
                some { e with enabled := ((stored.table.get? k).map (·.enabled)).getD false } := by
  obtain ⟨s, h₀, hcreate, hfresh⟩ := create_fresh hb config h
  refine ⟨s, h₀, hcreate, fun moves op n hleft config' before after hbefore hload hafter hload' => ?_⟩
  have hnone : ∀ item ∈ ([] : List BaselineItem), item.kind ≠ .invalid := fun _ hmem =>
    nomatch hmem
  obtain ⟨stored, h₁, hcreate₁, hfresh₁⟩ := create_fresh hnone config' before
  obtain ⟨old, h₂, hcreate₂, hfresh₂⟩ := create_fresh hb config' before
  obtain ⟨new, h₃, hcreate₃, hfresh₃⟩ := create_fresh hb config' after
  refine ⟨stored, old, new, h₁, h₂, h₃, hcreate₁, hcreate₂, hcreate₃, fun k => ?_⟩
  have hw₀ : Wired h₀.bank.length s h₀.bank := hfresh.wired
  have hwired := wired_run (x := ⟨s, h₀, []⟩) hw₀ moves
  generalize run moves ⟨s, h₀, []⟩ = x at *
  have hkeyed : x.scheduler.Keyed := fun j e he => hwired.owned.kind he
  have hcut := ((perform_wrote op hkeyed x.host).cut n hleft).2
  have hnodup := nodup_written op x.scheduler x.host
  have hplain : ∀ e ∈ op.written x.scheduler x.host, Plain e := fun e he => plain_of_mem_call he
  generalize op.written x.scheduler x.host = written at *
  have hstored : stored.table.get? k = x.host.settings.leaves.loaded? k := by
    rw [get?_of_fresh hfresh₁ hload, hbefore]
    exact Option.or_none
  have hold : old.table.get? k = x.host.settings.leaves.rebuilt? baseline k := by
    rw [get?_of_fresh hfresh₂ hload, hbefore]
    rfl
  have hnew : new.table.get? k =
      (x.host.settings.leaves.storeFirst n written).rebuilt? baseline k := by
    rw [get?_of_fresh hfresh₃ hload', hafter, hcut]
    rfl
  rw [hstored, hold, hnew]
  refine ⟨⟨?_, Leaves.rebuilt?_storeFirst hnodup hplain⟩, ?_⟩
  · rintro hwhole ⟨e, rfl, htorn⟩
    obtain ⟨hnotold, hnotnew⟩ := Leaves.rebuilt?_ne_of_torn baseline hnodup htorn
    rw [Leaves.rebuilt?_of_torn hnodup hplain htorn] at hwhole
    rcases hwhole with hsame | ⟨d, hd, hkind, heq⟩
    · exact hnotold hsame
    · exact hnotnew d hd hkind heq
  · rintro e rfl htorn
    exact Leaves.rebuilt?_of_torn hnodup hplain htorn

/-- A request that is cut off after the new period of a kind that stays enabled does no harm. -/
theorem rebuilt_after_cut_request :
    let h : Host :=
      { settings :=
          { leaves := Leaves.ofList [("edgehog_device/telemetry/3/enable", [1]),
              ("edgehog_device/telemetry/3/periods", [14])]
            saveFault := fun i => if i < 1 then none else some .full } }
    let op := Operation.set "/request/io.edgehog.devicemanager.SystemStatus/periodSeconds"
      (.longInteger 20)
    (∀ item ∈ [BaselineItem.mk .systemStatus 10], item.kind ≠ .invalid) ∧
      ∃ s h₀, Scheduler.create [⟨.systemStatus, 10⟩] {} h = (.ok s, h₀) ∧
        let after := (op.perform s h₀).2.2
        h₀.SavesLeft 1 ∧ h₀.settings.loadFault = none ∧ after.settings.loadFault = none ∧
        ∃ new h₁, Scheduler.create [⟨.systemStatus, 10⟩] {} after = (.ok new, h₁) ∧
          (new.table.get? .systemStatus = some ⟨.systemStatus, 7, true, none⟩ ∨
            new.table.get? .systemStatus = some ⟨.systemStatus, 20, true, none⟩) := by
  intro h op
  have hb : ∀ item ∈ [BaselineItem.mk .systemStatus 10], item.kind ≠ .invalid := by decide
  obtain ⟨s, h₀, hcreate, hrun⟩ := rebuilt_of_interrupted hb {} h
  have hfresh := fresh_of_create hcreate
  have hload : h₀.settings.loadFault = none := congrArg SettingsStore.loadFault hfresh.settings
  have hload' : (op.perform s h₀).2.2.settings.loadFault = none :=
    (perform_wrote op (fun _ _ he => hfresh.wired.owned.kind he) h₀).loadFault.trans hload
  have hleft : h₀.SavesLeft 1 := fun i _ => by
    rw [hfresh.settings]
    change (if i < 1 then none else some SettingsFault.full) = none ↔ i < 0 + 1
    split <;> simp_all
  obtain ⟨stored, old, new, h₁, h₂, h₃, hcreate₁, hcreate₂, hcreate₃, hkinds⟩ :=
    hrun [] op 1 hleft {} h₀ _ rfl hload rfl hload'
  have hentries : ((Scheduler.create [⟨.systemStatus, 10⟩] {} h).1.toOption.bind fun s =>
      (Scheduler.create [] {} (Scheduler.create [⟨.systemStatus, 10⟩] {} h).2).1.toOption.bind
        fun stored =>
      (Scheduler.create [⟨.systemStatus, 10⟩] {}
          (Scheduler.create [⟨.systemStatus, 10⟩] {} h).2).1.toOption.map fun old =>
        (stored.table.get? .systemStatus, old.table.get? .systemStatus,
          op.written s (Scheduler.create [⟨.systemStatus, 10⟩] {} h).2)) =
      some (some ⟨.systemStatus, 7, true, none⟩, some ⟨.systemStatus, 7, true, none⟩,
        [⟨.systemStatus, 20, true, none⟩]) := by decide +kernel
  simp only [hcreate, hcreate₁, hcreate₂, Except.toOption, Option.bind_some, Option.map_some,
    Option.some.injEq, Prod.mk.injEq] at hentries
  obtain ⟨hstored, hold, hwritten⟩ := hentries
  have hsystem := (hkinds .systemStatus).1
  simp only [run, List.foldl_nil, hstored, hold, hwritten] at hsystem
  have hwhole : ¬ ∃ e : Entry, e.kind = .systemStatus ∧
      Torn 1 [⟨.systemStatus, 20, true, none⟩] (some ⟨.systemStatus, 7, true, none⟩) e := by
    rintro ⟨e, -, ⟨-, he⟩, hflag, -⟩
    cases he
    exact hflag rfl
  refine ⟨hb, s, h₀, hcreate, hleft, hload, hload', new, h₃, hcreate₃, ?_⟩
  refine (hsystem.mpr hwhole).imp_right fun ⟨e, he, _, hnew⟩ => ?_
  rw [hnew, List.mem_singleton.mp he]

/-- The first start of a device that has nothing stored is cut off after one leaf: a rebuild finds
telemetry disabled that was enabled before the start and was to be written as enabled. -/
theorem torn_at_first_start :
    let h : Host :=
      { settings := { saveFault := fun i => if i < 1 then none else some .full } }
    ∃ s h₀, Scheduler.create [⟨.systemStatus, 10⟩] {} h = (.ok s, h₀) ∧ h₀.SavesLeft 1 ∧
      let after := ((Operation.start 0).perform s h₀).2.2
      ∃ old new h₁ h₂, Scheduler.create [⟨.systemStatus, 10⟩] {} h₀ = (.ok old, h₁) ∧
        Scheduler.create [⟨.systemStatus, 10⟩] {} after = (.ok new, h₂) ∧
        old.table.get? .systemStatus = some ⟨.systemStatus, 10, true, none⟩ ∧
        (Operation.start 0).written s h₀ = [⟨.systemStatus, 10, true, none⟩] ∧
        new.table.get? .systemStatus = some ⟨.systemStatus, 10, false, none⟩ ∧
        ¬ (new.table.get? .systemStatus = old.table.get? .systemStatus ∨
          ∃ e ∈ (Operation.start 0).written s h₀, e.kind = .systemStatus ∧
            new.table.get? .systemStatus = some e) := by
  intro h
  have hb : ∀ item ∈ [BaselineItem.mk .systemStatus 10], item.kind ≠ .invalid := by decide
  obtain ⟨s, h₀, hcreate, hfresh⟩ := create_fresh hb {} h
  obtain ⟨old, h₁, hcreate₁, hfresh₁⟩ := create_fresh hb {} h₀
  obtain ⟨new, h₂, hcreate₂, hfresh₂⟩ := create_fresh hb {} ((Operation.start 0).perform s h₀).2.2
  have hleft : h₀.SavesLeft 1 := fun i _ => by
    rw [hfresh.settings]
    change (if i < 1 then none else some SettingsFault.full) = none ↔ i < 0 + 1
    split <;> simp_all
  have hrun : ((Scheduler.create [⟨.systemStatus, 10⟩] {} h).1.toOption.bind fun s =>
      (Scheduler.create [⟨.systemStatus, 10⟩] {}
          (Scheduler.create [⟨.systemStatus, 10⟩] {} h).2).1.toOption.bind fun old =>
      (Scheduler.create [⟨.systemStatus, 10⟩] {} ((Operation.start 0).perform s
          (Scheduler.create [⟨.systemStatus, 10⟩] {} h).2).2.2).1.toOption.map fun new =>
        (old.table.get? .systemStatus,
          (Operation.start 0).written s (Scheduler.create [⟨.systemStatus, 10⟩] {} h).2,
          new.table.get? .systemStatus)) =
      some (some ⟨.systemStatus, 10, true, none⟩, [⟨.systemStatus, 10, true, none⟩],
        some ⟨.systemStatus, 10, false, none⟩) := by decide +kernel
  simp only [hcreate, hcreate₁, hcreate₂, Except.toOption, Option.bind_some, Option.map_some,
    Option.some.injEq, Prod.mk.injEq] at hrun
  obtain ⟨hold, hwritten, hnew⟩ := hrun
  refine ⟨s, h₀, hcreate, hleft, old, new, h₁, h₂, hcreate₁, hcreate₂, hold, hwritten, hnew, ?_⟩
  rw [hold, hwritten, hnew]
  decide

end System
end TelemetryAgent
