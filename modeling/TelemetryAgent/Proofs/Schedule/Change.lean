import TelemetryAgent.Proofs.Host.Frame
import TelemetryAgent.Schedule.Scheduler

/-!
# What scheduling does to an entry

Scheduling a kind has four results: an entry whose period is not positive is disarmed, one of a
scheduler that does not run is only written, an entry whose timer starts is armed, and an entry
whose timer does not start is dropped. Unscheduling disarms. In every case the entry is written
first, and nothing of the scheduler but the place of that kind in the table changes.
-/
namespace TelemetryAgent

namespace Entry

def unarmed (e : Entry) : Entry := { e with timer := none }

@[simp] theorem unarmed_enabled (e : Entry) : e.unarmed.enabled = e.enabled := rfl

def seconds (e : Entry) : Nat := e.period.toInt.toNat

theorem seconds_eq_toInt {e : Entry} (hperiod : 0 < e.period) : (e.seconds : Int) = e.period.toInt := by
  have hpositive : (0 : Int64).toInt < e.period.toInt := Int64.lt_iff_toInt_lt.mp hperiod
  rw [Int64.toInt_zero] at hpositive
  exact Int.toNat_of_nonneg (Int.le_of_lt hpositive)

end Entry

theorem Table.ne_invalid_of_get? {t : Table} {k : Kind} {e : Entry} (he : t.get? k = some e) :
    k ≠ .invalid := by
  rintro rfl
  cases he

/-- A table is known by what it has for each kind. -/
theorem Table.ext_get? {t t' : Table} (hget : ∀ k, t.get? k = t'.get? k) : t = t' := by
  obtain ⟨hardwareInfo, wifiScan, systemStatus, storageUsage⟩ := t
  obtain ⟨hardwareInfo', wifiScan', systemStatus', storageUsage'⟩ := t'
  have hhardwareInfo : hardwareInfo = hardwareInfo' := hget .hardwareInfo
  have hwifiScan : wifiScan = wifiScan' := hget .wifiScan
  have hsystemStatus : systemStatus = systemStatus' := hget .systemStatus
  have hstorageUsage : storageUsage = storageUsage' := hget .storageUsage
  rw [hhardwareInfo, hwifiScan, hsystemStatus, hstorageUsage]

theorem Kind.mem_schedulable {k : Kind} (hk : k ≠ .invalid) : k ∈ Kind.schedulable := by
  cases k with
  | invalid => exact (hk rfl).elim
  | hardwareInfo | wifiScan | systemStatus | storageUsage => simp [Kind.schedulable]

namespace Scheduler

theorem get?_setEntry {k : Kind} (hk : k ≠ .invalid) (e : Option Entry) (s : Scheduler) (j : Kind) :
    (s.setEntry k e).table.get? j = if j = k then e else s.table.get? j := by
  simp [setEntry, Table.get?_set, hk]

theorem isArmed_of_unarmed {s : Scheduler} {k : Kind}
    (hunarmed : ∀ e, s.table.get? k = some e → e.timer = none) (h : Host) : s.isArmed k h = false := by
  unfold isArmed
  cases he : s.table.get? k with
  | none => rfl
  | some e => simp only [Option.bind_some, hunarmed e he]

theorem setEntry_self {k : Kind} {e : Entry} {s : Scheduler} (he : s.table.get? k = some e) :
    s.setEntry k (some e) = s := by
  have htable : s.table.set k (some e) = s.table := Table.ext_get? fun j => by
    have hset := get?_setEntry (Table.ne_invalid_of_get? he) (some e) s j
    refine hset.trans ?_
    split
    · rename_i hjk
      rw [hjk, he]
    · rfl
  rw [setEntry, htable]

/-- What scheduling the entry `e` of a kind can come to: its outcome, the scheduler afterwards, and
the bank of timers. -/
inductive Scheduled (k : Kind) (e : Entry) (s : Scheduler) (bank : List TimerState) :
    Outcome → Scheduler → List TimerState → Prop
  | refused : e.period ≤ 0 →
      Scheduled k e s bank (.error (.invalidPeriod e.period)) (s.setEntry k (some e.unarmed))
        (retire e.timer bank)
  | written : 0 < e.period → s.running = false → Scheduled k e s bank (.ok ()) s bank
  | armed {timer : Nat} {bank' : List TimerState} : 0 < e.period → s.running = true →
      Host.Arms s.ident e e.seconds bank timer bank' →
      Scheduled k e s bank (.ok ()) (s.setEntry k (some { e with timer := some timer })) bank'
  | dropped {made : List TimerState} : 0 < e.period → s.running = true →
      (∀ t ∈ made, t.released = true) →
      Scheduled k e s bank (.error .startFailed) (s.setEntry k none) (retire e.timer bank ++ made)

theorem schedule_cases {k : Kind} {e : Entry} {s : Scheduler} {h : Host}
    (he : s.table.get? k = some e) :
    Scheduled k e s h.bank (s.schedule k h).1 (s.schedule k h).2.1 (s.schedule k h).2.2.bank := by
  have hpersist : (h.persist e).bank = h.bank :=
    congrArg TimerBank.timers (Host.persist_storeOnly e h).timers
  unfold schedule
  simp only [he]
  split
  · rename_i hperiod
    have hbank := Host.bank_disarm e (h.persist e)
    simp only [Host.bank, Host.note_timers, Host.noteFailure_timers] at hbank hpersist ⊢
    rw [hbank, hpersist]
    exact .refused hperiod
  · rename_i hperiod
    have hpositive : 0 < e.period := Int64.not_le.mp hperiod
    split
    · rename_i hrunning
      split
      · rename_i timer h₁ harm
        have harms := Host.bank_of_arm_ok harm
        rw [hpersist] at harms
        exact .armed hpositive hrunning harms
      · rename_i f h₁ harm
        obtain ⟨made, hmade, hbank⟩ := Host.bank_of_arm_error harm
        rw [Host.bank_abandon]
        simp only [Host.bank, Host.note_timers] at hbank hpersist ⊢
        rw [hbank, hpersist]
        exact .dropped hpositive hrunning hmade
    · rename_i hrunning
      rw [hpersist]
      exact .written hpositive (by simpa using hrunning)

/-- Beyond writing the entry, scheduling makes timer calls only. -/
theorem schedule_timersOnly {k : Kind} {e : Entry} {s : Scheduler} {h : Host}
    (he : s.table.get? k = some e) :
    Host.TimersOnly (h.persist e) (s.schedule k h).2.2 := by
  unfold schedule
  simp only [he]
  split
  · exact (Host.disarm_timersOnly e _).trans
      ((Host.noteFailure_timersOnly _ _ _).trans (Host.note_timersOnly _ _))
  · split
    · have harm := Host.arm_timersOnly s.ident e e.period.toInt.toNat (h.persist e)
      split
      · rename_i timer h₁ heq
        rwa [heq] at harm
      · rename_i f h₁ heq
        rw [heq] at harm
        exact harm.trans ((Host.note_timersOnly _ _).trans (Host.abandon_timersOnly e _))
    · exact .refl _

theorem schedule_of_none {k : Kind} {s : Scheduler} (h : Host) (he : s.table.get? k = none) :
    s.schedule k h = (.error .invalidKind, s, h) := by
  unfold schedule
  simp only [he]

theorem unschedule_of_none {k : Kind} {s : Scheduler} (h : Host) (he : s.table.get? k = none) :
    s.unschedule k h = (.error .invalidKind, s, h) := by
  unfold unschedule
  simp only [he]

theorem unschedule_of_some {k : Kind} {e : Entry} {s : Scheduler} (h : Host)
    (he : s.table.get? k = some e) :
    s.unschedule k h = (((h.persist e).disarm e).1, s.setEntry k (some e.unarmed),
      ((h.persist e).disarm e).2) := by
  unfold unschedule
  simp only [he]
  rfl

theorem bank_unschedule {k : Kind} {e : Entry} {s : Scheduler} (h : Host)
    (he : s.table.get? k = some e) : (s.unschedule k h).2.2.bank = retire e.timer h.bank := by
  rw [unschedule_of_some h he, Host.bank_disarm]
  exact congrArg (retire e.timer) (congrArg TimerBank.timers (Host.persist_storeOnly e h).timers)

theorem unschedule_timersOnly {k : Kind} {e : Entry} {s : Scheduler} {h : Host}
    (he : s.table.get? k = some e) : Host.TimersOnly (h.persist e) (s.unschedule k h).2.2 := by
  rw [unschedule_of_some h he]
  exact Host.disarm_timersOnly e _

/-! ## Requests -/

/-- The kind that a set names, with its entry as the request leaves it. -/
def setRequest (path : String) (value : Value) (s : Scheduler) : Option (Kind × Entry) :=
  match Request.parse path with
  | .error _ => none
  | .ok (k, field) => (s.table.getOrBlank? k).map fun e => (k, assign field value e)

def unsetRequest (path : String) (s : Scheduler) : Option (Kind × Entry) :=
  match Request.parse path with
  | .error _ => none
  | .ok (k, field) => (s.table.get? k).map fun e => (k, restore field (s.baselinePeriod? k) e)

/-- A request changes the period or the flag of the entry that a kind has, or of a blank one. -/
structure Requested (s : Scheduler) (k : Kind) (e : Entry) : Prop where
  schedulable : k ≠ .invalid
  timer : e.timer = (s.table.get? k).bind (·.timer)
  kind : e.kind = ((s.table.get? k).map (·.kind)).getD k

/-- The entry that a kind has is one that a request can leave it with. -/
theorem Requested.self {s : Scheduler} {k : Kind} {e : Entry} (he : s.table.get? k = some e) :
    Requested s k e where
  schedulable := Table.ne_invalid_of_get? he
  timer := by rw [he, Option.bind_some]
  kind := by rw [he, Option.map_some, Option.getD_some]

theorem assign_timer (field : ConfigField) (value : Value) (e : Entry) :
    (assign field value e).timer = e.timer := by
  unfold assign
  split <;> rfl

theorem assign_kind (field : ConfigField) (value : Value) (e : Entry) :
    (assign field value e).kind = e.kind := by
  unfold assign
  split <;> rfl

theorem restore_timer (field : ConfigField) (baseline : Option Int64) (e : Entry) :
    (restore field baseline e).timer = e.timer := by
  cases field <;> rfl

theorem restore_kind (field : ConfigField) (baseline : Option Int64) (e : Entry) :
    (restore field baseline e).kind = e.kind := by
  cases field <;> rfl

theorem requested_of_set {path : String} {value : Value} {s : Scheduler} {k : Kind} {e : Entry}
    (hr : s.setRequest path value = some (k, e)) : Requested s k e := by
  unfold setRequest at hr
  split at hr
  · cases hr
  · rename_i j field _
    obtain ⟨e₀, he₀, hpair⟩ := Option.map_eq_some_iff.mp hr
    cases hpair
    unfold Table.getOrBlank? at he₀
    split at he₀
    · cases he₀
    · rename_i hk
      cases he₀
      refine ⟨hk, ?_, ?_⟩
      · rw [assign_timer]
        cases s.table.get? k <;> rfl
      · rw [assign_kind]
        cases s.table.get? k <;> rfl

theorem requested_of_unset {path : String} {s : Scheduler} {k : Kind} {e : Entry}
    (hr : s.unsetRequest path = some (k, e)) : Requested s k e := by
  unfold unsetRequest at hr
  split at hr
  · cases hr
  · rename_i j field _
    obtain ⟨e₀, he₀, hpair⟩ := Option.map_eq_some_iff.mp hr
    cases hpair
    refine ⟨Table.ne_invalid_of_get? he₀, ?_, ?_⟩
    · rw [restore_timer, he₀]
      rfl
    · rw [restore_kind, he₀]
      rfl

theorem set_of_request {path : String} {value : Value} {s : Scheduler} {k : Kind} {e : Entry}
    (h : Host) (hr : s.setRequest path value = some (k, e)) :
    s.set path value h = (s.setEntry k (some e)).apply k h := by
  unfold setRequest at hr
  unfold set
  cases hparse : Request.parse path with
  | error f =>
      rw [hparse] at hr
      cases hr
  | ok target =>
      rw [hparse] at hr
      obtain ⟨e₀, he₀, hpair⟩ := Option.map_eq_some_iff.mp hr
      cases hpair
      simp only [he₀]

theorem set_of_no_request {path : String} {value : Value} {s : Scheduler} (h : Host)
    (hr : s.setRequest path value = none) : ∃ f, s.set path value h = (.error f, s, h) := by
  unfold setRequest at hr
  unfold set
  cases hparse : Request.parse path with
  | error f => exact ⟨f, rfl⟩
  | ok target =>
      rw [hparse] at hr
      have hnone := Option.map_eq_none_iff.mp hr
      exact ⟨.invalidKind, by simp only [hnone]⟩

theorem unset_of_request {path : String} {s : Scheduler} {k : Kind} {e : Entry} (h : Host)
    (hr : s.unsetRequest path = some (k, e)) :
    s.unset path h = (s.setEntry k (some e)).apply k h := by
  unfold unsetRequest at hr
  unfold unset
  cases hparse : Request.parse path with
  | error f =>
      rw [hparse] at hr
      cases hr
  | ok target =>
      rw [hparse] at hr
      obtain ⟨e₀, he₀, hpair⟩ := Option.map_eq_some_iff.mp hr
      cases hpair
      simp only [he₀]

theorem unset_of_no_request {path : String} {s : Scheduler} (h : Host)
    (hr : s.unsetRequest path = none) :
    ∃ f h', s.unset path h = (.error f, s, h') ∧
      (h' = h ∨ ∃ k, h' = h.note (.unsetWithoutEntry k)) := by
  unfold unsetRequest at hr
  unfold unset
  cases hparse : Request.parse path with
  | error f => exact ⟨f, h, rfl, .inl rfl⟩
  | ok target =>
      rw [hparse] at hr
      have hnone := Option.map_eq_none_iff.mp hr
      refine ⟨.startFailed, h.note (.unsetWithoutEntry target.1), ?_, .inr ⟨_, rfl⟩⟩
      simp only [hnone]

theorem apply_of_enabled {k : Kind} {e : Entry} {s : Scheduler} (h : Host)
    (he : s.table.get? k = some e) (henabled : e.enabled = true) :
    s.apply k h = s.schedule k h := by
  simp only [apply, he, henabled, if_true]

theorem apply_of_disabled {k : Kind} {e : Entry} {s : Scheduler} (h : Host)
    (he : s.table.get? k = some e) (henabled : e.enabled = false) :
    s.apply k h = s.unschedule k h := by
  simp only [apply, he, henabled, Bool.false_eq_true, if_false]

theorem scheduleEnabled_of_enabled {k : Kind} {e : Entry} {s : Scheduler} (h : Host)
    (he : s.table.get? k = some e) (henabled : e.enabled = true) :
    s.scheduleEnabled k h = ((s.schedule k h).2.1,
      (s.schedule k h).2.2.noteFailure (s.schedule k h).1 (.notScheduled k)) := by
  simp only [scheduleEnabled, he, henabled, if_true]

theorem scheduleEnabled_of_disabled {k : Kind} {s : Scheduler} (h : Host)
    (hdisabled : ∀ e, s.table.get? k = some e → e.enabled = false) :
    s.scheduleEnabled k h = (s, h) := by
  unfold scheduleEnabled
  split
  · rfl
  · rename_i e he
    rw [hdisabled e he, if_neg Bool.false_ne_true]

end Scheduler
end TelemetryAgent
