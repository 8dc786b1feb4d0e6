import TelemetryAgent.Proofs.Schedule.Load
import TelemetryAgent.Proofs.Schedule.Frame

/-!
# Entries and their timers

Which timers there are, who has them, and at which intervals they run. A scheduler owns the timers
that were created for it: each is the timer of the entry of its kind, or it has been released.
Failures of timers and of the store change which entries there are and nothing of this.

Two invariants carry it. `Owned` ties the table to the bank of timers; an operation on one entry
keeps it. `Exact` says that the timer of an entry runs at the period of the entry; a request breaks
it for one kind when it changes a period, and applying the request restores it.
-/
namespace TelemetryAgent

theorem getElem?_retire (timer : Option Nat) (bank : List TimerState) (i : Nat) :
    (retire timer bank)[i]? = if timer = some i then bank[i]?.map TimerState.retired else bank[i]? := by
  cases timer with
  | none => simp [retire]
  | some j => by_cases h : j = i <;> simp [retire, h]

@[simp] theorem length_retire (timer : Option Nat) (bank : List TimerState) :
    (retire timer bank).length = bank.length := by
  cases timer <;> simp [retire]

namespace Scheduler

/-- The live timers of the kinds other than `k` are the same in both banks. -/
def OthersKept (k : Kind) (bank bank' : List TimerState) : Prop :=
  ∀ (i : Nat) (t : TimerState), t.kind ≠ k → t.released = false →
    (bank'[i]? = some t ↔ bank[i]? = some t)

/-- The timers from number `first` on are those of the scheduler: each belongs to the entry of its
kind or is released. -/
structure Owned (first : Nat) (s : Scheduler) (bank : List TimerState) : Prop where
  base : first ≤ bank.length
  kind : ∀ {k e}, s.table.get? k = some e → e.kind = k
  holds : ∀ {k e i}, s.table.get? k = some e → e.timer = some i →
    first ≤ i ∧ ∃ interval, bank[i]? = some ⟨s.ident, k, interval, false⟩
  held : ∀ {i t}, first ≤ i → bank[i]? = some t → t.released = false →
    ∃ e, s.table.get? t.kind = some e ∧ e.timer = some i

/-- The timer of a kind, if it has one, runs at the period of its entry. -/
def Exact (s : Scheduler) (bank : List TimerState) (k : Kind) : Prop :=
  ∀ e i, s.table.get? k = some e → e.timer = some i →
    s.running = true ∧ 0 < e.period ∧ ∃ t, bank[i]? = some t ∧ t.interval = some e.seconds

variable {first : Nat} {s : Scheduler} {bank bank' : List TimerState} {k : Kind} {e : Entry}

/-! ## Changing one entry -/

/-- An operation that puts `o` in the place of a kind, and touches no live timer of another kind,
keeps `Owned` if the live timers of the kind are then exactly the timer of `o`. -/
theorem Owned.setEntry (ho : Owned first s bank) (hk : k ≠ .invalid) {o : Option Entry}
    (hothers : OthersKept k bank bank') (hbase : first ≤ bank'.length)
    (hkind : ∀ d, o = some d → d.kind = k)
    (hown : ∀ d i, o = some d → d.timer = some i →
      first ≤ i ∧ ∃ interval, bank'[i]? = some ⟨s.ident, k, interval, false⟩)
    (hmine : ∀ i t, first ≤ i → bank'[i]? = some t → t.released = false → t.kind = k →
      ∃ d, o = some d ∧ d.timer = some i) :
    Owned first (s.setEntry k o) bank' := by
  refine ⟨hbase, fun {j d} hd => ?_, fun {j d i} hd hi => ?_, fun {i t} hfirst ht hlive => ?_⟩
  · rw [get?_setEntry hk] at hd
    split at hd
    · rename_i hjk
      rw [hjk]
      exact hkind d hd
    · exact ho.kind hd
  · rw [get?_setEntry hk] at hd
    split at hd
    · rename_i hjk
      rw [hjk]
      exact hown d i hd hi
    · rename_i hjk
      obtain ⟨hfirst, interval, ht⟩ := ho.holds hd hi
      exact ⟨hfirst, interval, (hothers _ _ hjk rfl).mpr ht⟩
  · rw [get?_setEntry hk]
    split
    · rename_i htk
      exact hmine i t hfirst ht hlive htk
    · rename_i htk
      exact ho.held hfirst ((hothers _ _ htk hlive).mp ht) hlive

theorem OthersKept.refl (k : Kind) (bank : List TimerState) : OthersKept k bank bank :=
  fun _ _ _ _ => Iff.rfl

theorem OthersKept.retire (ho : Owned first s bank) (he : s.table.get? k = some e) :
    OthersKept k bank (retire e.timer bank) := by
  intro i t htk hlive
  rw [getElem?_retire]
  split
  · rename_i hi
    obtain ⟨-, interval, ht⟩ := ho.holds he hi
    rw [ht]
    refine ⟨fun heq => ?_, fun heq => ?_⟩
    · cases heq
      cases hlive
    · cases heq
      exact (htk rfl).elim
  · exact Iff.rfl

theorem OthersKept.append {made : List TimerState} (hothers : OthersKept k bank bank')
    (hmade : ∀ t ∈ made, t.released = true) : OthersKept k bank (bank' ++ made) := by
  intro i t htk hlive
  rw [← hothers _ _ htk hlive]
  by_cases hlt : i < bank'.length
  · rw [List.getElem?_append_left hlt]
  · have hnone : bank'[i]? = none := List.getElem?_eq_none (by omega)
    rw [List.getElem?_append_right (by omega), hnone]
    refine ⟨fun ht => ?_, fun ht => nomatch ht⟩
    rw [hmade t (List.mem_of_getElem? ht)] at hlive
    cases hlive

/-- What arming leaves at the number of a timer. -/
theorem Owned.getElem?_of_arms (ho : Owned first s bank) (he : s.table.get? k = some e)
    {timer : Nat} (ha : Host.Arms s.ident e e.seconds bank timer bank') :
    first ≤ timer ∧ bank.length ≤ bank'.length ∧
      bank'[timer]? = some ⟨s.ident, k, some e.seconds, false⟩ ∧
      (∀ i, i ≠ timer → bank'[i]? = bank[i]?) ∧
      (bank[timer]? = none ∨ e.timer = some timer) := by
  cases ha with
  | again hi =>
      obtain ⟨hfirst, interval, ht⟩ := ho.holds he hi
      refine ⟨hfirst, by simp, ?_, fun i hne => ?_, .inr hi⟩
      · rw [List.getElem?_modify_eq, ht]
        rfl
      · exact List.getElem?_modify_ne _ _ (Ne.symm hne)
  | afresh hnone =>
      refine ⟨ho.base, by simp, ?_, fun i hne => ?_, .inl (List.getElem?_eq_none (Nat.le_refl _))⟩
      · rw [List.getElem?_concat_length, ho.kind he]
      · rcases Nat.lt_or_gt_of_ne hne with hlt | hgt
        · exact List.getElem?_append_left hlt
        · rw [List.getElem?_eq_none (by simp; omega), List.getElem?_eq_none (by omega)]

theorem OthersKept.arms (ho : Owned first s bank) (he : s.table.get? k = some e) {timer : Nat}
    (ha : Host.Arms s.ident e e.seconds bank timer bank') : OthersKept k bank bank' := by
  obtain ⟨-, -, htimer, hother, hown⟩ := ho.getElem?_of_arms he ha
  intro i t htk hlive
  by_cases hne : i = timer
  · subst hne
    rw [htimer]
    refine ⟨fun heq => ?_, fun heq => ?_⟩
    · cases heq
      exact (htk rfl).elim
    · rcases hown with hnone | hi
      · rw [hnone] at heq
        cases heq
      · obtain ⟨-, interval, ht⟩ := ho.holds he hi
        rw [ht] at heq
        cases heq
        exact (htk rfl).elim
  · rw [hother i hne]

theorem Owned.unarm (ho : Owned first s bank) (he : s.table.get? k = some e) :
    Owned first (s.setEntry k (some e.unarmed)) (retire e.timer bank) := by
  refine ho.setEntry (Table.ne_invalid_of_get? he) (.retire ho he) ?_ ?_ ?_ ?_
  · rw [length_retire]
    exact ho.base
  · intro d hd
    cases hd
    exact (ho.kind he : e.kind = k)
  · intro d i hd hi
    cases hd
    cases hi
  · intro i t hfirst ht hlive htk
    rw [getElem?_retire] at ht
    split at ht
    · obtain ⟨t₀, -, rfl⟩ := Option.map_eq_some_iff.mp ht
      cases hlive
    · rename_i hne
      obtain ⟨d, hd, hi⟩ := ho.held hfirst ht hlive
      rw [htk, he] at hd
      cases hd
      exact (hne hi).elim

theorem Owned.drop (ho : Owned first s bank) (he : s.table.get? k = some e)
    {made : List TimerState} (hmade : ∀ t ∈ made, t.released = true) :
    Owned first (s.setEntry k none) (retire e.timer bank ++ made) := by
  have hk := Table.ne_invalid_of_get? he
  have hunarm := ho.unarm he
  refine ho.setEntry hk ((OthersKept.retire ho he).append hmade) ?_ ?_ ?_ ?_
  · have hbase := hunarm.base
    rw [List.length_append]
    omega
  · intro d hd
    cases hd
  · intro d i hd
    cases hd
  · intro i t hfirst ht hlive htk
    by_cases hlt : i < (TelemetryAgent.retire e.timer bank).length
    · rw [List.getElem?_append_left hlt] at ht
      obtain ⟨d, hd, hi⟩ := hunarm.held hfirst ht hlive
      rw [htk, get?_setEntry hk, if_pos rfl] at hd
      cases hd
      cases hi
    · rw [List.getElem?_append_right (by omega)] at ht
      rw [hmade t (List.mem_of_getElem? ht)] at hlive
      cases hlive

theorem Owned.arm (ho : Owned first s bank) (he : s.table.get? k = some e) {timer : Nat}
    (ha : Host.Arms s.ident e e.seconds bank timer bank') :
    Owned first (s.setEntry k (some { e with timer := some timer })) bank' := by
  obtain ⟨hfirst, hlength, htimer, hother, hown⟩ := ho.getElem?_of_arms he ha
  refine ho.setEntry (Table.ne_invalid_of_get? he) (.arms ho he ha) ?_ ?_ ?_ ?_
  · exact Nat.le_trans ho.base hlength
  · intro d hd
    cases hd
    exact (ho.kind he : e.kind = k)
  · intro d i hd hi
    cases hd
    cases hi
    exact ⟨hfirst, some e.seconds, htimer⟩
  · intro i t hle ht hlive htk
    by_cases hne : i = timer
    · exact ⟨_, rfl, by rw [hne]⟩
    · rw [hother i hne] at ht
      obtain ⟨d, hd, hi⟩ := ho.held hle ht hlive
      rw [htk, he] at hd
      cases hd
      -- the timer that `e` had is the one that was armed
      cases ha with
      | again hei => exact (hne (Option.some.inj (hi.symm.trans hei))).elim
      | afresh hnone => exact nomatch hnone.symm.trans hi

/-- A new period or flag, and an entry for a kind that had none, leave the timers alone. -/
theorem Owned.request (ho : Owned first s bank) (hr : Requested s k e) :
    Owned first (s.setEntry k (some e)) bank := by
  refine ho.setEntry hr.schedulable (.refl k bank) ho.base ?_ ?_ ?_
  · intro d hd
    cases hd
    rw [hr.kind]
    cases hget : s.table.get? k with
    | none => rfl
    | some e₀ => exact ho.kind hget
  · intro d i hd hi
    cases hd
    rw [hr.timer] at hi
    obtain ⟨e₀, he₀, hi₀⟩ := Option.bind_eq_some_iff.mp hi
    exact ho.holds he₀ hi₀
  · intro i t hfirst ht hlive htk
    obtain ⟨d, hd, hi⟩ := ho.held hfirst ht hlive
    refine ⟨e, rfl, ?_⟩
    rw [hr.timer, ← htk, hd]
    exact hi

/-- What is true of a kind stays true when another one changes. -/
theorem Exact.setEntry (ho : Owned first s bank) {j : Kind} (hj : Exact s bank j)
    (hk : k ≠ .invalid) (hjk : j ≠ k) {o : Option Entry} (hothers : OthersKept k bank bank') :
    Exact (s.setEntry k o) bank' j := by
  intro d i hd hi
  rw [get?_setEntry hk, if_neg hjk] at hd
  obtain ⟨hrunning, hperiod, t, ht, hinterval⟩ := hj d i hd hi
  obtain ⟨-, interval, ht'⟩ := ho.holds hd hi
  rw [ht] at ht'
  cases ht'
  exact ⟨hrunning, hperiod, _, (hothers _ _ hjk rfl).mpr ht, hinterval⟩

/-! ## Calls on one entry -/

/-- Table and timers agree. -/
structure Wired (first : Nat) (s : Scheduler) (bank : List TimerState) : Prop where
  owned : Owned first s bank
  exact : ∀ k, Exact s bank k

/-- Table and timers agree but for the period of one kind, which a request has changed. -/
structure WiredBut (k : Kind) (first : Nat) (s : Scheduler) (bank : List TimerState) : Prop where
  owned : Owned first s bank
  exact : ∀ j, j ≠ k → Exact s bank j
  running : ∀ e i, s.table.get? k = some e → e.timer = some i → s.running = true

theorem Wired.but (hw : Wired first s bank) (k : Kind) : WiredBut k first s bank :=
  ⟨hw.owned, fun j _ => hw.exact j, fun e i he hi => (hw.exact k e i he hi).1⟩

theorem Wired.request (hw : Wired first s bank) (hr : Requested s k e) :
    WiredBut k first (s.setEntry k (some e)) bank := by
  refine ⟨hw.owned.request hr, fun j hjk => ?_, fun d i hd hi => ?_⟩
  · exact (hw.exact j).setEntry hw.owned hr.schedulable hjk (.refl k bank)
  · rw [get?_setEntry hr.schedulable, if_pos rfl] at hd
    cases hd
    rw [hr.timer] at hi
    obtain ⟨e₀, he₀, hi₀⟩ := Option.bind_eq_some_iff.mp hi
    exact (hw.exact k e₀ i he₀ hi₀).1

/-- The entry without a timer is right in any case. -/
theorem WiredBut.unarm (hw : WiredBut k first s bank) (he : s.table.get? k = some e) :
    Wired first (s.setEntry k (some e.unarmed)) (retire e.timer bank) := by
  have hk := Table.ne_invalid_of_get? he
  refine ⟨hw.owned.unarm he, fun j => ?_⟩
  by_cases hjk : j = k
  · intro d i hd hi
    rw [hjk, get?_setEntry hk, if_pos rfl] at hd
    cases hd
    cases hi
  · exact (hw.exact j hjk).setEntry hw.owned hk hjk (.retire hw.owned he)

theorem WiredBut.scheduled (hw : WiredBut k first s bank) (he : s.table.get? k = some e)
    {r : Outcome} {s' : Scheduler} (hs : Scheduled k e s bank r s' bank') :
    Wired first s' bank' := by
  have hk := Table.ne_invalid_of_get? he
  cases hs with
  | refused _ => exact hw.unarm he
  | written _ hstopped =>
      refine ⟨hw.owned, fun j => ?_⟩
      by_cases hjk : j = k
      · intro d i hd hi
        rw [hjk] at hd
        rw [hw.running d i hd hi] at hstopped
        cases hstopped
      · exact hw.exact j hjk
  | armed hperiod hrunning harms =>
      refine ⟨hw.owned.arm he harms, fun j => ?_⟩
      by_cases hjk : j = k
      · intro d i hd hi
        rw [hjk, get?_setEntry hk, if_pos rfl] at hd
        cases hd
        cases hi
        obtain ⟨-, -, htimer, -⟩ := hw.owned.getElem?_of_arms he harms
        exact ⟨hrunning, hperiod, _, htimer, rfl⟩
      · exact (hw.exact j hjk).setEntry hw.owned hk hjk (.arms hw.owned he harms)
  | dropped _ _ hmade =>
      refine ⟨hw.owned.drop he hmade, fun j => ?_⟩
      by_cases hjk : j = k
      · intro d i hd
        rw [hjk, get?_setEntry hk, if_pos rfl] at hd
        cases hd
      · exact (hw.exact j hjk).setEntry hw.owned hk hjk ((OthersKept.retire hw.owned he).append hmade)

theorem WiredBut.schedule {h : Host} (hw : WiredBut k first s h.bank) :
    Wired first (s.schedule k h).2.1 (s.schedule k h).2.2.bank := by
  cases he : s.table.get? k with
  | some e => exact hw.scheduled he (schedule_cases he)
  | none =>
      rw [schedule_of_none h he]
      refine ⟨hw.owned, fun j => ?_⟩
      by_cases hjk : j = k
      · intro d i hd
        rw [hjk, he] at hd
        cases hd
      · exact hw.exact j hjk

theorem WiredBut.unschedule {h : Host} (hw : WiredBut k first s h.bank) :
    Wired first (s.unschedule k h).2.1 (s.unschedule k h).2.2.bank := by
  cases he : s.table.get? k with
  | some e =>
      rw [bank_unschedule h he, unschedule_of_some h he]
      exact hw.unarm he
  | none =>
      rw [unschedule_of_none h he]
      refine ⟨hw.owned, fun j => ?_⟩
      by_cases hjk : j = k
      · intro d i hd
        rw [hjk, he] at hd
        cases hd
      · exact hw.exact j hjk

theorem WiredBut.apply {h : Host} (hw : WiredBut k first s h.bank) :
    Wired first (s.apply k h).2.1 (s.apply k h).2.2.bank := by
  unfold Scheduler.apply
  split
  · split
    · exact hw.schedule
    · exact hw.unschedule
  · exact hw.unschedule

/-! ## Calls on all entries -/

theorem Owned.congr {s' : Scheduler} (ho : Owned first s bank) (htable : s'.table = s.table)
    (hident : s'.ident = s.ident) : Owned first s' bank where
  base := ho.base
  kind := by
    rw [htable]
    exact ho.kind
  holds := by
    rw [htable, hident]
    exact ho.holds
  held := by
    rw [htable]
    exact ho.held

theorem Wired.congr {s' : Scheduler} (hw : Wired first s bank) (htable : s'.table = s.table)
    (hident : s'.ident = s.ident) (hrunning : s'.running = s.running) : Wired first s' bank where
  owned := hw.owned.congr htable hident
  exact := by
    unfold Exact
    rw [htable, hrunning]
    exact hw.exact

/-- Without timers, whether the scheduler runs does not matter. -/
theorem Owned.wired (ho : Owned first s bank)
    (hnone : ∀ k e, s.table.get? k = some e → e.timer = none) : Wired first s bank := by
  refine ⟨ho, fun k e i he hi => ?_⟩
  rw [hnone k e he] at hi
  cases hi

theorem Wired.unarmed_of_stopped (hw : Wired first s bank) (hstopped : s.running = false) (k : Kind)
    (e : Entry) (he : s.table.get? k = some e) : e.timer = none := by
  cases hi : e.timer with
  | none => rfl
  | some i =>
      have hrunning := (hw.exact k e i he hi).1
      rw [hstopped] at hrunning
      cases hrunning

theorem Wired.begun (hw : Wired first s bank) (hstopped : s.running = false) (worker : Nat) :
    Wired first (s.begun worker) bank :=
  (hw.owned.congr rfl rfl : Owned first (s.begun worker) bank).wired (hw.unarmed_of_stopped hstopped)

theorem Wired.scheduleEnabled {h : Host} (hw : Wired first s h.bank) (k : Kind) :
    Wired first (s.scheduleEnabled k h).1 (s.scheduleEnabled k h).2.bank := by
  unfold Scheduler.scheduleEnabled
  split
  · exact hw
  · split
    · have hscheduled := (hw.but k).schedule
      simp only [Host.bank, Host.noteFailure_timers]
      exact hscheduled
    · exact hw

theorem Wired.scheduleAll {h : Host} (hw : Wired first s h.bank) (kinds : List Kind) :
    Wired first (Scheduler.scheduleAll kinds s h).1 (Scheduler.scheduleAll kinds s h).2.bank := by
  induction kinds generalizing s h with
  | nil => exact hw
  | cons k rest ih => exact ih (hw.scheduleEnabled k)

theorem Wired.disarmEach {h : Host} (hw : Wired first s h.bank) (kinds : List Kind) :
    Wired first (Scheduler.disarmEach kinds s h).1 (Scheduler.disarmEach kinds s h).2.bank := by
  induction kinds generalizing s h with
  | nil => exact hw
  | cons k rest ih =>
      unfold Scheduler.disarmEach
      split
      · exact ih hw
      · rename_i e he
        refine ih ?_
        have hunarmed := (hw.but k).unarm he
        rw [← Host.bank_disarm] at hunarmed
        simp only [Host.bank, Host.noteFailure_timers] at hunarmed ⊢
        exact hunarmed

theorem get?_disarmEach (kinds : List Kind) (s : Scheduler) (h : Host) (k : Kind) :
    (disarmEach kinds s h).1.table.get? k =
      if k ∈ kinds then (s.table.get? k).map Entry.unarmed else s.table.get? k := by
  induction kinds generalizing s h with
  | nil => simp [disarmEach]
  | cons j rest ih =>
      unfold disarmEach
      split
      · rename_i hnone
        rw [ih]
        by_cases hkj : k = j
        · subst hkj
          simp [hnone]
        · simp [hkj]
      · rename_i e he
        have hset := get?_setEntry (Table.ne_invalid_of_get? he) (some e.unarmed) s k
        simp only [Entry.unarmed] at hset
        rw [ih, hset]
        by_cases hkj : k = j
        · subst hkj
          simp [he, Entry.unarmed]
        · simp [hkj]

theorem get?_halt (s : Scheduler) (h : Host) (k : Kind) :
    (s.halt h).1.table.get? k = (s.table.get? k).map Entry.unarmed := by
  change (disarmEach Kind.schedulable s h).1.table.get? k = _
  rw [get?_disarmEach]
  split
  · rfl
  · rename_i hk
    cases he : s.table.get? k with
    | none => rfl
    | some e => exact (hk (Kind.mem_schedulable (Table.ne_invalid_of_get? he))).elim

/-- The first half of a stop leaves no entry with a timer. -/
theorem unarmed_of_halt {s : Scheduler} {h : Host} {k : Kind} {e : Entry}
    (he : (s.halt h).1.table.get? k = some e) : e.timer = none := by
  rw [get?_halt] at he
  obtain ⟨e₀, -, rfl⟩ := Option.map_eq_some_iff.mp he
  rfl

theorem Wired.halt {h : Host} (hw : Wired first s h.bank) :
    Wired first (s.halt h).1 (s.halt h).2.bank := by
  have hall : Wired first (s.disarmAll h).1 (s.disarmAll h).2.bank := hw.disarmEach Kind.schedulable
  exact (hall.owned.congr rfl rfl : Owned first (s.halt h).1 _).wired fun _ _ he => unarmed_of_halt he

theorem Wired.start {h : Host} (hw : Wired first s h.bank) (publisher : Nat) :
    Wired first (s.start publisher h).2.1 (s.start publisher h).2.2.bank := by
  have hcases := start_cases publisher s h
  generalize (s.start publisher h).1 = r, (s.start publisher h).2.1 = s',
    (s.start publisher h).2.2 = h' at hcases
  cases hcases with
  | already => exact hw
  | refused _ _ htimers =>
      rw [Host.bank, htimers]
      exact hw.congr rfl rfl rfl
  | spawned hstopped _ htimers =>
      refine Wired.scheduleAll ?_ Kind.schedulable
      rw [Host.bank, htimers]
      exact hw.begun hstopped _

theorem Wired.await {h : Host} (hw : Wired first s h.bank) (timeoutMillis : Nat) :
    Wired first (s.await timeoutMillis h).2.1 (s.await timeoutMillis h).2.2.bank := by
  have hwork := await_work timeoutMillis s h
  have hbank : (s.await timeoutMillis h).2.2.bank = h.bank := congrArg TimerBank.timers hwork.timers
  rw [hbank]
  exact hw.congr hwork.table hwork.ident hwork.running

theorem Wired.set {h : Host} (hw : Wired first s h.bank) (path : String) (value : Value) :
    Wired first (s.set path value h).2.1 (s.set path value h).2.2.bank := by
  cases hr : s.setRequest path value with
  | none =>
      obtain ⟨f, hset⟩ := set_of_no_request h hr
      rw [hset]
      exact hw
  | some request =>
      obtain ⟨k, e⟩ := request
      rw [set_of_request h hr]
      exact (hw.request (requested_of_set hr)).apply

theorem Wired.unset {h : Host} (hw : Wired first s h.bank) (path : String) :
    Wired first (s.unset path h).2.1 (s.unset path h).2.2.bank := by
  cases hr : s.unsetRequest path with
  | none =>
      obtain ⟨f, h', hunset, hh'⟩ := unset_of_no_request h hr
      rw [hunset]
      rcases hh' with rfl | ⟨n, rfl⟩
      · exact hw
      · exact hw
  | some request =>
      obtain ⟨k, e⟩ := request
      rw [unset_of_request h hr]
      exact (hw.request (requested_of_unset hr)).apply

theorem Wired.perform {h : Host} (hw : Wired first s h.bank) (op : Operation) :
    Wired first (op.perform s h).2.1 (op.perform s h).2.2.bank := by
  cases op with
  | start publisher => exact hw.start publisher
  | stop timeoutMillis => exact hw.halt.await timeoutMillis
  | schedule k => exact (hw.but k).schedule
  | unschedule k => exact (hw.but k).unschedule
  | set path value => exact hw.set path value
  | unset path => exact hw.unset path

theorem Fresh.wired {baseline : List BaselineItem} {config : WorkerConfig} {h h' : Host}
    (hs : Fresh baseline config h s h') : Wired h'.bank.length s h'.bank := by
  refine Owned.wired ⟨Nat.le_refl _, fun he => (hs.entry he).1, fun he hi => ?_, fun hle ht => ?_⟩
    fun k e he => (hs.entry he).2
  · rw [(hs.entry he).2] at hi
    cases hi
  · rw [List.getElem?_eq_none hle] at ht
    cases ht

end Scheduler

/-! ## Runs -/

namespace System

open Scheduler

variable {first : Nat} {x : System}

theorem wired_of_offstage {y : System} (hoff : Offstage x y)
    (hw : Wired first x.scheduler x.host.bank) : Wired first y.scheduler y.host.bank := by
  rw [Host.bank, hoff.timers]
  exact hw.congr hoff.table hoff.ident hoff.running

theorem wired_step (hw : Wired first x.scheduler x.host.bank) (m : Move) :
    Wired first (x.step m).scheduler (x.step m).host.bank := by
  cases m with
  | call op => exact hw.perform op
  | stopWhile timeoutMillis meanwhile =>
      have hhalted : Wired first x.halted.scheduler x.halted.host.bank := hw.halt
      exact (wired_of_offstage (happenAll_offstage meanwhile x.halted) hhalted).await timeoutMillis
  | ambient a => exact wired_of_offstage (happen_offstage a x) hw

theorem wired_run (hw : Wired first x.scheduler x.host.bank) (moves : List Move) :
    Wired first (x.run moves).scheduler (x.run moves).host.bank :=
  run_induction (p := fun y => Wired first y.scheduler y.host.bank) hw fun m _ _ hy =>
    wired_step hy m

end System
end TelemetryAgent
