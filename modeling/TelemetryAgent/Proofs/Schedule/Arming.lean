import TelemetryAgent.Proofs.Schedule.Wiring

/-!
# Armed kinds

A kind is armed exactly while the scheduler runs and the kind has an entry that is enabled and has a
positive period, and its timer then runs at that period. This holds after every run that changes
schedules by requests, whatever fails on the way. A direct call can schedule an entry that is not
enabled, or unschedule one that is; what a timer says of its entry is true also then.
-/
namespace TelemetryAgent

namespace Scheduler

/-- An enabled entry with a positive period has a timer while the scheduler runs. -/
def Complete (s : Scheduler) (k : Kind) : Prop :=
  ∀ e, s.table.get? k = some e → s.running = true → e.enabled = true → 0 < e.period →
    e.timer.isSome = true

/-- Only an enabled entry has a timer. -/
def Wanted (s : Scheduler) (k : Kind) : Prop :=
  ∀ e, s.table.get? k = some e → e.timer.isSome = true → e.enabled = true

variable {first : Nat} {s : Scheduler} {bank bank' : List TimerState} {k : Kind} {e : Entry}

/-! ## One kind -/

/-- The timer of a kind is there when it is wanted, and only then. -/
structure Regular (s : Scheduler) (k : Kind) : Prop where
  complete : Complete s k
  wanted : Wanted s k

/-- An operation on a kind leaves alone what is known of another one. -/
structure Apart (k : Kind) (s s' : Scheduler) : Prop where
  running : s'.running = s.running
  other : ∀ j, j ≠ k → s'.table.get? j = s.table.get? j

theorem Apart.refl (k : Kind) (s : Scheduler) : Apart k s s := ⟨rfl, fun _ _ => rfl⟩

theorem Apart.trans {s₁ s₂ s₃ : Scheduler} (h₁ : Apart k s₁ s₂) (h₂ : Apart k s₂ s₃) :
    Apart k s₁ s₃ :=
  ⟨h₂.running.trans h₁.running, fun j hj => (h₂.other j hj).trans (h₁.other j hj)⟩

theorem Apart.setEntry (hk : k ≠ .invalid) (o : Option Entry) (s : Scheduler) :
    Apart k s (s.setEntry k o) :=
  ⟨rfl, fun j hj => by rw [get?_setEntry hk, if_neg hj]⟩

theorem Apart.regular {s' : Scheduler} (ha : Apart k s s') {j : Kind} (hj : j ≠ k)
    (hr : Regular s j) : Regular s' j where
  complete := by
    intro d hd hrunning
    rw [ha.other j hj] at hd
    rw [ha.running] at hrunning
    exact hr.complete d hd hrunning
  wanted := by
    intro d hd
    rw [ha.other j hj] at hd
    exact hr.wanted d hd

theorem Scheduled.apart {r : Outcome} {s' : Scheduler} (he : s.table.get? k = some e)
    (hs : Scheduled k e s bank r s' bank') : Apart k s s' := by
  have hk := Table.ne_invalid_of_get? he
  cases hs with
  | written => exact .refl k s
  | refused | armed | dropped => exact .setEntry hk _ s

theorem schedule_apart (k : Kind) (s : Scheduler) (h : Host) : Apart k s (s.schedule k h).2.1 := by
  cases he : s.table.get? k with
  | some e => exact (schedule_cases he).apart he
  | none =>
      rw [schedule_of_none h he]
      exact .refl k s

theorem unschedule_apart (k : Kind) (s : Scheduler) (h : Host) :
    Apart k s (s.unschedule k h).2.1 := by
  cases he : s.table.get? k with
  | some e =>
      rw [unschedule_of_some h he]
      exact .setEntry (Table.ne_invalid_of_get? he) _ s
  | none =>
      rw [unschedule_of_none h he]
      exact .refl k s

/-- Scheduling an enabled entry gives it a timer, unless its period forbids it or the scheduler does
not run; an entry whose timer fails is gone. -/
theorem regular_schedule {h : Host}
    (henabled : ∀ e, s.table.get? k = some e → e.enabled = true) :
    Regular (s.schedule k h).2.1 k := by
  cases he : s.table.get? k with
  | none =>
      rw [schedule_of_none h he]
      exact ⟨fun d hd => (nomatch he.symm.trans hd), fun d hd => (nomatch he.symm.trans hd)⟩
  | some e =>
      have hk := Table.ne_invalid_of_get? he
      have hcases := schedule_cases (h := h) he
      generalize (s.schedule k h).2.1 = s', (s.schedule k h).1 = r,
        (s.schedule k h).2.2.bank = bank' at hcases
      cases hcases with
      | refused hperiod =>
          refine ⟨fun d hd _ _ hpositive => ?_, fun d hd htimer => ?_⟩
          · rw [get?_setEntry hk, if_pos rfl] at hd
            cases hd
            exact (Int64.not_lt.mpr hperiod hpositive).elim
          · rw [get?_setEntry hk, if_pos rfl] at hd
            cases hd
            cases htimer
      | written _ hstopped =>
          refine ⟨fun d _ hrunning => ?_, fun d hd _ => henabled d hd⟩
          rw [hstopped] at hrunning
          cases hrunning
      | armed =>
          refine ⟨fun d hd _ _ _ => ?_, fun d hd _ => ?_⟩
          · rw [get?_setEntry hk, if_pos rfl] at hd
            cases hd
            rfl
          · rw [get?_setEntry hk, if_pos rfl] at hd
            cases hd
            exact henabled e he
      | dropped =>
          refine ⟨fun d hd => ?_, fun d hd => ?_⟩ <;>
          · rw [get?_setEntry hk, if_pos rfl] at hd
            cases hd

/-- An entry that is not enabled has no timer once it is unscheduled. -/
theorem regular_unschedule {h : Host}
    (hdisabled : ∀ e, s.table.get? k = some e → e.enabled = false) :
    Regular (s.unschedule k h).2.1 k := by
  cases he : s.table.get? k with
  | none =>
      rw [unschedule_of_none h he]
      exact ⟨fun d hd => (nomatch he.symm.trans hd), fun d hd => (nomatch he.symm.trans hd)⟩
  | some e =>
      have hk := Table.ne_invalid_of_get? he
      rw [unschedule_of_some h he]
      refine ⟨fun d hd _ henabled _ => ?_, fun d hd htimer => ?_⟩
      · rw [get?_setEntry hk, if_pos rfl] at hd
        cases hd
        rw [Entry.unarmed_enabled, hdisabled e he] at henabled
        cases henabled
      · rw [get?_setEntry hk, if_pos rfl] at hd
        cases hd
        cases htimer

theorem regular_apply (k : Kind) (s : Scheduler) (h : Host) :
    Regular (s.apply k h).2.1 k ∧ Apart k s (s.apply k h).2.1 := by
  cases he : s.table.get? k with
  | none =>
      have happly : s.apply k h = s.unschedule k h := by simp only [apply, he]
      rw [happly]
      refine ⟨regular_unschedule fun d hd => ?_, unschedule_apart k s h⟩
      rw [he] at hd
      cases hd
  | some e =>
      cases henabled : e.enabled with
      | true =>
          rw [apply_of_enabled h he henabled]
          refine ⟨regular_schedule fun d hd => ?_, schedule_apart k s h⟩
          rw [he] at hd
          cases hd
          exact henabled
      | false =>
          rw [apply_of_disabled h he henabled]
          refine ⟨regular_unschedule fun d hd => ?_, unschedule_apart k s h⟩
          rw [he] at hd
          cases hd
          exact henabled

def AllRegular (s : Scheduler) : Prop := ∀ k, Regular s k

theorem AllRegular.congr {s' : Scheduler} (hr : AllRegular s) (htable : s'.table = s.table)
    (hrunning : s'.running = s.running) : AllRegular s' := by
  intro k
  constructor
  · unfold Complete
    rw [htable, hrunning]
    exact (hr k).complete
  · unfold Wanted
    rw [htable]
    exact (hr k).wanted

/-- Without timers there is nothing to arm before the scheduler runs. -/
theorem allRegular_of_stopped (hstopped : s.running = false)
    (hnone : ∀ k e, s.table.get? k = some e → e.timer = none) : AllRegular s := by
  intro k
  constructor
  · intro e _ hrunning
    rw [hstopped] at hrunning
    cases hrunning
  · intro e he htimer
    rw [hnone k e he] at htimer
    cases htimer

theorem AllRegular.request (hr : AllRegular s) (hrequest : Requested s k e) (h : Host) :
    AllRegular ((s.setEntry k (some e)).apply k h).2.1 := by
  obtain ⟨hregular, hapart⟩ := regular_apply k (s.setEntry k (some e)) h
  intro j
  by_cases hjk : j = k
  · rw [hjk]
    exact hregular
  · exact ((Apart.setEntry hrequest.schedulable _ s).trans hapart).regular hjk (hr j)

/-! ## Starting and stopping -/

theorem regular_scheduleEnabled {h : Host} (hwanted : Wanted s k) :
    Regular (s.scheduleEnabled k h).1 k ∧ Apart k s (s.scheduleEnabled k h).1 := by
  by_cases henabled : ∃ e, s.table.get? k = some e ∧ e.enabled = true
  · obtain ⟨e, he, henabled⟩ := henabled
    rw [scheduleEnabled_of_enabled h he henabled]
    refine ⟨regular_schedule fun d hd => ?_, schedule_apart k s h⟩
    rw [he] at hd
    cases hd
    exact henabled
  · have hdisabled : ∀ e, s.table.get? k = some e → e.enabled = false := fun e he => by
      cases hflag : e.enabled with
      | true => exact (henabled ⟨e, he, hflag⟩).elim
      | false => rfl
    rw [scheduleEnabled_of_disabled h hdisabled]
    refine ⟨⟨fun e he _ hflag => ?_, hwanted⟩, .refl k s⟩
    rw [hdisabled e he] at hflag
    cases hflag

/-- Arming one kind after the other makes every one of them regular, if nothing but enabled entries
had timers before. -/
theorem regular_scheduleAll {kinds : List Kind} {h : Host} (hwanted : ∀ k, Wanted s k)
    (hdone : ∀ k, k ∉ kinds → Regular s k) : AllRegular (scheduleAll kinds s h).1 := by
  induction kinds generalizing s h with
  | nil => exact fun k => hdone k List.not_mem_nil
  | cons j rest ih =>
      obtain ⟨hregular, hapart⟩ := regular_scheduleEnabled (h := h) (hwanted j)
      refine ih (s := (s.scheduleEnabled j h).1) (h := (s.scheduleEnabled j h).2) (fun k => ?_)
        fun k hk => ?_
      · by_cases hkj : k = j
        · rw [hkj]
          exact hregular.wanted
        · intro e he
          rw [hapart.other k hkj] at he
          exact hwanted k e he
      · by_cases hkj : k = j
        · rw [hkj]
          exact hregular
        · refine hapart.regular hkj (hdone k fun hmem => ?_)
          rcases List.mem_cons.mp hmem with rfl | hrest
          · exact hkj rfl
          · exact hk hrest

theorem AllRegular.start {h : Host} (hr : AllRegular s) (hw : Wired first s h.bank)
    (publisher : Nat) : AllRegular (s.start publisher h).2.1 := by
  have hcases := start_cases publisher s h
  generalize (s.start publisher h).1 = r, (s.start publisher h).2.1 = s',
    (s.start publisher h).2.2 = h' at hcases
  cases hcases with
  | already => exact hr
  | refused => exact hr.congr rfl rfl
  | spawned hstopped =>
      refine regular_scheduleAll (fun k e he htimer => ?_) fun k hk => ⟨fun e he => ?_, fun e he => ?_⟩
      · rw [hw.unarmed_of_stopped hstopped k e he] at htimer
        cases htimer
      · exact (hk (Kind.mem_schedulable (Table.ne_invalid_of_get? he))).elim
      · exact (hk (Kind.mem_schedulable (Table.ne_invalid_of_get? he))).elim

theorem allRegular_halt (s : Scheduler) (h : Host) : AllRegular (s.halt h).1 := by
  exact allRegular_of_stopped rfl fun _ _ he => unarmed_of_halt he

theorem AllRegular.await (hr : AllRegular s) (timeoutMillis : Nat) (h : Host) :
    AllRegular (s.await timeoutMillis h).2.1 := by
  have hwork := await_work timeoutMillis s h
  exact hr.congr hwork.table hwork.running

theorem AllRegular.set (hr : AllRegular s) (path : String) (value : Value) (h : Host) :
    AllRegular (s.set path value h).2.1 := by
  cases hrequest : s.setRequest path value with
  | none =>
      obtain ⟨f, hset⟩ := set_of_no_request h hrequest
      rw [hset]
      exact hr
  | some request =>
      obtain ⟨k, e⟩ := request
      rw [set_of_request h hrequest]
      exact hr.request (requested_of_set hrequest) h

theorem AllRegular.unset (hr : AllRegular s) (path : String) (h : Host) :
    AllRegular (s.unset path h).2.1 := by
  cases hrequest : s.unsetRequest path with
  | none =>
      obtain ⟨f, h', hunset, -⟩ := unset_of_no_request h hrequest
      rw [hunset]
      exact hr
  | some request =>
      obtain ⟨k, e⟩ := request
      rw [unset_of_request h hrequest]
      exact hr.request (requested_of_unset hrequest) h

/-! ## What is armed -/

/-- If table and timers agree, a kind is armed if its entry has a timer, which runs at the period of
the entry. -/
theorem Wired.isArmed_iff {h : Host} (hw : Wired first s h.bank) (k : Kind) :
    s.isArmed k h = true ↔ ∃ e timer, s.table.get? k = some e ∧ e.timer = some timer ∧
      s.running = true ∧ 0 < e.period ∧
        h.bank[timer]? = some ⟨s.ident, k, some e.seconds, false⟩ := by
  unfold isArmed
  split
  · rename_i timer hbind
    obtain ⟨e, he, htimer⟩ := Option.bind_eq_some_iff.mp hbind
    obtain ⟨hrunning, hperiod, t, ht, hinterval⟩ := hw.exact k e timer he htimer
    obtain ⟨-, interval, ht'⟩ := hw.owned.holds he htimer
    rw [ht] at ht'
    cases ht'
    cases hinterval
    unfold Host.timerRunning
    rw [show h.timers.timers[timer]? = some _ from ht]
    exact ⟨fun _ => ⟨e, timer, he, htimer, hrunning, hperiod, ht⟩, fun _ => rfl⟩
  · rename_i hbind
    refine ⟨fun hfalse => (nomatch hfalse), fun hex => ?_⟩
    obtain ⟨e, timer, he, htimer, -⟩ := hex
    rw [he] at hbind
    exact nomatch htimer.symm.trans hbind

theorem Wired.isArmed_iff_of_regular {h : Host} (hw : Wired first s h.bank) (hr : Regular s k) :
    s.isArmed k h = true ↔ s.running = true ∧ ∃ e, s.table.get? k = some e ∧ e.enabled = true ∧
      0 < e.period := by
  rw [hw.isArmed_iff]
  constructor
  · intro ⟨e, timer, he, htimer, hrunning, hperiod, _⟩
    refine ⟨hrunning, e, he, hr.wanted e he ?_, hperiod⟩
    rw [htimer]
    rfl
  · intro ⟨hrunning, e, he, henabled, hperiod⟩
    obtain ⟨timer, htimer⟩ := Option.isSome_iff_exists.mp (hr.complete e he hrunning henabled hperiod)
    have harmed := hw.exact k e timer he htimer
    obtain ⟨-, interval, ht⟩ := hw.owned.holds he htimer
    obtain ⟨t, ht', hinterval⟩ := harmed.2.2
    rw [ht] at ht'
    cases ht'
    cases hinterval
    exact ⟨e, timer, he, htimer, hrunning, hperiod, ht⟩

end Scheduler

/-! ## Runs -/

/-- A call on a kind that does not come from a request. -/
def Move.isDirect : Move → Bool
  | call (.schedule _) => true
  | call (.unschedule _) => true
  | _ => false

namespace System

open Scheduler

theorem allRegular_step {first : Nat} {x : System} {m : Move} (hdirect : m.isDirect = false)
    (hw : Wired first x.scheduler x.host.bank) (hr : AllRegular x.scheduler) :
    AllRegular (x.step m).scheduler := by
  cases m with
  | call op =>
      cases op with
      | start publisher => exact hr.start hw publisher
      | stop timeoutMillis => exact (allRegular_halt x.scheduler x.host).await timeoutMillis _
      | schedule k => cases hdirect
      | unschedule k => cases hdirect
      | set path value => exact hr.set path value x.host
      | unset path => exact hr.unset path x.host
  | stopWhile timeoutMillis meanwhile =>
      have hoff := happenAll_offstage meanwhile x.halted
      have hhalted : AllRegular x.halted.scheduler := allRegular_halt x.scheduler x.host
      exact (hhalted.congr hoff.table hoff.running).await timeoutMillis _
  | ambient a =>
      have hoff := happen_offstage a x
      exact hr.congr hoff.table hoff.running

theorem allRegular_run {first : Nat} {x : System} {moves : List Move}
    (hdirect : ∀ m ∈ moves, m.isDirect = false) (hw : Wired first x.scheduler x.host.bank)
    (hr : AllRegular x.scheduler) : AllRegular (x.run moves).scheduler := by
  have hboth := run_induction (x := x)
    (p := fun y => Wired first y.scheduler y.host.bank ∧ AllRegular y.scheduler) ⟨hw, hr⟩
    fun m hm y ⟨hyw, hyr⟩ => ⟨wired_step hyw m, allRegular_step (hdirect m hm) hyw hyr⟩
  exact hboth.2

/-- A scheduler that has been made from a valid baseline, over whatever the store holds, arms exactly
the kinds that it should, at their periods, and leaves no timer behind. -/
theorem isArmed_iff_of_run {baseline : List BaselineItem}
    (hb : ∀ item ∈ baseline, item.kind ≠ .invalid) (config : WorkerConfig) (h : Host) :
    ∃ s h₀, Scheduler.create baseline config h = (.ok s, h₀) ∧ ∀ moves : List Move,
      let x := System.run moves ⟨s, h₀, []⟩
      ((∀ m ∈ moves, m.isDirect = false) → ∀ k,
        x.scheduler.isArmed k x.host = true ↔ x.scheduler.running = true ∧
          ∃ e, x.scheduler.table.get? k = some e ∧ e.enabled = true ∧ 0 < e.period) ∧
      (∀ k, x.scheduler.isArmed k x.host = true → x.scheduler.running = true ∧
        ∃ e timer interval, x.scheduler.table.get? k = some e ∧ 0 < e.period ∧
          e.timer = some timer ∧
          x.host.bank[timer]? = some ⟨x.scheduler.ident, k, some interval, false⟩ ∧
          (interval : Int) = e.period.toInt) ∧
      (∀ i t, h₀.bank.length ≤ i → x.host.bank[i]? = some t →
        t.released = true ∨ ∃ e, x.scheduler.table.get? t.kind = some e ∧ e.timer = some i) := by
  obtain ⟨s, h₀, hcreate, hfresh⟩ := create_fresh hb config h
  refine ⟨s, h₀, hcreate, fun moves => ?_⟩
  have hw₀ : Wired h₀.bank.length s h₀.bank := hfresh.wired
  have hw := wired_run (x := ⟨s, h₀, []⟩) hw₀ moves
  refine ⟨fun hdirect k => ?_, fun k harmed => ?_, fun i t hle ht => ?_⟩
  · have hr₀ : AllRegular s := allRegular_of_stopped hfresh.running fun j e he => (hfresh.entry he).2
    have hr := allRegular_run (x := ⟨s, h₀, []⟩) hdirect hw₀ hr₀
    exact hw.isArmed_iff_of_regular (hr k)
  · obtain ⟨e, timer, he, htimer, hrunning, hperiod, ht⟩ := (hw.isArmed_iff k).mp harmed
    exact ⟨hrunning, e, timer, e.seconds, he, hperiod, htimer, ht, Entry.seconds_eq_toInt hperiod⟩
  · cases hreleased : t.released with
    | true => exact .inl rfl
    | false => exact .inr (hw.owned.held hle ht hreleased)

/-- A kind that is enabled is armed again after a stop that failed to stop its timer. -/
theorem isArmed_of_restart :
    let h : Host := { timers := { stopFault := fun _ => some .stopFailed } }
    (∀ item ∈ [BaselineItem.mk .systemStatus 10], item.kind ≠ .invalid) ∧
      ∃ s h₀, Scheduler.create [⟨.systemStatus, 10⟩] {} h = (.ok s, h₀) ∧
        let x := System.run [.call (.start 0), .call (.stop 0), .call (.start 0)] ⟨s, h₀, []⟩
        x.scheduler.isArmed .systemStatus x.host = true := by
  have hb : ∀ item ∈ [BaselineItem.mk .systemStatus 10], item.kind ≠ .invalid := by decide
  refine ⟨hb, ?_⟩
  obtain ⟨s, h₀, hcreate, hrun⟩ := isArmed_iff_of_run hb {}
    { timers := { stopFault := fun _ => some .stopFailed } }
  refine ⟨s, h₀, hcreate, ?_⟩
  have hiff := (hrun [.call (.start 0), .call (.stop 0), .call (.start 0)]).1 (by decide) .systemStatus
  refine hiff.mpr ?_
  cases hcreate
  refine ⟨rfl, ⟨.systemStatus, 10, true, some 1⟩, rfl, rfl, by decide⟩

end System
end TelemetryAgent
