import TelemetryAgent.Proofs.Schedule.Crew
import TelemetryAgent.Proofs.Schedule.Isolation

/-!
# What an error says

An operation that fails says by its error what it has left behind. A request that names nothing has
done nothing. A period that is refused is in the entry, which is not armed; a kind whose timer does
not start has lost its entry and its timer, and a timer that does not stop is gone all the same. What
was saved before a failure stays saved. A start that fails leaves a scheduler as idle as it was, and a
stop that runs out of time has disarmed everything and leaves the worker to be waited for again.
-/
namespace TelemetryAgent

namespace Host

variable {h h' : Host} {e : Entry} {k : Kind} {f : Fault}

theorem stopFault_of_stopTimer {timer : Nat} (hs : (h.stopTimer timer).1 = .error f) :
    h.timers.stopFault h.timers.calls = some f := by
  unfold stopTimer timerCall at hs
  simp only [recordTimer_timers] at hs
  split at hs
  · rename_i g h₁ heq
    cases hs
    have hplanned := (Prod.mk.inj heq).1
    split at hplanned
    · exact hplanned
    · cases hplanned
  · cases hs

/-- An entry is only disarmed with an error if its timer does not stop. -/
theorem stopFault_of_disarm (hd : (h.disarm e).1 = .error f) :
    ∃ timer n, e.timer = some timer ∧ h.timers.stopFault n = some f := by
  unfold disarm at hd
  split at hd
  · cases hd
  · rename_i timer htimer
    exact ⟨timer, _, htimer, stopFault_of_stopTimer hd⟩

/-- Of the two leaves of an entry those before the first failure are written, and stay. -/
theorem persist_takes (hkind : e.kind = k) (h : Host) : ∃ n, h.Takes n 2 ∧
    (h.persist e).settings.leaves = h.settings.leaves.putEach ((e.written k).leaves.take n) := by
  subst hkind
  obtain ⟨n, htakes, hsettings, -⟩ := saveSettings_takes e.kind e.settings h
  exact ⟨n, htakes, congrArg SettingsStore.leaves ((persist_settings e h).trans hsettings)⟩

end Host

/-! ## Calls on one kind -/

namespace Operation
open Host Scheduler

variable {first : Nat} {op : Operation} {s s' : Scheduler} {h h' : Host} {k : Kind}

/-- What a call on one kind has left behind, by its outcome. -/
inductive Answered (k : Kind) (op : Operation) (s : Scheduler) (h : Host) :
    Outcome → Scheduler → Host → Prop
  | done (s' : Scheduler) (h' : Host) : Answered k op s h (.ok ()) s' h'
  | absent : Answered k op s h (.error .invalidKind) s h
  | unset : s.table.get? k = none →
      Answered k op s h (.error .startFailed) s (h.note (.unsetWithoutEntry k))
  | refused {e : Entry} {s' : Scheduler} (h' : Host) : op.asked? k s = some (e.written k) →
      e.period ≤ 0 → s'.table.get? k = some e.unarmed →
      Answered k op s h (.error (.invalidPeriod e.period)) s' h'
  | dropped {e : Entry} {n : Nat} {s' : Scheduler} {h' : Host} :
      op.asked? k s = some (e.written k) → s'.table.get? k = none → h.Takes n 2 →
      h'.settings.leaves = h.settings.leaves.putEach ((e.written k).leaves.take n) →
      Answered k op s h (.error .startFailed) s' h'
  | stuck {e : Entry} {f : Fault} {n timer : Nat} {s' : Scheduler} {h' : Host} :
      op.asked? k s = some (e.written k) → (s.table.get? k).bind (·.timer) = some timer →
      h.timers.stopFault n = some f → s'.table.get? k = some e.unarmed →
      h'.bank = retire (some timer) h.bank → Answered k op s h (.error f) s' h'

theorem On.answered (hop : op.On k) (ho : Owned first s h.bank) :
    Answered k op s h (op.perform s h).1 (op.perform s h).2.1 (op.perform s h).2.2 := by
  have hhandled := hop.handled s h
  generalize op.perform s h = result at hhandled
  cases hhandled with
  | absent => exact .absent
  | unset hnone => exact .unset hnone
  | @scheduled e hr hasked =>
      have hget : (s.setEntry k (some e)).table.get? k = some e := by
        rw [get?_setEntry hr.schedulable, if_pos rfl]
      obtain ⟨n, htakes, hleaves⟩ := persist_takes ((ho.request hr).kind hget) h
      have hsettings := (schedule_timersOnly (h := h) hget).settings
      have hcases := schedule_cases (h := h) hget
      generalize (s.setEntry k (some e)).schedule k h = result at hcases hsettings
      obtain ⟨r, s', h'⟩ := result
      dsimp only at hcases hsettings ⊢
      generalize h'.bank = bank' at hcases
      cases hcases with
      | refused hperiod =>
          exact .refused h' hasked hperiod (by rw [get?_setEntry hr.schedulable, if_pos rfl])
      | written | armed => exact .done _ h'
      | dropped =>
          exact .dropped hasked (by rw [get?_setEntry hr.schedulable, if_pos rfl]) htakes
            ((congrArg SettingsStore.leaves hsettings).trans hleaves)
  | @unscheduled e hr hasked =>
      have hget : (s.setEntry k (some e)).table.get? k = some e := by
        rw [get?_setEntry hr.schedulable, if_pos rfl]
      have hbank := bank_unschedule h hget
      rw [unschedule_of_some h hget] at hbank ⊢
      dsimp only at hbank ⊢
      cases hd : ((h.persist e).disarm e).1 with
      | ok => exact .done _ _
      | error f =>
          obtain ⟨timer, n, htimer, hfault⟩ := stopFault_of_disarm hd
          rw [(persist_storeOnly e h).timers] at hfault
          rw [htimer] at hbank
          exact .stuck hasked (hr.timer.symm.trans htimer) hfault
            (by rw [get?_setEntry hr.schedulable, if_pos rfl]) hbank

/-- A call is about the whole scheduler or about one kind, or it is a request that names none. -/
theorem cases_on (op : Operation) :
    (∃ publisher, op = .start publisher) ∨ (∃ timeoutMillis, op = .stop timeoutMillis) ∨
      (∃ k, op.On k) ∨ ∀ s h, op.perform s h = (.error .unsupportedRequest, s, h) := by
  have hparse : ∀ path f, Request.parse path = .error f → f = .unsupportedRequest := by
    intro path f hpath
    unfold Request.parse at hpath
    split at hpath
    · cases hpath
    · cases hpath
      rfl
  cases op with
  | start publisher => exact .inl ⟨publisher, rfl⟩
  | stop timeoutMillis => exact .inr (.inl ⟨timeoutMillis, rfl⟩)
  | schedule k => exact .inr (.inr (.inl ⟨k, .schedule⟩))
  | unschedule k => exact .inr (.inr (.inl ⟨k, .unschedule⟩))
  | set path value =>
      right; right
      cases hpath : Request.parse path with
      | ok target => exact .inl ⟨target.1, .set value hpath⟩
      | error f =>
          cases hparse path f hpath
          refine .inr fun s h => ?_
          change s.set path value h = _
          simp only [Scheduler.set, hpath]
  | unset path =>
      right; right
      cases hpath : Request.parse path with
      | ok target => exact .inl ⟨target.1, .unset hpath⟩
      | error f =>
          cases hparse path f hpath
          refine .inr fun s h => ?_
          change s.unset path h = _
          simp only [Scheduler.unset, hpath]

end Operation

/-! ## The plans of timers -/

namespace Scheduler

theorem stopFault_perform (op : Operation) (s : Scheduler) (h : Host) :
    (op.perform s h).2.2.timers.stopFault = h.timers.stopFault := by
  have hwork : ∀ {s' s₁ : Scheduler} {h' : Host}, EntryWork s₁ h s' h' →
      h'.timers.stopFault = h.timers.stopFault := fun hw => by rw [hw.plans]
  cases op with
  | start publisher =>
      change (s.start publisher h).2.2.timers.stopFault = h.timers.stopFault
      have hcases := start_cases publisher s h
      generalize (s.start publisher h).1 = r, (s.start publisher h).2.1 = s₁,
        (s.start publisher h).2.2 = h₁ at hcases ⊢
      cases hcases with
      | already => rfl
      | refused _ _ htimers => rw [htimers]
      | spawned _ _ htimers => rw [(scheduleAll_work _ _ _).plans, htimers]
  | stop timeoutMillis =>
      exact (congrArg TimerBank.stopFault (await_work timeoutMillis _ _).timers).trans
        (hwork (halt_work s h))
  | schedule k => exact hwork (schedule_work k s h)
  | unschedule k => exact hwork (unschedule_work k s h)
  | set path value => exact hwork (set_work path value s h)
  | unset path => exact hwork (unset_work path s h)

end Scheduler

namespace System
open Host Scheduler

variable {first : Nat} {x : System} {f : Fault}

/-- Timers go on to refuse stops as they were planned to. -/
theorem stopFault_step (m : Move) (x : System) :
    (x.step m).host.timers.stopFault = x.host.timers.stopFault := by
  cases m with
  | call op => exact stopFault_perform op x.scheduler x.host
  | stopWhile timeoutMillis meanwhile =>
      have hoff := happenAll_offstage meanwhile x.halted
      have hwait := await_work timeoutMillis (x.awaiting meanwhile).scheduler
        (x.awaiting meanwhile).host
      have htimers : (x.step (.stopWhile timeoutMillis meanwhile)).host.timers =
          (x.scheduler.halt x.host).2.timers := hwait.timers.trans hoff.timers
      rw [htimers, (halt_work x.scheduler x.host).plans]
  | ambient a => exact congrArg TimerBank.stopFault (happen_offstage a x).timers

theorem stopFault_run (moves : List Move) (x : System) :
    (x.run moves).host.timers.stopFault = x.host.timers.stopFault :=
  run_induction (p := fun y => y.host.timers.stopFault = x.host.timers.stopFault) rfl
    fun m _ y hy => (stopFault_step m y).trans hy

/-! ## Calls on the whole scheduler -/

/-- A stop with anybody to wait for succeeds exactly if this worker ends in time. -/
theorem stopWhile_ok_iff {worker : Nat} (htracked : x.scheduler.tracked = some worker)
    (timeoutMillis : Nat) (meanwhile : List Ambient) :
    (x.stopWhile timeoutMillis meanwhile).1 = .ok () ↔
      ((x.awaiting meanwhile).host.phase worker).endsWithin timeoutMillis = true := by
  have hawaiting : (x.awaiting meanwhile).scheduler.tracked = some worker :=
    (awaiting_tracked meanwhile x).trans htracked
  have hcases := stopWhile_cases timeoutMillis meanwhile x
  generalize (x.stopWhile timeoutMillis meanwhile).1 = r,
    (x.stopWhile timeoutMillis meanwhile).2.scheduler = s',
    (x.stopWhile timeoutMillis meanwhile).2.host = h' at hcases ⊢
  cases hcases with
  | nobody hnobody => cases hawaiting.symm.trans hnobody
  | crashed hworker hpanicked =>
      cases hawaiting.symm.trans hworker
      simp [hpanicked, WorkerPhase.endsWithin]
  | joined hworker hends =>
      cases hawaiting.symm.trans hworker
      simp [hends]
  | busy hworker hbusy =>
      cases hawaiting.symm.trans hworker
      simp [hbusy]

/-- A stop leaves nothing armed, however it ends. -/
theorem stopWhile_unarmed (timeoutMillis : Nat) (meanwhile : List Ambient) (x : System) {k : Kind}
    {e : Entry}
    (he : (x.stopWhile timeoutMillis meanwhile).2.scheduler.table.get? k = some e) :
    e.timer = none := by
  have hwait := await_work timeoutMillis (x.awaiting meanwhile).scheduler (x.awaiting meanwhile).host
  have htable : (x.stopWhile timeoutMillis meanwhile).2.scheduler.table =
      (x.scheduler.halt x.host).1.table :=
    hwait.table.trans (happenAll_offstage meanwhile x.halted).table
  rw [htable] at he
  exact unarmed_of_halt he

/-- A stop that fails has run out of time, and leaves the worker that it waited for to the next
one. -/
theorem stopWhile_timeout {timeoutMillis : Nat} {meanwhile : List Ambient}
    (hfailed : (x.stopWhile timeoutMillis meanwhile).1 = .error f) :
    f = .stopTimeout ∧ ∃ worker, x.scheduler.tracked = some worker ∧
      (x.stopWhile timeoutMillis meanwhile).2.scheduler.tracked = some worker := by
  have htracked := awaiting_tracked meanwhile x
  have hcases := stopWhile_cases timeoutMillis meanwhile x
  generalize (x.stopWhile timeoutMillis meanwhile).1 = r,
    (x.stopWhile timeoutMillis meanwhile).2.scheduler = s',
    (x.stopWhile timeoutMillis meanwhile).2.host = h' at hcases hfailed ⊢
  cases hcases with
  | nobody | crashed | joined => cases hfailed
  | @busy worker hworker =>
      cases hfailed
      exact ⟨rfl, worker, htracked.symm.trans hworker, hworker⟩

/-- A request that names nothing, and a call on a kind that has no entry, have done nothing. -/
theorem unchanged_of_refusal (ho : Owned first x.scheduler x.host.bank)
    (hstop : ∀ n f, x.host.timers.stopFault n = some f → f = .stopFailed) {op : Operation}
    (hf : f = .unsupportedRequest ∨ f = .invalidKind)
    (hr : (op.perform x.scheduler x.host).1 = .error f) :
    op.perform x.scheduler x.host = (.error f, x.scheduler, x.host) := by
  rcases op.cases_on with ⟨publisher, rfl⟩ | ⟨timeoutMillis, rfl⟩ | ⟨k, hop⟩ | hnone
  · have hcases := start_cases publisher x.scheduler x.host
    change (x.scheduler.start publisher x.host).1 = .error f at hr
    rw [hr] at hcases
    rcases hf with rfl | rfl <;> cases hcases
  · have hcases := await_cases timeoutMillis (x.scheduler.halt x.host).1 (x.scheduler.halt x.host).2
    change ((x.scheduler.halt x.host).1.await timeoutMillis (x.scheduler.halt x.host).2).1 = .error f
      at hr
    rw [hr] at hcases
    rcases hf with rfl | rfl <;> cases hcases
  · have hanswered := hop.answered ho
    generalize op.perform x.scheduler x.host = y at hanswered hr ⊢
    obtain ⟨r, s', h'⟩ := y
    dsimp only at hanswered hr
    subst hr
    cases hanswered with
    | absent => rfl
    | unset | refused | dropped => rcases hf with hf | hf <;> cases hf
    | stuck _ _ hfault =>
        rcases hf with rfl | rfl <;> cases hstop _ _ hfault
  · rw [hnone] at hr ⊢
    cases hr
    rfl

def outcome (op : Operation) (x : System) : Outcome := (op.perform x.scheduler x.host).1

/-- What the errors of a call on one kind say of the state that the call has left. The timers from
number `first` on are those of the scheduler. -/
structure KindErrors (first : Nat) (k : Kind) (op : Operation) (x : System) : Prop where
  refused : ∀ p, x.outcome op = .error (.invalidPeriod p) →
    p ≤ 0 ∧ (x.call op).scheduler.isArmed k (x.call op).host = false ∧
      ∃ e, (x.call op).scheduler.table.get? k = some e ∧ e.period = p ∧ e.timer = none
  dropped : x.outcome op = .error .startFailed →
    (x.call op).scheduler.table.get? k = none ∧
      (∀ (i : Nat) (t : TimerState), first ≤ i → (x.call op).host.bank[i]? = some t → t.kind = k →
        t.released = true) ∧
      (x.scheduler.table.get? k = none ∧ (x.call op).host = x.host.note (.unsetWithoutEntry k) ∨
        ∃ e n, op.asked? k x.scheduler = some e ∧ x.host.Takes n 2 ∧
          (x.call op).host.settings.leaves = x.host.settings.leaves.putEach (e.leaves.take n))
  stuck : x.outcome op = .error .stopFailed →
    ∃ e timer t, (x.call op).scheduler.table.get? k = some e ∧ e.timer = none ∧
      op.asked? k x.scheduler = some (e.written k) ∧
      (x.scheduler.table.get? k).bind (·.timer) = some timer ∧
      (x.call op).host.bank[timer]? = some t ∧ t.released = true
  only : ∀ f, x.outcome op = .error f →
    f = .invalidKind ∨ (∃ p, f = .invalidPeriod p) ∨ f = .startFailed ∨ f = .stopFailed

structure StartErrors (publisher : Nat) (x : System) : Prop where
  already : x.outcome (.start publisher) = .error .alreadyRunning →
    (x.call (.start publisher)).scheduler = x.scheduler ∧
      (x.call (.start publisher)).host = x.host.note .alreadyRunning
  refused : x.outcome (.start publisher) = .error .startFailed →
    (x.call (.start publisher)).scheduler.running = false ∧
      (∀ k, (x.call (.start publisher)).scheduler.isArmed k (x.call (.start publisher)).host = false) ∧
      (x.call (.start publisher)).scheduler.table = x.scheduler.table ∧
      (x.call (.start publisher)).host.timers = x.host.timers ∧
      (x.call (.start publisher)).host.settings = x.host.settings
  only : ∀ f, x.outcome (.start publisher) = .error f → f = .alreadyRunning ∨ f = .startFailed

/-- What the error of a stop says: what the next stop comes to, whatever happens until then, is up to
the worker for which this one has waited. -/
structure StopErrors (timeoutMillis : Nat) (meanwhile : List Ambient) (x : System) : Prop where
  timeout : (x.stopWhile timeoutMillis meanwhile).1 = .error .stopTimeout →
    (x.stopWhile timeoutMillis meanwhile).2.scheduler.running = false ∧
      (∀ k, (x.stopWhile timeoutMillis meanwhile).2.scheduler.isArmed k
        (x.stopWhile timeoutMillis meanwhile).2.host = false) ∧
      ∃ worker, x.scheduler.tracked = some worker ∧
        (x.stopWhile timeoutMillis meanwhile).2.scheduler.tracked = some worker ∧
        ∀ (between : List Ambient) (later : Nat) (meanwhile' : List Ambient),
          let z := (x.stopWhile timeoutMillis meanwhile).2.happenAll between
          (z.stopWhile later meanwhile').1 = .ok () ↔
            ((z.awaiting meanwhile').host.phase worker).endsWithin later = true
  only : ∀ f, (x.stopWhile timeoutMillis meanwhile).1 = .error f → f = .stopTimeout

theorem kindErrors_of_wired (hw : Wired first x.scheduler x.host.bank)
    (hstop : ∀ n f, x.host.timers.stopFault n = some f → f = .stopFailed) {k : Kind} {op : Operation}
    (hop : op.On k) : KindErrors first k op x := by
  have hanswered := hop.answered hw.owned
  have howned : Owned first (x.call op).scheduler (x.call op).host.bank := (hw.perform op).owned
  have hreleased : (x.call op).scheduler.table.get? k = none →
      ∀ (i : Nat) (t : TimerState), first ≤ i → (x.call op).host.bank[i]? = some t → t.kind = k →
        t.released = true := fun hnone i t hfirst ht hkind => by
    cases hlive : t.released with
    | true => rfl
    | false =>
        obtain ⟨e, he, -⟩ := howned.held hfirst ht hlive
        rw [hkind, hnone] at he
        cases he
  change Operation.Answered k op x.scheduler x.host (x.outcome op) (x.call op).scheduler
    (x.call op).host at hanswered
  constructor
  · intro p hr
    rw [hr] at hanswered
    generalize (x.call op).scheduler = s', (x.call op).host = h' at hanswered
    cases hanswered with
    | refused _ _ hperiod hentry =>
        refine ⟨hperiod, isArmed_of_unarmed (fun d hd => ?_) h', _, hentry, rfl, rfl⟩
        rw [hentry] at hd
        cases hd
        rfl
    | stuck _ _ hfault => cases hstop _ _ hfault
  · intro hr
    rw [hr] at hanswered
    generalize (x.call op).scheduler = s', (x.call op).host = h' at hanswered hreleased ⊢
    cases hanswered with
    | unset hnone => exact ⟨hnone, hreleased hnone, .inl ⟨hnone, rfl⟩⟩
    | dropped hasked hnone htakes hleaves =>
        exact ⟨hnone, hreleased hnone, .inr ⟨_, _, hasked, htakes, hleaves⟩⟩
    | stuck _ _ hfault => cases hstop _ _ hfault
  · intro hr
    rw [hr] at hanswered
    generalize (x.call op).scheduler = s', (x.call op).host = h' at hanswered ⊢
    cases hanswered with
    | @stuck e _ _ timer _ _ hasked htimer _ hentry hbank =>
        obtain ⟨d, hd, hdtimer⟩ := Option.bind_eq_some_iff.mp htimer
        obtain ⟨-, interval, ht⟩ := hw.owned.holds hd hdtimer
        have hretired : h'.bank[timer]? =
            some (TimerState.retired ⟨x.scheduler.ident, k, interval, false⟩) := by
          rw [hbank, getElem?_retire, if_pos rfl, ht]
          rfl
        exact ⟨e.unarmed, timer, _, hentry, rfl, hasked, htimer, hretired, rfl⟩
  · intro f hr
    rw [hr] at hanswered
    generalize (x.call op).scheduler = s', (x.call op).host = h' at hanswered
    cases hanswered with
    | absent => exact .inl rfl
    | refused => exact .inr (.inl ⟨_, rfl⟩)
    | unset | dropped => exact .inr (.inr (.inl rfl))
    | stuck _ _ hfault => exact .inr (.inr (.inr (hstop _ _ hfault)))

theorem startErrors_of_wired (hw : Wired first x.scheduler x.host.bank) (publisher : Nat) :
    StartErrors publisher x := by
  have hcases := start_cases publisher x.scheduler x.host
  change Started publisher x.scheduler x.host (x.outcome (.start publisher))
    (x.call (.start publisher)).scheduler (x.call (.start publisher)).host at hcases
  constructor
  · intro hr
    rw [hr] at hcases
    generalize (x.call (.start publisher)).scheduler = s',
      (x.call (.start publisher)).host = h' at hcases ⊢
    cases hcases with
    | already => exact ⟨rfl, rfl⟩
  · intro hr
    rw [hr] at hcases
    generalize (x.call (.start publisher)).scheduler = s',
      (x.call (.start publisher)).host = h' at hcases ⊢
    cases hcases with
    | refused hstopped _ htimers hsettings =>
        exact ⟨hstopped, fun k => isArmed_of_unarmed (hw.unarmed_of_stopped hstopped k) h', rfl,
          htimers, hsettings⟩
  · intro f hr
    rw [hr] at hcases
    generalize (x.call (.start publisher)).scheduler = s',
      (x.call (.start publisher)).host = h' at hcases
    cases hcases with
    | already => exact .inl rfl
    | refused => exact .inr rfl

theorem stopErrors (timeoutMillis : Nat) (meanwhile : List Ambient) (x : System) :
    StopErrors timeoutMillis meanwhile x := by
  constructor
  · intro hr
    obtain ⟨-, worker, htracked, hstill⟩ := stopWhile_timeout hr
    refine ⟨stopWhile_running timeoutMillis meanwhile x, fun k => isArmed_of_unarmed (fun e he => ?_) _,
      worker, htracked, hstill, fun between later meanwhile' => ?_⟩
    · exact stopWhile_unarmed timeoutMillis meanwhile x he
    · exact stopWhile_ok_iff ((happenAll_offstage between _).tracked.trans hstill) later meanwhile'
  · intro f hr
    exact (stopWhile_timeout hr).1

/-- After every run, the error of a call says what the call has left behind: nothing at all if it
names nothing that there is, and else what the structures above say. The stop of a timer is taken to
report nothing but that it has failed; everything else may fail with any error. -/
theorem errors_of_run {baseline : List BaselineItem}
    (hb : ∀ item ∈ baseline, item.kind ≠ .invalid) (config : WorkerConfig) {h : Host}
    (hstop : ∀ n f, h.timers.stopFault n = some f → f = .stopFailed) :
    ∃ s h₀, Scheduler.create baseline config h = (.ok s, h₀) ∧ ∀ moves : List Move,
      let x := System.run moves ⟨s, h₀, []⟩
      (∀ (op : Operation) f, f = .unsupportedRequest ∨ f = .invalidKind →
        x.outcome op = .error f →
        (x.call op).scheduler = x.scheduler ∧ (x.call op).host = x.host) ∧
      (∀ k (op : Operation), op.On k → KindErrors h₀.bank.length k op x) ∧
      (∀ publisher, StartErrors publisher x) ∧
      ∀ timeoutMillis meanwhile, StopErrors timeoutMillis meanwhile x := by
  obtain ⟨s, h₀, hcreate, hfresh⟩ := create_fresh hb config h
  refine ⟨s, h₀, hcreate, fun moves => ?_⟩
  have hw₀ : Wired h₀.bank.length s h₀.bank := hfresh.wired
  have hwired := wired_run (x := ⟨s, h₀, []⟩) hw₀ moves
  have hplan : (run moves ⟨s, h₀, []⟩).host.timers.stopFault = h.timers.stopFault :=
    (stopFault_run moves ⟨s, h₀, []⟩).trans (congrArg TimerBank.stopFault hfresh.timers)
  rw [← hplan] at hstop
  generalize run moves ⟨s, h₀, []⟩ = x at *
  refine ⟨fun op f hf hr => ?_, fun k op hop => kindErrors_of_wired hwired hstop hop,
    startErrors_of_wired hwired, fun timeoutMillis meanwhile => stopErrors timeoutMillis meanwhile x⟩
  have hsame := unchanged_of_refusal hwired.owned hstop hf hr
  exact ⟨congrArg (·.2.1) hsame, congrArg (·.2.2) hsame⟩

/-- A timer that does not stop is released all the same, and its kind keeps an entry, which is not
enabled any more as it was asked. -/
theorem stuck_after_unset :
    let h : Host := { timers := { stopFault := fun _ => some .stopFailed } }
    let op := Operation.set "/request/io.edgehog.devicemanager.SystemStatus/enable" (.boolean false)
    (∀ item ∈ [BaselineItem.mk .systemStatus 10], item.kind ≠ .invalid) ∧
      (∀ n f, h.timers.stopFault n = some f → f = .stopFailed) ∧ op.On .systemStatus ∧
      ∃ s h₀, Scheduler.create [⟨.systemStatus, 10⟩] {} h = (.ok s, h₀) ∧
        let x := System.run [.call (.start 0)] ⟨s, h₀, []⟩
        x.outcome op = .error .stopFailed ∧
          x.scheduler.table.get? .systemStatus = some ⟨.systemStatus, 10, true, some 0⟩ ∧
          (x.call op).scheduler.table.get? .systemStatus = some ⟨.systemStatus, 10, false, none⟩ ∧
          ∃ t, (x.call op).host.bank[0]? = some t ∧ t.released = true := by
  intro h op
  have hb : ∀ item ∈ [BaselineItem.mk .systemStatus 10], item.kind ≠ .invalid := by decide
  have hstop : ∀ n f, h.timers.stopFault n = some f → f = .stopFailed := fun _ _ hf =>
    (Option.some.inj hf).symm
  have hparse : Request.parse "/request/io.edgehog.devicemanager.SystemStatus/enable" =
      .ok (.systemStatus, .enable) := by decide +kernel
  have hop : op.On .systemStatus := .set _ hparse
  refine ⟨hb, hstop, hop, ?_⟩
  obtain ⟨s, h₀, hcreate, hrun⟩ := errors_of_run hb {} hstop
  refine ⟨s, h₀, hcreate, ?_⟩
  obtain ⟨-, hkinds, -⟩ := hrun [.call (.start 0)]
  have hstate :
      let x := System.run [.call (.start 0)] ⟨s, h₀, []⟩
      x.outcome op = .error .stopFailed ∧
        x.scheduler.table.get? .systemStatus = some ⟨.systemStatus, 10, true, some 0⟩ ∧
        (x.call op).scheduler.table.get? .systemStatus = some ⟨.systemStatus, 10, false, none⟩ := by
    cases hcreate
    decide +kernel
  obtain ⟨hfailed, hbefore, hafter⟩ := hstate
  obtain ⟨e, timer, t, -, -, -, htimer, ht, hreleased⟩ := (hkinds .systemStatus op hop).stuck hfailed
  rw [hbefore] at htimer
  cases htimer
  exact ⟨hfailed, hbefore, hafter, t, ht, hreleased⟩

end System
end TelemetryAgent
