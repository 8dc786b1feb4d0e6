import TelemetryAgent.Proofs.Schedule.Mirror
import TelemetryAgent.Proofs.Schedule.Sections

/-!
# Writing before arming

The calls of an operation come in sections, one for each entry that it writes: the two saves of the
entry, and then the calls on its timer. So when a timer is started, the store has the period at which
it is started and the flag of the entry, from saves of the same section.
-/
namespace TelemetryAgent

/-! ## Operations -/

namespace Host

/-- Between two states of a host some entries have been written. If no save has failed, the calls
are in sections for these entries. -/
structure Orders (entries : List Entry) (h h' : Host) : Prop where
  wrote : Wrote entries h h'
  kinds : h.kinds <+: h'.kinds
  calls : h.calls <+: h'.calls
  sections : SavesSucceed h h' → Sections h'.kinds entries (since h h')

variable {entries later : List Entry} {h h₁ h₂ h' : Host} {e : Entry} {k : Kind}

theorem since_append (hcalls₁ : h.calls <+: h₁.calls) (hcalls₂ : h₁.calls <+: h₂.calls) :
    since h h₂ = since h h₁ ++ since h₁ h₂ := by
  obtain ⟨first, hfirst⟩ := hcalls₁
  obtain ⟨more, hmore⟩ := hcalls₂
  refine since_of_calls ?_
  rw [since_of_calls hfirst.symm, since_of_calls hmore.symm, ← hmore, ← hfirst, List.append_assoc]

theorem Orders.trans (ho₁ : Orders entries h h₁) (ho₂ : Orders later h₁ h₂) :
    Orders (entries ++ later) h h₂ where
  wrote := ho₁.wrote.trans ho₂.wrote
  kinds := ho₁.kinds.trans ho₂.kinds
  calls := ho₁.calls.trans ho₂.calls
  sections := fun hok => by
    obtain ⟨hok₁, hok₂⟩ := hok.split ho₁.wrote ho₂.wrote
    rw [since_append ho₁.calls ho₂.calls]
    exact ((ho₁.sections hok₁).mono ho₂.kinds).append (ho₂.sections hok₂)

/-- Nothing has been written, and no call has been made. -/
theorem Orders.quiet (hsettings : h'.settings = h.settings) (htimers : h'.timers = h.timers)
    (hcalls : h'.calls = h.calls) : Orders [] h h' where
  wrote := .ofSettings hsettings
  kinds := ⟨[], by rw [List.append_nil, kinds_congr htimers]⟩
  calls := ⟨[], by rw [List.append_nil, hcalls]⟩
  sections := fun _ => by
    have hsince : since h h' = [] := since_of_calls (by rw [hcalls, List.append_nil])
    rw [hsince]
    exact .nil

/-- An entry has been written, and then its timer has been called. -/
theorem Orders.entry (hkind : e.kind = k) (hsettings : h'.settings = (h.persist e).settings)
    (hkinds : (h.persist e).kinds <+: h'.kinds)
    (hserves : Makes (Call.Serves h'.kinds e) (h.persist e) h') : Orders [e.written k] h h' where
  wrote := by
    have hboth := (persist_wrote hkind h).trans (.ofSettings hsettings)
    rwa [List.append_nil] at hboth
  kinds := by
    have hsame : (h.persist e).kinds = h.kinds := kinds_congr (persist_storeOnly e h).timers
    rwa [hsame] at hkinds
  calls := by
    rw [hserves.calls, (persist_schedules e h).calls, List.append_assoc]
    exact List.prefix_append _ _
  sections := fun hok => by
    subst hkind
    have hpersist := (hok.split (persist_wrote rfl h) (.ofSettings hsettings)).1
    have hsince : since h h' = e.saves ++ since (h.persist e) h' ++ [] := by
      rw [List.append_nil]
      refine since_of_calls ?_
      rw [hserves.calls, persist_calls hpersist, since_of_calls hserves.calls, List.append_assoc]
    rw [hsince]
    exact .cons (e := e.written e.kind) hserves.sort .nil

end Host

namespace Scheduler
open Host

variable {first : Nat} {s : Scheduler} {h : Host} {k : Kind} {e : Entry}

theorem Owned.kinds (ho : Owned first s h.bank) (he : s.table.get? k = some e) :
    ∀ timer, e.timer = some timer → h.kinds[timer]? = some e.kind := by
  intro timer htimer
  obtain ⟨-, interval, ht⟩ := ho.holds he htimer
  unfold Host.kinds
  rw [List.getElem?_map, ht, ho.kind he]
  rfl

theorem disarm_serves (hown : ∀ timer, e.timer = some timer → h.kinds[timer]? = some e.kind) :
    Makes (Call.Serves h.kinds e) h (h.disarm e).2 :=
  disarm_makes (fun timer htimer => ⟨hown timer htimer, hown timer htimer⟩) h

/-- Once the entry of a kind is written, scheduling calls the timer of the kind only. -/
theorem schedule_serves (ho : Owned first s h.bank) (he : s.table.get? k = some e) :
    (h.persist e).kinds <+: (s.schedule k h).2.2.kinds ∧
      Makes (Call.Serves (s.schedule k h).2.2.kinds e) (h.persist e) (s.schedule k h).2.2 := by
  have hsame : (h.persist e).kinds = h.kinds := kinds_congr (persist_storeOnly e h).timers
  have hown := ho.kinds he
  rw [← hsame] at hown
  unfold schedule
  simp only [he]
  split
  · have hkinds : (((h.persist e).disarm e).2.noteFailure ((h.persist e).disarm e).1
        (.disarmFailed k)).kinds = (h.persist e).kinds :=
      (kinds_congr (noteFailure_timers _ _ _)).trans (kinds_disarm e _)
    rw [kinds_congr (note_timers _ _), hkinds]
    exact ⟨List.prefix_refl _,
      ((disarm_serves hown).trans (noteFailure_makes _ _ _)).trans (note_makes _ _)⟩
  · rename_i hperiod
    split
    · have hle := kinds_arm s.ident e.seconds e (h.persist e)
      have hserves := arm_serves s.ident hown (Int64.not_le.mp hperiod)
      unfold Entry.seconds at hle hserves
      split
      · rename_i timer h₁ heq
        rw [heq] at hle hserves
        exact ⟨hle, hserves⟩
      · rename_i f h₁ heq
        rw [heq] at hle hserves
        rw [kinds_abandon, kinds_congr (note_timers _ _)]
        refine ⟨hle, (hserves.trans (note_makes _ _)).trans (abandon_makes (fun timer htimer => ?_) _)⟩
        exact Call.getElem?_of_isPrefix hle (hown timer htimer)
    · exact ⟨List.prefix_refl _, .refl _⟩

theorem schedule_orders (ho : Owned first s h.bank) (k : Kind) :
    Orders (s.entryWritten k) h (s.schedule k h).2.2 := by
  cases he : s.table.get? k with
  | none =>
      rw [entryWritten_of_none he, schedule_of_none h he]
      exact .quiet rfl rfl rfl
  | some e =>
      obtain ⟨hkinds, hserves⟩ := schedule_serves ho he
      rw [entryWritten_of_some he]
      exact .entry (ho.kind he) (schedule_timersOnly he).settings hkinds hserves

theorem unschedule_orders (ho : Owned first s h.bank) (k : Kind) :
    Orders (s.entryWritten k) h (s.unschedule k h).2.2 := by
  cases he : s.table.get? k with
  | none =>
      rw [entryWritten_of_none he, unschedule_of_none h he]
      exact .quiet rfl rfl rfl
  | some e =>
      have hsame : (h.persist e).kinds = h.kinds := kinds_congr (persist_storeOnly e h).timers
      have hown := ho.kinds he
      rw [← hsame] at hown
      have hserves := disarm_serves hown
      rw [← kinds_disarm e] at hserves
      have hkinds : (h.persist e).kinds <+: ((h.persist e).disarm e).2.kinds :=
        ⟨[], by rw [List.append_nil, kinds_disarm]⟩
      rw [entryWritten_of_some he, unschedule_of_some h he]
      exact .entry (ho.kind he) (disarm_timersOnly e _).settings hkinds hserves

theorem Owned.schedule (ho : Owned first s h.bank) (k : Kind) :
    Owned first (s.schedule k h).2.1 (s.schedule k h).2.2.bank := by
  cases he : s.table.get? k with
  | none =>
      rw [schedule_of_none h he]
      exact ho
  | some e =>
      have hcases := schedule_cases (h := h) he
      generalize (s.schedule k h).1 = r, (s.schedule k h).2.1 = s',
        (s.schedule k h).2.2.bank = bank' at hcases
      cases hcases with
      | refused => exact ho.unarm he
      | written => exact ho
      | armed _ _ harms => exact ho.arm he harms
      | dropped _ _ hmade => exact ho.drop he hmade

theorem orders_account (first : Nat) : Account (fun s h => Owned first s h.bank) Orders where
  quiet := Orders.quiet
  trans := Orders.trans
  schedule k ho := schedule_orders ho k
  unschedule k ho := unschedule_orders ho k
  request ho hr := ho.request hr
  scheduled k ho := ho.schedule k
  congr ho htable hident htimers := by
    unfold Host.bank
    rw [htimers]
    exact ho.congr htable hident

theorem disarmEach_ends (kinds : List Kind) (s : Scheduler) (h : Host) :
    Makes (fun c => c.isEnding = true) h (disarmEach kinds s h).2 := by
  induction kinds generalizing s h with
  | nil => exact .refl h
  | cons k rest ih =>
      unfold disarmEach
      split
      · exact ih s h
      · rename_i e he
        have hdisarm : Makes (fun c => c.isEnding = true) h (h.disarm e).2 :=
          disarm_makes (fun _ _ => ⟨rfl, rfl⟩) h
        exact (hdisarm.trans (noteFailure_makes _ _ _)).trans (ih _ _)

/-- A stop only stops and releases timers. -/
theorem stop_ends (timeoutMillis : Nat) (s : Scheduler) (h : Host) :
    Makes (fun c => c.isEnding = true) h (s.stop timeoutMillis h).2.2 := by
  have hhalt : Makes (fun c => c.isEnding = true) h (s.halt h).2 :=
    disarmEach_ends Kind.schedulable s h
  have hcases := await_cases timeoutMillis (s.halt h).1 (s.halt h).2
  change Makes _ h ((s.halt h).1.await timeoutMillis (s.halt h).2).2.2
  generalize ((s.halt h).1.await timeoutMillis (s.halt h).2).1 = r,
    ((s.halt h).1.await timeoutMillis (s.halt h).2).2.1 = s',
    ((s.halt h).1.await timeoutMillis (s.halt h).2).2.2 = h' at hcases
  cases hcases with
  | nobody => exact hhalt
  | crashed | joined | busy => exact hhalt.trans (.quiet rfl rfl rfl)

end Scheduler

/-! ## Runs -/

namespace System
open Host Scheduler

variable {first : Nat} {x : System} {op : Operation}

/-- Before a timer of a kind is started in a call, the two saves of the kind have been made in the
same call, and before them no call on its timer. The interval is the period that has been saved. -/
theorem saved_before_started (hw : Wired first x.scheduler x.host.bank)
    (hok : SavesSucceed x.host (x.call op).host) {earlier later : List Call} {timer seconds : Nat}
    (hcalls : since x.host (x.call op).host = earlier ++ .timerStart timer seconds :: later) :
    ∃ e before between, e ∈ op.written x.scheduler x.host ∧
      earlier = before ++ e.saves ++ between ∧
      (∀ c ∈ before, ¬ c.Serves (x.call op).host.kinds e) ∧
      (∀ c ∈ between, c.Serves (x.call op).host.kinds e) ∧
      (Call.timerStart timer seconds).Serves (x.call op).host.kinds e ∧
      (x.host.settings.leaves.replay earlier).Holds e := by
  by_cases hop : ∃ timeoutMillis, op = .stop timeoutMillis
  · obtain ⟨timeoutMillis, rfl⟩ := hop
    have hends := (stop_ends timeoutMillis x.scheduler x.host).sort (.timerStart timer seconds) (by
      change Call.timerStart timer seconds ∈ since x.host (x.call (.stop timeoutMillis)).host
      rw [hcalls]
      exact List.mem_append_right _ List.mem_cons_self)
    cases hends
  · have horders := (orders_account first).perform hw.owned op fun timeoutMillis heq => hop ⟨timeoutMillis, heq⟩
    have hsections := horders.sections hok
    obtain ⟨done, e, rest, before, between, hwritten, hearlier, hdone, hbetween, hserve⟩ :=
      hsections.split hcalls rfl
    have hmem : e ∈ op.written x.scheduler x.host := by
      rw [hwritten]
      exact List.mem_append_right _ List.mem_cons_self
    refine ⟨e, before, between, hmem, hearlier, fun c hc hserves => ?_, hbetween, hserve, ?_⟩
    · rcases hdone.serves_of_mem hc with hsave | ⟨d, hd, hother⟩
      · exact hsave hserves.saved?
      · -- the kinds of what one call writes are different
        have hnodup := nodup_written op x.scheduler x.host
        rw [hwritten, List.map_append, List.map_cons] at hnodup
        have hne := (List.nodup_append.mp hnodup).2.2 d.kind (List.mem_map_of_mem hd) e.kind
          List.mem_cons_self
        exact hne (hserves.kind_eq hother)
    · rw [hearlier, Leaves.replay_append, Leaves.replay_append, Leaves.replay_saves,
        Leaves.replay_of_serves hbetween]
      exact Leaves.holds_store e _

/-- The store after a call is what the saves among its calls make of it. -/
theorem leaves_of_call (hw : Wired first x.scheduler x.host.bank)
    (hok : SavesSucceed x.host (x.call op).host) : (x.call op).host.settings.leaves =
      x.host.settings.leaves.replay (since x.host (x.call op).host) := by
  by_cases hop : ∃ timeoutMillis, op = .stop timeoutMillis
  · obtain ⟨timeoutMillis, rfl⟩ := hop
    have hnone : (since x.host (x.call (.stop timeoutMillis)).host).filterMap Call.saved? = [] :=
      List.filterMap_eq_nil_iff.mpr fun c hc => by
        have hends := (stop_ends timeoutMillis x.scheduler x.host).sort c hc
        cases c <;> first | rfl | cases hends
    unfold Leaves.replay
    rw [hnone]
    exact (perform_wrote (.stop timeoutMillis) hw.owned.keyed x.host).leaves hok
  · have horders := (orders_account first).perform hw.owned op fun timeoutMillis heq => hop ⟨timeoutMillis, heq⟩
    exact (horders.wrote.leaves hok).trans ((horders.sections hok).replay _).symm

/-! ## Armed kinds and the store -/

/-- If a kind has a timer, its entry is in the store as it is. -/
def Backed (k : Kind) (s : Scheduler) (l : Leaves) : Prop :=
  ∀ e timer, s.table.get? k = some e → e.timer = some timer → l.Holds (e.written k)

theorem scheduleAll_kept {k : Kind} {s : Scheduler} (hwanted : s.wanted? k = none)
    (kinds : List Kind) (h : Host) :
    (scheduleAll kinds s h).1.table.get? k = s.table.get? k := by
  induction kinds generalizing s h with
  | nil => rfl
  | cons j rest ih =>
      have hstep : (s.scheduleEnabled j h).1.table.get? k = s.table.get? k := by
        by_cases hjk : j = k
        · subst hjk
          have hdisabled : ∀ e, s.table.get? j = some e → e.enabled = false := fun e he => by
            unfold wanted? at hwanted
            rw [he, Option.map_eq_none_iff, Option.filter_some] at hwanted
            simpa using hwanted
          rw [scheduleEnabled_of_disabled h hdisabled]
        · exact scheduleEnabled_other j s h (Ne.symm hjk)
      have hstill : (s.scheduleEnabled j h).1.wanted? k = none := by
        unfold wanted? at hwanted ⊢
        rw [hstep, hwanted]
      exact (ih hstill _).trans hstep

theorem request_apart {s : Scheduler} {k : Kind} {e : Entry} (hr : Requested s k e) (h : Host) :
    Apart k s ((s.setEntry k (some e)).apply k h).2.1 := by
  refine (Apart.setEntry hr.schedulable (some e) s).trans ?_
  unfold Scheduler.apply
  split
  · split
    · exact schedule_apart k _ h
    · exact unschedule_apart k _ h
  · exact unschedule_apart k _ h

/-- What a call does not write it leaves alone, or disarms. -/
theorem perform_kept {k : Kind} {s : Scheduler} {h : Host}
    (hnone : ∀ e ∈ op.written s h, e.kind ≠ k) :
    (op.perform s h).2.1.table.get? k = s.table.get? k ∨
      (op.perform s h).2.1.table.get? k = (s.table.get? k).map Entry.unarmed := by
  have hentry : ∀ j, (∀ e ∈ s.entryWritten j, e.kind ≠ k) → k ≠ j ∨ s.table.get? j = none := by
    intro j hj
    cases he : s.table.get? j with
    | none => exact .inr rfl
    | some e =>
        rw [entryWritten_of_some he] at hj
        exact .inl (Ne.symm (hj _ (List.mem_singleton_self _)))
  cases op with
  | start publisher =>
      left
      change (s.start publisher h).2.1.table.get? k = s.table.get? k
      have hcases := start_cases publisher s h
      unfold Operation.written at hnone
      dsimp only at hnone
      generalize (s.start publisher h).1 = r, (s.start publisher h).2.1 = s₁,
        (s.start publisher h).2.2 = h₁ at hcases hnone ⊢
      cases hcases with
      | already | refused => rfl
      | spawned =>
          refine scheduleAll_kept (s := s.begun h.tasks.workers.length) ?_ _ _
          cases hwanted : s.wanted? k with
          | none => exact hwanted
          | some e =>
              obtain ⟨d, hd, rfl⟩ := Option.map_eq_some_iff.mp hwanted
              have hk := Table.ne_invalid_of_get? (Option.filter_eq_some_iff.mp hd).1
              exact (hnone _ (List.mem_filterMap.mpr ⟨k, Kind.mem_schedulable hk, hwanted⟩) rfl).elim
  | stop timeoutMillis =>
      right
      have hwait := await_work timeoutMillis (s.halt h).1 (s.halt h).2
      exact (congrArg (·.get? k) hwait.table).trans (get?_halt s h k)
  | schedule j =>
      left
      change (s.schedule j h).2.1.table.get? k = s.table.get? k
      rcases hentry j hnone with hkj | hj
      · exact (schedule_apart j s h).other k hkj
      · rw [schedule_of_none h hj]
  | unschedule j =>
      left
      change (s.unschedule j h).2.1.table.get? k = s.table.get? k
      rcases hentry j hnone with hkj | hj
      · exact (unschedule_apart j s h).other k hkj
      · rw [unschedule_of_none h hj]
  | set path value =>
      left
      change (s.set path value h).2.1.table.get? k = s.table.get? k
      cases hr : (Operation.set path value).request? s with
      | none =>
          obtain ⟨f, hset⟩ := set_of_no_request h hr
          rw [hset]
      | some r =>
          rw [Operation.written_of_request hr] at hnone
          rw [set_of_request h hr]
          exact (request_apart (requested_of_set hr) h).other k
            (Ne.symm (hnone _ (List.mem_singleton_self _)))
  | unset path =>
      left
      change (s.unset path h).2.1.table.get? k = s.table.get? k
      cases hr : (Operation.unset path).request? s with
      | none =>
          obtain ⟨f, h', hunset, -⟩ := unset_of_no_request h hr
          rw [hunset]
      | some r =>
          rw [Operation.written_of_request hr] at hnone
          rw [unset_of_request h hr]
          exact (request_apart (requested_of_unset hr) h).other k
            (Ne.symm (hnone _ (List.mem_singleton_self _)))

theorem holds_storeAll_of_ne {l : Leaves} {e : Entry} {entries : List Entry} (hl : l.Holds e)
    (hnone : ∀ d ∈ entries, d.kind ≠ e.kind) : (l.storeAll entries).Holds e := by
  induction entries generalizing l with
  | nil => exact hl
  | cons d rest ih =>
      exact ih (hl.store_of_ne (Ne.symm (hnone d List.mem_cons_self))) fun c hc =>
        hnone c (List.mem_cons_of_mem d hc)

theorem backed_of_call {k : Kind} (hw : Wired first x.scheduler x.host.bank)
    (hok : SavesSucceed x.host (x.call op).host)
    (hb : Backed k x.scheduler x.host.settings.leaves) :
    Backed k (x.call op).scheduler (x.call op).host.settings.leaves := by
  have hleaves : (x.call op).host.settings.leaves = _ := (perform_wrote op hw.owned.keyed x.host).leaves hok
  intro e timer he htimer
  rw [hleaves]
  by_cases hmem : ∃ d ∈ op.written x.scheduler x.host, d.kind = k
  · obtain ⟨d, hd, rfl⟩ := hmem
    obtain ⟨last, hlast⟩ := Leaves.last?_of_mem hd rfl
    obtain ⟨hin, hkind⟩ := Leaves.of_last? hlast
    have hasked := Operation.asked?_of_mem_written hin
    rw [hkind] at hasked
    have hfields : (x.call op).scheduler.fields? d.kind = some (e.written d.kind) := by
      unfold fields?
      rw [he]
      rfl
    rcases (op.perform_leftWith x.scheduler x.host d.kind).entry with hsame | ⟨hnone, -⟩
    · rw [hasked] at hsame
      have heq : some last = some (e.written d.kind) := hsame.symm.trans hfields
      rw [← Option.some.inj heq]
      exact Leaves.holds_last hlast
    · exact absurd (hnone.symm.trans hfields) (Option.some_ne_none _).symm
  · have hnone : ∀ d ∈ op.written x.scheduler x.host, d.kind ≠ k := fun d hd hdk =>
      hmem ⟨d, hd, hdk⟩
    rcases perform_kept hnone with hsame | hunarmed
    · exact holds_storeAll_of_ne (hb e timer (hsame.symm.trans he) htimer) hnone
    · obtain ⟨d, -, rfl⟩ := Option.map_eq_some_iff.mp (hunarmed.symm.trans he)
      cases htimer

theorem backed_of_unarmed {k : Kind} {s : Scheduler} {l : Leaves} {d : Option Entry}
    (hd : s.table.get? k = d.map Entry.unarmed) : Backed k s l := by
  intro e timer he htimer
  obtain ⟨_, -, rfl⟩ := Option.map_eq_some_iff.mp (hd.symm.trans he)
  cases htimer

theorem backed_step {k : Kind} (hw : Wired first x.scheduler x.host.bank) (m : Move)
    (hok : SavesSucceed x.host (x.step m).host)
    (hb : Backed k x.scheduler x.host.settings.leaves) :
    Backed k (x.step m).scheduler (x.step m).host.settings.leaves := by
  cases m with
  | call op => exact backed_of_call hw hok hb
  | stopWhile timeoutMillis meanwhile =>
      -- nothing has a timer once a stop begins to wait
      have hstage := happenAll_offstage meanwhile x.halted
      have hwait := await_work timeoutMillis (x.awaiting meanwhile).scheduler
        (x.awaiting meanwhile).host
      refine backed_of_unarmed (d := x.scheduler.table.get? k) ?_
      have htable : (x.step (.stopWhile timeoutMillis meanwhile)).scheduler.table =
          (x.scheduler.halt x.host).1.table := hwait.table.trans hstage.table
      rw [htable]
      exact get?_halt x.scheduler x.host k
  | ambient a =>
      have hstage := happen_offstage a x
      intro e timer he htimer
      have hsettings : (x.step (.ambient a)).host.settings = x.host.settings := hstage.settings
      rw [hsettings]
      exact hb e timer ((congrArg (·.get? k) hstage.table).symm.trans he) htimer

/-- As long as no save fails, what has a timer is in the store. -/
theorem backed_run {k : Kind} (hw : Wired first x.scheduler x.host.bank) {moves : List Move}
    (hok : SavesSucceed x.host (x.run moves).host)
    (hb : Backed k x.scheduler x.host.settings.leaves) :
    Backed k (x.run moves).scheduler (x.run moves).host.settings.leaves := by
  induction moves generalizing x with
  | nil => exact hb
  | cons m rest ih =>
      have hw' := wired_step hw m
      obtain ⟨hnow, hlater⟩ := hok.split (step_wrote hw.owned.keyed m) (run_wrote hw' rest)
      exact ih hw' hlater (backed_step hw m hnow hb)

/-- The two leaves of a kind that is armed say its period and that of its flag. -/
theorem stored?_of_armed {k : Kind} (hw : Wired first x.scheduler x.host.bank)
    (hb : Backed k x.scheduler x.host.settings.leaves)
    (harmed : x.scheduler.isArmed k x.host = true) :
    ∃ e, x.scheduler.fields? k = some e ∧ 0 < e.period ∧
      x.host.settings.leaves.stored? k (.period e.period) = some (k, .period e.period) ∧
      x.host.settings.leaves.stored? k (.enable e.enabled) = some (k, .enable e.enabled) := by
  obtain ⟨e, timer, he, htimer, -, hperiod, -⟩ := (hw.isArmed_iff k).mp harmed
  have hstored := Leaves.stored?_of_holds (hb e timer he htimer) (Table.ne_invalid_of_get? he)
  refine ⟨e.written k, ?_, hperiod, hstored⟩
  unfold fields?
  rw [he]
  rfl

end System
end TelemetryAgent
