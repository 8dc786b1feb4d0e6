import TelemetryAgent.Proofs.Schedule.Writing
import TelemetryAgent.Proofs.Schedule.Paths

/-!
# The fields of an entry

What a call makes of the period and the flag of a kind. A request leaves what it asks for, and every
other call what there was. Instead a kind can have lost its entry, because its timer could not be
armed. What is written of a kind is what the call asks for, also if the entry is then lost.
-/
namespace TelemetryAgent

theorem Request.kind_of_parse {path : String} {k : Kind} {field : ConfigField}
    (hparse : Request.parse path = .ok (k, field)) : k ≠ .invalid := by
  obtain ⟨name, hasks, -⟩ := parse_eq_ok_iff.mp hparse
  exact hasks.ne_invalid

namespace Scheduler
open Host

variable {s s₁ s₂ : Scheduler} {h h₁ h₂ : Host} {k : Kind} {e : Entry} {o : Option Entry}

/-- What the table has for a kind, as it is written: the fields of the entry without its timer. -/
def fields? (k : Kind) (s : Scheduler) : Option Entry := (s.table.get? k).map (Entry.written k)

theorem fields?_setEntry {j : Kind} (hj : j ≠ .invalid) (o : Option Entry) (s : Scheduler) (k : Kind) :
    (s.setEntry j o).fields? k = if k = j then o.map (Entry.written k) else s.fields? k := by
  unfold fields?
  rw [get?_setEntry hj]
  split <;> rfl

theorem fields?_congr (htable : s₂.table.get? k = s₁.table.get? k) : s₂.fields? k = s₁.fields? k :=
  congrArg (Option.map (Entry.written k)) htable

/-- A timer does not show in what is written of an entry. -/
theorem fields?_setTimer (he : s.table.get? k = some e) (timer : Option Nat) (j : Kind) :
    (s.setEntry k (some { e with timer })).fields? j = s.fields? j := by
  rw [fields?_setEntry (Table.ne_invalid_of_get? he)]
  split
  · rename_i hjk
    unfold fields?
    rw [hjk, he]
    rfl
  · rfl

/-! ## What is left of a kind -/

/-- A kind has been left with `o`, or without an entry since its timer could not be armed. That does
not happen with timers that do not fail. -/
structure LeftWith (k : Kind) (o : Option Entry) (h : Host) (s' : Scheduler) (h' : Host) : Prop where
  notes : Notes h h'
  entry : s'.fields? k = o ∨ s'.fields? k = none ∧ ¬ ArmsSucceed k h h'
  arms : h.timers.Reliable → h'.timers.Reliable ∧ ArmsSucceed k h h'

theorem LeftWith.kept (hq : Quiet h h₁) (hreliable : h.timers.Reliable → h₁.timers.Reliable)
    (hentry : s₁.fields? k = o) : LeftWith k o h s₁ h₁ :=
  ⟨hq.notes, .inl hentry, fun hr => ⟨hreliable hr, hq.arms k⟩⟩

theorem LeftWith.trans (hl₁ : LeftWith k o h s₁ h₁) (hl₂ : LeftWith k (s₁.fields? k) h₁ s₂ h₂) :
    LeftWith k o h s₂ h₂ := by
  have hboth := ArmsSucceed.trans_iff (k := k) hl₁.notes hl₂.notes
  refine ⟨hl₁.notes.trans hl₂.notes, ?_, fun hr => ?_⟩
  · rcases hl₂.entry with hsame | ⟨hnone, hfailed⟩
    · rw [hsame]
      exact hl₁.entry.imp_right fun ⟨hnone, hfailed⟩ => ⟨hnone, fun hok => hfailed (hboth.mp hok).1⟩
    · exact .inr ⟨hnone, fun hok => hfailed (hboth.mp hok).2⟩
  · obtain ⟨hr₁, harms₁⟩ := hl₁.arms hr
    obtain ⟨hr₂, harms₂⟩ := hl₂.arms hr₁
    exact ⟨hr₂, hboth.mpr ⟨harms₁, harms₂⟩⟩

theorem schedule_leftWith (k : Kind) (s : Scheduler) (h : Host) (j : Kind) :
    LeftWith j (s.fields? j) h (s.schedule k h).2.1 (s.schedule k h).2.2 := by
  unfold schedule
  split
  · exact .kept (.refl h) id rfl
  · rename_i e he
    have hpersist := persist_quiet e h
    have hreliable := (persist_storeOnly e h).reliable
    dsimp only
    split
    · have hdisarm : Quiet (h.persist e) ((h.persist e).disarm e).2 := .ofEq (disarm_notices e _)
      refine .kept ?_ (fun hr => ?_) (fields?_setTimer he none j)
      · exact (hpersist.trans hdisarm).trans ((noteFailure_quiet _ (fun _ _ => rfl) _).trans
          (note_quiet (fun _ => rfl) _))
      · rw [note_timers, noteFailure_timers]
        exact (disarm_timersOnly e _).reliable (hreliable hr)
    · split
      · have harm := arm_quiet s.ident e e.period.toInt.toNat (h.persist e)
        have htimers := arm_timersOnly s.ident e e.period.toInt.toNat (h.persist e)
        split
        · rename_i timer h₁ heq
          rw [heq] at harm htimers
          exact .kept (hpersist.trans harm) (fun hr => htimers.reliable (hreliable hr))
            (fields?_setTimer he (some timer) j)
        · rename_i f h₁ heq
          rw [heq] at harm
          have hbefore : Notes h h₁ := (hpersist.trans harm).notes
          have hafter : Notes (h₁.note (.armFailed k f)) ((h₁.note (.armFailed k f)).abandon e) :=
            (Quiet.ofEq (abandon_notices e _)).notes
          have hlater : Notes h₁ ((h₁.note (.armFailed k f)).abandon e) :=
            (note_notes _ h₁).trans hafter
          refine ⟨hbefore.trans hlater, ?_, fun hr => ?_⟩
          · rw [fields?_setEntry (Table.ne_invalid_of_get? he)]
            split
            · rename_i hjk
              right
              refine ⟨rfl, fun hok => ?_⟩
              rw [hjk] at hok
              have hnow := ((ArmsSucceed.trans_iff hbefore hlater).mp hok).2
              exact not_armsSucceed_note k f h₁
                ((ArmsSucceed.trans_iff (note_notes _ h₁) hafter).mp hnow).1
            · exact .inl rfl
          · obtain ⟨timer, hok⟩ := arm_of_reliable (hreliable hr) s.ident e e.period.toInt.toNat
            rw [heq] at hok
            cases hok
      · exact .kept hpersist hreliable rfl

theorem unschedule_leftWith (k : Kind) (s : Scheduler) (h : Host) (j : Kind) :
    LeftWith j (s.fields? j) h (s.unschedule k h).2.1 (s.unschedule k h).2.2 := by
  cases he : s.table.get? k with
  | none =>
      rw [unschedule_of_none h he]
      exact .kept (.refl h) id rfl
  | some e =>
      rw [unschedule_of_some h he]
      exact .kept ((persist_quiet e h).trans (.ofEq (disarm_notices e _)))
        (fun hr => (disarm_timersOnly e _).reliable ((persist_storeOnly e h).reliable hr))
        (fields?_setTimer he none j)

theorem apply_leftWith (k : Kind) (s : Scheduler) (h : Host) (j : Kind) :
    LeftWith j (s.fields? j) h (s.apply k h).2.1 (s.apply k h).2.2 := by
  unfold Scheduler.apply
  split
  · split
    · exact schedule_leftWith k s h j
    · exact unschedule_leftWith k s h j
  · exact unschedule_leftWith k s h j

theorem scheduleEnabled_leftWith (k : Kind) (s : Scheduler) (h : Host) (j : Kind) :
    LeftWith j (s.fields? j) h (s.scheduleEnabled k h).1 (s.scheduleEnabled k h).2 := by
  unfold scheduleEnabled
  split
  · exact .kept (.refl h) id rfl
  · split
    · exact (schedule_leftWith k s h j).trans (.kept (noteFailure_quiet _ (fun _ _ => rfl) _)
        (noteFailure_timersOnly _ _ _).reliable rfl)
    · exact .kept (.refl h) id rfl

theorem scheduleAll_leftWith (kinds : List Kind) (s : Scheduler) (h : Host) (j : Kind) :
    LeftWith j (s.fields? j) h (scheduleAll kinds s h).1 (scheduleAll kinds s h).2 := by
  induction kinds generalizing s h with
  | nil => exact .kept (.refl h) id rfl
  | cons k rest ih => exact (scheduleEnabled_leftWith k s h j).trans (ih _ _)

theorem start_leftWith (publisher : Nat) (s : Scheduler) (h : Host) (k : Kind) :
    LeftWith k (s.fields? k) h (s.start publisher h).2.1 (s.start publisher h).2.2 := by
  have hcases := start_cases publisher s h
  generalize (s.start publisher h).1 = r, (s.start publisher h).2.1 = s₁,
    (s.start publisher h).2.2 = h₁ at hcases
  cases hcases with
  | already => exact .kept (note_quiet (fun _ => rfl) h) id rfl
  | refused _ _ htimers _ _ _ hquiet => exact .kept hquiet (fun hr => htimers ▸ hr) rfl
  | spawned _ _ htimers _ _ _ hquiet =>
      have hbegun : LeftWith k (s.fields? k) h (s.begun h.tasks.workers.length) _ :=
        .kept hquiet (fun hr => htimers ▸ hr) rfl
      exact hbegun.trans (scheduleAll_leftWith _ _ _ k)

theorem disarmEach_leftWith (kinds : List Kind) (s : Scheduler) (h : Host) (j : Kind) :
    LeftWith j (s.fields? j) h (disarmEach kinds s h).1 (disarmEach kinds s h).2 := by
  induction kinds generalizing s h with
  | nil => exact .kept (.refl h) id rfl
  | cons k rest ih =>
      unfold disarmEach
      split
      · exact ih s h
      · rename_i e he
        have hdisarm : Quiet h (h.disarm e).2 := .ofEq (disarm_notices e h)
        have hfailure := noteFailure_timersOnly (h.disarm e).1 (.disarmFailed e.kind) (h.disarm e).2
        exact (LeftWith.kept (hdisarm.trans (noteFailure_quiet _ (fun _ _ => rfl) _))
          ((disarm_timersOnly e h).trans hfailure).reliable (fields?_setTimer he none j)).trans (ih _ _)

theorem halt_leftWith (s : Scheduler) (h : Host) (k : Kind) :
    LeftWith k (s.fields? k) h (s.halt h).1 (s.halt h).2 := by
  have hall := disarmEach_leftWith Kind.schedulable s h k
  exact ⟨hall.notes, hall.entry, hall.arms⟩

theorem await_leftWith (timeoutMillis : Nat) (s : Scheduler) (h : Host) (k : Kind) :
    LeftWith k (s.fields? k) h (s.await timeoutMillis h).2.1 (s.await timeoutMillis h).2.2 := by
  have hcases := await_cases timeoutMillis s h
  generalize (s.await timeoutMillis h).1 = r, (s.await timeoutMillis h).2.1 = s',
    (s.await timeoutMillis h).2.2 = h' at hcases
  cases hcases with
  | nobody => exact .kept (.refl h) id rfl
  | crashed => exact .kept (note_quiet (fun _ => rfl) h) id rfl
  | joined => exact .kept (.ofEq rfl) id rfl
  | busy =>
      have helapse : Quiet h (h.elapse timeoutMillis) := .ofEq rfl
      exact .kept (helapse.trans (note_quiet (fun _ => rfl) (h.elapse timeoutMillis))) id rfl

/-- What a set asks for: the entry that the kind has, or a blank one, with the field assigned. -/
theorem setRequest_of_parse {path : String} {k : Kind} {field : ConfigField}
    (hparse : Request.parse path = .ok (k, field)) (value : Value)
    (s : Scheduler) : s.setRequest path value =
      some (k, assign field value ((s.table.get? k).getD (Entry.blank k))) := by
  unfold setRequest
  rw [hparse]
  dsimp only
  unfold Table.getOrBlank?
  rw [if_neg (Request.kind_of_parse hparse)]
  rfl

theorem unsetRequest_of_parse {path : String} {k : Kind} {field : ConfigField}
    (hparse : Request.parse path = .ok (k, field)) (s : Scheduler) : s.unsetRequest path =
      (s.table.get? k).map fun e => (k, restore field (s.baselinePeriod? k) e) := by
  unfold unsetRequest
  rw [hparse]

end Scheduler

/-! ## What is asked for -/

namespace Operation
open Host Scheduler

variable {op : Operation} {s : Scheduler} {h : Host} {k : Kind} {e : Entry}

def request? (op : Operation) (s : Scheduler) : Option (Kind × Entry) :=
  match op with
  | .set path value => s.setRequest path value
  | .unset path => s.unsetRequest path
  | .start _ => none
  | .stop _ => none
  | .schedule _ => none
  | .unschedule _ => none

/-- What a call asks a kind to have: what a request says of it, and else what there is. -/
def asked? (k : Kind) (op : Operation) (s : Scheduler) : Option Entry :=
  match op.request? s with
  | none => s.fields? k
  | some r => if k = r.1 then some (r.2.written k) else s.fields? k

theorem asked?_of_no_request (hr : op.request? s = none) : op.asked? k s = s.fields? k := by
  unfold asked?
  rw [hr]

theorem asked?_of_request {r : Kind × Entry} (hr : op.request? s = some r) :
    op.asked? k s = if k = r.1 then some (r.2.written k) else s.fields? k := by
  unfold asked?
  rw [hr]

theorem request_leftWith (hr : Requested s k e) (h : Host) (j : Kind) :
    LeftWith j (if j = k then some (e.written j) else s.fields? j) h
      ((s.setEntry k (some e)).apply k h).2.1 ((s.setEntry k (some e)).apply k h).2.2 := by
  have happly := apply_leftWith k (s.setEntry k (some e)) h j
  rwa [fields?_setEntry hr.schedulable] at happly

theorem perform_leftWith (op : Operation) (s : Scheduler) (h : Host) (k : Kind) :
    LeftWith k (op.asked? k s) h (op.perform s h).2.1 (op.perform s h).2.2 := by
  cases op with
  | start publisher => exact start_leftWith publisher s h k
  | stop timeoutMillis => exact (halt_leftWith s h k).trans (await_leftWith timeoutMillis _ _ k)
  | schedule j => exact schedule_leftWith j s h k
  | unschedule j => exact unschedule_leftWith j s h k
  | set path value =>
      change LeftWith k _ h (s.set path value h).2.1 (s.set path value h).2.2
      cases hr : (Operation.set path value).request? s with
      | none =>
          obtain ⟨f, hset⟩ := set_of_no_request h hr
          rw [asked?_of_no_request hr, hset]
          exact .kept (.refl h) id rfl
      | some r =>
          rw [asked?_of_request hr, set_of_request h hr]
          exact request_leftWith (requested_of_set hr) h k
  | unset path =>
      change LeftWith k _ h (s.unset path h).2.1 (s.unset path h).2.2
      cases hr : (Operation.unset path).request? s with
      | none =>
          obtain ⟨f, h', hunset, hh'⟩ := unset_of_no_request h hr
          rw [asked?_of_no_request hr, hunset]
          rcases hh' with rfl | ⟨j, rfl⟩
          · exact .kept (.refl h') id rfl
          · exact .kept (note_quiet (fun _ => rfl) h) id rfl
      | some r =>
          rw [asked?_of_request hr, unset_of_request h hr]
          exact request_leftWith (requested_of_unset hr) h k

/-! ## What is asked for is written -/

theorem written_of_request {r : Kind × Entry} (hr : op.request? s = some r) (h : Host) :
    op.written s h = [r.2.written r.1] := by
  cases op with
  | set path value =>
      have hset : s.setRequest path value = some r := hr
      unfold written
      dsimp only
      rw [hset]
      rfl
  | unset path =>
      have hunset : s.unsetRequest path = some r := hr
      unfold written
      dsimp only
      rw [hunset]
      rfl
  | start | stop | schedule | unschedule => cases hr

theorem fields?_of_mem_entryWritten {j : Kind} (hmem : e ∈ s.entryWritten j) :
    s.fields? e.kind = some e := by
  obtain ⟨d, hd, rfl⟩ := Option.map_eq_some_iff.mp (Option.mem_toList.mp hmem)
  change (s.table.get? j).map (Entry.written j) = some (d.written j)
  rw [hd]
  rfl

theorem fields?_of_wanted {j : Kind} (hwanted : s.wanted? j = some e) : s.fields? e.kind = some e := by
  obtain ⟨d, hd, rfl⟩ := Option.map_eq_some_iff.mp hwanted
  change (s.table.get? j).map (Entry.written j) = some (d.written j)
  rw [(Option.filter_eq_some_iff.mp hd).1]
  rfl

/-- A call writes of a kind what it asks for. -/
theorem asked?_of_mem_written (hmem : e ∈ op.written s h) : op.asked? e.kind s = some e := by
  cases hr : op.request? s with
  | some r =>
      rw [written_of_request hr, List.mem_singleton] at hmem
      rw [asked?_of_request hr, hmem]
      exact if_pos rfl
  | none =>
      rw [asked?_of_no_request hr]
      cases op with
      | start publisher =>
          unfold written at hmem
          dsimp only at hmem
          split at hmem
          · obtain ⟨k, -, hwanted⟩ := List.mem_filterMap.mp hmem
            exact fields?_of_wanted hwanted
          · cases hmem
      | stop => cases hmem
      | schedule k => exact fields?_of_mem_entryWritten hmem
      | unschedule k => exact fields?_of_mem_entryWritten hmem
      | set path value =>
          have hset : s.setRequest path value = none := hr
          unfold written at hmem
          dsimp only at hmem
          rw [hset] at hmem
          cases hmem
      | unset path =>
          have hunset : s.unsetRequest path = none := hr
          unfold written at hmem
          dsimp only at hmem
          rw [hunset] at hmem
          cases hmem

/-- A kind of which a call writes nothing is not asked to change. -/
theorem asked?_of_not_written (hnone : ∀ e ∈ op.written s h, e.kind ≠ k) :
    op.asked? k s = s.fields? k := by
  cases hr : op.request? s with
  | none => exact asked?_of_no_request hr
  | some r =>
      rw [asked?_of_request hr, if_neg]
      rintro rfl
      exact hnone (r.2.written r.1) (by rw [written_of_request hr]; exact List.mem_singleton_self _) rfl

end Operation

/-! ## Runs -/

namespace System
open Scheduler Host

variable {x : System} {k : Kind}

def asked? (k : Kind) (m : Move) (x : System) : Option Entry :=
  match m with
  | .call op => op.asked? k x.scheduler
  | .stopWhile _ _ => x.scheduler.fields? k
  | .ambient _ => x.scheduler.fields? k

/-- If a move is to arm the timer of a kind, it does. Only calls arm timers. -/
def ArmsIn (k : Kind) (m : Move) (x : System) : Prop :=
  match m with
  | .call op => ArmsSucceed k x.host (x.call op).host
  | .stopWhile _ _ => True
  | .ambient _ => True

def ArmsAll (k : Kind) : List Move → System → Prop
  | [], _ => True
  | m :: rest, x => x.ArmsIn k m ∧ ArmsAll k rest (x.step m)

/-- A step leaves a kind with what it asks for, or without an entry if its timer could not be armed. -/
theorem step_fields? (k : Kind) (m : Move) (x : System) :
    (x.step m).scheduler.fields? k = x.asked? k m ∨
      (x.step m).scheduler.fields? k = none ∧ ¬ x.ArmsIn k m := by
  cases m with
  | call op => exact (op.perform_leftWith x.scheduler x.host k).entry
  | stopWhile timeoutMillis meanwhile =>
      left
      have hoff := happenAll_offstage meanwhile x.halted
      have hwait := await_work timeoutMillis (x.awaiting meanwhile).scheduler (x.awaiting meanwhile).host
      have htable : (x.stopWhile timeoutMillis meanwhile).2.scheduler.table =
          x.halted.scheduler.table := hwait.table.trans hoff.table
      refine (fields?_congr (congrArg (·.get? k) htable)).trans ?_
      change Option.map _ ((x.scheduler.halt x.host).1.table.get? k) = Option.map _ _
      rw [get?_halt, Option.map_map]
      rfl
  | ambient a =>
      left
      exact fields?_congr (congrArg (·.get? k) (happen_offstage a x).table)

theorem fields?_of_armsIn {m : Move} (harms : x.ArmsIn k m) :
    (x.step m).scheduler.fields? k = x.asked? k m :=
  (step_fields? k m x).resolve_right fun ⟨_, hfailed⟩ => hfailed harms

/-- Timers that do not fail are armed whenever they are to be, and go on not to fail. -/
theorem step_reliable (hreliable : x.host.timers.Reliable) (m : Move) (k : Kind) :
    x.ArmsIn k m ∧ (x.step m).host.timers.Reliable := by
  cases m with
  | call op => exact ((op.perform_leftWith x.scheduler x.host k).arms hreliable).symm
  | stopWhile timeoutMillis meanwhile =>
      refine ⟨trivial, ?_⟩
      have hhalt := ((halt_leftWith x.scheduler x.host k).arms hreliable).1
      have hoff := happenAll_offstage meanwhile x.halted
      have hwait := await_work timeoutMillis (x.awaiting meanwhile).scheduler (x.awaiting meanwhile).host
      have htimers : (x.stopWhile timeoutMillis meanwhile).2.host.timers = x.halted.host.timers :=
        hwait.timers.trans hoff.timers
      exact htimers ▸ hhalt
  | ambient a => exact ⟨trivial, (happen_offstage a x).timers ▸ hreliable⟩

theorem armsAll_of_reliable (hreliable : x.host.timers.Reliable) (moves : List Move) (k : Kind) :
    ArmsAll k moves x := by
  induction moves generalizing x with
  | nil => trivial
  | cons m rest ih =>
      obtain ⟨hnow, hlater⟩ := step_reliable hreliable m k
      exact ⟨hnow, ih hlater⟩

theorem perform_baseline (op : Operation) (s : Scheduler) (h : Host) :
    (op.perform s h).2.1.baseline = s.baseline := by
  cases op with
  | start publisher =>
      change (s.start publisher h).2.1.baseline = s.baseline
      have hcases := start_cases publisher s h
      generalize (s.start publisher h).1 = r, (s.start publisher h).2.1 = s₁,
        (s.start publisher h).2.2 = h₁ at hcases ⊢
      cases hcases with
      | already => rfl
      | refused => rfl
      | spawned => exact (scheduleAll_work _ (s.begun h.tasks.workers.length) _).baseline
  | stop timeoutMillis =>
      exact (await_work timeoutMillis _ _).baseline.trans (halt_work s h).baseline
  | schedule k => exact (schedule_work k s h).baseline
  | unschedule k => exact (unschedule_work k s h).baseline
  | set path value => exact (set_work path value s h).baseline
  | unset path => exact (unset_work path s h).baseline

/-- The baseline of a scheduler stays the one that it was made from. -/
theorem step_baseline (m : Move) (x : System) :
    (x.step m).scheduler.baseline = x.scheduler.baseline := by
  cases m with
  | call op => exact perform_baseline op x.scheduler x.host
  | stopWhile timeoutMillis meanwhile =>
      have hoff := happenAll_offstage meanwhile x.halted
      exact (await_work timeoutMillis _ _).baseline.trans
        (hoff.baseline.trans (halt_work x.scheduler x.host).baseline)
  | ambient a => exact (happen_offstage a x).baseline

end System
end TelemetryAgent
