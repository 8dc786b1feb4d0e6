import TelemetryAgent.Proofs.Schedule.Arming
import TelemetryAgent.Proofs.Schedule.Order

/-!
# Publishing in order

A notification is published once at most, in the order in which notifications were accepted, with the
publisher of the start whose worker has taken it. This holds of workers that block, fail or panic,
of workers that come back after later starts, and of everything that comes between the steps of a
start, as long as the scheduler has not been started as often as there are epochs.

It does not hold that a worker publishes the beginning of what is accepted before the next start. A
worker that has outlived a stop is current again from the moment the next start sets the scheduler
running until it begins its epoch, and may take what that start has not dropped yet, although it was
queued before the stop. Exactly if this never happens, every worker publishes the beginning of what
is accepted before the next start.
-/
namespace TelemetryAgent

open Occurrence

namespace Scheduler

variable {first : Nat} {s s' : Scheduler} {bank : List TimerState}

/-- Table and timers agree, and while a start is under way and has no worker yet, nothing has a
timer. -/
structure Rigged (first : Nat) (opening : Bool) (s : Scheduler) (bank : List TimerState) : Prop where
  wired : Wired first s bank
  unarmed : opening = true → ∀ k e, s.table.get? k = some e → e.timer = none

/-- Without timers a start may set the scheduler running, and may give it up. -/
theorem Rigged.opening (hr : Rigged first true s bank) {opening : Bool} (htable : s'.table = s.table)
    (hident : s'.ident = s.ident) : Rigged first opening s' bank := by
  have hunarmed : ∀ k e, s'.table.get? k = some e → e.timer = none := by
    rw [htable]
    exact hr.unarmed rfl
  exact ⟨(hr.wired.owned.congr htable hident).wired hunarmed, fun _ => hunarmed⟩

theorem Rigged.raised (hr : Rigged first false s bank) (hstopped : s.running = false) :
    Rigged first true s.raise bank := by
  have hunarmed := hr.wired.unarmed_of_stopped hstopped
  exact ⟨(hr.wired.owned.congr rfl rfl : Owned first s.raise bank).wired hunarmed, fun _ => hunarmed⟩

end Scheduler

namespace StagedSystem
open Scheduler

variable {first : Nat} {x : StagedSystem}

/-- A start that has been called and has no worker yet. -/
def isOpen (x : StagedSystem) : Bool := decide (x.mark ≠ .rest)

abbrev Rigged (first : Nat) (x : StagedSystem) : Prop :=
  Scheduler.Rigged first x.isOpen x.system.scheduler x.system.host.bank

theorem rigged_proceed (hr : x.Rigged first) : x.proceed.Rigged first := by
  obtain ⟨y, stage⟩ := x
  cases stage with
  | none => exact hr
  | some stage =>
      cases stage with
      | emptying publisher =>
          change (empty publisher y).Rigged first
          unfold empty
          split <;> exact hr.opening rfl rfl
      | renewing publisher => exact hr.opening rfl rfl
      | spawning publisher =>
          change (spawn publisher y).Rigged first
          unfold spawn
          have hcases := enlist_cases publisher y.scheduler y.host
          generalize y.scheduler.enlist publisher y.host = result at hcases
          obtain ⟨r, s, h⟩ := result
          dsimp only at hcases
          cases hcases with
          | refused _ htimers | spawned _ htimers =>
              have hbank : h.bank = y.host.bank := congrArg TimerBank.timers htimers
              unfold Rigged
              rw [show h.bank = _ from hbank]
              exact hr.opening rfl rfl
      | arming kinds =>
          cases kinds with
          | nil => exact hr
          | cons k rest => exact ⟨hr.wired.scheduleEnabled k, fun hopen => nomatch hopen⟩

theorem rigged_enter {y : System} (hr : Rigged first ⟨y, none⟩) (publisher : Nat) :
    (enter publisher y).Rigged first := by
  unfold enter
  split
  · exact hr
  · rename_i hstopped
    exact hr.raised (Bool.eq_false_iff.mpr hstopped)

theorem rigged_move (hr : x.Rigged first) (m : Move) : (x.move m).Rigged first := by
  obtain ⟨y, stage⟩ := x
  cases m with
  | ambient a =>
      have hoff := System.happen_offstage a y
      have hwired := System.wired_of_offstage hoff hr.wired
      have hunarmed := hr.unarmed
      rw [← hoff.table] at hunarmed
      cases stage <;> exact ⟨hwired, hunarmed⟩
  | stopWhile timeoutMillis meanwhile =>
      cases stage with
      | none => exact ⟨System.wired_step hr.wired _, fun hopen => nomatch hopen⟩
      | some stage => exact hr
  | call op =>
      cases stage with
      | some stage =>
          rw [move_call_of_stage]
          exact hr
      | none =>
          cases op with
          | start publisher => exact rigged_enter hr publisher
          | stop | schedule | unschedule | set | unset =>
              exact ⟨System.wired_step hr.wired (.call _), fun hopen => nomatch hopen⟩

theorem rigged_run (hr : x.Rigged first) (turns : List Turn) : (x.run turns).Rigged first :=
  run_induction (p := fun y => y.Rigged first) hr fun t _ _ hy => by
    cases t with
    | move m => exact rigged_move hy m
    | proceed => exact rigged_proceed hy

end StagedSystem

namespace System
open Scheduler

variable {x : System}

/-- The expiry of a timer of the scheduler is accepted or, exactly when the queue is full, counted. -/
theorem expire_cases {timer : Nat} {t : TimerState} (ht : x.host.bank[timer]? = some t)
    (howner : t.owner = x.scheduler.ident) (hroom : x.scheduler.queue.length ≤ capacity) :
    (x.scheduler.queue.length < capacity ∧ x.expire timer =
      ⟨{ x.scheduler with queue := x.scheduler.queue ++ [t.kind] }, x.host,
        x.log ++ [.accepted t.kind]⟩) ∨
    (x.scheduler.queue.length = capacity ∧ x.expire timer =
      ⟨{ x.scheduler with dropped := x.scheduler.dropped + 1 }, x.host,
        x.log ++ [.lost t.kind]⟩) := by
  unfold expire notify
  rw [show x.host.timers.timers[timer]? = some t from ht]
  simp only [if_pos howner]
  split
  · rename_i hlt
    exact .inl ⟨hlt, rfl⟩
  · rename_i hfull
    exact .inr ⟨by omega, rfl⟩

end System

namespace StagedSystem
open Scheduler

/-- Starts may be called at any moment and everything else may come between their steps. As long as
there are fewer of them than epochs, one worker at most is current, and one that is alive is whenever
the scheduler runs, no start is on its way to a worker and no publisher has panicked. What was accepted
leaves the queue in order, and nothing else does. What the worker of a start takes was accepted after
this start had found the queue empty and before the next epoch, and comes in this order; it is the
beginning of what was accepted up to the next start, for every start, exactly if no worker takes
anything while a start has been called and has not begun its epoch. Only a worker that this start found
alive can do so. A worker calls the publisher of its own start, once with each notification that it
takes. The expiry of an armed timer is accepted unless four notifications wait, and counted as dropped
if they do. -/
theorem deliveries_of_run {baseline : List BaselineItem} {h : Host}
    (hb : ∀ item ∈ baseline, item.kind ≠ .invalid) (config : WorkerConfig) (hn : h.Numbered) :
    ∃ s h₀, Scheduler.create baseline config h = (.ok s, h₀) ∧
      ∀ turns : List Turn, turns.countP Turn.isStart < UInt32.size →
      let x := run turns ⟨⟨s, h₀, []⟩, none⟩
      let log := x.system.log
      (∀ (i j : Nat) (w v : Worker), x.system.workers[i]? = some w → x.system.workers[j]? = some v →
        x.system.scheduler.isCurrent w = true → x.system.scheduler.isCurrent v = true → i = j) ∧
      (x.isOpen = false → x.system.scheduler.running = true →
        (∀ w ∈ x.system.workers, w.owner = x.system.scheduler.ident → w.phase ≠ .panicked) →
        ∃ (i : Nat) (w : Worker), x.system.workers[i]? = some w ∧
          x.system.scheduler.isCurrent w = true ∧ w.phase.isAlive = true) ∧
      dequeuedIn log ++ x.system.scheduler.queue = acceptedIn log ∧
      (∀ before i p after, log = before ++ .started i p :: after →
        (handedTo i log).Sublist (acceptedIn (fresh before ++ tenure after))) ∧
      (Undisturbed log ↔ ∀ before i p after, log = before ++ .started i p :: after →
        handedTo i log = handedTo i (reign after) ∧
          handedTo i (reign after) <+: acceptedIn (fresh before ++ reign after)) ∧
      (∀ before i q k after, log = before ++ .handed i q k :: after →
        (Occurrence.mark before).isOpening = true → .displaced i ∈ before) ∧
      (∀ i q k, .handed i q k ∈ log →
        .started i q ∈ log ∧ ∀ p, .started i p ∈ log → p = q) ∧
      (∀ i, h₀.tasks.workers.length ≤ i →
        handedTo i log = returnedTo i log ++ (x.system.host.phase i).inHand) ∧
      (∀ (publisher : Publisher.Confined) (i : Nat), x.system.finish publisher i = x.system ∨
        ∃ (w : Worker) (k : Kind), x.system.workers[i]? = some w ∧ w.phase = .publishing k ∧
          x.system.finish publisher i =
            ⟨x.system.scheduler, (publisher.publish w.publisher k x.system.host).2.setPhase i
                (publisher.publish w.publisher k x.system.host).1.phase,
              log ++ [.returned i w.publisher k]⟩) ∧
      ∀ k, x.system.scheduler.isArmed k x.system.host = true →
        ∃ e timer, x.system.scheduler.table.get? k = some e ∧ e.timer = some timer ∧
        ((x.system.scheduler.queue.length < 4 ∧ x.system.expire timer =
            ⟨{ x.system.scheduler with queue := x.system.scheduler.queue ++ [k] }, x.system.host,
              log ++ [.accepted k]⟩) ∨
          (x.system.scheduler.queue.length = 4 ∧ x.system.expire timer =
            ⟨{ x.system.scheduler with dropped := x.system.scheduler.dropped + 1 }, x.system.host,
              log ++ [.lost k]⟩)) := by
  obtain ⟨s, h₀, hcreate, hfresh⟩ := create_fresh hb config h
  refine ⟨s, h₀, hcreate, fun turns hstarts => ?_⟩
  have hadvance := run_advance (x := ⟨⟨s, h₀, []⟩, none⟩) turns rfl
  have horder := (System.orderly_of_fresh hfresh hn).smallSteps hadvance.small
  have hw₀ : Wired h₀.bank.length s h₀.bank := hfresh.wired
  have hrigged := rigged_run (x := ⟨⟨s, h₀, []⟩, none⟩) ⟨hw₀, fun hopen => nomatch hopen⟩ turns
  have hfew : renewals (run turns ⟨⟨s, h₀, []⟩, none⟩).system.log < UInt32.size := by
    have hle := hadvance.begun_le
    unfold begun at hle
    change _ ≤ 0 + _ at hle
    omega
  have hchronicle := horder.chronicle hfew
  intro x log
  refine ⟨fun i j w v hw hv hcw hcv => horder.current_unique hfew hw hv hcw hcv,
    fun hclosed hrunning hcalm => ?_, horder.kept, fun before i p after hlog => ?_,
    hchronicle.undisturbed_iff, fun before i q k after hlog hopening => ?_,
    fun i q k hmem => horder.enrolled.handed_publisher hmem, horder.served,
    fun publisher i => System.finish_cases publisher i x.system, fun k harmed => ?_⟩
  · have hrest : Occurrence.mark log = .rest := by
      rw [show Occurrence.mark log = x.mark from hadvance.marked]
      simpa [isOpen] using hclosed
    exact (horder.staffed hrest).current horder.enrolled hrunning hcalm
  · have hc : Chronicle (before ++ .started i p :: after) := by
      rw [← hlog]
      exact hchronicle
    rw [hlog, hc.handedTo_after]
    exact hc.handed_sublist
  · exact (hchronicle before _ after hlog).2.2.2 hopening
  · obtain ⟨e, timer, he, htimer, -, -, ht⟩ := (hrigged.wired.isArmed_iff k).mp harmed
    exact ⟨e, timer, he, htimer, System.expire_cases ht rfl horder.room⟩

/-- A publisher that has nothing to say. -/
def silent : Publisher.Confined :=
  ⟨fun _ _ h => (.returned (.ok ()), h), fun _ _ _ => rfl, fun _ _ _ => rfl, fun _ _ _ => rfl,
    fun _ _ _ => rfl, fun _ _ _ => rfl⟩

/-- All the steps of a start that finds so many notifications in the queue. -/
def steady (publisher queued : Nat) : List Turn :=
  .move (.call (.start publisher)) :: List.replicate (queued + 8) .proceed

/-- A worker that comes back after a restart is handed nothing, and the one of the restart nothing
that was accepted before it. -/
theorem delivery_after_restart :
    let turns : List Turn := steady 0 0 ++ [.move (.ambient (.expire 0)), .move (.ambient (.expire 0)),
      .move (.ambient (.take 0)), .move (.call (.stop 0))] ++ steady 1 1 ++
      [.move (.ambient (.finish 0 silent)), .move (.ambient (.take 0)), .move (.ambient (.expire 1)),
        .move (.ambient (.take 1))]
    (∀ item ∈ [BaselineItem.mk .systemStatus 10], item.kind ≠ .invalid) ∧ Host.Numbered {} ∧
      turns.countP Turn.isStart < UInt32.size ∧
      ∃ s h₀, Scheduler.create [⟨.systemStatus, 10⟩] {} {} = (.ok s, h₀) ∧
        let x := run turns ⟨⟨s, h₀, []⟩, none⟩
        handedTo 0 x.system.log = [.systemStatus] ∧
          (handedTo 1 x.system.log).Sublist [.systemStatus] ∧
          ∃ (i : Nat) (w : Worker), x.system.workers[i]? = some w ∧
            x.system.scheduler.isCurrent w = true ∧ w.phase.isAlive = true := by
  intro turns
  have hb : ∀ item ∈ [BaselineItem.mk .systemStatus 10], item.kind ≠ .invalid := by decide
  have hn : Host.Numbered {} := fun w hmem => by cases hmem
  refine ⟨hb, hn, by decide, ?_⟩
  obtain ⟨s, h₀, hcreate, hrun⟩ := deliveries_of_run hb {} hn
  refine ⟨s, h₀, hcreate, ?_⟩
  obtain ⟨-, hcurrent, -, htenure, -⟩ := hrun turns (by decide)
  cases hcreate
  refine ⟨rfl, ?_, hcurrent rfl rfl (by decide)⟩
  exact htenure [.raised, .cleared, .renewed, .started 0 0, .accepted .systemStatus,
    .accepted .systemStatus, .handed 0 0 .systemStatus, .displaced 0, .raised,
    .discarded .systemStatus, .cleared, .renewed] 1 1 _ rfl

/-- A worker that outlives a stop may come back when the next start has dropped one of the two
notifications that were queued before the stop, and take the other one. What it publishes then is not
the beginning of what was accepted since its start. -/
theorem carried_over_a_stop :
    let untilStop : List Turn := steady 0 0 ++ [.move (.ambient (.expire 1)), .move (.ambient (.take 0)),
      .move (.ambient (.expire 2)), .move (.ambient (.expire 0)), .move (.call (.stop 0))]
    let restart : List Turn := [.move (.call (.start 1)), .proceed, .move (.ambient (.finish 0 silent)),
      .move (.ambient (.take 0))] ++ List.replicate 8 .proceed
    (untilStop ++ restart).countP Turn.isStart = 2 ∧
      ∃ s h₀, Scheduler.create [⟨.systemStatus, 10⟩, ⟨.storageUsage, 10⟩, ⟨.wifiScan, 10⟩] {} {} =
          (.ok s, h₀) ∧
        let y := run untilStop ⟨⟨s, h₀, []⟩, none⟩
        let x := run (untilStop ++ restart) ⟨⟨s, h₀, []⟩, none⟩
        y.system.scheduler.running = false ∧
          y.system.scheduler.queue = [.storageUsage, .wifiScan] ∧
          handedTo 0 x.system.log = [.systemStatus, .wifiScan] ∧
          ∃ before after, x.system.log = before ++ .started 0 0 :: after ∧
            acceptedIn (fresh before ++ reign after) = [.systemStatus, .storageUsage, .wifiScan] ∧
            ¬ handedTo 0 x.system.log <+: acceptedIn (fresh before ++ reign after) := by
  intro untilStop restart
  refine ⟨rfl, _, _, rfl, rfl, rfl, rfl, [.raised, .cleared, .renewed], _, rfl, rfl, ?_⟩
  decide

end StagedSystem
end TelemetryAgent
