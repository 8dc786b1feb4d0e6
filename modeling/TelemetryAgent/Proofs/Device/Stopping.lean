import TelemetryAgent.Proofs.Device.System
import TelemetryAgent.Proofs.Schedule.Load
import TelemetryAgent.Proofs.Schedule.Stopping

/-!
# After a stop

What can still touch a publisher once a stop has returned without a failure, for a scheduler and for
a device. Only a worker that was displaced while it was alive can: one that a start found still
alive after a stop that had timed out. A device gives its workers the session that it holds, and it
never holds a session again that it has given up, so that workers of later sessions do not matter.
-/
namespace TelemetryAgent

namespace System

open Scheduler

theorem accounted_of_fresh {baseline : List BaselineItem} {config : WorkerConfig} {h h₀ : Host}
    {s : Scheduler} (hfresh : Fresh baseline config h s h₀) :
    Crew.Accounted h₀.tasks.workers.length (Crew.of s h₀ []) where
  base_le := Nat.le_refl _
  tracked := fun i hi => by
    rw [show (Crew.of s h₀ []).tracked = none from hfresh.tracked] at hi
    cases hi
  displaced := fun i hi => by cases hi
  alive := fun i w hle hw => by
    rw [show (Crew.of s h₀ []).workers[i]? = none from List.getElem?_eq_none hle] at hw
    cases hw

/-- A stop that returns without a failure leaves nobody to wait for, and nothing running. -/
theorem stopped_of_ok {timeoutMillis : Nat} {meanwhile : List Ambient} {x : System}
    (hok : (x.stopWhile timeoutMillis meanwhile).1 = .ok ()) :
    (x.stopWhile timeoutMillis meanwhile).2.crew.tracked = none ∧
      (x.stopWhile timeoutMillis meanwhile).2.crew.running = false :=
  ⟨tracked_of_await hok, (await_work timeoutMillis _ _).running.trans (awaiting_running meanwhile x)⟩

theorem opened_stopWhile (timeoutMillis : Nat) (meanwhile : List Ambient) (x : System) :
    (x.stopWhile timeoutMillis meanwhile).2.host.sessions.opened = x.host.sessions.opened :=
  (await_work timeoutMillis _ _).opened.trans ((happenAll_offstage meanwhile x.halted).opened.trans
    (halt_work x.scheduler x.host).opened)

/-- What is left after a stop that returns without a failure: displaced workers, and until the next
start nothing but the end of what they were publishing. -/
theorem displaced_after_stop {base : Nat} {x : System} (ha : Crew.Accounted base x.crew)
    {timeoutMillis : Nat} {meanwhile : List Ambient}
    (hok : (x.stopWhile timeoutMillis meanwhile).1 = .ok ()) {later : List Move}
    {new : List Occurrence}
    (hlog : ((x.stopWhile timeoutMillis meanwhile).2.run later).log =
      (x.stopWhile timeoutMillis meanwhile).2.log ++ new)
    (hnone : ∀ i p, .started i p ∉ new) :
    (∀ i p k, .handed i p k ∉ new) ∧
      ∀ i p k, base ≤ i → .returned i p k ∈ new →
        .displaced i ∈ (x.stopWhile timeoutMillis meanwhile).2.log ∧
          (x.stopWhile timeoutMillis meanwhile).2.host.phase i = .publishing k := by
  obtain ⟨htracked, hstopped⟩ := stopped_of_ok hok
  have hy := ha.steps (stopWhile_crew timeoutMillis meanwhile x : Crew.Steps (fun _ => True) _ _)
  generalize (x.stopWhile timeoutMillis meanwhile).2 = y at hlog htracked hstopped hy ⊢
  have hquiet := (run_crew later y).quiet hstopped hlog hnone
  refine ⟨hquiet.handed, fun i p k hbase hmem => ?_⟩
  obtain ⟨w, hw, -, hphase⟩ := hquiet.returned i p k hmem
  refine ⟨hy.displaced_of_alive htracked hbase hw (by rw [hphase]; rfl), ?_⟩
  unfold Host.phase
  rw [show y.host.tasks.workers[i]? = some w from hw]
  exact hphase

end System

namespace DeviceSystem

open Scheduler

theorem publishBattery_opened (b : BatteryStatus) (d : Device) (h : Host) :
    (d.publishBattery b h).2.sessions.opened = h.sessions.opened := by
  unfold Device.publishBattery
  split
  · rfl
  · split
    · rfl
    · exact (Host.publishBattery_traffic _ b h).opened

/-- Sessions are never taken up again: one that a step takes up is a new one. -/
theorem step_session (m : Device.Move) (x : DeviceSystem) :
    x.host.sessions.opened ≤ (x.step m).host.sessions.opened ∧
      ∀ p, (x.step m).device.session = some p →
        x.device.session = some p ∨
          x.host.sessions.opened ≤ p ∧ p < (x.step m).host.sessions.opened := by
  cases m with
  | start =>
      obtain ⟨-, -, hle, hsession⟩ := Device.start_facts x.device x.host
      exact ⟨hle, hsession⟩
  | poll arrived failure =>
      have hcases := Device.poll_cases arrived failure x.device x.host
      change _ ≤ (x.device.poll arrived failure x.host).2.2.sessions.opened ∧
        ∀ p, (x.device.poll arrived failure x.host).2.1.session = some p → _
      generalize (x.device.poll arrived failure x.host).2.1 = d',
        (x.device.poll arrived failure x.host).2.2 = h' at hcases ⊢
      cases hcases with
      | served hserved =>
          exact ⟨Nat.le_of_eq hserved.work.opened.symm, fun p hp => .inl (hserved.session ▸ hp)⟩
      | @started d₁ h₁ session hheld hserved =>
          have hopened := (start_beside session d₁.scheduler h₁).1
          rw [hopened]
          exact ⟨Nat.le_of_eq hserved.work.opened.symm, fun p hp => .inl (hserved.session ▸ hp)⟩
  | battery b =>
      have hopened := publishBattery_opened b x.device x.host
      exact ⟨Nat.le_of_eq hopened.symm, fun p hp => .inl hp⟩
  | stop timeoutMillis meanwhile =>
      obtain ⟨-, htraffic, hsession, -⟩ := Device.hangUp_facts timeoutMillis
        (x.telemetry.stopWhile timeoutMillis meanwhile).1
        { x.device with scheduler := (x.telemetry.stopWhile timeoutMillis meanwhile).2.scheduler }
        (x.telemetry.stopWhile timeoutMillis meanwhile).2.host
      have hopened := System.opened_stopWhile timeoutMillis meanwhile x.telemetry
      refine ⟨Nat.le_of_eq (hopened.symm.trans htraffic.opened.symm), fun p hp => ?_⟩
      exact .inl (hsession p hp)
  | ambient a =>
      have hoff := System.happen_offstage a x.telemetry
      exact ⟨Nat.le_of_eq hoff.opened.symm, fun p hp => .inl hp⟩

/-- What becomes of a device that has given up its session: workers are started with later ones. -/
structure Renewed (y z : DeviceSystem) : Prop where
  crew : Crew.Steps (fun p => y.host.sessions.opened ≤ p) y.crew z.crew
  opened : y.host.sessions.opened ≤ z.host.sessions.opened
  session : ∀ p, z.device.session = some p → y.host.sessions.opened ≤ p

theorem renewed_of_run {y : DeviceSystem} (hnone : y.device.session = none)
    (later : List Device.Move) : Renewed y (y.run later) := by
  refine run_induction ⟨.refl, Nat.le_refl _, fun p hp => ?_⟩ fun m _ z hz => ?_
  · rw [hnone] at hp
    cases hp
  · obtain ⟨hle, hnew⟩ := step_session m z
    have hsteps : Crew.Steps (fun p => y.host.sessions.opened ≤ p) z.crew (z.step m).crew :=
      (step_crew m z).mono hz.session
    refine ⟨hz.crew.trans hsteps, Nat.le_trans hz.opened hle, fun p hp => ?_⟩
    rcases hnew p hp with hold | ⟨hlater, -⟩
    · exact hz.session p hold
    · exact Nat.le_trans hz.opened hlater

theorem run_crew (moves : List Device.Move) (x : DeviceSystem) :
    Crew.Steps (fun _ => True) x.crew (x.run moves).crew := by
  refine run_induction (p := fun y => Crew.Steps (fun _ => True) x.crew y.crew) .refl
    fun m _ y hy => hy.trans ?_
  exact (step_crew m y).mono fun _ _ => trivial

/-- The session that a device holds has been opened before. -/
theorem session_lt_of_run {x : DeviceSystem} (hnone : x.device.session = none)
    (moves : List Device.Move) (p : Nat) (hp : (x.run moves).device.session = some p) :
    p < (x.run moves).host.sessions.opened := by
  refine run_induction (x := x) (p := fun y => ∀ p, y.device.session = some p →
    p < y.host.sessions.opened) (fun p hp => ?_) (fun m _ y hy p hp => ?_) p hp
  · rw [hnone] at hp
    cases hp
  · obtain ⟨hle, hnew⟩ := step_session m y
    rcases hnew p hp with hold | ⟨-, hlt⟩
    · exact Nat.lt_of_lt_of_le (hy p hold) hle
    · exact hlt

/-- A stop that returns without a failure has stopped telemetry and given up the session. -/
theorem hung_up_of_ok {timeoutMillis : Nat} {meanwhile : List Ambient} {x : DeviceSystem}
    (hok : (x.stop timeoutMillis meanwhile).1 = .ok ()) :
    (x.stop timeoutMillis meanwhile).2.crew.tracked = none ∧
      (x.stop timeoutMillis meanwhile).2.device.session = none ∧
      (x.stop timeoutMillis meanwhile).2.host.sessions.opened = x.host.sessions.opened := by
  obtain ⟨hscheduler, htraffic, -, hgiven⟩ := Device.hangUp_facts timeoutMillis
    (x.telemetry.stopWhile timeoutMillis meanwhile).1
    { x.device with scheduler := (x.telemetry.stopWhile timeoutMillis meanwhile).2.scheduler }
    (x.telemetry.stopWhile timeoutMillis meanwhile).2.host
  obtain ⟨hstopped, hnone⟩ := hgiven hok
  obtain ⟨htracked, -⟩ := System.stopped_of_ok hstopped
  refine ⟨?_, hnone, htraffic.opened.trans (System.opened_stopWhile timeoutMillis meanwhile _)⟩
  exact (congrArg Scheduler.tracked hscheduler).trans htracked

/-- After a device has hung up, only displaced workers can touch the session that it has given up. -/
theorem displaced_after_hanging_up {base : Nat} {x : DeviceSystem}
    (ha : Crew.Accounted base x.crew) {timeoutMillis : Nat} {meanwhile : List Ambient}
    (hok : (x.stop timeoutMillis meanwhile).1 = .ok ()) {session : Nat}
    (hopened : session < x.host.sessions.opened) {later : List Device.Move}
    {new : List Occurrence}
    (hlog : ((x.stop timeoutMillis meanwhile).2.run later).log =
      (x.stop timeoutMillis meanwhile).2.log ++ new) {i : Nat} {k : Kind} (hbase : base ≤ i)
    (htouch : .handed i session k ∈ new ∨ .returned i session k ∈ new) :
    .displaced i ∈ (x.stop timeoutMillis meanwhile).2.log ∧
      ((x.stop timeoutMillis meanwhile).2.host.phase i).isAlive = true := by
  obtain ⟨htracked, hnone, hsame⟩ := hung_up_of_ok hok
  have hy := ha.steps (stop_crew timeoutMillis meanwhile x : Crew.Steps (fun _ => True) _ _)
  generalize (x.stop timeoutMillis meanwhile).2 = y at hlog htracked hnone hsame hy ⊢
  obtain ⟨new', hsince⟩ := (renewed_of_run hnone later).crew.since
  have hnew : new' = new := List.append_cancel_left (hsince.log.symm.trans hlog)
  rw [hnew] at hsince
  obtain ⟨⟨w', hw', hpublisher⟩, halive⟩ := hsince.touched i session k htouch
  rcases Nat.lt_or_ge i y.crew.workers.length with hlt | hge
  · have hw := List.getElem?_eq_getElem hlt
    refine ⟨hy.displaced_of_alive htracked hbase hw (halive _ hw), ?_⟩
    unfold Host.phase
    rw [show y.host.tasks.workers[i]? = some _ from hw]
    exact halive _ hw
  · -- a worker that came later has a later session
    obtain ⟨-, hlater, -⟩ := hsince.started i _ (hsince.spawned i w' hge hw').2
    rw [hpublisher, hsame] at hlater
    omega

end DeviceSystem

/-- Of all workers that a scheduler has spawned, only displaced ones outlive a stop that returns
without a failure, so that none does exactly if every displaced worker has ended by then. Until the
next start no publisher is called, and the calls that come back are calls of displaced workers. Nor
does any other worker touch the session of a device that has been stopped. -/
theorem all_ended_iff_displaced_ended (h : Host) :
    (∀ baseline config s h₀, Scheduler.create baseline config h = (.ok s, h₀) →
      ∀ moves timeoutMillis meanwhile,
        let x := System.run moves ⟨s, h₀, []⟩
        let y := (x.stopWhile timeoutMillis meanwhile).2
        (x.stopWhile timeoutMillis meanwhile).1 = .ok () →
          ((∀ (i : Nat) (w : Worker), h₀.tasks.workers.length ≤ i → y.workers[i]? = some w →
              w.phase.isAlive = false) ↔
            ∀ i, .displaced i ∈ y.log → (y.host.phase i).isAlive = false) ∧
          (∀ (i : Nat) (w : Worker), h₀.tasks.workers.length ≤ i → y.workers[i]? = some w →
            w.phase.isAlive = true → .displaced i ∈ y.log) ∧
          ∀ later new, (y.run later).log = y.log ++ new → (∀ i p, .started i p ∉ new) →
            (∀ i p k, .handed i p k ∉ new) ∧
            ∀ i p k, h₀.tasks.workers.length ≤ i → .returned i p k ∈ new →
              .displaced i ∈ y.log ∧ y.host.phase i = .publishing k) ∧
    (∀ c d h₀, Device.create c h = (.ok d, h₀) →
      ∀ moves timeoutMillis meanwhile,
        let x := DeviceSystem.run moves ⟨d, h₀, []⟩
        let y := (x.stop timeoutMillis meanwhile).2
        (x.stop timeoutMillis meanwhile).1 = .ok () → ∀ session, x.device.session = some session →
          ∀ later new, (y.run later).log = y.log ++ new →
            ∀ i k, h₀.tasks.workers.length ≤ i →
              (.handed i session k ∈ new ∨ .returned i session k ∈ new) →
                .displaced i ∈ y.log ∧ (y.host.phase i).isAlive = true) := by
  constructor
  · intro baseline config s h₀ hcreate moves timeoutMillis meanwhile x y hok
    have hx := (System.accounted_of_fresh (Scheduler.fresh_of_create hcreate)).steps
      (System.run_crew moves ⟨s, h₀, []⟩)
    have hy := hx.steps
      (System.stopWhile_crew timeoutMillis meanwhile x : Crew.Steps (fun _ => True) _ _)
    obtain ⟨htracked, -⟩ := System.stopped_of_ok hok
    refine ⟨hy.all_ended_iff htracked, fun i w hbase hw halive => ?_, fun later new hlog hnone => ?_⟩
    · exact hy.displaced_of_alive htracked hbase hw halive
    · exact System.displaced_after_stop hx hok hlog hnone
  · intro c d h₀ hcreate moves timeoutMillis meanwhile x y hok session hsession later new hlog i k
      hbase htouch
    obtain ⟨hscheduler, hnone⟩ := Device.of_create hcreate
    have hx := (System.accounted_of_fresh (Scheduler.fresh_of_create hscheduler)).steps
      (DeviceSystem.run_crew moves ⟨d, h₀, []⟩)
    have hopened := DeviceSystem.session_lt_of_run (x := ⟨d, h₀, []⟩) hnone moves session hsession
    exact DeviceSystem.displaced_after_hanging_up hx hok hopened hlog hbase htouch

/-- A worker that publishes through a stop that times out, a start and a second stop is still there:
its publish comes back after the second stop has returned. In a device it comes back on a session
that has been disconnected. -/
theorem returned_after_stop :
    (∃ s h₀, Scheduler.create [⟨.systemStatus, 10⟩] {} {} = (.ok s, h₀) ∧
      let x := System.run [.call (.start 0), .ambient (.expire 0), .ambient (.take 0),
        .call (.stop 10), .call (.start 1)] ⟨s, h₀, []⟩
      let y := (x.stopWhile 10 []).2
      (x.stopWhile 10 []).1 = .ok () ∧ y.host.phase 0 = .publishing .systemStatus ∧
        (y.run [.ambient (.finish 0 Device.confinedPublisher)]).log =
          y.log ++ [.returned 0 0 .systemStatus]) ∧
    ∃ d h₀, Device.create { telemetry := [⟨.systemStatus, 10⟩] } {} = (.ok d, h₀) ∧
      let x := DeviceSystem.run [.start, .poll [.connected false] none, .ambient (.expire 0),
        .ambient (.take 0), .stop 10 [], .poll [] none] ⟨d, h₀, []⟩
      let y := (x.stop 10 []).2
      x.device.session = some 0 ∧ (x.stop 10 []).1 = .ok () ∧ y.device.session = none ∧
        (y.run [.ambient (.finish 0 Device.confinedPublisher)]).log =
          y.log ++ [.returned 0 0 .systemStatus] :=
  ⟨⟨_, _, rfl, rfl, rfl, rfl⟩, ⟨_, _, rfl, rfl, rfl, rfl, rfl⟩⟩

/-- The two parts at a run in which nobody is displaced. -/
theorem all_ended_after_one_stop :
    (∃ s h₀, Scheduler.create [⟨.systemStatus, 10⟩] {} {} = (.ok s, h₀) ∧
      let x := System.run [.call (.start 0), .ambient (.expire 0), .ambient (.take 0)] ⟨s, h₀, []⟩
      let y := (x.stopWhile 10 [.finish 0 Device.confinedPublisher]).2
      ∀ (i : Nat) (w : Worker), h₀.tasks.workers.length ≤ i → y.workers[i]? = some w →
        w.phase.isAlive = false) ∧
    ∃ d h₀, Device.create { telemetry := [⟨.systemStatus, 10⟩] } {} = (.ok d, h₀) ∧
      let x := DeviceSystem.run [.start, .poll [.connected false] none] ⟨d, h₀, []⟩
      let y := (x.stop 10 []).2
      ∀ later new, (y.run later).log = y.log ++ new → ∀ i k, h₀.tasks.workers.length ≤ i →
        ¬ (.handed i 0 k ∈ new ∨ .returned i 0 k ∈ new) := by
  constructor
  · refine ⟨_, _, rfl, ?_⟩
    refine ((all_ended_iff_displaced_ended {}).1 [⟨.systemStatus, 10⟩] {} _ _ rfl
      [.call (.start 0), .ambient (.expire 0), .ambient (.take 0)] 10
      [.finish 0 Device.confinedPublisher] rfl).1.mpr fun i hdisplaced => ?_
    have hlog : ∀ j, Occurrence.displaced j ∉ [.started 0 0, .accepted .systemStatus,
        .handed 0 0 .systemStatus, .returned 0 0 .systemStatus] := by simp
    exact (hlog i hdisplaced).elim
  · refine ⟨_, _, rfl, fun later new hlog i k hbase htouch => ?_⟩
    obtain ⟨hdisplaced, -⟩ := (all_ended_iff_displaced_ended {}).2
      { telemetry := [⟨.systemStatus, 10⟩] } _ _ rfl [.start, .poll [.connected false] none] 10 []
      rfl 0 rfl later new hlog i k hbase htouch
    have hnone : ∀ j, Occurrence.displaced j ∉ [Occurrence.started 0 0] := by simp
    exact hnone i hdisplaced

end TelemetryAgent
