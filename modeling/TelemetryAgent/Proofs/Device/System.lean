import TelemetryAgent.Device
import TelemetryAgent.Proofs.Schedule.Crew

/-!
# A device at work

A device with its host, driven by its caller, its timers and its workers. The caller starts, polls,
publishes readings and stops; timers and workers act between any two calls and while a stop waits.
To the workers of its scheduler a device is one that starts it with the session that it holds.
-/
namespace TelemetryAgent

inductive Device.Move where
  | start
  | poll (arrived : List Event) (failure : Option SessionFault)
  | battery (b : BatteryStatus)
  /-- A stop, with what happens while it waits for telemetry. -/
  | stop (timeoutMillis : Nat) (meanwhile : List Ambient)
  | ambient (a : Ambient)

structure DeviceSystem where
  device : Device
  host : Host
  log : List Occurrence := []

namespace Device

theorem publisher_traffic (session : Nat) (k : Kind) (h : Host) :
    Host.TrafficOnly h (publisher session k h).2 := Host.publish_traffic session .worker k h

/-- The publisher of a device does nothing but publish. -/
def confinedPublisher : Publisher.Confined where
  publish := publisher
  settings := fun p k h => (publisher_traffic p k h).settings
  timers := fun p k h => (publisher_traffic p k h).timers
  tasks := fun p k h => (publisher_traffic p k h).tasks
  schedulers := fun p k h => (publisher_traffic p k h).schedulers
  opened := fun p k h => (publisher_traffic p k h).opened

end Device

namespace DeviceSystem

def telemetry (x : DeviceSystem) : System := ⟨x.device.scheduler, x.host, x.log⟩

def resume (y : System) (x : DeviceSystem) : DeviceSystem :=
  ⟨{ x.device with scheduler := y.scheduler }, y.host, y.log⟩

def after (x : DeviceSystem) (d : Device) (h : Host) : DeviceSystem :=
  ⟨d, h, x.log ++ System.changeover x.device.scheduler x.host d.scheduler h⟩

/-- How a stop ends, with what has happened while it waited. -/
def stop (timeoutMillis : Nat) (meanwhile : List Ambient) (x : DeviceSystem) :
    Outcome × DeviceSystem :=
  let (stopped, y) := x.telemetry.stopWhile timeoutMillis meanwhile
  let (r, d, h) := { x.device with scheduler := y.scheduler }.hangUp timeoutMillis stopped y.host
  (r, ⟨d, h, y.log⟩)

def step (m : Device.Move) (x : DeviceSystem) : DeviceSystem :=
  match m with
  | .start =>
    let (_, d, h) := x.device.start x.host
    x.after d h
  | .poll arrived failure =>
    let (_, d, h) := x.device.poll arrived failure x.host
    x.after d h
  | .battery b => { x with host := (x.device.publishBattery b x.host).2 }
  | .stop timeoutMillis meanwhile => (x.stop timeoutMillis meanwhile).2
  | .ambient a => x.resume (x.telemetry.happen a)

def run (moves : List Device.Move) (x : DeviceSystem) : DeviceSystem :=
  moves.foldl (fun x m => x.step m) x

/-- What every step keeps holds after every run. -/
theorem run_induction {p : DeviceSystem → Prop} {moves : List Device.Move} {x : DeviceSystem}
    (hx : p x) (hstep : ∀ m ∈ moves, ∀ y, p y → p (y.step m)) : p (x.run moves) := by
  induction moves generalizing x with
  | nil => exact hx
  | cons m rest ih =>
      exact ih (hstep m List.mem_cons_self x hx) fun n hn => hstep n (List.mem_cons_of_mem m hn)

/-- A stop during which nothing happens is a stop. -/
theorem stop_nil (timeoutMillis : Nat) (x : DeviceSystem) :
    (x.stop timeoutMillis []).1 = (x.device.stop timeoutMillis x.host).1 ∧
      (x.stop timeoutMillis []).2.device = (x.device.stop timeoutMillis x.host).2.1 ∧
      (x.stop timeoutMillis []).2.host = (x.device.stop timeoutMillis x.host).2.2 :=
  ⟨rfl, rfl, rfl⟩

end DeviceSystem

/-! ## Calls -/

namespace Device

open Scheduler

/-- Work on entries, traffic, and a change of state that keeps the session. -/
structure Service (d : Device) (h : Host) (d' : Device) (h' : Host) : Prop where
  work : EntryWork d.scheduler h d'.scheduler h'
  session : d'.session = d.session

theorem Service.trans {d d₁ d₂ : Device} {h h₁ h₂ : Host} (hs₁ : Service d h d₁ h₁)
    (hs₂ : Service d₁ h₁ d₂ h₂) : Service d h d₂ h₂ :=
  ⟨hs₁.work.trans hs₂.work, hs₂.session.trans hs₁.session⟩

theorem Service.ofTraffic (d : Device) {h h' : Host} (ht : Host.TrafficOnly h h') :
    Service d h d h' := ⟨.ofTraffic _ ht, rfl⟩

theorem serve_service (e : Event) (d : Device) (h : Host) :
    Service d h (d.serve e h).2.1 (d.serve e h).2.2 := by
  unfold serve
  split
  · exact .ofTraffic d (.refl h)
  · exact .ofTraffic d (.refl h)
  · split
    · split
      · exact .ofTraffic d (.refl h)
      · exact .ofTraffic d (Host.serve_traffic _ h)
    · split
      · exact .ofTraffic d (.refl h)
      · exact .ofTraffic d (Host.serve_traffic _ h)
  · exact .ofTraffic d (Host.serve_traffic _ h)
  · exact ⟨set_work _ _ _ _, rfl⟩
  · exact ⟨unset_work _ _ _, rfl⟩

theorem receive_service (e : Event) (d : Device) (h : Host) :
    Service d h (d.receive e h).1 (d.receive e h).2 := by
  unfold receive
  split
  · exact (serve_service e d h).trans (.ofTraffic _ (Host.noteFailure_traffic _ _ _))
  · exact ⟨.ofTraffic _ (Host.callBack_traffic e h), rfl⟩

theorem receiveAll_service (events : List Event) (d : Device) (h : Host) :
    Service d h (d.receiveAll events h).1 (d.receiveAll events h).2 := by
  induction events generalizing d h with
  | nil => exact .ofTraffic d (.refl h)
  | cons e rest ih => exact (receive_service e d h).trans (ih _ _)

/-- What a poll comes to: service, and a start of the scheduler if it is wanted. -/
inductive Polled (d : Device) (h : Host) : Device → Host → Prop
  | served {d' : Device} {h' : Host} : Service d h d' h' → Polled d h d' h'
  | started (d₁ : Device) (h₁ : Host) {session : Nat} : d.session = some session →
      Service d h d₁ h₁ →
      Polled d h { d₁ with scheduler := (d₁.scheduler.start session h₁).2.1 }
        (d₁.scheduler.start session h₁).2.2

theorem Polled.head {d d₁ d' : Device} {h h₁ h' : Host} (hs : Service d h d₁ h₁)
    (hp : Polled d₁ h₁ d' h') : Polled d h d' h' := by
  cases hp with
  | served hserved => exact .served (hs.trans hserved)
  | started d₂ h₂ hsession hserved => exact .started d₂ h₂ (hs.session ▸ hsession) (hs.trans hserved)

theorem serviceConnection_cases {session : Nat} {d : Device} (hsession : d.session = some session)
    (h : Host) :
    Polled d h (d.serviceConnection session h).2.1 (d.serviceConnection session h).2.2 := by
  have hburst : Service d h { d with burstDone := true } (h.burst session) :=
    ⟨.ofTraffic _ (Host.burst_traffic session h), rfl⟩
  unfold serviceConnection
  generalize h.burst session = h₁ at hburst ⊢
  cases d.burstDone with
  | true =>
      simp only [if_true]
      split
      · exact .served (.ofTraffic d (.refl h))
      · exact .started d h hsession (.ofTraffic d (.refl h))
  | false =>
      simp only [Bool.false_eq_true, if_false]
      split
      · exact .served hburst
      · exact .started { d with burstDone := true } h₁ hsession hburst

theorem poll_cases (arrived : List Event) (failure : Option SessionFault) (d : Device) (h : Host) :
    Polled d h (d.poll arrived failure h).2.1 (d.poll arrived failure h).2.2 := by
  unfold poll
  split
  · exact .served (.ofTraffic d (.refl h))
  · split
    · exact .served (.ofTraffic d (.refl h))
    · rename_i session hsession
      have hpolled := Service.ofTraffic d (Host.pollSession_traffic session arrived h)
      generalize h.pollSession session arrived = p at hpolled ⊢
      have hreceived := hpolled.trans (receiveAll_service p.1 d p.2)
      dsimp only
      generalize d.receiveAll p.1 p.2 = q at hreceived ⊢
      split
      · exact .served hreceived
      · split
        · exact (serviceConnection_cases (hreceived.session.trans hsession) q.2).head hreceived
        · exact .served hreceived

/-- A device that has just been made has a scheduler that has just been made, and no session. -/
theorem of_create {c : Config} {h h₀ : Host} {d : Device} (hcreate : create c h = (.ok d, h₀)) :
    Scheduler.create c.telemetry c.worker h = (.ok d.scheduler, h₀) ∧ d.session = none := by
  unfold create at hcreate
  split at hcreate
  · cases hcreate
  · split at hcreate
    · cases hcreate
    · rename_i scheduler h₁ heq
      cases hcreate
      exact ⟨heq, rfl⟩

/-- Starting a device is about its session only. -/
theorem start_rest (d : Device) (h : Host) :
    (d.start h).2.2.settings = h.settings ∧ (d.start h).2.2.timers = h.timers ∧
      (d.start h).2.2.tasks = h.tasks ∧ (d.start h).2.2.schedulers = h.schedulers := by
  have hrest := Host.openSession_rest h
  unfold start
  split
  · exact ⟨rfl, rfl, rfl, rfl⟩
  · split
    · rename_i f h₁ heq
      rw [heq] at hrest
      exact hrest
    · rename_i session h₁ heq
      rw [heq] at hrest
      obtain ⟨hsettings, htimers, htasks, hschedulers⟩ := hrest
      have hconnect := Host.connectSession_traffic session h₁
      split
      all_goals
        rename_i heq₂
        rw [heq₂] at hconnect
        exact ⟨hconnect.settings.trans hsettings, hconnect.timers.trans htimers,
          hconnect.tasks.trans htasks, hconnect.schedulers.trans hschedulers⟩

/-- Starting a device leaves its scheduler alone; a session that it opens is a new one. -/
theorem start_facts (d : Device) (h : Host) :
    (d.start h).2.1.scheduler = d.scheduler ∧ (d.start h).2.2.tasks = h.tasks ∧
      h.sessions.opened ≤ (d.start h).2.2.sessions.opened ∧
      ∀ p, (d.start h).2.1.session = some p →
        d.session = some p ∨ h.sessions.opened ≤ p ∧ p < (d.start h).2.2.sessions.opened := by
  have hopened := Host.openSession_opened h
  suffices hrest : (d.start h).2.1.scheduler = d.scheduler ∧
      h.sessions.opened ≤ (d.start h).2.2.sessions.opened ∧
      ∀ p, (d.start h).2.1.session = some p →
        d.session = some p ∨ h.sessions.opened ≤ p ∧ p < (d.start h).2.2.sessions.opened from
    ⟨hrest.1, (start_rest d h).2.2.1, hrest.2⟩
  unfold start
  split
  · exact ⟨rfl, Nat.le_refl _, fun p hp => .inl hp⟩
  · split
    · rename_i f h₁ heq
      rw [heq] at hopened
      exact ⟨rfl, hopened.1, fun p hp => .inl hp⟩
    · rename_i session h₁ heq
      rw [heq] at hopened
      have hconnect := Host.connectSession_traffic session h₁
      split
      · rename_i f h₂ heq₂
        rw [heq₂] at hconnect
        have hle := hopened.1
        rw [← hconnect.opened] at hle
        exact ⟨rfl, hle, fun p hp => .inl hp⟩
      · rename_i h₂ heq₂
        rw [heq₂] at hconnect
        have hle := hopened.1
        obtain ⟨hnew, hlt⟩ := hopened.2 session rfl
        rw [← hconnect.opened] at hle hlt
        refine ⟨rfl, hle, fun p hp => .inr ?_⟩
        cases hp
        exact ⟨Nat.le_of_eq hnew.symm, hlt⟩

/-- Hanging up does nothing to the scheduler; without a failure no session is left. -/
theorem hangUp_facts (timeoutMillis : Nat) (stopped : Outcome) (d : Device) (h : Host) :
    (d.hangUp timeoutMillis stopped h).2.1.scheduler = d.scheduler ∧
      Host.TrafficOnly h (d.hangUp timeoutMillis stopped h).2.2 ∧
      (∀ p, (d.hangUp timeoutMillis stopped h).2.1.session = some p → d.session = some p) ∧
      ((d.hangUp timeoutMillis stopped h).1 = .ok () →
        stopped = .ok () ∧ (d.hangUp timeoutMillis stopped h).2.1.session = none) := by
  unfold hangUp
  split
  · exact ⟨rfl, .refl h, fun p hp => hp, fun hok => by cases hok⟩
  · split
    · rename_i hnone
      exact ⟨rfl, .refl h, fun p hp => hp, fun _ => ⟨rfl, hnone⟩⟩
    · rename_i session _
      have htraffic := Host.disconnectSession_traffic session timeoutMillis h
      dsimp only
      split
      · rename_i f h₁ heq
        rw [heq] at htraffic
        refine ⟨rfl, htraffic.trans (Host.note_traffic _ h₁), fun p hp => ?_, fun hok => ?_⟩
        · cases hp
        · cases hok
      · rename_i h₁ heq
        rw [heq] at htraffic
        refine ⟨rfl, htraffic, fun p hp => ?_, fun _ => ⟨rfl, rfl⟩⟩
        cases hp

end Device

/-! ## Runs -/

namespace DeviceSystem

open Scheduler

def crew (x : DeviceSystem) : Crew := x.telemetry.crew

theorem crew_of_work {x : DeviceSystem} {d : Device} {h : Host}
    (hw : EntryWork x.device.scheduler x.host d.scheduler h) : (x.after d h).crew = x.crew :=
  System.crew_of_work (x := x.telemetry) hw

theorem changeover_congr {s s₁ s' : Scheduler} {h h₁ h' : Host} (hw : EntryWork s h s₁ h₁) :
    System.changeover s h s' h' = System.changeover s₁ h₁ s' h' := by
  have hdisplacement : System.displacement s₁.tracked h₁ = System.displacement s.tracked h := by
    unfold System.displacement Host.phase
    rw [hw.tracked, hw.tasks]
  unfold System.changeover
  rw [hw.epoch, hdisplacement]

theorem stop_crew {given : Nat → Prop} (timeoutMillis : Nat) (meanwhile : List Ambient)
    (x : DeviceSystem) : Crew.Steps given x.crew (x.stop timeoutMillis meanwhile).2.crew := by
  obtain ⟨hscheduler, htraffic, -⟩ := Device.hangUp_facts timeoutMillis
    (x.telemetry.stopWhile timeoutMillis meanwhile).1
    { x.device with scheduler := (x.telemetry.stopWhile timeoutMillis meanwhile).2.scheduler }
    (x.telemetry.stopWhile timeoutMillis meanwhile).2.host
  have hcrew : (x.stop timeoutMillis meanwhile).2.crew =
      (x.telemetry.stopWhile timeoutMillis meanwhile).2.crew := by
    simp only [crew, telemetry, System.crew, Crew.of, stop] at hscheduler htraffic ⊢
    rw [hscheduler, htraffic.tasks]
  rw [hcrew]
  exact System.stopWhile_crew timeoutMillis meanwhile x.telemetry

/-- To its workers, a device that does something is a scheduler that may be started with the session
of the device. -/
theorem step_crew (m : Device.Move) (x : DeviceSystem) :
    Crew.Steps (fun p => x.device.session = some p) x.crew (x.step m).crew := by
  cases m with
  | start =>
      obtain ⟨hscheduler, htasks, -⟩ := Device.start_facts x.device x.host
      have hcrew : (x.step .start).crew = x.crew := by
        have hepoch := congrArg Scheduler.epoch hscheduler
        change (System.after x.telemetry (x.device.start x.host).2.1.scheduler
          (x.device.start x.host).2.2).crew = x.crew
        rw [System.after_crew hepoch, hscheduler]
        simp only [crew, telemetry, System.crew, Crew.of, htasks]
      rw [hcrew]
  | poll arrived failure =>
      have hcases := Device.poll_cases arrived failure x.device x.host
      change Crew.Steps _ x.crew (x.after (x.device.poll arrived failure x.host).2.1
        (x.device.poll arrived failure x.host).2.2).crew
      generalize (x.device.poll arrived failure x.host).2.1 = d',
        (x.device.poll arrived failure x.host).2.2 = h' at hcases ⊢
      cases hcases with
      | served hserved => rw [crew_of_work hserved.work]
      | started d₁ h₁ hsession hserved =>
          have hsteps : Crew.Steps (fun p => x.device.session = some p) _ _ :=
            start_crew hsession d₁.scheduler h₁ x.log
          rw [← changeover_congr hserved.work, hserved.work.crew] at hsteps
          exact hsteps
  | battery b =>
      have htraffic : Host.TrafficOnly x.host (x.device.publishBattery b x.host).2 := by
        unfold Device.publishBattery
        split
        · exact .refl _
        · split
          · exact .refl _
          · exact Host.publishBattery_traffic _ b x.host
      have hcrew : (x.step (.battery b)).crew = x.crew := by
        simp only [step, crew, telemetry, System.crew, Crew.of, htraffic.tasks]
      rw [hcrew]
  | stop timeoutMillis meanwhile => exact stop_crew timeoutMillis meanwhile x
  | ambient a => exact System.happen_crew a x.telemetry

end DeviceSystem
end TelemetryAgent
