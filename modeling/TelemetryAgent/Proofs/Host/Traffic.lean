import TelemetryAgent.Publish
import TelemetryAgent.Proofs.Host.Frame

/-!
# What traffic leaves alone

Calls on sessions, on the platform and on services, and everything that is published by them, reach
neither settings, timers nor tasks. Only opening a session changes how many there have been.
-/
namespace TelemetryAgent.Host

/-- Nothing that a scheduler or its workers have to do with tells the two hosts apart. -/
structure TrafficOnly (h h' : Host) : Prop where
  settings : h'.settings = h.settings
  timers : h'.timers = h.timers
  tasks : h'.tasks = h.tasks
  schedulers : h'.schedulers = h.schedulers
  opened : h'.sessions.opened = h.sessions.opened

theorem TrafficOnly.refl (h : Host) : TrafficOnly h h := ⟨rfl, rfl, rfl, rfl, rfl⟩

theorem TrafficOnly.trans {a b c : Host} (hab : TrafficOnly a b) (hbc : TrafficOnly b c) :
    TrafficOnly a c where
  settings := hbc.settings.trans hab.settings
  timers := hbc.timers.trans hab.timers
  tasks := hbc.tasks.trans hab.tasks
  schedulers := hbc.schedulers.trans hab.schedulers
  opened := hbc.opened.trans hab.opened

theorem record_traffic (c : Call) (h : Host) : TrafficOnly h (h.record c) := ⟨rfl, rfl, rfl, rfl, rfl⟩

theorem note_traffic (n : Notice) (h : Host) : TrafficOnly h (h.note n) := ⟨rfl, rfl, rfl, rfl, rfl⟩

theorem noteFailure_traffic (r : Outcome) (n : Fault → Notice) (h : Host) :
    TrafficOnly h (h.noteFailure r n) := by
  cases r with
  | ok => exact .refl h
  | error f => exact note_traffic _ h

/-! ## Sessions -/

theorem countSessionCall_traffic (h : Host) : TrafficOnly h h.countSessionCall :=
  ⟨rfl, rfl, rfl, rfl, rfl⟩

theorem journalStep_traffic (session : Nat) (context : Context)
    (step : Journal → Journal × List Notice) (h : Host) :
    TrafficOnly h (h.journalStep session context step) := by
  unfold journalStep
  split
  · exact .refl h
  · split
    · exact .refl h
    · dsimp only
      split <;> exact ⟨rfl, rfl, rfl, rfl, rfl⟩

/-- A call on a session that is recorded and counted first. -/
theorem recorded_traffic (c : Call) (h : Host) : TrafficOnly h (h.record c).countSessionCall :=
  (record_traffic c h).trans (countSessionCall_traffic _)

/-- A call that the journal of the session then sees. -/
theorem journaled_traffic (c : Call) (session : Nat) (context : Context)
    (step : Journal → Journal × List Notice) (h : Host) :
    TrafficOnly h ((h.record c).countSessionCall.journalStep session context step) :=
  (recorded_traffic c h).trans (journalStep_traffic session context step _)

theorem openSession_opened (h : Host) :
    h.sessions.opened ≤ h.openSession.2.sessions.opened ∧
      ∀ session, h.openSession.1 = .ok session →
        session = h.sessions.opened ∧ session < h.openSession.2.sessions.opened := by
  unfold openSession
  dsimp only
  split
  · exact ⟨Nat.le_refl _, fun session hok => by cases hok⟩
  · refine ⟨Nat.le_succ _, fun session hok => ?_⟩
    cases hok
    exact ⟨rfl, Nat.lt_succ_self _⟩

theorem openSession_rest (h : Host) :
    h.openSession.2.settings = h.settings ∧ h.openSession.2.timers = h.timers ∧
      h.openSession.2.tasks = h.tasks ∧ h.openSession.2.schedulers = h.schedulers := by
  unfold openSession
  dsimp only
  split <;> exact ⟨rfl, rfl, rfl, rfl⟩

theorem connectSession_traffic (session : Nat) (h : Host) :
    TrafficOnly h (h.connectSession session).2 := by
  unfold connectSession
  dsimp only
  split
  · exact recorded_traffic _ h
  · dsimp only
    exact journaled_traffic _ _ _ _ h

theorem disconnectSession_traffic (session timeoutMillis : Nat) (h : Host) :
    TrafficOnly h (h.disconnectSession session timeoutMillis).2 := by
  unfold disconnectSession
  dsimp only
  split
  · exact recorded_traffic _ h
  · dsimp only
    exact journaled_traffic _ _ _ _ h

theorem pollSession_traffic (session : Nat) (arrived : List Event) (h : Host) :
    TrafficOnly h (h.pollSession session arrived).2 := by
  unfold pollSession
  dsimp only
  split
  · exact record_traffic _ h
  · dsimp only
    exact (record_traffic _ h).trans (journalStep_traffic _ _ _ _)

theorem setProperty_traffic (session : Nat) (context : Context) (target : Endpoint) (value : Value)
    (h : Host) : TrafficOnly h (h.setProperty session context target value).2 := by
  unfold setProperty
  dsimp only
  split
  · exact recorded_traffic _ h
  · dsimp only
    exact journaled_traffic _ _ _ _ h

theorem streamObject_traffic (session : Nat) (context : Context) (target : Endpoint)
    (fields : Fields) (h : Host) :
    TrafficOnly h (h.streamObject session context target fields).2 := by
  unfold streamObject
  dsimp only
  split
  · exact recorded_traffic _ h
  · dsimp only
    exact journaled_traffic _ _ _ _ h

/-! ## Publishing -/

theorem transmit_traffic (session : Nat) (context : Context) (t : Transmission) (h : Host) :
    TrafficOnly h (h.transmit session context t).2 := by
  cases t with
  | property target value => exact setProperty_traffic session context target value h
  | object target fields => exact streamObject_traffic session context target fields h
  | scan => exact (record_traffic (.wifiScan context) h).trans ⟨rfl, rfl, rfl, rfl, rfl⟩

theorem transmitAll_traffic (session : Nat) (context : Context) (ts : List Transmission)
    (h : Host) : TrafficOnly h (h.transmitAll session context ts).2 := by
  induction ts generalizing h with
  | nil => exact .refl h
  | cons t rest ih =>
      have hfirst := transmit_traffic session context t h
      unfold transmitAll
      split
      · rename_i f h₁ heq
        rwa [heq] at hfirst
      · rename_i h₁ heq
        rw [heq] at hfirst
        exact hfirst.trans (ih h₁)

theorem publish_traffic (session : Nat) (context : Context) (k : Kind) (h : Host) :
    TrafficOnly h (h.publish session context k).2 := by
  unfold publish
  split
  · exact .refl h
  · exact transmitAll_traffic _ _ _ h

theorem burstStep_traffic (session : Nat) (step : BurstStep) (h : Host) :
    TrafficOnly h (h.burstStep session step).2 := by
  cases step with
  | telemetry k => exact publish_traffic _ _ k h
  | osInfo | systemInfo | baseImage | runtimeInfo => exact transmitAll_traffic _ _ _ h

theorem burst_traffic (session : Nat) (h : Host) : TrafficOnly h (h.burst session) := by
  unfold burst
  generalize BurstStep.order = steps
  induction steps generalizing h with
  | nil => exact .refl h
  | cons step rest ih =>
      exact ((burstStep_traffic session step h).trans (noteFailure_traffic _ _ _)).trans (ih _)

theorem publishBattery_traffic (session : Nat) (b : BatteryStatus) (h : Host) :
    TrafficOnly h (h.publishBattery session b).2 := by
  unfold publishBattery
  split
  · exact note_traffic _ h
  · exact transmit_traffic _ _ _ h

/-! ## The caller's side -/

theorem callBack_traffic (e : Event) (h : Host) : TrafficOnly h (h.callBack e) := by
  unfold callBack
  split
  · exact record_traffic _ h
  · exact .refl h

theorem serve_traffic (c : Call) (h : Host) : TrafficOnly h (h.serve c).2 := by
  unfold serve
  split
  · exact (record_traffic c h).trans ⟨rfl, rfl, rfl, rfl, rfl⟩
  · exact .refl h

end TelemetryAgent.Host
