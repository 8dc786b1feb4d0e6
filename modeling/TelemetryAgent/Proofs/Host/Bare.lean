import TelemetryAgent.Proofs.Host.Frame
import TelemetryAgent.Proofs.Host.View
import TelemetryAgent.Publish

/-!
# The host without its caller

Callbacks and services are the caller's part of the host. Without that part neither is asked, and
what they were asked before, and which requests have failed, is forgotten. No operation of the
agent on settings, timers, tasks, sessions or the platform depends on it: it comes to the same on
the bare host.
-/
namespace TelemetryAgent

/-- A call on callbacks or services. -/
def Call.isCallers : Call → Bool
  | callback _ => true
  | command _ => true
  | led _ => true
  | ota _ _ => true
  | _ => false

/-- A request has failed, perhaps for want of a service. -/
def Notice.isRequestFailure : Notice → Bool
  | requestFailed _ _ _ => true
  | _ => false

namespace Host

/-- The host without the part of its caller. -/
def bare (h : Host) : Host :=
  { h with
    services := {}
    callbacks := false
    calls := h.calls.filter (!·.isCallers)
    notices := h.notices.filter (!·.isRequestFailure) }

@[simp] theorem bare_settings (h : Host) : h.bare.settings = h.settings := rfl

@[simp] theorem bare_timers (h : Host) : h.bare.timers = h.timers := rfl

@[simp] theorem bare_tasks (h : Host) : h.bare.tasks = h.tasks := rfl

@[simp] theorem bare_sessions (h : Host) : h.bare.sessions = h.sessions := rfl

@[simp] theorem bare_platform (h : Host) : h.bare.platform = h.platform := rfl

theorem record_bare {c : Call} (hc : c.isCallers = false) (h : Host) :
    h.bare.record c = (h.record c).bare := by
  simp [record, bare, hc]

theorem note_bare {n : Notice} (hn : n.isRequestFailure = false) (h : Host) :
    h.bare.note n = (h.note n).bare := by
  simp [note, bare, hn]

abbrev bareView : View where
  see := bare
  timers _ := rfl
  tasks _ := rfl
  schedulers _ := rfl
  setTimers _ _ := rfl
  setTasks _ _ := rfl
  setSchedulers _ _ := rfl
  record {c} hc h := record_bare (by cases c <;> first | rfl | cases hc) h
  note {n} hn h := note_bare (by cases n <;> first | rfl | cases hn) h

/-! ## Settings -/

theorem save_bare (subtree key : String) (value : Bytes) (h : Host) :
    h.bare.save subtree key value = Prod.map id bare (h.save subtree key value) := by
  unfold save
  rw [record_bare rfl]
  generalize h.record (.save subtree key value) = h₁
  dsimp only [bare_settings]
  cases h₁.settings.saveFault h₁.settings.saves <;> rfl

theorem saveSettings_bare (k : Kind) (settings : List Setting) (h : Host) :
    h.bare.saveSettings k settings = Prod.map id bare (h.saveSettings k settings) := by
  induction settings generalizing h with
  | nil => rfl
  | cons s rest ih =>
      unfold saveSettings
      rw [save_bare]
      rcases h.save Setting.subtree (s.key k) s.encode with ⟨_ | f, h₁⟩
      · exact ih h₁
      · rfl

theorem persist_bare (e : Entry) (h : Host) : h.bare.persist e = (h.persist e).bare := by
  unfold persist
  rw [saveSettings_bare]
  rcases h.saveSettings e.kind e.settings with ⟨_ | f, h₁⟩
  · rfl
  · exact note_bare rfl h₁

/-! ## Sessions -/

theorem recorded_bare {c : Call} (hc : c.isCallers = false) (h : Host) :
    (h.bare.record c).countSessionCall = (h.record c).countSessionCall.bare := by
  rw [record_bare hc]
  rfl

/-- What a journal says of its session is not about requests. -/
theorem journalStep_bare (session : Nat) (context : Context)
    {step : Journal → Journal × List Notice}
    (hsaid : ∀ j, (step j).2.filter (!·.isRequestFailure) = (step j).2) (h : Host) :
    h.bare.journalStep session context step = (h.journalStep session context step).bare := by
  unfold journalStep
  rw [bare_sessions]
  cases h.sessions.journals with
  | none => rfl
  | some journals =>
      dsimp only
      cases journals[session]? with
      | none => rfl
      | some j =>
          cases context with
          | worker => rfl
          | main =>
              dsimp only [bare]
              rw [List.filter_append, hsaid]

theorem openSession_bare (h : Host) : h.bare.openSession = Prod.map id bare h.openSession := by
  unfold openSession
  dsimp only
  rw [bare_sessions, recorded_bare rfl]
  cases h.sessions.openFault h.sessions.calls <;> rfl

theorem connectSession_bare (session : Nat) (h : Host) :
    h.bare.connectSession session = Prod.map id bare (h.connectSession session) := by
  unfold connectSession
  rw [bare_sessions, recorded_bare rfl]
  cases h.sessions.connectFault h.sessions.calls with
  | some f => rfl
  | none =>
      exact congrArg (Prod.mk _) (journalStep_bare session .main (fun _ => rfl) _)

theorem disconnectSession_bare (session timeoutMillis : Nat) (h : Host) :
    h.bare.disconnectSession session timeoutMillis =
      Prod.map id bare (h.disconnectSession session timeoutMillis) := by
  unfold disconnectSession
  rw [bare_sessions, recorded_bare rfl]
  cases h.sessions.disconnectFault h.sessions.calls with
  | some f => rfl
  | none =>
      exact congrArg (Prod.mk _) (journalStep_bare session .main (fun _ => rfl) _)

theorem pollSession_bare (session : Nat) (arrived : List Event) (h : Host) :
    h.bare.pollSession session arrived = Prod.map id bare (h.pollSession session arrived) := by
  unfold pollSession
  rw [record_bare rfl]
  generalize h.record (.sessionPoll session) = h₁
  dsimp only [bare_sessions]
  cases h₁.sessions.journals.bind (·[session]?) with
  | none => rfl
  | some j =>
      exact congrArg (Prod.mk _) (journalStep_bare session .main (fun _ => rfl) h₁)

theorem setProperty_bare (session : Nat) (context : Context) (target : Endpoint) (value : Value)
    (h : Host) : h.bare.setProperty session context target value =
      Prod.map id bare (h.setProperty session context target value) := by
  unfold setProperty
  rw [bare_sessions, recorded_bare rfl]
  cases h.sessions.publishFault h.sessions.calls target.path with
  | some f => rfl
  | none =>
      exact congrArg (Prod.mk _) (journalStep_bare session context (fun _ => rfl) _)

theorem streamObject_bare (session : Nat) (context : Context) (target : Endpoint) (fields : Fields)
    (h : Host) : h.bare.streamObject session context target fields =
      Prod.map id bare (h.streamObject session context target fields) := by
  unfold streamObject
  rw [bare_sessions, recorded_bare rfl]
  cases h.sessions.publishFault h.sessions.calls target.path with
  | some f => rfl
  | none =>
      exact congrArg (Prod.mk _) (journalStep_bare session context (fun _ => rfl) _)

/-! ## Publishing -/

theorem transmit_bare (session : Nat) (context : Context) (t : Transmission) (h : Host) :
    h.bare.transmit session context t = Prod.map id bare (h.transmit session context t) := by
  unfold transmit
  cases t with
  | property target value =>
      dsimp only
      rw [setProperty_bare]
      rfl
  | object target fields =>
      dsimp only
      rw [streamObject_bare]
      rfl
  | scan =>
      dsimp only [startScan]
      rw [record_bare rfl]
      rfl

theorem transmitAll_bare (session : Nat) (context : Context) (ts : List Transmission) (h : Host) :
    h.bare.transmitAll session context ts = Prod.map id bare (h.transmitAll session context ts) := by
  induction ts generalizing h with
  | nil => rfl
  | cons t rest ih =>
      unfold transmitAll
      rw [transmit_bare]
      rcases h.transmit session context t with ⟨f | _, h₁⟩
      · rfl
      · exact ih h₁

theorem publish_bare (session : Nat) (context : Context) (k : Kind) (h : Host) :
    h.bare.publish session context k = Prod.map id bare (h.publish session context k) := by
  unfold publish
  rw [bare_platform]
  cases h.platform.facts.telemetry? h.platform.bootId k with
  | none => rfl
  | some ts => exact transmitAll_bare session context ts h

theorem burstStep_bare (session : Nat) (step : BurstStep) (h : Host) :
    h.bare.burstStep session step = Prod.map id bare (h.burstStep session step) := by
  cases step with
  | telemetry k => exact publish_bare session .main k h
  | osInfo | systemInfo | baseImage | runtimeInfo => exact transmitAll_bare session .main _ h

theorem burst_bare (session : Nat) (h : Host) : h.bare.burst session = (h.burst session).bare := by
  refine List.foldl_hom bare fun h step => ?_
  rw [burstStep_bare]
  exact bareView.noteFailure (fun _ => rfl) _ _

theorem publishBattery_bare (session : Nat) (b : BatteryStatus) (h : Host) :
    h.bare.publishBattery session b = Prod.map id bare (h.publishBattery session b) := by
  unfold publishBattery
  split
  · exact congrArg (Prod.mk _) (note_bare rfl h)
  · exact transmit_bare session .main _ h

end Host
end TelemetryAgent
