import TelemetryAgent.Proofs.Host.Traffic

/-!
# What is called

The calls that each part of an agent adds to those that the host has collected. Work on schedules
calls settings and timers, what is published goes to one session and to the scanner, and services and
callbacks are the caller's. Nothing takes a call back.
-/
namespace TelemetryAgent

namespace Call

def session? : Call → Option Nat
  | sessionOpen p => some p
  | sessionConnect p => some p
  | sessionPoll p => some p
  | sessionDisconnect p _ => some p
  | property p _ _ _ => some p
  | object p _ _ _ => some p
  | _ => none

def isScheduling : Call → Bool
  | load _ => true
  | save _ _ _ => true
  | timerCreate _ _ => true
  | timerStart _ _ => true
  | timerStop _ => true
  | timerRelease _ => true
  | _ => false

/-- Something is published from the context of the agent's caller. -/
def isPublish : Call → Bool
  | property _ _ _ .main => true
  | object _ _ _ .main => true
  | wifiScan .main => true
  | _ => false

def event? : Call → Option Event
  | callback e => some e
  | _ => none

def isRequest : Call → Bool
  | command _ => true
  | led _ => true
  | ota _ _ => true
  | _ => false

/-- A publish from the caller's context, on a certain session if on any. -/
def PublishesOn (session : Nat) (c : Call) : Prop :=
  c.isPublish = true ∧ ∀ p, c.session? = some p → p = session

theorem session?_of_scheduling {c : Call} (hc : c.isScheduling = true) : c.session? = none := by
  cases c <;> first | rfl | cases hc

theorem not_publish_of_scheduling {c : Call} (hc : c.isScheduling = true) : c.isPublish = false := by
  cases c <;> first | rfl | cases hc

end Call

def Transmission.call (session : Nat) (context : Context) : Transmission → Call
  | property target value => .property session target value context
  | object target fields => .object session target fields context
  | scan => .wifiScan context

theorem Transmission.publishesOn_call (session : Nat) (t : Transmission) :
    (t.call session .main).PublishesOn session := by
  cases t with
  | property | object => exact ⟨rfl, fun _ hp => (Option.some.inj hp).symm⟩
  | scan => exact ⟨rfl, fun _ hp => nomatch hp⟩

theorem Transmission.call_eq_scan {session : Nat} {context : Context} {t : Transmission}
    (hscan : t.call session context = .wifiScan context) : t = .scan := by
  cases t <;> first | rfl | cases hscan

def BurstStep.transmissions (bootId : String) (f : Facts) : BurstStep → List Transmission
  | telemetry k => (f.telemetry? bootId k).getD []
  | osInfo => f.osInfo
  | systemInfo => f.systemInfo
  | baseImage => f.baseImage
  | runtimeInfo => f.runtimeInfo

theorem Transmission.scan_not_mem_text (interface path : String) (s : Option String) :
    scan ∉ text interface path s := by
  cases s with
  | none => exact List.not_mem_nil
  | some s =>
      unfold text
      split <;> simp

theorem Transmission.scan_not_mem_known (interface path : String) (v : Option Value) :
    scan ∉ known interface path v := by
  cases v <;> simp [known]

/-- Only the last step of a burst scans. -/
theorem BurstStep.scan_not_mem {bootId : String} {f : Facts} {step : BurstStep}
    (hstep : step ∈ order.take 7) : Transmission.scan ∉ step.transmissions bootId f := by
  have hsteps : step = .telemetry .hardwareInfo ∨ step = .osInfo ∨ step = .systemInfo ∨
      step = .baseImage ∨ step = .runtimeInfo ∨ step = .telemetry .systemStatus ∨
      step = .telemetry .storageUsage := by
    simpa [order] using hstep
  rcases hsteps with rfl | rfl | rfl | rfl | rfl | rfl | rfl <;>
    simp [transmissions, Facts.telemetry?, Kind.interface?, Facts.hardwareInfo, Facts.osInfo,
      Facts.systemInfo, Facts.baseImage, Facts.runtimeInfo, Facts.systemStatus, Facts.storageUsage,
      Transmission.scan_not_mem_text, Transmission.scan_not_mem_known]

namespace Host

/-- The calls that `h'` has collected after those of `h`. -/
def since (h h' : Host) : List Call := h'.calls.drop h.calls.length

/-- There are callbacks if there were, and services are disposed as they were. -/
structure SameCaller (h h' : Host) : Prop where
  callbacks : h'.callbacks = h.callbacks
  mode : h'.services.mode = h.services.mode

theorem SameCaller.refl (h : Host) : SameCaller h h := ⟨rfl, rfl⟩

theorem SameCaller.trans {a b c : Host} (hab : SameCaller a b) (hbc : SameCaller b c) :
    SameCaller a c := ⟨hbc.callbacks.trans hab.callbacks, hbc.mode.trans hab.mode⟩

/-- Calls of a certain sort have been made, for the same caller. -/
structure Makes (sort : Call → Prop) (h h' : Host) : Prop extends SameCaller h h' where
  calls : h'.calls = h.calls ++ since h h'
  sort : ∀ c ∈ since h h', sort c

variable {sort : Call → Prop} {h h₁ h₂ h' : Host}

theorem since_of_calls {new : List Call} (hnew : h'.calls = h.calls ++ new) : since h h' = new := by
  unfold since
  rw [hnew, List.drop_left]

theorem since_self (h : Host) : since h h = [] := since_of_calls (List.append_nil _).symm

theorem Makes.intro {new : List Call} (hnew : h'.calls = h.calls ++ new) (hsort : ∀ c ∈ new, sort c)
    (hcallbacks : h'.callbacks = h.callbacks) (hmode : h'.services.mode = h.services.mode) :
    Makes sort h h' := by
  have hsince := since_of_calls hnew
  exact ⟨⟨hcallbacks, hmode⟩, by rw [hsince, hnew], by rwa [hsince]⟩

/-- No call has been made. -/
theorem Makes.quiet (hcalls : h'.calls = h.calls) (hcallbacks : h'.callbacks = h.callbacks)
    (hmode : h'.services.mode = h.services.mode) : Makes sort h h' :=
  .intro (hcalls.trans (List.append_nil _).symm) (fun _ hmem => nomatch hmem) hcallbacks hmode

theorem Makes.refl (h : Host) : Makes sort h h := .quiet rfl rfl rfl

theorem Makes.since_trans (hm₁ : Makes sort h h₁) {sort' : Call → Prop} (hm₂ : Makes sort' h₁ h₂) :
    since h h₂ = since h h₁ ++ since h₁ h₂ :=
  since_of_calls (by rw [hm₂.calls, hm₁.calls, since_of_calls hm₁.calls, List.append_assoc])

theorem Makes.trans (hm₁ : Makes sort h h₁) (hm₂ : Makes sort h₁ h₂) : Makes sort h h₂ := by
  have hcalls := hm₂.calls
  rw [hm₁.calls, List.append_assoc] at hcalls
  refine .intro hcalls (fun c hc => ?_) (hm₂.callbacks.trans hm₁.callbacks)
    (hm₂.mode.trans hm₁.mode)
  exact (List.mem_append.mp hc).elim (hm₁.sort c) (hm₂.sort c)

theorem Makes.mono {sort' : Call → Prop} (hsub : ∀ c, sort c → sort' c) (hm : Makes sort h h') :
    Makes sort' h h' :=
  ⟨hm.toSameCaller, hm.calls, fun c hc => hsub c (hm.sort c hc)⟩

/-- Calls of one sort, then calls of another. -/
theorem Makes.before {sort' : Call → Prop} (hm₁ : Makes sort h h₁) (hm₂ : Makes sort' h₁ h₂) :
    Makes (fun c => sort c ∨ sort' c) h h₂ :=
  (hm₁.mono fun _ hc => .inl hc).trans (hm₂.mono fun _ hc => .inr hc)

theorem record_makes {c : Call} (hc : sort c) (h : Host) : Makes sort h (h.record c) := by
  have hnew : (h.record c).calls = h.calls ++ [c] := rfl
  refine .intro hnew (fun d hd => ?_) rfl rfl
  rw [List.mem_singleton.mp hd]
  exact hc

theorem note_makes (n : Notice) (h : Host) : Makes sort h (h.note n) := .quiet rfl rfl rfl

theorem noteFailure_makes (r : Outcome) (n : Fault → Notice) (h : Host) :
    Makes sort h (h.noteFailure r n) := by
  cases r with
  | ok => exact .refl h
  | error f => exact note_makes _ h

/-! ## Settings and timers -/

/-- Calls on settings and timers have been made, and no others. -/
abbrev Schedules (h h' : Host) : Prop := Makes (fun c => c.isScheduling = true) h h'

theorem save_makes {subtree key : String} {value : Bytes} (hc : sort (.save subtree key value))
    (h : Host) : Makes sort h (h.save subtree key value).2 := by
  have hrecord : Makes sort h (h.record (.save subtree key value)) := record_makes hc h
  unfold save
  dsimp only
  split <;> exact hrecord.trans (.quiet rfl rfl rfl)

theorem saveSettings_makes {k : Kind} (settings : List Setting)
    (hsaves : ∀ s : Setting, sort (.save Setting.subtree (s.key k) s.encode)) (h : Host) :
    Makes sort h (h.saveSettings k settings).2 := by
  induction settings generalizing h with
  | nil => exact .refl h
  | cons s rest ih =>
      have hsave := save_makes (hsaves s) h
      unfold saveSettings
      split
      · rename_i f h₁ heq
        rwa [heq] at hsave
      · rename_i h₁ heq
        rw [heq] at hsave
        exact hsave.trans (ih h₁)

theorem persist_makes {e : Entry}
    (hsaves : ∀ s : Setting, sort (.save Setting.subtree (s.key e.kind) s.encode)) (h : Host) :
    Makes sort h (h.persist e) := by
  have hsettings := saveSettings_makes e.settings hsaves h
  unfold persist
  split
  · rename_i f h₁ heq
    rw [heq] at hsettings
    exact hsettings.trans (note_makes _ h₁)
  · rename_i h₁ heq
    rwa [heq] at hsettings

theorem persist_schedules (e : Entry) (h : Host) : Schedules h (h.persist e) :=
  persist_makes (fun _ => rfl) h

theorem recordTimer_makes {c : Call} (hc : sort c) (h : Host) : Makes sort h (h.recordTimer c) := by
  unfold recordTimer
  split
  · exact record_makes hc h
  · exact .refl h

theorem timerCall_makes (plan : TimerBank → Nat → Option Fault) (h : Host) :
    Makes sort h (h.timerCall plan).2 := .quiet rfl rfl rfl

theorem setTimer_makes (timer : Nat) (f : TimerState → TimerState) (h : Host) :
    Makes sort h (h.setTimer timer f) := .quiet rfl rfl rfl

theorem createTimer_makes {k : Kind} (hcreate : ∀ timer, sort (.timerCreate timer k)) (owner : Nat)
    (h : Host) : Makes sort h (h.createTimer owner k).2 := by
  have hcall : Makes sort h _ := timerCall_makes TimerBank.createFault h
  unfold createTimer
  split
  · rename_i f h₁ heq
    rw [heq] at hcall
    exact hcall.trans (recordTimer_makes (hcreate none) h₁)
  · rename_i h₁ heq
    rw [heq] at hcall
    have hrecord : Makes sort h₁ (h₁.recordTimer (.timerCreate (some h₁.bank.length) k)) :=
      recordTimer_makes (hcreate _) h₁
    exact hcall.trans (hrecord.trans (.quiet rfl rfl rfl))

theorem startTimer_makes {timer seconds : Nat} (hstart : sort (.timerStart timer seconds))
    (h : Host) : Makes sort h (h.startTimer timer seconds).2 := by
  have hrecord : Makes sort h (h.recordTimer (.timerStart timer seconds)) :=
    recordTimer_makes hstart h
  have hcall : Makes sort (h.recordTimer (.timerStart timer seconds)) _ :=
    timerCall_makes TimerBank.startFault _
  unfold startTimer
  dsimp only
  split
  · rename_i f h₁ heq
    rw [heq] at hcall
    exact hrecord.trans hcall
  · rename_i h₁ heq
    rw [heq] at hcall
    split
    · exact hrecord.trans (hcall.trans (note_makes _ h₁))
    · exact hrecord.trans (hcall.trans (setTimer_makes _ _ h₁))

theorem stopTimer_makes {timer : Nat} (hstop : sort (.timerStop timer)) (h : Host) :
    Makes sort h (h.stopTimer timer).2 := by
  have hrecord : Makes sort h (h.recordTimer (.timerStop timer)) := recordTimer_makes hstop h
  have hcall : Makes sort (h.recordTimer (.timerStop timer)) _ :=
    timerCall_makes TimerBank.stopFault _
  unfold stopTimer
  dsimp only
  split
  · rename_i f h₁ heq
    rw [heq] at hcall
    exact hrecord.trans hcall
  · rename_i h₁ heq
    rw [heq] at hcall
    exact hrecord.trans (hcall.trans (setTimer_makes _ _ h₁))

theorem releaseTimer_makes {timer : Nat} (hrelease : sort (.timerRelease timer)) (h : Host) :
    Makes sort h (h.releaseTimer timer) :=
  (recordTimer_makes hrelease h).trans (setTimer_makes _ _ _)

theorem disarm_makes {e : Entry} (hown : ∀ timer, e.timer = some timer →
      sort (.timerStop timer) ∧ sort (.timerRelease timer)) (h : Host) :
    Makes sort h (h.disarm e).2 := by
  unfold disarm
  split
  · exact .refl h
  · rename_i timer hsome
    obtain ⟨hstop, hrelease⟩ := hown timer hsome
    exact (stopTimer_makes hstop h).trans (releaseTimer_makes hrelease _)

theorem abandon_makes {e : Entry} (hown : ∀ timer, e.timer = some timer → sort (.timerRelease timer))
    (h : Host) : Makes sort h (h.abandon e) := by
  unfold abandon
  split
  · exact .refl h
  · rename_i timer hsome
    exact releaseTimer_makes (hown timer hsome) h

theorem arm_makes {owner seconds : Nat} {e : Entry} {h : Host}
    (hcreate : ∀ timer, sort (.timerCreate timer e.kind))
    (hown : ∀ timer, e.timer = some timer →
      sort (.timerStop timer) ∧ sort (.timerStart timer seconds))
    (hnew : e.timer = none → ∀ timer h₁, h.createTimer owner e.kind = (.ok timer, h₁) →
      sort (.timerStart timer seconds) ∧ sort (.timerRelease timer)) :
    Makes sort h (h.arm owner e seconds).2 := by
  unfold arm
  split
  · rename_i timer hsome
    obtain ⟨hstopping, hstarting⟩ := hown timer hsome
    have hstop := stopTimer_makes hstopping h
    split
    · rename_i f h₁ heq
      rwa [heq] at hstop
    · rename_i h₁ heq
      rw [heq] at hstop
      have hstart := startTimer_makes hstarting h₁
      split
      · rename_i f h₂ heq₂
        rw [heq₂] at hstart
        exact hstop.trans hstart
      · rename_i h₂ heq₂
        rw [heq₂] at hstart
        exact hstop.trans hstart
  · rename_i hnone
    have hmake := createTimer_makes hcreate owner h
    split
    · rename_i f h₁ heq
      rwa [heq] at hmake
    · rename_i timer h₁ heq
      obtain ⟨hstarting, hrelease⟩ := hnew hnone timer h₁ heq
      rw [heq] at hmake
      have hstart := startTimer_makes hstarting h₁
      split
      · rename_i f h₂ heq₂
        rw [heq₂] at hstart
        exact (hmake.trans hstart).trans (releaseTimer_makes hrelease _)
      · rename_i h₂ heq₂
        rw [heq₂] at hstart
        exact hmake.trans hstart

theorem disarm_schedules (e : Entry) (h : Host) : Schedules h (h.disarm e).2 :=
  disarm_makes (fun _ _ => ⟨rfl, rfl⟩) h

theorem abandon_schedules (e : Entry) (h : Host) : Schedules h (h.abandon e) :=
  abandon_makes (fun _ _ => rfl) h

theorem arm_schedules (owner : Nat) (e : Entry) (seconds : Nat) (h : Host) :
    Schedules h (h.arm owner e seconds).2 :=
  arm_makes (fun _ => rfl) (fun _ _ => ⟨rfl, rfl⟩) fun _ _ _ _ => ⟨rfl, rfl⟩

/-! ## Sessions -/

theorem journalStep_makes (session : Nat) (context : Context)
    (step : Journal → Journal × List Notice) (h : Host) :
    Makes sort h (h.journalStep session context step) := by
  unfold journalStep
  split
  · exact .refl h
  · split
    · exact .refl h
    · dsimp only
      split <;> exact .quiet rfl rfl rfl

/-- A call on a session is counted. -/
theorem recorded_makes {c : Call} (hc : sort c) (h : Host) :
    Makes sort h (h.record c).countSessionCall :=
  (record_makes hc h).trans (.quiet rfl rfl rfl)

/-- A call that the journal of the session then sees. -/
theorem journaled_makes {c : Call} (hc : sort c) (session : Nat) (context : Context)
    (step : Journal → Journal × List Notice) (h : Host) :
    Makes sort h ((h.record c).countSessionCall.journalStep session context step) :=
  (recorded_makes hc h).trans (journalStep_makes session context step _)

theorem setProperty_makes (session : Nat) (context : Context) (target : Endpoint) (value : Value)
    (hc : sort (.property session target value context)) (h : Host) :
    Makes sort h (h.setProperty session context target value).2 := by
  unfold setProperty
  dsimp only
  split
  · exact recorded_makes hc h
  · dsimp only
    exact journaled_makes hc session context _ h

theorem streamObject_makes (session : Nat) (context : Context) (target : Endpoint) (fields : Fields)
    (hc : sort (.object session target fields context)) (h : Host) :
    Makes sort h (h.streamObject session context target fields).2 := by
  unfold streamObject
  dsimp only
  split
  · exact recorded_makes hc h
  · dsimp only
    exact journaled_makes hc session context _ h

theorem openSession_makes {h : Host} (hc : sort (.sessionOpen h.sessions.opened)) :
    Makes sort h h.openSession.2 := by
  unfold openSession
  dsimp only
  split
  · exact recorded_makes hc h
  · exact (recorded_makes hc h).trans (.quiet rfl rfl rfl)

theorem connectSession_makes (session : Nat) (hc : sort (.sessionConnect session)) (h : Host) :
    Makes sort h (h.connectSession session).2 := by
  unfold connectSession
  dsimp only
  split
  · exact recorded_makes hc h
  · dsimp only
    exact journaled_makes hc session .main _ h

theorem disconnectSession_makes (session timeoutMillis : Nat)
    (hc : sort (.sessionDisconnect session timeoutMillis)) (h : Host) :
    Makes sort h (h.disconnectSession session timeoutMillis).2 := by
  unfold disconnectSession
  dsimp only
  split
  · exact recorded_makes hc h
  · dsimp only
    exact journaled_makes hc session .main _ h

theorem pollSession_makes (session : Nat) (arrived : List Event) (hc : sort (.sessionPoll session))
    (h : Host) : Makes sort h (h.pollSession session arrived).2 := by
  unfold pollSession
  dsimp only
  split
  · exact record_makes hc h
  · dsimp only
    exact (record_makes hc h).trans (journalStep_makes session .main _ _)

@[simp] theorem journalStep_calls (session : Nat) (context : Context)
    (step : Journal → Journal × List Notice) (h : Host) :
    (h.journalStep session context step).calls = h.calls := by
  unfold journalStep
  split
  · rfl
  · split
    · rfl
    · dsimp only
      split <;> rfl

/-- Each of these calls is made once. -/
theorem openSession_calls (h : Host) :
    h.openSession.2.calls = h.calls ++ [.sessionOpen h.sessions.opened] := by
  unfold openSession
  dsimp only
  split <;> rfl

/-- An open that fails leaves its number to the next one. -/
theorem openSession_cases (h : Host) :
    (∃ f, h.openSession.1 = .error f ∧ h.openSession.2.sessions.opened = h.sessions.opened) ∨
      (h.openSession.1 = .ok h.sessions.opened ∧
        h.openSession.2.sessions.opened = h.sessions.opened + 1) := by
  unfold openSession
  dsimp only
  split
  · exact .inl ⟨_, rfl, rfl⟩
  · exact .inr ⟨rfl, rfl⟩

theorem connectSession_calls (session : Nat) (h : Host) :
    (h.connectSession session).2.calls = h.calls ++ [.sessionConnect session] := by
  unfold connectSession
  dsimp only
  split
  · rfl
  · exact journalStep_calls _ _ _ _

theorem disconnectSession_calls (session timeoutMillis : Nat) (h : Host) :
    (h.disconnectSession session timeoutMillis).2.calls =
      h.calls ++ [.sessionDisconnect session timeoutMillis] := by
  unfold disconnectSession
  dsimp only
  split
  · rfl
  · exact journalStep_calls _ _ _ _

theorem setProperty_calls (session : Nat) (context : Context) (target : Endpoint) (value : Value)
    (h : Host) : (h.setProperty session context target value).2.calls =
      h.calls ++ [.property session target value context] := by
  unfold setProperty
  dsimp only
  split
  · rfl
  · exact journalStep_calls _ _ _ _

theorem streamObject_calls (session : Nat) (context : Context) (target : Endpoint) (fields : Fields)
    (h : Host) : (h.streamObject session context target fields).2.calls =
      h.calls ++ [.object session target fields context] := by
  unfold streamObject
  dsimp only
  split
  · rfl
  · exact journalStep_calls _ _ _ _

theorem pollSession_calls (session : Nat) (arrived : List Event) (h : Host) :
    (h.pollSession session arrived).2.calls = h.calls ++ [.sessionPoll session] := by
  unfold pollSession
  dsimp only
  split
  · rfl
  · exact journalStep_calls _ _ _ _

def published (path : String) (h : Host) : Outcome :=
  match h.sessions.publishFault h.sessions.calls path with
  | some f => .error (.transport f)
  | none => .ok ()

theorem setProperty_outcome (session : Nat) (context : Context) (target : Endpoint) (value : Value)
    (h : Host) :
    asOutcome (h.setProperty session context target value).1 = h.published target.path := by
  unfold setProperty published
  dsimp only
  generalize h.sessions.publishFault h.sessions.calls target.path = fault
  cases fault <;> rfl

theorem streamObject_outcome (session : Nat) (context : Context) (target : Endpoint)
    (fields : Fields) (h : Host) :
    asOutcome (h.streamObject session context target fields).1 = h.published target.path := by
  unfold streamObject published
  dsimp only
  generalize h.sessions.publishFault h.sessions.calls target.path = fault
  cases fault <;> rfl

/-! ## Publishing -/

/-- Something has been published on a session from the caller's context, and nothing else done. -/
abbrev Publishes (session : Nat) (h h' : Host) : Prop := Makes (Call.PublishesOn session) h h'

theorem transmit_makes (session : Nat) (context : Context) (t : Transmission)
    (hc : sort (t.call session context)) (h : Host) :
    Makes sort h (h.transmit session context t).2 := by
  cases t with
  | property target value => exact setProperty_makes session context target value hc h
  | object target fields => exact streamObject_makes session context target fields hc h
  | scan => exact (record_makes hc h).trans (.quiet rfl rfl rfl)

theorem transmitAll_makes (session : Nat) (context : Context) {ts : List Transmission}
    (hts : ∀ t ∈ ts, sort (t.call session context)) (h : Host) :
    Makes sort h (h.transmitAll session context ts).2 := by
  induction ts generalizing h with
  | nil => exact .refl h
  | cons t rest ih =>
      have hfirst := transmit_makes session context t (hts t List.mem_cons_self) h
      have hrest := ih fun d hd => hts d (List.mem_cons_of_mem t hd)
      unfold transmitAll
      split
      · rename_i f h₁ heq
        rwa [heq] at hfirst
      · rename_i h₁ heq
        rw [heq] at hfirst
        exact hfirst.trans (hrest h₁)

theorem publish_makes (session : Nat) (context : Context) (k : Kind)
    (hts : ∀ bootId f ts, Facts.telemetry? bootId k f = some ts →
      ∀ t ∈ ts, sort (t.call session context)) (h : Host) :
    Makes sort h (h.publish session context k).2 := by
  unfold publish
  split
  · exact .refl h
  · rename_i ts hsome
    exact transmitAll_makes session context (hts _ _ ts hsome) h

theorem burstStep_makes (session : Nat) (step : BurstStep)
    (hts : ∀ bootId f, ∀ t ∈ step.transmissions bootId f, sort (t.call session .main)) (h : Host) :
    Makes sort h (h.burstStep session step).2 := by
  cases step with
  | telemetry k =>
      refine publish_makes session .main k (fun bootId f ts hsome t ht => hts bootId f t ?_) h
      simp only [BurstStep.transmissions, hsome]
      exact ht
  | osInfo | systemInfo | baseImage | runtimeInfo =>
      exact transmitAll_makes session .main (hts h.platform.bootId h.platform.facts) h

def burstSteps (session : Nat) (steps : List BurstStep) (h : Host) : Host :=
  steps.foldl
    (fun h step =>
      let (r, h) := h.burstStep session step
      h.noteFailure r (.burstStepFailed step))
    h

theorem burstSteps_makes (session : Nat) {steps : List BurstStep}
    (hts : ∀ step ∈ steps, ∀ bootId f, ∀ t ∈ step.transmissions bootId f, sort (t.call session .main))
    (h : Host) : Makes sort h (h.burstSteps session steps) := by
  induction steps generalizing h with
  | nil => exact .refl h
  | cons step rest ih =>
      have hstep := burstStep_makes session step (hts step List.mem_cons_self) h
      have hrest := ih fun d hd => hts d (List.mem_cons_of_mem step hd)
      exact (hstep.trans (noteFailure_makes _ _ _)).trans (hrest _)

theorem burst_publishes (session : Nat) (h : Host) : Publishes session h (h.burst session) :=
  burstSteps_makes session (fun _ _ _ _ t _ => t.publishesOn_call session) h

/-- A burst scans once, in its last step. -/
theorem count_scan_burst (session : Nat) (h : Host) :
    (since h (h.burst session)).count (.wifiScan .main) = 1 := by
  have hsplit : BurstStep.order = BurstStep.order.take 7 ++ [.telemetry .wifiScan] := rfl
  have hfirst : Makes (· ≠ .wifiScan .main) h (h.burstSteps session (BurstStep.order.take 7)) := by
    refine burstSteps_makes session (fun step hstep bootId f t ht hscan => ?_) h
    rw [Transmission.call_eq_scan hscan] at ht
    exact BurstStep.scan_not_mem hstep ht
  have hburst : h.burst session =
      (h.burstSteps session (BurstStep.order.take 7)).burstSteps session [.telemetry .wifiScan] := by
    unfold burst burstSteps
    rw [← List.foldl_append, ← hsplit]
  rw [hburst]
  generalize h.burstSteps session (BurstStep.order.take 7) = h₁ at hfirst
  have hlast : (h₁.burstSteps session [.telemetry .wifiScan]).calls =
      h₁.calls ++ [.wifiScan .main] := by
    have hscan : (h₁.burstStep session (.telemetry .wifiScan)).2.calls =
        h₁.calls ++ [.wifiScan .main] := by
      have hts : h₁.platform.facts.telemetry? h₁.platform.bootId .wifiScan = some [.scan] := rfl
      have hstart : (h₁.transmitAll session .main [.scan]).2.calls =
          h₁.calls ++ [.wifiScan .main] := by
        unfold transmitAll
        split
        · rename_i heq
          exact (congrArg (fun p => p.2.calls) heq).symm
        · rename_i heq
          exact (congrArg (fun p => p.2.calls) heq).symm
      simp only [burstStep, publish, hts]
      exact hstart
    exact (noteFailure_calls _ _ _).trans hscan
  rw [hfirst.calls, List.append_assoc] at hlast
  rw [since_of_calls hlast, List.count_append, List.count_eq_zero.mpr fun hmem => hfirst.sort _ hmem rfl]
  rfl

/-! ## The caller's side -/

theorem callBack_calls (e : Event) (h : Host) :
    (h.callBack e).calls = h.calls ++ if h.callbacks then [.callback e] else [] := by
  unfold callBack
  split
  · rfl
  · exact (List.append_nil _).symm

theorem callBack_makes {e : Event} (hc : sort (.callback e)) (h : Host) :
    Makes sort h (h.callBack e) := by
  unfold callBack
  split
  · exact record_makes hc h
  · exact .refl h

theorem serve_calls (c : Call) (h : Host) :
    (h.serve c).2.calls = h.calls ++ if h.services.mode = .answering then [c] else [] := by
  unfold serve
  cases h.services.mode with
  | answering => rfl
  | missing | rejecting => exact (List.append_nil _).symm

theorem serve_makes {c : Call} (hc : sort c) (h : Host) : Makes sort h (h.serve c).2 := by
  unfold serve
  split
  · exact (record_makes hc h).trans (.quiet rfl rfl rfl)
  · exact .refl h

end Host
end TelemetryAgent
