import TelemetryAgent.Proofs.Device.Routing

/-!
# A transparent router

The part of the caller, its callbacks and its services, has no influence on a device. Two devices
whose hosts differ in it alone run alike: they come to the same outcomes and states and make the same
calls but for those on callbacks and services, whatever the services answer.
-/
namespace TelemetryAgent

namespace Device
open Host

/-! ## Calls -/

theorem create_bare (c : Config) (h : Host) : create c h.bare = Prod.map id bare (create c h) := by
  unfold create
  cases c.validate with
  | error f => rfl
  | ok =>
      dsimp only
      rw [Scheduler.create_bare]
      rcases Scheduler.create c.telemetry c.worker h with ⟨f | scheduler, h₁⟩ <;> rfl

theorem deliver_alike {h h' : Host} (halike : h.bare = h'.bare) (session : Nat)
    (arrived : List Event) (d : Device) :
    (d.deliver session arrived h).1 = (d.deliver session arrived h').1 ∧
      (d.deliver session arrived h).2.bare = (d.deliver session arrived h').2.bare := by
  obtain ⟨hdelivered, hhost⟩ := alike_of_bare (pollSession_bare session arrived) halike
  obtain ⟨hdevice, hbare⟩ := receiveAll_eq (h.pollSession session arrived).1 d hhost
  obtain ⟨hdevice', hbare'⟩ := receiveAll_eq (h'.pollSession session arrived).1 d
    (h := (h'.pollSession session arrived).2) rfl
  rw [hdelivered] at hdevice hbare
  unfold deliver
  dsimp only
  rw [hdelivered, hdevice, hbare, hdevice', hbare']
  exact ⟨rfl, rfl⟩

theorem bursted_bare (session : Nat) (d : Device) (h : Host) :
    d.bursted session h.bare = (d.bursted session h).bare := by
  unfold bursted
  split
  · rfl
  · exact burst_bare session h

theorem serviceConnection_bare (session : Nat) (d : Device) (h : Host) :
    d.serviceConnection session h.bare =
      Prod.map id (Prod.map id bare) (d.serviceConnection session h) := by
  rw [serviceConnection_eq, serviceConnection_eq, bursted_bare, Scheduler.start_bare]
  split <;> rfl

theorem poll_alike {h h' : Host} (halike : h.bare = h'.bare) (arrived : List Event)
    (failure : Option SessionFault) (d : Device) :
    Prod.map id (Prod.map id bare) (d.poll arrived failure h) =
      Prod.map id (Prod.map id bare) (d.poll arrived failure h') := by
  by_cases hstate : d.state = .stopped
  · have hpoll : ∀ h, d.poll arrived failure h =
        (.error (.invalidState "device not started"), d, h) := fun h => if_pos hstate
    rw [hpoll, hpoll]
    exact congrArg (fun h => (_, d, h)) halike
  · cases hsession : d.session with
    | none =>
        rw [poll_of_none hstate hsession, poll_of_none hstate hsession]
        exact congrArg (fun h => (_, d, h)) halike
    | some session =>
        obtain ⟨hdevice, hbare⟩ := deliver_alike halike session arrived d
        have hsame : Prod.map id bare (d.deliver session arrived h) =
            Prod.map id bare (d.deliver session arrived h') := Prod.ext hdevice hbare
        rw [poll_of_session hstate hsession, poll_of_session hstate hsession]
        cases failure with
        | some f => exact congrArg (Prod.mk _) hsame
        | none =>
            dsimp only
            rw [hdevice]
            split
            · rw [← serviceConnection_bare, ← serviceConnection_bare, hbare]
            · exact congrArg (Prod.mk _) hsame

theorem start_bare (d : Device) (h : Host) :
    d.start h.bare = Prod.map id (Prod.map id bare) (d.start h) := by
  unfold start
  split
  · rfl
  · rw [openSession_bare]
    rcases h.openSession with ⟨f | session, h₁⟩
    · dsimp only [Prod.map_apply, id_eq]
      rw [note_bare rfl]
    · dsimp only [Prod.map_apply, id_eq]
      rw [connectSession_bare]
      rcases h₁.connectSession session with ⟨f | _, h₂⟩
      · dsimp only [Prod.map_apply, id_eq]
        rw [note_bare rfl]
      · rfl

theorem publishBattery_bare (b : BatteryStatus) (d : Device) (h : Host) :
    d.publishBattery b h.bare = Prod.map id bare (d.publishBattery b h) := by
  unfold publishBattery
  split
  · rfl
  · cases d.session with
    | none => rfl
    | some session => exact Host.publishBattery_bare session b h

theorem hangUp_bare (timeoutMillis : Nat) (stopped : Outcome) (d : Device) (h : Host) :
    d.hangUp timeoutMillis stopped h.bare =
      Prod.map id (Prod.map id bare) (d.hangUp timeoutMillis stopped h) := by
  unfold hangUp
  cases stopped with
  | error f => rfl
  | ok =>
      cases d.session with
      | none => rfl
      | some session =>
          dsimp only
          rw [disconnectSession_bare]
          rcases h.disconnectSession session timeoutMillis with ⟨f | _, h₁⟩
          · dsimp only [Prod.map_apply, id_eq]
            rw [note_bare rfl]
          · rfl

/-- The publisher of a device has nothing to do with callbacks and services. -/
theorem publisher_discreet : Publisher.Discreet publisher where
  bare := fun session k h => by
    unfold publisher
    rw [publish_bare]
    rfl
  caller := fun session k h => by
    have hmakes : Makes (fun _ => True) h (h.publish session .worker k).2 :=
      publish_makes session .worker k (fun _ _ _ _ _ _ => trivial) h
    exact hmakes.toSameCaller

/-! ## The caller's part stays -/

theorem start_caller (d : Device) (h : Host) : SameCaller h (d.start h).2.2 := by
  have hopen : Makes (fun _ => True) h h.openSession.2 := openSession_makes trivial
  unfold Device.start
  split
  · exact .refl h
  · generalize h.openSession = opening at hopen
    rcases opening with ⟨f | session, h₁⟩
    · exact (hopen.trans (note_makes _ _)).toSameCaller
    · have hconnect : Makes (fun _ => True) h₁ (h₁.connectSession session).2 :=
        connectSession_makes session trivial h₁
      dsimp only
      generalize h₁.connectSession session = connecting at hconnect
      rcases connecting with ⟨f | _, h₂⟩
      · exact ((hopen.trans hconnect).trans (note_makes _ _)).toSameCaller
      · exact (hopen.trans hconnect).toSameCaller

theorem poll_caller (arrived : List Event) (failure : Option SessionFault) (d : Device) (h : Host) :
    SameCaller h (d.poll arrived failure h).2.2 := by
  have hcases := poll_parts arrived failure d h
  generalize (d.poll arrived failure h).1 = r, (d.poll arrived failure h).2.1 = d',
    (d.poll arrived failure h).2.2 = h' at hcases
  cases hcases with
  | refused => exact .refl h
  | failed | offline => exact (deliver_makes _ arrived d h).toSameCaller
  | @online session _ _ _ _ _ _ _ hservice =>
      obtain ⟨-, -, hburst, hstart⟩ := parts_of_service hservice
      exact ((deliver_makes session arrived d h).toSameCaller.trans hburst.toSameCaller).trans
        hstart.toSameCaller

theorem hangUp_caller (timeoutMillis : Nat) (stopped : Outcome) (d : Device) (h : Host) :
    SameCaller h (d.hangUp timeoutMillis stopped h).2.2 := by
  unfold hangUp
  cases stopped with
  | error f => exact .refl h
  | ok =>
      cases d.session with
      | none => exact .refl h
      | some session =>
          have hdisconnect : Makes (fun _ => True) h (h.disconnectSession session timeoutMillis).2 :=
            disconnectSession_makes session timeoutMillis trivial h
          dsimp only
          generalize h.disconnectSession session timeoutMillis = p at hdisconnect
          rcases p with ⟨f | _, h₁⟩
          · exact (hdisconnect.trans (note_makes _ _)).toSameCaller
          · exact hdisconnect.toSameCaller

theorem await_caller (timeoutMillis : Nat) (s : Scheduler) (h : Host) :
    SameCaller h (s.await timeoutMillis h).2.2 := by
  have hcases := Scheduler.await_cases timeoutMillis s h
  generalize (s.await timeoutMillis h).1 = r, (s.await timeoutMillis h).2.1 = s',
    (s.await timeoutMillis h).2.2 = h' at hcases
  cases hcases <;> exact ⟨rfl, rfl⟩

end Device

/-! ## Moves -/

/-- A move with which nothing happens that has to do with callbacks and services, but for the events
of a poll. -/
def Device.Move.Discreet : Device.Move → Prop
  | stop _ meanwhile => ∀ a ∈ meanwhile, a.Discreet
  | ambient a => a.Discreet
  | _ => True

namespace DeviceSystem
open Device Host

def bare (x : DeviceSystem) : DeviceSystem := { x with host := x.host.bare }

variable {m : Device.Move}

/-- No move changes what the caller has put into the host. -/
theorem step_caller (hm : m.Discreet) (x : DeviceSystem) : SameCaller x.host (x.step m).host := by
  cases m with
  | start => exact start_caller x.device x.host
  | poll arrived failure => exact poll_caller arrived failure x.device x.host
  | battery b => exact (publishBattery_makes b x.device x.host).toSameCaller
  | stop timeoutMillis meanwhile =>
      have hhalt : SameCaller x.host x.telemetry.halted.host :=
        (Scheduler.halt_schedules x.device.scheduler x.host).toSameCaller
      have hwhile := System.happenAll_caller hm x.telemetry.halted
      have hawait := await_caller timeoutMillis (x.telemetry.awaiting meanwhile).scheduler
        (x.telemetry.awaiting meanwhile).host
      exact ((hhalt.trans hwhile).trans hawait).trans (hangUp_caller timeoutMillis _ _ _)
  | ambient a => exact System.happen_caller hm x.telemetry

/-- Every move but a poll comes to the same on the bare host. -/
theorem step_bare (hm : m.Discreet) (hother : ∀ arrived failure, m ≠ .poll arrived failure)
    (x : DeviceSystem) : x.bare.step m = (x.step m).bare := by
  cases m with
  | start =>
      change x.bare.after (x.device.start x.host.bare).2.1 (x.device.start x.host.bare).2.2 = _
      rw [start_bare]
      rfl
  | poll arrived failure => exact (hother arrived failure rfl).elim
  | battery b =>
      change { x with host := (x.device.publishBattery b x.host.bare).2 } = _
      rw [Device.publishBattery_bare]
      rfl
  | stop timeoutMillis meanwhile =>
      have htelemetry : x.bare.telemetry = x.telemetry.bare := rfl
      change (x.bare.stop timeoutMillis meanwhile).2 = (x.stop timeoutMillis meanwhile).2.bare
      unfold DeviceSystem.stop
      rw [htelemetry, System.stopWhile_bare timeoutMillis hm]
      rcases x.telemetry.stopWhile timeoutMillis meanwhile with ⟨stopped, s⟩
      dsimp only [Prod.map_apply, id_eq, System.bare, bare]
      rw [hangUp_bare]
      rfl
  | ambient a =>
      change x.bare.resume (x.telemetry.bare.happen a) = _
      rw [System.happen_bare hm]
      rfl

/-- Moves go alike on hosts that are the same but for the caller's part. A poll notes the requests
that fail, and so does not come to quite the same on the bare host. -/
theorem step_alike (hm : m.Discreet) {x y : DeviceSystem} (halike : x.bare = y.bare) :
    (x.step m).bare = (y.step m).bare := by
  cases m with
  | poll arrived failure =>
      have hstep : ∀ z : DeviceSystem, (z.step (.poll arrived failure)).bare =
          z.bare.after (z.device.poll arrived failure z.host).2.1
            (z.device.poll arrived failure z.host).2.2.bare := fun _ => rfl
      have hdevice : x.device = y.device := congrArg (·.device) halike
      have hpoll := poll_alike (congrArg (·.host) halike) arrived failure x.device
      obtain ⟨-, hsame⟩ := Prod.ext_iff.mp hpoll
      obtain ⟨hafter, hhost⟩ := Prod.ext_iff.mp hsame
      change (x.device.poll arrived failure x.host).2.1 =
        (x.device.poll arrived failure y.host).2.1 at hafter
      change (x.device.poll arrived failure x.host).2.2.bare =
        (x.device.poll arrived failure y.host).2.2.bare at hhost
      rw [hstep, hstep, halike, hafter, hhost, hdevice]
  | start | battery | stop | ambient =>
      rw [← step_bare hm (fun _ _ heq => nomatch heq), ← step_bare hm (fun _ _ heq => nomatch heq),
        halike]

/-! ## Runs -/

theorem run_alike {moves : List Device.Move} (hmoves : ∀ m ∈ moves, m.Discreet)
    {x y : DeviceSystem} (halike : x.bare = y.bare) : (x.run moves).bare = (y.run moves).bare := by
  induction moves generalizing x y with
  | nil => exact halike
  | cons m rest ih =>
      exact ih (fun n hn => hmoves n (List.mem_cons_of_mem m hn))
        (step_alike (hmoves m List.mem_cons_self) halike)

/-- The caller is told of the events that are delivered in a run, and of nothing else. -/
theorem record_told {moves : List Device.Move} (hmoves : ∀ m ∈ moves, m.Discreet)
    (x : DeviceSystem) :
    (x.record moves).filter Call.isCallers = (x.delivered moves).filterMap (Event.told x.host) := by
  induction moves generalizing x with
  | nil => rfl
  | cons m rest ih =>
      have hrest := ih (fun n hn => hmoves n (List.mem_cons_of_mem m hn)) (x.step m)
      rw [Event.told_of_sameCaller (step_caller (hmoves m List.mem_cons_self) x)] at hrest
      rw [record, delivered, List.filter_append, List.filterMap_append, made_told, hrest]

/-- The router is transparent. In every run the callbacks of the caller, if it has any, see the
events that are not built in, in order, and its services, if they answer, see the requests that the
others make of them. What a poll delivers leaves the scheduler as if it had been given the changes of
its configuration alone, and the state as the news of the connection has it. On any other host that
is the same but for callbacks and services, whatever these answer, the same run comes to the same
device, and every poll of it to the same outcome; the host is then still the same but for them. -/
theorem router_of_run {c : Config} {h h₀ : Host} {d : Device}
    (hcreate : Device.create c h = (.ok d, h₀)) {moves : List Device.Move}
    (hmoves : ∀ m ∈ moves, m.Discreet) :
    let x := DeviceSystem.run moves ⟨d, h₀, []⟩
    let calls := record moves ⟨d, h₀, []⟩
    let events := delivered moves ⟨d, h₀, []⟩
    calls.filterMap Call.event? = (if h₀.callbacks then events.filter (!·.isBuiltIn) else []) ∧
    calls.filter Call.isRequest =
      (if h₀.services.mode = .answering then events.filterMap Event.request? else []) ∧
    (∀ arrived session, x.device.session = some session →
      let polled := x.host.pollSession session arrived
      let configured := x.device.scheduler.configure (polled.1.filterMap Event.config?) polled.2
      let after := x.device.deliver session arrived x.host
      (∀ f, x.device.poll arrived (some f) x.host = (.error (.transport f), after)) ∧
      after.1.scheduler = configured.1 ∧ after.2.bare = configured.2.bare ∧
      after.1.state = (polled.1.filter Event.isLink).foldl stateAfter x.device.state) ∧
    ∀ h' : Host, h'.bare = h.bare → ∃ h₁, Device.create c h' = (.ok d, h₁) ∧
      let y := DeviceSystem.run moves ⟨d, h₁, []⟩
      y.device = x.device ∧ y.host.bare = x.host.bare ∧
      ∀ arrived failure, (y.device.poll arrived failure y.host).1 =
        (x.device.poll arrived failure x.host).1 := by
  intro x calls events
  have htold := record_told hmoves ⟨d, h₀, []⟩
  refine ⟨?_, ?_, fun arrived session hsession => ?_, fun h' hbare => ?_⟩
  · rw [← Call.filterMap_event?_callers, htold, Event.filterMap_event?_told]
  · rw [← Call.filter_isRequest_callers, htold, Event.filter_isRequest_told]
  · have hstate : x.device.state ≠ .stopped := fun hstopped => by
      have hnone := (lively_of_run hcreate moves).settled.stopped_iff.mp hstopped
      exact nomatch hsession.symm.trans hnone
    obtain ⟨hdevice, hhost⟩ := deliver_eq session arrived x.device x.host
    exact ⟨fun f => poll_of_session hstate hsession arrived (some f) x.host,
      congrArg Device.scheduler hdevice, hhost, congrArg Device.state hdevice⟩
  · obtain ⟨hcreated, hstart⟩ := alike_of_bare (create_bare c) hbare
    rw [hcreate] at hcreated hstart
    refine ⟨(Device.create c h').2, Prod.ext hcreated rfl, ?_⟩
    have halike : DeviceSystem.bare ⟨d, (Device.create c h').2, []⟩ = DeviceSystem.bare ⟨d, h₀, []⟩ :=
      congrArg (DeviceSystem.mk d · []) hstart
    have hrun := run_alike hmoves halike
    intro y
    have hdevice : y.device = x.device := congrArg (·.device) hrun
    have hhost : y.host.bare = x.host.bare := congrArg (·.host) hrun
    refine ⟨hdevice, hhost, fun arrived failure => ?_⟩
    have hpoll := poll_alike hhost arrived failure x.device
    rw [hdevice]
    exact (Prod.ext_iff.mp hpoll).1

/-- A caller sees what it is told while a worker publishes, and a caller with neither callbacks nor
services does not change the device. -/
theorem router_of_requests :
    let moves : List Device.Move := [.start,
      .poll [.individual ⟨Interface.commands, "/request"⟩ (.text "Reboot"),
        .individual ⟨Interface.commands, "/other"⟩ (.text "Reboot"),
        .object ⟨Interface.commands, "/request"⟩ [],
        .individual ⟨Interface.ledBehavior, "/indicator/behavior"⟩ (.text "Blink"),
        .individual ⟨Interface.commands, "/request"⟩ (.boolean true)] none,
      .ambient (.finish 0 Device.confinedPublisher)]
    let heeded : Host := { callbacks := true, services := { mode := .answering } }
    ∃ d h₀, Device.create { telemetry := [⟨.systemStatus, 10⟩] } heeded = (.ok d, h₀) ∧
      (record moves ⟨d, h₀, []⟩).filterMap Call.event? =
        [.individual ⟨Interface.commands, "/other"⟩ (.text "Reboot"),
          .object ⟨Interface.commands, "/request"⟩ []] ∧
      (record moves ⟨d, h₀, []⟩).filter Call.isRequest = [.command .reboot, .led "Blink"] ∧
      ∃ h₁, Device.create { telemetry := [⟨.systemStatus, 10⟩] } {} = (.ok d, h₁) ∧
        (DeviceSystem.run moves ⟨d, h₁, []⟩).device = (DeviceSystem.run moves ⟨d, h₀, []⟩).device := by
  intro moves heeded
  have hmoves : ∀ m ∈ moves, m.Discreet := fun m hm => by
    simp only [moves, List.mem_cons, List.not_mem_nil, or_false] at hm
    rcases hm with rfl | rfl | rfl
    · trivial
    · trivial
    · exact publisher_discreet
  refine ⟨_, _, rfl, ?_⟩
  obtain ⟨hcallbacks, hservices, -, halike⟩ := router_of_run
    (c := { telemetry := [⟨.systemStatus, 10⟩] }) (h := heeded) rfl hmoves
  obtain ⟨h₁, hcreate, hdevice, -⟩ := halike {} rfl
  exact ⟨hcallbacks.trans (by decide), hservices.trans (by decide), h₁, hcreate, hdevice⟩

end DeviceSystem
end TelemetryAgent
