import TelemetryAgent.Proofs.Device.Protocol
import TelemetryAgent.Proofs.Schedule.Outcomes

/-!
# When a device fails

What a call leaves of a device when it fails. A start that fails has changed nothing, and one that
could not reach the other side can be made again. A poll whose session reports a failure keeps what
the events have done by then and does not get to the burst, nor to the worker. A stop that runs out
of time has stopped telemetry and has not touched the session; one whose session does not disconnect
has given the session up. None of this depends on who has called the scheduler of the device.
-/
namespace TelemetryAgent

namespace Host

variable {session : Nat} {b : BatteryStatus} {f : Fault}

/-- How it ends to open a session and to connect it. -/
def dial (h : Host) : Outcome :=
  match h.openSession with
  | (.error f, _) => .error (.transport f)
  | (.ok session, h) => asOutcome (h.connectSession session).1

theorem transport_of_asOutcome {r : Except SessionFault Unit} (hr : asOutcome r = .error f) :
    ∃ g, f = .transport g := by
  cases r with
  | error g =>
      cases hr
      exact ⟨g, rfl⟩
  | ok => cases hr

theorem transport_of_dial {h : Host} (hd : h.dial = .error f) : ∃ g, f = .transport g := by
  unfold dial at hd
  split at hd
  · cases hd
    exact ⟨_, rfl⟩
  · exact transport_of_asOutcome hd

/-- A reading of a slot that has no name of its own is not published. -/
theorem publishBattery_nameless (hslot : b.slot = "" ∨ '/' ∈ b.slot.toList) (session : Nat) (h : Host) :
    h.publishBattery session b = (.error .invalidKind, h.note (.slotInvalid b.slot)) := if_pos hslot

/-- Any other reading is one object under the name of the slot. -/
theorem publishBattery_named (hslot : ¬ (b.slot = "" ∨ '/' ∈ b.slot.toList)) (session : Nat) (h : Host) :
    (h.publishBattery session b).1 = h.published ("/" ++ b.slot) ∧
      since h (h.publishBattery session b).2 =
        [.object session ⟨Interface.batteryStatus, "/" ++ b.slot⟩
          [("levelPercentage", .double b.level), ("levelAbsoluteError", .double b.levelError),
            ("status", .text b.state.code)] .main] := by
  have hpublish : h.publishBattery session b = h.transmit session .main _ := if_neg hslot
  rw [hpublish]
  exact ⟨streamObject_outcome session .main _ _ h,
    since_of_calls (streamObject_calls session .main _ _ h)⟩

end Host

/-! ## Calls -/

namespace Device
open Host

variable {d : Device} {h : Host} {f : Fault} {session : Nat}

/-- Stopped exactly while there is no session. -/
def Paired (d : Device) : Prop := d.state = .stopped ↔ d.session = none

theorem start_of_stopped (hstate : d.state = .stopped) (h : Host) : (d.start h).1 = h.dial := by
  unfold start dial
  rw [if_neg (fun hne => hne hstate)]
  generalize h.openSession = opening
  obtain ⟨r, h₁⟩ := opening
  cases r with
  | error f => rfl
  | ok session =>
      dsimp only
      generalize h₁.connectSession session = connecting
      obtain ⟨r, h₂⟩ := connecting
      cases r <;> rfl

theorem start_of_started (hstate : d.state ≠ .stopped) (h : Host) :
    d.start h = (.error (.invalidState "device already started"), d, h) := if_pos hstate

/-- A device that is stopped opens a session when it is started. -/
theorem since_start_of_stopped (hstate : d.state = .stopped) (h : Host) :
    ∃ later, since h (d.start h).2.2 = .sessionOpen h.sessions.opened :: later := by
  have hcases := start_cases d h
  generalize since h (d.start h).2.2 = calls, d.connections h = sessions, (d.start h).2.1 = d',
    (d.start h).2.2.sessions.opened = opened' at hcases ⊢
  cases hcases with
  | already hstarted => exact (hstarted hstate).elim
  | refused | unconnected | connected => exact ⟨_, rfl⟩

/-- Only a start that succeeds changes the device. -/
theorem start_device (hr : (d.start h).1 = .error f) : (d.start h).2.1 = d := by
  unfold start at hr ⊢
  split
  · rfl
  · rename_i hstate
    rw [if_neg hstate] at hr
    split
    · rfl
    · rename_i session h₁ heq
      rw [heq] at hr
      dsimp only at hr
      split
      · rfl
      · rename_i h₂ heq₂
        rw [heq₂] at hr
        cases hr

/-- A poll neither starts a device nor stops it. -/
theorem poll_stopped_iff (arrived : List Event) (failure : Option SessionFault) (d : Device)
    (h : Host) : (d.poll arrived failure h).2.1.state = .stopped ↔ d.state = .stopped := by
  have hcases := poll_parts arrived failure d h
  generalize (d.poll arrived failure h).1 = r, (d.poll arrived failure h).2.1 = d',
    (d.poll arrived failure h).2.2 = h' at hcases ⊢
  cases hcases with
  | refused => exact Iff.rfl
  | @failed session _ hstate | @offline session hstate =>
      exact iff_of_false (deliver_ne_stopped hstate session arrived h) hstate
  | @online session _ _ _ hstate _ _ _ hservice =>
      rw [(parts_of_service hservice).1]
      exact iff_of_false (deliver_ne_stopped hstate session arrived h) hstate

/-- Hanging up fails if telemetry has not stopped, or if the session does not disconnect. -/
theorem hangUp_error {timeoutMillis : Nat} {stopped : Outcome}
    (hr : (d.hangUp timeoutMillis stopped h).1 = .error f) :
    stopped = .error f ∨
      stopped = .ok () ∧ (∃ g, f = .transport g) ∧ ∃ session, d.session = some session := by
  unfold hangUp at hr
  cases stopped with
  | error g =>
      cases hr
      exact .inl rfl
  | ok =>
      cases hsession : d.session with
      | none =>
          rw [hsession] at hr
          cases hr
      | some session =>
          rw [hsession] at hr
          dsimp only at hr
          split at hr
          · cases hr
            exact .inr ⟨rfl, ⟨_, rfl⟩, session, rfl⟩
          · cases hr

theorem publishBattery_of_session (hstate : d.state = .connected) (hsession : d.session = some session)
    (b : BatteryStatus) (h : Host) : d.publishBattery b h = h.publishBattery session b := by
  unfold publishBattery
  rw [if_neg (fun hne => hne hstate)]
  simp only [hsession]

end Device

namespace DeviceSystem
open Device Host Scheduler

variable {x y : DeviceSystem} {f : Fault}

/-! ## What can come about -/

/-- What a device can come to by its own calls and by direct calls on its scheduler. -/
inductive Reaches (x : DeviceSystem) : DeviceSystem → Prop
  | refl : Reaches x x
  | step {y : DeviceSystem} (m : Device.Move) : Reaches x y → Reaches x (y.step m)
  | direct {y : DeviceSystem} (m : TelemetryAgent.Move) : Reaches x y →
      Reaches x (y.resume (y.telemetry.step m))

theorem reaches_run (moves : List Device.Move) (x : DeviceSystem) : Reaches x (x.run moves) :=
  run_induction (p := Reaches x) .refl fun m _ _ hy => hy.step m

theorem paired_step (hp : x.device.Paired) (m : Device.Move) : (x.step m).device.Paired := by
  cases m with
  | start =>
      have hcases := start_cases x.device x.host
      change (x.device.start x.host).2.1.Paired
      generalize since x.host (x.device.start x.host).2.2 = calls, x.device.connections x.host = sessions,
        (x.device.start x.host).2.1 = d', (x.device.start x.host).2.2.sessions.opened = opened'
        at hcases ⊢
      cases hcases with
      | already | refused | unconnected => exact hp
      | connected => exact iff_of_false DeviceState.noConfusion (Option.some_ne_none _)
  | poll arrived failure =>
      change (x.device.poll arrived failure x.host).2.1.Paired
      unfold Paired
      rw [poll_stopped_iff, (poll_beside arrived failure x.device x.host).1]
      exact hp
  | battery b => exact hp
  | stop timeoutMillis meanwhile =>
      change (x.stop timeoutMillis meanwhile).2.device.Paired
      rw [(stop_device timeoutMillis meanwhile x).1]
      split
      · exact iff_of_true rfl rfl
      · exact hp
  | ambient a => exact hp

theorem Reaches.paired (hr : Reaches x y) (hp : x.device.Paired) : y.device.Paired := by
  induction hr with
  | refl => exact hp
  | step m _ ih => exact paired_step ih m
  | direct m _ ih => exact ih

/-! ## What failures leave -/

/-- A start would not be refused: it opens a session, and ends as this and the connection do. -/
structure Startable (x : DeviceSystem) : Prop where
  outcome : (x.device.start x.host).1 = x.host.dial
  opens : ∃ later, x.made .start = .sessionOpen x.host.sessions.opened :: later

/-- A device can be started exactly while it is stopped. -/
theorem startable_iff : x.Startable ↔ x.device.state = .stopped := by
  constructor
  · intro hs
    refine Decidable.byContradiction fun hstate => ?_
    obtain ⟨later, hopens⟩ := hs.opens
    have hnothing : x.made .start = [] := by
      change since x.host (x.device.start x.host).2.2 = []
      rw [start_of_started hstate, since_self]
    cases hnothing.symm.trans hopens
  · intro hstate
    exact ⟨start_of_stopped hstate x.host, since_start_of_stopped hstate x.host⟩

/-- What a start that fails leaves: everything that there was but the calls on the session, which
are not made if the device has been started. -/
structure StartFailure (f : Fault) (x : DeviceSystem) : Prop where
  device : (x.step .start).device = x.device
  host : (x.step .start).host.settings = x.host.settings ∧
    (x.step .start).host.timers = x.host.timers ∧ (x.step .start).host.tasks = x.host.tasks
  cause : (f = .invalidState "device already started" ∧ x.device.state ≠ .stopped ∧
      (x.step .start).host = x.host) ∨
    (∃ g, f = .transport g) ∧ (x.step .start).device.state = .stopped ∧ (x.step .start).Startable

/-- What a poll leaves whose session reports a failure after some events: what they have done, and
nothing of what a poll does then. -/
structure PollFailure (arrived : List Event) (f : SessionFault) (x : DeviceSystem) : Prop where
  outcome : (x.device.poll arrived (some f) x.host).1 = .error (.transport f)
  served : ∃ session, x.device.session = some session ∧
    x.made (.poll arrived (some f)) = .sessionPoll session ::
      since (x.host.pollSession session arrived).2 (x.step (.poll arrived (some f))).host ∧
    x.device.receiveAll (x.host.pollSession session arrived).1 (x.host.pollSession session arrived).2 =
      ((x.step (.poll arrived (some f))).device, (x.step (.poll arrived (some f))).host) ∧
    x.device.poll arrived none x.host =
      if (x.step (.poll arrived (some f))).device.state = .connected then
        (x.step (.poll arrived (some f))).device.serviceConnection session
          (x.step (.poll arrived (some f))).host
      else
        (.ok (), (x.step (.poll arrived (some f))).device, (x.step (.poll arrived (some f))).host)
  silent : ∀ c ∈ x.made (.poll arrived (some f)), c.isPublish = false
  burstDone : (x.step (.poll arrived (some f))).device.burstDone = x.device.burstDone
  tasks : (x.step (.poll arrived (some f))).host.tasks = x.host.tasks
  running : (x.step (.poll arrived (some f))).device.scheduler.running = x.device.scheduler.running
  tracked : (x.step (.poll arrived (some f))).device.scheduler.tracked = x.device.scheduler.tracked

structure Halted (x : DeviceSystem) : Prop where
  running : x.device.scheduler.running = false
  unarmed : ∀ k, x.device.scheduler.isArmed k x.host = false

structure StopTimeout (timeoutMillis : Nat) (meanwhile : List Ambient) (x : DeviceSystem) : Prop where
  silent : ∀ c ∈ x.made (.stop timeoutMillis meanwhile), c.session? = none
  device : (x.stop timeoutMillis meanwhile).2.device =
    { x.device with scheduler := (x.stop timeoutMillis meanwhile).2.device.scheduler }
  halted : (x.stop timeoutMillis meanwhile).2.Halted
  tracked : (x.stop timeoutMillis meanwhile).2.device.scheduler.tracked = x.device.scheduler.tracked

structure DisconnectFailure (timeoutMillis : Nat) (meanwhile : List Ambient) (x : DeviceSystem) :
    Prop where
  state : (x.stop timeoutMillis meanwhile).2.device.state = .stopped
  session : (x.stop timeoutMillis meanwhile).2.device.session = none
  said : ∃ session, x.device.session = some session ∧
    (x.made (.stop timeoutMillis meanwhile)).filter (·.session?.isSome) =
      [.sessionDisconnect session timeoutMillis]
  burstDone : (x.stop timeoutMillis meanwhile).2.device.burstDone = x.device.burstDone
  halted : (x.stop timeoutMillis meanwhile).2.Halted
  startable : (x.stop timeoutMillis meanwhile).2.Startable

/-- How a reading of a battery is published: on the session, in one call, if the device is connected
and the slot has a name of its own. -/
structure Reading (b : BatteryStatus) (x : DeviceSystem) : Prop where
  offline : x.device.state ≠ .connected →
    (x.device.publishBattery b x.host).1 = .error (.invalidState "device not connected") ∧
      x.made (.battery b) = []
  nameless : x.device.state = .connected → b.slot = "" ∨ '/' ∈ b.slot.toList →
    (x.device.publishBattery b x.host).1 = .error .invalidKind ∧ x.made (.battery b) = []
  named : x.device.state = .connected → ¬ (b.slot = "" ∨ '/' ∈ b.slot.toList) →
    (x.device.publishBattery b x.host).1 = x.host.published ("/" ++ b.slot) ∧
      ∃ session, x.device.session = some session ∧ x.made (.battery b) =
        [.object session ⟨Interface.batteryStatus, "/" ++ b.slot⟩
          [("levelPercentage", .double b.level), ("levelAbsoluteError", .double b.levelError),
            ("status", .text b.state.code)] .main]

theorem startFailure (hr : (x.device.start x.host).1 = .error f) : StartFailure f x := by
  have hdevice := start_device hr
  obtain ⟨hsettings, htimers, htasks, -⟩ := start_rest x.device x.host
  refine ⟨hdevice, ⟨hsettings, htimers, htasks⟩, ?_⟩
  by_cases hstate : x.device.state = .stopped
  · have hafter : (x.step .start).device.state = .stopped :=
      (congrArg Device.state hdevice).trans hstate
    rw [start_of_stopped hstate] at hr
    exact .inr ⟨transport_of_dial hr, hafter, startable_iff.mpr hafter⟩
  · have hstart := start_of_started hstate x.host
    rw [hstart] at hr
    cases hr
    exact .inl ⟨rfl, hstate, congrArg (·.2.2) hstart⟩

theorem pollFailure (hp : x.device.Paired) (hstate : x.device.state ≠ .stopped) (arrived : List Event)
    (f : SessionFault) : PollFailure arrived f x := by
  obtain ⟨session, hsession⟩ := Option.ne_none_iff_exists'.mp fun hnone => hstate (hp.mpr hnone)
  have hpoll : x.device.poll arrived (some f) x.host =
      (.error (.transport f), x.device.deliver session arrived x.host) :=
    poll_of_session hstate hsession arrived (some f) x.host
  have hdevice : (x.step (.poll arrived (some f))).device =
      (x.device.deliver session arrived x.host).1 := congrArg (·.2.1) hpoll
  have hhost : (x.step (.poll arrived (some f))).host =
      (x.device.deliver session arrived x.host).2 := congrArg (·.2.2) hpoll
  have hmade : x.made (.poll arrived (some f)) =
      since x.host (x.step (.poll arrived (some f))).host := rfl
  have hservice := deliver_service session arrived x.device x.host
  have hserves := receiveAll_serves (x.host.pollSession session arrived).1 x.device
    (x.host.pollSession session arrived).2
  have hpolls : Makes (fun _ => True) x.host (x.host.pollSession session arrived).2 :=
    pollSession_makes session arrived trivial x.host
  refine ⟨congrArg (·.1) hpoll, ⟨session, hsession, ?_, ?_, ?_⟩, fun c hc => ?_, ?_, ?_, ?_, ?_⟩
  · rw [hmade, hhost]
    refine (hpolls.since_trans hserves).trans ?_
    rw [since_of_calls (pollSession_calls session arrived x.host)]
    rfl
  · rw [hdevice, hhost]
    rfl
  · rw [hdevice, hhost]
    exact poll_of_session hstate hsession arrived none x.host
  · rw [hmade, hhost] at hc
    exact deliver_silent hc
  · rw [hdevice]
    exact (deliver_state session arrived x.device x.host).2
  · rw [hhost]
    exact hservice.work.tasks
  · rw [hdevice]
    exact hservice.work.running
  · rw [hdevice]
    exact hservice.work.tracked

/-- A stop leaves telemetry stopped, however it ends. -/
theorem halted_stop (timeoutMillis : Nat) (meanwhile : List Ambient) (x : DeviceSystem) :
    (x.stop timeoutMillis meanwhile).2.Halted := by
  have hscheduler : (x.stop timeoutMillis meanwhile).2.device.scheduler =
      (x.telemetry.stopWhile timeoutMillis meanwhile).2.scheduler := by
    rw [(stop_device timeoutMillis meanwhile x).1]
    split <;> rfl
  refine ⟨?_, fun k => isArmed_of_unarmed (fun e he => ?_) _⟩
  · rw [hscheduler]
    exact System.stopWhile_running timeoutMillis meanwhile x.telemetry
  · rw [hscheduler] at he
    exact System.stopWhile_unarmed timeoutMillis meanwhile x.telemetry he

theorem stopTimeout_of_error {timeoutMillis : Nat} {meanwhile : List Ambient}
    (hstopped : (x.telemetry.stopWhile timeoutMillis meanwhile).1 = .error f) :
    StopTimeout timeoutMillis meanwhile x := by
  obtain ⟨-, worker, htracked, hstill⟩ := System.stopWhile_timeout hstopped
  obtain ⟨hhalt, hmade⟩ := made_stop timeoutMillis meanwhile x
  have hdevice := (stop_device timeoutMillis meanwhile x).1
  rw [hstopped] at hmade hdevice
  rw [if_neg (fun hok => nomatch hok)] at hdevice
  refine ⟨fun c hc => ?_, ?_, halted_stop timeoutMillis meanwhile x, ?_⟩
  · rw [hmade, List.append_nil] at hc
    exact Call.session?_of_scheduling (hhalt.sort c hc)
  · rw [hdevice]
  · rw [hdevice]
    exact hstill.trans htracked.symm

theorem disconnectFailure {timeoutMillis session : Nat} {meanwhile : List Ambient}
    (hstopped : (x.telemetry.stopWhile timeoutMillis meanwhile).1 = .ok ())
    (hsession : x.device.session = some session) :
    DisconnectFailure timeoutMillis meanwhile x := by
  obtain ⟨hhalt, hmade⟩ := made_stop timeoutMillis meanwhile x
  have hdevice := (stop_device timeoutMillis meanwhile x).1
  rw [if_pos hstopped] at hdevice
  rw [hstopped, hsession] at hmade
  have hsilent : (since x.host x.telemetry.halted.host).filter (·.session?.isSome) = [] :=
    List.filter_eq_nil_iff.mpr fun c hc => by
      rw [Call.session?_of_scheduling (hhalt.sort c hc)]
      exact Bool.false_ne_true
  have hstate : (x.stop timeoutMillis meanwhile).2.device.state = .stopped := by rw [hdevice]
  refine ⟨hstate, by rw [hdevice], ⟨session, hsession, ?_⟩, by rw [hdevice],
    halted_stop timeoutMillis meanwhile x, startable_iff.mpr hstate⟩
  rw [hmade, List.filter_append, hsilent]
  rfl

/-- A stop runs out of time, or its session does not disconnect. -/
theorem stop_error {timeoutMillis : Nat} {meanwhile : List Ambient}
    (hr : (x.stop timeoutMillis meanwhile).1 = .error f) :
    f = .stopTimeout ∧ StopTimeout timeoutMillis meanwhile x ∨
      (∃ g, f = .transport g) ∧ DisconnectFailure timeoutMillis meanwhile x := by
  rcases hangUp_error hr with hstopped | ⟨hstopped, hcause, session, hsession⟩
  · exact .inl ⟨(System.stopWhile_timeout hstopped).1, stopTimeout_of_error hstopped⟩
  · exact .inr ⟨hcause, disconnectFailure hstopped hsession⟩

theorem reading (hp : x.device.Paired) (b : BatteryStatus) : Reading b x := by
  have hmade : x.made (.battery b) = since x.host (x.device.publishBattery b x.host).2 := rfl
  have hheld : x.device.state = .connected → ∃ session, x.device.session = some session := fun hstate =>
    Option.ne_none_iff_exists'.mp fun hnone => nomatch hstate.symm.trans (hp.mpr hnone)
  constructor
  · intro hstate
    have hpublish : x.device.publishBattery b x.host =
        (.error (.invalidState "device not connected"), x.host) := if_pos hstate
    rw [hmade, hpublish]
    exact ⟨rfl, since_self x.host⟩
  · intro hstate hslot
    obtain ⟨session, hsession⟩ := hheld hstate
    rw [hmade, publishBattery_of_session hstate hsession, publishBattery_nameless hslot]
    exact ⟨rfl, since_self x.host⟩
  · intro hstate hslot
    obtain ⟨session, hsession⟩ := hheld hstate
    obtain ⟨houtcome, hcalls⟩ := publishBattery_named hslot session x.host
    rw [hmade, publishBattery_of_session hstate hsession]
    exact ⟨houtcome, session, hsession, hcalls⟩

/-- At every moment of the life of a device, whatever its host lets fail: a start that fails leaves
the device as it was, and one that could not open or connect a session can be made again. A poll
whose session reports a failure keeps what the events have done and publishes and starts nothing. A
stop fails if it runs out of time, and then it has stopped telemetry without a call on the session,
or if the session does not disconnect, and then the device is stopped and can be started. A reading
is published in one call, or it is refused without any. -/
theorem failures_of_reaches {c : Config} {h h₀ : Host} {d : Device}
    (hcreate : Device.create c h = (.ok d, h₀)) {x : DeviceSystem} (hx : Reaches ⟨d, h₀, []⟩ x) :
    (∀ f, (x.device.start x.host).1 = .error f → StartFailure f x) ∧
    (∀ arrived f, x.device.state ≠ .stopped → PollFailure arrived f x) ∧
    (∀ timeoutMillis meanwhile f, (x.stop timeoutMillis meanwhile).1 = .error f →
      f = .stopTimeout ∧ StopTimeout timeoutMillis meanwhile x ∨
        (∃ g, f = .transport g) ∧ DisconnectFailure timeoutMillis meanwhile x) ∧
    ∀ b, Reading b x := by
  have hp₀ : d.Paired := iff_of_true (idle_of_create hcreate).1 (of_create hcreate).2
  have hp : x.device.Paired := hx.paired hp₀
  exact ⟨fun f => startFailure, fun arrived f hstate => pollFailure hp hstate arrived f,
    fun timeoutMillis meanwhile f => stop_error, reading hp⟩

/-- A device whose first connection is refused connects at the next start. A stop that its worker
does not let end in time makes no call on the session. -/
theorem connected_after_refusal :
    let h : Host := { sessions := { connectFault := fun n => if n = 1 then some ⟨7⟩ else none } }
    let moves : List Device.Move := [.start, .start, .poll [.connected false] none,
      .ambient (.expire 0), .ambient (.take 0)]
    ∃ d h₀, Device.create { telemetry := [⟨.systemStatus, 10⟩] } h = (.ok d, h₀) ∧
      (d.start h₀).1 = .error (.transport ⟨7⟩) ∧ (d.start h₀).2.1 = d ∧
      ((d.start h₀).2.1.start (d.start h₀).2.2).1 = .ok () ∧
      let x := DeviceSystem.run moves ⟨d, h₀, []⟩
      (x.stop 10 []).1 = .error .stopTimeout ∧ (x.stop 10 []).2.device.session = some 1 ∧
        ∀ call ∈ x.made (.stop 10 []), call.session? = none := by
  intro h moves
  have hcreate : ∃ d h₀, Device.create { telemetry := [⟨.systemStatus, 10⟩] } h = (.ok d, h₀) :=
    ⟨_, _, rfl⟩
  obtain ⟨d, h₀, hcreate⟩ := hcreate
  have hruns : (d.start h₀).1 = .error (.transport ⟨7⟩) ∧ (d.start h₀).2.2.dial = .ok () ∧
      ((run moves ⟨d, h₀, []⟩).stop 10 []).1 = .error .stopTimeout ∧
      (run moves ⟨d, h₀, []⟩).device.session = some 1 := by
    cases hcreate
    decide +kernel
  obtain ⟨hrefused, hdial, hlate, hsession⟩ := hruns
  obtain ⟨hstart, -⟩ := failures_of_reaches hcreate .refl
  obtain ⟨-, -, hstop, -⟩ := failures_of_reaches hcreate (reaches_run moves ⟨d, h₀, []⟩)
  refine ⟨d, h₀, hcreate, hrefused, (hstart _ hrefused).device, ?_, hlate, ?_⟩
  · rcases (hstart _ hrefused).cause with ⟨hstarted, -⟩ | ⟨-, -, hstartable⟩
    · cases hstarted
    · exact hstartable.outcome.trans hdial
  · rcases hstop 10 [] _ hlate with ⟨-, htimeout⟩ | ⟨⟨g, hg⟩, -⟩
    · refine ⟨?_, htimeout.silent⟩
      rw [htimeout.device]
      dsimp only
      exact hsession
    · cases hg

end DeviceSystem
end TelemetryAgent
