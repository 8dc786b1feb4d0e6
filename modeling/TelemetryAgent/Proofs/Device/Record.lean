import TelemetryAgent.Proofs.Device.System
import TelemetryAgent.Proofs.Host.Calls

/-!
# The record of a device

The calls that a device makes in the context of its caller, move by move. Workers publish in a
context of their own, and what they and the rest of the host do between calls, or while a stop waits,
is not in the record. A poll makes its calls in three parts: it polls the session and serves what
arrives, it may publish the initial burst, and it may start the scheduler.
-/
namespace TelemetryAgent

namespace Scheduler
open Host

/-! ## Schedules -/

theorem schedule_schedules (k : Kind) (s : Scheduler) (h : Host) :
    Schedules h (s.schedule k h).2.2 := by
  unfold schedule
  split
  · exact .refl h
  · rename_i e he
    have hpersist := persist_schedules e h
    dsimp only
    split
    · exact ((hpersist.trans (disarm_schedules e _)).trans (noteFailure_makes _ _ _)).trans
        (note_makes _ _)
    · split
      · have harm := arm_schedules s.ident e e.period.toInt.toNat (h.persist e)
        split
        · rename_i timer h₁ heq
          rw [heq] at harm
          exact hpersist.trans harm
        · rename_i f h₁ heq
          rw [heq] at harm
          exact ((hpersist.trans harm).trans (note_makes _ _)).trans (abandon_schedules e _)
      · exact hpersist

theorem unschedule_schedules (k : Kind) (s : Scheduler) (h : Host) :
    Schedules h (s.unschedule k h).2.2 := by
  unfold unschedule
  split
  · exact .refl h
  · rename_i e he
    exact (persist_schedules e h).trans (disarm_schedules e _)

theorem apply_schedules (k : Kind) (s : Scheduler) (h : Host) :
    Schedules h (s.apply k h).2.2 := by
  unfold Scheduler.apply
  split
  · split
    · exact schedule_schedules k s h
    · exact unschedule_schedules k s h
  · exact unschedule_schedules k s h

theorem set_schedules (path : String) (value : Value) (s : Scheduler) (h : Host) :
    Schedules h (s.set path value h).2.2 := by
  unfold Scheduler.set
  split
  · exact .refl h
  · split
    · exact .refl h
    · exact apply_schedules _ _ h

theorem unset_schedules (path : String) (s : Scheduler) (h : Host) :
    Schedules h (s.unset path h).2.2 := by
  unfold unset
  split
  · exact .refl h
  · split
    · exact note_makes _ h
    · exact apply_schedules _ _ h

theorem scheduleEnabled_schedules (k : Kind) (s : Scheduler) (h : Host) :
    Schedules h (s.scheduleEnabled k h).2 := by
  unfold scheduleEnabled
  split
  · exact .refl h
  · split
    · exact (schedule_schedules k s h).trans (noteFailure_makes _ _ _)
    · exact .refl h

theorem scheduleAll_schedules (kinds : List Kind) (s : Scheduler) (h : Host) :
    Schedules h (scheduleAll kinds s h).2 := by
  induction kinds generalizing s h with
  | nil => exact .refl h
  | cons k rest ih => exact (scheduleEnabled_schedules k s h).trans (ih _ _)

theorem spawn_schedules (w : Worker) (stackBytes : UInt64) (h : Host) :
    Schedules h (h.spawn w stackBytes).2 := by
  unfold Host.spawn
  dsimp only
  split <;> exact .quiet rfl rfl rfl

theorem enlist_schedules (publisher : Nat) (s : Scheduler) (h : Host) :
    Schedules h (s.enlist publisher h).2.2 := by
  have hspawn := spawn_schedules
    ⟨s.ident, s.epoch, publisher, s.config.pollMillis.toNat, .idle 0⟩ s.config.stackBytes h
  unfold enlist
  dsimp only
  split
  · rename_i f h₁ heq
    rw [heq] at hspawn
    exact hspawn.trans (note_makes _ h₁)
  · rename_i worker h₁ heq
    rw [heq] at hspawn
    exact hspawn

theorem start_schedules (publisher : Nat) (s : Scheduler) (h : Host) :
    Schedules h (s.start publisher h).2.2 := by
  have henlist := enlist_schedules publisher s.raise.drain.renew h
  unfold start
  split
  · exact note_makes _ h
  · split
    · rename_i f s₁ h₁ heq
      rw [heq] at henlist
      exact henlist
    · rename_i worker s₁ h₁ heq
      rw [heq] at henlist
      exact henlist.trans (scheduleAll_schedules Kind.schedulable s₁ h₁)

theorem disarmEach_schedules (kinds : List Kind) (s : Scheduler) (h : Host) :
    Schedules h (disarmEach kinds s h).2 := by
  induction kinds generalizing s h with
  | nil => exact .refl h
  | cons k rest ih =>
      unfold disarmEach
      split
      · exact ih s h
      · rename_i e he
        exact ((disarm_schedules e h).trans (noteFailure_makes _ _ _)).trans (ih _ _)

theorem halt_schedules (s : Scheduler) (h : Host) : Schedules h (s.halt h).2 :=
  disarmEach_schedules Kind.schedulable s h

theorem release_schedules (s : Scheduler) (h : Host) : Schedules h (s.release h) :=
  disarmEach_schedules Kind.schedulable s h

/-- Waiting calls nobody. -/
theorem await_calls (timeoutMillis : Nat) (s : Scheduler) (h : Host) :
    (s.await timeoutMillis h).2.2.calls = h.calls := by
  have hcases := await_cases timeoutMillis s h
  generalize (s.await timeoutMillis h).1 = r, (s.await timeoutMillis h).2.1 = s',
    (s.await timeoutMillis h).2.2 = h' at hcases
  cases hcases <;> rfl

/-- A wait ends in time or is out of it. -/
theorem await_outcome (timeoutMillis : Nat) (s : Scheduler) (h : Host) :
    (s.await timeoutMillis h).1 = .ok () ∨ (s.await timeoutMillis h).1 = .error .stopTimeout := by
  have hcases := await_cases timeoutMillis s h
  generalize (s.await timeoutMillis h).1 = r, (s.await timeoutMillis h).2.1 = s',
    (s.await timeoutMillis h).2.2 = h' at hcases ⊢
  cases hcases with
  | nobody | crashed | joined => exact .inl rfl
  | busy => exact .inr rfl

end Scheduler

/-! ## Events -/

namespace Device
open Host

/-- What a device does with events: it works on schedules, asks services and calls back. -/
def Serves (c : Call) : Prop :=
  c.isScheduling = true ∨ c.isRequest = true ∨ ∃ e, c = .callback e

theorem Serves.silent {c : Call} (hc : Serves c) : c.session? = none ∧ c.isPublish = false := by
  rcases hc with hc | hc | ⟨e, rfl⟩
  · exact ⟨Call.session?_of_scheduling hc, Call.not_publish_of_scheduling hc⟩
  · cases c <;> first | exact ⟨rfl, rfl⟩ | cases hc
  · exact ⟨rfl, rfl⟩

theorem serve_serves (e : Event) (d : Device) (h : Host) :
    Makes Serves h (d.serve e h).2.2 := by
  unfold serve
  split
  · exact .refl h
  · exact .refl h
  · split
    · split
      · exact .refl h
      · exact serve_makes (.inr (.inl rfl)) h
    · split
      · exact .refl h
      · exact serve_makes (.inr (.inl rfl)) h
  · exact serve_makes (.inr (.inl rfl)) h
  · exact (Scheduler.set_schedules _ _ _ h).mono fun _ hc => .inl hc
  · exact (Scheduler.unset_schedules _ _ h).mono fun _ hc => .inl hc

theorem receive_serves (e : Event) (d : Device) (h : Host) :
    Makes Serves h (d.receive e h).2 := by
  unfold receive
  split
  · exact (serve_serves e d h).trans (noteFailure_makes _ _ _)
  · exact callBack_makes (.inr (.inr ⟨e, rfl⟩)) h

theorem receiveAll_serves (events : List Event) (d : Device) (h : Host) :
    Makes Serves h (d.receiveAll events h).2 := by
  induction events generalizing d h with
  | nil => exact .refl h
  | cons e rest ih => exact (receive_serves e d h).trans (ih _ _)

/-- An event changes the state as the state says, and does not undo the burst. -/
theorem serve_state (e : Event) (d : Device) (h : Host) :
    (d.serve e h).2.1.state = d.state ∧ (d.serve e h).2.1.burstDone = d.burstDone := by
  unfold serve
  split
  · exact ⟨rfl, rfl⟩
  · exact ⟨rfl, rfl⟩
  · split
    · split <;> exact ⟨rfl, rfl⟩
    · split <;> exact ⟨rfl, rfl⟩
  · exact ⟨rfl, rfl⟩
  · exact ⟨rfl, rfl⟩
  · exact ⟨rfl, rfl⟩

theorem receive_state (e : Event) (d : Device) (h : Host) :
    (d.receive e h).1.state = stateAfter d.state e ∧ (d.receive e h).1.burstDone = d.burstDone := by
  unfold receive
  split
  · rename_i route hroute
    obtain ⟨hstate, hburst⟩ := serve_state e d h
    refine ⟨hstate.trans ?_, hburst⟩
    cases e with
    | connected | disconnected => cases hroute
    | individual | object | propertySet | propertyUnset => rfl
  · exact ⟨rfl, rfl⟩

theorem receiveAll_state (events : List Event) (d : Device) (h : Host) :
    (d.receiveAll events h).1.state = events.foldl stateAfter d.state ∧
      (d.receiveAll events h).1.burstDone = d.burstDone := by
  induction events generalizing d h with
  | nil => exact ⟨rfl, rfl⟩
  | cons e rest ih =>
      obtain ⟨hstate, hburst⟩ := receive_state e d h
      obtain ⟨hrest, hrest'⟩ := ih (d.receive e h).1 (d.receive e h).2
      rw [hstate] at hrest
      exact ⟨hrest, hrest'.trans hburst⟩

/-- No event stops a device. -/
theorem foldl_stateAfter_ne_stopped (events : List Event) {s : DeviceState} (hs : s ≠ .stopped) :
    events.foldl stateAfter s ≠ .stopped := by
  induction events generalizing s with
  | nil => exact hs
  | cons e rest ih =>
      refine ih ?_
      cases e <;> cases s <;> first | exact hs | exact DeviceState.noConfusion

/-! ## Starting -/

/-- The sessions that a start opens and then connects, without a failure. -/
def connections (d : Device) (h : Host) : List Nat :=
  if d.state = .stopped then
    match h.openSession with
    | (.error _, _) => []
    | (.ok session, h) =>
      match (h.connectSession session).1 with
      | .error _ => []
      | .ok () => [session]
  else []

/-- What a start comes to: the calls that it makes, the sessions that it connects, the device and
the number of sessions afterwards. -/
inductive Begun (d : Device) (opened : Nat) : List Call → List Nat → Device → Nat → Prop
  | already : d.state ≠ .stopped → Begun d opened [] [] d opened
  | refused : d.state = .stopped → Begun d opened [.sessionOpen opened] [] d opened
  | unconnected : d.state = .stopped →
      Begun d opened [.sessionOpen opened, .sessionConnect opened] [] d (opened + 1)
  | connected : d.state = .stopped →
      Begun d opened [.sessionOpen opened, .sessionConnect opened] [opened]
        { d with session := some opened, state := .started } (opened + 1)

theorem start_cases (d : Device) (h : Host) :
    Begun d h.sessions.opened (since h (d.start h).2.2) (d.connections h) (d.start h).2.1
      (d.start h).2.2.sessions.opened := by
  have hnumber := openSession_cases h
  have hcalls := openSession_calls h
  unfold start connections
  by_cases hstate : d.state = .stopped
  · rw [if_neg (fun hne => hne hstate), if_pos hstate]
    generalize h.openSession = opening at hnumber hcalls
    obtain ⟨r, h₁⟩ := opening
    rcases hnumber with ⟨f, hr, hopened⟩ | ⟨hr, hopened⟩
    · cases hr
      have hsince : since h (h₁.note (.openFailed f)) = [.sessionOpen h.sessions.opened] :=
        since_of_calls hcalls
      have hsame : (h₁.note (.openFailed f)).sessions.opened = h.sessions.opened := hopened
      dsimp only
      rw [hsince, hsame]
      exact .refused hstate
    · cases hr
      have hconnect := connectSession_calls h.sessions.opened h₁
      have hkept := (connectSession_traffic h.sessions.opened h₁).opened
      dsimp only
      generalize h₁.connectSession h.sessions.opened = connecting at hconnect hkept
      obtain ⟨r, h₂⟩ := connecting
      have htwo : h₂.calls = h.calls ++
          [.sessionOpen h.sessions.opened, .sessionConnect h.sessions.opened] := by
        rw [hconnect, hcalls, List.append_assoc]
        rfl
      cases r with
      | error f =>
          have hsince : since h (h₂.note (.connectFailed f)) = _ := since_of_calls htwo
          have hnext : (h₂.note (.connectFailed f)).sessions.opened = h.sessions.opened + 1 :=
            hkept.trans hopened
          dsimp only
          rw [hsince, hnext]
          exact .unconnected hstate
      | ok =>
          dsimp only
          rw [since_of_calls htwo, hkept.trans hopened]
          exact .connected hstate
  · rw [if_pos hstate, if_neg hstate, since_self]
    exact .already hstate

/-! ## Polling -/

def deliver (session : Nat) (arrived : List Event) (d : Device) (h : Host) : Device × Host :=
  let (delivered, h) := h.pollSession session arrived
  d.receiveAll delivered h

theorem deliver_service (session : Nat) (arrived : List Event) (d : Device) (h : Host) :
    Service d h (d.deliver session arrived h).1 (d.deliver session arrived h).2 :=
  (Service.ofTraffic d (Host.pollSession_traffic session arrived h)).trans (receiveAll_service _ d _)

theorem deliver_state (session : Nat) (arrived : List Event) (d : Device) (h : Host) :
    (d.deliver session arrived h).1.state =
        (h.pollSession session arrived).1.foldl stateAfter d.state ∧
      (d.deliver session arrived h).1.burstDone = d.burstDone :=
  receiveAll_state _ d _

theorem deliver_ne_stopped {d : Device} (hstate : d.state ≠ .stopped) (session : Nat)
    (arrived : List Event) (h : Host) : (d.deliver session arrived h).1.state ≠ .stopped := by
  rw [(deliver_state session arrived d h).1]
  exact foldl_stateAfter_ne_stopped _ hstate

theorem deliver_makes (session : Nat) (arrived : List Event) (d : Device) (h : Host) :
    Makes (fun c => c = .sessionPoll session ∨ Serves c) h (d.deliver session arrived h).2 :=
  (pollSession_makes session arrived (.inl rfl) h).trans
    ((receiveAll_serves _ d _).mono fun _ hc => .inr hc)

/-- Nothing is published by it. -/
theorem deliver_silent {session : Nat} {arrived : List Event} {d : Device} {h : Host} {c : Call}
    (hc : c ∈ since h (d.deliver session arrived h).2) : c.isPublish = false := by
  rcases (deliver_makes session arrived d h).sort c hc with rfl | hserves
  · rfl
  · exact hserves.silent.2

/-- What a poll comes to. The session is polled and what arrives is served, if the device has been
started; a device that is then connected is serviced, if the session does not report a failure. -/
inductive Polls (arrived : List Event) (failure : Option SessionFault) (d : Device) (h : Host) :
    Outcome → Device → Host → Prop
  | refused {f : Fault} : d.state = .stopped ∨ d.session = none →
      Polls arrived failure d h (.error f) d h
  | failed {session : Nat} {f : SessionFault} : d.state ≠ .stopped → d.session = some session →
      failure = some f →
      Polls arrived failure d h (.error (.transport f)) (d.deliver session arrived h).1
        (d.deliver session arrived h).2
  | offline {session : Nat} : d.state ≠ .stopped → d.session = some session → failure = none →
      (d.deliver session arrived h).1.state ≠ .connected →
      Polls arrived failure d h (.ok ()) (d.deliver session arrived h).1
        (d.deliver session arrived h).2
  | online {session : Nat} {r : Outcome} {d' : Device} {h' : Host} : d.state ≠ .stopped →
      d.session = some session → failure = none →
      (d.deliver session arrived h).1.state = .connected →
      (d.deliver session arrived h).1.serviceConnection session (d.deliver session arrived h).2 =
        (r, d', h') →
      Polls arrived failure d h r d' h'

theorem poll_of_session {d : Device} {session : Nat} (hstate : d.state ≠ .stopped)
    (hsession : d.session = some session) (arrived : List Event) (failure : Option SessionFault)
    (h : Host) :
    d.poll arrived failure h =
      match failure with
      | some f => (.error (.transport f), d.deliver session arrived h)
      | none =>
        if (d.deliver session arrived h).1.state = .connected then
          (d.deliver session arrived h).1.serviceConnection session (d.deliver session arrived h).2
        else (.ok (), d.deliver session arrived h) := by
  unfold poll
  rw [if_neg hstate]
  simp only [hsession]
  rfl

theorem poll_of_none {d : Device} (hstate : d.state ≠ .stopped) (hsession : d.session = none)
    (arrived : List Event) (failure : Option SessionFault) (h : Host) :
    d.poll arrived failure h = (.error (.invalidState "device has no session"), d, h) := by
  unfold poll
  rw [if_neg hstate]
  simp only [hsession]

theorem poll_parts (arrived : List Event) (failure : Option SessionFault) (d : Device) (h : Host) :
    Polls arrived failure d h (d.poll arrived failure h).1 (d.poll arrived failure h).2.1
      (d.poll arrived failure h).2.2 := by
  by_cases hstate : d.state = .stopped
  · have hpoll : d.poll arrived failure h =
        (.error (.invalidState "device not started"), d, h) := if_pos hstate
    rw [hpoll]
    exact .refused (.inl hstate)
  · cases hsession : d.session with
    | none =>
        rw [poll_of_none hstate hsession]
        exact .refused (.inr hsession)
    | some session =>
        rw [poll_of_session hstate hsession]
        cases failure with
        | some f => exact .failed hstate hsession rfl
        | none =>
            by_cases hconnected : (d.deliver session arrived h).1.state = .connected
            · simp only [if_pos hconnected]
              exact .online hstate hsession rfl hconnected rfl
            · simp only [if_neg hconnected]
              exact .offline hstate hsession rfl hconnected

def bursted (session : Nat) (d : Device) (h : Host) : Host :=
  if d.burstDone then h else h.burst session

theorem bursted_traffic (session : Nat) (d : Device) (h : Host) :
    TrafficOnly h (d.bursted session h) := by
  unfold bursted
  split
  · exact .refl h
  · exact burst_traffic session h

theorem bursted_publishes (session : Nat) (d : Device) (h : Host) :
    Publishes session h (d.bursted session h) := by
  unfold bursted
  split
  · exact .refl h
  · exact burst_publishes session h

/-- The third part: the scheduler is started unless it runs. -/
theorem serviceConnection_eq (session : Nat) (d : Device) (h : Host) :
    d.serviceConnection session h =
      if d.scheduler.running then (.ok (), { d with burstDone := true }, d.bursted session h)
      else
        ((d.scheduler.start session (d.bursted session h)).1,
          { d with
            burstDone := true
            scheduler := (d.scheduler.start session (d.bursted session h)).2.1 },
          (d.scheduler.start session (d.bursted session h)).2.2) := by
  obtain ⟨state, burstDone, disconnectMillis, held, scheduler⟩ := d
  unfold serviceConnection bursted
  generalize h.burst session = h₁
  cases burstDone <;> rfl

/-- Something is published first, and then worked on schedules. -/
theorem parts_of_service {session : Nat} {d d' : Device} {h h' : Host} {r : Outcome}
    (hservice : d.serviceConnection session h = (r, d', h')) :
    d'.state = d.state ∧ d'.burstDone = true ∧ Publishes session h (d.bursted session h) ∧
      Schedules (d.bursted session h) h' := by
  have hburst := bursted_publishes session d h
  rw [serviceConnection_eq] at hservice
  split at hservice
  · cases hservice
    exact ⟨rfl, rfl, hburst, .refl _⟩
  · cases hservice
    exact ⟨rfl, rfl, hburst, Scheduler.start_schedules session _ _⟩

/-- The calls of a poll that services the connection, in its three parts. -/
theorem since_online {session : Nat} {arrived : List Event} {d d' : Device} {h h' : Host}
    {r : Outcome}
    (hservice : (d.deliver session arrived h).1.serviceConnection session
      (d.deliver session arrived h).2 = (r, d', h')) :
    since h h' = since h (d.deliver session arrived h).2 ++
      (since (d.deliver session arrived h).2
          ((d.deliver session arrived h).1.bursted session (d.deliver session arrived h).2) ++
        since ((d.deliver session arrived h).1.bursted session (d.deliver session arrived h).2) h') := by
  obtain ⟨-, -, hburst, hstart⟩ := parts_of_service hservice
  rw [(deliver_makes session arrived d h).since_trans (hburst.before hstart), hburst.since_trans hstart]

/-! ## Hanging up -/

/-- Hanging up disconnects the session that is held once telemetry has been stopped. -/
theorem since_hangUp (timeoutMillis : Nat) (stopped : Outcome) (d : Device) (h : Host) :
    since h (d.hangUp timeoutMillis stopped h).2.2 =
      match stopped, d.session with
      | .ok (), some session => [.sessionDisconnect session timeoutMillis]
      | _, _ => [] := by
  unfold hangUp
  cases stopped with
  | error f => exact since_self h
  | ok =>
      cases d.session with
      | none => exact since_self h
      | some session =>
          have hcalls := disconnectSession_calls session timeoutMillis h
          dsimp only
          generalize h.disconnectSession session timeoutMillis = p at hcalls
          obtain ⟨r, h₁⟩ := p
          cases r with
          | error f =>
              have hnote : (h₁.note (.disconnectFailed f)).calls =
                  h.calls ++ [.sessionDisconnect session timeoutMillis] := hcalls
              exact since_of_calls hnote
          | ok => exact since_of_calls hcalls

/-! ## Battery readings -/

theorem publishBattery_traffic (b : BatteryStatus) (d : Device) (h : Host) :
    TrafficOnly h (d.publishBattery b h).2 := by
  unfold publishBattery
  split
  · exact .refl h
  · split
    · exact .refl h
    · exact Host.publishBattery_traffic _ b h

/-- A battery reading is published on the session of a device that is connected, or not at all. -/
theorem publishBattery_makes (b : BatteryStatus) (d : Device) (h : Host) :
    Makes (fun c => d.state = .connected ∧ ∃ session, d.session = some session ∧
      c.PublishesOn session ∧ c ≠ .wifiScan .main) h (d.publishBattery b h).2 := by
  unfold publishBattery
  split
  · exact .refl h
  · rename_i hstate
    split
    · exact .refl h
    · rename_i session hsession
      have hconnected : d.state = .connected := Decidable.not_not.mp hstate
      unfold Host.publishBattery
      split
      · exact note_makes _ h
      · exact transmit_makes session .main _
          ⟨hconnected, session, hsession, Transmission.publishesOn_call session _,
            fun hscan => Call.noConfusion hscan⟩ h

end Device

/-! ## Moves -/

namespace DeviceSystem
open Host

/-- The calls that are made in a move, in the context of the caller. -/
def made (m : Device.Move) (x : DeviceSystem) : List Call :=
  match m with
  | .stop timeoutMillis meanwhile =>
    since x.host x.telemetry.halted.host ++
      since (x.telemetry.awaiting meanwhile).host (x.stop timeoutMillis meanwhile).2.host
  | .ambient _ => []
  | m => since x.host (x.step m).host

/-- The calls of a stop. -/
theorem made_stop (timeoutMillis : Nat) (meanwhile : List Ambient) (x : DeviceSystem) :
    Schedules x.host x.telemetry.halted.host ∧
      x.made (.stop timeoutMillis meanwhile) = since x.host x.telemetry.halted.host ++
        match (x.telemetry.stopWhile timeoutMillis meanwhile).1, x.device.session with
        | .ok (), some session => [.sessionDisconnect session timeoutMillis]
        | _, _ => [] := by
  have hwait : (x.telemetry.stopWhile timeoutMillis meanwhile).2.host.calls =
      (x.telemetry.awaiting meanwhile).host.calls := Scheduler.await_calls timeoutMillis _ _
  have hhang := Device.since_hangUp timeoutMillis (x.telemetry.stopWhile timeoutMillis meanwhile).1
    { x.device with scheduler := (x.telemetry.stopWhile timeoutMillis meanwhile).2.scheduler }
    (x.telemetry.stopWhile timeoutMillis meanwhile).2.host
  have hsecond : since (x.telemetry.awaiting meanwhile).host (x.stop timeoutMillis meanwhile).2.host =
      match (x.telemetry.stopWhile timeoutMillis meanwhile).1, x.device.session with
      | .ok (), some session => [.sessionDisconnect session timeoutMillis]
      | _, _ => [] := by
    unfold since at hhang ⊢
    rw [← hwait]
    exact hhang
  exact ⟨Scheduler.halt_schedules x.device.scheduler x.host,
    congrArg (since x.host x.telemetry.halted.host ++ ·) hsecond⟩

def record : List Device.Move → DeviceSystem → List Call
  | [], _ => []
  | m :: rest, x => x.made m ++ record rest (x.step m)

def connections (m : Device.Move) (x : DeviceSystem) : List Nat :=
  match m with
  | .start => x.device.connections x.host
  | _ => []

def connected : List Device.Move → DeviceSystem → List Nat
  | [], _ => []
  | m :: rest, x => x.connections m ++ connected rest (x.step m)

/-- What every step keeps of the state and of what has been done holds after every run. -/
theorem record_induction {p : List Call → List Nat → DeviceSystem → Prop} {moves : List Device.Move}
    {x : DeviceSystem} {calls : List Call} {sessions : List Nat} (hx : p calls sessions x)
    (hstep : ∀ m ∈ moves, ∀ calls sessions y, p calls sessions y →
      p (calls ++ y.made m) (sessions ++ y.connections m) (y.step m)) :
    p (calls ++ x.record moves) (sessions ++ x.connected moves) (x.run moves) := by
  induction moves generalizing x calls sessions with
  | nil =>
      rw [record, connected, List.append_nil, List.append_nil]
      exact hx
  | cons m rest ih =>
      rw [record, connected, ← List.append_assoc, ← List.append_assoc]
      exact ih (hstep m List.mem_cons_self _ _ x hx) fun n hn => hstep n (List.mem_cons_of_mem m hn)

end DeviceSystem
end TelemetryAgent
