import TelemetryAgent.Proofs.Schedule.Epochs
import TelemetryAgent.Proofs.Schedule.Arming
import TelemetryAgent.Proofs.Device.Record
import TelemetryAgent.Proofs.Device.Stopping

/-!
# The life of a device

State, session, latch and scheduler of a device are changed by different calls, each of which can
fail halfway. One invariant ties them: a device is stopped exactly while it has no session, a stopped
device has nothing going on, and a scheduler that runs has a worker which publishes on the session
that the device holds. The initial burst happens once in a life, before the first worker.
-/
namespace TelemetryAgent

namespace Crew

variable {given : Nat → Prop} {c c' : Crew}

/-- While the scheduler runs, the worker that a stop would wait for is current, and its publisher is
of a certain sort. -/
def Bound (given : Nat → Prop) (c : Crew) : Prop :=
  c.running = true → ∃ (i : Nat) (w : Worker), c.tracked = some i ∧ c.workers[i]? = some w ∧
    c.isCurrent w = true ∧ given w.publisher

theorem Bound.of_stopped (hstopped : c.running = false) : Bound given c := fun hrunning => by
  rw [hstopped] at hrunning
  cases hrunning

theorem Bound.step (hb : Bound given c) (hs : Step given c c') : Bound given c' := by
  obtain ⟨new, hsince⟩ := hs.since
  have hkeep : c'.running = c.running → c'.epoch = c.epoch → c'.tracked = c.tracked →
      Bound given c' := fun hsame hepoch htracked hrunning => by
    rw [hsame] at hrunning
    obtain ⟨i, w, hi, hw, hcurrent, hpublisher⟩ := hb hrunning
    obtain ⟨w', hw', honward⟩ := hsince.kept i w hw
    refine ⟨i, w', htracked.trans hi, hw', ?_, honward.publisher ▸ hpublisher⟩
    unfold isCurrent at hcurrent ⊢
    rw [hsince.ident, hsame, hepoch, honward.owner, honward.epoch]
    exact hcurrent
  cases hs with
  | start pollMillis hgiven _ =>
      intro _
      exact ⟨c.workers.length, c.recruit _ pollMillis, rfl, List.getElem?_concat_length,
        by simp [isCurrent, recruit], hgiven⟩
  | refuse _ hstopped => exact .of_stopped hstopped
  | halt => exact .of_stopped rfl
  | join hstopped => exact .of_stopped hstopped
  | mourn hstopped => exact .of_stopped hstopped
  | elapse | accept | lose | take | finish | look => exact hkeep rfl rfl rfl

theorem Bound.steps (hb : Bound given c) (hs : Steps given c c') : Bound given c' := by
  induction hs with
  | refl => exact hb
  | tail _ hstep ih => exact ih.step hstep

/-- Without a start there are no new workers. -/
theorem Steps.length_eq (hs : Steps (fun _ => False) c c') :
    c'.workers.length = c.workers.length := by
  obtain ⟨new, hsince⟩ := hs.since
  rcases Nat.lt_or_ge c.workers.length c'.workers.length with hlt | hge
  · have hw' := List.getElem?_eq_getElem hlt
    obtain ⟨-, hstarted⟩ := hsince.spawned _ _ (Nat.le_refl _) hw'
    exact (hsince.started _ _ hstarted).2.1.elim
  · exact Nat.le_antisymm hge hsince.length_le

end Crew

/-! ## Calls -/

namespace System
open Scheduler

/-- A stop leaves the worker to wait for, or none. -/
theorem stopWhile_tracked (timeoutMillis : Nat) (meanwhile : List Ambient) (x : System) :
    (x.stopWhile timeoutMillis meanwhile).2.scheduler.tracked = none ∨
      (x.stopWhile timeoutMillis meanwhile).2.scheduler.tracked = x.scheduler.tracked := by
  have hcases := stopWhile_cases timeoutMillis meanwhile x
  rw [← awaiting_tracked meanwhile x]
  generalize (x.stopWhile timeoutMillis meanwhile).1 = r,
    (x.stopWhile timeoutMillis meanwhile).2.scheduler = s',
    (x.stopWhile timeoutMillis meanwhile).2.host = h' at hcases ⊢
  cases hcases with
  | nobody | busy => exact .inr rfl
  | crashed | joined => exact .inl rfl

end System

namespace Device
open Host Scheduler

/-- A start of the scheduler that does not fail has it running. -/
theorem running_of_start {publisher : Nat} {s : Scheduler} {h : Host}
    (hok : (s.start publisher h).1 = .ok ()) : (s.start publisher h).2.1.running = true := by
  have hcases := Scheduler.start_cases publisher s h
  generalize (s.start publisher h).1 = r, (s.start publisher h).2.1 = s',
    (s.start publisher h).2.2 = h' at hcases hok ⊢
  cases hcases with
  | already | refused => cases hok
  | spawned => exact (scheduleAll_work Kind.schedulable _ _).running

/-- What a stop leaves of the device. -/
theorem hangUp_device (timeoutMillis : Nat) (stopped : Outcome) (d : Device) (h : Host) :
    (d.hangUp timeoutMillis stopped h).2.1 =
      if stopped = .ok () then { d with state := .stopped, session := none } else d := by
  unfold hangUp
  cases stopped with
  | error f => rfl
  | ok =>
      cases hsession : d.session with
      | none => simp
      | some session =>
          dsimp only
          split <;> rfl

/-! ### Timers -/

section
variable {first : Nat} {s : Scheduler} {d : Device} {h h' : Host}

theorem wired_of_traffic (hw : Wired first s h.bank) (ht : TrafficOnly h h') :
    Wired first s h'.bank := by
  rw [Host.bank, ht.timers]
  exact hw

theorem wired_serve (hw : Wired first d.scheduler h.bank) (e : Event) :
    Wired first (d.serve e h).2.1.scheduler (d.serve e h).2.2.bank := by
  unfold serve
  split
  · exact hw
  · exact hw
  · split
    · split
      · exact hw
      · exact wired_of_traffic hw (serve_traffic _ h)
    · split
      · exact hw
      · exact wired_of_traffic hw (serve_traffic _ h)
  · exact wired_of_traffic hw (serve_traffic _ h)
  · exact hw.set _ _
  · exact hw.unset _

theorem wired_receive (hw : Wired first d.scheduler h.bank) (e : Event) :
    Wired first (d.receive e h).1.scheduler (d.receive e h).2.bank := by
  unfold receive
  split
  · exact wired_of_traffic (wired_serve hw e) (Host.noteFailure_traffic _ _ _)
  · exact wired_of_traffic hw (callBack_traffic e h)

theorem wired_receiveAll (hw : Wired first d.scheduler h.bank) (events : List Event) :
    Wired first (d.receiveAll events h).1.scheduler (d.receiveAll events h).2.bank := by
  induction events generalizing d h with
  | nil => exact hw
  | cons e rest ih => exact ih (wired_receive hw e)

theorem wired_deliver (hw : Wired first d.scheduler h.bank) (session : Nat) (arrived : List Event) :
    Wired first (d.deliver session arrived h).1.scheduler (d.deliver session arrived h).2.bank :=
  wired_receiveAll (wired_of_traffic hw (pollSession_traffic session arrived h)) _

end

/-! ### The invariant -/

/-- What is true of a device between calls. The workers of its scheduler are those from number
`base` on, and the timers those from number `first` on. -/
structure Settled (base first : Nat) (d : Device) (h : Host) : Prop where
  stopped_iff : d.state = .stopped ↔ d.session = none
  idle : d.state = .stopped → d.scheduler.running = false ∧ d.scheduler.tracked = none
  latch : d.scheduler.running = true → d.burstDone = true
  unstaffed : d.burstDone = false → h.tasks.workers.length = base
  wired : Wired first d.scheduler h.bank

variable {base first : Nat} {d d' : Device} {h h' : Host}

/-- A device that has not been started, or has been stopped. -/
theorem Settled.of_stopped (hstate : d.state = .stopped) (hsession : d.session = none)
    (hrunning : d.scheduler.running = false) (htracked : d.scheduler.tracked = none)
    (hunstaffed : d.burstDone = false → h.tasks.workers.length = base)
    (hw : Wired first d.scheduler h.bank) : Settled base first d h where
  stopped_iff := iff_of_true hstate hsession
  idle := fun _ => ⟨hrunning, htracked⟩
  latch := fun hr => by
    rw [hrunning] at hr
    cases hr
  unstaffed := hunstaffed
  wired := hw

theorem Settled.start (hs : Settled base first d h) :
    Settled base first (d.start h).2.1 (d.start h).2.2 := by
  obtain ⟨hscheduler, htasks, -⟩ := start_facts d h
  have hw : Wired first (d.start h).2.1.scheduler (d.start h).2.2.bank := by
    rw [hscheduler, Host.bank, (start_rest d h).2.1]
    exact hs.wired
  have hcases := start_cases d h
  generalize since h (d.start h).2.2 = calls, d.connections h = sessions,
    (d.start h).2.2.sessions.opened = opened' at hcases
  generalize (d.start h).2.1 = d', (d.start h).2.2 = h' at hcases hscheduler htasks hw ⊢
  cases hcases with
  | already | refused | unconnected =>
      exact { hs with unstaffed := htasks ▸ hs.unstaffed, wired := hw }
  | connected hstate =>
      exact
        { stopped_iff := iff_of_false DeviceState.noConfusion (Option.some_ne_none _)
          idle := fun hstopped => DeviceState.noConfusion hstopped
          latch := hs.latch
          unstaffed := htasks ▸ hs.unstaffed
          wired := hw }

theorem Settled.deliver (hs : Settled base first d h) (hstate : d.state ≠ .stopped) (session : Nat)
    (arrived : List Event) :
    Settled base first (d.deliver session arrived h).1 (d.deliver session arrived h).2 := by
  have hservice := deliver_service session arrived d h
  have hw := wired_deliver hs.wired session arrived
  obtain ⟨-, hburst⟩ := deliver_state session arrived d h
  have hnot := deliver_ne_stopped hstate session arrived h
  generalize d.deliver session arrived h = q at hservice hw hnot hburst ⊢
  have hheld : q.1.session ≠ none := fun hnone =>
    hstate (hs.stopped_iff.mpr (hservice.session.symm.trans hnone))
  exact
    { stopped_iff := iff_of_false hnot hheld
      idle := fun hstopped => (hnot hstopped).elim
      latch := by
        rw [hservice.work.running, hburst]
        exact hs.latch
      unstaffed := by
        rw [hservice.work.tasks, hburst]
        exact hs.unstaffed
      wired := hw }

theorem Settled.serviceConnection (hs : Settled base first d h) (hstate : d.state = .connected)
    (session : Nat) : Settled base first (d.serviceConnection session h).2.1
      (d.serviceConnection session h).2.2 := by
  have hw := wired_of_traffic hs.wired (bursted_traffic session d h)
  have hnot : d.state ≠ .stopped := fun hstopped => by
    rw [hstate] at hstopped
    cases hstopped
  have hheld : d.session ≠ none := fun hnone => hnot (hs.stopped_iff.mpr hnone)
  rw [serviceConnection_eq]
  split
  · exact ⟨iff_of_false hnot hheld, fun hstopped => (hnot hstopped).elim, fun _ => rfl,
      fun hburst => (nomatch hburst), hw⟩
  · exact ⟨iff_of_false hnot hheld, fun hstopped => (hnot hstopped).elim, fun _ => rfl,
      fun hburst => (nomatch hburst), hw.start session⟩

theorem Settled.poll (hs : Settled base first d h) (arrived : List Event)
    (failure : Option SessionFault) :
    Settled base first (d.poll arrived failure h).2.1 (d.poll arrived failure h).2.2 := by
  have hcases := poll_parts arrived failure d h
  generalize (d.poll arrived failure h).1 = r, (d.poll arrived failure h).2.1 = d',
    (d.poll arrived failure h).2.2 = h' at hcases ⊢
  cases hcases with
  | refused => exact hs
  | failed hstate => exact hs.deliver hstate _ arrived
  | offline hstate => exact hs.deliver hstate _ arrived
  | @online session _ _ _ hstate _ _ hconnected hservice =>
      have hserviced := (hs.deliver hstate session arrived).serviceConnection hconnected session
      rw [hservice] at hserviced
      exact hserviced

end Device

namespace DeviceSystem
open Device Host Scheduler

variable {base first : Nat} {x : DeviceSystem}

/-- What a stop leaves: the scheduler has been stopped, and the session is given up if that did not
fail. -/
theorem stop_device (timeoutMillis : Nat) (meanwhile : List Ambient) (x : DeviceSystem) :
    (x.stop timeoutMillis meanwhile).2.device =
        (if (x.telemetry.stopWhile timeoutMillis meanwhile).1 = .ok () then
          { x.device with
            scheduler := (x.telemetry.stopWhile timeoutMillis meanwhile).2.scheduler
            state := .stopped
            session := none }
        else
          { x.device with
            scheduler := (x.telemetry.stopWhile timeoutMillis meanwhile).2.scheduler }) ∧
      TrafficOnly (x.telemetry.stopWhile timeoutMillis meanwhile).2.host
        (x.stop timeoutMillis meanwhile).2.host :=
  ⟨hangUp_device timeoutMillis _ _ _, (hangUp_facts timeoutMillis _ _ _).2.1⟩

theorem settled_stop (hs : Settled base first x.device x.host) (timeoutMillis : Nat)
    (meanwhile : List Ambient) :
    Settled base first (x.stop timeoutMillis meanwhile).2.device
      (x.stop timeoutMillis meanwhile).2.host := by
  obtain ⟨hdevice, htraffic⟩ := stop_device timeoutMillis meanwhile x
  have hlength : (x.stop timeoutMillis meanwhile).2.host.tasks.workers.length =
      x.host.tasks.workers.length := (stop_crew timeoutMillis meanwhile x).length_eq
  have hw := wired_of_traffic
    (System.wired_step (x := x.telemetry) hs.wired (.stopWhile timeoutMillis meanwhile)) htraffic
  have hrunning := System.stopWhile_running timeoutMillis meanwhile x.telemetry
  have htracked := System.stopWhile_tracked timeoutMillis meanwhile x.telemetry
  have hjoined : (x.telemetry.stopWhile timeoutMillis meanwhile).1 = .ok () →
      (x.telemetry.stopWhile timeoutMillis meanwhile).2.scheduler.tracked = none := fun hok =>
    (System.stopped_of_ok hok).1
  rw [hdevice]
  generalize (x.stop timeoutMillis meanwhile).2.host = h' at hlength hw ⊢
  change Wired first (x.telemetry.stopWhile timeoutMillis meanwhile).2.scheduler h'.bank at hw
  generalize x.telemetry.stopWhile timeoutMillis meanwhile = stopped at *
  split
  · rename_i hok
    exact .of_stopped rfl rfl hrunning (hjoined hok)
      (fun hburst => hlength.trans (hs.unstaffed hburst)) hw
  · exact
      { stopped_iff := hs.stopped_iff
        idle := fun hstate => by
          refine ⟨hrunning, ?_⟩
          rcases htracked with hnone | hsame
          · exact hnone
          · exact hsame.trans (hs.idle hstate).2
        latch := fun hr => by
          rw [show stopped.2.scheduler.running = false from hrunning] at hr
          cases hr
        unstaffed := fun hburst => hlength.trans (hs.unstaffed hburst)
        wired := hw }

theorem settled_step (hs : Settled base first x.device x.host) (m : Device.Move) :
    Settled base first (x.step m).device (x.step m).host := by
  cases m with
  | start => exact hs.start
  | poll arrived failure => exact hs.poll arrived failure
  | battery b =>
      have ht := publishBattery_traffic b x.device x.host
      exact
        { hs with
          unstaffed := fun hburst => (congrArg (·.workers.length) ht.tasks).trans (hs.unstaffed hburst)
          wired := wired_of_traffic hs.wired ht }
  | stop timeoutMillis meanwhile => exact settled_stop hs timeoutMillis meanwhile
  | ambient a =>
      have hoff := System.happen_offstage a x.telemetry
      have hlength : (x.step (.ambient a)).crew.workers.length = x.crew.workers.length :=
        (System.happen_crew a x.telemetry).length_eq
      exact
        { stopped_iff := hs.stopped_iff
          idle := fun hstate => ⟨hoff.running.trans (hs.idle hstate).1,
            hoff.tracked.trans (hs.idle hstate).2⟩
          latch := fun hrunning => hs.latch (hoff.running.symm.trans hrunning)
          unstaffed := fun hburst => hlength.trans (hs.unstaffed hburst)
          wired := System.wired_of_offstage hoff hs.wired }

/-! ## The worker and its session -/

/-- While the scheduler runs a device keeps its session. -/
theorem session_of_running (hs : Settled base first x.device x.host) (m : Device.Move)
    (hrunning : (x.step m).device.scheduler.running = true) :
    (x.step m).device.session = x.device.session := by
  cases m with
  | start =>
      obtain ⟨hscheduler, -⟩ := start_facts x.device x.host
      have hcases := start_cases x.device x.host
      change (x.device.start x.host).2.1.scheduler.running = true at hrunning
      change (x.device.start x.host).2.1.session = x.device.session
      generalize since x.host (x.device.start x.host).2.2 = calls,
        x.device.connections x.host = sessions,
        (x.device.start x.host).2.2.sessions.opened = opened' at hcases
      generalize (x.device.start x.host).2.1 = d' at hcases hscheduler hrunning ⊢
      cases hcases with
      | already | refused | unconnected => rfl
      | connected hstate =>
          -- a device that has been stopped has a scheduler that does not run
          rw [show x.device.scheduler.running = false from (hs.idle hstate).1] at hrunning
          cases hrunning
  | poll arrived failure =>
      have hcases := poll_cases arrived failure x.device x.host
      change (x.device.poll arrived failure x.host).2.1.session = x.device.session
      generalize (x.device.poll arrived failure x.host).2.1 = d',
        (x.device.poll arrived failure x.host).2.2 = h' at hcases ⊢
      cases hcases with
      | served hserved => exact hserved.session
      | started d₁ h₁ _ hserved => exact hserved.session
  | battery b => rfl
  | stop timeoutMillis meanwhile =>
      have hstopped := System.stopWhile_running timeoutMillis meanwhile x.telemetry
      change (x.stop timeoutMillis meanwhile).2.device.scheduler.running = true at hrunning
      rw [(stop_device timeoutMillis meanwhile x).1] at hrunning
      split at hrunning
      · exact nomatch hstopped.symm.trans hrunning
      · exact nomatch hstopped.symm.trans hrunning
  | ambient a => rfl

theorem bound_step (hs : Settled base first x.device x.host)
    (hb : Crew.Bound (fun p => x.device.session = some p) x.crew) (m : Device.Move) :
    Crew.Bound (fun p => (x.step m).device.session = some p) (x.step m).crew := by
  intro hrunning
  obtain ⟨i, w, hi, hw, hcurrent, hgiven⟩ := hb.steps (step_crew m x) hrunning
  exact ⟨i, w, hi, hw, hcurrent, (session_of_running hs m hrunning).trans hgiven⟩

/-! ## The burst -/

/-- A poll publishes the initial burst: after the events have been served and the device is
connected, and before anything else is published. -/
structure Bursts (session : Nat) (arrived : List Event) (x : DeviceSystem) : Prop where
  held : x.device.session = some session
  connected : (x.device.deliver session arrived x.host).1.state = .connected
  first : x.device.burstDone = false
  made : ∃ before after,
    x.made (.poll arrived none) = before ++
      (since (x.device.deliver session arrived x.host).2
        ((x.device.deliver session arrived x.host).2.burst session) ++ after) ∧
    (∀ c ∈ before, c.isPublish = false) ∧ ∀ c ∈ after, c.isPublish = false
  state : (x.step (.poll arrived none)).device.state = .connected
  done : (x.step (.poll arrived none)).device.burstDone = true

/-- A poll publishes the initial burst or nothing. -/
theorem bursts_or_silent (arrived : List Event) (failure : Option SessionFault) (x : DeviceSystem) :
    (failure = none ∧ ∃ session, Bursts session arrived x) ∨
      ((∀ c ∈ x.made (.poll arrived failure), c.isPublish = false) ∧
        (x.step (.poll arrived failure)).device.burstDone = x.device.burstDone) := by
  have hcases := poll_parts arrived failure x.device x.host
  have hmade : x.made (.poll arrived failure) =
      since x.host (x.device.poll arrived failure x.host).2.2 := rfl
  have hdevice : (x.step (.poll arrived failure)).device =
      (x.device.poll arrived failure x.host).2.1 := rfl
  generalize (x.device.poll arrived failure x.host).1 = r,
    (x.device.poll arrived failure x.host).2.1 = d',
    (x.device.poll arrived failure x.host).2.2 = h' at hcases hmade hdevice
  cases hcases with
  | refused =>
      right
      rw [hmade, hdevice, since_self]
      exact ⟨fun c hc => (nomatch hc), rfl⟩
  | @failed session =>
      right
      rw [hmade, hdevice, (deliver_state session arrived x.device x.host).2]
      exact ⟨fun c hc => deliver_silent hc, rfl⟩
  | @offline session =>
      right
      rw [hmade, hdevice, (deliver_state session arrived x.device x.host).2]
      exact ⟨fun c hc => deliver_silent hc, rfl⟩
  | @online session _ _ _ _ hsession hfailure hconnected hservice =>
      subst hfailure
      obtain ⟨hstate, hdone, -, hstart⟩ := parts_of_service hservice
      have hparts := hmade.trans (since_online hservice)
      have hlast : ∀ c ∈ since ((x.device.deliver session arrived x.host).1.bursted session
          (x.device.deliver session arrived x.host).2) h', c.isPublish = false := fun c hc =>
        Call.not_publish_of_scheduling (hstart.sort c hc)
      have hsame := (deliver_state session arrived x.device x.host).2
      cases hfirst : x.device.burstDone with
      | true =>
          right
          refine ⟨fun c hc => ?_, (congrArg Device.burstDone hdevice).trans hdone⟩
          have hnothing : since (x.device.deliver session arrived x.host).2
              ((x.device.deliver session arrived x.host).1.bursted session
                (x.device.deliver session arrived x.host).2) = [] := by
            unfold bursted
            rw [if_pos (hsame.trans hfirst)]
            exact since_self _
          rw [hparts, hnothing, List.nil_append] at hc
          exact (List.mem_append.mp hc).elim (fun hc => deliver_silent hc) (hlast c)
      | false =>
          left
          have hall : (x.device.deliver session arrived x.host).1.bursted session
              (x.device.deliver session arrived x.host).2 =
                (x.device.deliver session arrived x.host).2.burst session := by
            unfold bursted
            rw [hsame.trans hfirst]
            rfl
          rw [hall] at hparts hlast
          exact ⟨rfl, session, hsession, hconnected, hfirst,
            ⟨_, _, hparts, fun c hc => deliver_silent hc, hlast⟩,
            (congrArg Device.state hdevice).trans (hstate.trans hconnected),
            (congrArg Device.burstDone hdevice).trans hdone⟩

/-- What is published from the caller's context is a battery reading or the burst. -/
theorem publish_cases (m : Device.Move) (x : DeviceSystem) :
    (∃ b, m = .battery b) ∨
      (∃ arrived session, m = .poll arrived none ∧ Bursts session arrived x) ∨
      ((∀ c ∈ x.made m, c.isPublish = false) ∧
        (x.step m).device.burstDone = x.device.burstDone) := by
  cases m with
  | start =>
      right
      right
      have hcases := start_cases x.device x.host
      change (∀ c ∈ since x.host (x.device.start x.host).2.2, c.isPublish = false) ∧
        (x.device.start x.host).2.1.burstDone = x.device.burstDone
      generalize since x.host (x.device.start x.host).2.2 = calls,
        x.device.connections x.host = sessions, (x.device.start x.host).2.1 = d',
        (x.device.start x.host).2.2.sessions.opened = opened' at hcases ⊢
      cases hcases <;> simp [Call.isPublish]
  | poll arrived failure =>
      right
      rcases bursts_or_silent arrived failure x with ⟨rfl, session, hbursts⟩ | hsilent
      · exact .inl ⟨arrived, session, rfl, hbursts⟩
      · exact .inr hsilent
  | battery b => exact .inl ⟨b, rfl⟩
  | stop timeoutMillis meanwhile =>
      right
      right
      obtain ⟨hhalt, hmade⟩ := made_stop timeoutMillis meanwhile x
      refine ⟨fun c hc => ?_, ?_⟩
      · rw [hmade] at hc
        rcases List.mem_append.mp hc with hc | hc
        · exact Call.not_publish_of_scheduling (hhalt.sort c hc)
        · split at hc
          · rw [List.mem_singleton.mp hc]
            rfl
          · cases hc
      · change (x.stop timeoutMillis meanwhile).2.device.burstDone = _
        rw [(stop_device timeoutMillis meanwhile x).1]
        split <;> rfl
  | ambient a => exact .inr (.inr ⟨fun c hc => (nomatch hc), rfl⟩)

/-- Every burst ends with a scan, and nothing else scans. -/
theorem count_scan_made (m : Device.Move) (x : DeviceSystem) :
    (x.made m).count (.wifiScan .main) + (if x.device.burstDone then 1 else 0) =
      if (x.step m).device.burstDone then 1 else 0 := by
  have hquiet : ∀ calls : List Call, (∀ c ∈ calls, c.isPublish = false) →
      calls.count (.wifiScan .main) = 0 := fun calls hcalls =>
    List.count_eq_zero.mpr fun hmem => nomatch hcalls _ hmem
  rcases publish_cases m x with ⟨b, rfl⟩ | ⟨arrived, session, rfl, hbursts⟩ | ⟨hsilent, hsame⟩
  · have hnone : (x.made (.battery b)).count (.wifiScan .main) = 0 :=
      List.count_eq_zero.mpr fun hmem => by
        obtain ⟨-, -, -, -, hscan⟩ := (publishBattery_makes b x.device x.host).sort _ hmem
        exact hscan rfl
    rw [hnone, Nat.zero_add]
    rfl
  · obtain ⟨before, after, hmade, hbefore, hafter⟩ := hbursts.made
    rw [hmade, List.count_append, List.count_append, count_scan_burst, hquiet before hbefore,
      hquiet after hafter, hbursts.first, hbursts.done]
    rfl
  · rw [hquiet _ hsilent, hsame, Nat.zero_add]

theorem count_scan_record (moves : List Device.Move) (x : DeviceSystem) :
    (x.record moves).count (.wifiScan .main) + (if x.device.burstDone then 1 else 0) =
      if (x.run moves).device.burstDone then 1 else 0 := by
  induction moves generalizing x with
  | nil => exact Nat.zero_add _
  | cons m rest ih =>
      have hfirst := count_scan_made m x
      have hrest := ih (x.step m)
      change _ = if ((x.step m).run rest).device.burstDone then 1 else 0
      rw [record, List.count_append]
      omega

/-! ## Runs -/

theorem burstDone_run (hdone : x.device.burstDone = true) (later : List Device.Move) :
    (x.run later).device.burstDone = true := by
  refine run_induction (p := fun y => y.device.burstDone = true) hdone fun m _ y hy => ?_
  have hcount := count_scan_made m y
  rw [hy, if_pos rfl] at hcount
  cases hafter : (y.step m).device.burstDone with
  | true => rfl
  | false =>
      rw [hafter, if_neg Bool.false_ne_true] at hcount
      omega

/-- A poll that leaves a device connected and does not fail leaves the burst done and the scheduler
running. -/
theorem running_of_poll {arrived : List Event} {failure : Option SessionFault} {d : Device} {h : Host}
    (hok : (d.poll arrived failure h).1 = .ok ())
    (hconnected : (d.poll arrived failure h).2.1.state = .connected) :
    (d.poll arrived failure h).2.1.burstDone = true ∧
      (d.poll arrived failure h).2.1.scheduler.running = true := by
  have hcases := poll_parts arrived failure d h
  generalize (d.poll arrived failure h).1 = r, (d.poll arrived failure h).2.1 = d',
    (d.poll arrived failure h).2.2 = h' at hcases hok hconnected ⊢
  cases hcases with
  | refused | failed => cases hok
  | offline _ _ _ hnot => exact (hnot hconnected).elim
  | @online session _ _ _ _ _ _ _ hservice =>
      rw [serviceConnection_eq] at hservice
      split at hservice
      · rename_i hrunning
        cases hservice
        exact ⟨rfl, hrunning⟩
      · cases hservice
        exact ⟨rfl, running_of_start hok⟩

/-- A device that has just been made has not been started. -/
theorem idle_of_create {c : Config} {h h₀ : Host} {d : Device}
    (hcreate : Device.create c h = (.ok d, h₀)) : d.state = .stopped ∧ d.burstDone = false := by
  unfold Device.create at hcreate
  split at hcreate
  · cases hcreate
  · split at hcreate
    · cases hcreate
    · cases hcreate
      exact ⟨rfl, rfl⟩

structure Lively (base first : Nat) (x : DeviceSystem) : Prop where
  settled : Settled base first x.device x.host
  bound : Crew.Bound (fun p => x.device.session = some p) x.crew

theorem Lively.step (hl : Lively base first x) (m : Device.Move) : Lively base first (x.step m) :=
  ⟨settled_step hl.settled m, bound_step hl.settled hl.bound m⟩

theorem lively_of_run {c : Config} {h h₀ : Host} {d : Device}
    (hcreate : Device.create c h = (.ok d, h₀)) (moves : List Device.Move) :
    Lively h₀.tasks.workers.length h₀.bank.length (run moves ⟨d, h₀, []⟩) := by
  obtain ⟨hscheduler, hsession⟩ := of_create hcreate
  have hfresh := fresh_of_create hscheduler
  have hw : Wired h₀.bank.length d.scheduler h₀.bank := hfresh.wired
  refine run_induction ⟨?_, .of_stopped hfresh.running⟩ fun m _ y hy => hy.step m
  exact .of_stopped (idle_of_create hcreate).1 hsession hfresh.running hfresh.tracked (fun _ => rfl) hw

/-- At every moment of the life of a device: it is stopped exactly if it has no session; then its
scheduler does not run, nothing is armed and no worker is waited for. While the scheduler runs the
burst has been done, the device is not stopped, and the worker of the last start is current and
publishes on the session of the device; it is the only current one as long as there have been fewer
starts than there are epochs. Nothing but battery readings is published from the caller's context
before the burst or after it. The burst is part of a poll that is connected and comes before the
first worker, and there is one at most. A poll that ends connected leaves it done and the scheduler
running. -/
theorem lifecycle_of_run {c : Config} {h h₀ : Host} {d : Device}
    (hcreate : Device.create c h = (.ok d, h₀)) (moves : List Device.Move) :
    let x := DeviceSystem.run moves ⟨d, h₀, []⟩
    (x.device.state = .stopped ↔ x.device.session = none) ∧
    (x.device.state = .stopped → x.device.scheduler.running = false ∧
      (∀ k, x.device.scheduler.isArmed k x.host = false) ∧ x.device.scheduler.tracked = none) ∧
    (x.device.scheduler.running = true → x.device.burstDone = true ∧ x.device.state ≠ .stopped ∧
      ∃ (i : Nat) (w : Worker), x.device.scheduler.tracked = some i ∧
        x.host.tasks.workers[i]? = some w ∧ x.device.scheduler.isCurrent w = true ∧
        x.device.session = some w.publisher ∧
        (h.Numbered → Occurrence.epochs x.log < UInt32.size →
          ∀ (j : Nat) (v : Worker), x.host.tasks.workers[j]? = some v →
            x.device.scheduler.isCurrent v = true → j = i)) ∧
    (record moves ⟨d, h₀, []⟩).count (.wifiScan .main) = (if x.device.burstDone then 1 else 0) ∧
    (∀ m, (∃ c ∈ x.made m, c.isPublish = true) → (∃ b, m = .battery b) ∨
      ∃ arrived session, m = .poll arrived none ∧ Bursts session arrived x ∧
        x.host.tasks.workers.length = h₀.tasks.workers.length) ∧
    (x.device.burstDone = true → ∀ later, (x.run later).device.burstDone = true) ∧
    ∀ arrived failure, (x.device.poll arrived failure x.host).1 = .ok () →
      (x.device.poll arrived failure x.host).2.1.state = .connected →
        (x.device.poll arrived failure x.host).2.1.burstDone = true ∧
          (x.device.poll arrived failure x.host).2.1.scheduler.running = true := by
  intro x
  obtain ⟨hscheduler, -⟩ := of_create hcreate
  obtain ⟨hsettled, hbound⟩ := lively_of_run hcreate moves
  have hscans := count_scan_record moves ⟨d, h₀, []⟩
  rw [(idle_of_create hcreate).2] at hscans
  refine ⟨hsettled.stopped_iff, fun hstate => ?_, fun hrunning => ?_, hscans, fun m hm => ?_,
    fun hdone later => burstDone_run hdone later, fun arrived failure => running_of_poll⟩
  · obtain ⟨hrunning, htracked⟩ := hsettled.idle hstate
    refine ⟨hrunning, fun k => ?_, htracked⟩
    cases harmed : x.device.scheduler.isArmed k x.host with
    | false => rfl
    | true =>
        obtain ⟨-, -, -, -, hr, -⟩ := (hsettled.wired.isArmed_iff k).mp harmed
        exact nomatch hrunning.symm.trans hr
  · obtain ⟨i, w, hi, hw, hcurrent, hpublisher⟩ := hbound hrunning
    refine ⟨hsettled.latch hrunning, fun hstate => ?_, i, w, hi, hw, hcurrent, hpublisher,
      fun hn hfew j v hv hcv => ?_⟩
    · exact nomatch (hsettled.idle hstate).1.symm.trans hrunning
    · have hfresh := fresh_of_create hscheduler
      have henrolled := (System.enrolled_of_fresh hfresh hn Occurrence.begins).steps
        (run_crew moves ⟨d, h₀, []⟩)
      exact henrolled.current_unique hfew hv hw hcv hcurrent
  · obtain ⟨c, hc, hpublish⟩ := hm
    rcases publish_cases m x with hbattery | ⟨arrived, session, hpoll, hbursts⟩ | ⟨hsilent, -⟩
    · exact .inl hbattery
    · exact .inr ⟨arrived, session, hpoll, hbursts, hsettled.unstaffed hbursts.first⟩
    · exact nomatch (hsilent c hc).symm.trans hpublish

/-- A device that is stopped and started again has its second worker on its second session, and has
published one burst. -/
theorem lifecycle_after_restart :
    let moves : List Device.Move := [.start, .poll [.connected false] none, .stop 10 [], .start,
      .poll [.connected false] none]
    ∃ d h₀, Device.create { telemetry := [⟨.systemStatus, 10⟩] } {} = (.ok d, h₀) ∧
      let x := DeviceSystem.run moves ⟨d, h₀, []⟩
      x.device.scheduler.running = true ∧ x.device.session = some 1 ∧
        (∃ (i : Nat) (w : Worker), x.device.scheduler.tracked = some i ∧
          x.host.tasks.workers[i]? = some w ∧ x.device.scheduler.isCurrent w = true ∧
          w.publisher = 1) ∧
        (record moves ⟨d, h₀, []⟩).count (.wifiScan .main) = 1 := by
  intro moves
  refine ⟨_, _, rfl, ?_⟩
  obtain ⟨-, -, hlively, hscans, -⟩ := lifecycle_of_run
    (c := { telemetry := [⟨.systemStatus, 10⟩] }) (h := {}) rfl moves
  obtain ⟨-, -, i, w, hi, hw, hcurrent, hsession, -⟩ := hlively rfl
  exact ⟨rfl, rfl, ⟨i, w, hi, hw, hcurrent, (Option.some.inj hsession).symm⟩, hscans⟩

end DeviceSystem
end TelemetryAgent
