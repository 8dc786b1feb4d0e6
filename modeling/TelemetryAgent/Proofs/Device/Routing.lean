import TelemetryAgent.Proofs.Device.Lifecycle
import TelemetryAgent.Proofs.Schedule.Bare

/-!
# The router

What becomes of the events that a poll delivers. Those that are built in are served and the others
are the caller's: its callbacks see them unchanged, services see the requests that can be made of
them, the scheduler sees what concerns its configuration, and the state follows the connection. The
caller is told of nothing else.
-/
namespace TelemetryAgent

/-! ## Events -/

namespace Call

/-- Callbacks are called with what is told to the caller alone. -/
theorem filterMap_event?_callers (calls : List Call) :
    (calls.filter isCallers).filterMap event? = calls.filterMap event? := by
  rw [List.filterMap_filter]
  congr
  funext c
  cases c <;> rfl

theorem filter_isRequest_callers (calls : List Call) :
    (calls.filter isCallers).filter isRequest = calls.filter isRequest := by
  rw [List.filter_filter]
  congr
  funext c
  cases c <;> rfl

end Call

namespace Event

def isBuiltIn : Event → Bool
  | individual target _ =>
    decide (target = ⟨Interface.commands, "/request"⟩) ||
      decide (target = ⟨Interface.ledBehavior, "/indicator/behavior"⟩)
  | object target _ => decide (target = ⟨Interface.otaRequest, "/request"⟩)
  | propertySet target _ => decide (target.interface = Interface.telemetryConfig)
  | propertyUnset target => decide (target.interface = Interface.telemetryConfig)
  | _ => false

/-- What a built-in event asks of services, if they can be asked for it. -/
def request? : Event → Option Call
  | individual target value =>
    if target = ⟨Interface.commands, "/request"⟩ then
      if value = .text "Reboot" then some (.command .reboot) else none
    else if target = ⟨Interface.ledBehavior, "/indicator/behavior"⟩ then value.text?.map .led
    else none
  | object target fields =>
    if target = ⟨Interface.otaRequest, "/request"⟩ then
      some (.ota fields (fields.find? "operation"))
    else none
  | _ => none

/-- The path that is configured, with its value unless it is unset. -/
def config? : Event → Option (String × Option Value)
  | propertySet target value =>
    if target.interface = Interface.telemetryConfig then some (target.path, some value) else none
  | propertyUnset target =>
    if target.interface = Interface.telemetryConfig then some (target.path, none) else none
  | _ => none

def isLink : Event → Bool
  | connected _ => true
  | disconnected => true
  | _ => false

/-- What an event comes to at the side of the caller: a request, a callback or nothing. -/
def told (h : Host) (e : Event) : Option Call :=
  if e.isBuiltIn then if h.services.mode = .answering then e.request? else none
  else if h.callbacks then some (.callback e) else none

theorem isSome_route (e : Event) : (Route.ofEvent? e).isSome = e.isBuiltIn := by
  cases e with
  | connected | disconnected => rfl
  | individual target value =>
      obtain ⟨interface, path⟩ := target
      simp only [Route.ofEvent?, Route.ofIndividual?, isBuiltIn, Endpoint.mk.injEq]
      split
      · simp [*]
      · split <;> simp [*]
  | object target fields =>
      obtain ⟨interface, path⟩ := target
      simp only [Route.ofEvent?, Route.ofObject?, isBuiltIn, Endpoint.mk.injEq]
      split <;> simp [*]
  | propertySet target value =>
      simp only [Route.ofEvent?, Route.ofProperty?, isBuiltIn]
      split <;> simp [*]
  | propertyUnset target =>
      simp only [Route.ofEvent?, Route.ofProperty?, isBuiltIn]
      split <;> simp [*]

theorem told_of_sameCaller {h h' : Host} (hs : Host.SameCaller h h') : told h' = told h := by
  funext e
  unfold told
  rw [hs.callbacks, hs.mode]

/-- A request is one of services, and only what is built in makes requests. -/
theorem isRequest_of_request? {e : Event} {c : Call} (hc : e.request? = some c) :
    c.isRequest = true ∧ e.isBuiltIn = true := by
  cases e with
  | individual target value =>
      simp only [request?] at hc
      split at hc
      · split at hc
        · cases hc
          exact ⟨rfl, by simp [isBuiltIn, *]⟩
        · cases hc
      · split at hc
        · obtain ⟨behavior, -, rfl⟩ := Option.map_eq_some_iff.mp hc
          exact ⟨rfl, by simp [isBuiltIn, *]⟩
        · cases hc
  | object target fields =>
      simp only [request?] at hc
      split at hc
      · cases hc
        exact ⟨rfl, by simp [isBuiltIn, *]⟩
      · cases hc
  | connected | disconnected | propertySet | propertyUnset => cases hc

theorem event?_told (h : Host) (e : Event) :
    (e.told h).bind Call.event? = if h.callbacks && !e.isBuiltIn then some e else none := by
  unfold told
  cases hbuilt : e.isBuiltIn with
  | false => cases h.callbacks <;> rfl
  | true =>
      have hrequest : e.request?.bind Call.event? = none := by
        cases hr : e.request? with
        | none => rfl
        | some c =>
            have hkind := (isRequest_of_request? hr).1
            cases c <;> first | rfl | cases hkind
      by_cases hmode : h.services.mode = .answering <;> simp [hmode, hrequest]

theorem isRequest_told (h : Host) (e : Event) :
    (e.told h).filter Call.isRequest =
      if h.services.mode = .answering then e.request? else none := by
  unfold told
  cases hr : e.request? with
  | some c =>
      obtain ⟨hkind, hbuilt⟩ := isRequest_of_request? hr
      by_cases hmode : h.services.mode = .answering <;> simp [hmode, hbuilt, hkind]
  | none => cases e.isBuiltIn <;> cases h.callbacks <;> simp [Call.isRequest]

/-- What callbacks see of what the caller is told. -/
theorem filterMap_event?_told (h : Host) (events : List Event) :
    (events.filterMap (told h)).filterMap Call.event? =
      if h.callbacks then events.filter (!·.isBuiltIn) else [] := by
  rw [List.filterMap_filterMap]
  simp only [event?_told]
  cases h.callbacks with
  | false => simp
  | true =>
      rw [← List.filterMap_eq_filter]
      simp [Option.guard_def]

/-- What services see of it. -/
theorem filter_isRequest_told (h : Host) (events : List Event) :
    (events.filterMap (told h)).filter Call.isRequest =
      if h.services.mode = .answering then events.filterMap request? else [] := by
  rw [List.filter_filterMap]
  simp only [isRequest_told]
  by_cases hmode : h.services.mode = .answering <;> simp [hmode]

end Event

/-! ## Configuration -/

namespace Scheduler
open Host

def configureOne (change : String × Option Value) (s : Scheduler) (h : Host) : Scheduler × Host :=
  match change with
  | (path, some value) => (s.set path value h).2
  | (path, none) => (s.unset path h).2

def configure : List (String × Option Value) → Scheduler → Host → Scheduler × Host
  | [], s, h => (s, h)
  | change :: rest, s, h =>
    let (s, h) := s.configureOne change h
    configure rest s h

theorem configureOne_bare (change : String × Option Value) (s : Scheduler) (h : Host) :
    s.configureOne change h.bare = Prod.map id bare (s.configureOne change h) := by
  obtain ⟨path, value⟩ := change
  cases value with
  | some value => exact congrArg Prod.snd (set_bare path value s h)
  | none => exact congrArg Prod.snd (unset_bare path s h)

theorem configure_bare (changes : List (String × Option Value)) (s : Scheduler) (h : Host) :
    s.configure changes h.bare = Prod.map id bare (s.configure changes h) := by
  induction changes generalizing s h with
  | nil => rfl
  | cons change rest ih =>
      unfold configure
      rw [configureOne_bare]
      exact ih _ _

theorem configure_append (changes more : List (String × Option Value)) (s : Scheduler) (h : Host) :
    s.configure (changes ++ more) h =
      (s.configure changes h).1.configure more (s.configure changes h).2 := by
  induction changes generalizing s h with
  | nil => rfl
  | cons change rest ih => exact ih _ _

end Scheduler

/-! ## Delivery -/

namespace Host

/-- What does not depend on the caller's part is the same on hosts that are the same but for it. -/
theorem alike_of_bare {α : Type} {f : Host → α × Host}
    (hf : ∀ h, f h.bare = Prod.map id bare (f h)) {h h' : Host} (halike : h.bare = h'.bare) :
    (f h).1 = (f h').1 ∧ (f h).2.bare = (f h').2.bare :=
  bareView.alike hf halike

theorem callBack_bare (e : Event) (h : Host) : (h.callBack e).bare = h.bare := by
  unfold callBack
  split
  · simp [record, bare, Call.isCallers]
  · rfl

theorem serve_bare {c : Call} (hc : c.isCallers = true) (h : Host) : (h.serve c).2.bare = h.bare := by
  unfold serve
  split
  · simp [record, bare, hc]
  · rfl

theorem requestFailed_bare (r : Outcome) (route : Route) (target : Endpoint) (h : Host) :
    (h.noteFailure r (.requestFailed route target)).bare = h.bare := by
  cases r with
  | ok => rfl
  | error f => simp [noteFailure, note, bare, Notice.isRequestFailure]

end Host

namespace Device
open Host

/-- A request of services is no matter of the device. -/
theorem serve_request {e : Event} (he : e.config? = none) (hroute : (Route.ofEvent? e).isSome)
    (d : Device) (h : Host) : (d.serve e h).2.1 = d ∧ (d.serve e h).2.2.bare = h.bare := by
  cases e with
  | connected | disconnected => exact ⟨rfl, rfl⟩
  | individual target value =>
      unfold serve
      dsimp only
      split
      · split
        · exact ⟨rfl, rfl⟩
        · exact ⟨rfl, serve_bare rfl h⟩
      · split
        · exact ⟨rfl, rfl⟩
        · exact ⟨rfl, serve_bare rfl h⟩
  | object target fields => exact ⟨rfl, serve_bare rfl h⟩
  | propertySet target value =>
      rw [Event.isSome_route] at hroute
      simp_all [Event.config?, Event.isBuiltIn]
  | propertyUnset target =>
      rw [Event.isSome_route] at hroute
      simp_all [Event.config?, Event.isBuiltIn]

/-- An event changes the state and the configuration, and nothing else but the caller's part. -/
theorem receive_eq (e : Event) (d : Device) (h : Host) :
    (d.receive e h).1 =
        { d with
          state := stateAfter d.state e
          scheduler := (d.scheduler.configure e.config?.toList h).1 } ∧
      (d.receive e h).2.bare = (d.scheduler.configure e.config?.toList h).2.bare := by
  -- what does not concern the configuration is the caller's or a request, and only the news of the
  -- connection among it changes the state
  cases hconfig : e.config? with
  | none =>
      unfold receive
      cases hroute : Route.ofEvent? e with
      | none => exact ⟨rfl, callBack_bare e h⟩
      | some route =>
          have hserved := serve_request hconfig (by rw [hroute]; rfl) d h
          have hstate : stateAfter d.state e = d.state := by
            cases e with
            | connected | disconnected => cases hroute
            | individual | object | propertySet | propertyUnset => rfl
          dsimp only
          rw [requestFailed_bare, hserved.1, hserved.2, hstate]
          exact ⟨rfl, rfl⟩
  | some change =>
      cases e with
      | connected | disconnected | individual | object => cases hconfig
      | propertySet target value =>
          simp only [Event.config?] at hconfig
          split at hconfig
          · rename_i htarget
            have hroute : Route.ofEvent? (.propertySet target value) = some .telemetryConfig :=
              if_pos htarget
            cases hconfig
            unfold receive
            rw [hroute]
            exact ⟨rfl, requestFailed_bare _ _ _ _⟩
          · cases hconfig
      | propertyUnset target =>
          simp only [Event.config?] at hconfig
          split at hconfig
          · rename_i htarget
            have hroute : Route.ofEvent? (.propertyUnset target) = some .telemetryConfig :=
              if_pos htarget
            cases hconfig
            unfold receive
            rw [hroute]
            exact ⟨rfl, requestFailed_bare _ _ _ _⟩
          · cases hconfig

/-- What is delivered changes the state and the configuration, on any host that is the same but for
the caller's part. -/
theorem receiveAll_eq (events : List Event) (d : Device) {h h' : Host} (halike : h.bare = h'.bare) :
    (d.receiveAll events h).1 =
        { d with
          state := events.foldl stateAfter d.state
          scheduler := (d.scheduler.configure (events.filterMap Event.config?) h').1 } ∧
      (d.receiveAll events h).2.bare =
        (d.scheduler.configure (events.filterMap Event.config?) h').2.bare := by
  induction events generalizing d h h' with
  | nil => exact ⟨rfl, halike⟩
  | cons e rest ih =>
      obtain ⟨hdevice, hbare⟩ := receive_eq e d h
      obtain ⟨hscheduler, hconfigured⟩ :=
        alike_of_bare (Scheduler.configure_bare e.config?.toList d.scheduler) halike
      obtain ⟨hrest, hlast⟩ := ih (d.receive e h).1 (hbare.trans hconfigured)
      have hsplit : (e :: rest).filterMap Event.config? =
          e.config?.toList ++ rest.filterMap Event.config? := by
        cases hconfig : e.config? <;> simp [hconfig]
      rw [hsplit, Scheduler.configure_append, ← hscheduler]
      change (receiveAll rest (d.receive e h).1 (d.receive e h).2).1 = _ ∧
        (receiveAll rest (d.receive e h).1 (d.receive e h).2).2.bare = _
      rw [hrest, hlast, hdevice]
      exact ⟨rfl, rfl⟩

theorem since_serve (c : Call) (h : Host) :
    since h (h.serve c).2 = if h.services.mode = .answering then [c] else [] :=
  since_of_calls (serve_calls c h)

theorem filter_isCallers_of_scheduling {calls : List Call}
    (hcalls : ∀ c ∈ calls, c.isScheduling = true) : calls.filter Call.isCallers = [] :=
  List.filter_eq_nil_iff.mpr fun c hc => by
    have hkind := hcalls c hc
    cases c <;> first | exact Bool.false_ne_true | cases hkind

/-- A command is acceptable if it is the text that names it. -/
theorem command_of_value (value : Value) :
    value.text?.bind Command.ofName? = if value = .text "Reboot" then some .reboot else none := by
  cases value with
  | text s =>
      simp only [Value.text?, Option.bind_some, Command.ofName?, Value.text.injEq]
  | boolean | integer | longInteger | double => rfl

theorem serve_told (e : Event) (hbuilt : e.isBuiltIn = true) (d : Device) (h : Host) :
    (since h (d.serve e h).2.2).filter Call.isCallers = (e.told h).toList := by
  unfold Event.told
  rw [if_pos hbuilt]
  cases e with
  | connected | disconnected => cases hbuilt
  | individual target value =>
      have htarget : target = ⟨Interface.commands, "/request"⟩ ∨
          target = ⟨Interface.ledBehavior, "/indicator/behavior"⟩ := by
        simpa [Event.isBuiltIn] using hbuilt
      rcases htarget with rfl | rfl
      · have hroute : Route.ofIndividual? ⟨Interface.commands, "/request"⟩ = some .command := rfl
        simp only [serve, hroute, command_of_value, Event.request?, if_true]
        by_cases hvalue : value = .text "Reboot"
        · simp only [if_pos hvalue, since_serve]
          split <;> rfl
        · simp only [if_neg hvalue, since_self]
          split <;> rfl
      · have hroute : Route.ofIndividual? ⟨Interface.ledBehavior, "/indicator/behavior"⟩ =
            some .ledBehavior := by decide
        have hother : Endpoint.mk Interface.ledBehavior "/indicator/behavior" ≠
            ⟨Interface.commands, "/request"⟩ := by decide
        simp only [serve, hroute, Event.request?, if_neg hother, if_true]
        cases value.text? with
        | none =>
            dsimp only
            rw [since_self]
            split <;> rfl
        | some behavior =>
            dsimp only
            rw [since_serve]
            split <;> rfl
  | object target fields =>
      have htarget : target = ⟨Interface.otaRequest, "/request"⟩ := of_decide_eq_true hbuilt
      change (since h (h.serve _).2).filter _ = _
      rw [since_serve, Event.request?, if_pos htarget]
      split <;> rfl
  | propertySet target value =>
      have hscheduling : Schedules h (d.serve (.propertySet target value) h).2.2 :=
        Scheduler.set_schedules _ _ _ h
      rw [filter_isCallers_of_scheduling hscheduling.sort]
      split <;> rfl
  | propertyUnset target =>
      have hscheduling : Schedules h (d.serve (.propertyUnset target) h).2.2 :=
        Scheduler.unset_schedules _ _ h
      rw [filter_isCallers_of_scheduling hscheduling.sort]
      split <;> rfl

/-- The caller is told of an event at once. -/
theorem receive_told (e : Event) (d : Device) (h : Host) :
    (since h (d.receive e h).2).filter Call.isCallers = (e.told h).toList := by
  have hbuilt := Event.isSome_route e
  unfold receive
  cases hroute : Route.ofEvent? e with
  | none =>
      rw [hroute] at hbuilt
      dsimp only
      rw [since_of_calls (callBack_calls e h), Event.told, ← hbuilt]
      cases h.callbacks <;> rfl
  | some route =>
      rw [hroute] at hbuilt
      have hserved := serve_told e hbuilt.symm d h
      dsimp only
      rw [← hserved]
      unfold since
      rw [noteFailure_calls]

theorem receiveAll_told (events : List Event) (d : Device) (h : Host) :
    (since h (d.receiveAll events h).2).filter Call.isCallers = events.filterMap (Event.told h) := by
  induction events generalizing d h with
  | nil =>
      change (since h h).filter _ = []
      rw [since_self]
      rfl
  | cons e rest ih =>
      have hfirst := receive_serves e d h
      have hrest := receiveAll_serves rest (d.receive e h).1 (d.receive e h).2
      have htold := ih (d.receive e h).1 (d.receive e h).2
      rw [Event.told_of_sameCaller hfirst.toSameCaller] at htold
      change (since h (receiveAll rest (d.receive e h).1 (d.receive e h).2).2).filter _ = _
      rw [hfirst.since_trans hrest, List.filter_append, receive_told, htold, List.filterMap_cons]
      cases e.told h <;> rfl

/-- Only news of the connection changes the state. -/
theorem foldl_stateAfter_link (events : List Event) (s : DeviceState) :
    (events.filter Event.isLink).foldl stateAfter s = events.foldl stateAfter s := by
  rw [List.foldl_filter]
  congr
  funext s e
  cases e <;> rfl

/-- What is delivered in a poll: the state follows the news of the connection, and the scheduler is as
if it had been given the changes of its configuration alone. -/
theorem deliver_eq (session : Nat) (arrived : List Event) (d : Device) (h : Host) :
    let delivered := (h.pollSession session arrived).1
    let configured := d.scheduler.configure (delivered.filterMap Event.config?)
      (h.pollSession session arrived).2
    (d.deliver session arrived h).1 =
        { d with
          state := (delivered.filter Event.isLink).foldl stateAfter d.state
          scheduler := configured.1 } ∧
      (d.deliver session arrived h).2.bare = configured.2.bare := by
  obtain ⟨hdevice, hbare⟩ := receiveAll_eq (h.pollSession session arrived).1 d
    (h := (h.pollSession session arrived).2) rfl
  rw [← foldl_stateAfter_link] at hdevice
  exact ⟨hdevice, hbare⟩

theorem deliver_told (session : Nat) (arrived : List Event) (d : Device) (h : Host) :
    (since h (d.deliver session arrived h).2).filter Call.isCallers =
      (h.pollSession session arrived).1.filterMap (Event.told h) := by
  have hpoll : Makes (· = .sessionPoll session) h (h.pollSession session arrived).2 :=
    pollSession_makes session arrived (by rfl) h
  have hrest := receiveAll_serves (h.pollSession session arrived).1 d
    (h.pollSession session arrived).2
  unfold deliver
  dsimp only
  rw [hpoll.since_trans hrest, List.filter_append, receiveAll_told,
    Event.told_of_sameCaller hpoll.toSameCaller, since_of_calls (pollSession_calls session arrived h)]
  rfl

end Device

/-! ## Moves -/

namespace DeviceSystem
open Device Host

def heard (m : Device.Move) (x : DeviceSystem) : List Event :=
  match m, x.device.session with
  | .poll arrived _, some session =>
    if x.device.state = .stopped then [] else (x.host.pollSession session arrived).1
  | _, _ => []

def delivered : List Device.Move → DeviceSystem → List Event
  | [], _ => []
  | m :: rest, x => x.heard m ++ delivered rest (x.step m)

theorem filter_isCallers_of_publishing {calls : List Call}
    (hcalls : ∀ c ∈ calls, c.isPublish = true) : calls.filter Call.isCallers = [] :=
  List.filter_eq_nil_iff.mpr fun c hc => by
    have hkind := hcalls c hc
    cases c <;> first | exact Bool.false_ne_true | cases hkind

theorem heard_of_session {session : Nat} {x : DeviceSystem} (hstate : x.device.state ≠ .stopped)
    (hsession : x.device.session = some session) (arrived : List Event)
    (failure : Option SessionFault) :
    x.heard (.poll arrived failure) = (x.host.pollSession session arrived).1 := by
  simp only [heard, hsession, if_neg hstate]

theorem heard_of_idle {x : DeviceSystem} (hidle : x.device.state = .stopped ∨ x.device.session = none)
    (arrived : List Event) (failure : Option SessionFault) :
    x.heard (.poll arrived failure) = [] := by
  unfold heard
  cases hsession : x.device.session with
  | none => rfl
  | some session =>
      rw [hsession] at hidle
      exact if_pos (hidle.resolve_right (Option.some_ne_none session))

/-- The caller is told of the events that a poll delivers, and of nothing else. -/
theorem made_told (m : Device.Move) (x : DeviceSystem) :
    (x.made m).filter Call.isCallers = (x.heard m).filterMap (Event.told x.host) := by
  cases m with
  | start =>
      have hcases := start_cases x.device x.host
      change (since x.host (x.device.start x.host).2.2).filter Call.isCallers = []
      generalize since x.host (x.device.start x.host).2.2 = calls,
        x.device.connections x.host = sessions, (x.device.start x.host).2.1 = d',
        (x.device.start x.host).2.2.sessions.opened = opened' at hcases
      cases hcases <;> rfl
  | poll arrived failure =>
      have hcases := poll_parts arrived failure x.device x.host
      change (since x.host (x.device.poll arrived failure x.host).2.2).filter Call.isCallers = _
      generalize (x.device.poll arrived failure x.host).1 = r,
        (x.device.poll arrived failure x.host).2.1 = d',
        (x.device.poll arrived failure x.host).2.2 = h' at hcases
      cases hcases with
      | refused hidle =>
          rw [since_self, heard_of_idle hidle]
          rfl
      | failed hstate hsession =>
          rw [heard_of_session hstate hsession]
          exact deliver_told _ arrived x.device x.host
      | offline hstate hsession =>
          rw [heard_of_session hstate hsession]
          exact deliver_told _ arrived x.device x.host
      | @online session _ _ _ hstate hsession _ _ hservice =>
          obtain ⟨-, -, hburst, hstart⟩ := parts_of_service hservice
          rw [heard_of_session hstate hsession, since_online hservice, List.filter_append,
            List.filter_append, filter_isCallers_of_scheduling hstart.sort,
            filter_isCallers_of_publishing fun c hc => (hburst.sort c hc).1,
            List.append_nil, List.append_nil]
          exact deliver_told session arrived x.device x.host
  | battery b =>
      have hmakes := publishBattery_makes b x.device x.host
      refine filter_isCallers_of_publishing fun c hc => ?_
      obtain ⟨-, _, -, hpublish, -⟩ := hmakes.sort c hc
      exact hpublish.1
  | stop timeoutMillis meanwhile =>
      obtain ⟨hhalt, hmade⟩ := made_stop timeoutMillis meanwhile x
      change _ = []
      rw [hmade, List.filter_append, filter_isCallers_of_scheduling hhalt.sort, List.nil_append]
      split <;> rfl
  | ambient a => rfl

end DeviceSystem
end TelemetryAgent
