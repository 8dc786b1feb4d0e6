import TelemetryAgent.Proofs.Device.Lifecycle

/-!
# The protocol of a session

What a device says on its sessions in the context of its caller. A session is opened and connected;
if that succeeds it is polled and published on any number of times and then disconnected, once and
for good. The next one is opened after that. A device that goes away releases its timers and, unless
telemetry does not stop in time, leaves no session connected.
-/
namespace TelemetryAgent

/-! ## Words -/

namespace Call

/-- A session in use: it is polled, or published on. -/
def IsUse (p : Nat) (c : Call) : Prop := c = .sessionPoll p ∨ (c.isPublish = true ∧ c.session? = some p)

def disconnects (p : Nat) : Call → Bool
  | sessionDisconnect q _ => q == p
  | _ => false

theorem IsUse.session {p : Nat} {c : Call} (hc : c.IsUse p) : c.session? = some p := by
  rcases hc with rfl | ⟨-, hsession⟩
  · rfl
  · exact hsession

theorem IsUse.not_disconnects {p : Nat} {c : Call} (hc : c.IsUse p) (q : Nat) :
    c.disconnects q = false := by
  rcases hc with rfl | ⟨hpublish, -⟩
  · rfl
  · cases c <;> first | rfl | cases hpublish

theorem disconnects_iff {p : Nat} {c : Call} :
    c.disconnects p = true ↔ ∃ timeoutMillis, c = .sessionDisconnect p timeoutMillis := by
  cases c <;> simp [disconnects]

def said (p : Nat) (calls : List Call) : List Call := calls.filter fun c => c.session? == some p

end Call

inductive Stage
  | unopened | unconnected | held | left
deriving DecidableEq

/-- What is said on the session `p` on its way. An open that fails leaves its number to the next
one, so that a word may begin with any number of them. -/
inductive Word (p : Nat) : Stage → List Call → Prop
  | silent : Word p .unopened []
  | refused {w : List Call} : Word p .unopened w → Word p .unopened (w ++ [.sessionOpen p])
  | unconnected {w : List Call} : Word p .unopened w →
      Word p .unconnected (w ++ [.sessionOpen p, .sessionConnect p])
  | connected {w : List Call} : Word p .unopened w →
      Word p .held (w ++ [.sessionOpen p, .sessionConnect p])
  | used {w : List Call} {c : Call} : Word p .held w → c.IsUse p → Word p .held (w ++ [c])
  | left {w : List Call} (timeoutMillis : Nat) : Word p .held w →
      Word p .left (w ++ [.sessionDisconnect p timeoutMillis])

namespace Word

variable {p : Nat} {w : List Call} {stage : Stage}

theorem usedAll (hw : Word p .held w) {uses : List Call} (huses : ∀ c ∈ uses, c.IsUse p) :
    Word p .held (w ++ uses) := by
  induction uses generalizing w with
  | nil =>
      rw [List.append_nil]
      exact hw
  | cons c rest ih =>
      rw [← List.singleton_append, ← List.append_assoc]
      exact ih (hw.used (huses c List.mem_cons_self)) fun d hd => huses d (List.mem_cons_of_mem c hd)

/-- A session is disconnected once, if it has been left, and otherwise never. -/
theorem countP_disconnects (hw : Word p stage w) :
    w.countP (Call.disconnects p) = if stage = .left then 1 else 0 := by
  induction hw with
  | silent => rfl
  | refused _ ih => rw [List.countP_append, ih]; rfl
  | unconnected _ ih => rw [List.countP_append, ih]; rfl
  | connected _ ih => rw [List.countP_append, ih]; rfl
  | used _ huse ih =>
      rw [List.countP_append, ih, List.countP_singleton, huse.not_disconnects p]
      rfl
  | left timeoutMillis _ ih =>
      rw [List.countP_append, ih, List.countP_singleton]
      simp [Call.disconnects]

end Word

/-- How far the session `p` has come, if `opened` sessions have been opened, `sessions` are those
that have been connected, and `held` is the one that the device holds. -/
def stageOf (opened : Nat) (held : Option Nat) (sessions : List Nat) (p : Nat) : Stage :=
  if p ∈ sessions then if held = some p then .held else .left
  else if p < opened then .unconnected else .unopened

/-! ## What a move says -/

/-- What can be done with sessions at a time: the calls, the sessions that they connect, and what
they leave of the number of sessions and of the one that is held. -/
inductive Deed (opened : Nat) (held : Option Nat) : List Call → List Nat → Nat → Option Nat → Prop
  | nothing {calls : List Call} : (∀ c ∈ calls, c.session? = none) →
      Deed opened held calls [] opened held
  | refused : held = none → Deed opened held [.sessionOpen opened] [] opened none
  | unconnected : held = none →
      Deed opened held [.sessionOpen opened, .sessionConnect opened] [] (opened + 1) none
  | connected : held = none →
      Deed opened held [.sessionOpen opened, .sessionConnect opened] [opened] (opened + 1)
        (some opened)
  | used {p : Nat} {calls : List Call} : held = some p →
      (∀ c ∈ calls, c.session? = none ∨ c.IsUse p) → Deed opened held calls [] opened held
  | left {p : Nat} {calls : List Call} (timeoutMillis : Nat) : held = some p →
      (∀ c ∈ calls, c.session? = none) →
      Deed opened held (calls ++ [.sessionDisconnect p timeoutMillis]) [] opened none

/-- What has been said so far is a word on every session from number `base` on. -/
structure Spoken (base opened : Nat) (held : Option Nat) (calls : List Call) (sessions : List Nat) :
    Prop where
  base_le : base ≤ opened
  mem_of_held : ∀ p, held = some p → p ∈ sessions
  range : ∀ p ∈ sessions, base ≤ p ∧ p < opened
  word : ∀ p, base ≤ p → Word p (stageOf opened held sessions p) (Call.said p calls)

namespace Spoken
open Call

variable {base opened opened' : Nat} {held held' : Option Nat} {calls new : List Call}
  {sessions fresh : List Nat}

theorem said_append (p : Nat) (calls new : List Call) :
    said p (calls ++ new) = said p calls ++ said p new := List.filter_append ..

theorem said_eq_nil {p : Nat} (hother : ∀ c ∈ new, c.session? ≠ some p) : said p new = [] :=
  List.filter_eq_nil_iff.mpr fun c hc => by simpa using hother c hc

theorem said_eq_self {p : Nat} (new : List Call) (hown : ∀ c ∈ new, c.session? = some p) :
    said p new = new :=
  List.filter_eq_self.mpr fun c hc => by simpa using hown c hc

/-- A session of which nothing is said stays where it is. -/
theorem word_other (hs : Spoken base opened held calls sessions) {p : Nat} (hp : base ≤ p)
    (hother : ∀ c ∈ new, c.session? ≠ some p) :
    Word p (stageOf opened held sessions p) (said p (calls ++ new)) := by
  rw [said_append, said_eq_nil hother, List.append_nil]
  exact hs.word p hp

theorem opened_not_mem (hs : Spoken base opened held calls sessions) : opened ∉ sessions :=
  fun hmem => Nat.lt_irrefl _ (hs.range opened hmem).2

/-- Nothing but opens that failed has been said on the session that comes next. -/
theorem word_next (hs : Spoken base opened held calls sessions) :
    Word opened .unopened (said opened calls) := by
  have hword := hs.word opened hs.base_le
  unfold stageOf at hword
  rwa [if_neg hs.opened_not_mem, if_neg (Nat.lt_irrefl _)] at hword

/-- Everything that has been said on the session that is held belongs to its use. -/
theorem word_held (hs : Spoken base opened held calls sessions) {p : Nat} (hheld : held = some p) :
    base ≤ p ∧ Word p .held (said p calls) := by
  have hmem := hs.mem_of_held p hheld
  have hp := (hs.range p hmem).1
  have hword := hs.word p hp
  unfold stageOf at hword
  rw [if_pos hmem, if_pos hheld] at hword
  exact ⟨hp, hword⟩

theorem stageOf_succ {p : Nat} (hp : p ≠ opened) :
    stageOf (opened + 1) held sessions p = stageOf opened held sessions p := by
  have hlt : p < opened + 1 ↔ p < opened := by omega
  simp only [stageOf, hlt]

theorem nothing (hs : Spoken base opened held calls sessions)
    (hnone : ∀ c ∈ new, c.session? = none) : Spoken base opened held (calls ++ new) sessions :=
  { hs with word := fun _ hp => hs.word_other hp fun c hc => by simp [hnone c hc] }

theorem refused (hs : Spoken base opened none calls sessions) :
    Spoken base opened none (calls ++ [.sessionOpen opened]) sessions := by
  refine { hs with word := fun p hp => ?_ }
  by_cases hnext : p = opened
  · subst hnext
    have hword := hs.word_next.refused
    unfold stageOf
    rw [if_neg hs.opened_not_mem, if_neg (Nat.lt_irrefl _), said_append]
    rwa [said_eq_self [.sessionOpen p] (by simp [session?])]
  · exact hs.word_other hp (by simpa [session?] using Ne.symm hnext)

theorem unconnected (hs : Spoken base opened none calls sessions) :
    Spoken base (opened + 1) none
      (calls ++ [.sessionOpen opened, .sessionConnect opened]) sessions := by
  refine ⟨Nat.le_succ_of_le hs.base_le, hs.mem_of_held, fun p hp => ?_, fun p hp => ?_⟩
  · exact ⟨(hs.range p hp).1, Nat.lt_succ_of_lt (hs.range p hp).2⟩
  · by_cases hnext : p = opened
    · subst hnext
      have hword := hs.word_next.unconnected
      unfold stageOf
      rw [if_neg hs.opened_not_mem, if_pos (Nat.lt_succ_self _), said_append]
      rwa [said_eq_self [.sessionOpen p, .sessionConnect p] (by simp [session?])]
    · rw [stageOf_succ hnext]
      exact hs.word_other hp (by simpa [session?] using Ne.symm hnext)

theorem connected (hs : Spoken base opened none calls sessions) :
    Spoken base (opened + 1) (some opened)
      (calls ++ [.sessionOpen opened, .sessionConnect opened]) (sessions ++ [opened]) := by
  have hmem : opened ∈ sessions ++ [opened] :=
    List.mem_append_right _ (List.mem_singleton.mpr rfl)
  refine ⟨Nat.le_succ_of_le hs.base_le, fun p hp => ?_, fun p hp => ?_, fun p hp => ?_⟩
  · cases hp
    exact hmem
  · rcases List.mem_append.mp hp with hold | hnew
    · exact ⟨(hs.range p hold).1, Nat.lt_succ_of_lt (hs.range p hold).2⟩
    · rw [List.mem_singleton.mp hnew]
      exact ⟨hs.base_le, Nat.lt_succ_self _⟩
  · -- the next session is connected now; the others stay where they are, as none was held
    by_cases hnext : p = opened
    · subst hnext
      have hword := hs.word_next.connected
      unfold stageOf
      rw [if_pos hmem, if_pos rfl, said_append]
      rwa [said_eq_self [.sessionOpen p, .sessionConnect p] (by simp [session?])]
    · have hstage : stageOf (opened + 1) (some opened) (sessions ++ [opened]) p =
          stageOf opened none sessions p := by
        rw [stageOf_succ hnext]
        simp [stageOf, hnext, Ne.symm hnext]
      rw [hstage]
      exact hs.word_other hp (by simpa [session?] using Ne.symm hnext)

theorem used {q : Nat} (hs : Spoken base opened (some q) calls sessions)
    (huses : ∀ c ∈ new, c.session? = none ∨ c.IsUse q) :
    Spoken base opened (some q) (calls ++ new) sessions := by
  refine { hs with word := fun p hp => ?_ }
  by_cases hsame : p = q
  · subst hsame
    have hword := (hs.word_held rfl).2
    have hown : ∀ c ∈ said p new, c.IsUse p := fun c hc => by
      obtain ⟨hmem, hsession⟩ := List.mem_filter.mp hc
      rcases huses c hmem with hnone | huse
      · simp [hnone] at hsession
      · exact huse
    unfold stageOf
    rw [if_pos (hs.mem_of_held p rfl), if_pos rfl, said_append]
    exact hword.usedAll hown
  · refine hs.word_other hp fun c hc => ?_
    rcases huses c hc with hnone | huse
    · simp [hnone]
    · rw [huse.session]
      exact fun heq => hsame (Option.some.inj heq).symm

theorem left {q : Nat} (hs : Spoken base opened (some q) calls sessions) (timeoutMillis : Nat) :
    Spoken base opened none (calls ++ [.sessionDisconnect q timeoutMillis]) sessions := by
  refine ⟨hs.base_le, fun p hp => (nomatch hp), hs.range, fun p hp => ?_⟩
  by_cases hsame : p = q
  · subst hsame
    have hword := (hs.word_held rfl).2.left timeoutMillis
    unfold stageOf
    rw [if_pos (hs.mem_of_held p rfl), if_neg (Option.some_ne_none p).symm, said_append]
    rwa [said_eq_self [.sessionDisconnect p timeoutMillis] (by simp [session?])]
  · have hstage : stageOf opened none sessions p = stageOf opened (some q) sessions p := by
      simp [stageOf, Ne.symm hsame]
    rw [hstage]
    exact hs.word_other hp (by simpa [session?] using Ne.symm hsame)

theorem deed (hs : Spoken base opened held calls sessions)
    (hd : Deed opened held new fresh opened' held') :
    Spoken base opened' held' (calls ++ new) (sessions ++ fresh) := by
  cases hd with
  | nothing hnone =>
      rw [List.append_nil]
      exact hs.nothing hnone
  | refused hheld =>
      subst hheld
      rw [List.append_nil]
      exact hs.refused
  | unconnected hheld =>
      subst hheld
      rw [List.append_nil]
      exact hs.unconnected
  | connected hheld =>
      subst hheld
      exact hs.connected
  | used hheld huses =>
      subst hheld
      rw [List.append_nil]
      exact hs.used huses
  | left timeoutMillis hheld hnone =>
      subst hheld
      rw [List.append_nil, ← List.append_assoc]
      exact (hs.nothing hnone).left timeoutMillis

/-- A session that is not held any more has been disconnected, once. -/
theorem disconnected (hs : Spoken base opened none calls sessions) {p : Nat} (hp : p ∈ sessions) :
    calls.countP (disconnects p) = 1 := by
  have hword := hs.word p (hs.range p hp).1
  unfold stageOf at hword
  rw [if_pos hp, if_neg (Option.some_ne_none p).symm] at hword
  have hcount := hword.countP_disconnects
  rw [if_pos rfl, said, List.countP_filter] at hcount
  rw [← hcount]
  refine List.countP_congr fun c _ => ?_
  cases c <;> simp [disconnects, session?]

end Spoken

/-! ## Moves -/

namespace DeviceSystem
open Device Host Scheduler

variable {base first opened : Nat} {x : DeviceSystem} {calls : List Call} {sessions : List Nat}

theorem isUse_of_publishesOn {p : Nat} {c : Call} (hc : c.PublishesOn p) :
    c.session? = none ∨ c.IsUse p := by
  cases hsession : c.session? with
  | none => exact .inl rfl
  | some q =>
      rw [hc.2 q hsession] at hsession
      exact .inr (.inr ⟨hc.1, hsession⟩)

/-- A poll opens no session and keeps the one that is held. -/
theorem poll_beside (arrived : List Event) (failure : Option SessionFault) (d : Device) (h : Host) :
    (d.poll arrived failure h).2.1.session = d.session ∧
      (d.poll arrived failure h).2.2.sessions.opened = h.sessions.opened := by
  have hcases := poll_cases arrived failure d h
  generalize (d.poll arrived failure h).2.1 = d', (d.poll arrived failure h).2.2 = h' at hcases ⊢
  cases hcases with
  | served hserved => exact ⟨hserved.session, hserved.work.opened⟩
  | @started d₁ h₁ session _ hserved =>
      exact ⟨hserved.session, (start_beside session d₁.scheduler h₁).1.trans hserved.work.opened⟩

/-- Every call of a poll on a session is a use of the session that is held. -/
theorem poll_uses {session : Nat} {d : Device} (hsession : d.session = some session)
    (arrived : List Event) (failure : Option SessionFault) (h : Host) :
    ∀ c ∈ since h (d.poll arrived failure h).2.2, c.session? = none ∨ c.IsUse session := by
  have hdeliver : ∀ p, d.session = some p →
      Makes (fun c => c.session? = none ∨ c.IsUse session) h (d.deliver p arrived h).2 := fun p hp => by
    cases hsession.symm.trans hp
    refine (deliver_makes session arrived d h).mono fun c hc => ?_
    rcases hc with rfl | hserves
    · exact .inr (.inl rfl)
    · exact .inl hserves.silent.1
  have hcases := poll_parts arrived failure d h
  generalize (d.poll arrived failure h).1 = r, (d.poll arrived failure h).2.1 = d',
    (d.poll arrived failure h).2.2 = h' at hcases ⊢
  cases hcases with
  | refused => exact (Makes.refl h).sort
  | failed _ hp => exact (hdeliver _ hp).sort
  | offline _ hp => exact (hdeliver _ hp).sort
  | @online p _ _ _ _ hp _ _ hservice =>
      obtain ⟨-, -, hburst, hstart⟩ := parts_of_service hservice
      refine ((hdeliver p hp).trans ((hburst.before hstart).mono fun c hc => ?_)).sort
      cases hsession.symm.trans hp
      rcases hc with hpublish | hscheduling
      · exact isUse_of_publishesOn hpublish
      · exact .inl (Call.session?_of_scheduling hscheduling)

theorem step_deed (hs : Settled base first x.device x.host) (m : Device.Move) :
    Deed x.host.sessions.opened x.device.session (x.made m) (x.connections m)
      (x.step m).host.sessions.opened (x.step m).device.session := by
  cases m with
  | start =>
      have hcases := start_cases x.device x.host
      change Deed _ _ (since x.host (x.device.start x.host).2.2) (x.device.connections x.host)
        (x.device.start x.host).2.2.sessions.opened (x.device.start x.host).2.1.session
      generalize since x.host (x.device.start x.host).2.2 = calls,
        x.device.connections x.host = sessions, (x.device.start x.host).2.1 = d',
        (x.device.start x.host).2.2.sessions.opened = opened' at hcases ⊢
      cases hcases with
      | already => exact .nothing fun c hc => (nomatch hc)
      | refused hstate =>
          have hnone := hs.stopped_iff.mp hstate
          rw [hnone]
          exact .refused rfl
      | unconnected hstate =>
          have hnone := hs.stopped_iff.mp hstate
          rw [hnone]
          exact .unconnected rfl
      | connected hstate => exact .connected (hs.stopped_iff.mp hstate)
  | poll arrived failure =>
      obtain ⟨hsession, hopened⟩ := poll_beside arrived failure x.device x.host
      change Deed _ _ (since x.host (x.device.poll arrived failure x.host).2.2) []
        (x.device.poll arrived failure x.host).2.2.sessions.opened
        (x.device.poll arrived failure x.host).2.1.session
      rw [hsession, hopened]
      cases hheld : x.device.session with
      | some p => exact .used rfl (poll_uses hheld arrived failure x.host)
      | none =>
          have hpoll : x.device.poll arrived failure x.host =
              (.error (.invalidState "device not started"), x.device, x.host) :=
            if_pos (hs.stopped_iff.mpr hheld)
          rw [hpoll]
          exact .nothing (Makes.refl x.host).sort
  | battery b =>
      have hmakes := publishBattery_makes b x.device x.host
      change Deed _ _ (since x.host (x.device.publishBattery b x.host).2) []
        (x.device.publishBattery b x.host).2.sessions.opened x.device.session
      rw [(publishBattery_traffic b x.device x.host).opened]
      cases hheld : x.device.session with
      | some p =>
          refine .used rfl fun c hc => ?_
          obtain ⟨-, q, hq, hpublish, -⟩ := hmakes.sort c hc
          cases hheld.symm.trans hq
          exact isUse_of_publishesOn hpublish
      | none =>
          refine .nothing fun c hc => ?_
          obtain ⟨-, q, hq, -⟩ := hmakes.sort c hc
          exact nomatch hheld.symm.trans hq
  | stop timeoutMillis meanwhile =>
      obtain ⟨hhalt, hmade⟩ := made_stop timeoutMillis meanwhile x
      obtain ⟨hdevice, htraffic⟩ := stop_device timeoutMillis meanwhile x
      have hopened : (x.stop timeoutMillis meanwhile).2.host.sessions.opened =
          x.host.sessions.opened :=
        htraffic.opened.trans (System.opened_stopWhile timeoutMillis meanwhile x.telemetry)
      have hsilent : ∀ c ∈ since x.host x.telemetry.halted.host, c.session? = none := fun c hc =>
        Call.session?_of_scheduling (hhalt.sort c hc)
      change Deed _ _ (x.made (.stop timeoutMillis meanwhile)) []
        (x.stop timeoutMillis meanwhile).2.host.sessions.opened
        (x.stop timeoutMillis meanwhile).2.device.session
      rw [hmade, hdevice, hopened]
      cases hstopped : (x.telemetry.stopWhile timeoutMillis meanwhile).1 with
      | error f =>
          dsimp only
          rw [List.append_nil, if_neg fun heq => nomatch heq]
          exact .nothing hsilent
      | ok =>
          rw [if_pos rfl]
          cases hheld : x.device.session with
          | none =>
              dsimp only
              rw [List.append_nil]
              exact .nothing hsilent
          | some p => exact .left timeoutMillis rfl hsilent
  | ambient a =>
      have hoff := System.happen_offstage a x.telemetry
      change Deed _ _ [] [] (x.telemetry.happen a).host.sessions.opened x.device.session
      rw [hoff.opened]
      exact .nothing fun c hc => (nomatch hc)

structure Protocol (base first opened : Nat) (calls : List Call) (sessions : List Nat)
    (x : DeviceSystem) : Prop where
  settled : Settled base first x.device x.host
  spoken : Spoken opened x.host.sessions.opened x.device.session calls sessions

theorem Protocol.step (hp : Protocol base first opened calls sessions x) (m : Device.Move) :
    Protocol base first opened (calls ++ x.made m) (sessions ++ x.connections m) (x.step m) :=
  ⟨settled_step hp.settled m, hp.spoken.deed (step_deed hp.settled m)⟩

theorem Protocol.run (hp : Protocol base first opened calls sessions x) (moves : List Device.Move) :
    Protocol base first opened (calls ++ x.record moves) (sessions ++ x.connected moves)
      (x.run moves) :=
  record_induction (p := Protocol base first opened) hp fun m _ _ _ _ hy => hy.step m

theorem Protocol.stop (hp : Protocol base first opened calls sessions x) (timeoutMillis : Nat)
    (meanwhile : List Ambient) :
    Protocol base first opened (calls ++ x.made (.stop timeoutMillis meanwhile)) sessions
      (x.stop timeoutMillis meanwhile).2 := by
  have hstep := hp.step (.stop timeoutMillis meanwhile)
  change Protocol base first opened _ (sessions ++ []) (x.stop timeoutMillis meanwhile).2 at hstep
  rwa [List.append_nil] at hstep

/-! ## Going away -/

/-- How the life of a device ends: the outcomes of the stops that are tried, the calls that are made,
and what is left. -/
structure Ending where
  attempts : List Outcome
  calls : List Call
  device : Device
  host : Host

/-- The device is dropped, with what happens while it waits for telemetry. -/
def drop (meanwhile : List Ambient) (x : DeviceSystem) : Ending :=
  if x.device.state = .stopped ∧ x.device.session = none then
    let h := x.device.scheduler.release x.host
    ⟨[], since x.host h, x.device, h⟩
  else
    let (r, y) := x.stop x.device.disconnectMillis meanwhile
    let h := y.host.noteFailure r .dropFailed
    let h' := y.device.scheduler.release h
    ⟨[r], x.made (.stop x.device.disconnectMillis meanwhile) ++ since h h', y.device, h'⟩

/-- The device is destroyed: it is stopped and then dropped, with what happens while the stop waits,
between the two, and while the drop waits. -/
def destroy (meanwhile between later : List Ambient) (x : DeviceSystem) : Ending :=
  let (r, y) := x.stop x.device.disconnectMillis meanwhile
  let z : DeviceSystem := { y with host := y.host.noteFailure r .destroyFailed }
  let e := (z.run (between.map .ambient)).drop later
  ⟨r :: e.attempts, x.made (.stop x.device.disconnectMillis meanwhile) ++ e.calls, e.device, e.host⟩

/-- Dropping and destroying while nothing else happens. -/
theorem drop_nil (x : DeviceSystem) : (x.drop []).host = x.device.release x.host := by
  unfold drop Device.release
  split <;> rfl

theorem destroy_nil (x : DeviceSystem) : (x.destroy [] [] []).host = x.device.destroy x.host :=
  drop_nil _

inductive Ends (x : DeviceSystem) : Ending → Prop
  | dropped (meanwhile : List Ambient) : Ends x (x.drop meanwhile)
  | destroyed (meanwhile between later : List Ambient) : Ends x (x.destroy meanwhile between later)

/-- Every timer of a scheduler that goes away is released. -/
theorem released_of_release {s : Scheduler} {h : Host} (hw : Wired first s h.bank) {i : Nat}
    {t : TimerState} (hi : first ≤ i) (ht : (s.release h).bank[i]? = some t) :
    t.released = true := by
  have hall : Wired first (s.disarmAll h).1 (s.disarmAll h).2.bank := hw.disarmEach Kind.schedulable
  cases hlive : t.released with
  | true => rfl
  | false =>
      obtain ⟨e, he, hei⟩ := hall.owned.held hi ht hlive
      cases hei.symm.trans (unarmed_of_halt (s := s) (h := h) he)

/-- A stop ends in time or is out of it. Unless it is out of it the session is given up. -/
theorem session_of_stop (timeoutMillis : Nat) (meanwhile : List Ambient) (x : DeviceSystem)
    (htime : (x.stop timeoutMillis meanwhile).1 ≠ .error .stopTimeout) :
    (x.stop timeoutMillis meanwhile).2.device.session = none := by
  have hresult : (x.stop timeoutMillis meanwhile).1 =
      (hangUp timeoutMillis (x.telemetry.stopWhile timeoutMillis meanwhile).1 _ _).1 := rfl
  have houtcome : (x.telemetry.stopWhile timeoutMillis meanwhile).1 = .ok () ∨
      (x.telemetry.stopWhile timeoutMillis meanwhile).1 = .error .stopTimeout :=
    await_outcome timeoutMillis _ _
  rw [(stop_device timeoutMillis meanwhile x).1]
  rcases houtcome with hok | hbusy
  · rw [if_pos hok]
  · rw [hbusy] at hresult
    exact (htime hresult).elim

structure Ended (base first : Nat) (calls : List Call) (sessions : List Nat) (e : Ending) :
    Prop where
  spoken : Spoken base e.host.sessions.opened e.device.session (calls ++ e.calls) sessions
  silent : ∀ c ∈ e.calls, c.isPublish = false
  released : ∀ (i : Nat) (t : TimerState), first ≤ i → e.host.bank[i]? = some t → t.released = true
  session : e.attempts = [] ∨ (∃ r ∈ e.attempts, r ≠ .error .stopTimeout) → e.device.session = none

/-- The scheduler goes with the device, and says nothing on a session. -/
theorem Ended.of_release {d : Device} {h : Host} {before : List Call} {attempts : List Outcome}
    (hw : Wired first d.scheduler h.bank)
    (hspoken : Spoken base h.sessions.opened d.session (calls ++ before) sessions)
    (hsilent : ∀ c ∈ before, c.isPublish = false)
    (hsession : attempts = [] ∨ (∃ r ∈ attempts, r ≠ .error .stopTimeout) → d.session = none) :
    Ended base first calls sessions
      ⟨attempts, before ++ since h (d.scheduler.release h), d, d.scheduler.release h⟩ := by
  have hrelease := release_schedules d.scheduler h
  have hopened : (d.scheduler.release h).sessions.opened = h.sessions.opened :=
    (halt_work d.scheduler h).opened
  refine ⟨?_, fun c hc => ?_, fun i t hi ht => released_of_release hw hi ht, hsession⟩
  · dsimp only
    rw [hopened, ← List.append_assoc]
    exact hspoken.nothing fun c hc => Call.session?_of_scheduling (hrelease.sort c hc)
  · rcases List.mem_append.mp hc with hc | hc
    · exact hsilent c hc
    · exact Call.not_publish_of_scheduling (hrelease.sort c hc)

/-- A stop publishes nothing. -/
theorem made_stop_silent (timeoutMillis : Nat) (meanwhile : List Ambient) (x : DeviceSystem) :
    ∀ c ∈ x.made (.stop timeoutMillis meanwhile), c.isPublish = false := by
  rcases publish_cases (.stop timeoutMillis meanwhile) x with ⟨b, hb⟩ | ⟨_, _, hb, -⟩ | ⟨hsilent, -⟩
  · cases hb
  · cases hb
  · exact hsilent

/-- A notice changes nothing that the protocol is about. -/
theorem Protocol.noteFailure (hp : Protocol base first opened calls sessions x) (r : Outcome)
    (n : Fault → Notice) :
    Protocol base first opened calls sessions { x with host := x.host.noteFailure r n } := by
  have ht := Host.noteFailure_traffic r n x.host
  refine ⟨{ hp.settled with
    unstaffed := fun hburst => (congrArg (·.workers.length) ht.tasks).trans
      (hp.settled.unstaffed hburst)
    wired := wired_of_traffic hp.settled.wired ht }, ?_⟩
  dsimp only
  rw [ht.opened]
  exact hp.spoken

theorem Protocol.drop (hp : Protocol base first opened calls sessions x) (meanwhile : List Ambient) :
    Ended opened first calls sessions (x.drop meanwhile) := by
  unfold DeviceSystem.drop
  split
  · rename_i hidle
    have hspoken := hp.spoken
    rw [← List.append_nil calls] at hspoken
    exact .of_release hp.settled.wired hspoken (fun c hc => nomatch hc) fun _ => hidle.2
  · have hstop := (hp.stop x.device.disconnectMillis meanwhile).noteFailure
      (x.stop x.device.disconnectMillis meanwhile).1 .dropFailed
    refine .of_release hstop.settled.wired hstop.spoken (made_stop_silent _ meanwhile x)
      fun htried => ?_
    rcases htried with hnone | ⟨r, hr, htime⟩
    · cases hnone
    · rw [List.mem_singleton.mp hr] at htime
      exact session_of_stop x.device.disconnectMillis meanwhile x htime

/-- Between two calls nothing is said. -/
theorem record_ambient (between : List Ambient) (x : DeviceSystem) :
    x.record (between.map .ambient) = [] ∧ x.connected (between.map .ambient) = [] ∧
      (x.run (between.map .ambient)).device.session = x.device.session := by
  induction between generalizing x with
  | nil => exact ⟨rfl, rfl, rfl⟩
  | cons a rest ih => exact ih (x.step (.ambient a))

/-- A device without a session is not stopped again when it is dropped. -/
theorem attempts_drop (hs : Settled base first x.device x.host) (hnone : x.device.session = none)
    (meanwhile : List Ambient) : (x.drop meanwhile).attempts = [] := by
  unfold drop
  rw [if_pos ⟨hs.stopped_iff.mpr hnone, hnone⟩]

theorem Protocol.destroy (hp : Protocol base first opened calls sessions x)
    (meanwhile between later : List Ambient) :
    Ended opened first calls sessions (x.destroy meanwhile between later) := by
  have hstop := (hp.stop x.device.disconnectMillis meanwhile).noteFailure
    (x.stop x.device.disconnectMillis meanwhile).1 .destroyFailed
  have hsilent := made_stop_silent x.device.disconnectMillis meanwhile x
  have hgiven := session_of_stop x.device.disconnectMillis meanwhile x
  unfold DeviceSystem.destroy
  dsimp only
  generalize x.made (.stop x.device.disconnectMillis meanwhile) = new at hstop hsilent ⊢
  generalize x.stop x.device.disconnectMillis meanwhile = stopped at hstop hgiven ⊢
  obtain ⟨r, y⟩ := stopped
  dsimp only at hstop hgiven ⊢
  obtain ⟨hrecord, hconnected, hkept⟩ := record_ambient between
    { y with host := y.host.noteFailure r .destroyFailed }
  have hbetween := hstop.run (between.map .ambient)
  rw [hrecord, hconnected, List.append_nil, List.append_nil] at hbetween
  generalize DeviceSystem.run (between.map .ambient) { y with host := y.host.noteFailure r .destroyFailed } = z
    at hbetween hkept ⊢
  have hdrop := hbetween.drop later
  refine ⟨?_, fun c hc => ?_, hdrop.released, fun htried => ?_⟩
  · rw [← List.append_assoc]
    exact hdrop.spoken
  · exact (List.mem_append.mp hc).elim (hsilent c) (hdrop.silent c)
  · rcases htried with hnone | ⟨q, hq, htime⟩
    · cases hnone
    · rcases List.mem_cons.mp hq with rfl | hq
      · -- the first stop has given up the session, and dropping finds nothing to stop
        have hidle := attempts_drop hbetween.settled (hkept.trans (hgiven htime)) later
        exact hdrop.session (.inl hidle)
      · exact hdrop.session (.inr ⟨q, hq, htime⟩)

theorem Protocol.ended (hp : Protocol base first opened calls sessions x) {e : Ending}
    (he : Ends x e) : Ended opened first calls sessions e := by
  cases he with
  | dropped meanwhile => exact hp.drop meanwhile
  | destroyed meanwhile between later => exact hp.destroy meanwhile between later

/-- A session is opened only while none is held. -/
theorem session_of_opens (hp : Protocol base first opened calls sessions x) {m : Device.Move}
    {q : Nat} (hopens : .sessionOpen q ∈ x.made m) : x.device.session = none := by
  have hdeed := step_deed hp.settled m
  generalize x.made m = new, x.connections m = fresh, (x.step m).host.sessions.opened = opened',
    (x.step m).device.session = held' at hdeed hopens
  cases hdeed with
  | nothing hnone => exact nomatch hnone _ hopens
  | refused hheld | unconnected hheld | connected hheld => exact hheld
  | used _ huses =>
      rcases huses _ hopens with hnone | huse
      · cases hnone
      · rcases huse with heq | ⟨hpublish, -⟩
        · cases heq
        · cases hpublish
  | left _ _ hnone =>
      rcases List.mem_append.mp hopens with hmem | hmem
      · exact nomatch hnone _ hmem
      · cases List.mem_singleton.mp hmem

/-- What is published in a move is published while the device is connected. -/
def PublishesConnected (m : Device.Move) (x : DeviceSystem) : Prop :=
  (∃ b, m = .battery b ∧ x.device.state = .connected) ∨
    ∃ arrived session, m = .poll arrived none ∧ Bursts session arrived x

theorem publishesConnected {m : Device.Move} {c : Call} (hc : c ∈ x.made m)
    (hpublish : c.isPublish = true) : PublishesConnected m x := by
  rcases publish_cases m x with ⟨b, rfl⟩ | hburst | ⟨hsilent, -⟩
  · obtain ⟨hconnected, -⟩ := (publishBattery_makes b x.device x.host).sort c hc
    exact .inl ⟨b, rfl, hconnected⟩
  · exact .inr hburst
  · exact nomatch (hsilent c hc).symm.trans hpublish

theorem protocol_of_create {c : Config} {h h₀ : Host} {d : Device}
    (hcreate : Device.create c h = (.ok d, h₀)) :
    Protocol h₀.tasks.workers.length h₀.bank.length h₀.sessions.opened [] [] ⟨d, h₀, []⟩ := by
  obtain ⟨-, hsession⟩ := of_create hcreate
  refine ⟨(lively_of_run hcreate []).settled, Nat.le_refl _, fun p hp => ?_,
    fun p hp => (nomatch hp), fun p hp => ?_⟩
  · exact nomatch hsession.symm.trans hp
  · have hstage : stageOf h₀.sessions.opened d.session [] p = .unopened := by
      simp [stageOf, Nat.not_lt.mpr hp]
    dsimp only
    rw [hstage]
    exact .silent

/-- At every moment of the life of a device, what has been said on each session of it in the context
of its caller is a word. A session is opened only after every one that has been connected has been
disconnected, and nothing is published unless the device is connected. However the device ends, what
is said then continues the words and publishes nothing, and all timers are released. Unless every
stop that is tried then times out, each session that has been connected has been disconnected, once. -/
theorem protocol_of_run {c : Config} {h h₀ : Host} {d : Device}
    (hcreate : Device.create c h = (.ok d, h₀)) (moves : List Device.Move) :
    let x := DeviceSystem.run moves ⟨d, h₀, []⟩
    let calls := record moves ⟨d, h₀, []⟩
    let sessions := connected moves ⟨d, h₀, []⟩
    (∀ p, h₀.sessions.opened ≤ p →
      Word p (stageOf x.host.sessions.opened x.device.session sessions p) (Call.said p calls)) ∧
    (∀ m q, .sessionOpen q ∈ x.made m →
      ∀ p ∈ sessions, ∃ timeoutMillis, .sessionDisconnect p timeoutMillis ∈ calls) ∧
    (∀ m, ∀ c ∈ x.made m, c.isPublish = true → PublishesConnected m x) ∧
    ∀ e, Ends x e →
      (∀ p, h₀.sessions.opened ≤ p →
        Word p (stageOf e.host.sessions.opened e.device.session sessions p)
          (Call.said p (calls ++ e.calls))) ∧
      (∀ c ∈ e.calls, c.isPublish = false) ∧
      (∀ (i : Nat) (t : TimerState), h₀.bank.length ≤ i → e.host.bank[i]? = some t →
        t.released = true) ∧
      (e.attempts = [] ∨ (∃ r ∈ e.attempts, r ≠ .error .stopTimeout) →
        ∀ p ∈ sessions, (calls ++ e.calls).countP (Call.disconnects p) = 1) := by
  intro x calls sessions
  have hp : Protocol h₀.tasks.workers.length h₀.bank.length h₀.sessions.opened calls sessions x :=
    (protocol_of_create hcreate).run moves
  refine ⟨hp.spoken.word, fun m q hopens p hmem => ?_,
    fun m c hc hpublish => publishesConnected hc hpublish, fun e he => ?_⟩
  · have hspoken := hp.spoken
    rw [session_of_opens hp hopens] at hspoken
    have hcount : 0 < calls.countP (Call.disconnects p) := by
      rw [hspoken.disconnected hmem]
      exact Nat.one_pos
    obtain ⟨c, hc, hdisconnects⟩ := List.countP_pos_iff.mp hcount
    obtain ⟨timeoutMillis, rfl⟩ := Call.disconnects_iff.mp hdisconnects
    exact ⟨timeoutMillis, hc⟩
  · have hended := hp.ended he
    refine ⟨hended.spoken.word, hended.silent, hended.released, fun htried p hmem => ?_⟩
    have hspoken := hended.spoken
    rw [hended.session htried] at hspoken
    exact hspoken.disconnected hmem

/-- A device fails to open its first session, to connect the second one, and to disconnect the third
one when it is dropped. -/
theorem protocol_after_failures :
    let network : Network :=
      { openFault := fun n => if n = 0 then some ⟨1⟩ else none
        connectFault := fun n => if n = 2 then some ⟨2⟩ else none
        disconnectFault := fun _ => some ⟨3⟩ }
    let moves : List Device.Move := [.start, .start, .start, .poll [] none]
    ∃ d h₀, Device.create { telemetry := [⟨.systemStatus, 10⟩] } { sessions := network } =
        (.ok d, h₀) ∧
      let x := DeviceSystem.run moves ⟨d, h₀, []⟩
      let calls := record moves ⟨d, h₀, []⟩
      (x.drop []).attempts = [.error (.transport ⟨3⟩)] ∧ connected moves ⟨d, h₀, []⟩ = [1] ∧
        Call.said 0 calls = [.sessionOpen 0, .sessionOpen 0, .sessionConnect 0] ∧
        Word 0 .unconnected (Call.said 0 calls) ∧
        (calls ++ (x.drop []).calls).countP (Call.disconnects 1) = 1 := by
  intro network moves
  refine ⟨_, _, rfl, ?_⟩
  obtain ⟨hwords, -, -, hends⟩ := protocol_of_run (c := { telemetry := [⟨.systemStatus, 10⟩] })
    (h := { sessions := network }) rfl moves
  obtain ⟨-, -, -, hcount⟩ := hends _ (.dropped [])
  exact ⟨by decide, by decide, by decide, hwords 0 (Nat.le_refl 0),
    hcount (.inr ⟨.error (.transport ⟨3⟩), by decide, by decide⟩) 1 (by decide)⟩

end DeviceSystem
end TelemetryAgent
