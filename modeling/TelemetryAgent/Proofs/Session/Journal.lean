import Mathlib.Data.List.DropRight
import Mathlib.Data.List.Induction
import TelemetryAgent.Session.Journal

/-!
# What a session with a journal delivers

Every event that is injected is delivered by the next poll, whatever becomes of the connection in
the meantime. A connection that was asked for is confirmed by the next poll, unless it is given up
before, and it stands until it is given up or a disconnection is delivered.
-/
namespace TelemetryAgent

inductive JournalAction
  | connect
  | disconnect
  | inject (e : Event)
  | poll
deriving DecidableEq

namespace Event

/-- Everything but a confirmation, which is the session's own. -/
def isInbound : Event → Bool
  | connected _ => false
  | _ => true

/-- Whether an event that is delivered says that the connection stands, if it says so or not. -/
def standing? : Event → Option Bool
  | connected _ => some true
  | disconnected => some false
  | _ => none

end Event

namespace JournalAction

def injected? : JournalAction → Option Event
  | inject e => if e.isInbound then some e else none
  | _ => none

def injected (history : List JournalAction) : List Event := history.filterMap injected?

def sincePoll (history : List JournalAction) : List JournalAction :=
  history.rtakeWhile (· ≠ poll)

/-- A connect was called since the last poll, with no disconnect after the last such connect. -/
def Asked (history : List JournalAction) : Prop :=
  ∃ earlier later, sincePoll history = earlier ++ connect :: later ∧
    connect ∉ later ∧ disconnect ∉ later

variable {history : List JournalAction} {a : JournalAction} {e : Event}

@[simp] theorem sincePoll_poll : sincePoll (history ++ [poll]) = [] :=
  List.rtakeWhile_concat_neg _ history poll (by simp)

theorem sincePoll_concat (ha : a ≠ poll) :
    sincePoll (history ++ [a]) = sincePoll history ++ [a] :=
  List.rtakeWhile_concat_pos _ history a (by simpa using ha)

theorem injected_append (earlier later : List JournalAction) :
    injected (earlier ++ later) = injected earlier ++ injected later :=
  List.filterMap_append

theorem not_connected_mem_injected (sessionPresent : Bool) :
    .connected sessionPresent ∉ injected history := by
  intro h
  obtain ⟨a, -, ha⟩ := List.mem_filterMap.mp h
  cases a with
  | inject e =>
      obtain ⟨hinbound, he⟩ := Option.ite_none_right_eq_some.mp ha
      cases Option.some.inj he
      cases hinbound
  | connect | disconnect | poll => cases ha

theorem asked_connect : Asked (history ++ [connect]) :=
  ⟨sincePoll history, [], sincePoll_concat nofun, List.not_mem_nil, List.not_mem_nil⟩

theorem not_asked_nil : ¬ Asked [] := by
  rintro ⟨earlier, later, h, -, -⟩
  simp [sincePoll] at h

theorem not_asked_poll : ¬ Asked (history ++ [poll]) := by
  rintro ⟨earlier, later, h, -, -⟩
  simp at h

/-- Without a poll or another connect, only a disconnect takes back what was asked for. -/
theorem asked_concat (hpoll : a ≠ poll) (hconnect : a ≠ connect) :
    Asked (history ++ [a]) ↔ Asked history ∧ a ≠ disconnect := by
  unfold Asked
  rw [sincePoll_concat hpoll]
  constructor
  · rintro ⟨earlier, later, heq, hnoconnect, hnodisconnect⟩
    rcases List.eq_nil_or_concat later with rfl | ⟨later, last, rfl⟩
    · exact (hconnect (List.cons.inj (List.append_inj' heq rfl).2).1).elim
    · have hsplit : sincePoll history ++ [a] = (earlier ++ connect :: later) ++ [last] := by
        simpa using heq
      obtain ⟨hsince, hlast⟩ := List.append_inj' hsplit rfl
      obtain ⟨rfl, -⟩ := List.cons.inj hlast
      simp only [List.concat_eq_append, List.mem_append, List.mem_singleton, not_or]
        at hnoconnect hnodisconnect
      exact ⟨⟨earlier, later, hsince, hnoconnect.1, hnodisconnect.1⟩,
        fun h => hnodisconnect.2 h.symm⟩
  · rintro ⟨⟨earlier, later, heq, hnoconnect, hnodisconnect⟩, hdisconnect⟩
    refine ⟨earlier, later ++ [a], by simp [heq], ?_, ?_⟩
    · simpa [hnoconnect] using hconnect.symm
    · simpa [hnodisconnect] using hdisconnect.symm

end JournalAction

open JournalAction

/-- A call, or a callback that a poll makes. -/
inductive JournalOccurrence
  | called (a : JournalAction)
  | delivered (e : Event)
deriving DecidableEq

namespace JournalOccurrence

def delivered? : JournalOccurrence → Option Event
  | called _ => none
  | delivered e => some e

def standing? : JournalOccurrence → Option Bool
  | called .disconnect => some false
  | called _ => none
  | delivered e => e.standing?

def deliveries (trace : List JournalOccurrence) : List Event := trace.filterMap delivered?

def lastStanding? (trace : List JournalOccurrence) : Option Bool :=
  (trace.filterMap standing?).getLast?

variable {trace : List JournalOccurrence} {events : List Event}

theorem deliveries_append (earlier later : List JournalOccurrence) :
    deliveries (earlier ++ later) = deliveries earlier ++ deliveries later :=
  List.filterMap_append

theorem deliveries_map_delivered : deliveries (events.map delivered) = events := by
  unfold deliveries
  rw [List.filterMap_map]
  exact List.filterMap_some

theorem lastStanding?_append (earlier later : List JournalOccurrence) :
    lastStanding? (earlier ++ later) = (lastStanding? later).or (lastStanding? earlier) := by
  unfold lastStanding?
  rw [List.filterMap_append, List.getLast?_append]

theorem lastStanding?_poll : lastStanding? (called .poll :: events.map delivered) =
    (events.filterMap Event.standing?).getLast? := by
  unfold lastStanding?
  rw [List.filterMap_cons_none rfl, List.filterMap_map]
  rfl

end JournalOccurrence

open JournalOccurrence

namespace Journal

variable {j : Journal} {e : Event} {events : List Event}

/-- The callbacks that an action makes, and the session afterwards. -/
def act (a : JournalAction) (j : Journal) : List Event × Journal :=
  match a with
  | .connect => ([], j.connect.1)
  | .disconnect => ([], j.disconnect.1)
  | .inject e => ([], j.inject e)
  | .poll => j.poll

theorem inject_eq : j.inject e = { j with inbound := j.inbound ++ injected [.inject e] } := by
  cases e <;> simp [inject, injected, injected?, Event.isInbound]

/-- The flag after inbound events is what the last of them says, if any says something. -/
theorem foldl_afterEvent (hinbound : ∀ e ∈ events, e.isInbound = true) (connected : Bool) :
    events.foldl afterEvent connected =
      ((events.filterMap Event.standing?).getLast?).getD connected := by
  induction events generalizing connected with
  | nil => rfl
  | cons e rest ih =>
      have hrest := ih fun e he => hinbound e (List.mem_cons_of_mem _ he)
      have he := hinbound e List.mem_cons_self
      rw [List.foldl_cons, hrest]
      cases e with
      | connected => cases he
      | disconnected => simp [Event.standing?, afterEvent, List.getLast?_cons]
      | individual | object | propertySet | propertyUnset => rfl

/-- A poll delivers the whole queue. -/
theorem filter_poll (hinbound : ∀ e ∈ j.inbound, e.isInbound = true) :
    j.poll.1.filter Event.isInbound = j.inbound := by
  have hqueue := List.filter_eq_self.mpr hinbound
  simp only [poll]
  cases j.connecting with
  | false => exact hqueue
  | true => exact hqueue

theorem poll_connected (hinbound : ∀ e ∈ j.inbound, e.isInbound = true) :
    j.poll.2.connected = ((j.poll.1.filterMap Event.standing?).getLast?).getD j.connected := by
  simp only [poll]
  rw [foldl_afterEvent hinbound]
  cases j.connecting with
  | false => simp
  | true => simp [Event.standing?, List.getLast?_cons]

end Journal

/-- A session, with what was done with it and what it has delivered. -/
structure JournalRun where
  journal : Journal := {}
  trace : List JournalOccurrence := []

namespace JournalRun

variable {r : JournalRun} {history : List JournalAction}

def act (r : JournalRun) (a : JournalAction) : JournalRun :=
  let (events, journal) := r.journal.act a
  { journal, trace := r.trace ++ .called a :: events.map .delivered }

def after (history : List JournalAction) : JournalRun := history.foldl act {}

/-- The session remembers of a history what the next poll has to tell. -/
structure Sound (history : List JournalAction) (r : JournalRun) : Prop where
  asked : r.journal.connecting = true ↔ Asked history
  inbound : r.journal.inbound = injected (sincePoll history)
  conserved : (deliveries r.trace).filter Event.isInbound ++ injected (sincePoll history) =
    injected history
  standing : r.journal.connected = (lastStanding? r.trace).getD false

theorem Sound.isInbound (hr : r.Sound history) :
    ∀ e ∈ r.journal.inbound, e.isInbound = true := by
  intro e he
  rw [hr.inbound] at he
  cases e with
  | connected present => exact (not_connected_mem_injected present he).elim
  | _ => rfl

/-- A call other than a poll delivers nothing, and may inject. -/
theorem Sound.conserved_concat {a : JournalAction} (hr : r.Sound history) (ha : a ≠ .poll) :
    (deliveries (r.trace ++ [.called a])).filter Event.isInbound ++
      injected (sincePoll (history ++ [a])) = injected (history ++ [a]) := by
  have hnone : deliveries [.called a] = [] := rfl
  rw [deliveries_append, hnone, List.append_nil, sincePoll_concat ha, injected_append,
    injected_append, ← List.append_assoc, hr.conserved]

theorem Sound.connect (hr : r.Sound history) : (r.act .connect).Sound (history ++ [.connect]) where
  asked := iff_of_true rfl asked_connect
  inbound := by
    rw [sincePoll_concat (a := .connect) nofun, injected_append, ← hr.inbound]
    exact (List.append_nil _).symm
  conserved := hr.conserved_concat nofun
  standing := by
    simp only [act]
    rw [lastStanding?_append]
    exact hr.standing

theorem Sound.disconnect (hr : r.Sound history) :
    (r.act .disconnect).Sound (history ++ [.disconnect]) where
  asked := iff_of_false nofun fun h =>
    ((asked_concat (a := .disconnect) nofun nofun).mp h).2 rfl
  inbound := by
    rw [sincePoll_concat (a := .disconnect) nofun, injected_append, ← hr.inbound]
    exact (List.append_nil _).symm
  conserved := hr.conserved_concat nofun
  standing := by
    simp only [act]
    rw [lastStanding?_append]
    rfl

theorem Sound.inject (hr : r.Sound history) (e : Event) :
    (r.act (.inject e)).Sound (history ++ [.inject e]) where
  asked := by
    rw [asked_concat (a := .inject e) nofun nofun, and_iff_left nofun, ← hr.asked]
    simp only [act, Journal.act, Journal.inject_eq]
  inbound := by
    rw [sincePoll_concat (a := .inject e) nofun, injected_append, ← hr.inbound]
    simp only [act, Journal.act, Journal.inject_eq]
  conserved := hr.conserved_concat nofun
  standing := by
    simp only [act, Journal.act, Journal.inject_eq]
    rw [lastStanding?_append]
    exact hr.standing

theorem Sound.poll (hr : r.Sound history) : (r.act .poll).Sound (history ++ [.poll]) where
  asked := iff_of_false nofun not_asked_poll
  inbound := by
    rw [sincePoll_poll]
    rfl
  conserved := by
    have hnew : deliveries (.called .poll :: r.journal.poll.1.map .delivered) =
        r.journal.poll.1 := deliveries_map_delivered
    have hinjected : injected (history ++ [.poll]) = injected history := by
      rw [injected_append]
      exact List.append_nil _
    simp only [act, Journal.act]
    rw [deliveries_append, hnew, List.filter_append, Journal.filter_poll hr.isInbound, hr.inbound,
      hr.conserved, sincePoll_poll, hinjected]
    exact List.append_nil _
  standing := by
    simp only [act, Journal.act]
    rw [Journal.poll_connected hr.isInbound, lastStanding?_append, lastStanding?_poll,
      hr.standing, Option.getD_or]

theorem sound_after (history : List JournalAction) : (after history).Sound history := by
  induction history using List.reverseRecOn with
  | nil => exact ⟨iff_of_false nofun not_asked_nil, rfl, rfl, rfl⟩
  | append_singleton history a ih =>
      unfold after
      rw [List.foldl_append]
      cases a with
      | connect => exact ih.connect
      | disconnect => exact ih.disconnect
      | inject e => exact ih.inject e
      | poll => exact ih.poll

/-- A poll makes one confirmation if a connection was asked for, and then delivers what was injected
since the last poll. So every injected event is delivered once, in order. The session is connected
exactly if the last that was said about the connection is a confirmation. -/
theorem deliveries_after (history : List JournalAction) :
    let r := after history
    (Asked history ∧ r.journal.poll.1 = .connected false :: injected (sincePoll history) ∨
      ¬ Asked history ∧ r.journal.poll.1 = injected (sincePoll history)) ∧
    (∀ sessionPresent, .connected sessionPresent ∉ injected (sincePoll history)) ∧
    (deliveries r.trace).filter Event.isInbound ++ injected (sincePoll history) =
      injected history ∧
    (r.journal.connected = true ↔ lastStanding? r.trace = some true) := by
  intro r
  have hr : r.Sound history := sound_after history
  refine ⟨?_, fun _ => not_connected_mem_injected _, hr.conserved, ?_⟩
  · simp only [Journal.poll]
    rw [hr.inbound, ← hr.asked]
    cases r.journal.connecting with
    | false => exact .inr ⟨nofun, rfl⟩
    | true => exact .inl ⟨rfl, rfl⟩
  · rw [hr.standing]
    cases lastStanding? r.trace with
    | none => exact iff_of_false nofun nofun
    | some standing => exact Option.some_inj.symm

example : (after [.connect, .inject .disconnected, .poll, .disconnect, .connect, .poll]).trace =
    [.called .connect, .called (.inject .disconnected),
      .called .poll, .delivered (.connected false), .delivered .disconnected,
      .called .disconnect, .called .connect, .called .poll, .delivered (.connected false)] := by
  decide

end JournalRun
end TelemetryAgent
