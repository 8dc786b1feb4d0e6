import TelemetryAgent.Proofs.Host.Calls
import TelemetryAgent.Proofs.Schedule.Writing

/-!
# Sections of calls

Calls in sections, one for each of some entries: the two saves of the entry, and then calls on its
timer. A call on a timer comes after the saves of its own section, and the saves make of a store what
writing the entries makes of it.
-/
namespace TelemetryAgent

namespace Call

def saved? : Call → Option (String × Bytes)
  | save subtree key value => some (Medium.path subtree key, value)
  | _ => none

/-- A call on a timer of the kind of an entry, given the kinds of the timers by their numbers. A
timer is started at the period of the entry, which is positive then. -/
def Serves (kinds : List Kind) (e : Entry) : Call → Prop
  | timerCreate _ k => k = e.kind
  | timerStart timer seconds =>
    kinds[timer]? = some e.kind ∧ 0 < e.period ∧ seconds = e.seconds
  | timerStop timer => kinds[timer]? = some e.kind
  | timerRelease timer => kinds[timer]? = some e.kind
  | _ => False

def isEnding : Call → Bool
  | timerStop _ => true
  | timerRelease _ => true
  | _ => false

variable {kinds kinds' : List Kind} {e : Entry} {c : Call}

theorem getElem?_of_isPrefix {k : Kind} {i : Nat} (hle : kinds <+: kinds')
    (hk : kinds[i]? = some k) : kinds'[i]? = some k := by
  obtain ⟨later, rfl⟩ := hle
  rw [List.getElem?_append_left (List.getElem?_eq_some_iff.mp hk).1]
  exact hk

theorem Serves.mono (hle : kinds <+: kinds') (hc : c.Serves kinds e) : c.Serves kinds' e := by
  cases c with
  | timerCreate => exact hc
  | timerStart => exact ⟨getElem?_of_isPrefix hle hc.1, hc.2⟩
  | timerStop => exact getElem?_of_isPrefix hle hc
  | timerRelease => exact getElem?_of_isPrefix hle hc
  | _ => exact hc.elim

/-- No call is on the timers of two kinds. -/
theorem Serves.kind_eq {d : Entry} (hc : c.Serves kinds e) (hd : c.Serves kinds d) :
    d.kind = e.kind := by
  cases c with
  | timerCreate => exact hd.symm.trans hc
  | timerStart => exact Option.some.inj (hd.1.symm.trans hc.1)
  | timerStop => exact Option.some.inj (hd.symm.trans hc)
  | timerRelease => exact Option.some.inj (hd.symm.trans hc)
  | _ => exact hc.elim

theorem Serves.saved? (hc : c.Serves kinds e) : c.saved? = none := by
  cases c with
  | save => exact hc.elim
  | _ => rfl

end Call

def Entry.saves (e : Entry) : List Call :=
  e.settings.map fun s => .save Setting.subtree (s.key e.kind) s.encode

namespace Leaves

/-- The leaves after the saves among some calls. -/
def replay (calls : List Call) (l : Leaves) : Leaves := l.putEach (calls.filterMap Call.saved?)

/-- What the leaf says in which a setting of a kind is kept. -/
def stored? (k : Kind) (s : Setting) (l : Leaves) : Option (Kind × Setting) :=
  (l.get? (place k s)).bind fun value => (Setting.decode (s.key k) value).toOption

variable {l : Leaves} {e : Entry}

theorem replay_append (calls later : List Call) (l : Leaves) :
    l.replay (calls ++ later) = (l.replay calls).replay later := by
  unfold replay putEach
  rw [List.filterMap_append, List.foldl_append]

theorem replay_saves (e : Entry) (l : Leaves) : l.replay e.saves = l.store e := rfl

theorem replay_of_serves {kinds : List Kind} {calls : List Call}
    (hcalls : ∀ c ∈ calls, c.Serves kinds e) (l : Leaves) : l.replay calls = l := by
  have hnone : calls.filterMap Call.saved? = [] :=
    List.filterMap_eq_nil_iff.mpr fun c hc => (hcalls c hc).saved?
  unfold replay
  rw [hnone]
  rfl

/-- What has been written decodes to what was written. -/
theorem stored?_of_holds (hl : l.Holds e) (hk : e.kind ≠ .invalid) :
    l.stored? e.kind (.period e.period) = some (e.kind, .period e.period) ∧
      l.stored? e.kind (.enable e.enabled) = some (e.kind, .enable e.enabled) := by
  have hdecode : ∀ s : Setting, Setting.decode (s.key e.kind) s.encode = .ok (e.kind, s) := fun s => by
    have hd := Setting.decode_key hk s []
    rwa [List.append_nil] at hd
  unfold stored?
  rw [get?_eq_some_iff.mpr hl.period, get?_eq_some_iff.mpr hl.enable, Option.bind_some,
    Option.bind_some, hdecode, hdecode]
  exact ⟨rfl, rfl⟩

end Leaves

/-! ## Sections -/

/-- Calls in sections, one for each entry: its saves, and then calls on its timer. -/
inductive Sections (kinds : List Kind) : List Entry → List Call → Prop
  | nil : Sections kinds [] []
  | cons {e : Entry} {entries : List Entry} {timers calls : List Call} :
      (∀ c ∈ timers, c.Serves kinds e) → Sections kinds entries calls →
      Sections kinds (e :: entries) (e.saves ++ timers ++ calls)

namespace Sections

variable {kinds kinds' : List Kind} {entries later : List Entry} {calls more : List Call}

theorem mono (hle : kinds <+: kinds') (hs : Sections kinds entries calls) :
    Sections kinds' entries calls := by
  induction hs with
  | nil => exact .nil
  | cons hserves _ ih => exact .cons (fun c hc => (hserves c hc).mono hle) ih

theorem append (hs : Sections kinds entries calls) (hlater : Sections kinds later more) :
    Sections kinds (entries ++ later) (calls ++ more) := by
  induction hs with
  | nil => exact hlater
  | cons hserves _ ih =>
      rw [List.append_assoc]
      exact .cons hserves ih

theorem replay (hs : Sections kinds entries calls) (l : Leaves) :
    l.replay calls = l.storeAll entries := by
  induction hs generalizing l with
  | nil => rfl
  | cons hserves _ ih =>
      rw [Leaves.replay_append, Leaves.replay_append, Leaves.replay_saves,
        Leaves.replay_of_serves hserves, ih]
      rfl

/-- A call is a save, or it is on the timer of some entry. -/
theorem serves_of_mem (hs : Sections kinds entries calls) {c : Call} (hc : c ∈ calls) :
    c.saved? ≠ none ∨ ∃ e ∈ entries, c.Serves kinds e := by
  induction hs with
  | nil => cases hc
  | @cons e entries timers calls hserves _ ih =>
      rcases List.mem_append.mp hc with hsection | hlater
      · rcases List.mem_append.mp hsection with hsave | htimer
        · left
          obtain ⟨s, -, rfl⟩ := List.mem_map.mp hsave
          exact Option.some_ne_none _
        · exact .inr ⟨e, List.mem_cons_self, hserves c htimer⟩
      · exact (ih hlater).imp_right fun ⟨d, hd, hserve⟩ => ⟨d, List.mem_cons_of_mem e hd, hserve⟩

/-- A place in two lists after one another is in the second one or in the first. -/
theorem split_append {α : Type} {a : α} {first second earlier after : List α}
    (h : first ++ second = earlier ++ a :: after) :
    (∃ middle, earlier = first ++ middle ∧ second = middle ++ a :: after) ∨
      ∃ middle, first = earlier ++ a :: middle := by
  rcases List.append_eq_append_iff.mp h with ⟨middle, hearlier, hsecond⟩ | ⟨middle, hfirst, hafter⟩
  · exact .inl ⟨middle, hearlier, hsecond⟩
  · cases middle with
    | nil =>
        left
        refine ⟨[], ?_, hafter.symm⟩
        rw [hfirst, List.append_nil, List.append_nil]
    | cons b middle =>
        cases hafter
        exact .inr ⟨middle, hfirst⟩

/-- What comes before a call on a timer: earlier sections, and then the saves of its own. -/
theorem split (hs : Sections kinds entries calls) {earlier after : List Call} {c : Call}
    (hcalls : calls = earlier ++ c :: after) (hc : c.saved? = none) :
    ∃ done e rest before between, entries = done ++ e :: rest ∧
      earlier = before ++ e.saves ++ between ∧ Sections kinds done before ∧
      (∀ d ∈ between, d.Serves kinds e) ∧ c.Serves kinds e := by
  induction hs generalizing earlier with
  | nil => exact (List.append_ne_nil_of_right_ne_nil _ (List.cons_ne_nil _ _) hcalls.symm).elim
  | @cons e entries timers calls hserves hrest ih =>
      rcases split_append hcalls with ⟨middle, rfl, hlater⟩ | ⟨middle, hsection⟩
      · obtain ⟨done, d, rest, before, between, rfl, rfl, hdone, hbetween, hserve⟩ := ih hlater
        refine ⟨e :: done, d, rest, e.saves ++ timers ++ before, between, rfl, ?_,
          .cons hserves hdone, hbetween, hserve⟩
        simp only [List.append_assoc]
      · rcases split_append hsection with ⟨between, rfl, htimers⟩ | ⟨more, hsaves⟩
        · have hmem : c ∈ timers := by
            rw [htimers]
            exact List.mem_append_right _ List.mem_cons_self
          refine ⟨[], e, entries, [], between, rfl, rfl, .nil, fun d hd => hserves d ?_,
            hserves c hmem⟩
          rw [htimers]
          exact List.mem_append_left _ hd
        · have hmem : c ∈ e.saves := by
            rw [hsaves]
            exact List.mem_append_right _ List.mem_cons_self
          obtain ⟨s, -, rfl⟩ := List.mem_map.mp hmem
          cases hc

end Sections

/-! ## Timers and their kinds -/

namespace Host

variable {h h₁ h' : Host} {e : Entry} {k : Kind} {sort : Call → Prop}

def kinds (h : Host) : List Kind := h.bank.map TimerState.kind

theorem kinds_congr (htimers : h'.timers = h.timers) : h'.kinds = h.kinds := by
  unfold kinds bank
  rw [htimers]

theorem map_kind_modify (f : TimerState → TimerState) (hf : ∀ t, (f t).kind = t.kind) (timer : Nat)
    (bank : List TimerState) : (bank.modify timer f).map TimerState.kind = bank.map TimerState.kind := by
  induction bank generalizing timer with
  | nil => simp
  | cons t rest ih =>
      cases timer with
      | zero => simp [List.modify_zero_cons, hf]
      | succ timer => simp [List.modify_succ_cons, ih]

theorem map_kind_retire (timer : Option Nat) (bank : List TimerState) :
    (retire timer bank).map TimerState.kind = bank.map TimerState.kind := by
  cases timer with
  | none => rfl
  | some timer => exact map_kind_modify TimerState.retired (fun _ => rfl) timer bank

theorem kinds_disarm (e : Entry) (h : Host) : (h.disarm e).2.kinds = h.kinds := by
  unfold kinds
  rw [bank_disarm, map_kind_retire]

theorem kinds_abandon (e : Entry) (h : Host) : (h.abandon e).kinds = h.kinds := by
  unfold kinds
  rw [bank_abandon, map_kind_retire]

theorem kinds_startTimer (timer seconds : Nat) (h : Host) :
    (h.startTimer timer seconds).2.kinds = h.kinds := by
  rcases hstart : h.startTimer timer seconds with ⟨f | _, h₁⟩
  · exact congrArg (List.map TimerState.kind) (bank_of_startTimer_error hstart)
  · refine (congrArg (List.map TimerState.kind) (bank_of_startTimer_ok hstart)).trans ?_
    exact map_kind_modify (fun t => { t with interval := some seconds }) (fun _ => rfl) timer h.bank

theorem kinds_stopTimer (timer : Nat) (h : Host) : (h.stopTimer timer).2.kinds = h.kinds := by
  rcases hstop : h.stopTimer timer with ⟨f | _, h₁⟩
  · exact congrArg (List.map TimerState.kind) (bank_of_stopTimer_error hstop)
  · refine (congrArg (List.map TimerState.kind) (bank_of_stopTimer_ok hstop)).trans ?_
    exact map_kind_modify (fun t => { t with interval := none }) (fun _ => rfl) timer h.bank

theorem kinds_releaseTimer (timer : Nat) (h : Host) : (h.releaseTimer timer).kinds = h.kinds := by
  unfold kinds
  rw [bank_releaseTimer]
  exact map_kind_retire (some timer) h.bank

theorem kinds_of_createTimer {owner timer : Nat} (hcreate : h.createTimer owner k = (.ok timer, h₁)) :
    h₁.kinds = h.kinds ++ [k] ∧ h₁.kinds[timer]? = some k := by
  obtain ⟨rfl, hbank⟩ := bank_of_createTimer_ok hcreate
  have hkinds : h₁.kinds = h.kinds ++ [k] := by
    unfold kinds
    rw [hbank, List.map_append]
    rfl
  refine ⟨hkinds, ?_⟩
  rw [hkinds, List.getElem?_append_right (by simp [kinds])]
  simp [kinds]

/-- An entry that has a timer is armed with it. -/
theorem kinds_arm_of_timer {timer : Nat} (htimer : e.timer = some timer) (owner seconds : Nat)
    (h : Host) : (h.arm owner e seconds).2.kinds = h.kinds := by
  have hstop := kinds_stopTimer timer h
  unfold arm
  rw [htimer]
  dsimp only
  split
  · rename_i f h₁ heq
    rwa [heq] at hstop
  · rename_i h₁ heq
    rw [heq] at hstop
    have hstart := kinds_startTimer timer seconds h₁
    split
    · rename_i f h₂ heq₂
      rw [heq₂] at hstart
      exact hstart.trans hstop
    · rename_i h₂ heq₂
      rw [heq₂] at hstart
      exact hstart.trans hstop

/-- An entry that has no timer gets one at most. -/
theorem kinds_arm_of_no_timer (htimer : e.timer = none) (owner seconds : Nat) (h : Host) :
    (h.arm owner e seconds).2.kinds = (h.createTimer owner e.kind).2.kinds := by
  unfold arm
  rw [htimer]
  dsimp only
  split
  · rename_i f h₁ heq
    rw [heq]
  · rename_i timer h₁ heq
    have hstart := kinds_startTimer timer seconds h₁
    rw [heq]
    split
    · rename_i f h₂ heq₂
      rw [heq₂] at hstart
      exact (kinds_releaseTimer timer h₂).trans hstart
    · rename_i h₂ heq₂
      rw [heq₂] at hstart
      exact hstart

theorem kinds_arm (owner seconds : Nat) (e : Entry) (h : Host) :
    h.kinds <+: (h.arm owner e seconds).2.kinds := by
  cases htimer : e.timer with
  | some timer =>
      exact ⟨[], by rw [List.append_nil, kinds_arm_of_timer htimer]⟩
  | none =>
      rw [kinds_arm_of_no_timer htimer]
      rcases hcreate : h.createTimer owner e.kind with ⟨f | timer, h₁⟩
      · have hsame : h₁.kinds = h.kinds :=
          congrArg (List.map TimerState.kind) (bank_of_createTimer_error hcreate)
        exact ⟨[], by rw [List.append_nil, hsame]⟩
      · rw [(kinds_of_createTimer hcreate).1]
        exact List.prefix_append _ _

/-- Arming is made of calls on the timer of the entry, which may be a new one. -/
theorem arm_serves (owner : Nat) (hown : ∀ timer, e.timer = some timer →
      h.kinds[timer]? = some e.kind) (hperiod : 0 < e.period) :
    Makes (Call.Serves (h.arm owner e e.seconds).2.kinds e) h (h.arm owner e e.seconds).2 := by
  refine arm_makes (fun _ => rfl) (fun timer htimer => ?_) fun htimer timer h₁ hcreate => ?_
  · have hkind := Call.getElem?_of_isPrefix (kinds_arm owner e.seconds e h) (hown timer htimer)
    exact ⟨hkind, hkind, hperiod, rfl⟩
  · have hkind := (kinds_of_createTimer hcreate).2
    rw [kinds_arm_of_no_timer htimer, hcreate]
    exact ⟨⟨hkind, hperiod, rfl⟩, hkind⟩

theorem persist_calls (hok : SavesSucceed h (h.persist e)) :
    (h.persist e).calls = h.calls ++ e.saves := by
  unfold SavesSucceed at hok
  rw [persist_settings] at hok
  rw [calls_of_persist]
  exact ((saveSettings_leaves e.kind e.settings h).2 hok).2

end Host
end TelemetryAgent
