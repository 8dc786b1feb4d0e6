import Mathlib.Data.List.Basic
import TelemetryAgent.Proofs.Schedule.Arming
import TelemetryAgent.Proofs.Schedule.Stored

/-!
# What is written

Scheduling and unscheduling a kind write its entry as it stands, whatever becomes of the timer; a
request writes the entry that it asks for, and a start every enabled one. Nothing else writes. As
long as no save fails, the leaves afterwards are those before with these entries written over them.
-/
namespace TelemetryAgent

/-- What is written of an entry under a kind. -/
def Entry.written (k : Kind) (e : Entry) : Entry := ⟨k, e.period, e.enabled, none⟩

/-- The leaves that an entry is stored as, in the order in which they are written. -/
def Entry.leaves (e : Entry) : List (String × Bytes) :=
  e.settings.map fun s => (Leaves.place e.kind s, s.encode)

namespace Leaves

def storeAll (entries : List Entry) (l : Leaves) : Leaves :=
  entries.foldl (fun l e => l.store e) l

def putEach (written : List (String × Bytes)) (l : Leaves) : Leaves :=
  written.foldl (fun l leaf => l.put leaf.1 leaf.2) l

/-- The leaves after the first `n` of those that entries are stored as have been written. -/
def storeFirst (n : Nat) (entries : List Entry) (l : Leaves) : Leaves :=
  l.putEach ((entries.flatMap Entry.leaves).take n)

theorem storeFirst_append (n : Nat) (entries later : List Entry) (l : Leaves) :
    l.storeFirst n (entries ++ later) =
      (l.storeFirst n entries).storeFirst (n - (entries.flatMap Entry.leaves).length) later := by
  unfold storeFirst putEach
  rw [List.flatMap_append, List.take_append, List.foldl_append]

end Leaves

namespace Host

/-- None of the saves between two states of a host fails. -/
def SavesSucceed (h h' : Host) : Prop :=
  ∀ n, h.settings.saves ≤ n → n < h'.settings.saves → h.settings.saveFault n = none

/-- Of the next `total` saves the first `n` succeed, and the one after them fails if there is one. -/
structure Takes (n total : Nat) (h : Host) : Prop where
  le : n ≤ total
  before : ∀ i, i < n → h.settings.saveFault (h.settings.saves + i) = none
  next : n < total → h.settings.saveFault (h.settings.saves + n) ≠ none

/-- The next `n` saves succeed, and no later one does. -/
def SavesLeft (n : Nat) (h : Host) : Prop :=
  ∀ i, h.settings.saves ≤ i → (h.settings.saveFault i = none ↔ i < h.settings.saves + n)

/-- What has been written to the store of a host, if no save has failed, and how much of it if the
store has failed from some save on. -/
structure Wrote (entries : List Entry) (h h' : Host) : Prop where
  saveFault : h'.settings.saveFault = h.settings.saveFault
  loadFault : h'.settings.loadFault = h.settings.loadFault
  saves : h.settings.saves ≤ h'.settings.saves
  leaves : SavesSucceed h h' → h'.settings.leaves = h.settings.leaves.storeAll entries
  cut : ∀ n, h.SavesLeft n → h'.SavesLeft (n - (entries.flatMap Entry.leaves).length) ∧
    h'.settings.leaves = h.settings.leaves.storeFirst n entries

variable {h h₁ h₂ h' : Host} {entries later : List Entry} {e : Entry} {k : Kind}

/-- If none of the saves over a longer time fails, none fails in its parts. -/
theorem SavesSucceed.split (hok : SavesSucceed h h₂) (hw₁ : Wrote entries h h₁)
    (hw₂ : Wrote later h₁ h₂) : SavesSucceed h h₁ ∧ SavesSucceed h₁ h₂ := by
  refine ⟨fun n hle hlt => hok n hle (Nat.lt_of_lt_of_le hlt hw₂.saves), fun n hle hlt => ?_⟩
  rw [hw₁.saveFault]
  exact hok n (Nat.le_trans hw₁.saves hle) hlt

theorem Wrote.trans (hw₁ : Wrote entries h h₁) (hw₂ : Wrote later h₁ h₂) :
    Wrote (entries ++ later) h h₂ where
  saveFault := hw₂.saveFault.trans hw₁.saveFault
  loadFault := hw₂.loadFault.trans hw₁.loadFault
  saves := Nat.le_trans hw₁.saves hw₂.saves
  leaves := fun hok => by
    obtain ⟨hok₁, hok₂⟩ := hok.split hw₁ hw₂
    rw [hw₂.leaves hok₂, hw₁.leaves hok₁]
    exact List.foldl_append.symm
  cut := fun n hleft => by
    obtain ⟨hleft₁, hleaves₁⟩ := hw₁.cut n hleft
    obtain ⟨hleft₂, hleaves₂⟩ := hw₂.cut _ hleft₁
    rw [List.flatMap_append, List.length_append, ← Nat.sub_sub, Leaves.storeFirst_append, ← hleaves₁]
    exact ⟨hleft₂, hleaves₂⟩

theorem Wrote.ofSettings (hsettings : h'.settings = h.settings) : Wrote [] h h' where
  saveFault := by rw [hsettings]
  loadFault := by rw [hsettings]
  saves := Nat.le_of_eq (by rw [hsettings])
  leaves := fun _ => congrArg SettingsStore.leaves hsettings
  cut := fun n hleft => by
    refine ⟨?_, ?_⟩
    · unfold SavesLeft
      rw [hsettings]
      exact hleft
    · unfold Leaves.storeFirst
      rw [hsettings, List.flatMap_nil, List.take_nil]
      rfl

theorem Wrote.ofTimers (hw : Wrote entries h h₁) (ht : TimersOnly h₁ h₂) : Wrote entries h h₂ := by
  have hboth := hw.trans (.ofSettings ht.settings)
  rwa [List.append_nil] at hboth

/-! ## One entry -/

theorem save_of_fault {f : SettingsFault} (hfault : h.settings.saveFault h.settings.saves = some f)
    (subtree key : String) (value : Bytes) : ∃ h', h.save subtree key value = (some f, h') ∧
      h'.settings = { h.settings with saves := h.settings.saves + 1 } ∧
      h'.calls = h.calls ++ [.save subtree key value] := by
  have hrecord : (h.record (.save subtree key value)).settings = h.settings := rfl
  unfold save
  simp only [hrecord, hfault]
  exact ⟨_, rfl, rfl, rfl⟩

theorem save_of_no_fault (hfault : h.settings.saveFault h.settings.saves = none)
    (subtree key : String) (value : Bytes) : ∃ h', h.save subtree key value = (none, h') ∧
      h'.settings =
        { h.settings with
          saves := h.settings.saves + 1
          leaves := h.settings.leaves.put (Medium.path subtree key) value } ∧
      h'.calls = h.calls ++ [.save subtree key value] := by
  have hrecord : (h.record (.save subtree key value)).settings = h.settings := rfl
  unfold save
  simp only [hrecord, hfault]
  exact ⟨_, rfl, rfl, rfl⟩

/-- Settings are saved up to the first save that fails, and what was saved before it stays. -/
theorem saveSettings_takes (k : Kind) (settings : List Setting) (h : Host) :
    ∃ n, h.Takes n settings.length ∧
      (h.saveSettings k settings).2.settings = { h.settings with
        saves := h.settings.saves + min (n + 1) settings.length
        leaves := h.settings.leaves.putEach
          ((settings.map fun s => (Leaves.place k s, s.encode)).take n) } ∧
      (h.saveSettings k settings).2.calls =
        h.calls ++ (settings.take (n + 1)).map fun s => .save Setting.subtree (s.key k) s.encode := by
  induction settings generalizing h with
  | nil => exact ⟨0, ⟨Nat.le_refl 0, fun i hi => by omega, fun hlt => by cases hlt⟩, rfl,
      (List.append_nil _).symm⟩
  | cons s rest ih =>
      unfold saveSettings
      cases hfault : h.settings.saveFault h.settings.saves with
      | some f =>
          obtain ⟨h₁, hsave, hsettings, hcalls⟩ :=
            save_of_fault hfault Setting.subtree (s.key k) s.encode
          rw [hsave]
          refine ⟨0, ⟨Nat.zero_le _, fun i hi => by omega, fun _ => ?_⟩, ?_, hcalls⟩
          · rw [Nat.add_zero, hfault]
            exact Option.some_ne_none f
          · rw [hsettings, List.length_cons, Nat.min_eq_left (by omega)]
            rfl
      | none =>
          obtain ⟨h₁, hsave, hsettings, hcalls⟩ :=
            save_of_no_fault hfault Setting.subtree (s.key k) s.encode
          obtain ⟨n, htakes, hsettings', hcalls'⟩ := ih h₁
          have hlater : ∀ i, h₁.settings.saveFault (h₁.settings.saves + i) =
              h.settings.saveFault (h.settings.saves + (i + 1)) := fun i => by
            rw [hsettings]
            dsimp only
            rw [Nat.add_assoc, Nat.add_comm 1 i]
          rw [hsave]
          refine ⟨n + 1, ⟨Nat.succ_le_succ htakes.le, fun i hi => ?_, fun hlt => ?_⟩, ?_, ?_⟩
          · cases i with
            | zero => exact hfault
            | succ i =>
                rw [← hlater]
                exact htakes.before i (by omega)
          · rw [← hlater]
            rw [List.length_cons] at hlt
            exact htakes.next (by omega)
          · rw [hsettings', hsettings, List.length_cons, Nat.add_min_add_right, Nat.add_assoc,
              Nat.add_comm 1]
            rfl
          · rw [hcalls', hcalls, List.append_assoc]
            rfl

/-- What saving some settings of a kind comes to. -/
theorem saveSettings_leaves (k : Kind) (settings : List Setting) (h : Host) :
    h.settings.saves ≤ (h.saveSettings k settings).2.settings.saves ∧
      (SavesSucceed h (h.saveSettings k settings).2 →
        (h.saveSettings k settings).2.settings.leaves =
            settings.foldl (fun l s => l.put (Leaves.place k s) s.encode) h.settings.leaves ∧
          (h.saveSettings k settings).2.calls =
            h.calls ++ settings.map fun s => .save Setting.subtree (s.key k) s.encode) := by
  obtain ⟨n, htakes, hsettings, hcalls⟩ := saveSettings_takes k settings h
  unfold SavesSucceed
  rw [hsettings, hcalls]
  refine ⟨Nat.le_add_right _ _, fun hok => ?_⟩
  have hall : n = settings.length := by
    refine Nat.le_antisymm htakes.le (Nat.not_lt.mp fun hlt => htakes.next hlt ?_)
    exact hok _ (Nat.le_add_right _ _) (by dsimp only; omega)
  subst hall
  refine ⟨?_, by rw [List.take_of_length_le (by omega)]⟩
  dsimp only
  unfold Leaves.putEach
  rw [List.take_of_length_le (Nat.le_of_eq (List.length_map _)), List.foldl_map]

/-- What saving some settings of a kind comes to if the store fails from some save on. -/
theorem saveSettings_cut (k : Kind) (settings : List Setting) (n : Nat) {h : Host}
    (hleft : h.SavesLeft n) :
    (h.saveSettings k settings).2.SavesLeft (n - settings.length) ∧
      (h.saveSettings k settings).2.settings.leaves =
        h.settings.leaves.putEach
          ((settings.map fun s => (Leaves.place k s, s.encode)).take n) := by
  obtain ⟨m, htakes, hsettings, -⟩ := saveSettings_takes k settings h
  have hmin : m = min n settings.length := by
    have hle := htakes.le
    rcases Nat.lt_or_ge m settings.length with hlt | hge
    · -- the first save that fails is the one after the last that succeeds
      have hnext := (hleft _ (Nat.le_add_right _ m)).not.mp (htakes.next hlt)
      have hbefore : ¬ n < m := fun hnm =>
        Nat.lt_irrefl _ ((hleft _ (Nat.le_add_right _ n)).mp (htakes.before n hnm))
      omega
    · rcases Nat.lt_or_ge n m with hnm | hnm
      · have hnone := (hleft _ (Nat.le_add_right _ n)).mp (htakes.before n hnm)
        omega
      · omega
  unfold SavesLeft
  rw [hsettings, hmin]
  refine ⟨fun i hi => ?_, ?_⟩
  · dsimp only at hi ⊢
    rw [hleft i (by omega)]
    omega
  · refine congrArg (h.settings.leaves.putEach ·) (List.take_eq_take_iff.mpr ?_)
    rw [List.length_map, Nat.min_assoc, Nat.min_self]

theorem persist_settings (e : Entry) (h : Host) :
    (h.persist e).settings = (h.saveSettings e.kind e.settings).2.settings := by
  unfold persist
  split
  · rename_i f h₁ heq
    rw [heq]
    rfl
  · rename_i h₁ heq
    rw [heq]

theorem calls_of_persist (e : Entry) (h : Host) :
    (h.persist e).calls = (h.saveSettings e.kind e.settings).2.calls := by
  unfold persist
  split
  · rename_i f h₁ heq
    rw [heq]
    rfl
  · rename_i h₁ heq
    rw [heq]

/-- An entry is written under its own kind. -/
theorem persist_wrote (hkind : e.kind = k) (h : Host) : Wrote [e.written k] h (h.persist e) := by
  have hstore := persist_storeOnly e h
  obtain ⟨hle, hleaves⟩ := saveSettings_leaves e.kind e.settings h
  refine ⟨by rw [hstore.plans], by rw [hstore.plans], ?_, fun hok => ?_, fun n hleft => ?_⟩
  · rw [persist_settings]
    exact hle
  · unfold SavesSucceed at hok
    rw [persist_settings] at hok ⊢
    rw [(hleaves hok).1, hkind]
    rfl
  · obtain ⟨hrest, hcut⟩ := saveSettings_cut e.kind e.settings n hleft
    have hwritten : [e.written k].flatMap Entry.leaves =
        e.settings.map fun s => (Leaves.place e.kind s, s.encode) := by
      rw [List.flatMap_singleton, hkind]
      rfl
    unfold SavesLeft Leaves.storeFirst
    rw [persist_settings, hwritten, List.length_map]
    exact ⟨hrest, hcut⟩

end Host

/-! ## Calls -/

namespace Scheduler

variable {s : Scheduler} {k : Kind} {e : Entry}

/-- What a call that is about one kind writes. -/
def entryWritten (k : Kind) (s : Scheduler) : List Entry :=
  ((s.table.get? k).map (Entry.written k)).toList

theorem entryWritten_of_some (he : s.table.get? k = some e) : s.entryWritten k = [e.written k] := by
  unfold entryWritten
  rw [he]
  rfl

theorem entryWritten_of_none (he : s.table.get? k = none) : s.entryWritten k = [] := by
  unfold entryWritten
  rw [he]
  rfl

/-- What a start writes of a kind: its entry, if it is enabled. -/
def wanted? (k : Kind) (s : Scheduler) : Option Entry :=
  ((s.table.get? k).filter (·.enabled)).map (Entry.written k)

end Scheduler

/-- The entries that a call writes, in order. A start writes only if it succeeds. -/
def Operation.written (op : Operation) (s : Scheduler) (h : Host) : List Entry :=
  match op with
  | .start publisher =>
    match (s.start publisher h).1 with
    | .ok () => Kind.schedulable.filterMap s.wanted?
    | .error _ => []
  | .stop _ => []
  | .schedule k => s.entryWritten k
  | .unschedule k => s.entryWritten k
  | .set path value => ((s.setRequest path value).map fun r => r.2.written r.1).toList
  | .unset path => ((s.unsetRequest path).map fun r => r.2.written r.1).toList

namespace Scheduler
open Host

/-- An account `r` of the entries that are written between two states of a host. It can be given of
scheduling and of unscheduling a kind, whenever `p` holds of the state before. -/
structure Account (p : Scheduler → Host → Prop) (r : List Entry → Host → Host → Prop) : Prop where
  quiet {h h' : Host} : h'.settings = h.settings → h'.timers = h.timers → h'.calls = h.calls →
    r [] h h'
  trans {entries later : List Entry} {h h₁ h₂ : Host} : r entries h h₁ → r later h₁ h₂ →
    r (entries ++ later) h h₂
  schedule {s : Scheduler} {h : Host} (k : Kind) : p s h →
    r (s.entryWritten k) h (s.schedule k h).2.2
  unschedule {s : Scheduler} {h : Host} (k : Kind) : p s h →
    r (s.entryWritten k) h (s.unschedule k h).2.2
  request {s : Scheduler} {h : Host} {k : Kind} {e : Entry} : p s h → Requested s k e →
    p (s.setEntry k (some e)) h
  scheduled {s : Scheduler} {h : Host} (k : Kind) : p s h →
    p (s.schedule k h).2.1 (s.schedule k h).2.2
  congr {s s' : Scheduler} {h h' : Host} : p s h → s'.table = s.table → s'.ident = s.ident →
    h'.timers = h.timers → p s' h'

namespace Account

variable {p : Scheduler → Host → Prop} {r : List Entry → Host → Host → Prop} {s : Scheduler}
  {h : Host} {k : Kind} {e : Entry}

theorem apply (ha : Account p r) (hp : p s h) (he : s.table.get? k = some e) :
    r [e.written k] h (s.apply k h).2.2 := by
  rw [← entryWritten_of_some he]
  cases henabled : e.enabled with
  | true =>
      rw [apply_of_enabled h he henabled]
      exact ha.schedule k hp
  | false =>
      rw [apply_of_disabled h he henabled]
      exact ha.unschedule k hp

theorem requested (ha : Account p r) (hp : p s h) (hr : Requested s k e) :
    r [e.written k] h ((s.setEntry k (some e)).apply k h).2.2 := by
  have he : (s.setEntry k (some e)).table.get? k = some e := by
    rw [get?_setEntry hr.schedulable, if_pos rfl]
  exact ha.apply (ha.request hp hr) he

theorem set (ha : Account p r) (hp : p s h) (path : String) (value : Value) :
    r ((s.setRequest path value).map fun r => r.2.written r.1).toList h (s.set path value h).2.2 := by
  cases hr : s.setRequest path value with
  | some request =>
      rw [set_of_request h hr]
      exact ha.requested hp (requested_of_set hr)
  | none =>
      obtain ⟨f, hset⟩ := set_of_no_request h hr
      rw [hset]
      exact ha.quiet rfl rfl rfl

theorem unset (ha : Account p r) (hp : p s h) (path : String) :
    r ((s.unsetRequest path).map fun r => r.2.written r.1).toList h (s.unset path h).2.2 := by
  cases hr : s.unsetRequest path with
  | some request =>
      rw [unset_of_request h hr]
      exact ha.requested hp (requested_of_unset hr)
  | none =>
      obtain ⟨f, h', hunset, hsame | ⟨j, hnote⟩⟩ := unset_of_no_request h hr
      · rw [hunset, hsame]
        exact ha.quiet rfl rfl rfl
      · rw [hunset, hnote]
        exact ha.quiet rfl rfl rfl

theorem scheduleEnabled (ha : Account p r) (hp : p s h) (k : Kind) :
    r (s.wanted? k).toList h (s.scheduleEnabled k h).2 ∧
      p (s.scheduleEnabled k h).1 (s.scheduleEnabled k h).2 := by
  unfold wanted?
  cases he : s.table.get? k with
  | none =>
      rw [scheduleEnabled_of_disabled h fun e heq => by rw [he] at heq; cases heq]
      exact ⟨ha.quiet rfl rfl rfl, hp⟩
  | some e =>
      cases henabled : e.enabled with
      | true =>
          have hscheduled := ha.schedule k hp
          rw [entryWritten_of_some he] at hscheduled
          rw [scheduleEnabled_of_enabled h he henabled, Option.filter_some, henabled, if_pos rfl]
          have hfailure := noteFailure_timersOnly (s.schedule k h).1 (.notScheduled k)
            (s.schedule k h).2.2
          have hboth := ha.trans hscheduled
            (ha.quiet hfailure.settings (noteFailure_timers _ _ _) (noteFailure_calls _ _ _))
          exact ⟨hboth, ha.congr (ha.scheduled k hp) rfl rfl (noteFailure_timers _ _ _)⟩
      | false =>
          rw [scheduleEnabled_of_disabled h fun d heq => by rw [he] at heq; cases heq; exact henabled,
            Option.filter_some, henabled, if_neg Bool.false_ne_true]
          exact ⟨ha.quiet rfl rfl rfl, hp⟩

end Account

theorem scheduleEnabled_other (k : Kind) (s : Scheduler) (h : Host) {j : Kind} (hj : j ≠ k) :
    (s.scheduleEnabled k h).1.table.get? j = s.table.get? j := by
  unfold scheduleEnabled
  split
  · rfl
  · split
    · exact (schedule_apart k s h).other j hj
    · rfl

namespace Account

variable {p : Scheduler → Host → Prop} {r : List Entry → Host → Host → Prop} {s : Scheduler}
  {h : Host}

/-- What is wanted of the later kinds is not changed by scheduling the first. -/
theorem scheduleAll (ha : Account p r) (hp : p s h) {kinds : List Kind} (hnodup : kinds.Nodup) :
    r (kinds.filterMap s.wanted?) h (scheduleAll kinds s h).2 := by
  induction kinds generalizing s h with
  | nil => exact ha.quiet rfl rfl rfl
  | cons k rest ih =>
      obtain ⟨hk, hrest⟩ := List.nodup_cons.mp hnodup
      obtain ⟨hfirst, hp₁⟩ := ha.scheduleEnabled hp k
      have hlater := ih hp₁ hrest
      have hsame : rest.filterMap (s.scheduleEnabled k h).1.wanted? = rest.filterMap s.wanted? := by
        refine List.filterMap_congr fun j hj => ?_
        have hjk : j ≠ k := fun heq => hk (heq ▸ hj)
        simp only [wanted?, scheduleEnabled_other k s h hjk]
      rw [hsame] at hlater
      have hboth := ha.trans hfirst hlater
      rw [List.filterMap_cons]
      cases hwanted : s.wanted? k with
      | none =>
          rw [hwanted] at hboth
          exact hboth
      | some e =>
          rw [hwanted] at hboth
          exact hboth

theorem start (ha : Account p r) (hp : p s h) (publisher : Nat) :
    r ((Operation.start publisher).written s h) h (s.start publisher h).2.2 := by
  have hcases := start_cases publisher s h
  unfold Operation.written
  dsimp only
  generalize (s.start publisher h).1 = outcome, (s.start publisher h).2.1 = s₁,
    (s.start publisher h).2.2 = h₁ at hcases
  cases hcases with
  | already => exact ha.quiet rfl rfl rfl
  | refused _ _ htimers hsettings _ _ _ hcalls => exact ha.quiet hsettings htimers hcalls
  | @spawned h₂ _ _ htimers hsettings _ _ _ hcalls =>
      have hbegun : p (s.begun h.tasks.workers.length) h₂ := ha.congr hp rfl rfl htimers
      have hnodup : Kind.schedulable.Nodup := by decide
      exact ha.trans (ha.quiet hsettings htimers hcalls) (ha.scheduleAll hbegun hnodup)

/-- An account of scheduling and unscheduling is one of every operation but a stop. -/
theorem perform (ha : Account p r) (hp : p s h) (op : Operation)
    (hop : ∀ timeoutMillis, op ≠ .stop timeoutMillis) :
    r (op.written s h) h (op.perform s h).2.2 := by
  cases op with
  | start publisher => exact ha.start hp publisher
  | stop timeoutMillis => exact (hop timeoutMillis rfl).elim
  | schedule k => exact ha.schedule k hp
  | unschedule k => exact ha.unschedule k hp
  | set path value => exact ha.set hp path value
  | unset path => exact ha.unset hp path

end Account

/-! ## What a call leaves in the store -/

variable {s : Scheduler} {k : Kind} {e : Entry}

/-- What a kind has in the table is written under this kind. -/
def Keyed (s : Scheduler) : Prop := ∀ k e, s.table.get? k = some e → e.kind = k

theorem Owned.keyed {first : Nat} {bank : List TimerState} (ho : Owned first s bank) : s.Keyed :=
  fun _ _ he => ho.kind he

theorem Keyed.setEntry (hkeyed : s.Keyed) (hk : k ≠ .invalid) {o : Option Entry}
    (ho : ∀ d, o = some d → d.kind = k) : (s.setEntry k o).Keyed := by
  intro j d hd
  rw [get?_setEntry hk] at hd
  split at hd
  · rename_i hjk
    exact (ho d hd).trans hjk.symm
  · exact hkeyed j d hd

theorem Keyed.request (hkeyed : s.Keyed) (hr : Requested s k e) : (s.setEntry k (some e)).Keyed := by
  refine hkeyed.setEntry hr.schedulable fun d hd => ?_
  cases hd
  rw [hr.kind]
  cases hold : s.table.get? k with
  | none => rfl
  | some d => exact hkeyed k d hold

theorem Keyed.schedule (hkeyed : s.Keyed) (k : Kind) (h : Host) : (s.schedule k h).2.1.Keyed := by
  cases he : s.table.get? k with
  | none =>
      rw [schedule_of_none h he]
      exact hkeyed
  | some e =>
      have hk := Table.ne_invalid_of_get? he
      have hcases := schedule_cases (h := h) he
      generalize (s.schedule k h).1 = r, (s.schedule k h).2.1 = s',
        (s.schedule k h).2.2.bank = bank' at hcases
      cases hcases with
      | written => exact hkeyed
      | refused | armed =>
          refine hkeyed.setEntry hk fun d hd => ?_
          cases hd
          exact hkeyed k e he
      | dropped => exact hkeyed.setEntry hk fun d hd => by cases hd

theorem schedule_wrote (hkeyed : s.Keyed) (k : Kind) (h : Host) :
    Wrote (s.entryWritten k) h (s.schedule k h).2.2 := by
  cases he : s.table.get? k with
  | none =>
      rw [entryWritten_of_none he, schedule_of_none h he]
      exact .ofSettings rfl
  | some e =>
      rw [entryWritten_of_some he]
      exact (persist_wrote (hkeyed k e he) h).ofTimers (schedule_timersOnly he)

theorem unschedule_wrote (hkeyed : s.Keyed) (k : Kind) (h : Host) :
    Wrote (s.entryWritten k) h (s.unschedule k h).2.2 := by
  cases he : s.table.get? k with
  | none =>
      rw [entryWritten_of_none he, unschedule_of_none h he]
      exact .ofSettings rfl
  | some e =>
      rw [entryWritten_of_some he]
      exact (persist_wrote (hkeyed k e he) h).ofTimers (unschedule_timersOnly he)

theorem wrote_account : Account (fun s _ => s.Keyed) Wrote where
  quiet hsettings _ _ := .ofSettings hsettings
  trans := Wrote.trans
  schedule k hkeyed := schedule_wrote hkeyed k _
  unschedule k hkeyed := unschedule_wrote hkeyed k _
  request := Keyed.request
  scheduled k hkeyed := hkeyed.schedule k _
  congr hkeyed htable _ _ := fun k e he => hkeyed k e (by rwa [htable] at he)

theorem disarmEach_settings (kinds : List Kind) (s : Scheduler) (h : Host) :
    (disarmEach kinds s h).2.settings = h.settings := by
  induction kinds generalizing s h with
  | nil => rfl
  | cons k rest ih =>
      unfold disarmEach
      split
      · exact ih s h
      · rename_i e he
        refine (ih _ _).trans ?_
        exact ((disarm_timersOnly e h).trans (noteFailure_timersOnly _ _ _)).settings

theorem halt_wrote (s : Scheduler) (h : Host) : Wrote [] h (s.halt h).2 :=
  .ofSettings (disarmEach_settings Kind.schedulable s h)

theorem perform_wrote (op : Operation) {s : Scheduler} (hkeyed : s.Keyed) (h : Host) :
    Wrote (op.written s h) h (op.perform s h).2.2 := by
  by_cases hop : ∃ timeoutMillis, op = .stop timeoutMillis
  · obtain ⟨timeoutMillis, rfl⟩ := hop
    exact (halt_wrote s h).trans (.ofSettings (await_work timeoutMillis _ _).settings)
  · exact wrote_account.perform hkeyed op fun timeoutMillis heq => hop ⟨timeoutMillis, heq⟩

end Scheduler
end TelemetryAgent
