import TelemetryAgent.Proofs.Schedule.Ordering

/-!
# One kind at a time

A call on one kind writes the two leaves of this kind, calls its timer, and changes its entry. What
the scheduler, the timers and the store have for the other kinds is as it was, whatever fails. This
rests on one invariant of the table: an entry is kept in the place of its own kind.
-/
namespace TelemetryAgent

namespace Call

/-- A save under one of the two keys of a kind, or a call on a timer of the kind, given the kinds of
the timers by their numbers. -/
def Concerns (kinds : List Kind) (k : Kind) : Call → Prop
  | save subtree key _ =>
    subtree = "telemetry" ∧
      (key = String.ofList (Text.natural k.ordinal ++ "/periods".toList) ∨
        key = String.ofList (Text.natural k.ordinal ++ "/enable".toList))
  | timerCreate _ j => j = k
  | timerStart timer _ => kinds[timer]? = some k
  | timerStop timer => kinds[timer]? = some k
  | timerRelease timer => kinds[timer]? = some k
  | _ => False

variable {kinds kinds' : List Kind} {k : Kind} {e : Entry} {c : Call}

theorem Concerns.mono (hle : kinds <+: kinds') (hc : c.Concerns kinds k) : c.Concerns kinds' k := by
  cases c with
  | save => exact hc
  | timerCreate => exact hc
  | timerStart => exact getElem?_of_isPrefix hle hc
  | timerStop => exact getElem?_of_isPrefix hle hc
  | timerRelease => exact getElem?_of_isPrefix hle hc
  | _ => exact hc.elim

theorem Serves.concerns (hc : c.Serves kinds e) : c.Concerns kinds e.kind := by
  cases c with
  | timerCreate => exact hc
  | timerStart => exact hc.1
  | timerStop => exact hc
  | timerRelease => exact hc
  | _ => exact hc.elim

theorem concerns_save (kinds : List Kind) (k : Kind) (s : Setting) (value : Bytes) :
    (save Setting.subtree (s.key k) value).Concerns kinds k := by
  cases s with
  | period => exact ⟨rfl, .inl rfl⟩
  | enable => exact ⟨rfl, .inr rfl⟩

end Call

/-! ## Leaves of one kind -/

namespace Leaves

variable {l : Leaves} {written : List (String × Bytes)} {k : Kind}

/-- What is put elsewhere leaves a leaf. -/
theorem get?_putEach_of_ne {path : String} (hpaths : ∀ leaf ∈ written, path ≠ leaf.1) (l : Leaves) :
    (l.putEach written).get? path = l.get? path := by
  induction written generalizing l with
  | nil => rfl
  | cons leaf rest ih =>
      have hrest := ih (fun other hother => hpaths other (List.mem_cons_of_mem leaf hother))
        (l.put leaf.1 leaf.2)
      refine hrest.trans ?_
      rw [get?_put, if_neg (hpaths leaf List.mem_cons_self)]

end Leaves

namespace Host

/-- The leaves that writing an entry puts are those of its kind, also if a save fails. -/
theorem persist_puts (e : Entry) (h : Host) :
    ∃ written : List (String × Bytes), (∀ leaf ∈ written, ∃ t, leaf.1 = Leaves.place e.kind t) ∧
      (h.persist e).settings.leaves = h.settings.leaves.putEach written := by
  obtain ⟨n, -, hsettings, -⟩ := saveSettings_takes e.kind e.settings h
  refine ⟨_, fun leaf hleaf => ?_, congrArg SettingsStore.leaves ((persist_settings e h).trans hsettings)⟩
  obtain ⟨t, -, rfl⟩ := List.mem_map.mp (List.mem_of_mem_take hleaf)
  exact ⟨t, rfl⟩

end Host

/-! ## Calls on one kind -/

namespace Operation
open Scheduler

/-- A call on one kind, by its name or by a path. -/
inductive On (k : Kind) : Operation → Prop
  | schedule : On k (.schedule k)
  | unschedule : On k (.unschedule k)
  | set {path : String} {field : ConfigField} (value : Value) :
      Request.parse path = .ok (k, field) → On k (.set path value)
  | unset {path : String} {field : ConfigField} :
      Request.parse path = .ok (k, field) → On k (.unset path)

/-- What a call on one kind comes to: it finds no entry, or it schedules or unschedules the entry that
it asks for. -/
inductive Handled (k : Kind) (op : Operation) (s : Scheduler) (h : Host) :
    Outcome × Scheduler × Host → Prop
  | absent : s.table.get? k = none → Handled k op s h (.error .invalidKind, s, h)
  | unset : s.table.get? k = none →
      Handled k op s h (.error .startFailed, s, h.note (.unsetWithoutEntry k))
  | scheduled {e : Entry} : Requested s k e → op.asked? k s = some (e.written k) →
      Handled k op s h ((s.setEntry k (some e)).schedule k h)
  | unscheduled {e : Entry} : Requested s k e → op.asked? k s = some (e.written k) →
      Handled k op s h ((s.setEntry k (some e)).unschedule k h)

variable {op : Operation} {s : Scheduler} {h : Host} {k : Kind} {e : Entry}

theorem handled_of_request (hr : Requested s k e) (hrequest : op.request? s = some (k, e)) (h : Host) :
    Handled k op s h ((s.setEntry k (some e)).apply k h) := by
  have hasked : op.asked? k s = some (e.written k) := by
    rw [asked?_of_request hrequest, if_pos rfl]
  have hget : (s.setEntry k (some e)).table.get? k = some e := by
    rw [get?_setEntry hr.schedulable, if_pos rfl]
  cases henabled : e.enabled with
  | true =>
      rw [apply_of_enabled h hget henabled]
      exact .scheduled hr hasked
  | false =>
      rw [apply_of_disabled h hget henabled]
      exact .unscheduled hr hasked

theorem On.handled (hop : op.On k) (s : Scheduler) (h : Host) : Handled k op s h (op.perform s h) := by
  cases hop with
  | schedule =>
      change Handled k (.schedule k) s h (s.schedule k h)
      cases he : s.table.get? k with
      | none =>
          rw [schedule_of_none h he]
          exact .absent he
      | some e =>
          have hasked : (Operation.schedule k).asked? k s = some (e.written k) := by
            rw [asked?_of_no_request rfl, fields?, he, Option.map_some]
          have hhandled := Handled.scheduled (h := h) (.self he) hasked
          rwa [setEntry_self he] at hhandled
  | unschedule =>
      change Handled k (.unschedule k) s h (s.unschedule k h)
      cases he : s.table.get? k with
      | none =>
          rw [unschedule_of_none h he]
          exact .absent he
      | some e =>
          have hasked : (Operation.unschedule k).asked? k s = some (e.written k) := by
            rw [asked?_of_no_request rfl, fields?, he, Option.map_some]
          have hhandled := Handled.unscheduled (h := h) (.self he) hasked
          rwa [setEntry_self he] at hhandled
  | @set path field value hparse =>
      have hrequest : (Operation.set path value).request? s = _ := setRequest_of_parse hparse value s
      have happly : (Operation.set path value).perform s h = _ := set_of_request h hrequest
      rw [happly]
      exact handled_of_request (requested_of_set hrequest) hrequest h
  | @unset path field hparse =>
      have hrequest : (Operation.unset path).request? s = _ := unsetRequest_of_parse hparse s
      cases he : s.table.get? k with
      | none =>
          have hunset : (Operation.unset path).perform s h =
              (.error .startFailed, s, h.note (.unsetWithoutEntry k)) := by
            change s.unset path h = _
            simp only [Scheduler.unset, hparse, he]
          rw [hunset]
          exact .unset he
      | some e =>
          rw [he, Option.map_some] at hrequest
          have happly : (Operation.unset path).perform s h = _ := unset_of_request h hrequest
          rw [happly]
          exact handled_of_request (requested_of_unset hrequest) hrequest h

end Operation

/-! ## What stays as it was -/

namespace Scheduler
open Host

/-- Every call was for one kind, and only its entry, its timers and its leaves have changed. -/
structure Within (k : Kind) (s : Scheduler) (h : Host) (s' : Scheduler) (h' : Host) : Prop where
  made : Makes (Call.Concerns h'.kinds k) h h'
  kinds : h.kinds <+: h'.kinds
  entries : ∀ j, j ≠ k → s'.table.get? j = s.table.get? j
  timers : OthersKept k h.bank h'.bank
  leaves : ∃ written : List (String × Bytes), (∀ leaf ∈ written, ∃ t, leaf.1 = Leaves.place k t) ∧
    h'.settings.leaves = h.settings.leaves.putEach written

variable {first : Nat} {s s₁ s₂ : Scheduler} {h h₁ h₂ : Host} {k : Kind} {e : Entry}

theorem Within.quiet (hcalls : h₁.calls = h.calls) (hcallers : SameCaller h h₁)
    (htimers : h₁.timers = h.timers) (hsettings : h₁.settings = h.settings) :
    Within k s h s h₁ where
  made := .quiet hcalls hcallers.callbacks hcallers.mode
  kinds := kinds_congr htimers ▸ List.prefix_refl _
  entries := fun _ _ => rfl
  timers := by
    rw [bank, bank, htimers]
    exact .refl k _
  leaves := by
    refine ⟨[], fun _ hmem => (List.not_mem_nil hmem).elim, ?_⟩
    rw [hsettings]
    rfl

theorem Within.refl (k : Kind) (s : Scheduler) (h : Host) : Within k s h s h :=
  .quiet rfl (.refl h) rfl rfl

theorem Within.trans (hw₁ : Within k s h s₁ h₁) (hw₂ : Within k s₁ h₁ s₂ h₂) :
    Within k s h s₂ h₂ where
  made := (hw₁.made.mono fun _ hc => hc.mono hw₂.kinds).trans hw₂.made
  kinds := hw₁.kinds.trans hw₂.kinds
  entries := fun j hj => (hw₂.entries j hj).trans (hw₁.entries j hj)
  timers := fun i t htk hlive => (hw₂.timers i t htk hlive).trans (hw₁.timers i t htk hlive)
  leaves := by
    obtain ⟨written₁, hplaces₁, hleaves₁⟩ := hw₁.leaves
    obtain ⟨written₂, hplaces₂, hleaves₂⟩ := hw₂.leaves
    refine ⟨written₁ ++ written₂, fun leaf hleaf => ?_, ?_⟩
    · exact (List.mem_append.mp hleaf).elim (hplaces₁ leaf) (hplaces₂ leaf)
    · rw [hleaves₂, hleaves₁]
      exact List.foldl_append.symm

theorem Within.setEntry (hk : k ≠ .invalid) (o : Option Entry) (s : Scheduler) (h : Host) :
    Within k s h (s.setEntry k o) h :=
  { Within.refl k s h with entries := (Apart.setEntry hk o s).other }

theorem persist_within (hkind : e.kind = k) (s : Scheduler) (h : Host) :
    Within k s h s (h.persist e) where
  made := by
    subst hkind
    exact persist_makes (fun t => Call.concerns_save _ e.kind t t.encode) h
  kinds := kinds_congr (persist_storeOnly e h).timers ▸ List.prefix_refl _
  entries := fun _ _ => rfl
  timers := by
    rw [bank, bank, (persist_storeOnly e h).timers]
    exact .refl k _
  leaves := by
    subst hkind
    exact persist_puts e h

/-- Calls on the timer of a kind that change its entry. -/
theorem within_of_serves (hkind : e.kind = k) (hmade : Makes (Call.Serves h₁.kinds e) h h₁)
    (hkinds : h.kinds <+: h₁.kinds) (hentries : ∀ j, j ≠ k → s₁.table.get? j = s.table.get? j)
    (htimers : OthersKept k h.bank h₁.bank) (hsettings : h₁.settings = h.settings) :
    Within k s h s₁ h₁ where
  made := by
    subst hkind
    exact hmade.mono fun _ hc => hc.concerns
  kinds := hkinds
  entries := hentries
  timers := htimers
  leaves := by
    refine ⟨[], fun _ hmem => (List.not_mem_nil hmem).elim, ?_⟩
    rw [hsettings]
    rfl

theorem Scheduled.othersKept {bank bank' : List TimerState} {r : Outcome}
    (ho : Owned first s bank) (he : s.table.get? k = some e)
    (hs : Scheduled k e s bank r s₁ bank') : OthersKept k bank bank' := by
  cases hs with
  | refused => exact .retire ho he
  | written => exact .refl k bank
  | armed _ _ harms => exact .arms ho he harms
  | dropped _ _ hmade => exact (OthersKept.retire ho he).append hmade

theorem schedule_within (ho : Owned first s h.bank) (k : Kind) :
    Within k s h (s.schedule k h).2.1 (s.schedule k h).2.2 := by
  cases he : s.table.get? k with
  | none =>
      rw [schedule_of_none h he]
      exact .refl k s h
  | some e =>
      have hkind := ho.kind he
      obtain ⟨hkinds, hserves⟩ := schedule_serves ho he
      have hothers := (schedule_cases (h := h) he).othersKept ho he
      have hbank : (h.persist e).bank = h.bank :=
        congrArg TimerBank.timers (persist_storeOnly e h).timers
      rw [← hbank] at hothers
      exact (persist_within hkind s h).trans
        (within_of_serves hkind hserves hkinds (schedule_apart k s h).other hothers
          (schedule_timersOnly he).settings)

theorem unschedule_within (ho : Owned first s h.bank) (k : Kind) :
    Within k s h (s.unschedule k h).2.1 (s.unschedule k h).2.2 := by
  cases he : s.table.get? k with
  | none =>
      rw [unschedule_of_none h he]
      exact .refl k s h
  | some e =>
      have hkind := ho.kind he
      have hapart := (unschedule_apart k s h).other
      have hothers := OthersKept.retire ho he
      have hbank : (h.persist e).bank = h.bank :=
        congrArg TimerBank.timers (persist_storeOnly e h).timers
      have hown := ho.kinds he
      rw [← kinds_congr (persist_storeOnly e h).timers] at hown
      have hserves := disarm_serves hown
      rw [← kinds_disarm e] at hserves
      rw [← hbank, ← bank_disarm] at hothers
      have hkinds : (h.persist e).kinds <+: ((h.persist e).disarm e).2.kinds :=
        kinds_disarm e _ ▸ List.prefix_refl _
      rw [unschedule_of_some h he] at hapart ⊢
      exact (persist_within hkind s h).trans
        (within_of_serves hkind hserves hkinds hapart hothers (disarm_timersOnly e _).settings)

/-- A call on one kind stays within that kind. -/
theorem perform_within {op : Operation} (hop : op.On k) (ho : Owned first s h.bank) :
    Within k s h (op.perform s h).2.1 (op.perform s h).2.2 := by
  have hhandled := hop.handled s h
  generalize op.perform s h = result at hhandled
  cases hhandled with
  | absent => exact .refl k s h
  | unset => exact .quiet rfl ⟨rfl, rfl⟩ rfl rfl
  | scheduled hr =>
      exact (Within.setEntry hr.schedulable _ s h).trans (schedule_within (ho.request hr) k)
  | unscheduled hr =>
      exact (Within.setEntry hr.schedulable _ s h).trans (unschedule_within (ho.request hr) k)

/-- Another kind stays armed or unarmed. -/
theorem Within.isArmed (hw : Within k s h s₁ h₁) (ho : Owned first s h.bank) {j : Kind}
    (hj : j ≠ k) : s₁.isArmed j h₁ = s.isArmed j h := by
  unfold Scheduler.isArmed
  rw [hw.entries j hj]
  cases he : s.table.get? j with
  | none => rfl
  | some e =>
      cases htimer : e.timer with
      | none => simp only [Option.bind_some, htimer]
      | some i =>
          obtain ⟨-, interval, ht⟩ := ho.holds he htimer
          have ht₁ := (hw.timers i _ hj rfl).mpr ht
          simp only [Option.bind_some, htimer, timerRunning, ht, ht₁]

theorem Within.get?_leaves (hw : Within k s h s₁ h₁) {path : String}
    (hpath : ∀ t, path ≠ Leaves.place k t) :
    h₁.settings.leaves.get? path = h.settings.leaves.get? path := by
  obtain ⟨written, hplaces, hleaves⟩ := hw.leaves
  rw [hleaves]
  refine Leaves.get?_putEach_of_ne (fun leaf hleaf heq => ?_) _
  obtain ⟨t, ht⟩ := hplaces leaf hleaf
  exact hpath t (heq.trans ht)

theorem Within.loaded? (hw : Within k s h s₁ h₁) {j : Kind} (hj : j ≠ k) :
    h₁.settings.leaves.loaded? j = h.settings.leaves.loaded? j := by
  obtain ⟨written, hplaces, hleaves⟩ := hw.leaves
  rw [hleaves]
  refine Leaves.loaded?_putEach_of_ne (fun leaf hleaf => ?_) _
  obtain ⟨t, ht⟩ := hplaces leaf hleaf
  exact ⟨k, t, hj, ht⟩

end Scheduler

/-! ## Runs -/

namespace System
open Host Scheduler

/-- After every run, the entry in the place of a kind is one of this kind. A call on a kind then
saves under the two keys of the kind only and calls timers of the kind only, and every other kind
keeps its entry, its timers and its leaves, whatever fails. -/
theorem isolated_of_run {baseline : List BaselineItem}
    (hb : ∀ item ∈ baseline, item.kind ≠ .invalid) (config : WorkerConfig) (h : Host) :
    ∃ s h₀, Scheduler.create baseline config h = (.ok s, h₀) ∧ ∀ moves : List Move,
      let x := System.run moves ⟨s, h₀, []⟩
      (∀ k e, x.scheduler.table.get? k = some e → e.kind = k) ∧
      ∀ k op, op.On k →
        let y := x.call op
        y.host.calls = x.host.calls ++ since x.host y.host ∧
        (∀ c ∈ since x.host y.host, c.Concerns y.host.kinds k) ∧
        (∀ path, path ≠ Leaves.place k (.period 0) → path ≠ Leaves.place k (.enable false) →
          y.host.settings.leaves.get? path = x.host.settings.leaves.get? path) ∧
        ∀ j, j ≠ k →
          y.scheduler.table.get? j = x.scheduler.table.get? j ∧
          y.scheduler.isArmed j y.host = x.scheduler.isArmed j x.host ∧
          (∀ (i : Nat) (t : TimerState), t.kind = j → t.released = false →
            (y.host.bank[i]? = some t ↔ x.host.bank[i]? = some t)) ∧
          y.host.settings.leaves.loaded? j = x.host.settings.leaves.loaded? j := by
  obtain ⟨s, h₀, hcreate, hfresh⟩ := create_fresh hb config h
  refine ⟨s, h₀, hcreate, fun moves => ?_⟩
  have hw₀ : Wired h₀.bank.length s h₀.bank := hfresh.wired
  have hwired := wired_run (x := ⟨s, h₀, []⟩) hw₀ moves
  generalize run moves ⟨s, h₀, []⟩ = x at *
  refine ⟨fun k e he => hwired.owned.kind he, fun k op hop => ?_⟩
  have hwithin := perform_within hop hwired.owned
  refine ⟨hwithin.made.calls, hwithin.made.sort, fun path hperiod henable => ?_, fun j hj => ?_⟩
  · refine hwithin.get?_leaves fun t => ?_
    cases t with
    | period => exact hperiod
    | enable => exact henable
  · refine ⟨hwithin.entries j hj, hwithin.isArmed hwired.owned hj, fun i t htk hlive => ?_,
      hwithin.loaded? hj⟩
    exact hwithin.timers i t (htk ▸ hj) hlive

/-- A period that is refused, a save that fails and a timer that does not stop are one kind's own: the
other one stays armed, at its period and with its leaf. -/
theorem isolated_after_refusal :
    let h : Host :=
      { settings :=
          { leaves := Leaves.ofList [("edgehog_device/telemetry/03/periods", [14])]
            saveFault := fun i => if i = 6 then some .io else none }
        timers := { stopFault := fun _ => some .stopFailed } }
    let path := "/request/io.edgehog.devicemanager.StorageUsage/periodSeconds"
    let op := Operation.set path (.longInteger 0)
    (∀ item ∈ [BaselineItem.mk .storageUsage 30], item.kind ≠ .invalid) ∧
      op.On .storageUsage ∧
      ∃ s h₀, Scheduler.create [⟨.storageUsage, 30⟩] {} h = (.ok s, h₀) ∧
        let x := System.run [.call (.set "/request/io.edgehog.devicemanager.SystemStatus/enable"
          (.boolean true)), .call (.start 0)] ⟨s, h₀, []⟩
        let y := x.call op
        (op.perform x.scheduler x.host).1 = .error (.invalidPeriod 0) ∧
          y.scheduler.isArmed .storageUsage y.host = false ∧
          y.scheduler.isArmed .systemStatus y.host = true ∧
          y.scheduler.table.get? .systemStatus = some ⟨.systemStatus, 7, true, some 0⟩ ∧
          y.host.settings.leaves.get? "edgehog_device/telemetry/03/periods" = some [14] := by
  intro h path op
  have hb : ∀ item ∈ [BaselineItem.mk .storageUsage 30], item.kind ≠ .invalid := by decide
  have hparse : Request.parse path = .ok (.storageUsage, .periodSeconds) := by decide +kernel
  have hop : op.On .storageUsage := .set _ hparse
  refine ⟨hb, hop, ?_⟩
  obtain ⟨s, h₀, hcreate, hrun⟩ := isolated_of_run hb {} h
  refine ⟨s, h₀, hcreate, ?_⟩
  obtain ⟨-, hcall⟩ := hrun [.call (.set "/request/io.edgehog.devicemanager.SystemStatus/enable"
    (.boolean true)), .call (.start 0)]
  obtain ⟨-, -, hleaves, hothers⟩ := hcall .storageUsage op hop
  obtain ⟨hentry, harmed, -, -⟩ := hothers .systemStatus (by decide)
  have hstate :
      let x := System.run [.call (.set "/request/io.edgehog.devicemanager.SystemStatus/enable"
        (.boolean true)), .call (.start 0)] ⟨s, h₀, []⟩
      (op.perform x.scheduler x.host).1 = .error (.invalidPeriod 0) ∧
        (x.call op).scheduler.isArmed .storageUsage (x.call op).host = false ∧
        x.scheduler.isArmed .systemStatus x.host = true ∧
        x.scheduler.table.get? .systemStatus = some ⟨.systemStatus, 7, true, some 0⟩ ∧
        x.host.settings.leaves.get? "edgehog_device/telemetry/03/periods" = some [14] := by
    cases hcreate
    decide +kernel
  obtain ⟨hrefused, hunarmed, hstill, hkept, hleaf⟩ := hstate
  exact ⟨hrefused, hunarmed, harmed.trans hstill, hentry.trans hkept,
    (hleaves _ (by decide +kernel) (by decide +kernel)).trans hleaf⟩

end System
end TelemetryAgent
