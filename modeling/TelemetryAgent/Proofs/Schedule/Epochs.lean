import TelemetryAgent.Proofs.Schedule.Deliveries
import TelemetryAgent.Proofs.Schedule.Load

/-!
# Epochs

Every start that is not refused for running begins an epoch, and a worker belongs to the epoch in
which it was spawned. The epoch is a number of 32 bits. As long as fewer epochs have begun than it
can tell apart, a worker that is current is one whose epoch is the last that has begun, whatever the
workers of earlier starts are still at.

What begins an epoch in a log depends on how closely starts are looked at: the start itself, if it is
one step, or the moment inside it at which the epoch is raised.
-/
namespace TelemetryAgent

namespace Crew
open Occurrence

variable {given : Nat → Prop} {begins : Occurrence → Bool} {base : Nat} {c c' : Crew}
  {new : List Occurrence}

/-- Numbers that fit are not confused. -/
theorem eq_of_ofNat_eq {a b : Nat} (ha : a < UInt32.size) (hb : b < UInt32.size)
    (heq : UInt32.ofNat a = UInt32.ofNat b) : a = b := by
  have hnat := congrArg UInt32.toNat heq
  rw [UInt32.toNat_ofNat', UInt32.toNat_ofNat', Nat.mod_eq_of_lt ha, Nat.mod_eq_of_lt hb] at hnat
  exact hnat

/-- The workers from number `base` on are those of the scheduler. Each was given its publisher by a
start, and carries the number of the epoch that had begun by then. -/
structure Enrolled (begins : Occurrence → Bool) (base : Nat) (c : Crew) : Prop where
  base_le : base ≤ c.workers.length
  epoch : c.epoch = UInt32.ofNat (c.log.countP begins)
  own : ∀ (i : Nat) (w : Worker), base ≤ i → c.workers[i]? = some w → w.owner = c.ident
  foreign : ∀ (i : Nat) (w : Worker), i < base → c.workers[i]? = some w → w.owner ≠ c.ident
  serial : ∀ (i : Nat) (w : Worker), base ≤ i → c.workers[i]? = some w → ∃ before after,
    c.log = before ++ .started i w.publisher :: after ∧
      w.epoch = UInt32.ofNat ((before ++ [.started i w.publisher]).countP begins)
  started : ∀ (i p : Nat), .started i p ∈ c.log →
    base ≤ i ∧ ∃ w, c.workers[i]? = some w ∧ w.publisher = p
  handed : ∀ (i p : Nat) (k : Kind), .handed i p k ∈ c.log →
    base ≤ i ∧ ∃ w, c.workers[i]? = some w ∧ w.publisher = p

theorem owner_of_current {w : Worker} (hcurrent : c.isCurrent w = true) :
    w.owner = c.ident ∧ c.running = true ∧ c.epoch = w.epoch := by
  simp only [isCurrent, Bool.and_eq_true, beq_iff_eq] at hcurrent
  exact ⟨hcurrent.1.1, hcurrent.1.2, hcurrent.2⟩

theorem Enrolled.base_le_of_current (he : Enrolled begins base c) {i : Nat} {w : Worker}
    (hw : c.workers[i]? = some w) (hcurrent : c.isCurrent w = true) : base ≤ i := by
  rcases Nat.lt_or_ge i base with hlt | hle
  · exact (he.foreign i w hlt hw (owner_of_current hcurrent).1).elim
  · exact hle

/-- Nothing has been heard of a worker that has not been spawned. -/
theorem Enrolled.unheard (he : Enrolled begins base c) : Unheard c.workers.length c.log := by
  intro q
  constructor
  · intro hmem
    obtain ⟨-, w, hw, -⟩ := he.started _ q hmem
    rw [List.getElem?_eq_none (Nat.le_refl _)] at hw
    cases hw
  · intro k hmem
    obtain ⟨-, w, hw, -⟩ := he.handed _ q k hmem
    rw [List.getElem?_eq_none (Nat.le_refl _)] at hw
    cases hw

/-- Time keeps the books if the epoch counts what begins one, a worker that is new is of this epoch
and the last thing in the log, and only a worker that is current takes notifications. -/
theorem Enrolled.onward (he : Enrolled begins base c) (hsince : Since given c c' new)
    (hepoch : c'.epoch = UInt32.ofNat (c'.log.countP begins))
    (hspawned : ∀ (i : Nat) (w' : Worker), c.workers.length ≤ i → c'.workers[i]? = some w' →
      w'.epoch = c'.epoch ∧ ∃ before, c'.log = before ++ [.started i w'.publisher])
    (hhanded : ∀ (i p : Nat) (k : Kind), .handed i p k ∈ new →
      ∃ w, c.workers[i]? = some w ∧ c.isCurrent w = true ∧ w.publisher = p) :
    Enrolled begins base c' := by
  have hbase := he.base_le
  refine ⟨Nat.le_trans hbase hsince.length_le, hepoch, fun i w' hi hw' => ?_, fun i w' hi hw' => ?_,
    fun i w' hi hw' => ?_, fun i p hmem => ?_, fun i p k hmem => ?_⟩
  · rw [hsince.ident]
    rcases Nat.lt_or_ge i c.workers.length with hlt | hge
    · obtain ⟨w, hw, honward⟩ := hsince.of_lt hlt hw'
      exact honward.owner.trans (he.own i w hi hw)
    · exact (hsince.spawned i w' hge hw').1
  · obtain ⟨w, hw, honward⟩ := hsince.of_lt (Nat.lt_of_lt_of_le hi hbase) hw'
    rw [hsince.ident, honward.owner]
    exact he.foreign i w hi hw
  · rcases Nat.lt_or_ge i c.workers.length with hlt | hge
    · obtain ⟨w, hw, honward⟩ := hsince.of_lt hlt hw'
      obtain ⟨before, after, hlog, hserial⟩ := he.serial i w hi hw
      rw [honward.publisher, honward.epoch]
      refine ⟨before, after ++ new, ?_, hserial⟩
      rw [hsince.log, hlog, List.append_assoc]
      rfl
    · obtain ⟨hnow, before, hlog⟩ := hspawned i w' hge hw'
      refine ⟨before, [], hlog, ?_⟩
      rw [hnow, hepoch, hlog]
  · rw [hsince.log] at hmem
    rcases List.mem_append.mp hmem with hold | hnew
    · obtain ⟨hi, w, hw, hp⟩ := he.started i p hold
      obtain ⟨w', hw', honward⟩ := hsince.kept i w hw
      exact ⟨hi, w', hw', honward.publisher.trans hp⟩
    · obtain ⟨hi, -, hthere⟩ := hsince.started i p hnew
      exact ⟨Nat.le_trans hbase hi, hthere⟩
  · have hbefore : base ≤ i ∧ ∃ w, c.workers[i]? = some w ∧ w.publisher = p := by
      rw [hsince.log] at hmem
      rcases List.mem_append.mp hmem with hold | hnew
      · exact he.handed i p k hold
      · obtain ⟨w, hw, hcurrent, hp⟩ := hhanded i p k hnew
        exact ⟨he.base_le_of_current hw hcurrent, w, hw, hp⟩
    obtain ⟨hi, w, hw, hp⟩ := hbefore
    obtain ⟨w', hw', honward⟩ := hsince.kept i w hw
    exact ⟨hi, w', hw', honward.publisher.trans hp⟩

/-- No epoch has begun since the start of a worker that is current. -/
theorem Enrolled.last_of_current (he : Enrolled begins base c)
    (hfew : c.log.countP begins < UInt32.size) {i : Nat} {w : Worker}
    (hw : c.workers[i]? = some w) (hcurrent : c.isCurrent w = true) :
    ∃ before after, c.log = before ++ .started i w.publisher :: after ∧
      ∀ o ∈ after, begins o = false := by
  obtain ⟨before, after, hlog, hserial⟩ := he.serial i w (he.base_le_of_current hw hcurrent) hw
  have hcount : c.log.countP begins =
      (before ++ [Occurrence.started i w.publisher]).countP begins + after.countP begins := by
    rw [← List.countP_append, List.append_assoc, hlog]
    rfl
  have hsame : c.log.countP begins =
      (before ++ [Occurrence.started i w.publisher]).countP begins := by
    apply eq_of_ofNat_eq hfew (by omega)
    rw [← he.epoch, ← hserial]
    exact (owner_of_current hcurrent).2.2
  have hnone : after.countP begins = 0 := by omega
  refine ⟨before, after, hlog, fun o ho => ?_⟩
  simpa using List.countP_eq_zero.mp hnone o ho

/-- A worker is handed notifications for the publisher of its own start. -/
theorem Enrolled.handed_publisher (he : Enrolled begins base c) {i q : Nat} {k : Kind}
    (hmem : .handed i q k ∈ c.log) :
    .started i q ∈ c.log ∧ ∀ p, .started i p ∈ c.log → p = q := by
  obtain ⟨hi, w, hw, hq⟩ := he.handed i q k hmem
  obtain ⟨before, after, hlog, -⟩ := he.serial i w hi hw
  refine ⟨?_, fun p hstarted => ?_⟩
  · rw [hlog, hq]
    exact List.mem_append_right _ List.mem_cons_self
  · obtain ⟨-, v, hv, hp⟩ := he.started i p hstarted
    rw [hw] at hv
    cases hv
    exact hp.symm.trans hq

end Crew

/-! ## A start in one step -/

namespace Occurrence

/-- A start that began an epoch. -/
def begins : Occurrence → Bool
  | started _ _ => true
  | refused => true
  | _ => false

def epochs (log : List Occurrence) : Nat := log.countP begins

@[simp] theorem epochs_append (log new : List Occurrence) :
    epochs (log ++ new) = epochs log + epochs new := List.countP_append

/-- Two places in a log: they are the same, or one lies behind the other. -/
theorem split_cases {before₁ before₂ after₁ after₂ : List Occurrence} {s₁ s₂ : Occurrence}
    (h : before₁ ++ s₁ :: after₁ = before₂ ++ s₂ :: after₂) :
    s₁ = s₂ ∨ s₂ ∈ after₁ ∨ s₁ ∈ after₂ := by
  rcases List.append_eq_append_iff.mp h with ⟨between, -, hafter⟩ | ⟨between, -, hafter⟩
  · cases between with
    | nil => exact .inl (List.cons.inj hafter).1
    | cons o between =>
        rw [(List.cons.inj hafter).2]
        exact .inr (.inl (List.mem_append_right _ List.mem_cons_self))
  · cases between with
    | nil => exact .inl (List.cons.inj hafter).1.symm
    | cons o between =>
        rw [(List.cons.inj hafter).2]
        exact .inr (.inr (List.mem_append_right _ List.mem_cons_self))

end Occurrence

namespace Crew
open Occurrence

variable {given : Nat → Prop} {base : Nat} {c c' : Crew}

theorem epochs_displacement (c : Crew) : epochs c.displacement = 0 := by
  unfold displacement
  split
  · rfl
  · split <;> rfl

/-- Only a start begins an epoch, and only one. -/
theorem Step.epochs (hs : Step given c c') :
    (c'.epoch = c.epoch ∧ epochs c'.log = epochs c.log) ∨
      (c'.epoch = c.epoch + 1 ∧ epochs c'.log = epochs c.log + 1) := by
  cases hs with
  | start =>
      refine .inr ⟨rfl, ?_⟩
      simp only [epochs_append, epochs_displacement]
      rfl
  | refuse => exact .inr ⟨rfl, epochs_append _ _⟩
  | accept | lose | take | finish => exact .inl ⟨rfl, epochs_append _ _⟩
  | halt | join | mourn | elapse | look => exact .inl ⟨rfl, rfl⟩

/-- A worker that has just been spawned is the one of the start that has just been made. -/
theorem Step.spawned (hs : Step given c c') {i : Nat} {w' : Worker} (hle : c.workers.length ≤ i)
    (hw' : c'.workers[i]? = some w') :
    w'.epoch = c'.epoch ∧ ∃ before, c'.log = before ++ [.started i w'.publisher] := by
  have hnone : c'.workers.length = c.workers.length → False := fun hlength => by
    rw [List.getElem?_eq_none (by omega)] at hw'
    cases hw'
  cases hs with
  | start =>
      obtain ⟨rfl, rfl⟩ := eq_of_getElem?_concat hle hw'
      exact ⟨rfl, c.log ++ c.displacement, (List.append_assoc ..).symm⟩
  | join | take | finish | look => exact (hnone (List.length_modify ..)).elim
  | elapse => exact (hnone (List.length_map ..)).elim
  | refuse | halt | mourn | accept | lose => exact (hnone rfl).elim

/-- Only a worker that is current takes a notification, for the publisher that it was given. -/
theorem Step.handed_of_mem (hs : Step given c c') {new : List Occurrence}
    (hlog : c'.log = c.log ++ new) {i p : Nat} {k : Kind} (hmem : .handed i p k ∈ new) :
    ∃ w, c.workers[i]? = some w ∧ c.isCurrent w = true ∧ w.publisher = p := by
  cases hs with
  | start =>
      rw [← List.append_cancel_left hlog] at hmem
      rcases mem_displacement_concat hmem with ⟨j, heq, -⟩ | heq <;> cases heq
  | @take j w l rest hw _ hcurrent _ =>
      rw [eq_of_append_eq hlog] at hmem
      cases List.mem_singleton.mp hmem
      exact ⟨w, hw, hcurrent, rfl⟩
  | refuse | accept | lose | finish =>
      rw [eq_of_append_eq hlog] at hmem
      cases List.mem_singleton.mp hmem
  | halt | join | mourn | elapse | look =>
      rw [List.self_eq_append_right.mp hlog] at hmem
      cases hmem

theorem Enrolled.step (he : Enrolled Occurrence.begins base c) (hs : Step given c c') :
    Enrolled Occurrence.begins base c' := by
  obtain ⟨new, hsince⟩ := hs.since
  refine he.onward hsince ?_ (fun i w' => hs.spawned) fun i p k => hs.handed_of_mem hsince.log
  have hepoch : c.epoch = UInt32.ofNat (Occurrence.epochs c.log) := he.epoch
  change c'.epoch = UInt32.ofNat (Occurrence.epochs c'.log)
  rcases hs.epochs with ⟨hsame, hcount⟩ | ⟨hnext, hcount⟩
  · rw [hsame, hcount, hepoch]
  · rw [hnext, hcount, hepoch, UInt32.ofNat_add]
    rfl

theorem Enrolled.steps (he : Enrolled Occurrence.begins base c) (hs : Steps given c c') :
    Enrolled Occurrence.begins base c' := by
  induction hs with
  | refl => exact he
  | tail _ hstep ih => exact ih.step hstep

theorem Enrolled.current_unique (he : Enrolled Occurrence.begins base c)
    (hfew : Occurrence.epochs c.log < UInt32.size) {i j : Nat} {w v : Worker}
    (hw : c.workers[i]? = some w) (hv : c.workers[j]? = some v) (hcw : c.isCurrent w = true)
    (hcv : c.isCurrent v = true) : i = j := by
  obtain ⟨before₁, after₁, hlog₁, hlast₁⟩ := he.last_of_current hfew hw hcw
  obtain ⟨before₂, after₂, hlog₂, hlast₂⟩ := he.last_of_current hfew hv hcv
  rcases split_cases (hlog₁.symm.trans hlog₂) with hsame | hmem | hmem
  · exact (Occurrence.started.inj hsame).1
  · exact nomatch hlast₁ _ hmem
  · exact nomatch hlast₂ _ hmem

end Crew

/-! ## A scheduler that has just been made -/

/-- No worker belongs to a scheduler that is yet to be made. -/
def Host.Numbered (h : Host) : Prop := ∀ w ∈ h.tasks.workers, w.owner < h.schedulers

namespace System

theorem enrolled_of_fresh {baseline : List BaselineItem} {config : WorkerConfig} {h h₀ : Host}
    {s : Scheduler} (hfresh : Scheduler.Fresh baseline config h s h₀) (hn : h.Numbered)
    (begins : Occurrence → Bool) :
    Crew.Enrolled begins h₀.tasks.workers.length (Crew.of s h₀ []) where
  base_le := Nat.le_refl _
  epoch := hfresh.epoch
  own := fun i w hle hw => by
    rw [show (Crew.of s h₀ []).workers[i]? = none from List.getElem?_eq_none hle] at hw
    cases hw
  foreign := fun i w _ hw => by
    have hmem : w ∈ h.tasks.workers := by
      rw [← hfresh.tasks]
      exact List.mem_of_getElem? hw
    have hlt := hn w hmem
    rw [show (Crew.of s h₀ []).ident = h.schedulers from hfresh.ident]
    omega
  serial := fun i w hle hw => by
    rw [show (Crew.of s h₀ []).workers[i]? = none from List.getElem?_eq_none hle] at hw
    cases hw
  started := fun i p hmem => by cases hmem
  handed := fun i p k hmem => by cases hmem

end System
end TelemetryAgent
