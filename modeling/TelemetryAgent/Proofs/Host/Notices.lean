import TelemetryAgent.Proofs.Host.Frame

/-!
# What is noted

Work on entries adds notices to those that the host has collected and takes none back. What has been
noted since an earlier state tells whether some timer could not be armed.
-/
namespace TelemetryAgent

def Notice.isArmFailure (k : Kind) : Notice → Bool
  | armFailed j _ => j = k
  | _ => false

namespace Host

/-- The notices that `h'` has collected after those of `h`. -/
def noticesSince (h h' : Host) : List Notice := h'.notices.drop h.notices.length

/-- Between two states of a host the timer of a kind has been armed whenever it was to be. -/
def ArmsSucceed (k : Kind) (h h' : Host) : Prop :=
  ∀ n ∈ noticesSince h h', n.isArmFailure k = false

instance (k : Kind) (h h' : Host) : Decidable (ArmsSucceed k h h') :=
  inferInstanceAs (Decidable (∀ n ∈ noticesSince h h', n.isArmFailure k = false))

def Notes (h h' : Host) : Prop := h.notices <+: h'.notices

variable {h h₁ h₂ h' : Host} {k : Kind}

theorem Notes.refl (h : Host) : Notes h h := List.prefix_refl _

theorem Notes.trans (hn₁ : Notes h h₁) (hn₂ : Notes h₁ h₂) : Notes h h₂ :=
  List.IsPrefix.trans hn₁ hn₂

theorem noticesSince_trans (hn₁ : Notes h h₁) (hn₂ : Notes h₁ h₂) :
    noticesSince h h₂ = noticesSince h h₁ ++ noticesSince h₁ h₂ := by
  obtain ⟨first, hfirst⟩ := hn₁
  obtain ⟨later, hlater⟩ := hn₂
  unfold noticesSince
  rw [← hlater, List.drop_left, ← hfirst, List.drop_left, List.append_assoc, List.drop_left]

theorem ArmsSucceed.trans_iff (hn₁ : Notes h h₁) (hn₂ : Notes h₁ h₂) :
    ArmsSucceed k h h₂ ↔ ArmsSucceed k h h₁ ∧ ArmsSucceed k h₁ h₂ := by
  unfold ArmsSucceed
  rw [noticesSince_trans hn₁ hn₂]
  exact List.forall_mem_append

theorem note_notes (n : Notice) (h : Host) : Notes h (h.note n) := List.prefix_append _ _

theorem noticesSince_note (n : Notice) (h : Host) : noticesSince h (h.note n) = [n] := List.drop_left

/-- A failure to arm does not go unnoted. -/
theorem not_armsSucceed_note (k : Kind) (f : Fault) (h : Host) :
    ¬ ArmsSucceed k h (h.note (.armFailed k f)) := by
  intro hok
  have hthis := hok (.armFailed k f) (by rw [noticesSince_note]; exact List.mem_singleton_self _)
  rw [Notice.isArmFailure, decide_eq_true rfl] at hthis
  cases hthis

/-- Notices have been added at most, and none of them says that a timer could not be armed. -/
structure Quiet (h h' : Host) : Prop where
  notes : Notes h h'
  arms : ∀ k, ArmsSucceed k h h'

theorem Quiet.ofEq (heq : h'.notices = h.notices) : Quiet h h' where
  notes := ⟨[], by rw [List.append_nil, heq]⟩
  arms := fun k n hn => by
    unfold noticesSince at hn
    rw [heq, List.drop_length] at hn
    cases hn

theorem Quiet.refl (h : Host) : Quiet h h := .ofEq rfl

theorem Quiet.trans (hq₁ : Quiet h h₁) (hq₂ : Quiet h₁ h₂) : Quiet h h₂ where
  notes := hq₁.notes.trans hq₂.notes
  arms := fun k => (ArmsSucceed.trans_iff hq₁.notes hq₂.notes).mpr ⟨hq₁.arms k, hq₂.arms k⟩

theorem note_quiet {n : Notice} (hn : ∀ k, n.isArmFailure k = false) (h : Host) :
    Quiet h (h.note n) where
  notes := note_notes n h
  arms := fun k m hm => by
    rw [noticesSince_note, List.mem_singleton] at hm
    exact hm ▸ hn k

theorem noteFailure_quiet (r : Outcome) {n : Fault → Notice}
    (hn : ∀ f k, (n f).isArmFailure k = false) (h : Host) : Quiet h (h.noteFailure r n) := by
  cases r with
  | ok => exact .refl h
  | error f => exact note_quiet (hn f) h

/-! ## Settings -/

theorem save_notices (subtree key : String) (value : Bytes) (h : Host) :
    (h.save subtree key value).2.notices = h.notices := by
  unfold save
  dsimp only
  split <;> rfl

theorem saveSettings_notices (k : Kind) (settings : List Setting) (h : Host) :
    (h.saveSettings k settings).2.notices = h.notices := by
  induction settings generalizing h with
  | nil => rfl
  | cons s rest ih =>
      have hsave := save_notices Setting.subtree (s.key k) s.encode h
      unfold saveSettings
      split
      · rename_i f h₁ heq
        rwa [heq] at hsave
      · rename_i h₁ heq
        rw [heq] at hsave
        exact (ih h₁).trans hsave

theorem persist_quiet (e : Entry) (h : Host) : Quiet h (h.persist e) := by
  have hsaves := saveSettings_notices e.kind e.settings h
  unfold persist
  split
  · rename_i f h₁ heq
    rw [heq] at hsaves
    exact (Quiet.ofEq hsaves).trans (note_quiet (fun _ => rfl) h₁)
  · rename_i h₁ heq
    rw [heq] at hsaves
    exact .ofEq hsaves

/-! ## Timers -/

@[simp] theorem recordTimer_notices (c : Call) (h : Host) :
    (h.recordTimer c).notices = h.notices := by
  unfold recordTimer
  split <;> rfl

theorem timerCall_notices (plan : TimerBank → Nat → Option Fault) (h : Host) :
    (h.timerCall plan).2.notices = h.notices := rfl

theorem createTimer_notices (owner : Nat) (k : Kind) (h : Host) :
    (h.createTimer owner k).2.notices = h.notices := by
  have hcall := timerCall_notices TimerBank.createFault h
  unfold createTimer
  split
  · rename_i f h₁ heq
    rw [heq] at hcall
    exact (recordTimer_notices _ h₁).trans hcall
  · rename_i h₁ heq
    rw [heq] at hcall
    exact (recordTimer_notices (.timerCreate (some h₁.bank.length) k) h₁).trans hcall

theorem startTimer_quiet (timer seconds : Nat) (h : Host) :
    Quiet h (h.startTimer timer seconds).2 := by
  have hcall := timerCall_notices TimerBank.startFault (h.recordTimer (.timerStart timer seconds))
  rw [recordTimer_notices] at hcall
  unfold startTimer
  dsimp only
  split
  · rename_i f h₁ heq
    rw [heq] at hcall
    exact .ofEq hcall
  · rename_i h₁ heq
    rw [heq] at hcall
    split
    · exact (Quiet.ofEq hcall).trans (note_quiet (fun _ => rfl) h₁)
    · exact .ofEq hcall

theorem stopTimer_notices (timer : Nat) (h : Host) :
    (h.stopTimer timer).2.notices = h.notices := by
  have hcall := timerCall_notices TimerBank.stopFault (h.recordTimer (.timerStop timer))
  rw [recordTimer_notices] at hcall
  unfold stopTimer
  dsimp only
  split
  · rename_i f h₁ heq
    rwa [heq] at hcall
  · rename_i h₁ heq
    rwa [heq] at hcall

theorem releaseTimer_notices (timer : Nat) (h : Host) :
    (h.releaseTimer timer).notices = h.notices := recordTimer_notices _ h

theorem disarm_notices (e : Entry) (h : Host) : (h.disarm e).2.notices = h.notices := by
  unfold disarm
  split
  · rfl
  · exact (releaseTimer_notices _ _).trans (stopTimer_notices _ h)

theorem abandon_notices (e : Entry) (h : Host) : (h.abandon e).notices = h.notices := by
  unfold abandon
  split
  · rfl
  · exact releaseTimer_notices _ h

theorem arm_quiet (owner : Nat) (e : Entry) (seconds : Nat) (h : Host) :
    Quiet h (h.arm owner e seconds).2 := by
  unfold arm
  split
  · rename_i timer hsome
    have hstop := stopTimer_notices timer h
    split
    · rename_i f h₁ heq
      rw [heq] at hstop
      exact .ofEq hstop
    · rename_i h₁ heq
      rw [heq] at hstop
      have hstart := startTimer_quiet timer seconds h₁
      split
      · rename_i f h₂ heq₂
        rw [heq₂] at hstart
        exact (Quiet.ofEq hstop).trans hstart
      · rename_i h₂ heq₂
        rw [heq₂] at hstart
        exact (Quiet.ofEq hstop).trans hstart
  · have hcreate := createTimer_notices owner e.kind h
    split
    · rename_i f h₁ heq
      rw [heq] at hcreate
      exact .ofEq hcreate
    · rename_i timer h₁ heq
      rw [heq] at hcreate
      have hstart := startTimer_quiet timer seconds h₁
      split
      · rename_i f h₂ heq₂
        rw [heq₂] at hstart
        exact ((Quiet.ofEq hcreate).trans hstart).trans (.ofEq (releaseTimer_notices _ _))
      · rename_i h₂ heq₂
        rw [heq₂] at hstart
        exact (Quiet.ofEq hcreate).trans hstart

end Host

/-! ## Timers that do not fail -/

/-- Timers of which no call fails, whatever it asks for. -/
structure TimerBank.Reliable (b : TimerBank) : Prop where
  backend : b.backend = .manual
  create : ∀ n, b.createFault n = none
  start : ∀ n, b.startFault n = none
  stop : ∀ n, b.stopFault n = none

namespace Host

variable {h h' : Host}

theorem TimersOnly.reliable (ht : TimersOnly h h') (hr : h.timers.Reliable) : h'.timers.Reliable := by
  rw [ht.plans]
  exact ⟨hr.backend, hr.create, hr.start, hr.stop⟩

theorem StoreOnly.reliable (hs : StoreOnly h h') (hr : h.timers.Reliable) : h'.timers.Reliable :=
  hs.timers ▸ hr

theorem timerCall_of_reliable (hr : h.timers.Reliable) {plan : TimerBank → Nat → Option Fault}
    (hplan : ∀ n, plan h.timers n = none) : (h.timerCall plan).1 = none := by
  unfold timerCall
  rw [hr.backend]
  exact hplan _

theorem createTimer_of_reliable (hr : h.timers.Reliable) (owner : Nat) (k : Kind) :
    ∃ timer, (h.createTimer owner k).1 = .ok timer := by
  have hcall := timerCall_of_reliable hr hr.create
  unfold createTimer
  split
  · rename_i f h₁ heq
    rw [heq] at hcall
    cases hcall
  · exact ⟨_, rfl⟩

theorem startTimer_of_reliable (hr : h.timers.Reliable) (timer seconds : Nat) :
    (h.startTimer timer seconds).1 = .ok () := by
  have hr₁ := (recordTimer_timersOnly (.timerStart timer seconds) h).reliable hr
  have hcall := timerCall_of_reliable hr₁ hr₁.start
  have hr₂ := (timerCall_timersOnly TimerBank.startFault _).reliable hr₁
  unfold startTimer
  dsimp only
  split
  · rename_i f h₁ heq
    rw [heq] at hcall
    cases hcall
  · rename_i h₁ heq
    rw [heq] at hr₂
    rw [if_neg fun hlimit => ?_]
    rw [hr₂.backend] at hlimit
    cases hlimit.1

theorem stopTimer_of_reliable (hr : h.timers.Reliable) (timer : Nat) :
    (h.stopTimer timer).1 = .ok () := by
  have hr₁ := (recordTimer_timersOnly (.timerStop timer) h).reliable hr
  have hcall := timerCall_of_reliable hr₁ hr₁.stop
  unfold stopTimer
  dsimp only
  split
  · rename_i f h₁ heq
    rw [heq] at hcall
    cases hcall
  · rfl

theorem arm_of_reliable (hr : h.timers.Reliable) (owner : Nat) (e : Entry) (seconds : Nat) :
    ∃ timer, (h.arm owner e seconds).1 = .ok timer := by
  unfold arm
  split
  · rename_i timer _
    have hstop := stopTimer_of_reliable hr timer
    have hr₁ := (stopTimer_timersOnly timer h).reliable hr
    split
    · rename_i f h₁ heq
      rw [heq] at hstop
      cases hstop
    · rename_i h₁ heq
      rw [heq] at hr₁
      have hstart := startTimer_of_reliable hr₁ timer seconds
      split
      · rename_i f h₂ heq₂
        rw [heq₂] at hstart
        cases hstart
      · exact ⟨timer, rfl⟩
  · obtain ⟨made, hcreate⟩ := createTimer_of_reliable hr owner e.kind
    have hr₁ := (createTimer_timersOnly owner e.kind h).reliable hr
    split
    · rename_i f h₁ heq
      rw [heq] at hcreate
      cases hcreate
    · rename_i timer h₁ heq
      rw [heq] at hr₁
      have hstart := startTimer_of_reliable hr₁ timer seconds
      split
      · rename_i f h₂ heq₂
        rw [heq₂] at hstart
        cases hstart
      · exact ⟨timer, rfl⟩

end Host
end TelemetryAgent
