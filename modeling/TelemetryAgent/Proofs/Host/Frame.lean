import TelemetryAgent.Schedule.Persist

/-!
# What calls leave alone

A call of one kind changes one part of the host. Timer calls leave everything but the bank of
timers, the number of its calls, and the records of calls and notices as it was; writing an entry
leaves everything but the leaves of the store, the number of saves and the same records. The bank
itself changes at the called timer only: the equations below say how.
-/
namespace TelemetryAgent

def TimerState.retired (t : TimerState) : TimerState := { t with interval := none, released := true }

def retire (timer : Option Nat) (bank : List TimerState) : List TimerState :=
  match timer with
  | none => bank
  | some i => bank.modify i TimerState.retired

namespace Host

/-- Every timer that was ever created, by number. -/
abbrev bank (h : Host) : List TimerState := h.timers.timers

/-- Only timers, calls and notices tell the two hosts apart. -/
structure TimersOnly (h h' : Host) : Prop where
  settings : h'.settings = h.settings
  tasks : h'.tasks = h.tasks
  sessions : h'.sessions = h.sessions
  platform : h'.platform = h.platform
  services : h'.services = h.services
  callbacks : h'.callbacks = h.callbacks
  schedulers : h'.schedulers = h.schedulers
  plans : h'.timers = { h.timers with timers := h'.timers.timers, calls := h'.timers.calls }

/-- Only the store, calls and notices tell the two hosts apart. -/
structure StoreOnly (h h' : Host) : Prop where
  timers : h'.timers = h.timers
  tasks : h'.tasks = h.tasks
  sessions : h'.sessions = h.sessions
  platform : h'.platform = h.platform
  services : h'.services = h.services
  callbacks : h'.callbacks = h.callbacks
  schedulers : h'.schedulers = h.schedulers
  plans : h'.settings = { h.settings with leaves := h'.settings.leaves, saves := h'.settings.saves }

theorem TimersOnly.refl (h : Host) : TimersOnly h h := ⟨rfl, rfl, rfl, rfl, rfl, rfl, rfl, rfl⟩

theorem TimersOnly.trans {a b c : Host} (hab : TimersOnly a b) (hbc : TimersOnly b c) :
    TimersOnly a c where
  settings := hbc.settings.trans hab.settings
  tasks := hbc.tasks.trans hab.tasks
  sessions := hbc.sessions.trans hab.sessions
  platform := hbc.platform.trans hab.platform
  services := hbc.services.trans hab.services
  callbacks := hbc.callbacks.trans hab.callbacks
  schedulers := hbc.schedulers.trans hab.schedulers
  plans := by rw [hbc.plans, hab.plans]

theorem StoreOnly.refl (h : Host) : StoreOnly h h := ⟨rfl, rfl, rfl, rfl, rfl, rfl, rfl, rfl⟩

theorem StoreOnly.trans {a b c : Host} (hab : StoreOnly a b) (hbc : StoreOnly b c) :
    StoreOnly a c where
  timers := hbc.timers.trans hab.timers
  tasks := hbc.tasks.trans hab.tasks
  sessions := hbc.sessions.trans hab.sessions
  platform := hbc.platform.trans hab.platform
  services := hbc.services.trans hab.services
  callbacks := hbc.callbacks.trans hab.callbacks
  schedulers := hbc.schedulers.trans hab.schedulers
  plans := by rw [hbc.plans, hab.plans]

/-! ## Notices -/

@[simp] theorem note_timers (n : Notice) (h : Host) : (h.note n).timers = h.timers := rfl

theorem note_timersOnly (n : Notice) (h : Host) : TimersOnly h (h.note n) :=
  ⟨rfl, rfl, rfl, rfl, rfl, rfl, rfl, rfl⟩

theorem noteFailure_timersOnly (r : Outcome) (n : Fault → Notice) (h : Host) :
    TimersOnly h (h.noteFailure r n) := by
  cases r with
  | ok => exact .refl h
  | error f => exact note_timersOnly _ h

@[simp] theorem noteFailure_timers (r : Outcome) (n : Fault → Notice) (h : Host) :
    (h.noteFailure r n).timers = h.timers := by
  cases r <;> rfl

@[simp] theorem noteFailure_calls (r : Outcome) (n : Fault → Notice) (h : Host) :
    (h.noteFailure r n).calls = h.calls := by
  cases r <;> rfl

/-! ## Timer calls -/

@[simp] theorem recordTimer_timers (c : Call) (h : Host) : (h.recordTimer c).timers = h.timers := by
  unfold recordTimer
  split <;> rfl

theorem recordTimer_timersOnly (c : Call) (h : Host) : TimersOnly h (h.recordTimer c) := by
  unfold recordTimer
  split
  · exact ⟨rfl, rfl, rfl, rfl, rfl, rfl, rfl, rfl⟩
  · exact .refl h

theorem setTimer_timersOnly (timer : Nat) (f : TimerState → TimerState) (h : Host) :
    TimersOnly h (h.setTimer timer f) :=
  ⟨rfl, rfl, rfl, rfl, rfl, rfl, rfl, rfl⟩

theorem timerCall_timersOnly (plan : TimerBank → Nat → Option Fault) (h : Host) :
    TimersOnly h (h.timerCall plan).2 :=
  ⟨rfl, rfl, rfl, rfl, rfl, rfl, rfl, rfl⟩

@[simp] theorem bank_timerCall (plan : TimerBank → Nat → Option Fault) (h : Host) :
    (h.timerCall plan).2.bank = h.bank := rfl

@[simp] theorem bank_setTimer (timer : Nat) (f : TimerState → TimerState) (h : Host) :
    (h.setTimer timer f).bank = h.bank.modify timer f := rfl

theorem createTimer_timersOnly (owner : Nat) (k : Kind) (h : Host) :
    TimersOnly h (h.createTimer owner k).2 := by
  have hcall := timerCall_timersOnly TimerBank.createFault h
  unfold createTimer
  split
  · rename_i f h₁ heq
    rw [heq] at hcall
    exact hcall.trans (recordTimer_timersOnly _ h₁)
  · rename_i h₁ heq
    rw [heq] at hcall
    have hrecord := recordTimer_timersOnly (.timerCreate (some h₁.bank.length) k) h₁
    exact hcall.trans (hrecord.trans ⟨rfl, rfl, rfl, rfl, rfl, rfl, rfl, rfl⟩)

/-- A creation that succeeds adds an idle timer under the next number. -/
theorem bank_of_createTimer_ok {owner timer : Nat} {k : Kind} {h h' : Host}
    (hc : h.createTimer owner k = (.ok timer, h')) :
    timer = h.bank.length ∧ h'.bank = h.bank ++ [{ owner, kind := k }] := by
  have hbank := bank_timerCall TimerBank.createFault h
  unfold createTimer at hc
  split at hc
  · cases hc
  · rename_i h₁ heq
    rw [heq] at hbank
    cases hc
    simp only [bank, recordTimer_timers] at hbank ⊢
    exact ⟨by rw [hbank], by rw [hbank]⟩

theorem bank_of_createTimer_error {owner : Nat} {k : Kind} {f : Fault} {h h' : Host}
    (hc : h.createTimer owner k = (.error f, h')) : h'.bank = h.bank := by
  have hbank := bank_timerCall TimerBank.createFault h
  unfold createTimer at hc
  split at hc
  · rename_i f₁ h₁ heq
    rw [heq] at hbank
    cases hc
    simpa [bank] using hbank
  · cases hc

theorem startTimer_timersOnly (timer seconds : Nat) (h : Host) :
    TimersOnly h (h.startTimer timer seconds).2 := by
  have hrecord := recordTimer_timersOnly (.timerStart timer seconds) h
  have hcall := timerCall_timersOnly TimerBank.startFault (h.recordTimer (.timerStart timer seconds))
  unfold startTimer
  dsimp only
  split
  · rename_i f h₁ heq
    rw [heq] at hcall
    exact hrecord.trans hcall
  · rename_i h₁ heq
    rw [heq] at hcall
    split
    · exact hrecord.trans (hcall.trans (note_timersOnly _ h₁))
    · exact hrecord.trans (hcall.trans (setTimer_timersOnly _ _ h₁))

theorem bank_of_startTimer_ok {timer seconds : Nat} {h h' : Host}
    (hs : h.startTimer timer seconds = (.ok (), h')) :
    h'.bank = h.bank.modify timer fun t => { t with interval := some seconds } := by
  have hbank := bank_timerCall TimerBank.startFault (h.recordTimer (.timerStart timer seconds))
  unfold startTimer at hs
  dsimp only at hs
  split at hs
  · cases hs
  · rename_i h₁ heq
    rw [heq] at hbank
    split at hs
    · cases hs
    · cases hs
      simp only [bank, recordTimer_timers] at hbank
      rw [bank_setTimer, bank, hbank]

/-- A start that fails changes no timer. -/
theorem bank_of_startTimer_error {timer seconds : Nat} {f : Fault} {h h' : Host}
    (hs : h.startTimer timer seconds = (.error f, h')) : h'.bank = h.bank := by
  have hbank := bank_timerCall TimerBank.startFault (h.recordTimer (.timerStart timer seconds))
  unfold startTimer at hs
  dsimp only at hs
  split at hs
  · rename_i f₁ h₁ heq
    rw [heq] at hbank
    cases hs
    simpa [bank] using hbank
  · rename_i h₁ heq
    rw [heq] at hbank
    split at hs
    · cases hs
      simpa [bank] using hbank
    · cases hs

theorem stopTimer_timersOnly (timer : Nat) (h : Host) : TimersOnly h (h.stopTimer timer).2 := by
  have hrecord := recordTimer_timersOnly (.timerStop timer) h
  have hcall := timerCall_timersOnly TimerBank.stopFault (h.recordTimer (.timerStop timer))
  unfold stopTimer
  dsimp only
  split
  · rename_i f h₁ heq
    rw [heq] at hcall
    exact hrecord.trans hcall
  · rename_i h₁ heq
    rw [heq] at hcall
    exact hrecord.trans (hcall.trans (setTimer_timersOnly _ _ h₁))

theorem bank_of_stopTimer_ok {timer : Nat} {h h' : Host}
    (hs : h.stopTimer timer = (.ok (), h')) :
    h'.bank = h.bank.modify timer fun t => { t with interval := none } := by
  have hbank := bank_timerCall TimerBank.stopFault (h.recordTimer (.timerStop timer))
  unfold stopTimer at hs
  dsimp only at hs
  split at hs
  · cases hs
  · rename_i h₁ heq
    rw [heq] at hbank
    cases hs
    simp only [bank, recordTimer_timers] at hbank
    rw [bank_setTimer, bank, hbank]

/-- A stop that fails leaves the timer as it was. -/
theorem bank_of_stopTimer_error {timer : Nat} {f : Fault} {h h' : Host}
    (hs : h.stopTimer timer = (.error f, h')) : h'.bank = h.bank := by
  have hbank := bank_timerCall TimerBank.stopFault (h.recordTimer (.timerStop timer))
  unfold stopTimer at hs
  dsimp only at hs
  split at hs
  · rename_i f₁ h₁ heq
    rw [heq] at hbank
    cases hs
    simpa [bank] using hbank
  · cases hs

theorem releaseTimer_timersOnly (timer : Nat) (h : Host) : TimersOnly h (h.releaseTimer timer) :=
  (recordTimer_timersOnly _ h).trans (setTimer_timersOnly _ _ _)

@[simp] theorem bank_releaseTimer (timer : Nat) (h : Host) :
    (h.releaseTimer timer).bank = retire (some timer) h.bank := by
  simp only [releaseTimer, bank_setTimer, bank, recordTimer_timers]
  rfl

/-! ## Entries -/

theorem disarm_timersOnly (e : Entry) (h : Host) : TimersOnly h (h.disarm e).2 := by
  unfold disarm
  split
  · exact .refl h
  · exact (stopTimer_timersOnly _ h).trans (releaseTimer_timersOnly _ _)

/-- Whatever a timer was set to, it is released in the same way. -/
theorem modify_retired (timer : Nat) (interval : Option Nat) (bank : List TimerState) :
    (bank.modify timer fun t => { t with interval }).modify timer TimerState.retired =
      bank.modify timer TimerState.retired := by
  rw [List.modify_modify_eq]
  rfl

/-- A timer that is disarmed is released, whether or not it could be stopped. -/
@[simp] theorem bank_disarm (e : Entry) (h : Host) : (h.disarm e).2.bank = retire e.timer h.bank := by
  unfold disarm
  split
  · rename_i hnone
    simp [retire, hnone]
  · rename_i timer hsome
    rw [bank_releaseTimer, hsome]
    cases hs : h.stopTimer timer with
    | mk r h₁ =>
      cases r with
      | error f => rw [bank_of_stopTimer_error hs]
      | ok _ =>
        rw [bank_of_stopTimer_ok hs]
        exact modify_retired timer none h.bank

theorem abandon_timersOnly (e : Entry) (h : Host) : TimersOnly h (h.abandon e) := by
  unfold abandon
  split
  · exact .refl h
  · exact releaseTimer_timersOnly _ h

@[simp] theorem bank_abandon (e : Entry) (h : Host) : (h.abandon e).bank = retire e.timer h.bank := by
  unfold abandon
  split
  · rename_i hnone
    simp [retire, hnone]
  · rename_i timer hsome
    rw [bank_releaseTimer, hsome]

theorem arm_timersOnly (owner : Nat) (e : Entry) (seconds : Nat) (h : Host) :
    TimersOnly h (h.arm owner e seconds).2 := by
  unfold arm
  split
  · rename_i timer hsome
    have hstop := stopTimer_timersOnly timer h
    split
    · rename_i f h₁ heq
      rwa [heq] at hstop
    · rename_i h₁ heq
      rw [heq] at hstop
      have hstart := startTimer_timersOnly timer seconds h₁
      split
      · rename_i f h₂ heq₂
        rw [heq₂] at hstart
        exact hstop.trans hstart
      · rename_i h₂ heq₂
        rw [heq₂] at hstart
        exact hstop.trans hstart
  · have hcreate := createTimer_timersOnly owner e.kind h
    split
    · rename_i f h₁ heq
      rwa [heq] at hcreate
    · rename_i timer h₁ heq
      rw [heq] at hcreate
      have hstart := startTimer_timersOnly timer seconds h₁
      split
      · rename_i f h₂ heq₂
        rw [heq₂] at hstart
        exact (hcreate.trans hstart).trans (releaseTimer_timersOnly _ _)
      · rename_i h₂ heq₂
        rw [heq₂] at hstart
        exact hcreate.trans hstart

/-- The timer of an entry after it has been armed: its own, or a new one. -/
inductive Arms (owner : Nat) (e : Entry) (seconds : Nat) (bank : List TimerState) :
    Nat → List TimerState → Prop
  | again {timer : Nat} : e.timer = some timer →
      Arms owner e seconds bank timer
        (bank.modify timer fun t => { t with interval := some seconds })
  | afresh : e.timer = none →
      Arms owner e seconds bank bank.length
        (bank ++ [{ owner, kind := e.kind, interval := some seconds }])

theorem modify_newest (bank : List TimerState) (t : TimerState) (f : TimerState → TimerState) :
    (bank ++ [t]).modify bank.length f = bank ++ [f t] := by
  simpa [List.modify] using List.modifyTailIdx_add (List.modifyHead f) 0 bank [t]

theorem bank_of_arm_ok {owner timer seconds : Nat} {e : Entry} {h h' : Host}
    (ha : h.arm owner e seconds = (.ok timer, h')) :
    Arms owner e seconds h.bank timer h'.bank := by
  unfold arm at ha
  split at ha
  · rename_i own hsome
    split at ha
    · cases ha
    · rename_i h₁ hstop
      split at ha
      · cases ha
      · rename_i h₂ hstart
        cases ha
        rw [bank_of_startTimer_ok hstart, bank_of_stopTimer_ok hstop, List.modify_modify_eq]
        exact .again hsome
  · rename_i hnone
    split at ha
    · cases ha
    · rename_i made h₁ hcreate
      obtain ⟨rfl, hb⟩ := bank_of_createTimer_ok hcreate
      split at ha
      · cases ha
      · rename_i h₂ hstart
        cases ha
        rw [bank_of_startTimer_ok hstart, hb, modify_newest]
        exact .afresh hnone

/-- After an entry whose timer could not be armed has been given up, its timer and one that was
made for it are released. -/
theorem bank_of_arm_error {owner seconds : Nat} {f : Fault} {e : Entry} {h h' : Host}
    (ha : h.arm owner e seconds = (.error f, h')) :
    ∃ made, (∀ t ∈ made, t.released = true) ∧
      retire e.timer h'.bank = retire e.timer h.bank ++ made := by
  unfold arm at ha
  split at ha
  · rename_i own hsome
    refine ⟨[], by simp, ?_⟩
    split at ha
    · rename_i f₁ h₁ hstop
      cases ha
      rw [bank_of_stopTimer_error hstop, List.append_nil]
    · rename_i h₁ hstop
      split at ha
      · rename_i f₂ h₂ hstart
        cases ha
        rw [bank_of_startTimer_error hstart, bank_of_stopTimer_ok hstop, hsome, List.append_nil]
        exact modify_retired own none h.bank
      · cases ha
  · rename_i hnone
    split at ha
    · rename_i f₁ h₁ hcreate
      cases ha
      exact ⟨[], by simp, by rw [bank_of_createTimer_error hcreate, List.append_nil]⟩
    · rename_i made h₁ hcreate
      obtain ⟨rfl, hb⟩ := bank_of_createTimer_ok hcreate
      split at ha
      · rename_i f₂ h₂ hstart
        cases ha
        refine ⟨[({ owner, kind := e.kind } : TimerState).retired], ?_, ?_⟩
        · simp [TimerState.retired]
        · rw [bank_releaseTimer, bank_of_startTimer_error hstart, hb, hnone]
          exact modify_newest h.bank _ _
      · cases ha

/-! ## Writing entries -/

theorem save_storeOnly (subtree key : String) (value : Bytes) (h : Host) :
    StoreOnly h (h.save subtree key value).2 := by
  unfold save
  dsimp only
  split <;> exact ⟨rfl, rfl, rfl, rfl, rfl, rfl, rfl, rfl⟩

theorem saveSettings_storeOnly (k : Kind) (settings : List Setting) (h : Host) :
    StoreOnly h (h.saveSettings k settings).2 := by
  induction settings generalizing h with
  | nil => exact .refl h
  | cons s rest ih =>
      have hsave := save_storeOnly Setting.subtree (s.key k) s.encode h
      unfold saveSettings
      split
      · rename_i f h₁ heq
        rwa [heq] at hsave
      · rename_i h₁ heq
        rw [heq] at hsave
        exact hsave.trans (ih h₁)

theorem persist_storeOnly (e : Entry) (h : Host) : StoreOnly h (h.persist e) := by
  have hsaves := saveSettings_storeOnly e.kind e.settings h
  unfold persist
  split
  · rename_i f h₁ heq
    rw [heq] at hsaves
    exact hsaves.trans ⟨rfl, rfl, rfl, rfl, rfl, rfl, rfl, rfl⟩
  · rename_i h₁ heq
    rwa [heq] at hsaves

end Host
end TelemetryAgent
