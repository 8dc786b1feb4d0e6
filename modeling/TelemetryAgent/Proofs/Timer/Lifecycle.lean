import Mathlib.Data.List.Induction
import TelemetryAgent.Timer.Thread

/-!
# Lives of timers with threads

A timer is started, stopped and dropped while the deadlines of its threads come, and any of these
may find the callback panicking. The threads outlive the calls, so the calls and the expiries are
one history, with a log of what returned and what was delivered.
-/
namespace TelemetryAgent

/-- What a timer is asked to do. A start is given the time of the clock. -/
inductive TimerCall
  | start (now period : Interval)
  | stop
  | drop
deriving DecidableEq

/-- What happens to a timer. A call that waits for a thread may see it expire before it has ended;
that expiry comes before the call here, as the call has not returned by then. -/
inductive TimerAction
  | call (c : TimerCall)
  /-- A deadline of a thread comes, if the thread is alive, and the callback may panic. -/
  | expire (thread : Nat) (panics : Bool)

/-- A call that returned, or an expiry that was delivered. A start that succeeds has its place where
its thread is spawned: the thread does not wait for the start to return. -/
inductive TimerOccurrence
  | returned (c : TimerCall) (r : Outcome)
  | delivered (thread : Nat) (panicked : Bool)
deriving DecidableEq

namespace TimerOccurrence

def call? : TimerOccurrence → Option (TimerCall × Outcome)
  | returned c r => some (c, r)
  | delivered _ _ => none

def lastCall? (log : List TimerOccurrence) : Option (TimerCall × Outcome) :=
  (log.filterMap call?).getLast?

/-- The last call was a start, and it succeeded. -/
def Started (log : List TimerOccurrence) : Prop :=
  ∃ now period, lastCall? log = some (.start now period, .ok ())

/-- Whatever was delivered came after a start that succeeded, with no other call in between. -/
def Orderly (log : List TimerOccurrence) : Prop :=
  ∀ before thread panicked later,
    log = before ++ delivered thread panicked :: later → Started before

variable {log : List TimerOccurrence}

@[simp] theorem lastCall?_returned {c : TimerCall} {r : Outcome} :
    lastCall? (log ++ [returned c r]) = some (c, r) := by
  simp [lastCall?, call?]

@[simp] theorem lastCall?_delivered {thread : Nat} {panicked : Bool} :
    lastCall? (log ++ [delivered thread panicked]) = lastCall? log := by
  simp [lastCall?, call?]

theorem Orderly.concat {o : TimerOccurrence} (hlog : Orderly log)
    (ho : ∀ thread panicked, o = delivered thread panicked → Started log) :
    Orderly (log ++ [o]) := by
  intro before thread panicked later heq
  rcases List.eq_nil_or_concat later with rfl | ⟨later, last, rfl⟩
  · obtain ⟨rfl, hlast⟩ := List.append_inj' heq rfl
    exact ho thread panicked (List.cons.inj hlast).1
  · have hsplit : log ++ [o] = (before ++ delivered thread panicked :: later) ++ [last] := by
      simpa using heq
    exact hlog before thread panicked later (List.append_inj' hsplit rfl).1

end TimerOccurrence

open TimerOccurrence

namespace ThreadTimer

variable {t : ThreadTimer} {c : TimerCall} {now period due : Interval} {i j : Nat}

def phase? (i : Nat) (t : ThreadTimer) : Option ThreadPhase := t.threads[i]?.map (·.phase)

/-- What has become of the thread that the next stop joins. -/
def current? (t : ThreadTimer) : Option ThreadPhase := t.handle.bind (t.phase? ·)

def spawn (period due : Interval) (t : ThreadTimer) : ThreadTimer :=
  { t with threads := t.threads ++ [{ period, due }], handle := some t.threads.length }

def call (c : TimerCall) (t : ThreadTimer) : Outcome × ThreadTimer × List Notice :=
  match c with
  | .start now period => t.start now period
  | .stop => (t.stop.1, t.stop.2, [])
  | .drop => (.ok (), t.release)

/-- The timer, had other threads been there before its own. -/
def behind (old : List TimerThread) (t : ThreadTimer) : ThreadTimer :=
  { t with threads := old ++ t.threads, handle := t.handle.map (old.length + ·) }

/-! ## What one call does -/

@[simp] theorem stop_handle : t.stop.2.handle = none := by
  unfold stop
  split
  · assumption
  · rfl

@[simp] theorem stop_name : t.stop.2.name = t.name := by
  unfold stop
  split <;> rfl

/-- A stop fails on a thread that has panicked, and on no other. -/
theorem stop_outcome :
    t.stop.1 = if t.current? = some .panicked then .error .stopFailed else .ok () := by
  unfold stop
  split
  · rename_i hnone
    simp [current?, hnone]
  · rename_i thread hhandle
    obtain hnone | ⟨w, hthread⟩ := (t.threads[thread]?).eq_none_or_eq_some
    · simp [current?, hhandle, phase?, join, hnone]
    · cases hphase : w.phase <;> simp [current?, hhandle, phase?, join, hthread, hphase]

theorem stop_eq :
    t.stop = (if t.current? = some .panicked then .error .stopFailed else .ok (), t.stop.2) :=
  Prod.ext stop_outcome rfl

theorem phase?_set {phase : ThreadPhase} (hi : t.phase? i = some phase) (w : TimerThread)
    (handle : Option Nat) :
    { t with threads := t.threads.set i w, handle }.phase? j =
      if i = j then some w.phase else t.phase? j := by
  obtain ⟨old, hold, -⟩ := Option.map_eq_some_iff.mp hi
  obtain ⟨hlt, -⟩ := List.getElem?_eq_some_iff.mp hold
  unfold phase?
  rw [List.getElem?_set]
  by_cases hij : i = j
  · rw [if_pos hij, if_pos hij, if_pos hlt]
    rfl
  · rw [if_neg hij, if_neg hij]

theorem join_threads (h : t.phase? i ≠ some .alive) : (join i t.threads).2 = t.threads := by
  unfold join
  split
  · rfl
  · rename_i w hthread
    split
    · rename_i hphase
      exact (h (by rw [phase?, hthread, Option.map_some, hphase])).elim
    · rfl
    · rfl

/-- A stop ends the thread it joins if that is alive, and touches no other. -/
theorem phase?_stop : t.stop.2.phase? i =
    if t.handle = some i ∧ t.phase? i = some .alive then some .ended else t.phase? i := by
  unfold stop
  split
  · rename_i hnone
    simp [hnone]
  · rename_i thread hhandle
    simp only [hhandle, Option.some_inj]
    by_cases halive : t.phase? thread = some .alive
    · obtain ⟨w, hthread, hphase⟩ := Option.map_eq_some_iff.mp halive
      simp only [join, hthread, hphase]
      rw [phase?_set halive]
      by_cases hi : thread = i
      · rw [if_pos hi, if_pos ⟨hi, hi ▸ halive⟩]
      · rw [if_neg hi, if_neg fun h => hi h.1]
    · rw [if_neg fun ⟨hi, h⟩ => halive (hi ▸ h)]
      exact congrArg (fun threads => threads[i]?.map (·.phase)) (join_threads halive)

theorem phase?_stop_eq_panicked :
    t.stop.2.phase? i = some .panicked ↔ t.phase? i = some .panicked := by
  rw [phase?_stop]
  split
  · rename_i h
    simp [h.2]
  · rfl

theorem phase?_spawn : (t.spawn period due).phase? i =
    if i = t.threads.length then some .alive else t.phase? i := by
  simp only [spawn, phase?]
  by_cases hi : i = t.threads.length
  · rw [hi, if_pos rfl, List.getElem?_concat_length]
    rfl
  · rw [if_neg hi]
    rcases Nat.lt_or_gt_of_ne hi with hlt | hgt
    · rw [List.getElem?_append_left hlt]
    · rw [List.getElem?_eq_none (by simp; omega), List.getElem?_eq_none (by omega)]

/-- How a start can end. In any case the thread of an earlier start has been stopped. -/
theorem start_cases (now period : Interval) (t : ThreadTimer) :
    (t.current? = some .panicked ∧ t.start now period = (.error .stopFailed, t.stop.2, [])) ∨
    (t.current? ≠ some .panicked ∧ (period.isZero = true ∨ deadline? now period = none) ∧
      t.start now period = (.error .startFailed, t.stop.2,
        if period.isZero then [] else [.periodOutOfRange t.name period])) ∨
    (t.current? ≠ some .panicked ∧ period.isZero = false ∧
      ∃ due, deadline? now period = some due ∧
        t.start now period = (.ok (), t.stop.2.spawn period due, [])) := by
  unfold start
  rw [stop_eq]
  by_cases hpanicked : t.current? = some .panicked
  · rw [if_pos hpanicked]
    exact .inl ⟨hpanicked, rfl⟩
  · rw [if_neg hpanicked]
    cases hzero : period.isZero with
    | true => exact .inr (.inl ⟨hpanicked, .inl rfl, rfl⟩)
    | false =>
        cases hdue : deadline? now period with
        | none => exact .inr (.inl ⟨hpanicked, .inr rfl, by rw [← stop_name]; rfl⟩)
        | some due => exact .inr (.inr ⟨hpanicked, rfl, due, rfl, rfl⟩)

theorem stop_idle : t.stop.2.isRunning = false := by
  rw [isRunning, stop_handle]
  rfl

/-- A start that fails leaves an idle timer, and says which of its checks failed. -/
theorem start_outcome (now period : Interval) (t : ThreadTimer) :
    ((t.start now period).2.1.isRunning = true ↔ (t.start now period).1 = .ok ()) ∧
    ((t.start now period).1 = .error .stopFailed ↔ t.current? = some .panicked) ∧
    ((t.start now period).1 = .error .startFailed ↔ t.current? ≠ some .panicked ∧
      (period.isZero = true ∨ deadline? now period = none)) ∧
    ((t.start now period).1 = .ok () ↔ t.current? ≠ some .panicked ∧
      period.isZero = false ∧ deadline? now period ≠ none) := by
  rcases start_cases now period t with
    ⟨hpanicked, h⟩ | ⟨hpanicked, hrefused, h⟩ | ⟨hpanicked, hpositive, due, hdue, h⟩
  · simp [h, hpanicked, stop_idle]
  · rcases hrefused with hrefused | hrefused <;> simp [h, hpanicked, hrefused, stop_idle]
  · simp [h, hpanicked, hpositive, hdue, spawn, isRunning]

/-- A timer that is released says so if its callback had panicked. -/
theorem release_eq : t.release =
    (t.stop.2, if t.current? = some .panicked then [.timerPanicked t.name] else []) := by
  unfold release
  rw [stop_eq]
  by_cases hpanicked : t.current? = some .panicked
  · rw [if_pos hpanicked, if_pos hpanicked]
    simp only [stop_name]
  · rw [if_neg hpanicked, if_neg hpanicked]

/-- A call leaves the timer stopped, unless it is a start that succeeds. -/
theorem call_cases (c : TimerCall) (t : ThreadTimer) :
    ((t.call c).2.1 = t.stop.2 ∧
      ∀ now period, c = .start now period → (t.call c).1 ≠ .ok ()) ∨
    ∃ now period due, c = .start now period ∧ (t.call c).1 = .ok () ∧
      (t.call c).2.1 = t.stop.2.spawn period due := by
  cases c with
  | start now period =>
      simp only [call]
      rcases start_cases now period t with ⟨-, h⟩ | ⟨-, -, h⟩ | ⟨-, -, due, -, h⟩
      · exact .inl ⟨by rw [h], fun _ _ _ => by rw [h]; simp⟩
      · exact .inl ⟨by rw [h], fun _ _ _ => by rw [h]; simp⟩
      · exact .inr ⟨now, period, due, rfl, by rw [h], by rw [h]⟩
  | stop => exact .inl ⟨rfl, nofun⟩
  | drop => exact .inl ⟨by rw [call, release_eq], nofun⟩

/-- What an idle timer does is what a fresh one does; its old threads only stand before the new
one. -/
theorem call_of_idle (hidle : t.handle = none) (c : TimerCall) : t.call c =
    let (r, fresh, notices) := call c { name := t.name }
    (r, fresh.behind t.threads, notices) := by
  obtain ⟨name, threads, handle⟩ := t
  subst hidle
  cases c with
  | start now period =>
      simp only [call, start, stop]
      split
      · simp [behind]
      · split <;> simp [behind]
  | stop => simp [call, stop, behind]
  | drop => simp [call, release, stop, behind]

/-! ## What an expiry does -/

/-- An expiry is delivered by a thread that is alive, and changes that thread. -/
theorem expire_cases (i : Nat) (panics : Bool) (t : ThreadTimer) :
    t.expire i panics = (false, t) ∨
    t.phase? i = some .alive ∧ ∃ w : TimerThread, (w.phase = .panicked ↔ panics = true) ∧
      t.expire i panics = (true, { t with threads := t.threads.set i w }) := by
  unfold expire phase?
  split
  · exact .inl rfl
  · rename_i w hthread
    split
    · rename_i halive
      refine .inr ⟨by rw [hthread, Option.map_some, halive], w.expire panics, ?_, rfl⟩
      unfold TimerThread.expire
      split
      · exact iff_of_true rfl ‹_›
      · refine iff_of_false ?_ ‹_›
        split
        · rw [halive]
          nofun
        · nofun
    · exact .inl rfl

/-- While a thread is alive its deadline runs the callback. The thread stays alive unless the callback
panics or the clock has no next deadline. -/
theorem expire_of_alive {w : TimerThread} (hw : t.threads[i]? = some w) (halive : w.phase = .alive)
    (panics : Bool) : (t.expire i panics).1 = true ∧
      ((t.expire i panics).2.phase? i = some .alive ↔
        panics = false ∧ deadline? w.due w.period ≠ none) := by
  have hphase : t.phase? i = some .alive := by rw [phase?, hw, Option.map_some, halive]
  have hexpire : t.expire i panics =
      (true, { t with threads := t.threads.set i (w.expire panics) }) := by
    unfold expire
    rw [hw]
    dsimp only
    rw [halive]
  rw [hexpire]
  refine ⟨rfl, ?_⟩
  rw [phase?_set hphase, if_pos rfl]
  unfold TimerThread.expire
  cases panics with
  | true => simp
  | false => cases hdue : deadline? w.due w.period <;> simp [halive]

/-- A start that succeeds leaves the timer with a thread that is alive. -/
theorem alive_of_start (hok : (t.start now period).1 = .ok ()) : ∃ i w,
    (t.start now period).2.1.handle = some i ∧
      (t.start now period).2.1.threads[i]? = some w ∧ w.phase = .alive ∧ w.period = period := by
  rcases start_cases now period t with ⟨-, h⟩ | ⟨-, -, h⟩ | ⟨-, -, due, -, h⟩
  · rw [h] at hok
    cases hok
  · rw [h] at hok
    cases hok
  · rw [h]
    exact ⟨_, { period, due }, rfl, List.getElem?_concat_length, rfl, rfl⟩

end ThreadTimer

/-! ## A history of calls and expiries -/

/-- A timer with what has come of it. A timer that was dropped is not called any more. -/
structure TimerSystem where
  timer : ThreadTimer
  gone : Bool := false
  log : List TimerOccurrence := []

namespace TimerSystem

variable {s : TimerSystem} {name : String}

def act (s : TimerSystem) : TimerAction → TimerSystem
  | .call c =>
    if s.gone then s
    else
      let (r, timer, _) := s.timer.call c
      { timer, gone := c == .drop, log := s.log ++ [.returned c r] }
  | .expire thread panics =>
    match s.timer.expire thread panics with
    | (true, timer) => { s with timer, log := s.log ++ [.delivered thread panics] }
    | (false, _) => s

/-- The callback has panicked on the thread that the timer holds. -/
def Failed (s : TimerSystem) : Prop :=
  ∃ i, s.timer.handle = some i ∧ .delivered i true ∈ s.log

def after (name : String) (history : List TimerAction) : TimerSystem :=
  history.foldl act { timer := .create name }

/-- Only the thread that the timer holds is alive, and the log tells which threads have panicked. -/
structure Sound (name : String) (s : TimerSystem) : Prop where
  named : s.timer.name = ThreadTimer.displayName name
  alive : ∀ i, s.timer.phase? i = some .alive → s.timer.handle = some i
  panicked : ∀ i, s.timer.phase? i = some .panicked ↔ .delivered i true ∈ s.log
  running : s.timer.isRunning = true ↔ Started s.log
  orderly : Orderly s.log

theorem Sound.initial (name : String) : Sound name { timer := .create name } where
  named := rfl
  alive := nofun
  panicked := fun i => ⟨nofun, nofun⟩
  running := ⟨nofun, nofun⟩
  orderly := fun before _ _ _ h => by cases before <;> cases h

theorem Sound.expire (hs : s.Sound name) (i : Nat) (panics : Bool) :
    (s.act (.expire i panics)).Sound name := by
  simp only [act]
  rcases ThreadTimer.expire_cases i panics s.timer with h | ⟨halive, w, hw, h⟩
  · rw [h]
    exact hs
  · rw [h]
    have hphase := fun j => @ThreadTimer.phase?_set s.timer i j _ halive w s.timer.handle
    have hstarted : Started s.log := by
      rw [← hs.running, ThreadTimer.isRunning, hs.alive i halive]
      rfl
    refine ⟨hs.named, fun j hj => ?_, fun j => ?_, ?_, hs.orderly.concat ?_⟩
    · rw [hphase] at hj
      split at hj
      · rename_i hij
        rw [← hij]
        exact hs.alive i halive
      · exact hs.alive j hj
    · rw [hphase, List.mem_append, List.mem_singleton, ← hs.panicked j]
      split
      · rename_i hij
        subst hij
        rw [halive, Option.some_inj, hw]
        simp [eq_comm]
      · rename_i hij
        simp [eq_comm, hij]
    · rw [Started, lastCall?_delivered]
      exact hs.running
    · exact fun _ _ _ => hstarted

/-- After a stop no thread is alive. -/
theorem Sound.dead_of_stop (hs : s.Sound name) (i : Nat) :
    s.timer.stop.2.phase? i ≠ some .alive := by
  rw [ThreadTimer.phase?_stop]
  split
  · nofun
  · rename_i hother
    exact fun hi => hother ⟨hs.alive i hi, hi⟩

/-- Whether a thread has panicked is not for a call to change. -/
theorem Sound.panicked_of_stop (hs : s.Sound name) (c : TimerCall) (r : Outcome) (i : Nat) :
    s.timer.stop.2.phase? i = some .panicked ↔ .delivered i true ∈ s.log ++ [.returned c r] := by
  rw [ThreadTimer.phase?_stop_eq_panicked, hs.panicked]
  simp

theorem Sound.call (hs : s.Sound name) (c : TimerCall) : (s.act (.call c)).Sound name := by
  simp only [act]
  split
  · exact hs
  · -- either the timer is left stopped, or one thread is added to what a stop leaves
    rcases ThreadTimer.call_cases c s.timer with
      ⟨htimer, hc⟩ | ⟨now, period, due, rfl, hr, htimer⟩
    · rw [htimer]
      refine ⟨?_, fun i hi => (hs.dead_of_stop i hi).elim, hs.panicked_of_stop c _, ?_,
        hs.orderly.concat nofun⟩
      · rw [ThreadTimer.stop_name]
        exact hs.named
      · rw [ThreadTimer.isRunning, ThreadTimer.stop_handle, Started, lastCall?_returned]
        refine ⟨nofun, ?_⟩
        rintro ⟨now, period, h⟩
        obtain ⟨rfl, hr⟩ := Prod.mk.inj (Option.some.inj h)
        exact (hc now period rfl hr).elim
    · rw [htimer, hr]
      refine ⟨?_, fun i hi => ?_, fun i => ?_, ?_, hs.orderly.concat nofun⟩
      · exact ThreadTimer.stop_name.trans hs.named
      · rw [ThreadTimer.phase?_spawn] at hi
        split at hi
        · rename_i hlast
          rw [hlast]
          rfl
        · exact (hs.dead_of_stop i hi).elim
      · rw [← hs.panicked_of_stop, ThreadTimer.phase?_spawn]
        split
        · rename_i hlast
          -- no thread had this number before
          simp [ThreadTimer.phase?, hlast]
        · rfl
      · rw [Started, lastCall?_returned]
        exact ⟨fun _ => ⟨now, period, rfl⟩, fun _ => rfl⟩

theorem sound_after (name : String) (history : List TimerAction) :
    (after name history).Sound name := by
  induction history using List.reverseRecOn with
  | nil => exact Sound.initial name
  | append_singleton history a ih =>
      unfold after
      rw [List.foldl_append]
      cases a with
      | call c => exact ih.call c
      | expire i panics => exact ih.expire i panics

theorem Sound.current?_eq_panicked (hs : s.Sound name) :
    s.timer.current? = some .panicked ↔ s.Failed := by
  unfold ThreadTimer.current? Failed
  rw [Option.bind_eq_some_iff]
  simp only [hs.panicked]

/-- A timer is running exactly if the last call was a start that succeeded. One of its threads is
alive at most, and nothing is delivered but after that start. A start that succeeds leaves the timer
with a thread of its period that is alive, and as long as a thread is alive each of its deadlines is
delivered, which ends it only if the callback panics or the clock has no next deadline. Stopping
fails, alone or within a start, exactly if the callback of the thread it ends has panicked. An error
leaves the timer idle, and an idle timer does what a fresh one does. -/
theorem lifecycle (name : String) (history : List TimerAction) :
    let s := after name history
    (s.timer.isRunning = true ↔ Started s.log) ∧
    (∀ i j, s.timer.phase? i = some .alive → s.timer.phase? j = some .alive → i = j) ∧
    Orderly s.log ∧
    (∀ now period,
      let (r, timer, _) := s.timer.start now period
      (timer.isRunning = true ↔ r = .ok ()) ∧
      (r = .error .stopFailed ↔ s.Failed) ∧
      (r = .error .startFailed ↔
        ¬ s.Failed ∧ (period.isZero = true ∨ ThreadTimer.deadline? now period = none)) ∧
      (r = .ok () ↔
        ¬ s.Failed ∧ period.isZero = false ∧ ThreadTimer.deadline? now period ≠ none) ∧
      (r = .ok () → ∃ i w, timer.handle = some i ∧ timer.threads[i]? = some w ∧
        w.phase = .alive ∧ w.period = period)) ∧
    (∀ i w, s.timer.threads[i]? = some w → w.phase = .alive → ∀ panics,
      (s.act (.expire i panics)).log = s.log ++ [.delivered i panics] ∧
      ((s.act (.expire i panics)).timer.phase? i = some .alive ↔
        panics = false ∧ ThreadTimer.deadline? w.due w.period ≠ none)) ∧
    s.timer.stop.2.isRunning = false ∧
    (s.timer.stop.1 = .error .stopFailed ↔ s.Failed) ∧
    (s.timer.stop.1 = .ok () ↔ ¬ s.Failed) ∧
    s.timer.release.1.isRunning = false ∧
    (s.timer.release.2 = [.timerPanicked s.timer.name] ↔ s.Failed) ∧
    (s.timer.release.2 = [] ↔ ¬ s.Failed) ∧
    (s.timer.isRunning = false → ∀ c, s.timer.call c =
      let (r, fresh, notices) := (ThreadTimer.create name).call c
      (r, fresh.behind s.timer.threads, notices)) := by
  intro s
  have hs : s.Sound name := sound_after name history
  have hfailed : s.Failed ↔ s.timer.current? = some .panicked := hs.current?_eq_panicked.symm
  simp only [hfailed]
  refine ⟨hs.running, fun i j hi hj => ?_, hs.orderly, fun now period => ?_,
    fun i w hw halive panics => ?_, ThreadTimer.stop_idle, ?_, ?_, ?_, ?_, ?_, fun hidle c => ?_⟩
  · exact Option.some.inj ((hs.alive i hi).symm.trans (hs.alive j hj))
  · obtain ⟨hrunning, hstop, hstart, hok⟩ := ThreadTimer.start_outcome now period s.timer
    exact ⟨hrunning, hstop, hstart, hok, ThreadTimer.alive_of_start⟩
  · obtain ⟨hruns, halive'⟩ := ThreadTimer.expire_of_alive hw halive panics
    have hact : s.act (.expire i panics) = { s with
        timer := (s.timer.expire i panics).2
        log := s.log ++ [.delivered i panics] } := by
      simp only [act]
      rw [show s.timer.expire i panics = (true, (s.timer.expire i panics).2) from
        Prod.ext hruns rfl]
    rw [hact]
    exact ⟨rfl, halive'⟩
  · rw [ThreadTimer.stop_outcome]
    simp
  · rw [ThreadTimer.stop_outcome]
    simp
  · rw [ThreadTimer.release_eq]
    exact ThreadTimer.stop_idle
  · rw [ThreadTimer.release_eq]
    simp
  · rw [ThreadTimer.release_eq]
    simp
  · have hhandle : s.timer.handle = none := by
      simpa only [ThreadTimer.isRunning, Option.isSome_eq_false_iff, Option.isNone_iff_eq_none]
        using hidle
    have hfresh : ThreadTimer.create name = { name := s.timer.name } := by
      rw [hs.named]
      rfl
    rw [hfresh]
    exact ThreadTimer.call_of_idle hhandle c

example :
    let start : TimerAction := .call (.start ⟨1, 0⟩ ⟨0, 1000⟩)
    (after "sample" [start, .expire 0 false, .expire 0 true, .expire 0 false, start, start,
      .expire 1 false, .call .stop, .expire 1 false]).log =
    [.returned (.start ⟨1, 0⟩ ⟨0, 1000⟩) (.ok ()), .delivered 0 false, .delivered 0 true,
      .returned (.start ⟨1, 0⟩ ⟨0, 1000⟩) (.error .stopFailed),
      .returned (.start ⟨1, 0⟩ ⟨0, 1000⟩) (.ok ()), .delivered 1 false,
      .returned .stop (.ok ())] := by decide +kernel

end TimerSystem
end TelemetryAgent
