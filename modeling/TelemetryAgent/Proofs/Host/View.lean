import TelemetryAgent.Host.Tasks
import TelemetryAgent.Schedule.Persist

/-!
# Views of the host

A view of the host leaves something out: parts of the host, and calls and notices that are about
them. It always shows timers and tasks with the calls on them. What is done with timers and tasks
comes to the same in a view as on the host.
-/
namespace TelemetryAgent

/-- A call on timers, sessions or the platform, which every view shows. -/
def Call.isCommon : Call → Bool
  | save _ _ _ => false
  | callback _ => false
  | command _ => false
  | led _ => false
  | ota _ _ => false
  | _ => true

/-- A notice that every view shows. -/
def Notice.isCommon : Notice → Bool
  | persistFailed _ _ => false
  | requestFailed _ _ _ => false
  | _ => true

namespace Host

structure View where
  see : Host → Host
  timers : ∀ h, (see h).timers = h.timers
  tasks : ∀ h, (see h).tasks = h.tasks
  schedulers : ∀ h, (see h).schedulers = h.schedulers
  setTimers : ∀ h bank, { see h with timers := bank } = see { h with timers := bank }
  setTasks : ∀ h pool, { see h with tasks := pool } = see { h with tasks := pool }
  setSchedulers : ∀ h n, { see h with schedulers := n } = see { h with schedulers := n }
  record : ∀ {c : Call}, c.isCommon = true → ∀ h, (see h).record c = see (h.record c)
  note : ∀ {n : Notice}, n.isCommon = true → ∀ h, (see h).note n = see (h.note n)

namespace View

variable (v : View)

theorem noteFailure {n : Fault → Notice} (hn : ∀ f, (n f).isCommon = true) (r : Outcome)
    (h : Host) : (v.see h).noteFailure r n = v.see (h.noteFailure r n) := by
  cases r with
  | ok => rfl
  | error f => exact v.note (hn f) h

/-- What comes to the same in a view is the same on hosts that are the same in it. -/
theorem alike {α : Type} {f : Host → α × Host} (hf : ∀ h, f (v.see h) = Prod.map id v.see (f h))
    {h h' : Host} (hsame : v.see h = v.see h') :
    (f h).1 = (f h').1 ∧ v.see (f h).2 = v.see (f h').2 := by
  have hmapped : Prod.map id v.see (f h) = Prod.map id v.see (f h') := by rw [← hf, ← hf, hsame]
  exact Prod.ext_iff.mp hmapped

/-! ## Timers -/

theorem recordTimer {c : Call} (hc : c.isCommon = true) (h : Host) :
    (v.see h).recordTimer c = v.see (h.recordTimer c) := by
  unfold Host.recordTimer
  rw [v.timers]
  cases h.timers.backend with
  | manual => exact v.record hc h
  | threaded => rfl

theorem timerCall (plan : TimerBank → Nat → Option Fault) (h : Host) :
    (v.see h).timerCall plan = Prod.map id v.see (h.timerCall plan) := by
  unfold Host.timerCall
  rw [v.timers, v.setTimers]
  rfl

theorem setTimer (timer : Nat) (f : TimerState → TimerState) (h : Host) :
    (v.see h).setTimer timer f = v.see (h.setTimer timer f) := by
  unfold Host.setTimer
  rw [v.timers]
  exact v.setTimers h _

theorem createTimer (owner : Nat) (k : Kind) (h : Host) :
    (v.see h).createTimer owner k = Prod.map id v.see (h.createTimer owner k) := by
  unfold Host.createTimer
  rw [v.timerCall]
  rcases h.timerCall TimerBank.createFault with ⟨_ | f, h₁⟩
  · dsimp only [Prod.map_apply, id_eq]
    rw [v.timers, v.recordTimer rfl, v.timers, v.setTimers]
  · dsimp only [Prod.map_apply, id_eq]
    rw [v.recordTimer rfl]

theorem startTimer (timer seconds : Nat) (h : Host) :
    (v.see h).startTimer timer seconds = Prod.map id v.see (h.startTimer timer seconds) := by
  unfold Host.startTimer
  rw [v.recordTimer rfl]
  dsimp only
  rw [v.timerCall]
  rcases (h.recordTimer (.timerStart timer seconds)).timerCall TimerBank.startFault
    with ⟨_ | f, h₁⟩
  · dsimp only [Prod.map_apply, id_eq]
    rw [v.timers, v.setTimer]
    split
    · exact congrArg (Prod.mk _) (v.note rfl h₁)
    · rfl
  · rfl

theorem stopTimer (timer : Nat) (h : Host) :
    (v.see h).stopTimer timer = Prod.map id v.see (h.stopTimer timer) := by
  unfold Host.stopTimer
  rw [v.recordTimer rfl]
  dsimp only
  rw [v.timerCall]
  rcases (h.recordTimer (.timerStop timer)).timerCall TimerBank.stopFault with ⟨_ | f, h₁⟩
  · exact congrArg (Prod.mk _) (v.setTimer timer _ h₁)
  · rfl

theorem releaseTimer (timer : Nat) (h : Host) :
    (v.see h).releaseTimer timer = v.see (h.releaseTimer timer) := by
  unfold Host.releaseTimer
  rw [v.recordTimer rfl, v.setTimer]

theorem disarm (e : Entry) (h : Host) :
    (v.see h).disarm e = Prod.map id v.see (h.disarm e) := by
  unfold Host.disarm
  cases e.timer with
  | none => rfl
  | some timer =>
      dsimp only
      rw [v.stopTimer]
      exact congrArg (Prod.mk _) (v.releaseTimer timer _)

theorem abandon (e : Entry) (h : Host) : (v.see h).abandon e = v.see (h.abandon e) := by
  unfold Host.abandon
  cases e.timer with
  | none => rfl
  | some timer => exact v.releaseTimer timer h

theorem arm (owner : Nat) (e : Entry) (seconds : Nat) (h : Host) :
    (v.see h).arm owner e seconds = Prod.map id v.see (h.arm owner e seconds) := by
  unfold Host.arm
  cases e.timer with
  | some timer =>
      dsimp only
      rw [v.stopTimer]
      rcases h.stopTimer timer with ⟨f | _, h₁⟩
      · rfl
      · dsimp only [Prod.map_apply, id_eq]
        rw [v.startTimer]
        rcases h₁.startTimer timer seconds with ⟨f | _, h₂⟩ <;> rfl
  | none =>
      dsimp only
      rw [v.createTimer]
      rcases h.createTimer owner e.kind with ⟨f | timer, h₁⟩
      · rfl
      · dsimp only [Prod.map_apply, id_eq]
        rw [v.startTimer]
        rcases h₁.startTimer timer seconds with ⟨f | _, h₂⟩
        · exact congrArg (Prod.mk _) (v.releaseTimer timer h₂)
        · rfl

/-! ## Tasks -/

theorem spawn (w : Worker) (stackBytes : UInt64) (h : Host) :
    (v.see h).spawn w stackBytes = Prod.map id v.see (h.spawn w stackBytes) := by
  unfold Host.spawn
  dsimp only
  rw [v.tasks, v.setTasks]
  cases h.tasks.refusal h.tasks.spawns stackBytes with
  | some cause => exact congrArg (Prod.mk _) (v.note rfl _)
  | none => exact congrArg (Prod.mk _) (v.setTasks h _)

theorem setPhase (worker : Nat) (phase : WorkerPhase) (h : Host) :
    (v.see h).setPhase worker phase = v.see (h.setPhase worker phase) := by
  unfold Host.setPhase
  rw [v.tasks]
  exact v.setTasks h _

theorem phase (worker : Nat) (h : Host) : (v.see h).phase worker = h.phase worker := by
  unfold Host.phase
  rw [v.tasks]

theorem elapse (millis : Nat) (h : Host) :
    (v.see h).elapse millis = v.see (h.elapse millis) := by
  unfold Host.elapse
  rw [v.tasks]
  exact v.setTasks h _

end View
end Host
end TelemetryAgent
