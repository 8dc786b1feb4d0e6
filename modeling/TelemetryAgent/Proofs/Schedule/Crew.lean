import TelemetryAgent.Proofs.Schedule.Frame
import Mathlib.Logic.Relation

/-!
# The crew

What the workers of a scheduler have to do with it: whether it runs, its epoch, the queue, the
worker that is waited for, and the workers themselves, with the log of what happened to them. The
steps of a crew are few, and everything that a run does to workers is made of them. Entries, timers
and the store do not occur.
-/
namespace TelemetryAgent

structure Crew where
  ident : Nat
  running : Bool
  epoch : UInt32
  queue : List Kind
  tracked : Option Nat
  workers : List Worker
  log : List Occurrence

namespace Crew

def of (s : Scheduler) (h : Host) (log : List Occurrence) : Crew :=
  ⟨s.ident, s.running, s.epoch, s.queue, s.tracked, h.tasks.workers, log⟩

/-- A worker that was never spawned counts as ended. -/
def phase (c : Crew) (i : Nat) : WorkerPhase :=
  match c.workers[i]? with
  | some w => w.phase
  | none => .ended

def isCurrent (c : Crew) (w : Worker) : Bool :=
  w.owner == c.ident && c.running && c.epoch == w.epoch

def displacement (c : Crew) : List Occurrence :=
  match c.tracked with
  | none => []
  | some i => if (c.phase i).isAlive then [.displaced i] else []

def recruit (publisher pollMillis : Nat) (c : Crew) : Worker :=
  ⟨c.ident, c.epoch + 1, publisher, pollMillis, .idle 0⟩

def setPhase (i : Nat) (phase : WorkerPhase) (c : Crew) : Crew :=
  { c with workers := c.workers.modify i fun w => { w with phase } }

def record (o : Occurrence) (c : Crew) : Crew := { c with log := c.log ++ [o] }

/-- What can happen to a crew that is given publishers of a certain sort. -/
inductive Step (given : Nat → Prop) (c : Crew) : Crew → Prop
  | start {publisher : Nat} (pollMillis : Nat) : given publisher → c.running = false →
      Step given c
        { c with
          running := true
          epoch := c.epoch + 1
          queue := []
          tracked := some c.workers.length
          workers := c.workers ++ [c.recruit publisher pollMillis]
          log := c.log ++ (c.displacement ++ [.started c.workers.length publisher]) }
  | refuse {publisher : Nat} : given publisher → c.running = false →
      Step given c { c with epoch := c.epoch + 1, queue := [], log := c.log ++ [.refused] }
  | halt : Step given c { c with running := false }
  /-- The worker that is waited for has ended or was about to. -/
  | join {i : Nat} : c.running = false → c.tracked = some i → (∀ k, c.phase i ≠ .publishing k) →
      Step given c { c.setPhase i .ended with tracked := none }
  /-- The worker that is waited for has panicked. -/
  | mourn {i : Nat} : c.running = false → c.tracked = some i → c.phase i = .panicked →
      Step given c { c with tracked := none }
  | elapse (millis : Nat) :
      Step given c { c with workers := c.workers.map fun w => { w with phase := w.phase.later millis } }
  | accept (k : Kind) : c.queue.length < Scheduler.capacity →
      Step given c { c.record (.accepted k) with queue := c.queue ++ [k] }
  | lose (k : Kind) : ¬ c.queue.length < Scheduler.capacity → Step given c (c.record (.lost k))
  | take {i : Nat} {w : Worker} {k : Kind} {rest : List Kind} : c.workers[i]? = some w →
      w.phase.isIdle = true → c.isCurrent w = true → c.queue = k :: rest →
      Step given c { (c.setPhase i (.publishing k)).record (.handed i w.publisher k) with queue := rest }
  | finish {i : Nat} {w : Worker} {k : Kind} (phase : WorkerPhase) : c.workers[i]? = some w →
      w.phase = .publishing k → phase = .idle 0 ∨ phase = .panicked →
      Step given c ((c.setPhase i phase).record (.returned i w.publisher k))
  | look {i : Nat} {w : Worker} : c.workers[i]? = some w → w.owner = c.ident →
      (c.isCurrent w = true → c.queue = []) →
      Step given c { c with workers := c.workers.modify i fun w => w.look (c.isCurrent w) }

abbrev Steps (given : Nat → Prop) : Crew → Crew → Prop := Relation.ReflTransGen (Step given)

variable {given : Nat → Prop}

theorem Step.mono {given' : Nat → Prop} (hsub : ∀ p, given p → given' p) {c c' : Crew}
    (hs : Step given c c') : Step given' c c' := by
  cases hs with
  | start pollMillis hgiven hstopped => exact .start pollMillis (hsub _ hgiven) hstopped
  | refuse hgiven hstopped => exact .refuse (hsub _ hgiven) hstopped
  | halt => exact .halt
  | join hstopped htracked hphase => exact .join hstopped htracked hphase
  | mourn hstopped htracked hphase => exact .mourn hstopped htracked hphase
  | elapse millis => exact .elapse millis
  | accept k hroom => exact .accept k hroom
  | lose k hfull => exact .lose k hfull
  | take hw hidle hcurrent hqueue => exact .take hw hidle hcurrent hqueue
  | finish phase hw hphase hend => exact .finish phase hw hphase hend
  | look hw howner hnone => exact .look hw howner hnone

theorem Steps.mono {given' : Nat → Prop} (hsub : ∀ p, given p → given' p) {c c' : Crew}
    (hs : Steps given c c') : Steps given' c c' :=
  hs.lift id fun _ _ hstep => hstep.mono hsub

end Crew

theorem Host.setPhase_tasks {h h' : Host} (htasks : h'.tasks = h.tasks) (worker : Nat)
    (phase : WorkerPhase) : (h'.setPhase worker phase).tasks = (h.setPhase worker phase).tasks := by
  simp only [Host.setPhase, htasks]

/-! ## Calls -/

namespace Scheduler

variable {s s' : Scheduler} {h h' : Host} {given : Nat → Prop}

/-- Work on entries does not reach the crew. -/
theorem EntryWork.crew (hw : EntryWork s h s' h') (log : List Occurrence) :
    Crew.of s' h' log = Crew.of s h log := by
  simp only [Crew.of, hw.ident, hw.running, hw.epoch, hw.queue, hw.tracked, hw.tasks]

theorem changeover_of_epoch (hepoch : s'.epoch = s.epoch) : System.changeover s h s' h' = [] :=
  if_pos hepoch

theorem epoch_add_one_ne (epoch : UInt32) : epoch + 1 ≠ epoch := by
  intro heq
  have hone : (1 : UInt32) = 0 := by
    have hcancel : epoch + 1 = epoch + 0 := by rw [heq, UInt32.add_zero]
    exact (UInt32.add_right_inj epoch).mp hcancel
  cases hone

@[simp] theorem begun_epoch (worker : Nat) (s : Scheduler) :
    (s.begun worker).epoch = s.epoch + 1 := rfl

theorem start_crew {publisher : Nat} (hgiven : given publisher) (s : Scheduler) (h : Host) (log : List Occurrence) :
    Crew.Steps given (Crew.of s h log)
      (Crew.of (s.start publisher h).2.1 (s.start publisher h).2.2
        (log ++ System.changeover s h (s.start publisher h).2.1 (s.start publisher h).2.2)) := by
  have hcases := start_cases publisher s h
  generalize (s.start publisher h).1 = r, (s.start publisher h).2.1 = s₁,
    (s.start publisher h).2.2 = h₁ at hcases
  cases hcases with
  | already =>
      rw [changeover_of_epoch rfl, List.append_nil]
      exact .refl
  | refused hstopped hworkers =>
      have hlog : System.changeover s h { s with queue := [], epoch := s.epoch + 1 } h₁ =
          [.refused] := by
        unfold System.changeover
        rw [if_neg (epoch_add_one_ne s.epoch)]
        simp only [hstopped]
      rw [hlog]
      have hstep : Crew.Step given (Crew.of s h log) _ := .refuse hgiven hstopped
      simp only [Crew.of] at hstep ⊢
      rw [hworkers]
      exact .single hstep
  | @spawned h₂ hstopped hworkers =>
      have hwork := scheduleAll_work Kind.schedulable (s.begun h.tasks.workers.length) h₂
      generalize scheduleAll Kind.schedulable (s.begun h.tasks.workers.length) h₂ = done at hwork ⊢
      have hrunning : done.1.running = true := hwork.running
      have htracked : done.1.tracked = some h.tasks.workers.length := hwork.tracked
      have harrival : System.arrival h.tasks.workers.length done.2 =
          [.started h.tasks.workers.length publisher] := by
        unfold System.arrival
        rw [hwork.tasks, hworkers, List.getElem?_concat_length]
        rfl
      have hlog : System.changeover s h done.1 done.2 =
          System.displacement s.tracked h ++ [.started h.tasks.workers.length publisher] := by
        unfold System.changeover
        rw [hwork.epoch, begun_epoch, if_neg (epoch_add_one_ne s.epoch), hrunning, htracked, ← harrival]
      rw [hlog, hwork.crew]
      have hstep := Crew.Step.start (c := Crew.of s h log) s.config.pollMillis.toNat hgiven hstopped
      simp only [Crew.of, begun, hworkers] at hstep ⊢
      exact .single hstep

theorem halt_crew (s : Scheduler) (h : Host) (log : List Occurrence) :
    Crew.Step given (Crew.of s h log) (Crew.of (s.halt h).1 (s.halt h).2 log) := by
  rw [(halt_work s h).crew]
  exact .halt

theorem await_crew (hstopped : s.running = false) (timeoutMillis : Nat) (h : Host)
    (log : List Occurrence) :
    Crew.Steps given (Crew.of s h log)
      (Crew.of (s.await timeoutMillis h).2.1 (s.await timeoutMillis h).2.2 log) := by
  have hcases := await_cases timeoutMillis s h
  generalize (s.await timeoutMillis h).1 = r, (s.await timeoutMillis h).2.1 = s₁,
    (s.await timeoutMillis h).2.2 = h₁ at hcases
  cases hcases with
  | nobody => exact .refl
  | crashed htracked hphase =>
      exact .single (Crew.Step.mourn (c := Crew.of s h log) hstopped htracked hphase)
  | @joined worker htracked hends =>
      refine .single (Crew.Step.join (c := Crew.of s h log) hstopped htracked fun k hphase => ?_)
      rw [show h.phase worker = .publishing k from hphase] at hends
      cases hends
  | busy => exact .single (Crew.Step.elapse (c := Crew.of s h log) timeoutMillis)

theorem stop_crew (timeoutMillis : Nat) (s : Scheduler) (h : Host) (log : List Occurrence) :
    Crew.Steps given (Crew.of s h log)
      (Crew.of (s.stop timeoutMillis h).2.1 (s.stop timeoutMillis h).2.2 log) := by
  have hstopped : (s.halt h).1.running = false := (halt_work s h).running
  exact .head (halt_crew s h log) (await_crew hstopped timeoutMillis _ log)

theorem stop_epoch (timeoutMillis : Nat) (s : Scheduler) (h : Host) :
    (s.stop timeoutMillis h).2.1.epoch = s.epoch :=
  (await_work timeoutMillis (s.halt h).1 (s.halt h).2).epoch.trans (halt_work s h).epoch

end Scheduler

/-! ## Runs -/

namespace System

variable {given : Nat → Prop}

def crew (x : System) : Crew := Crew.of x.scheduler x.host x.log

theorem after_crew {x : System} {s : Scheduler} {h : Host}
    (hepoch : s.epoch = x.scheduler.epoch) : (x.after s h).crew = Crew.of s h x.log := by
  unfold crew after
  rw [Scheduler.changeover_of_epoch hepoch, List.append_nil]

theorem crew_of_work {x : System} {s : Scheduler} {h : Host}
    (hw : Scheduler.EntryWork x.scheduler x.host s h) : (x.after s h).crew = x.crew := by
  rw [after_crew hw.epoch, hw.crew]
  rfl

theorem call_crew (op : Operation) (hgiven : ∀ publisher, op = .start publisher → given publisher)
    (x : System) : Crew.Steps given x.crew (x.call op).crew := by
  cases op with
  | start publisher => exact Scheduler.start_crew (hgiven publisher rfl) x.scheduler x.host x.log
  | stop timeoutMillis =>
      rw [show (x.call (.stop timeoutMillis)).crew = _ from
        after_crew (Scheduler.stop_epoch timeoutMillis x.scheduler x.host)]
      exact Scheduler.stop_crew timeoutMillis x.scheduler x.host x.log
  | schedule k =>
      rw [show (x.call (.schedule k)).crew = _ from
        crew_of_work (Scheduler.schedule_work k x.scheduler x.host)]
  | unschedule k =>
      rw [show (x.call (.unschedule k)).crew = _ from
        crew_of_work (Scheduler.unschedule_work k x.scheduler x.host)]
  | set path value =>
      rw [show (x.call (.set path value)).crew = _ from
        crew_of_work (Scheduler.set_work path value x.scheduler x.host)]
  | unset path =>
      rw [show (x.call (.unset path)).crew = _ from
        crew_of_work (Scheduler.unset_work path x.scheduler x.host)]

theorem expire_crew (timer : Nat) (x : System) : Crew.Steps given x.crew (x.expire timer).crew := by
  unfold expire
  split
  · exact .refl
  · rename_i t _
    dsimp only
    split
    · unfold Scheduler.notify
      split
      · rename_i hroom
        exact .single (Crew.Step.accept (c := x.crew) t.kind hroom)
      · rename_i hfull
        exact .single (Crew.Step.lose (c := x.crew) t.kind hfull)
    · exact .refl

theorem take_crew (worker : Nat) (x : System) : Crew.Steps given x.crew (x.take worker).crew := by
  unfold take
  split
  · rename_i w k rest hw hqueue
    split
    · rename_i hready
      have hstep : Crew.Step given x.crew _ := .take hw hready.1 hready.2 hqueue
      unfold crew Scheduler.take
      simp only [hqueue]
      exact .single hstep
    · exact .refl
  · exact .refl

theorem finish_crew (publisher : Publisher.Confined) (worker : Nat) (x : System) :
    Crew.Steps given x.crew (x.finish publisher worker).crew := by
  rcases finish_cases publisher worker x with hsame | ⟨w, k, hw, hphase, hfinish⟩
  · rw [hsame]
  · have htasks := publisher.tasks w.publisher k x.host
    rw [hfinish]
    generalize publisher.publish w.publisher k x.host = result at htasks ⊢
    have hend : result.1.phase = .idle 0 ∨ result.1.phase = .panicked := by
      cases result.1 with
      | returned r => exact .inl rfl
      | panicked => exact .inr rfl
    have hstep : Crew.Step given x.crew _ := .finish result.1.phase hw hphase hend
    unfold crew Crew.of
    simp only [Host.setPhase_tasks htasks]
    exact .single hstep

theorem look_crew (worker : Nat) (x : System) : Crew.Steps given x.crew (x.look worker).crew := by
  unfold look
  split
  · exact .refl
  · rename_i w hw
    split
    · rename_i hmay
      exact .single (Crew.Step.look (c := x.crew) hw hmay.1 hmay.2)
    · exact .refl

theorem happen_crew (a : Ambient) (x : System) : Crew.Steps given x.crew (x.happen a).crew := by
  cases a with
  | expire timer => exact expire_crew timer x
  | take worker => exact take_crew worker x
  | finish worker publisher => exact finish_crew publisher worker x
  | look worker => exact look_crew worker x
  | elapse millis => exact .single (Crew.Step.elapse (c := x.crew) millis)
  | aside change =>
      have hcrew : (x.happen (.aside change)).crew = x.crew := by
        simp only [happen, crew, Crew.of, change.tasks]
      rw [hcrew]

theorem happenAll_crew (events : List Ambient) (x : System) :
    Crew.Steps given x.crew (x.happenAll events).crew :=
  happenAll_induction (p := fun y => Crew.Steps given x.crew y.crew) .refl fun a _ y hy =>
    hy.trans (happen_crew a y)

theorem awaiting_crew (meanwhile : List Ambient) (x : System) :
    Crew.Steps given x.crew (x.awaiting meanwhile).crew :=
  .head (Scheduler.halt_crew x.scheduler x.host x.log) (happenAll_crew meanwhile x.halted)

theorem awaiting_running (meanwhile : List Ambient) (x : System) :
    (x.awaiting meanwhile).scheduler.running = false :=
  (happenAll_offstage meanwhile x.halted).running.trans (Scheduler.halt_work x.scheduler x.host).running

theorem awaiting_tracked (meanwhile : List Ambient) (x : System) :
    (x.awaiting meanwhile).scheduler.tracked = x.scheduler.tracked :=
  (happenAll_offstage meanwhile x.halted).tracked.trans (Scheduler.halt_work x.scheduler x.host).tracked

/-- A stop ends with the wait, after whatever has happened by then. -/
theorem stopWhile_cases (timeoutMillis : Nat) (meanwhile : List Ambient) (x : System) :
    Scheduler.Awaited timeoutMillis (x.awaiting meanwhile).scheduler (x.awaiting meanwhile).host
      (x.stopWhile timeoutMillis meanwhile).1 (x.stopWhile timeoutMillis meanwhile).2.scheduler
      (x.stopWhile timeoutMillis meanwhile).2.host :=
  Scheduler.await_cases timeoutMillis _ _

theorem stopWhile_running (timeoutMillis : Nat) (meanwhile : List Ambient) (x : System) :
    (x.stopWhile timeoutMillis meanwhile).2.scheduler.running = false :=
  (Scheduler.await_work timeoutMillis _ _).running.trans (awaiting_running meanwhile x)

theorem stopWhile_crew (timeoutMillis : Nat) (meanwhile : List Ambient) (x : System) :
    Crew.Steps given x.crew (x.stopWhile timeoutMillis meanwhile).2.crew :=
  (awaiting_crew meanwhile x).trans
    (Scheduler.await_crew (awaiting_running meanwhile x) timeoutMillis _ _)

/-- Everything that a run does to workers is made of the steps of a crew. -/
theorem step_crew (m : Move) (x : System) :
    Crew.Steps (fun _ => True) x.crew (x.step m).crew := by
  cases m with
  | call op => exact call_crew op (fun _ _ => trivial) x
  | stopWhile timeoutMillis meanwhile => exact stopWhile_crew timeoutMillis meanwhile x
  | ambient a => exact happen_crew a x

theorem run_crew (moves : List Move) (x : System) :
    Crew.Steps (fun _ => True) x.crew (x.run moves).crew :=
  run_induction (p := fun y => Crew.Steps (fun _ => True) x.crew y.crew) .refl fun m _ y hy =>
    hy.trans (step_crew m y)

end System
end TelemetryAgent
