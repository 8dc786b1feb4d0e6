import TelemetryAgent.Proofs.Schedule.Deliveries

/-!
# Starts, step by step

A start sets the scheduler running, drops the notifications that it finds, one by one, begins an
epoch, spawns a worker and arms the entries. Between any two of these, timers expire and workers
take, publish and look. A worker asks whether the scheduler runs and whether the epoch is its own,
and a start changes the two at different moments: in between, a worker of the last start that has
outlived a stop is current again.

A start that is not interrupted is the start of the scheduler. The marks in the log tell how far a
start has come, so that the steps of a crew need not mention it.
-/
namespace TelemetryAgent

open Occurrence

inductive StartStage where
  | emptying (publisher : Nat)
  | renewing (publisher : Nat)
  | spawning (publisher : Nat)
  | arming (kinds : List Kind)

def StartStage.mark : StartStage → Mark
  | emptying _ => .emptying
  | renewing _ => .emptied
  | spawning _ => .renewed
  | arming _ => .rest

inductive Turn where
  | move (m : Move)
  /-- The start that is under way takes its next step. -/
  | proceed

def Turn.isStart : Turn → Bool
  | move (.call (.start _)) => true
  | _ => false

/-- A scheduler at work, with the start that is under way. -/
structure StagedSystem where
  system : System
  stage : Option StartStage := none

namespace StagedSystem

def mark (x : StagedSystem) : Mark :=
  match x.stage with
  | none => .rest
  | some stage => stage.mark

/-! ## The steps of a start -/

def enter (publisher : Nat) (x : System) : StagedSystem :=
  if x.scheduler.running then ⟨{ x with host := x.host.note .alreadyRunning }, none⟩
  else
    let left := System.displacement x.scheduler.tracked x.host
    ⟨{ x with scheduler := x.scheduler.raise, log := x.log ++ (left ++ [.raised]) },
      some (.emptying publisher)⟩

def empty (publisher : Nat) (x : System) : StagedSystem :=
  match x.scheduler.queue with
  | [] => ⟨{ x with log := x.log ++ [.cleared] }, some (.renewing publisher)⟩
  | k :: _ =>
    ⟨{ x with scheduler := x.scheduler.discard, log := x.log ++ [.discarded k] },
      some (.emptying publisher)⟩

def renew (publisher : Nat) (x : System) : StagedSystem :=
  ⟨{ x with scheduler := x.scheduler.renew, log := x.log ++ [.renewed] }, some (.spawning publisher)⟩

def spawn (publisher : Nat) (x : System) : StagedSystem :=
  match x.scheduler.enlist publisher x.host with
  | (.error _, s, h) => ⟨⟨s, h, x.log ++ [.refused]⟩, none⟩
  | (.ok worker, s, h) =>
    ⟨⟨s, h, x.log ++ [.started worker publisher]⟩, some (.arming Kind.schedulable)⟩

def arm (kinds : List Kind) (x : System) : StagedSystem :=
  match kinds with
  | [] => ⟨x, none⟩
  | k :: rest =>
    let (s, h) := x.scheduler.scheduleEnabled k x.host
    ⟨⟨s, h, x.log⟩, some (.arming rest)⟩

def proceed (x : StagedSystem) : StagedSystem :=
  match x.stage with
  | none => x
  | some (.emptying publisher) => empty publisher x.system
  | some (.renewing publisher) => renew publisher x.system
  | some (.spawning publisher) => spawn publisher x.system
  | some (.arming kinds) => arm kinds x.system

/-! ## Runs -/

/-- The caller is busy while a start is under way. -/
def move (m : Move) (x : StagedSystem) : StagedSystem :=
  match x.stage, m with
  | _, .ambient a => { x with system := x.system.happen a }
  | none, .call (.start publisher) => enter publisher x.system
  | none, m => ⟨x.system.step m, none⟩
  | some _, _ => x

theorem move_call_of_stage (op : Operation) (x : System) (stage : StartStage) :
    move (.call op) ⟨x, some stage⟩ = ⟨x, some stage⟩ := by
  cases op <;> rfl

def step (t : Turn) (x : StagedSystem) : StagedSystem :=
  match t with
  | .move m => x.move m
  | .proceed => x.proceed

def run (turns : List Turn) (x : StagedSystem) : StagedSystem := turns.foldl (fun x t => x.step t) x

theorem run_append (turns later : List Turn) (x : StagedSystem) :
    x.run (turns ++ later) = (x.run turns).run later := List.foldl_append

/-- What every step keeps holds after every run. -/
theorem run_induction {p : StagedSystem → Prop} {turns : List Turn} {x : StagedSystem} (hx : p x)
    (hstep : ∀ t ∈ turns, ∀ y, p y → p (y.step t)) : p (x.run turns) := by
  induction turns generalizing x with
  | nil => exact hx
  | cons t rest ih =>
      exact ih (hstep t List.mem_cons_self x hx) fun u hu => hstep u (List.mem_cons_of_mem t hu)

/-! ## A start that is not interrupted -/

/-- `y` is what becomes of `x` if nothing happens but the steps of the start under way. -/
def Leads (x y : StagedSystem) : Prop := ∃ n, x.run (List.replicate n .proceed) = y

theorem Leads.refl (x : StagedSystem) : Leads x x := ⟨0, rfl⟩

theorem Leads.head {x y : StagedSystem} (h : Leads x.proceed y) : Leads x y := by
  obtain ⟨n, hn⟩ := h
  exact ⟨n + 1, hn⟩

theorem Leads.trans {x y z : StagedSystem} (hxy : Leads x y) (hyz : Leads y z) : Leads x z := by
  obtain ⟨n, rfl⟩ := hxy
  obtain ⟨m, rfl⟩ := hyz
  exact ⟨n + m, by rw [List.replicate_add, run_append]⟩

theorem leads_drain (publisher : Nat) (s : Scheduler) (h : Host) (log : List Occurrence) :
    ∃ log', Leads ⟨⟨s, h, log⟩, some (.emptying publisher)⟩
      ⟨⟨s.drain, h, log'⟩, some (.renewing publisher)⟩ := by
  obtain ⟨queue, hqueue⟩ : ∃ queue, s.queue = queue := ⟨_, rfl⟩
  induction queue generalizing s log with
  | nil =>
      refine ⟨log ++ [.cleared], Leads.head ?_⟩
      have hdrain : s.drain = s := by rw [Scheduler.drain, hqueue]; rfl
      simp only [proceed, empty, hqueue, hdrain]
      exact .refl _
  | cons k rest ih =>
      have hrest : s.discard.queue = rest := by rw [Scheduler.discard, hqueue]; rfl
      obtain ⟨log', hlog'⟩ := ih s.discard (log ++ [.discarded k]) hrest
      have hdrain : s.discard.drain = s.drain := by
        rw [Scheduler.drain, Scheduler.drain, hrest, hqueue]
        rfl
      refine ⟨log', Leads.head ?_⟩
      simp only [proceed, empty, hqueue]
      rw [← hdrain]
      exact hlog'

theorem leads_scheduleAll (kinds : List Kind) (s : Scheduler) (h : Host) (log : List Occurrence) :
    Leads ⟨⟨s, h, log⟩, some (.arming kinds)⟩
      ⟨⟨(Scheduler.scheduleAll kinds s h).1, (Scheduler.scheduleAll kinds s h).2, log⟩, none⟩ := by
  induction kinds generalizing s h with
  | nil => exact Leads.head (.refl _)
  | cons k rest ih => exact Leads.head (ih _ _)

/-- Taken without interruption, the steps of a start are a start. -/
theorem leads_start (publisher : Nat) (x : System) :
    ∃ log, Leads (step (.move (.call (.start publisher))) ⟨x, none⟩)
      ⟨⟨(x.scheduler.start publisher x.host).2.1, (x.scheduler.start publisher x.host).2.2, log⟩,
        none⟩ := by
  change ∃ log, Leads (enter publisher x) _
  unfold enter Scheduler.start
  split
  · exact ⟨x.log, .refl _⟩
  · obtain ⟨log, hdrain⟩ := leads_drain publisher x.scheduler.raise x.host
      (x.log ++ (System.displacement x.scheduler.tracked x.host ++ [.raised]))
    have hopen := hdrain.trans (Leads.head (.refl _))
    simp only [proceed, renew] at hopen
    cases henlist : x.scheduler.raise.drain.renew.enlist publisher x.host with
    | mk r rest =>
        obtain ⟨s, h⟩ := rest
        cases r with
        | error f =>
            refine ⟨log ++ [.renewed] ++ [.refused], hopen.trans (Leads.head ?_)⟩
            simp only [proceed, spawn, henlist]
            exact .refl _
        | ok worker =>
            refine ⟨log ++ [.renewed] ++ [.started worker publisher], hopen.trans (Leads.head ?_)⟩
            simp only [proceed, spawn, henlist]
            exact leads_scheduleAll Kind.schedulable s h _

end StagedSystem

/-! ## What it does to the crew -/

namespace Crew

/-- Everything but a start. -/
abbrev Work (c c' : Crew) : Prop := Step (fun _ => False) c c'

/-- What can happen to a crew while starts are taken step by step. -/
inductive SmallStep (c : Crew) : Crew → Prop
  | work {c' : Crew} : Work c c' → SmallStep c c'
  | raise : Occurrence.mark c.log = .rest → c.running = false →
      SmallStep c { c with running := true, log := c.log ++ (c.displacement ++ [.raised]) }
  | discard {k : Kind} {rest : List Kind} : Occurrence.mark c.log = .emptying → c.queue = k :: rest →
      SmallStep c { c.record (.discarded k) with queue := rest }
  | clear : Occurrence.mark c.log = .emptying → c.queue = [] → SmallStep c (c.record .cleared)
  | renew : Occurrence.mark c.log = .emptied →
      SmallStep c { c.record .renewed with epoch := c.epoch + 1 }
  | refuse : Occurrence.mark c.log = .renewed →
      SmallStep c { c.record .refused with running := false }
  | enlist (publisher pollMillis : Nat) : Occurrence.mark c.log = .renewed →
      SmallStep c
        { c.record (.started c.workers.length publisher) with
          tracked := some c.workers.length
          workers := c.workers ++ [⟨c.ident, c.epoch, publisher, pollMillis, .idle 0⟩] }

abbrev SmallSteps : Crew → Crew → Prop := Relation.ReflTransGen SmallStep

theorem Steps.small {c c' : Crew} (hs : Steps (fun _ => False) c c') : SmallSteps c c' :=
  hs.lift id fun _ _ hstep => .work hstep

variable {c c' : Crew}

/-- What a log gains without a start does not mark it, and begins no epoch. -/
theorem Work.unmarked (hw : Work c c') :
    Occurrence.mark c'.log = Occurrence.mark c.log ∧ renewals c'.log = renewals c.log := by
  cases hw with
  | start _ hgiven => exact hgiven.elim
  | refuse hgiven => exact hgiven.elim
  | accept | lose | take | finish => exact ⟨mark_concat _ _, renewals_append _ _⟩
  | halt | join | mourn | elapse | look => exact ⟨rfl, rfl⟩

theorem mark_displacement (c : Crew) (log : List Occurrence) :
    Occurrence.mark (log ++ c.displacement) = Occurrence.mark log := by
  unfold displacement
  split
  · rw [List.append_nil]
  · split
    · exact mark_concat _ _
    · rw [List.append_nil]

theorem renewals_displacement (c : Crew) : renewals c.displacement = 0 := by
  unfold displacement
  split
  · rfl
  · split <;> rfl

theorem Steps.unmarked (hs : Steps (fun _ => False) c c') :
    Occurrence.mark c'.log = Occurrence.mark c.log ∧ renewals c'.log = renewals c.log := by
  induction hs with
  | refl => exact ⟨rfl, rfl⟩
  | tail _ hstep ih =>
      obtain ⟨hmark, hcount⟩ := Work.unmarked hstep
      exact ⟨hmark.trans ih.1, hcount.trans ih.2⟩

end Crew

namespace StagedSystem

abbrev crew (x : StagedSystem) : Crew := x.system.crew

/-- The last mark in the log tells how far the start under way has come. -/
def Marked (x : StagedSystem) : Prop := Occurrence.mark x.system.log = x.mark

/-- The epochs that have begun, with the one that the start under way is about to begin. -/
def begun (x : StagedSystem) : Nat := renewals x.system.log + if x.mark.isOpening then 1 else 0

/-- From `x` to `y` the crew takes small steps, and at most so many starts are called. -/
structure Advance (x y : StagedSystem) (starts : Nat) : Prop where
  small : Crew.SmallSteps x.crew y.crew
  marked : y.Marked
  begun_le : y.begun ≤ x.begun + starts

variable {x y : StagedSystem}

theorem Advance.trans {z : StagedSystem} {m n : Nat} (hxy : Advance x y m) (hyz : Advance y z n) :
    Advance x z (m + n) where
  small := hxy.small.trans hyz.small
  marked := hyz.marked
  begun_le := by
    have hm := hxy.begun_le
    have hn := hyz.begun_le
    omega

theorem Advance.ofWork (hs : Crew.Steps (fun _ => False) x.crew y.crew) (hstage : y.mark = x.mark)
    (hm : x.Marked) : Advance x y 0 := by
  obtain ⟨hmark, hcount⟩ := hs.unmarked
  have hsame : renewals y.system.log = renewals x.system.log := hcount
  refine ⟨hs.small, hmark.trans (hm.trans hstage.symm), ?_⟩
  rw [begun, begun, hsame, hstage]
  exact Nat.le_refl _

/-- One small step, after which the log has one occurrence more. -/
theorem Advance.ofStep {o : Occurrence} {n : Nat} (hs : Crew.SmallStep x.crew y.crew)
    (hlog : y.system.log = x.system.log ++ [o]) (hm : x.Marked)
    (hmark : advance x.mark o = y.mark)
    (hcount : renewals [o] + (if y.mark.isOpening then 1 else 0) ≤
      (if x.mark.isOpening then 1 else 0) + n) : Advance x y n := by
  refine ⟨.single hs, ?_, ?_⟩
  · rw [Marked, hlog, mark_concat, show Occurrence.mark x.system.log = x.mark from hm, hmark]
  · rw [begun, begun, hlog, renewals_append]
    omega

theorem enter_advance (publisher : Nat) {x : System} (hm : Marked ⟨x, none⟩) :
    Advance ⟨x, none⟩ (enter publisher x) 1 := by
  unfold enter
  split
  · exact ⟨.refl, hm, Nat.le_add_right _ _⟩
  · rename_i hstopped
    have hrest : Occurrence.mark x.log = .rest := hm
    have hraise : Crew.SmallStep x.crew _ := .raise hrest (Bool.eq_false_iff.mpr hstopped)
    refine ⟨.single hraise, ?_, ?_⟩
    · change Occurrence.mark (x.log ++ (x.crew.displacement ++ [.raised])) = .emptying
      rw [← List.append_assoc, mark_concat]
      rfl
    · change renewals (x.log ++ (x.crew.displacement ++ [.raised])) + 1 ≤ renewals x.log + 0 + 1
      rw [renewals_append, renewals_append, Crew.renewals_displacement]
      exact Nat.le_refl _

theorem empty_advance (publisher : Nat) {x : System} (hm : Marked ⟨x, some (.emptying publisher)⟩) :
    Advance ⟨x, some (.emptying publisher)⟩ (empty publisher x) 0 := by
  unfold empty
  split
  · rename_i hqueue
    exact .ofStep (Crew.SmallStep.clear (c := x.crew) hm hqueue) rfl hm rfl (Nat.le_refl _)
  · rename_i k rest hqueue
    have hstep := Crew.SmallStep.discard (c := x.crew) hm hqueue
    have hrest : x.scheduler.discard.queue = rest := by rw [Scheduler.discard, hqueue]; rfl
    rw [← hrest] at hstep
    exact .ofStep hstep rfl hm rfl (Nat.le_refl _)

theorem spawn_advance (publisher : Nat) {x : System} (hm : Marked ⟨x, some (.spawning publisher)⟩) :
    Advance ⟨x, some (.spawning publisher)⟩ (spawn publisher x) 0 := by
  unfold spawn
  have hcases := Scheduler.enlist_cases publisher x.scheduler x.host
  generalize x.scheduler.enlist publisher x.host = result at hcases
  obtain ⟨r, s, h⟩ := result
  dsimp only at hcases
  have hrenewed : Occurrence.mark x.crew.log = .renewed := hm
  cases hcases with
  | refused hworkers =>
      have hstep : Crew.SmallStep x.crew
          (System.crew ⟨{ x.scheduler with running := false }, h, x.log ++ [.refused]⟩) := by
        simp only [System.crew, Crew.of, hworkers]
        exact .refuse hrenewed
      exact .ofStep hstep rfl hm rfl (Nat.le_refl _)
  | spawned hworkers =>
      have hstep : Crew.SmallStep x.crew
          (System.crew ⟨{ x.scheduler with tracked := some x.host.tasks.workers.length }, h,
            x.log ++ [.started x.host.tasks.workers.length publisher]⟩) := by
        simp only [System.crew, Crew.of, hworkers]
        exact .enlist publisher x.scheduler.config.pollMillis.toNat hrenewed
      exact .ofStep hstep rfl hm rfl (Nat.le_refl _)

theorem arm_advance (kinds : List Kind) {x : System} (hm : Marked ⟨x, some (.arming kinds)⟩) :
    Advance ⟨x, some (.arming kinds)⟩ (arm kinds x) 0 := by
  cases kinds with
  | nil => exact .ofWork .refl rfl hm
  | cons k rest =>
      refine .ofWork ?_ rfl hm
      have hsame : (arm (k :: rest) x).crew = x.crew :=
        (Scheduler.scheduleEnabled_work k x.scheduler x.host).crew x.log
      rw [hsame]

theorem proceed_advance (hm : x.Marked) : Advance x x.proceed 0 := by
  obtain ⟨y, stage⟩ := x
  cases stage with
  | none => exact .ofWork .refl rfl hm
  | some stage =>
      cases stage with
      | emptying publisher => exact empty_advance publisher hm
      | renewing publisher =>
          exact .ofStep (Crew.SmallStep.renew (c := y.crew) hm) rfl hm rfl (Nat.le_refl _)
      | spawning publisher => exact spawn_advance publisher hm
      | arming kinds => exact arm_advance kinds hm

theorem move_advance (m : Move) (hm : x.Marked) :
    Advance x (x.move m) (if (Turn.move m).isStart then 1 else 0) := by
  obtain ⟨y, stage⟩ := x
  cases m with
  | ambient a => cases stage <;> exact .ofWork (System.happen_crew a y) rfl hm
  | stopWhile timeoutMillis meanwhile =>
      cases stage with
      | none => exact .ofWork (System.stopWhile_crew timeoutMillis meanwhile y) rfl hm
      | some stage => exact .ofWork .refl rfl hm
  | call op =>
      cases stage with
      | some stage =>
          rw [move_call_of_stage]
          exact ⟨.refl, hm, Nat.le_add_right _ _⟩
      | none =>
          cases op with
          | start publisher => exact enter_advance publisher hm
          | stop | schedule | unschedule | set | unset =>
              exact .ofWork (System.call_crew _ (fun _ hstart => nomatch hstart) y) rfl hm

/-- Every run is made of small steps of the crew, and begins no more epochs than there are starts. -/
theorem run_advance (turns : List Turn) (hm : x.Marked) :
    Advance x (x.run turns) (turns.countP Turn.isStart) := by
  induction turns generalizing x with
  | nil => exact .ofWork .refl rfl hm
  | cons t rest ih =>
      have hstep : Advance x (x.step t) (if t.isStart then 1 else 0) := by
        cases t with
        | move m => exact move_advance m hm
        | proceed => exact proceed_advance hm
      have hrun := hstep.trans (ih hstep.marked)
      rw [List.countP_cons, Nat.add_comm]
      exact hrun

end StagedSystem
end TelemetryAgent
