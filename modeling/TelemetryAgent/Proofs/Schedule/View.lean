import TelemetryAgent.Proofs.Host.View
import TelemetryAgent.Proofs.Schedule.Change
import TelemetryAgent.Proofs.Schedule.System

/-!
# Schedules in views of the host

What a scheduler does without writing to the store, and what happens around it, comes to the same in
every view, as long as publishers and the rest of the host do not look at what the view leaves out.
-/
namespace TelemetryAgent

def Publisher.Respects (v : Host.View) (publisher : Publisher) : Prop :=
  ∀ p k h, publisher p k (v.see h) = Prod.map id v.see (publisher p k h)

/-- Something happens that is the same in a view. -/
def Ambient.Respects (v : Host.View) : Ambient → Prop
  | finish _ publisher => publisher.publish.Respects v
  | aside change => ∀ h, change.apply (v.see h) = v.see (change.apply h)
  | _ => True

def Move.Respects (v : Host.View) : Move → Prop
  | call _ => True
  | stopWhile _ meanwhile => ∀ a ∈ meanwhile, a.Respects v
  | ambient a => a.Respects v

/-- What a schedule does with the timer of an entry, once the entry has been written. -/
def Scheduler.retime (k : Kind) (s : Scheduler) (e : Entry) (h : Host) :
    Outcome × Scheduler × Host :=
  if e.period ≤ 0 then
    let (r, h) := h.disarm e
    let h := (h.noteFailure r (.disarmFailed k)).note (.periodNotPositive k e.period)
    (.error (.invalidPeriod e.period), s.setEntry k (some { e with timer := none }), h)
  else if s.running then
    match h.arm s.ident e e.period.toInt.toNat with
    | (.ok timer, h) => (.ok (), s.setEntry k (some { e with timer := some timer }), h)
    | (.error f, h) =>
      (.error .startFailed, s.setEntry k none, (h.note (.armFailed k f)).abandon e)
  else (.ok (), s, h)

theorem Scheduler.schedule_of_some {k : Kind} {s : Scheduler} {e : Entry}
    (he : s.table.get? k = some e) (h : Host) : s.schedule k h = s.retime k e (h.persist e) := by
  unfold schedule
  rw [he]
  rfl

namespace Host.View

variable (v : View)

/-! ## Construction -/

theorem absorbAll (leaves : List (String × Bytes)) (t : Table) (h : Host) :
    Table.absorbAll leaves t (v.see h) = Prod.map id v.see (Table.absorbAll leaves t h) := by
  induction leaves generalizing t h with
  | nil => rfl
  | cons leaf rest ih =>
      obtain ⟨key, value⟩ := leaf
      unfold Table.absorbAll
      cases Setting.decode key value with
      | ok setting => exact ih _ h
      | error f =>
          dsimp only
          rw [v.note rfl]
          exact ih t _

/-- A view that shows the leaves, and how a load fails, shows what is loaded. -/
theorem load (hleaves : ∀ h, (v.see h).settings.leaves = h.settings.leaves)
    (hfault : ∀ h, (v.see h).settings.loadFault = h.settings.loadFault) (h : Host) :
    Table.load (v.see h) = Prod.map id v.see (Table.load h) := by
  have hload : (v.see h).load Setting.subtree =
      Prod.map id (Prod.map id v.see) (h.load Setting.subtree) := by
    unfold Host.load
    rw [v.record rfl, hleaves]
    dsimp only
    rw [hfault]
    cases (h.record (.load Setting.subtree)).settings.loadFault <;> rfl
  unfold Table.load
  rw [hload]
  rcases h.load Setting.subtree with ⟨leaves, failure, h₁⟩
  dsimp only [Prod.map_apply, id_eq]
  rw [v.absorbAll]
  cases failure with
  | none => rfl
  | some f =>
      dsimp only [Prod.map_fst, Prod.map_snd]
      rw [v.note rfl]
      rfl

theorem create (hleaves : ∀ h, (v.see h).settings.leaves = h.settings.leaves)
    (hfault : ∀ h, (v.see h).settings.loadFault = h.settings.loadFault)
    (baseline : List BaselineItem) (config : WorkerConfig) (h : Host) :
    Scheduler.create baseline config (v.see h) =
      Prod.map id v.see (Scheduler.create baseline config h) := by
  unfold Scheduler.create
  split
  · rfl
  · rw [v.load hleaves hfault]
    dsimp only [Prod.map_fst, Prod.map_snd]
    rw [v.schedulers, v.setSchedulers]
    rfl

/-! ## Schedulers -/

theorem retime (k : Kind) (s : Scheduler) (e : Entry) (h : Host) :
    s.retime k e (v.see h) = Prod.map id (Prod.map id v.see) (s.retime k e h) := by
  unfold Scheduler.retime
  split
  · rw [v.disarm]
    rcases h.disarm e with ⟨r, h₁⟩
    dsimp only [Prod.map_apply, id_eq]
    rw [v.noteFailure fun _ => rfl, v.note rfl]
  · split
    · rw [v.arm]
      rcases h.arm s.ident e e.period.toInt.toNat with ⟨f | timer, h₁⟩
      · dsimp only [Prod.map_apply, id_eq]
        rw [v.note rfl, v.abandon]
      · rfl
    · rfl

theorem disarmEach (kinds : List Kind) (s : Scheduler) (h : Host) :
    Scheduler.disarmEach kinds s (v.see h) = Prod.map id v.see (Scheduler.disarmEach kinds s h) := by
  induction kinds generalizing s h with
  | nil => rfl
  | cons k rest ih =>
      unfold Scheduler.disarmEach
      cases s.table.get? k with
      | none => exact ih s h
      | some e =>
          dsimp only
          rw [v.disarm]
          dsimp only [Prod.map_fst, Prod.map_snd]
          rw [v.noteFailure fun _ => rfl]
          exact ih _ _

theorem halt (s : Scheduler) (h : Host) : s.halt (v.see h) = Prod.map id v.see (s.halt h) := by
  unfold Scheduler.halt Scheduler.disarmAll
  rw [v.disarmEach]
  rfl

theorem await (timeoutMillis : Nat) (s : Scheduler) (h : Host) :
    s.await timeoutMillis (v.see h) =
      Prod.map id (Prod.map id v.see) (s.await timeoutMillis h) := by
  unfold Scheduler.await
  cases s.tracked with
  | none => rfl
  | some worker =>
      dsimp only
      rw [v.phase]
      split
      · split
        · rw [v.note rfl]
          rfl
        · rw [v.setPhase]
          rfl
      · rw [v.elapse, v.note rfl]
        rfl

theorem enlist (publisher : Nat) (s : Scheduler) (h : Host) :
    s.enlist publisher (v.see h) = Prod.map id (Prod.map id v.see) (s.enlist publisher h) := by
  unfold Scheduler.enlist
  dsimp only
  rw [v.spawn]
  generalize h.spawn _ s.config.stackBytes = p
  obtain ⟨r, h₁⟩ := p
  cases r with
  | error f =>
      simp only [Prod.map, id]
      rw [v.note rfl]
  | ok worker => rfl

/-! ## Likeness -/

/-- A relation between hosts that is kept by whatever comes to the same in a view, and by writing
an entry. -/
structure Likeness (v : View) where
  like : Host → Host → Prop
  kept : ∀ {α : Type} {f : Host → α × Host}, (∀ h, f (v.see h) = Prod.map id v.see (f h)) →
    ∀ {h h' : Host}, like h h' → (f h).1 = (f h').1 ∧ like (f h).2 (f h').2
  persist : ∀ (e : Entry) {h h' : Host}, like h h' → like (h.persist e) (h'.persist e)

/-- If a view shows what is written, a host is like what it shows of it. -/
def image (hpersist : ∀ e h, (v.see h).persist e = v.see (h.persist e)) : v.Likeness where
  like h h' := h' = v.see h
  kept {_ f} hf {h h'} hlike := by
    rw [hlike, hf]
    exact ⟨rfl, rfl⟩
  persist e h h' hlike := by
    rw [hlike]
    exact hpersist e h

/-- If a view does not show what is written, hosts are alike that are the same in it. -/
def same (hpersist : ∀ e h, v.see (h.persist e) = v.see h) : v.Likeness where
  like h h' := v.see h = v.see h'
  kept hf _ _ hlike := v.alike hf hlike
  persist e h h' hlike := by rw [hpersist, hpersist, hlike]

namespace Likeness

variable {v} (L : v.Likeness)

/-- Two calls come to the same, on hosts that are alike. -/
structure Agree (p q : Outcome × Scheduler × Host) : Prop where
  outcome : p.1 = q.1
  scheduler : p.2.1 = q.2.1
  host : L.like p.2.2 q.2.2

variable {L} {h h' : Host}

theorem both {α : Type} {f : Host → α × Scheduler × Host}
    (hf : ∀ h, f (v.see h) = Prod.map id (Prod.map id v.see) (f h)) (hlike : L.like h h') :
    (f h).1 = (f h').1 ∧ (f h).2.1 = (f h').2.1 ∧ L.like (f h).2.2 (f h').2.2 := by
  obtain ⟨hboth, hhost⟩ := L.kept (f := fun h => (((f h).1, (f h).2.1), (f h).2.2))
    (fun h => by rw [hf]; rfl) hlike
  obtain ⟨hr, hs⟩ := Prod.ext_iff.mp hboth
  exact ⟨hr, hs, hhost⟩

theorem Agree.of_see {f : Host → Outcome × Scheduler × Host}
    (hf : ∀ h, f (v.see h) = Prod.map id (Prod.map id v.see) (f h)) (hlike : L.like h h') :
    L.Agree (f h) (f h') := by
  obtain ⟨hr, hs, hhost⟩ := both hf hlike
  exact ⟨hr, hs, hhost⟩

variable (L)

theorem schedule (k : Kind) (s : Scheduler) (hlike : L.like h h') :
    L.Agree (s.schedule k h) (s.schedule k h') := by
  cases he : s.table.get? k with
  | none =>
      rw [Scheduler.schedule_of_none h he, Scheduler.schedule_of_none h' he]
      exact ⟨rfl, rfl, hlike⟩
  | some e =>
      rw [Scheduler.schedule_of_some he, Scheduler.schedule_of_some he]
      exact .of_see (v.retime k s e) (L.persist e hlike)

theorem unschedule (k : Kind) (s : Scheduler) (hlike : L.like h h') :
    L.Agree (s.unschedule k h) (s.unschedule k h') := by
  cases he : s.table.get? k with
  | none =>
      rw [Scheduler.unschedule_of_none h he, Scheduler.unschedule_of_none h' he]
      exact ⟨rfl, rfl, hlike⟩
  | some e =>
      obtain ⟨hr, hhost⟩ := L.kept (v.disarm e) (L.persist e hlike)
      rw [Scheduler.unschedule_of_some h he, Scheduler.unschedule_of_some h' he]
      exact ⟨hr, rfl, hhost⟩

theorem apply (k : Kind) (s : Scheduler) (hlike : L.like h h') :
    L.Agree (s.apply k h) (s.apply k h') := by
  unfold Scheduler.apply
  cases s.table.get? k with
  | none => exact L.unschedule k s hlike
  | some e =>
      dsimp only
      split
      · exact L.schedule k s hlike
      · exact L.unschedule k s hlike

theorem set (path : String) (value : Value) (s : Scheduler) (hlike : L.like h h') :
    L.Agree (s.set path value h) (s.set path value h') := by
  unfold Scheduler.set
  rcases Request.parse path with f | ⟨k, field⟩
  · exact ⟨rfl, rfl, hlike⟩
  · dsimp only
    cases s.table.getOrBlank? k with
    | none => exact ⟨rfl, rfl, hlike⟩
    | some e => exact L.apply k _ hlike

theorem unset (path : String) (s : Scheduler) (hlike : L.like h h') :
    L.Agree (s.unset path h) (s.unset path h') := by
  unfold Scheduler.unset
  rcases Request.parse path with f | ⟨k, field⟩
  · exact ⟨rfl, rfl, hlike⟩
  · dsimp only
    cases s.table.get? k with
    | none =>
        refine .of_see (f := fun h => (_, s, h.note (.unsetWithoutEntry k))) (fun h => ?_) hlike
        rw [v.note rfl]
        rfl
    | some e => exact L.apply k _ hlike

theorem scheduleEnabled (k : Kind) (s : Scheduler) (hlike : L.like h h') :
    (s.scheduleEnabled k h).1 = (s.scheduleEnabled k h').1 ∧
      L.like (s.scheduleEnabled k h).2 (s.scheduleEnabled k h').2 := by
  unfold Scheduler.scheduleEnabled
  cases s.table.get? k with
  | none => exact ⟨rfl, hlike⟩
  | some e =>
      dsimp only
      split
      · obtain ⟨hr, hs, hhost⟩ := L.schedule k s hlike
        have hnoted := L.kept
          (f := fun h => ((), h.noteFailure (s.schedule k h').1 (.notScheduled k)))
          (fun h => by rw [v.noteFailure fun _ => rfl]; rfl) hhost
        rw [hr]
        exact ⟨hs, hnoted.2⟩
      · exact ⟨rfl, hlike⟩

theorem scheduleAll (kinds : List Kind) (s : Scheduler) (hlike : L.like h h') :
    (Scheduler.scheduleAll kinds s h).1 = (Scheduler.scheduleAll kinds s h').1 ∧
      L.like (Scheduler.scheduleAll kinds s h).2 (Scheduler.scheduleAll kinds s h').2 := by
  induction kinds generalizing s h h' with
  | nil => exact ⟨rfl, hlike⟩
  | cons k rest ih =>
      obtain ⟨hs, hhost⟩ := L.scheduleEnabled k s hlike
      unfold Scheduler.scheduleAll
      dsimp only
      rw [hs]
      exact ih _ hhost

theorem start (publisher : Nat) (s : Scheduler) (hlike : L.like h h') :
    L.Agree (s.start publisher h) (s.start publisher h') := by
  unfold Scheduler.start
  split
  · refine .of_see (f := fun h => (_, s, h.note .alreadyRunning)) (fun h => ?_) hlike
    rw [v.note rfl]
    rfl
  · obtain ⟨hr, hs, hhost⟩ := both (v.enlist publisher s.raise.drain.renew) hlike
    generalize s.raise.drain.renew.enlist publisher h = p,
      s.raise.drain.renew.enlist publisher h' = p' at hr hs hhost ⊢
    obtain ⟨r, s₁, h₁⟩ := p
    obtain ⟨r', s₁', h₁'⟩ := p'
    cases hr
    cases hs
    cases r with
    | error f => exact ⟨rfl, rfl, hhost⟩
    | ok worker =>
        obtain ⟨hs, hlast⟩ := L.scheduleAll Kind.schedulable s₁ hhost
        exact ⟨rfl, hs, hlast⟩

theorem stop (timeoutMillis : Nat) (s : Scheduler) (hlike : L.like h h') :
    L.Agree (s.stop timeoutMillis h) (s.stop timeoutMillis h') := by
  obtain ⟨hs, hhost⟩ := L.kept (v.halt s) hlike
  unfold Scheduler.stop
  dsimp only
  rw [hs]
  exact .of_see (v.await timeoutMillis _) hhost

theorem perform (op : Operation) (s : Scheduler) (hlike : L.like h h') :
    L.Agree (op.perform s h) (op.perform s h') := by
  cases op with
  | start publisher => exact L.start publisher s hlike
  | stop timeoutMillis => exact L.stop timeoutMillis s hlike
  | schedule k => exact L.schedule k s hlike
  | unschedule k => exact L.unschedule k s hlike
  | set path value => exact L.set path value s hlike
  | unset path => exact L.unset path s hlike

end Likeness

/-! ## What happens around them -/

theorem finish {publisher : Publisher} (hp : publisher.Respects v) (worker : Nat) (h : Host) :
    (v.see h).finish publisher worker = v.see (h.finish publisher worker) := by
  unfold Host.finish
  rw [v.tasks]
  cases h.tasks.workers[worker]? with
  | none => rfl
  | some w =>
      dsimp only
      split
      · rename_i k _
        rw [hp]
        rcases publisher w.publisher k h with ⟨_ | _, h₁⟩ <;> exact v.setPhase worker _ h₁
      · rfl

theorem look (current : Worker → Bool) (worker : Nat) (h : Host) :
    (v.see h).look current worker = v.see (h.look current worker) := by
  unfold Host.look
  rw [v.tasks]
  exact v.setTasks h _

end Host.View

namespace System
open Host

def see (v : View) (x : System) : System := { x with host := v.see x.host }

variable {v : View} {a : Ambient}

@[simp] theorem see_scheduler (x : System) : (x.see v).scheduler = x.scheduler := rfl

@[simp] theorem see_host (x : System) : (x.see v).host = v.see x.host := rfl

@[simp] theorem see_log (x : System) : (x.see v).log = x.log := rfl

theorem happen_see (ha : a.Respects v) (x : System) : (x.see v).happen a = (x.happen a).see v := by
  cases a with
  | expire timer =>
      simp only [happen, expire, see_scheduler, see_host, see_log, v.timers]
      cases x.host.timers.timers[timer]? with
      | none => rfl
      | some t =>
          dsimp only
          rw [apply_ite (see v)]
          rfl
  | take worker =>
      simp only [happen, take, workers, see_scheduler, see_host, see_log, v.tasks]
      rcases x.host.tasks.workers[worker]? with _ | w
      · rfl
      · rcases hqueue : x.scheduler.queue with _ | ⟨k, rest⟩
        · rfl
        · simp only [Scheduler.take, hqueue, v.setPhase]
          rw [apply_ite (see v)]
          rfl
  | finish worker publisher =>
      simp only [happen, finish, workers, see_host, see_log, v.tasks]
      rcases x.host.tasks.workers[worker]? with _ | w
      · rfl
      · dsimp only
        cases w.phase with
        | publishing k =>
            dsimp only
            rw [v.finish ha]
            rfl
        | idle | ended | panicked => rfl
  | look worker =>
      simp only [happen, look, workers, see_scheduler, see_host, v.tasks]
      rcases x.host.tasks.workers[worker]? with _ | w
      · rfl
      · dsimp only
        rw [v.look, apply_ite (see v)]
        rfl
  | elapse millis => exact congrArg (fun h => { x with host := h }) (v.elapse millis x.host)
  | aside change => exact congrArg (fun h => { x with host := h }) (ha x.host)

theorem happenAll_see {events : List Ambient} (hevents : ∀ a ∈ events, a.Respects v) (x : System) :
    (x.see v).happenAll events = (x.happenAll events).see v := by
  induction events generalizing x with
  | nil => rfl
  | cons a rest ih =>
      unfold happenAll
      rw [List.foldl_cons, List.foldl_cons, happen_see (hevents a List.mem_cons_self)]
      exact ih (fun b hb => hevents b (List.mem_cons_of_mem a hb)) _

theorem halted_see (x : System) : (x.see v).halted = x.halted.see v := by
  simp only [halted, see, v.halt, Prod.map_fst, Prod.map_snd, id_eq]

theorem stopWhile_see (timeoutMillis : Nat) {meanwhile : List Ambient}
    (hmeanwhile : ∀ a ∈ meanwhile, a.Respects v) (x : System) :
    (x.see v).stopWhile timeoutMillis meanwhile =
      Prod.map id (see v) (x.stopWhile timeoutMillis meanwhile) := by
  unfold stopWhile awaiting
  rw [halted_see, happenAll_see hmeanwhile]
  generalize x.halted.happenAll meanwhile = y
  dsimp only [see]
  rw [v.await]
  rfl

/-- Two systems on hosts that are alike, which are the same otherwise. -/
structure Alike (L : v.Likeness) (x y : System) : Prop where
  scheduler : x.scheduler = y.scheduler
  log : x.log = y.log
  host : L.like x.host y.host

def answer? (m : Move) (x : System) : Option Outcome :=
  match m with
  | .call op => some (op.perform x.scheduler x.host).1
  | .stopWhile timeoutMillis meanwhile => some (x.stopWhile timeoutMillis meanwhile).1
  | .ambient _ => none

def answers : List Move → System → List (Option Outcome)
  | [], _ => []
  | m :: rest, x => x.answer? m :: answers rest (x.step m)

variable {L : v.Likeness} {x y : System}

theorem Alike.happenAll (events : List Ambient) (hevents : ∀ a ∈ events, a.Respects v)
    (hxy : Alike L x y) : Alike L (x.happenAll events) (y.happenAll events) := by
  obtain ⟨s, h, log⟩ := x
  obtain ⟨s', h', log'⟩ := y
  obtain ⟨rfl, rfl, hlike⟩ := hxy
  obtain ⟨hrest, hhost⟩ := L.kept
    (f := fun h => let x := System.happenAll events ⟨s, h, log⟩; ((x.scheduler, x.log), x.host))
    (fun h => by
      have hsee := happenAll_see hevents ⟨s, h, log⟩
      dsimp only [see] at hsee ⊢
      rw [hsee]
      rfl) hlike
  obtain ⟨hscheduler, hlog⟩ := Prod.ext_iff.mp hrest
  exact ⟨hscheduler, hlog, hhost⟩

theorem tasks_of_like {h h' : Host} (hlike : L.like h h') : h.tasks = h'.tasks :=
  (L.kept (f := fun h => (h.tasks, h)) (fun h => by rw [v.tasks]; rfl) hlike).1

theorem changeover_of_tasks {s s' : Scheduler} {h h' g g' : Host} (htasks : h.tasks = g.tasks)
    (htasks' : h'.tasks = g'.tasks) : changeover s h s' h' = changeover s g s' g' := by
  unfold changeover displacement arrival Host.phase
  rw [htasks, htasks']

theorem Alike.call (op : Operation) (hxy : Alike L x y) :
    (op.perform x.scheduler x.host).1 = (op.perform y.scheduler y.host).1 ∧
      Alike L (x.call op) (y.call op) := by
  obtain ⟨s, h, log⟩ := x
  obtain ⟨s', h', log'⟩ := y
  obtain ⟨rfl, rfl, hlike⟩ := hxy
  obtain ⟨hr, hs, hhost⟩ := L.perform op s hlike
  refine ⟨hr, hs, congrArg (log ++ ·) ?_, hhost⟩
  change changeover s h (op.perform s h).2.1 _ = changeover s h' (op.perform s h').2.1 _
  rw [hs]
  exact changeover_of_tasks (tasks_of_like hlike) (tasks_of_like hhost)

theorem Alike.stopWhile (timeoutMillis : Nat) {meanwhile : List Ambient}
    (hmeanwhile : ∀ a ∈ meanwhile, a.Respects v) (hxy : Alike L x y) :
    (x.stopWhile timeoutMillis meanwhile).1 = (y.stopWhile timeoutMillis meanwhile).1 ∧
      Alike L (x.stopWhile timeoutMillis meanwhile).2 (y.stopWhile timeoutMillis meanwhile).2 := by
  have hhalted : Alike L x.halted y.halted := by
    obtain ⟨s, h, log⟩ := x
    obtain ⟨s', h', log'⟩ := y
    obtain ⟨rfl, rfl, hlike⟩ := hxy
    obtain ⟨hs, hhost⟩ := L.kept (v.halt s) hlike
    exact ⟨hs, rfl, hhost⟩
  obtain ⟨hs, hlog, hlike⟩ := hhalted.happenAll meanwhile hmeanwhile
  have hagree : L.Agree
      ((x.awaiting meanwhile).scheduler.await timeoutMillis (x.awaiting meanwhile).host)
      ((y.awaiting meanwhile).scheduler.await timeoutMillis (y.awaiting meanwhile).host) := by
    unfold awaiting
    rw [hs]
    exact .of_see (v.await timeoutMillis _) hlike
  exact ⟨hagree.outcome, hagree.scheduler, hlog, hagree.host⟩

/-- A step answers the same on hosts that are alike, and leaves them alike. -/
theorem Alike.step {m : Move} (hm : m.Respects v) (hxy : Alike L x y) :
    x.answer? m = y.answer? m ∧ Alike L (x.step m) (y.step m) := by
  cases m with
  | call op =>
      obtain ⟨hr, hnext⟩ := hxy.call op
      exact ⟨congrArg some hr, hnext⟩
  | stopWhile timeoutMillis meanwhile =>
      obtain ⟨hr, hnext⟩ := hxy.stopWhile timeoutMillis hm
      exact ⟨congrArg some hr, hnext⟩
  | ambient a =>
      refine ⟨rfl, hxy.happenAll [a] fun b hb => ?_⟩
      rw [List.mem_singleton.mp hb]
      exact hm

theorem Alike.run {moves : List Move} (hmoves : ∀ m ∈ moves, m.Respects v)
    (hxy : Alike L x y) :
    answers moves x = answers moves y ∧ Alike L (x.run moves) (y.run moves) := by
  induction moves generalizing x y with
  | nil => exact ⟨rfl, hxy⟩
  | cons m rest ih =>
      obtain ⟨hanswer, hnext⟩ := hxy.step (hmoves m List.mem_cons_self)
      obtain ⟨hanswers, hlast⟩ := ih (fun n hn => hmoves n (List.mem_cons_of_mem m hn)) hnext
      unfold answers
      rw [hanswer, hanswers]
      exact ⟨rfl, hlast⟩

end System
end TelemetryAgent
