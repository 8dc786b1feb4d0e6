import TelemetryAgent.Proofs.Host.Notices
import TelemetryAgent.Proofs.Host.Traffic
import TelemetryAgent.Proofs.Schedule.Change
import TelemetryAgent.Proofs.Schedule.System

/-!
# What the parts of a run leave alone

Work on entries reaches the table, the timers and the store; what happens without the caller reaches
the queue and the workers. A start and the two halves of a stop are made of work on entries and of
one thing each that the lemmas below say: which worker there is afterwards, and which one is waited
for.
-/
namespace TelemetryAgent

namespace Scheduler

/-- Only the entries of the scheduler, its timers, the store and the traffic of the host tell the
states apart. -/
structure EntryWork (s : Scheduler) (h : Host) (s' : Scheduler) (h' : Host) : Prop where
  ident : s'.ident = s.ident
  baseline : s'.baseline = s.baseline
  config : s'.config = s.config
  running : s'.running = s.running
  epoch : s'.epoch = s.epoch
  queue : s'.queue = s.queue
  dropped : s'.dropped = s.dropped
  tracked : s'.tracked = s.tracked
  tasks : h'.tasks = h.tasks
  opened : h'.sessions.opened = h.sessions.opened
  schedulers : h'.schedulers = h.schedulers
  saveFault : h'.settings.saveFault = h.settings.saveFault
  loadFault : h'.settings.loadFault = h.settings.loadFault
  plans : h'.timers = { h.timers with timers := h'.timers.timers, calls := h'.timers.calls }

namespace EntryWork

variable {s s₁ s₂ : Scheduler} {h h₁ h₂ : Host}

theorem trans (hw₁ : EntryWork s h s₁ h₁) (hw₂ : EntryWork s₁ h₁ s₂ h₂) : EntryWork s h s₂ h₂ where
  ident := hw₂.ident.trans hw₁.ident
  baseline := hw₂.baseline.trans hw₁.baseline
  config := hw₂.config.trans hw₁.config
  running := hw₂.running.trans hw₁.running
  epoch := hw₂.epoch.trans hw₁.epoch
  queue := hw₂.queue.trans hw₁.queue
  dropped := hw₂.dropped.trans hw₁.dropped
  tracked := hw₂.tracked.trans hw₁.tracked
  tasks := hw₂.tasks.trans hw₁.tasks
  opened := hw₂.opened.trans hw₁.opened
  schedulers := hw₂.schedulers.trans hw₁.schedulers
  saveFault := hw₂.saveFault.trans hw₁.saveFault
  loadFault := hw₂.loadFault.trans hw₁.loadFault
  plans := by rw [hw₂.plans, hw₁.plans]

theorem ofTimers (s : Scheduler) (ht : Host.TimersOnly h h₁) : EntryWork s h s h₁ :=
  ⟨rfl, rfl, rfl, rfl, rfl, rfl, rfl, rfl, ht.tasks, by rw [ht.sessions], ht.schedulers,
    by rw [ht.settings], by rw [ht.settings], ht.plans⟩

theorem ofStore (s : Scheduler) (hs : Host.StoreOnly h h₁) : EntryWork s h s h₁ :=
  ⟨rfl, rfl, rfl, rfl, rfl, rfl, rfl, rfl, hs.tasks, by rw [hs.sessions], hs.schedulers,
    by rw [hs.plans], by rw [hs.plans], by rw [hs.timers]⟩

theorem ofTraffic (s : Scheduler) (ht : Host.TrafficOnly h h₁) : EntryWork s h s h₁ :=
  ⟨rfl, rfl, rfl, rfl, rfl, rfl, rfl, rfl, ht.tasks, ht.opened, ht.schedulers,
    by rw [ht.settings], by rw [ht.settings], by rw [ht.timers]⟩

theorem refl (s : Scheduler) (h : Host) : EntryWork s h s h := ofTimers s (.refl h)

theorem setEntry (k : Kind) (e : Option Entry) (s : Scheduler) (h : Host) :
    EntryWork s h (s.setEntry k e) h :=
  ⟨rfl, rfl, rfl, rfl, rfl, rfl, rfl, rfl, rfl, rfl, rfl, rfl, rfl, rfl⟩

end EntryWork

/-! ## Calls on entries -/

theorem schedule_work (k : Kind) (s : Scheduler) (h : Host) :
    EntryWork s h (s.schedule k h).2.1 (s.schedule k h).2.2 := by
  cases he : s.table.get? k with
  | none =>
      rw [schedule_of_none h he]
      exact .refl s h
  | some e =>
      refine (EntryWork.ofStore s (Host.persist_storeOnly e h)).trans
        (.trans ?_ (.ofTimers _ (schedule_timersOnly he)))
      have hcases := schedule_cases (h := h) he
      generalize (s.schedule k h).2.1 = s', (s.schedule k h).1 = r,
        (s.schedule k h).2.2.bank = bank' at hcases
      cases hcases with
      | written => exact .refl s _
      | refused | armed | dropped => exact .setEntry k _ s _

theorem unschedule_work (k : Kind) (s : Scheduler) (h : Host) :
    EntryWork s h (s.unschedule k h).2.1 (s.unschedule k h).2.2 := by
  cases he : s.table.get? k with
  | none =>
      rw [unschedule_of_none h he]
      exact .refl s h
  | some e =>
      have htimers := unschedule_timersOnly (h := h) he
      rw [unschedule_of_some h he] at htimers ⊢
      exact (EntryWork.ofStore s (Host.persist_storeOnly e h)).trans
        ((EntryWork.setEntry k _ s _).trans (.ofTimers _ htimers))

theorem apply_work (k : Kind) (s : Scheduler) (h : Host) :
    EntryWork s h (s.apply k h).2.1 (s.apply k h).2.2 := by
  unfold Scheduler.apply
  split
  · split
    · exact schedule_work k s h
    · exact unschedule_work k s h
  · exact unschedule_work k s h

theorem set_work (path : String) (value : Value) (s : Scheduler) (h : Host) :
    EntryWork s h (s.set path value h).2.1 (s.set path value h).2.2 := by
  cases hr : s.setRequest path value with
  | none =>
      obtain ⟨f, hset⟩ := set_of_no_request h hr
      rw [hset]
      exact .refl s h
  | some request =>
      obtain ⟨k, e⟩ := request
      rw [set_of_request h hr]
      exact (EntryWork.setEntry k _ s h).trans (apply_work k _ h)

theorem unset_work (path : String) (s : Scheduler) (h : Host) :
    EntryWork s h (s.unset path h).2.1 (s.unset path h).2.2 := by
  cases hr : s.unsetRequest path with
  | none =>
      obtain ⟨f, h', hunset, hh'⟩ := unset_of_no_request h hr
      rw [hunset]
      rcases hh' with rfl | ⟨j, rfl⟩
      · exact .refl s h'
      · exact .ofTimers s (Host.note_timersOnly (.unsetWithoutEntry j) h)
  | some request =>
      obtain ⟨k, e⟩ := request
      rw [unset_of_request h hr]
      exact (EntryWork.setEntry k _ s h).trans (apply_work k _ h)

/-! ## Starting and stopping -/

theorem scheduleEnabled_work (k : Kind) (s : Scheduler) (h : Host) :
    EntryWork s h (s.scheduleEnabled k h).1 (s.scheduleEnabled k h).2 := by
  unfold scheduleEnabled
  split
  · exact .refl s h
  · split
    · exact (schedule_work k s h).trans (.ofTimers _ (Host.noteFailure_timersOnly _ _ _))
    · exact .refl s h

theorem scheduleAll_work (kinds : List Kind) (s : Scheduler) (h : Host) :
    EntryWork s h (scheduleAll kinds s h).1 (scheduleAll kinds s h).2 := by
  induction kinds generalizing s h with
  | nil => exact .refl s h
  | cons k rest ih => exact (scheduleEnabled_work k s h).trans (ih _ _)

theorem disarmEach_work (kinds : List Kind) (s : Scheduler) (h : Host) :
    EntryWork s h (disarmEach kinds s h).1 (disarmEach kinds s h).2 := by
  induction kinds generalizing s h with
  | nil => exact .refl s h
  | cons k rest ih =>
      unfold disarmEach
      split
      · exact ih s h
      · rename_i e he
        exact (EntryWork.setEntry k _ s h).trans
          ((EntryWork.ofTimers _ ((Host.disarm_timersOnly e h).trans
            (Host.noteFailure_timersOnly _ _ _))).trans (ih _ _))

/-- The scheduler with which a start arms the entries. -/
def begun (worker : Nat) (s : Scheduler) : Scheduler :=
  { s with running := true, queue := [], epoch := s.epoch + 1, tracked := some worker }

def newWorker (publisher : Nat) (s : Scheduler) : Worker :=
  ⟨s.ident, s.epoch + 1, publisher, s.config.pollMillis.toNat, .idle 0⟩

/-- What a start comes to. -/
inductive Started (publisher : Nat) (s : Scheduler) (h : Host) : Outcome → Scheduler → Host → Prop
  | already : s.running = true →
      Started publisher s h (.error .alreadyRunning) s (h.note .alreadyRunning)
  | refused {h' : Host} : s.running = false → h'.tasks.workers = h.tasks.workers →
      h'.timers = h.timers → h'.settings = h.settings → h'.sessions = h.sessions →
      h'.schedulers = h.schedulers → Host.Quiet h h' → h'.calls = h.calls →
      Started publisher s h (.error .startFailed) { s with queue := [], epoch := s.epoch + 1 } h'
  | spawned {h' : Host} : s.running = false →
      h'.tasks.workers = h.tasks.workers ++ [s.newWorker publisher] →
      h'.timers = h.timers → h'.settings = h.settings → h'.sessions = h.sessions →
      h'.schedulers = h.schedulers → Host.Quiet h h' → h'.calls = h.calls →
      Started publisher s h (.ok ())
        (scheduleAll Kind.schedulable (s.begun h.tasks.workers.length) h').1
        (scheduleAll Kind.schedulable (s.begun h.tasks.workers.length) h').2

theorem drain_eq (s : Scheduler) : s.drain = { s with queue := [] } := by
  have hdrop : ∀ (dropped : List Kind) (s : Scheduler),
      dropped.foldl (fun s _ => s.discard) s = { s with queue := s.queue.drop dropped.length } := by
    intro dropped
    induction dropped with
    | nil => intro s; rfl
    | cons k rest ih =>
        intro s
        rw [List.foldl_cons, ih, List.length_cons, ← List.drop_tail]
        rfl
  rw [drain, hdrop, List.drop_length]

/-- What becomes of the worker that a scheduler asks for. -/
inductive Enlisted (publisher : Nat) (s : Scheduler) (h : Host) :
    Except Fault Nat → Scheduler → Host → Prop
  | refused {h' : Host} : h'.tasks.workers = h.tasks.workers → h'.timers = h.timers →
      h'.settings = h.settings → h'.sessions = h.sessions → h'.schedulers = h.schedulers →
      Host.Quiet h h' → h'.calls = h.calls →
      Enlisted publisher s h (.error .startFailed) { s with running := false } h'
  | spawned {h' : Host} :
      h'.tasks.workers = h.tasks.workers ++
        [⟨s.ident, s.epoch, publisher, s.config.pollMillis.toNat, .idle 0⟩] →
      h'.timers = h.timers → h'.settings = h.settings → h'.sessions = h.sessions →
      h'.schedulers = h.schedulers → Host.Quiet h h' → h'.calls = h.calls →
      Enlisted publisher s h (.ok h.tasks.workers.length)
        { s with tracked := some h.tasks.workers.length } h'

theorem enlist_cases (publisher : Nat) (s : Scheduler) (h : Host) :
    Enlisted publisher s h (s.enlist publisher h).1 (s.enlist publisher h).2.1
      (s.enlist publisher h).2.2 := by
  unfold enlist Host.spawn
  dsimp only
  cases hr : h.tasks.refusal h.tasks.spawns s.config.stackBytes with
  | some cause =>
      have hcause : Host.Quiet h (h.note (.taskRefused cause)) := Host.note_quiet (fun _ => rfl) h
      have hboth := hcause.trans (Host.note_quiet (n := .spawnFailed) (fun _ => rfl) _)
      exact .refused rfl rfl rfl rfl rfl ⟨hboth.notes, hboth.arms⟩ rfl
  | none => exact .spawned rfl rfl rfl rfl rfl (.ofEq rfl) rfl

theorem start_cases (publisher : Nat) (s : Scheduler) (h : Host) :
    Started publisher s h (s.start publisher h).1 (s.start publisher h).2.1
      (s.start publisher h).2.2 := by
  unfold start
  split
  · rename_i hrunning
    exact .already hrunning
  · rename_i hrunning
    have hstopped : s.running = false := by simpa using hrunning
    have hrest : s.raise.drain.renew =
        { s with running := true, queue := [], epoch := s.epoch + 1 } := by
      rw [drain_eq]
      rfl
    rw [hrest]
    have hcases := enlist_cases publisher
      { s with running := true, queue := [], epoch := s.epoch + 1 } h
    generalize enlist publisher { s with running := true, queue := [], epoch := s.epoch + 1 } h =
      result at hcases ⊢
    obtain ⟨r, s', h'⟩ := result
    cases hcases with
    | refused hworkers htimers hsettings hsessions hschedulers hquiet hcalls =>
        have hsame : { s with queue := [], epoch := s.epoch + 1 } =
            { s with running := false, queue := [], epoch := s.epoch + 1 } := by rw [← hstopped]
        dsimp only
        rw [← hsame]
        exact .refused hstopped hworkers htimers hsettings hsessions hschedulers hquiet hcalls
    | spawned hworkers htimers hsettings hsessions hschedulers hquiet hcalls =>
        exact .spawned hstopped hworkers htimers hsettings hsessions hschedulers hquiet hcalls

/-- A start opens no session and makes no scheduler. -/
theorem start_beside (publisher : Nat) (s : Scheduler) (h : Host) :
    (s.start publisher h).2.2.sessions.opened = h.sessions.opened ∧
      (s.start publisher h).2.2.schedulers = h.schedulers := by
  have hcases := start_cases publisher s h
  generalize (s.start publisher h).1 = r, (s.start publisher h).2.1 = s₁,
    (s.start publisher h).2.2 = h₁ at hcases ⊢
  cases hcases with
  | already => exact ⟨rfl, rfl⟩
  | refused _ _ _ _ hsessions hschedulers => exact ⟨by rw [hsessions], hschedulers⟩
  | @spawned h₂ _ _ _ _ hsessions hschedulers =>
      have hwork := scheduleAll_work Kind.schedulable (s.begun h.tasks.workers.length) h₂
      exact ⟨hwork.opened.trans (by rw [hsessions]), hwork.schedulers.trans hschedulers⟩

theorem halt_work (s : Scheduler) (h : Host) :
    EntryWork { s with running := false } h (s.halt h).1 (s.halt h).2 := by
  have hwork := disarmEach_work Kind.schedulable s h
  exact { hwork with running := rfl }

/-- What the second half of a stop comes to. -/
inductive Awaited (timeoutMillis : Nat) (s : Scheduler) (h : Host) :
    Outcome → Scheduler → Host → Prop
  | nobody : s.tracked = none → Awaited timeoutMillis s h (.ok ()) s h
  | crashed {worker : Nat} : s.tracked = some worker → h.phase worker = .panicked →
      Awaited timeoutMillis s h (.ok ()) { s with tracked := none } (h.note .workerPanicked)
  | joined {worker : Nat} : s.tracked = some worker →
      (h.phase worker).endsWithin timeoutMillis = true → h.phase worker ≠ .panicked →
      Awaited timeoutMillis s h (.ok ()) { s with tracked := none } (h.setPhase worker .ended)
  | busy {worker : Nat} : s.tracked = some worker →
      (h.phase worker).endsWithin timeoutMillis = false →
      Awaited timeoutMillis s h (.error .stopTimeout) s
        ((h.elapse timeoutMillis).note (.workerStillBusy (.ofMillis timeoutMillis)))

theorem await_cases (timeoutMillis : Nat) (s : Scheduler) (h : Host) :
    Awaited timeoutMillis s h (s.await timeoutMillis h).1 (s.await timeoutMillis h).2.1
      (s.await timeoutMillis h).2.2 := by
  unfold await
  split
  · rename_i htracked
    exact .nobody htracked
  · rename_i worker htracked
    dsimp only
    split
    · rename_i hends
      split
      · rename_i hpanicked
        exact .crashed htracked hpanicked
      · rename_i hpanicked
        exact .joined htracked hends hpanicked
    · rename_i hbusy
      exact .busy htracked (by simpa using hbusy)

/-- A wait that does not fail leaves nobody to wait for. -/
theorem tracked_of_await {timeoutMillis : Nat} {s : Scheduler} {h : Host}
    (hok : (s.await timeoutMillis h).1 = .ok ()) : (s.await timeoutMillis h).2.1.tracked = none := by
  have hcases := await_cases timeoutMillis s h
  generalize (s.await timeoutMillis h).1 = r, (s.await timeoutMillis h).2.1 = s',
    (s.await timeoutMillis h).2.2 = h' at hcases hok ⊢
  cases hcases with
  | nobody htracked => exact htracked
  | crashed => rfl
  | joined => rfl
  | busy => cases hok

/-- Only the workers, the one to wait for and the notices tell the states apart. -/
structure WaitWork (s : Scheduler) (h : Host) (s' : Scheduler) (h' : Host) : Prop where
  table : s'.table = s.table
  ident : s'.ident = s.ident
  baseline : s'.baseline = s.baseline
  running : s'.running = s.running
  epoch : s'.epoch = s.epoch
  timers : h'.timers = h.timers
  settings : h'.settings = h.settings
  schedulers : h'.schedulers = h.schedulers
  opened : h'.sessions.opened = h.sessions.opened

theorem await_work (timeoutMillis : Nat) (s : Scheduler) (h : Host) :
    WaitWork s h (s.await timeoutMillis h).2.1 (s.await timeoutMillis h).2.2 := by
  have hcases := await_cases timeoutMillis s h
  generalize (s.await timeoutMillis h).1 = r, (s.await timeoutMillis h).2.1 = s',
    (s.await timeoutMillis h).2.2 = h' at hcases ⊢
  cases hcases <;> exact ⟨rfl, rfl, rfl, rfl, rfl, rfl, rfl, rfl, rfl⟩

end Scheduler

/-! ## What happens without the caller -/

def PublishEnd.phase : PublishEnd → WorkerPhase
  | returned _ => .idle 0
  | panicked => .panicked

/-- A worker that has taken a notification calls its publisher with it, once. -/
theorem Host.finish_of_publishing (publisher : Publisher) {worker : Nat} {w : Worker} {k : Kind}
    {h : Host} (hw : h.tasks.workers[worker]? = some w) (hphase : w.phase = .publishing k) :
    h.finish publisher worker = (publisher w.publisher k h).2.setPhase worker
      (publisher w.publisher k h).1.phase := by
  unfold finish
  simp only [hw, hphase]
  cases publisher w.publisher k h with
  | mk r h' => cases r <;> rfl

namespace System

/-- Only the queue, the workers and what is beside the scheduler tell the states apart. -/
structure Offstage (x y : System) : Prop where
  table : y.scheduler.table = x.scheduler.table
  ident : y.scheduler.ident = x.scheduler.ident
  baseline : y.scheduler.baseline = x.scheduler.baseline
  config : y.scheduler.config = x.scheduler.config
  running : y.scheduler.running = x.scheduler.running
  epoch : y.scheduler.epoch = x.scheduler.epoch
  tracked : y.scheduler.tracked = x.scheduler.tracked
  timers : y.host.timers = x.host.timers
  settings : y.host.settings = x.host.settings
  schedulers : y.host.schedulers = x.host.schedulers
  opened : y.host.sessions.opened = x.host.sessions.opened

theorem Offstage.refl (x : System) : Offstage x x :=
  ⟨rfl, rfl, rfl, rfl, rfl, rfl, rfl, rfl, rfl, rfl, rfl⟩

theorem Offstage.trans {x y z : System} (hxy : Offstage x y) (hyz : Offstage y z) :
    Offstage x z where
  table := hyz.table.trans hxy.table
  ident := hyz.ident.trans hxy.ident
  baseline := hyz.baseline.trans hxy.baseline
  config := hyz.config.trans hxy.config
  running := hyz.running.trans hxy.running
  epoch := hyz.epoch.trans hxy.epoch
  tracked := hyz.tracked.trans hxy.tracked
  timers := hyz.timers.trans hxy.timers
  settings := hyz.settings.trans hxy.settings
  schedulers := hyz.schedulers.trans hxy.schedulers
  opened := hyz.opened.trans hxy.opened

/-- What the host does of itself. -/
theorem Offstage.ofHost (x : System) {h : Host} (log : List Occurrence)
    (htimers : h.timers = x.host.timers) (hsettings : h.settings = x.host.settings)
    (hschedulers : h.schedulers = x.host.schedulers)
    (hopened : h.sessions.opened = x.host.sessions.opened) : Offstage x ⟨x.scheduler, h, log⟩ :=
  ⟨rfl, rfl, rfl, rfl, rfl, rfl, rfl, htimers, hsettings, hschedulers, hopened⟩

/-- The publisher of a worker is called with what the worker has taken and with nothing else. -/
theorem finish_cases (publisher : Publisher.Confined) (worker : Nat) (x : System) :
    x.finish publisher worker = x ∨
      ∃ (w : Worker) (k : Kind), x.workers[worker]? = some w ∧ w.phase = .publishing k ∧
        x.finish publisher worker =
          ⟨x.scheduler, (publisher.publish w.publisher k x.host).2.setPhase worker
              (publisher.publish w.publisher k x.host).1.phase,
            x.log ++ [.returned worker w.publisher k]⟩ := by
  unfold finish
  split
  · exact .inl rfl
  · rename_i w hw
    split
    · rename_i k hphase
      refine .inr ⟨w, k, hw, hphase, ?_⟩
      rw [Host.finish_of_publishing publisher.publish hw hphase]
    · exact .inl rfl

theorem happen_offstage (a : Ambient) (x : System) : Offstage x (x.happen a) := by
  cases a with
  | expire timer =>
      change Offstage x (x.expire timer)
      unfold expire
      split
      · exact .refl x
      · dsimp only
        split
        · unfold Scheduler.notify
          split <;> exact ⟨rfl, rfl, rfl, rfl, rfl, rfl, rfl, rfl, rfl, rfl, rfl⟩
        · exact .refl x
  | take worker =>
      change Offstage x (x.take worker)
      unfold take
      split
      · rename_i w k rest _ hqueue
        split
        · simp only [Scheduler.take, hqueue]
          exact ⟨rfl, rfl, rfl, rfl, rfl, rfl, rfl, rfl, rfl, rfl, rfl⟩
        · exact .refl x
      · exact .refl x
  | finish worker publisher =>
      change Offstage x (x.finish publisher worker)
      rcases finish_cases publisher worker x with hsame | ⟨w, k, -, -, hfinish⟩
      · rw [hsame]
        exact .refl x
      · rw [hfinish]
        exact .ofHost x _ (publisher.timers w.publisher k x.host)
          (publisher.settings w.publisher k x.host) (publisher.schedulers w.publisher k x.host)
          (publisher.opened w.publisher k x.host)
  | look worker =>
      change Offstage x (x.look worker)
      unfold look
      split
      · exact .refl x
      · split
        · exact .ofHost x _ rfl rfl rfl rfl
        · exact .refl x
  | elapse millis => exact .ofHost x _ rfl rfl rfl rfl
  | aside change =>
      exact .ofHost x _ (change.timers x.host) (change.settings x.host) (change.schedulers x.host)
        (change.opened x.host)

theorem happenAll_offstage (events : List Ambient) (x : System) :
    Offstage x (x.happenAll events) :=
  happenAll_induction (p := Offstage x) (.refl x) fun a _ y hy => hy.trans (happen_offstage a y)

end System
end TelemetryAgent
