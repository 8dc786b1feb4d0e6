import TelemetryAgent.Proofs.Schedule.Epochs
import TelemetryAgent.Proofs.Schedule.Staging

/-!
# A crew in order

What the small steps of a crew keep. The books are right: each worker belongs to the epoch that had
begun when it was spawned, and one that is alive is waited for or has been displaced. Between starts
there is a worker of the epoch as long as the scheduler runs; while a start is under way and has no
worker yet, those that are alive have been displaced. What was accepted has left the queue, in order,
or is in it, and what a worker has taken it has published or has in hand.

With that the log is a chronicle, as long as fewer epochs have begun than can be told apart: a worker
that is current is the one that holds the epoch.
-/
namespace TelemetryAgent

@[simp] theorem WorkerPhase.later_eq_ended {millis : Nat} {p : WorkerPhase} :
    p.later millis = .ended ↔ p = .ended := by
  cases p <;> simp [later]

/-- What a worker has taken and not yet published. -/
def WorkerPhase.inHand : WorkerPhase → List Kind
  | publishing k => [k]
  | _ => []

theorem WorkerPhase.inHand_of_isIdle {p : WorkerPhase} (hidle : p.isIdle = true) : p.inHand = [] := by
  cases p <;> first | rfl | cases hidle

namespace Crew
open Occurrence

variable {base : Nat} {c c' : Crew}

/-! ## That a worker is current -/

/-- While the scheduler runs there is a worker of its epoch that has not been told to end. -/
def Staffed (base : Nat) (c : Crew) : Prop :=
  c.running = true →
    ∃ (i : Nat) (w : Worker), base ≤ i ∧ c.workers[i]? = some w ∧ w.epoch = c.epoch ∧
      w.phase ≠ .ended

theorem Staffed.modify (hs : Staffed base c) {j : Nat} {f : Worker → Worker}
    (hworkers : c'.workers = c.workers.modify j f) (hrunning : c'.running = c.running)
    (hepoch : c'.epoch = c.epoch)
    (hf : ∀ w, base ≤ j → c.workers[j]? = some w → c.running = true → w.epoch = c.epoch →
      w.phase ≠ .ended → (f w).epoch = w.epoch ∧ (f w).phase ≠ .ended) : Staffed base c' := by
  intro hr
  rw [hrunning] at hr
  obtain ⟨i, w, hi, hw, hwepoch, hphase⟩ := hs hr
  rw [hworkers, hepoch]
  by_cases hji : j = i
  · subst hji
    obtain ⟨hkept, hnot⟩ := hf w hi hw hr hwepoch hphase
    refine ⟨j, f w, hi, ?_, hkept.trans hwepoch, hnot⟩
    rw [List.getElem?_modify_eq, hw]
    rfl
  · refine ⟨i, w, hi, ?_, hwepoch, hphase⟩
    rw [List.getElem?_modify_ne _ _ hji]
    exact hw

theorem Staffed.of_stopped (hstopped : c.running = false) : Staffed base c := fun hrunning => by
  rw [hstopped] at hrunning
  cases hrunning

theorem Staffed.work (hs : Staffed base c) (he : Enrolled renews base c) (hw : Work c c') :
    Staffed base c' := by
  cases hw with
  | start _ hgiven => exact hgiven.elim
  | refuse hgiven => exact hgiven.elim
  | halt => exact .of_stopped rfl
  | join hstopped => exact .of_stopped hstopped
  | mourn hstopped => exact .of_stopped hstopped
  | accept | lose => exact hs
  | elapse millis =>
      intro hr
      obtain ⟨i, w, hi, hw, hepoch, hphase⟩ := hs hr
      refine ⟨i, _, hi, List.getElem?_map.trans (congrArg _ hw), hepoch, fun hlater => hphase ?_⟩
      exact WorkerPhase.later_eq_ended.mp hlater
  | @take _ _ k =>
      refine hs.modify (f := fun w => { w with phase := .publishing k }) rfl rfl rfl
        fun w _ _ _ _ _ => ⟨rfl, fun hphase => by cases hphase⟩
  | @finish _ _ _ phase _ _ hend =>
      refine hs.modify (f := fun w => { w with phase }) rfl rfl rfl
        fun w _ _ _ _ _ => ⟨rfl, fun hphase => ?_⟩
      rcases hend with rfl | rfl <;> cases hphase
  | look =>
      refine hs.modify rfl rfl rfl fun w hj hw hr hepoch hphase => ⟨(Worker.onward_look _ w).epoch, ?_⟩
      -- a worker of the epoch of a scheduler that runs finds itself current
      have hcurrent : c.isCurrent w = true := by
        simp [isCurrent, he.own _ w hj hw, hr, hepoch]
      rw [hcurrent]
      unfold Worker.look
      split
      · exact fun hidle => by cases hidle
      · exact hphase

/-- Unless it has panicked, that worker is current. -/
theorem Staffed.current (hs : Staffed base c) (he : Enrolled renews base c) (hr : c.running = true)
    (hcalm : ∀ w ∈ c.workers, w.owner = c.ident → w.phase ≠ .panicked) :
    ∃ (i : Nat) (w : Worker), c.workers[i]? = some w ∧ c.isCurrent w = true ∧
      w.phase.isAlive = true := by
  obtain ⟨i, w, hi, hw, hepoch, hended⟩ := hs hr
  have howner := he.own i w hi hw
  refine ⟨i, w, hw, by simp [isCurrent, howner, hr, hepoch], ?_⟩
  have hpanicked := hcalm w (List.mem_of_getElem? hw) howner
  cases hp : w.phase with
  | ended => exact (hended hp).elim
  | panicked => exact (hpanicked hp).elim
  | idle rest => rfl
  | publishing k => rfl

/-! ## What a small step keeps -/

theorem SmallStep.since (hs : SmallStep c c') : ∃ new, Since (fun _ => True) c c' new := by
  have hsame : ∀ (i : Nat) (w' : Worker), c.workers[i]? = some w' →
      ∃ w, c.workers[i]? = some w ∧ Worker.Onward w w' := fun i w' hw' => ⟨w', hw', .refl w'⟩
  cases hs with
  | work hw => exact (hw.mono fun _ hnever => hnever.elim).since
  | raise =>
      refine ⟨_, .ofPhases rfl rfl rfl hsame (fun i p hmem => ?_) fun i p k hmem => ?_⟩
      · rcases mem_displacement_concat hmem with ⟨j, heq, -⟩ | heq <;> cases heq
      · rcases hmem with hmem | hmem <;>
          rcases mem_displacement_concat hmem with ⟨j, heq, -⟩ | heq <;> cases heq
  | discard | clear | renew | refuse =>
      exact ⟨_, .ofPhases rfl rfl rfl hsame (by simp) (by simp)⟩
  | enlist publisher pollMillis _ =>
      have hnobody : ∀ o ∈ ([] : List Occurrence), ∃ i, o = .displaced i := fun o ho => (nomatch ho)
      exact ⟨_, since_spawn (w := ⟨c.ident, c.epoch, publisher, pollMillis, .idle 0⟩) trivial rfl
        hnobody rfl rfl rfl⟩

/-- An epoch begins where the log says so. -/
theorem SmallStep.renewals (hs : SmallStep c c') :
    (c'.epoch = c.epoch ∧ renewals c'.log = renewals c.log) ∨
      (c'.epoch = c.epoch + 1 ∧ renewals c'.log = renewals c.log + 1) := by
  cases hs with
  | work hw =>
      refine .inl ⟨?_, hw.unmarked.2⟩
      cases hw with
      | start _ hgiven => exact hgiven.elim
      | refuse hgiven => exact hgiven.elim
      | halt | join | mourn | elapse | accept | lose | take | finish | look => rfl
  | raise =>
      refine .inl ⟨rfl, ?_⟩
      rw [renewals_append, renewals_append, renewals_displacement]
      rfl
  | discard | clear | refuse | enlist => exact .inl ⟨rfl, renewals_append _ _⟩
  | renew => exact .inr ⟨rfl, renewals_append _ _⟩

theorem SmallStep.spawned (hs : SmallStep c c') {i : Nat} {w' : Worker} (hle : c.workers.length ≤ i)
    (hw' : c'.workers[i]? = some w') :
    w'.epoch = c'.epoch ∧ ∃ before, c'.log = before ++ [.started i w'.publisher] := by
  cases hs with
  | work hw => exact hw.spawned hle hw'
  | raise | discard | clear | renew | refuse =>
      exact nomatch (List.getElem?_eq_none hle).symm.trans hw'
  | enlist =>
      obtain ⟨rfl, rfl⟩ := eq_of_getElem?_concat hle hw'
      exact ⟨rfl, c.log, rfl⟩

theorem SmallStep.handed_of_mem (hs : SmallStep c c') {new : List Occurrence}
    (hlog : c'.log = c.log ++ new) {i p : Nat} {k : Kind} (hmem : .handed i p k ∈ new) :
    ∃ w, c.workers[i]? = some w ∧ c.isCurrent w = true ∧ w.publisher = p := by
  cases hs with
  | work hw => exact hw.handed_of_mem hlog hmem
  | raise =>
      rw [← List.append_cancel_left hlog] at hmem
      rcases mem_displacement_concat hmem with ⟨j, heq, -⟩ | heq <;> cases heq
  | discard | clear | renew | refuse | enlist =>
      rw [eq_of_append_eq hlog] at hmem
      cases List.mem_singleton.mp hmem

theorem Enrolled.small (he : Enrolled renews base c) (hs : SmallStep c c') :
    Enrolled renews base c' := by
  obtain ⟨new, hsince⟩ := hs.since
  refine he.onward hsince ?_ (fun i w' => hs.spawned) fun i p k => hs.handed_of_mem hsince.log
  have hepoch : c.epoch = UInt32.ofNat (Occurrence.renewals c.log) := he.epoch
  change c'.epoch = UInt32.ofNat (Occurrence.renewals c'.log)
  rcases hs.renewals with ⟨hsame, hcount⟩ | ⟨hnext, hcount⟩
  · rw [hsame, hcount, hepoch]
  · rw [hnext, hcount, hepoch, UInt32.ofNat_add]
    rfl

theorem Accounted.small (ha : Accounted base c)
    (ho : mark c.log ≠ .rest → ∀ (i : Nat) (w : Worker), base ≤ i → c.workers[i]? = some w →
      w.phase.isAlive = true → .displaced i ∈ c.log) (hs : SmallStep c c') : Accounted base c' := by
  cases hs with
  | work hw => exact ha.step hw
  | raise =>
      refine ⟨ha.base_le, ha.tracked, fun i hi => ?_, fun i w hi hw halive => ?_⟩
      · rcases List.mem_append.mp hi with hold | hnew
        · exact ha.displaced i hold
        · rcases mem_displacement_concat hnew with ⟨j, heq, htracked⟩ | heq <;> cases heq
          exact ha.tracked i htracked
      · exact (ha.alive i w hi hw halive).imp_right (List.mem_append_left _)
  | discard | clear | renew | refuse =>
      refine ⟨ha.base_le, ha.tracked, fun i hi => ?_, fun i w hi hw halive => ?_⟩
      · rcases List.mem_append.mp hi with hold | hnew
        · exact ha.displaced i hold
        · cases List.mem_singleton.mp hnew
      · exact (ha.alive i w hi hw halive).imp_right (List.mem_append_left _)
  | enlist publisher pollMillis hm =>
      have hbase := ha.base_le
      have hlength : (c.workers ++ [(⟨c.ident, c.epoch, publisher, pollMillis, .idle 0⟩ : Worker)]).length =
          c.workers.length + 1 := List.length_append
      refine ⟨?_, fun i hi => ?_, fun i hi => ?_, fun i w hi hw halive => ?_⟩
      · exact Nat.le_trans hbase (hlength ▸ Nat.le_succ _)
      · cases hi
        exact ⟨hbase, hlength ▸ Nat.lt_succ_self _⟩
      · rcases List.mem_append.mp hi with hold | hnew
        · obtain ⟨hle, hlt⟩ := ha.displaced i hold
          exact ⟨hle, hlength ▸ Nat.lt_succ_of_lt hlt⟩
        · cases List.mem_singleton.mp hnew
      · rcases Nat.lt_or_ge i c.workers.length with hlt | hge
        · -- the worker that was waited for has been displaced when the start was called
          rw [List.getElem?_append_left hlt] at hw
          have hdisplaced := ho (by rw [hm]; decide) i w hi hw halive
          exact .inr (List.mem_append_left _ hdisplaced)
        · obtain ⟨rfl, -⟩ := eq_of_getElem?_concat hge hw
          exact .inl rfl

/-- The worker that is waited for is displaced if it is alive. -/
theorem displacement_of_tracked {i : Nat} {w : Worker} (htracked : c.tracked = some i)
    (hw : c.workers[i]? = some w) (halive : w.phase.isAlive = true) :
    .displaced i ∈ c.displacement := by
  have hphase : (c.phase i).isAlive = true := by
    unfold phase
    rw [hw]
    exact halive
  unfold displacement
  simp only [htracked, hphase, if_true]
  exact List.mem_singleton.mpr rfl

theorem SmallStep.room (hs : SmallStep c c') (hroom : c.queue.length ≤ Scheduler.capacity) :
    c'.queue.length ≤ Scheduler.capacity := by
  have hpop : ∀ {k : Kind} {rest : List Kind}, c.queue = k :: rest →
      rest.length ≤ Scheduler.capacity := fun hqueue => by
    rw [hqueue, List.length_cons] at hroom
    exact Nat.le_of_succ_le hroom
  cases hs with
  | work hw =>
      cases hw with
      | start _ hgiven => exact hgiven.elim
      | refuse hgiven => exact hgiven.elim
      | accept k hlt =>
          rw [List.length_append]
          exact hlt
      | take _ _ _ hqueue => exact hpop hqueue
      | halt | join | mourn | elapse | look | lose | finish => exact hroom
  | discard _ hqueue => exact hpop hqueue
  | raise | clear | renew | refuse | enlist => exact hroom

theorem filterMap_displacement {α : Type} {f : Occurrence → Option α}
    (hf : ∀ i, f (.displaced i) = none) (c : Crew) : c.displacement.filterMap f = [] := by
  rw [List.filterMap_eq_nil_iff]
  intro o ho
  obtain ⟨i, rfl, -⟩ := mem_displacement ho
  exact hf i

/-- What was accepted has left the queue or is in it. -/
theorem SmallStep.kept (hs : SmallStep c c') (hk : dequeuedIn c.log ++ c.queue = acceptedIn c.log) :
    dequeuedIn c'.log ++ c'.queue = acceptedIn c'.log := by
  have hidle : ∀ {o : Occurrence}, o.dequeued? = none → o.accepted? = none →
      dequeuedIn (c.log ++ [o]) ++ c.queue = acceptedIn (c.log ++ [o]) := fun hd ha => by
    rw [dequeuedIn_concat_of_none hd, acceptedIn_concat_of_none ha, hk]
  have hpop : ∀ {o : Occurrence} {k : Kind} {rest : List Kind}, c.queue = k :: rest →
      dequeuedIn [o] = [k] → o.accepted? = none →
      dequeuedIn (c.log ++ [o]) ++ rest = acceptedIn (c.log ++ [o]) := fun hqueue hd ha => by
    rw [dequeuedIn_append, hd, acceptedIn_concat_of_none ha, ← hk, hqueue, List.append_assoc]
    rfl
  cases hs with
  | work hw =>
      cases hw with
      | start _ hgiven => exact hgiven.elim
      | refuse hgiven => exact hgiven.elim
      | halt | join | mourn | elapse | look => exact hk
      | accept k =>
          change dequeuedIn (c.log ++ [.accepted k]) ++ (c.queue ++ [k]) =
            acceptedIn (c.log ++ [.accepted k])
          rw [dequeuedIn_concat_of_none rfl, ← List.append_assoc, hk, acceptedIn_append]
          rfl
      | lose | finish => exact hidle rfl rfl
      | take _ _ _ hqueue => exact hpop hqueue rfl rfl
  | raise =>
      have hdisplaced : dequeuedIn c.displacement = [] ∧ acceptedIn c.displacement = [] :=
        ⟨filterMap_displacement (fun _ => rfl) c, filterMap_displacement (fun _ => rfl) c⟩
      have hd : dequeuedIn (c.log ++ (c.displacement ++ [.raised])) = dequeuedIn c.log := by
        rw [dequeuedIn_append, dequeuedIn_append, hdisplaced.1]
        exact List.append_nil _
      have ha : acceptedIn (c.log ++ (c.displacement ++ [.raised])) = acceptedIn c.log := by
        rw [acceptedIn_append, acceptedIn_append, hdisplaced.2]
        exact List.append_nil _
      rw [hd, ha, hk]
  | discard _ hqueue => exact hpop hqueue rfl rfl
  | clear | renew | refuse | enlist => exact hidle rfl rfl

/-! ### What workers have in hand -/

theorem phase_of_getElem? {i : Nat} {w : Worker} (hw : c.workers[i]? = some w) :
    c.phase i = w.phase := by
  unfold phase
  rw [hw]

theorem inHand_of_modify {i j : Nat} {f : Worker → Worker}
    (hworkers : c'.workers = c.workers.modify j f)
    (hf : i = j → ∀ w, c.workers[j]? = some w → (f w).phase.inHand = w.phase.inHand) :
    (c'.phase i).inHand = (c.phase i).inHand := by
  unfold phase
  rw [hworkers, List.getElem?_modify]
  cases hw : c.workers[i]? with
  | none => rfl
  | some w =>
      by_cases hji : j = i
      · subst hji
        simp only [if_true]
        exact hf rfl w hw
      · simp [hji]

/-- What a worker has taken it has published, but for what it has in hand. -/
def Served (base : Nat) (c : Crew) : Prop :=
  ∀ i, base ≤ i → handedTo i c.log = returnedTo i c.log ++ (c.phase i).inHand

theorem Served.idle (hserved : Served base c) {new : List Occurrence} (hlog : c'.log = c.log ++ new)
    (hnew : ∀ i, handedTo i new = [] ∧ returnedTo i new = [])
    (hphase : ∀ i, (c'.phase i).inHand = (c.phase i).inHand) : Served base c' := by
  intro i hi
  rw [hlog, handedTo_append, returnedTo_append, (hnew i).1, (hnew i).2, List.append_nil,
    List.append_nil, hphase]
  exact hserved i hi

/-- A worker that takes something has it in hand, and one whose publisher comes back has published
what it had. -/
theorem Served.setPhase (hserved : Served base c) {j : Nat} {w : Worker} {p : WorkerPhase}
    {o : Occurrence} (hw : c.workers[j]? = some w) (hworkers : c'.workers = (c.setPhase j p).workers)
    (hlog : c'.log = c.log ++ [o])
    (hself : w.phase.inHand ++ handedTo j [o] = returnedTo j [o] ++ p.inHand)
    (hothers : ∀ i, j ≠ i → handedTo i [o] = [] ∧ returnedTo i [o] = []) : Served base c' := by
  intro i hi
  rw [hlog, handedTo_append, returnedTo_append, hserved i hi]
  by_cases hij : j = i
  · subst hij
    have hnow : c'.workers[j]? = some { w with phase := p } := by
      rw [hworkers]
      change (c.workers.modify j _)[j]? = _
      rw [List.getElem?_modify_eq, hw]
      rfl
    rw [phase_of_getElem? hnow, phase_of_getElem? hw, List.append_assoc, List.append_assoc, hself]
  · have hsame : (c'.phase i).inHand = (c.phase i).inHand :=
      inHand_of_modify hworkers fun heq => (hij heq.symm).elim
    obtain ⟨hhanded, hreturned⟩ := hothers i hij
    rw [hhanded, hreturned, hsame, List.append_nil, List.append_nil]

theorem Served.work (hserved : Served base c) (hw : Work c c') : Served base c' := by
  have hquiet : ∀ i, handedTo i [] = [] ∧ returnedTo i [] = [] := fun i => ⟨rfl, rfl⟩
  cases hw with
  | start _ hgiven => exact hgiven.elim
  | refuse hgiven => exact hgiven.elim
  | halt | mourn => exact hserved
  | accept | lose => exact hserved.idle rfl (fun i => ⟨rfl, rfl⟩) fun i => rfl
  | @join j _ _ hphase =>
      refine hserved.idle (List.append_nil _).symm hquiet fun i => ?_
      refine inHand_of_modify (f := fun w => { w with phase := .ended }) rfl fun _ w hw => ?_
      have hnone := hphase
      rw [phase_of_getElem? hw] at hnone
      cases hp : w.phase with
      | publishing k => exact (hnone k hp).elim
      | idle | ended | panicked => rfl
  | elapse millis =>
      refine hserved.idle (List.append_nil _).symm hquiet fun i => ?_
      unfold phase
      simp only [List.getElem?_map]
      cases c.workers[i]? with
      | none => rfl
      | some w => cases hp : w.phase <;> simp [hp, WorkerPhase.later, WorkerPhase.inHand]
  | look =>
      refine hserved.idle (List.append_nil _).symm hquiet fun i => ?_
      refine inHand_of_modify rfl fun _ w _ => ?_
      unfold Worker.look
      split
      · rename_i hidle
        rw [hidle]
        split <;> rfl
      · rfl
  | @take j w k rest hw hidle _ _ =>
      refine hserved.setPhase (p := .publishing k) hw rfl rfl ?_ fun i hij => ?_
      · rw [WorkerPhase.inHand_of_isIdle hidle, List.nil_append]
        exact List.filterMap_cons_some (if_pos rfl)
      · simp [handedTo, returnedTo, handedTo?, returnedTo?, hij]
  | @finish j w k phase hw hphase hend =>
      have hnone : phase.inHand = [] := by rcases hend with rfl | rfl <;> rfl
      refine hserved.setPhase (p := phase) hw rfl rfl ?_ fun i hij => ?_
      · have hreturned : returnedTo j [.returned j w.publisher k] = [k] :=
          List.filterMap_cons_some (if_pos rfl)
        rw [hphase, hnone, hreturned]
        rfl
      · simp [handedTo, returnedTo, handedTo?, returnedTo?, hij]

theorem Served.small (hserved : Served base c) (hs : SmallStep c c') : Served base c' := by
  cases hs with
  | work hw => exact hserved.work hw
  | raise =>
      refine hserved.idle rfl (fun i => ?_) fun i => rfl
      rw [handedTo_append, returnedTo_append]
      have hhanded : handedTo i c.displacement = [] := filterMap_displacement (fun _ => rfl) c
      have hreturned : returnedTo i c.displacement = [] := filterMap_displacement (fun _ => rfl) c
      rw [hhanded, hreturned]
      exact ⟨rfl, rfl⟩
  | discard | clear | renew | refuse =>
      exact hserved.idle rfl (fun i => ⟨rfl, rfl⟩) fun i => rfl
  | enlist =>
      refine hserved.idle rfl (fun i => ⟨rfl, rfl⟩) fun i => ?_
      unfold phase
      dsimp only [record]
      cases hw : c.workers[i]? with
      | some w => rw [List.getElem?_append_left (List.getElem?_eq_some_iff.mp hw).1, hw]
      | none =>
          rw [List.getElem?_append_right (List.getElem?_eq_none_iff.mp hw)]
          cases i - c.workers.length <;> rfl

/-! ## The crew as a whole -/

theorem chronicle_displacement {log : List Occurrence} (hc : Chronicle log) (c : Crew) :
    Chronicle (log ++ c.displacement) := by
  unfold displacement
  split
  · rw [List.append_nil]
    exact hc
  · split
    · exact hc.concat trivial
    · rw [List.append_nil]
      exact hc

structure Orderly (base : Nat) (c : Crew) : Prop where
  enrolled : Enrolled renews base c
  accounted : Accounted base c
  staffed : mark c.log = .rest → Staffed base c
  outlived : mark c.log ≠ .rest → ∀ (i : Nat) (w : Worker), base ≤ i → c.workers[i]? = some w →
    w.phase.isAlive = true → .displaced i ∈ c.log
  room : c.queue.length ≤ Scheduler.capacity
  kept : dequeuedIn c.log ++ c.queue = acceptedIn c.log
  served : Served base c
  chronicle : renewals c.log < UInt32.size → Chronicle c.log

namespace Orderly

theorem staffed_small (ho : Orderly base c) (hs : SmallStep c c') :
    mark c'.log = .rest → Staffed base c' := by
  intro hm
  cases hs with
  | work hw =>
      rw [hw.unmarked.1] at hm
      exact (ho.staffed hm).work ho.enrolled hw
  | raise =>
      dsimp only at hm
      rw [← List.append_assoc, mark_concat] at hm
      cases hm
  | discard hmark =>
      dsimp only [record] at hm
      rw [mark_concat, hmark] at hm
      cases hm
  | clear | renew =>
      dsimp only [record] at hm
      rw [mark_concat] at hm
      cases hm
  | refuse => exact .of_stopped rfl
  | enlist =>
      exact fun _ => ⟨_, _, ho.enrolled.base_le, List.getElem?_concat_length, rfl,
        fun hended => (nomatch hended)⟩

theorem outlived_small (ho : Orderly base c) (hs : SmallStep c c') :
    mark c'.log ≠ .rest → ∀ (i : Nat) (w : Worker), base ≤ i → c'.workers[i]? = some w →
      w.phase.isAlive = true → .displaced i ∈ c'.log := by
  intro hm i w' hi hw' halive
  cases hs with
  | work hw =>
      obtain ⟨new, hsince⟩ := Step.since hw
      rw [hw.unmarked.1] at hm
      rw [hsince.log]
      rcases Nat.lt_or_ge i c.workers.length with hlt | hge
      · obtain ⟨w, hold, honward⟩ := hsince.of_lt hlt hw'
        exact List.mem_append_left _ (ho.outlived hm i w hi hold (honward.alive halive))
      · have hstarted := (hsince.spawned i w' hge hw').2
        exact (hsince.started i _ hstarted).2.1.elim
  | raise =>
      rcases ho.accounted.alive i w' hi hw' halive with htracked | hdisplaced
      · refine List.mem_append_right _ (List.mem_append_left _ ?_)
        exact displacement_of_tracked htracked hw' halive
      · exact List.mem_append_left _ hdisplaced
  | discard hmark | clear hmark | renew hmark =>
      exact List.mem_append_left _ (ho.outlived (by rw [hmark]; decide) i w' hi hw' halive)
  | refuse | enlist =>
      dsimp only [record] at hm
      rw [mark_concat] at hm
      exact (hm rfl).elim

/-- A worker that is current holds the epoch. -/
theorem holder_of_current (ho : Orderly base c) (hfew : renewals c.log < UInt32.size) {i : Nat}
    {w : Worker} (hw : c.workers[i]? = some w) (hcurrent : c.isCurrent w = true) :
    holder c.log = some i ∧ .started i w.publisher ∈ c.log := by
  obtain ⟨before, after, hlog, hlast⟩ := ho.enrolled.last_of_current hfew hw hcurrent
  have hc := ho.chronicle hfew
  rw [hlog] at hc ⊢
  refine ⟨hc.tenure.holder_eq fun hmem => ?_, List.mem_append_right _ List.mem_cons_self⟩
  exact nomatch hlast _ hmem

theorem current_unique (ho : Orderly base c) (hfew : renewals c.log < UInt32.size) {i j : Nat}
    {w v : Worker} (hw : c.workers[i]? = some w) (hv : c.workers[j]? = some v)
    (hcw : c.isCurrent w = true) (hcv : c.isCurrent v = true) : i = j := by
  have hi := (ho.holder_of_current hfew hw hcw).1
  have hj := (ho.holder_of_current hfew hv hcv).1
  exact Option.some.inj (hi.symm.trans hj)

theorem oldest (ho : Orderly base c) {k : Kind} {rest : List Kind} (hqueue : c.queue = k :: rest) :
    Oldest k c.log := by
  refine ⟨rest, ?_⟩
  rw [← ho.kept, hqueue, List.append_assoc]
  rfl

theorem chronicle_small (ho : Orderly base c) (hs : SmallStep c c')
    (hfew : renewals c'.log < UInt32.size) : Chronicle c'.log := by
  have hbefore : renewals c.log < UInt32.size := by
    rcases hs.renewals with ⟨-, hsame⟩ | ⟨-, hnext⟩ <;> omega
  have hc := ho.chronicle hbefore
  cases hs with
  | work hw =>
      cases hw with
      | start _ hgiven => exact hgiven.elim
      | refuse hgiven => exact hgiven.elim
      | halt | join | mourn | elapse | look => exact hc
      | accept | lose | finish => exact hc.concat trivial
      | @take i w k rest hw hidle hcurrent hqueue =>
          obtain ⟨hholder, hstarted⟩ := ho.holder_of_current hbefore hw hcurrent
          refine hc.concat ⟨hholder, hstarted, ho.oldest hqueue, fun hopening => ?_⟩
          have hbase := ho.enrolled.base_le_of_current hw hcurrent
          have halive := WorkerPhase.isAlive_of_isIdle hidle
          exact ho.outlived (fun hrest => by rw [hrest] at hopening; cases hopening) i w hbase hw halive
  | raise hmark =>
      dsimp only
      rw [← List.append_assoc]
      refine (chronicle_displacement hc c).concat ?_
      exact (mark_displacement c c.log).trans hmark
  | discard hmark hqueue => exact hc.concat ⟨hmark, ho.oldest hqueue⟩
  | clear hmark hqueue =>
      have hkept := ho.kept
      rw [hqueue, List.append_nil] at hkept
      exact hc.concat ⟨hmark, hkept⟩
  | renew hmark => exact hc.concat hmark
  | refuse hmark => exact hc.concat hmark
  | enlist publisher pollMillis hmark => exact hc.concat ⟨hmark, ho.enrolled.unheard⟩

theorem small (ho : Orderly base c) (hs : SmallStep c c') : Orderly base c' where
  enrolled := ho.enrolled.small hs
  accounted := ho.accounted.small ho.outlived hs
  staffed := ho.staffed_small hs
  outlived := ho.outlived_small hs
  room := hs.room ho.room
  kept := hs.kept ho.kept
  served := ho.served.small hs
  chronicle := ho.chronicle_small hs

theorem smallSteps (ho : Orderly base c) (hs : SmallSteps c c') : Orderly base c' := by
  induction hs with
  | refl => exact ho
  | tail _ hstep ih => exact ih.small hstep

end Orderly

end Crew

/-- A scheduler that has just been made has nothing in disorder. -/
theorem System.orderly_of_fresh {baseline : List BaselineItem} {config : WorkerConfig} {h h₀ : Host}
    {s : Scheduler} (hfresh : Scheduler.Fresh baseline config h s h₀) (hn : h.Numbered) :
    Crew.Orderly h₀.tasks.workers.length (Crew.of s h₀ []) where
  enrolled := enrolled_of_fresh hfresh hn Occurrence.renews
  accounted :=
    { base_le := Nat.le_refl _
      tracked := fun i hi => nomatch hfresh.tracked.symm.trans hi
      displaced := fun i hi => (nomatch hi)
      alive := fun i w hle hw _ => by
        rw [show (Crew.of s h₀ []).workers[i]? = none from List.getElem?_eq_none hle] at hw
        cases hw }
  staffed := fun _ => .of_stopped hfresh.running
  outlived := fun hm => (hm rfl).elim
  room := by
    rw [show (Crew.of s h₀ []).queue = [] from hfresh.queue]
    exact Nat.zero_le _
  kept := hfresh.queue
  served := fun i hle => by
    have hnone : (Crew.of s h₀ []).workers[i]? = none := List.getElem?_eq_none hle
    unfold Crew.phase
    rw [hnone]
    rfl
  chronicle := fun _ => .nil

end TelemetryAgent
