import TelemetryAgent.Proofs.Schedule.Crew

/-!
# Workers that outlive a stop

A stop waits for one worker, and a start that follows a stop which has timed out gives it another
one to wait for. The worker that was displaced in this way is waited for no more. After a stop that
returns without a failure every worker that is still alive was displaced, so that nothing is left
exactly if every displaced worker has come to its end.

`Since` says what the time between two states of a crew can have done to workers, and `Quiet` what
it can have done before the next start.
-/
namespace TelemetryAgent

namespace WorkerPhase

@[simp] theorem isAlive_later (millis : Nat) (p : WorkerPhase) : (p.later millis).isAlive = p.isAlive := by
  cases p <;> rfl

theorem isAlive_of_isIdle {p : WorkerPhase} (hidle : p.isIdle = true) : p.isAlive = true := by
  cases p <;> trivial

end WorkerPhase

/-- The same worker at a later time. One that is not alive stays so. -/
structure Worker.Onward (w w' : Worker) : Prop where
  owner : w'.owner = w.owner
  epoch : w'.epoch = w.epoch
  publisher : w'.publisher = w.publisher
  alive : w'.phase.isAlive = true → w.phase.isAlive = true

namespace Worker

theorem Onward.refl (w : Worker) : Onward w w := ⟨rfl, rfl, rfl, id⟩

theorem Onward.trans {w₁ w₂ w₃ : Worker} (h₁ : Onward w₁ w₂) (h₂ : Onward w₂ w₃) : Onward w₁ w₃ where
  owner := h₂.owner.trans h₁.owner
  epoch := h₂.epoch.trans h₁.epoch
  publisher := h₂.publisher.trans h₁.publisher
  alive := fun halive => h₁.alive (h₂.alive halive)

theorem onward_look (current : Bool) (w : Worker) : Onward w (w.look current) := by
  unfold look
  split
  · rename_i hidle
    exact ⟨rfl, rfl, rfl, fun _ => by rw [hidle]; rfl⟩
  · exact .refl w

end Worker

namespace Crew

variable {given : Nat → Prop} {c c₁ c₂ c' : Crew} {new new₁ new₂ : List Occurrence}

/-! ## What time does to workers -/

/-- What can have become of the workers of a crew, with what has been added to the log. -/
structure Since (given : Nat → Prop) (c c' : Crew) (new : List Occurrence) : Prop where
  ident : c'.ident = c.ident
  log : c'.log = c.log ++ new
  kept : ∀ (i : Nat) (w : Worker), c.workers[i]? = some w →
    ∃ w', c'.workers[i]? = some w' ∧ Worker.Onward w w'
  spawned : ∀ (i : Nat) (w' : Worker), c.workers.length ≤ i → c'.workers[i]? = some w' →
    w'.owner = c.ident ∧ .started i w'.publisher ∈ new
  started : ∀ (i p : Nat), .started i p ∈ new → c.workers.length ≤ i ∧ given p ∧
    ∃ w', c'.workers[i]? = some w' ∧ w'.publisher = p
  touched : ∀ (i p : Nat) (k : Kind), .handed i p k ∈ new ∨ .returned i p k ∈ new →
    (∃ w', c'.workers[i]? = some w' ∧ w'.publisher = p) ∧
      ∀ w, c.workers[i]? = some w → w.phase.isAlive = true

theorem Since.length_le (hs : Since given c c' new) : c.workers.length ≤ c'.workers.length := by
  rcases Nat.lt_or_ge c'.workers.length c.workers.length with hlt | hle
  · obtain ⟨w', hw', -⟩ := hs.kept c'.workers.length _ (List.getElem?_eq_getElem hlt)
    rw [List.getElem?_eq_none (Nat.le_refl _)] at hw'
    cases hw'
  · exact hle

/-- What a worker was before, if it was there. -/
theorem Since.of_lt (hs : Since given c c' new) {i : Nat} {w' : Worker}
    (hlt : i < c.workers.length) (hw' : c'.workers[i]? = some w') :
    ∃ w, c.workers[i]? = some w ∧ Worker.Onward w w' := by
  obtain ⟨w₂, hw₂, honward⟩ := hs.kept i _ (List.getElem?_eq_getElem hlt)
  rw [hw'] at hw₂
  cases hw₂
  exact ⟨_, List.getElem?_eq_getElem hlt, honward⟩

theorem Since.refl (given : Nat → Prop) (c : Crew) : Since given c c [] where
  ident := rfl
  log := (List.append_nil _).symm
  kept := fun i w hw => ⟨w, hw, .refl w⟩
  spawned := fun i w' hle hw' => by
    rw [List.getElem?_eq_none hle] at hw'
    cases hw'
  started := fun i p hmem => (nomatch hmem)
  touched := fun i p k hmem => by rcases hmem with hmem | hmem <;> cases hmem

theorem Since.trans (h₁ : Since given c c₁ new₁) (h₂ : Since given c₁ c₂ new₂) :
    Since given c c₂ (new₁ ++ new₂) := by
  have hle₁ := h₁.length_le
  have hle₂ := h₂.length_le
  refine ⟨h₂.ident.trans h₁.ident, ?_, fun i w hw => ?_, fun i w' hle hw' => ?_, fun i p hmem => ?_,
    fun i p k hmem => ?_⟩
  · rw [h₂.log, h₁.log, List.append_assoc]
  · obtain ⟨w₁, hw₁, honward₁⟩ := h₁.kept i w hw
    obtain ⟨w₂, hw₂, honward₂⟩ := h₂.kept i w₁ hw₁
    exact ⟨w₂, hw₂, honward₁.trans honward₂⟩
  · rcases Nat.lt_or_ge i c₁.workers.length with hlt | hge
    · obtain ⟨w₁, hw₁, honward⟩ := h₂.of_lt hlt hw'
      obtain ⟨howner, hmem⟩ := h₁.spawned i w₁ hle hw₁
      rw [honward.owner, honward.publisher]
      exact ⟨howner, List.mem_append_left _ hmem⟩
    · obtain ⟨howner, hmem⟩ := h₂.spawned i w' hge hw'
      exact ⟨howner.trans h₁.ident, List.mem_append_right _ hmem⟩
  · rcases List.mem_append.mp hmem with hmem | hmem
    · obtain ⟨hle, hgiven, w₁, hw₁, hp⟩ := h₁.started i p hmem
      obtain ⟨w₂, hw₂, honward⟩ := h₂.kept i w₁ hw₁
      exact ⟨hle, hgiven, w₂, hw₂, honward.publisher.trans hp⟩
    · obtain ⟨hle, hgiven, hthere⟩ := h₂.started i p hmem
      exact ⟨Nat.le_trans hle₁ hle, hgiven, hthere⟩
  · have hsplit : (.handed i p k ∈ new₁ ∨ .returned i p k ∈ new₁) ∨
        (.handed i p k ∈ new₂ ∨ .returned i p k ∈ new₂) := by
      rcases hmem with hmem | hmem <;> rcases List.mem_append.mp hmem with hmem | hmem
      · exact .inl (.inl hmem)
      · exact .inr (.inl hmem)
      · exact .inl (.inr hmem)
      · exact .inr (.inr hmem)
    rcases hsplit with hmem | hmem
    · obtain ⟨⟨w₁, hw₁, hp⟩, halive⟩ := h₁.touched i p k hmem
      obtain ⟨w₂, hw₂, honward⟩ := h₂.kept i w₁ hw₁
      exact ⟨⟨w₂, hw₂, honward.publisher.trans hp⟩, halive⟩
    · obtain ⟨hthere, halive⟩ := h₂.touched i p k hmem
      refine ⟨hthere, fun w hw => ?_⟩
      obtain ⟨w₁, hw₁, honward⟩ := h₁.kept i w hw
      exact honward.alive (halive w₁ hw₁)

/-- A change of phases. Who works is the same before and afterwards. -/
theorem Since.ofPhases (hident : c'.ident = c.ident) (hlog : c'.log = c.log ++ new)
    (hlength : c'.workers.length = c.workers.length)
    (hback : ∀ (i : Nat) (w' : Worker), c'.workers[i]? = some w' → ∃ w, c.workers[i]? = some w ∧ Worker.Onward w w')
    (hstarted : ∀ (i p : Nat), .started i p ∉ new)
    (htouched : ∀ (i p : Nat) (k : Kind), .handed i p k ∈ new ∨ .returned i p k ∈ new →
      ∃ w, c.workers[i]? = some w ∧ w.publisher = p ∧ w.phase.isAlive = true) :
    Since given c c' new := by
  have hkept : ∀ (i : Nat) (w : Worker), c.workers[i]? = some w → ∃ w', c'.workers[i]? = some w' ∧ Worker.Onward w w' := by
    intro i w hw
    have hlt : i < c'.workers.length := by
      rw [hlength]
      exact (List.getElem?_eq_some_iff.mp hw).1
    obtain ⟨w₂, hw₂, honward⟩ := hback i _ (List.getElem?_eq_getElem hlt)
    rw [hw] at hw₂
    cases hw₂
    exact ⟨_, List.getElem?_eq_getElem hlt, honward⟩
  refine ⟨hident, hlog, hkept, fun i w' hle hw' => ?_, fun i p hmem => (hstarted i p hmem).elim,
    fun i p k hmem => ?_⟩
  · rw [List.getElem?_eq_none (by omega)] at hw'
    cases hw'
  · obtain ⟨w, hw, hp, halive⟩ := htouched i p k hmem
    obtain ⟨w', hw', honward⟩ := hkept i w hw
    refine ⟨⟨w', hw', honward.publisher.trans hp⟩, fun w₂ hw₂ => ?_⟩
    rw [hw] at hw₂
    cases hw₂
    exact halive

theorem onward_of_modify {workers : List Worker} {j i : Nat} {f : Worker → Worker} {w' : Worker}
    (hf : ∀ w, workers[j]? = some w → Worker.Onward w (f w)) (hw' : (workers.modify j f)[i]? = some w') :
    ∃ w, workers[i]? = some w ∧ Worker.Onward w w' := by
  rw [List.getElem?_modify] at hw'
  obtain ⟨w, hw, rfl⟩ := Option.map_eq_some_iff.mp hw'
  refine ⟨w, hw, ?_⟩
  split
  · rename_i hji
    rw [← hji] at hw
    exact hf w hw
  · exact .refl w

theorem eq_of_getElem?_concat {workers : List Worker} {w w' : Worker} {i : Nat}
    (hle : workers.length ≤ i) (hw' : (workers ++ [w])[i]? = some w') :
    i = workers.length ∧ w' = w := by
  rw [List.getElem?_append_right hle] at hw'
  have hzero : i - workers.length < 1 := (List.getElem?_eq_some_iff.mp hw').1
  have hi : i = workers.length := by omega
  subst hi
  rw [Nat.sub_self] at hw'
  exact ⟨rfl, (Option.some.inj hw').symm⟩

/-- A start displaces nobody but the worker that is waited for. -/
theorem mem_displacement {o : Occurrence} (hmem : o ∈ c.displacement) :
    ∃ i, o = .displaced i ∧ c.tracked = some i := by
  unfold displacement at hmem
  split at hmem
  · cases hmem
  · rename_i i htracked
    split at hmem
    · exact ⟨i, List.mem_singleton.mp hmem, htracked⟩
    · cases hmem

theorem mem_displacement_concat {o last : Occurrence} (hmem : o ∈ c.displacement ++ [last]) :
    (∃ i, o = .displaced i ∧ c.tracked = some i) ∨ o = last :=
  (List.mem_append.mp hmem).imp mem_displacement List.mem_singleton.mp

/-- One more worker. Besides that it was started, no more is said than that one was displaced. -/
theorem since_spawn {w : Worker} {left : List Occurrence} (hgiven : given w.publisher)
    (howner : w.owner = c.ident) (hleft : ∀ o ∈ left, ∃ i, o = .displaced i)
    (hident : c'.ident = c.ident) (hworkers : c'.workers = c.workers ++ [w])
    (hlog : c'.log = c.log ++ (left ++ [.started c.workers.length w.publisher])) :
    Since given c c' (left ++ [.started c.workers.length w.publisher]) where
  ident := hident
  log := hlog
  kept := fun i v hv => by
    have hlt := (List.getElem?_eq_some_iff.mp hv).1
    rw [hworkers]
    exact ⟨v, (List.getElem?_append_left hlt).trans hv, .refl v⟩
  spawned := fun i w' hle hw' => by
    rw [hworkers] at hw'
    obtain ⟨rfl, rfl⟩ := eq_of_getElem?_concat hle hw'
    exact ⟨howner, List.mem_append_right _ (List.mem_singleton.mpr rfl)⟩
  started := fun i p hmem => by
    rcases List.mem_append.mp hmem with hleft' | hnew
    · obtain ⟨j, heq⟩ := hleft _ hleft'
      cases heq
    · cases List.mem_singleton.mp hnew
      rw [hworkers]
      exact ⟨Nat.le_refl _, hgiven, _, List.getElem?_concat_length, rfl⟩
  touched := fun i p k hmem => by
    have hnone : ∀ o ∈ left ++ [.started c.workers.length w.publisher],
        o ≠ .handed i p k ∧ o ≠ .returned i p k := fun o ho => by
      rcases List.mem_append.mp ho with hleft' | hnew
      · obtain ⟨j, rfl⟩ := hleft _ hleft'
        exact ⟨fun heq => (nomatch heq), fun heq => (nomatch heq)⟩
      · rw [List.mem_singleton.mp hnew]
        exact ⟨fun heq => (nomatch heq), fun heq => (nomatch heq)⟩
    rcases hmem with hmem | hmem
    · exact ((hnone _ hmem).1 rfl).elim
    · exact ((hnone _ hmem).2 rfl).elim

theorem Step.since (hs : Step given c c') : ∃ new, Since given c c' new := by
  have hsame : ∀ (i : Nat) (w' : Worker), c.workers[i]? = some w' → ∃ w, c.workers[i]? = some w ∧ Worker.Onward w w' :=
    fun i w' hw' => ⟨w', hw', .refl w'⟩
  cases hs with
  | @start publisher pollMillis hgiven _ =>
      refine ⟨_, since_spawn (w := c.recruit publisher pollMillis) hgiven rfl (fun o ho => ?_) rfl rfl rfl⟩
      obtain ⟨i, hi, -⟩ := mem_displacement ho
      exact ⟨i, hi⟩
  | refuse => exact ⟨[.refused], .ofPhases rfl rfl rfl hsame (by simp) (by simp)⟩
  | halt => exact ⟨[], .ofPhases rfl (List.append_nil _).symm rfl hsame (by simp) (by simp)⟩
  | @join i _ _ _ =>
      refine ⟨[], .ofPhases rfl (List.append_nil _).symm (by simp [setPhase]) (fun j w' hw' => ?_)
        (by simp) (by simp)⟩
      refine onward_of_modify (f := fun w => { w with phase := .ended }) (fun w _ => ?_) hw'
      exact ⟨rfl, rfl, rfl, fun halive => by cases halive⟩
  | mourn => exact ⟨[], .ofPhases rfl (List.append_nil _).symm rfl hsame (by simp) (by simp)⟩
  | elapse millis =>
      refine ⟨[], .ofPhases rfl (List.append_nil _).symm (by simp) (fun i w' hw' => ?_) (by simp) (by simp)⟩
      rw [List.getElem?_map] at hw'
      obtain ⟨w, hw, rfl⟩ := Option.map_eq_some_iff.mp hw'
      refine ⟨w, hw, rfl, rfl, rfl, fun halive => ?_⟩
      rwa [WorkerPhase.isAlive_later] at halive
  | accept k hroom => exact ⟨[.accepted k], .ofPhases rfl rfl rfl hsame (by simp) (by simp)⟩
  | lose k hfull => exact ⟨[.lost k], .ofPhases rfl rfl rfl hsame (by simp) (by simp)⟩
  | @take i w k rest hw hidle _ _ =>
      have halive := WorkerPhase.isAlive_of_isIdle hidle
      refine ⟨[.handed i w.publisher k], .ofPhases rfl rfl (by simp [setPhase, record])
        (fun j w' hw' => onward_of_modify (fun w₂ hw₂ => ?_) hw') (by simp) (fun j p l hmem => ?_)⟩
      · rw [hw] at hw₂
        cases hw₂
        exact ⟨rfl, rfl, rfl, fun _ => halive⟩
      · simp only [List.mem_singleton, Occurrence.handed.injEq, reduceCtorEq, or_false] at hmem
        obtain ⟨rfl, rfl, rfl⟩ := hmem
        exact ⟨w, hw, rfl, halive⟩
  | @finish i w k phase hw hphase _ =>
      have halive : w.phase.isAlive = true := by
        rw [hphase]
        rfl
      refine ⟨[.returned i w.publisher k], .ofPhases rfl rfl (by simp [setPhase, record])
        (fun j w' hw' => onward_of_modify (fun w₂ hw₂ => ?_) hw') (by simp) (fun j p l hmem => ?_)⟩
      · rw [hw] at hw₂
        cases hw₂
        exact ⟨rfl, rfl, rfl, fun _ => halive⟩
      · simp only [List.mem_singleton, Occurrence.returned.injEq, reduceCtorEq, false_or] at hmem
        obtain ⟨rfl, rfl, rfl⟩ := hmem
        exact ⟨w, hw, rfl, halive⟩
  | look =>
      refine ⟨[], .ofPhases rfl (List.append_nil _).symm (by simp) (fun j w' hw' => ?_) (by simp) (by simp)⟩
      exact onward_of_modify (fun w _ => Worker.onward_look _ w) hw'

theorem Steps.since (hs : Steps given c c') : ∃ new, Since given c c' new := by
  induction hs with
  | refl => exact ⟨[], .refl given c⟩
  | tail _ hstep ih =>
      obtain ⟨new₁, h₁⟩ := ih
      obtain ⟨new₂, h₂⟩ := hstep.since
      exact ⟨new₁ ++ new₂, h₁.trans h₂⟩

/-! ## Who is alive -/

/-- The workers from number `base` on are those of the scheduler, and each that is alive is waited
for or has been displaced. -/
structure Accounted (base : Nat) (c : Crew) : Prop where
  base_le : base ≤ c.workers.length
  tracked : ∀ i, c.tracked = some i → base ≤ i ∧ i < c.workers.length
  displaced : ∀ i, .displaced i ∈ c.log → base ≤ i ∧ i < c.workers.length
  alive : ∀ (i : Nat) (w : Worker), base ≤ i → c.workers[i]? = some w → w.phase.isAlive = true →
    c.tracked = some i ∨ .displaced i ∈ c.log

/-- Only the displacement of a worker is a displacement. -/
theorem Step.displaced_of_mem (hs : Step given c c') {i : Nat} (hmem : .displaced i ∈ c'.log) :
    .displaced i ∈ c.log ∨ c.tracked = some i := by
  cases hs with
  | start =>
      rcases List.mem_append.mp hmem with hold | hnew
      · exact .inl hold
      · rcases mem_displacement_concat hnew with ⟨j, heq, htracked⟩ | heq <;> cases heq
        exact .inr htracked
  | refuse | accept | lose | take | finish =>
      rcases List.mem_append.mp hmem with hold | hnew
      · exact .inl hold
      · cases List.mem_singleton.mp hnew
  | halt | join | mourn | elapse | look => exact .inl hmem

/-- A worker that is waited for stays so until it has ended or is displaced. -/
theorem Step.tracked_of (hs : Step given c c') {i : Nat} (htracked : c.tracked = some i)
    (hlt : i < c.workers.length) :
    c'.tracked = some i ∨ .displaced i ∈ c'.log ∨
      ∀ w', c'.workers[i]? = some w' → w'.phase.isAlive = false := by
  cases hs with
  | start =>
      cases hphase : (c.phase i).isAlive with
      | true =>
          refine .inr (.inl (List.mem_append_right _ (List.mem_append_left _ ?_)))
          simp only [displacement, htracked, hphase, if_true]
          exact List.mem_singleton.mpr rfl
      | false =>
          refine .inr (.inr fun w' hw' => ?_)
          have hold := (List.getElem?_append_left hlt).symm.trans hw'
          simp only [phase, hold] at hphase
          exact hphase
  | @join j _ hj _ =>
      rw [htracked] at hj
      cases hj
      refine .inr (.inr fun w' hw' => ?_)
      simp only [setPhase, List.getElem?_modify_eq] at hw'
      obtain ⟨w, -, rfl⟩ := Option.map_eq_some_iff.mp hw'
      rfl
  | @mourn j _ hj hphase =>
      rw [htracked] at hj
      cases hj
      refine .inr (.inr fun w' hw' => ?_)
      simp only [phase, show c.workers[i]? = some w' from hw'] at hphase
      rw [hphase]
      rfl
  | refuse | halt | elapse | accept | lose | take | finish | look => exact .inl htracked

/-- Only a start adds a worker and has it waited for. -/
theorem Step.tracked_cases (hs : Step given c c') :
    (c'.workers.length = c.workers.length ∧ ∀ i, c'.tracked = some i → c.tracked = some i) ∨
      (c'.workers.length = c.workers.length + 1 ∧ c'.tracked = some c.workers.length) := by
  cases hs with
  | start => exact .inr ⟨List.length_append, rfl⟩
  | join => exact .inl ⟨List.length_modify .., fun i hi => by cases hi⟩
  | mourn => exact .inl ⟨rfl, fun i hi => by cases hi⟩
  | take | finish | look => exact .inl ⟨List.length_modify .., fun _ hi => hi⟩
  | elapse => exact .inl ⟨List.length_map .., fun _ hi => hi⟩
  | refuse | halt | accept | lose => exact .inl ⟨rfl, fun _ hi => hi⟩

theorem Accounted.step {base : Nat} (ha : Accounted base c) (hs : Step given c c') :
    Accounted base c' := by
  obtain ⟨new, hsince⟩ := hs.since
  have hle := hsince.length_le
  have hgrown : ∀ o ∈ c.log, o ∈ c'.log := fun o ho => by
    rw [hsince.log]
    exact List.mem_append_left new ho
  have hcases := hs.tracked_cases
  refine ⟨Nat.le_trans ha.base_le hle, fun i hi => ?_, fun i hi => ?_, fun i w' hbase hw' halive => ?_⟩
  · rcases hcases with ⟨hlength, hkept⟩ | ⟨hlength, hnew⟩
    · have htracked := ha.tracked i (hkept i hi)
      omega
    · rw [hnew] at hi
      cases hi
      have hbase := ha.base_le
      omega
  · rcases hs.displaced_of_mem hi with hold | htracked
    · have hdisplaced := ha.displaced i hold
      omega
    · have htracked := ha.tracked i htracked
      omega
  · have hlt' := (List.getElem?_eq_some_iff.mp hw').1
    rcases Nat.lt_or_ge i c.workers.length with hlt | hge
    · obtain ⟨w, hw, honward⟩ := hsince.of_lt hlt hw'
      rcases ha.alive i w hbase hw (honward.alive halive) with htracked | hdisplaced
      · rcases hs.tracked_of htracked hlt with hstill | hdisplaced | hdead
        · exact .inl hstill
        · exact .inr hdisplaced
        · rw [hdead w' hw'] at halive
          cases halive
      · exact .inr (hgrown _ hdisplaced)
    · rcases hcases with ⟨hlength, -⟩ | ⟨hlength, hnew⟩
      · omega
      · have hi : i = c.workers.length := by omega
        rw [hi]
        exact .inl hnew

theorem Accounted.steps {base : Nat} (ha : Accounted base c) (hs : Steps given c c') :
    Accounted base c' := by
  induction hs with
  | refl => exact ha
  | tail _ hstep ih => exact ih.step hstep

/-- Once nobody is waited for, the workers that are alive are displaced ones. -/
theorem Accounted.displaced_of_alive {base : Nat} (ha : Accounted base c) (hnone : c.tracked = none)
    {i : Nat} {w : Worker} (hbase : base ≤ i) (hw : c.workers[i]? = some w)
    (halive : w.phase.isAlive = true) : .displaced i ∈ c.log := by
  rcases ha.alive i w hbase hw halive with htracked | hdisplaced
  · rw [hnone] at htracked
    cases htracked
  · exact hdisplaced

theorem Accounted.all_ended_iff {base : Nat} (ha : Accounted base c) (hnone : c.tracked = none) :
    (∀ (i : Nat) (w : Worker), base ≤ i → c.workers[i]? = some w → w.phase.isAlive = false) ↔
      ∀ i, .displaced i ∈ c.log → (c.phase i).isAlive = false := by
  constructor
  · intro hall i hdisplaced
    obtain ⟨hbase, hlt⟩ := ha.displaced i hdisplaced
    have hw := List.getElem?_eq_getElem hlt
    unfold phase
    rw [hw]
    exact hall i _ hbase hw
  · intro hdisplaced i w hbase hw
    cases halive : w.phase.isAlive with
    | false => rfl
    | true =>
        have hended := hdisplaced i (ha.displaced_of_alive hnone hbase hw halive)
        unfold phase at hended
        rw [hw] at hended
        rw [← halive]
        exact hended

/-! ## Until the next start -/

/-- What can have happened while the scheduler did not run. -/
structure Quiet (c c' : Crew) (new : List Occurrence) : Prop where
  running : c'.running = false
  handed : ∀ (i p : Nat) (k : Kind), .handed i p k ∉ new
  returned : ∀ (i p : Nat) (k : Kind), .returned i p k ∈ new →
    ∃ w, c.workers[i]? = some w ∧ w.publisher = p ∧ w.phase = .publishing k
  pending : ∀ (i : Nat) (w' : Worker) (k : Kind), c'.workers[i]? = some w' →
    w'.phase = .publishing k →
    ∃ w, c.workers[i]? = some w ∧ w.publisher = w'.publisher ∧ w.phase = .publishing k

theorem Quiet.trans (h₁ : Quiet c c₁ new₁) (h₂ : Quiet c₁ c₂ new₂) : Quiet c c₂ (new₁ ++ new₂) := by
  refine ⟨h₂.running, fun i p k hmem => ?_, fun i p k hmem => ?_, fun i w₂ k hw₂ hphase₂ => ?_⟩
  · rcases List.mem_append.mp hmem with hmem | hmem
    · exact h₁.handed i p k hmem
    · exact h₂.handed i p k hmem
  · rcases List.mem_append.mp hmem with hmem | hmem
    · exact h₁.returned i p k hmem
    · obtain ⟨w₁, hw₁, hp, hphase⟩ := h₂.returned i p k hmem
      obtain ⟨w, hw, hpublisher, hphase⟩ := h₁.pending i w₁ k hw₁ hphase
      exact ⟨w, hw, hpublisher.trans hp, hphase⟩
  · obtain ⟨w₁, hw₁, hpublisher₁, hphase₁⟩ := h₂.pending i w₂ k hw₂ hphase₂
    obtain ⟨w, hw, hpublisher, hphase⟩ := h₁.pending i w₁ k hw₁ hphase₁
    exact ⟨w, hw, hpublisher.trans hpublisher₁, hphase⟩

theorem Quiet.refl (hstopped : c.running = false) : Quiet c c [] where
  running := hstopped
  handed := fun _ _ _ hmem => (nomatch hmem)
  returned := fun _ _ _ hmem => (nomatch hmem)
  pending := fun _ w' _ hw' hphase => ⟨w', hw', rfl, hphase⟩

theorem pending_of_modify {workers : List Worker} {j i : Nat} {f : Worker → Worker} {w' : Worker}
    {k : Kind} (hpublisher : ∀ w, (f w).publisher = w.publisher)
    (hf : ∀ w, (f w).phase = .publishing k → w.phase = .publishing k)
    (hw' : (workers.modify j f)[i]? = some w') (hphase : w'.phase = .publishing k) :
    ∃ w, workers[i]? = some w ∧ w.publisher = w'.publisher ∧ w.phase = .publishing k := by
  rw [List.getElem?_modify] at hw'
  obtain ⟨w, hw, rfl⟩ := Option.map_eq_some_iff.mp hw'
  refine ⟨w, hw, ?_⟩
  split at hphase
  · rename_i hji
    rw [if_pos hji]
    exact ⟨(hpublisher w).symm, hf w hphase⟩
  · rename_i hji
    rw [if_neg hji]
    exact ⟨rfl, hphase⟩

/-- A log that has not grown, or by one occurrence. -/
theorem eq_of_append_eq {log : List Occurrence} {o : Occurrence}
    (hlog : log ++ [o] = log ++ new) : new = [o] := (List.append_cancel_left hlog).symm

theorem Step.quiet (hs : Step given c c') (hstopped : c.running = false)
    (hlog : c'.log = c.log ++ new) (hnone : ∀ i p, .started i p ∉ new) : Quiet c c' new := by
  have hsame : ∀ (i : Nat) (w' : Worker) (k : Kind), c.workers[i]? = some w' →
      w'.phase = .publishing k →
      ∃ w, c.workers[i]? = some w ∧ w.publisher = w'.publisher ∧ w.phase = .publishing k :=
    fun i w' k hw' hphase => ⟨w', hw', rfl, hphase⟩
  cases hs with
  | @start publisher _ _ _ =>
      have hnew := (List.append_cancel_left hlog).symm
      rw [hnew] at hnone
      exact (hnone _ publisher (List.mem_append_right _ (List.mem_singleton.mpr rfl))).elim
  | refuse | accept | lose =>
      rw [eq_of_append_eq hlog]
      exact ⟨hstopped, by simp, by simp, hsame⟩
  | halt =>
      rw [List.self_eq_append_right.mp hlog]
      exact ⟨rfl, by simp, by simp, hsame⟩
  | join =>
      rw [List.self_eq_append_right.mp hlog]
      refine ⟨hstopped, by simp, by simp, fun i w' k hw' hphase => ?_⟩
      refine pending_of_modify (f := fun w => { w with phase := .ended }) (fun w => rfl)
        (fun w hended => ?_) hw' hphase
      cases hended
  | mourn =>
      rw [List.self_eq_append_right.mp hlog]
      exact ⟨hstopped, by simp, by simp, hsame⟩
  | elapse millis =>
      rw [List.self_eq_append_right.mp hlog]
      refine ⟨hstopped, by simp, by simp, fun i w' k hw' hphase => ?_⟩
      rw [List.getElem?_map] at hw'
      obtain ⟨w, hw, rfl⟩ := Option.map_eq_some_iff.mp hw'
      refine ⟨w, hw, rfl, ?_⟩
      cases hp : w.phase <;> simp_all [WorkerPhase.later]
  | take _ _ hcurrent =>
      unfold isCurrent at hcurrent
      simp [hstopped] at hcurrent
  | @finish i w k phase hw hphase hend =>
      rw [eq_of_append_eq hlog]
      refine ⟨hstopped, by simp, fun j p l hmem => ?_, fun j w' l hw' hphase' => ?_⟩
      · cases List.mem_singleton.mp hmem
        exact ⟨w, hw, rfl, hphase⟩
      · refine pending_of_modify (f := fun w => { w with phase }) (fun w => rfl)
          (fun w hpublishing => ?_) hw' hphase'
        rcases hend with rfl | rfl <;> cases hpublishing
  | look =>
      rw [List.self_eq_append_right.mp hlog]
      refine ⟨hstopped, by simp, by simp, fun i w' k hw' hphase => ?_⟩
      refine pending_of_modify (fun w => (Worker.onward_look _ w).publisher)
        (fun w hlook => ?_) hw' hphase
      unfold Worker.look at hlook
      split at hlook
      · split at hlook <;> cases hlook
      · exact hlook

theorem Steps.quiet (hs : Steps given c c') (hstopped : c.running = false)
    (hlog : c'.log = c.log ++ new) (hnone : ∀ i p, .started i p ∉ new) : Quiet c c' new := by
  induction hs generalizing new with
  | refl =>
      rw [List.self_eq_append_right.mp hlog]
      exact .refl hstopped
  | tail hsteps hstep ih =>
      obtain ⟨new₁, h₁⟩ := Steps.since hsteps
      obtain ⟨new₂, h₂⟩ := hstep.since
      have hnew : new₁ ++ new₂ = new := by
        rw [h₂.log, h₁.log, List.append_assoc] at hlog
        exact List.append_cancel_left hlog
      subst hnew
      have hquiet := ih h₁.log fun i p hmem => hnone i p (List.mem_append_left _ hmem)
      exact hquiet.trans (hstep.quiet hquiet.running h₂.log fun i p hmem =>
        hnone i p (List.mem_append_right _ hmem))

end Crew
end TelemetryAgent
