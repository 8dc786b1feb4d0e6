import Mathlib.Data.List.DropRight
import Mathlib.Data.List.Induction
import TelemetryAgent.Proofs.Schedule.Stopping

/-!
# Deliveries

What the log says of notifications. Every start leaves its marks in the log: it is called, it finds
the queue empty, it begins an epoch, and it has a worker or is refused one. In a chronicle each
occurrence fits what is before it; a worker holds the epoch from its start to the next epoch, and only
the worker that holds the epoch is handed something.

What leaves the queue is what was accepted, in order and from the beginning. From this the main
statements: what the worker of a start is handed is accepted between the moment at which this start
has found the queue empty and the next epoch, and comes in this order. It is the beginning of what is
accepted up to the next start exactly if nothing is handed out while a start has not yet begun its
epoch.
-/
namespace TelemetryAgent

namespace Occurrence

/-! ## What a log says -/

def accepted? : Occurrence → Option Kind
  | accepted k => some k
  | _ => none

/-- What has left the queue, to a worker or for good. -/
def dequeued? : Occurrence → Option Kind
  | handed _ _ k => some k
  | discarded k => some k
  | _ => none

def handedTo? (i : Nat) : Occurrence → Option Kind
  | handed j _ k => if j = i then some k else none
  | _ => none

def returnedTo? (i : Nat) : Occurrence → Option Kind
  | returned j _ k => if j = i then some k else none
  | _ => none

def acceptedIn (log : List Occurrence) : List Kind := log.filterMap accepted?

def dequeuedIn (log : List Occurrence) : List Kind := log.filterMap dequeued?

def handedTo (i : Nat) (log : List Occurrence) : List Kind := log.filterMap (handedTo? i)

/-- The notifications with which a worker's calls to its publisher have come back. -/
def returnedTo (i : Nat) (log : List Occurrence) : List Kind := log.filterMap (returnedTo? i)

def raises : Occurrence → Bool
  | raised => true
  | _ => false

def clears : Occurrence → Bool
  | cleared => true
  | _ => false

def renews : Occurrence → Bool
  | renewed => true
  | _ => false

def renewals (log : List Occurrence) : Nat := log.countP renews

/-- What happened since the queue was found empty. -/
def fresh (before : List Occurrence) : List Occurrence := before.rtakeWhile fun o => !o.clears

/-- What happened up to the next start. -/
def reign (after : List Occurrence) : List Occurrence := after.takeWhile fun o => !o.raises

/-- What happened up to the next epoch. -/
def tenure (after : List Occurrence) : List Occurrence := after.takeWhile fun o => !o.renews

/-- How far the last start has come: it empties the queue, it has found the queue empty, or it has
begun its epoch. At rest it has come to its end. -/
inductive Mark
  | rest | emptying | emptied | renewed
deriving DecidableEq

/-- A start that has been called and has not begun its epoch. -/
def Mark.isOpening : Mark → Bool
  | .emptying => true
  | .emptied => true
  | _ => false

def advance (m : Mark) : Occurrence → Mark
  | raised => .emptying
  | cleared => .emptied
  | renewed => .renewed
  | started _ _ => .rest
  | refused => .rest
  | _ => m

def mark (log : List Occurrence) : Mark := log.foldl advance .rest

def hold (i : Option Nat) : Occurrence → Option Nat
  | started j _ => some j
  | renewed => none
  | _ => i

def holder (log : List Occurrence) : Option Nat := log.foldl hold none

/-- A worker that has neither been started nor handed anything. -/
def Unheard (i : Nat) (log : List Occurrence) : Prop :=
  ∀ q, .started i q ∉ log ∧ ∀ k, .handed i q k ∉ log

/-- The notification that waits longest. -/
def Oldest (k : Kind) (log : List Occurrence) : Prop := dequeuedIn log ++ [k] <+: acceptedIn log

/-- What may come next. The worker that is handed something holds the epoch; if a start is about to
begin another one, the worker was alive when that start was called. -/
def Fits (before : List Occurrence) : Occurrence → Prop
  | raised => mark before = .rest
  | discarded k => mark before = .emptying ∧ Oldest k before
  | cleared => mark before = .emptying ∧ dequeuedIn before = acceptedIn before
  | renewed => mark before = .emptied
  | refused => mark before = .renewed
  | started i _ => mark before = .renewed ∧ Unheard i before
  | handed i q k => holder before = some i ∧ .started i q ∈ before ∧ Oldest k before ∧
      ((mark before).isOpening = true → .displaced i ∈ before)
  | _ => True

/-- A log in which each occurrence fits what is before it. -/
def Chronicle (log : List Occurrence) : Prop :=
  ∀ before o after, log = before ++ o :: after → Fits before o

/-- Nothing is handed out while a start has been called and has not begun its epoch. -/
def Undisturbed (log : List Occurrence) : Prop :=
  ∀ before i q k after, log = before ++ .handed i q k :: after → (mark before).isOpening = false

variable {log new before after r : List Occurrence} {o : Occurrence} {i p q : Nat} {k : Kind}

@[simp] theorem acceptedIn_append (log new : List Occurrence) :
    acceptedIn (log ++ new) = acceptedIn log ++ acceptedIn new := List.filterMap_append

@[simp] theorem dequeuedIn_append (log new : List Occurrence) :
    dequeuedIn (log ++ new) = dequeuedIn log ++ dequeuedIn new := List.filterMap_append

@[simp] theorem handedTo_append (i : Nat) (log new : List Occurrence) :
    handedTo i (log ++ new) = handedTo i log ++ handedTo i new := List.filterMap_append

@[simp] theorem returnedTo_append (i : Nat) (log new : List Occurrence) :
    returnedTo i (log ++ new) = returnedTo i log ++ returnedTo i new := List.filterMap_append

@[simp] theorem renewals_append (log new : List Occurrence) :
    renewals (log ++ new) = renewals log + renewals new := List.countP_append

@[simp] theorem mark_concat (log : List Occurrence) (o : Occurrence) :
    mark (log ++ [o]) = advance (mark log) o := List.foldl_concat ..

@[simp] theorem holder_concat (log : List Occurrence) (o : Occurrence) :
    holder (log ++ [o]) = hold (holder log) o := List.foldl_concat ..

theorem acceptedIn_concat_of_none (ho : o.accepted? = none) :
    acceptedIn (log ++ [o]) = acceptedIn log := by
  simp [acceptedIn, ho]

theorem dequeuedIn_concat_of_none (ho : o.dequeued? = none) :
    dequeuedIn (log ++ [o]) = dequeuedIn log := by
  simp [dequeuedIn, ho]

theorem fresh_concat (ho : o.clears = false) : fresh (log ++ [o]) = fresh log ++ [o] :=
  List.rtakeWhile_concat_pos _ _ _ (by rw [ho]; rfl)

/-- What comes after an occurrence in a log that has grown by one. -/
theorem split_append {s : Occurrence} (hlog : log ++ [o] = before ++ s :: after) :
    (after = [] ∧ before = log ∧ s = o) ∨ ∃ earlier, after = earlier ++ [o] ∧
      log = before ++ s :: earlier := by
  rcases List.eq_nil_or_concat after with rfl | ⟨earlier, last, rfl⟩
  · obtain ⟨hbefore, hs⟩ := List.append_inj' hlog rfl
    cases hs
    exact .inl ⟨rfl, hbefore.symm, rfl⟩
  · rw [List.concat_eq_append] at hlog ⊢
    rw [← List.cons_append, ← List.append_assoc] at hlog
    obtain ⟨hearlier, hlast⟩ := List.append_inj' hlog rfl
    cases hlast
    exact .inr ⟨earlier, rfl, hearlier⟩

/-! ## Chronicles -/

theorem Chronicle.nil : Chronicle [] := fun before o after hlog => by cases before <;> cases hlog

theorem Chronicle.concat (hc : Chronicle log) (ho : Fits log o) : Chronicle (log ++ [o]) := by
  intro before s after hlog
  rcases split_append hlog with ⟨-, rfl, rfl⟩ | ⟨earlier, -, hearlier⟩
  · exact ho
  · exact hc before s earlier hearlier

theorem Chronicle.of_append (hc : Chronicle (log ++ new)) : Chronicle log := by
  intro before o after hlog
  exact hc before o (after ++ new) (by rw [hlog, List.append_assoc]; rfl)

theorem Chronicle.fits (hc : Chronicle (log ++ [o])) : Fits log o := hc log o [] rfl

theorem Undisturbed.of_append (hu : Undisturbed (log ++ new)) : Undisturbed log := by
  intro before i q k after hlog
  exact hu before i q k (after ++ new) (by rw [hlog, List.append_assoc]; rfl)

theorem Undisturbed.last (hu : Undisturbed (log ++ [.handed i q k])) :
    (mark log).isOpening = false := hu log i q k [] rfl

theorem prefix_reign (after : List Occurrence) : reign after <+: after := List.takeWhile_prefix _

theorem not_raised_of_reign (after : List Occurrence) : .raised ∉ reign after := fun hmem => by
  simpa [raises] using List.mem_takeWhile_imp hmem

/-- What leaves the queue is what was accepted, in order and from the beginning. -/
theorem Chronicle.dequeuedIn_prefix (hc : Chronicle log) : dequeuedIn log <+: acceptedIn log := by
  induction log using List.reverseRecOn with
  | nil => exact List.prefix_rfl
  | append_singleton log o ih =>
      have hbefore := ih hc.of_append
      have ho := hc.fits
      cases o with
      | accepted k =>
          rw [dequeuedIn_concat_of_none rfl, acceptedIn_append]
          exact hbefore.trans (List.prefix_append _ _)
      | handed j q k =>
          rw [dequeuedIn_append, acceptedIn_concat_of_none rfl]
          exact ho.2.2.1
      | discarded k =>
          rw [dequeuedIn_append, acceptedIn_concat_of_none rfl]
          exact ho.2
      | raised | cleared | renewed | started | refused | displaced | lost | returned =>
          rw [dequeuedIn_concat_of_none rfl, acceptedIn_concat_of_none rfl]
          exact hbefore

/-! ## Before a start has its worker -/

/-- A start that has found the queue empty and has no worker yet. -/
def Mark.isPrepared : Mark → Bool
  | .emptied => true
  | .renewed => true
  | _ => false

/-- `earlier` is what happened before the queue was last found empty, by the last start. -/
structure Found (earlier log : List Occurrence) : Prop where
  split : log = earlier ++ .cleared :: fresh log
  emptied : dequeuedIn earlier = acceptedIn earlier
  calm : .raised ∉ fresh log

theorem Found.concat {earlier : List Occurrence} (hf : Found earlier log) (hclears : o.clears = false)
    (hraises : o ≠ .raised) : Found earlier (log ++ [o]) where
  split := by rw [fresh_concat hclears, ← List.cons_append, ← List.append_assoc, ← hf.split]
  emptied := hf.emptied
  calm := by
    rw [fresh_concat hclears, List.mem_append, List.mem_singleton]
    exact fun hmem => hmem.elim hf.calm fun heq => hraises heq.symm

theorem Chronicle.found (hc : Chronicle log) (hm : (mark log).isPrepared = true) :
    ∃ earlier, Found earlier log := by
  induction log using List.reverseRecOn with
  | nil => cases hm
  | append_singleton log o ih =>
      have ho := hc.fits
      rw [mark_concat] at hm
      cases o with
      | raised | started | refused => cases hm
      | cleared =>
          have hfresh : fresh (log ++ [.cleared]) = [] :=
            List.rtakeWhile_concat_neg _ _ _ (by decide)
          exact ⟨log, by rw [hfresh], ho.2, by rw [hfresh]; exact List.not_mem_nil⟩
      | renewed =>
          obtain ⟨earlier, hf⟩ := ih hc.of_append (by rw [show mark log = .emptied from ho]; rfl)
          exact ⟨earlier, hf.concat rfl fun heq => nomatch heq⟩
      | discarded | handed | displaced | accepted | lost | returned =>
          obtain ⟨earlier, hf⟩ := ih hc.of_append hm
          exact ⟨earlier, hf.concat rfl fun heq => nomatch heq⟩

/-- Nobody holds an epoch that has just begun. -/
theorem Chronicle.holder_of_renewed (hc : Chronicle log) (hm : mark log = .renewed) :
    holder log = none := by
  induction log using List.reverseRecOn with
  | nil => rfl
  | append_singleton log o ih =>
      rw [mark_concat] at hm
      rw [holder_concat]
      cases o with
      | raised | cleared | started | refused => cases hm
      | renewed => rfl
      | discarded | handed | displaced | accepted | lost | returned => exact ih hc.of_append hm

/-- If nobody disturbs a start, nothing leaves the queue once it has been found empty. -/
theorem Chronicle.dequeuedIn_fresh (hc : Chronicle log) (hu : Undisturbed log)
    (hm : (mark log).isPrepared = true) : dequeuedIn (fresh log) = [] := by
  induction log using List.reverseRecOn with
  | nil => rfl
  | append_singleton log o ih =>
      have ho := hc.fits
      have hsame : o.clears = false → o.dequeued? = none → (mark log).isPrepared = true →
          dequeuedIn (fresh (log ++ [o])) = [] := fun hclears hnone hm => by
        rw [fresh_concat hclears, dequeuedIn_concat_of_none hnone]
        exact ih hc.of_append hu.of_append hm
      rw [mark_concat] at hm
      cases o with
      | raised | started | refused => cases hm
      | cleared =>
          rw [fresh, List.rtakeWhile_concat_neg _ _ _ (by decide)]
          rfl
      | renewed => exact hsame rfl rfl (by rw [show mark log = .emptied from ho]; rfl)
      | discarded k =>
          rw [show advance (mark log) (.discarded k) = mark log from rfl, ho.1] at hm
          cases hm
      | handed j q k =>
          -- before the epoch begins this would disturb the start, and then nobody holds the epoch
          have hopening := hu.last
          change (mark log).isPrepared = true at hm
          cases hmark : mark log with
          | rest | emptying => rw [hmark] at hm; cases hm
          | emptied => rw [hmark] at hopening; cases hopening
          | renewed =>
              have hholder := hc.of_append.holder_of_renewed hmark
              exact nomatch ho.1.symm.trans hholder
      | displaced | accepted | lost | returned => exact hsame rfl rfl hm

/-! ## Since a start -/

/-- What has become of the worker of a start, where `r` is what has happened since. Until the next
start it holds the epoch and is handed all that leaves the queue, and until the next epoch it still
holds it. -/
structure Tenure (i : Nat) (log r : List Occurrence) : Prop where
  resting : .raised ∉ r → mark log = .rest ∧ holder log = some i ∧ dequeuedIn r = handedTo i r
  opening : .raised ∈ r → .renewed ∉ r → (mark log).isOpening = true ∧ holder log = some i
  lapsed : .renewed ∈ r → .raised ∈ r ∧ holder log ≠ some i

/-- Only a start leaves marks, so that it has been called if there are any. -/
theorem Tenure.raised_of_mark (ht : Tenure i log r) (hm : mark log ≠ .rest) : .raised ∈ r := by
  by_contra hnone
  exact hm (ht.resting hnone).1

/-- An epoch that has begun is not the one of the worker. -/
theorem Tenure.renewed_of_mark (ht : Tenure i log r) (hm : mark log = .renewed) : .renewed ∈ r := by
  by_contra hnone
  have hraised := ht.raised_of_mark fun hrest => nomatch hm.symm.trans hrest
  have hopening := (ht.opening hraised hnone).1
  rw [hm] at hopening
  cases hopening

theorem mem_concat_of_ne {s : Occurrence} (hne : s ≠ o) : s ∈ r ++ [o] ↔ s ∈ r := by
  rw [List.mem_append, List.mem_singleton]
  exact ⟨fun hs => hs.resolve_right hne, .inl⟩

theorem mem_concat_self : o ∈ r ++ [o] := List.mem_append_right _ (List.mem_singleton.mpr rfl)

/-- An occurrence that leaves no mark. -/
theorem Tenure.idle (ht : Tenure i log r) (hmark : ∀ m, advance m o = m) (hhold : ∀ j, hold j o = j)
    (hraised : .raised ≠ o) (hrenewed : .renewed ≠ o)
    (hsame : .raised ∉ r → dequeuedIn [o] = handedTo i [o]) : Tenure i (log ++ [o]) (r ++ [o]) := by
  refine ⟨?_, ?_, ?_⟩
  all_goals rw [mem_concat_of_ne hraised, holder_concat, hhold]
  · intro hnone
    obtain ⟨hm, hh, hd⟩ := ht.resting hnone
    rw [mark_concat, hmark, dequeuedIn_append, handedTo_append, hd, hsame hnone]
    exact ⟨hm, hh, rfl⟩
  · rw [mem_concat_of_ne hrenewed, mark_concat, hmark]
    exact ht.opening
  · rw [mem_concat_of_ne hrenewed]
    exact ht.lapsed

/-- The end of a start that has begun its epoch. -/
theorem Tenure.ended (ht : Tenure i log r) (hm : mark log = .renewed) (hraised : .raised ≠ o)
    (hrenewed : .renewed ≠ o) (hholder : hold (holder log) o ≠ some i) :
    Tenure i (log ++ [o]) (r ++ [o]) := by
  have hpast := (mem_concat_of_ne hrenewed).mpr (ht.renewed_of_mark hm)
  have hcalled := (mem_concat_of_ne hraised).mpr (ht.lapsed (ht.renewed_of_mark hm)).1
  refine ⟨fun hnone => (hnone hcalled).elim, fun _ hnone => (hnone hpast).elim, fun _ => ⟨hcalled, ?_⟩⟩
  rw [holder_concat]
  exact hholder

theorem Tenure.concat (ht : Tenure i log r) (hi : .started i p ∈ log) (ho : Fits log o) :
    Tenure i (log ++ [o]) (r ++ [o]) := by
  cases o with
  | raised =>
      refine ⟨fun hnone => (hnone mem_concat_self).elim, fun _ hnone => ?_,
        fun hrenewed => ⟨mem_concat_self, ?_⟩⟩
      · rw [mem_concat_of_ne (by decide)] at hnone
        rw [mark_concat, holder_concat]
        by_cases hraised : .raised ∈ r
        · have hopening := (ht.opening hraised hnone).1
          rw [show mark log = .rest from ho] at hopening
          cases hopening
        · exact ⟨rfl, (ht.resting hraised).2.1⟩
      · rw [mem_concat_of_ne (by decide)] at hrenewed
        rw [holder_concat]
        exact (ht.lapsed hrenewed).2
  | cleared =>
      have hraised := ht.raised_of_mark (by rw [ho.1]; decide)
      refine ⟨fun hnone => (hnone ((mem_concat_of_ne (by decide)).mpr hraised)).elim,
        fun _ hnone => ?_, fun hrenewed => ?_⟩
      · rw [mem_concat_of_ne (by decide)] at hnone
        rw [mark_concat, holder_concat]
        exact ⟨rfl, (ht.opening hraised hnone).2⟩
      · rw [mem_concat_of_ne (by decide)] at hrenewed ⊢
        rw [holder_concat]
        exact ht.lapsed hrenewed
  | renewed =>
      have hraised : .raised ∈ r ++ [.renewed] := (mem_concat_of_ne (by decide)).mpr
        (ht.raised_of_mark (by rw [show mark log = .emptied from ho]; decide))
      refine ⟨fun hnone => (hnone hraised).elim, fun _ hnone => (hnone mem_concat_self).elim,
        fun _ => ⟨hraised, ?_⟩⟩
      rw [holder_concat]
      exact fun heq => nomatch heq
  | started j q =>
      refine ht.ended ho.1 (by simp) (by simp) fun heq => ?_
      cases Option.some.inj heq
      exact (ho.2 p).1 hi
  | refused => exact ht.ended ho (by simp) (by simp) (ht.lapsed (ht.renewed_of_mark ho)).2
  | discarded k =>
      refine ht.idle (fun _ => rfl) (fun _ => rfl) (by simp) (by simp) fun hnone => ?_
      exact (hnone (ht.raised_of_mark (by rw [ho.1]; decide))).elim
  | handed j q k =>
      refine ht.idle (fun _ => rfl) (fun _ => rfl) (by simp) (by simp) fun hnone => ?_
      have hji := ho.1.symm.trans (ht.resting hnone).2.1
      cases hji
      simp [dequeuedIn, handedTo, dequeued?, handedTo?]
  | displaced | accepted | lost | returned =>
      exact ht.idle (fun _ => rfl) (fun _ => rfl) (by simp) (by simp) fun _ => rfl

theorem Chronicle.tenure (hc : Chronicle (before ++ .started i p :: r)) :
    Tenure i (before ++ .started i p :: r) r := by
  induction r using List.reverseRecOn with
  | nil =>
      refine ⟨fun _ => ?_, fun hmem => (nomatch hmem), fun hmem => (nomatch hmem)⟩
      rw [mark_concat, holder_concat]
      exact ⟨rfl, rfl, rfl⟩
  | append_singleton r o ih =>
      rw [← List.cons_append, ← List.append_assoc] at hc ⊢
      exact (ih hc.of_append).concat (List.mem_append_right _ List.mem_cons_self) hc.fits

theorem Tenure.holder_eq (ht : Tenure i log r) (hnone : .renewed ∉ r) : holder log = some i := by
  by_cases hraised : .raised ∈ r
  · exact (ht.opening hraised hnone).2
  · exact (ht.resting hraised).2.1

theorem mem_handedTo : k ∈ handedTo i log ↔ ∃ q, .handed i q k ∈ log := by
  rw [handedTo, List.mem_filterMap]
  constructor
  · rintro ⟨o, ho, hk⟩
    cases o with
    | handed j q l =>
        obtain ⟨rfl, rfl⟩ : j = i ∧ l = k := by simpa [handedTo?] using hk
        exact ⟨q, ho⟩
    | raised | discarded | cleared | renewed | started | refused | displaced | accepted | lost
        | returned => cases hk
  · rintro ⟨q, hq⟩
    exact ⟨_, hq, if_pos rfl⟩

/-- Cutting a log where a worker is handed nothing any more. -/
theorem handedTo_takeWhile {keep : Occurrence → Bool}
    (hkeep : ∀ r q k later, after = r ++ .handed i q k :: later →
      (∀ o ∈ r, keep o = true) ∧ keep (.handed i q k) = true) :
    handedTo i (after.takeWhile keep) = handedTo i after := by
  induction after with
  | nil => rfl
  | cons o rest ih =>
      by_cases ho : keep o = true
      · rw [List.takeWhile_cons_of_pos ho, handedTo, List.filterMap_cons, handedTo,
          List.filterMap_cons]
        have hrest := ih fun r q k later hsplit => by
          obtain ⟨hall, hlast⟩ := hkeep (o :: r) q k later (by rw [hsplit]; rfl)
          exact ⟨fun o' ho' => hall o' (List.mem_cons_of_mem _ ho'), hlast⟩
        rw [handedTo, handedTo] at hrest
        rw [hrest]
      · rw [List.takeWhile_cons_of_neg ho]
        refine (List.eq_nil_iff_forall_not_mem.mpr fun k hk => ho ?_).symm
        obtain ⟨q, hq⟩ := mem_handedTo.mp hk
        obtain ⟨r, later, hsplit⟩ := List.append_of_mem hq
        obtain ⟨hall, hlast⟩ := hkeep r q k later hsplit
        cases r with
        | nil =>
            cases hsplit
            exact hlast
        | cons o' r =>
            cases hsplit
            exact hall _ List.mem_cons_self

/-- A worker is handed something only while it holds the epoch. -/
theorem Chronicle.holds (hc : Chronicle (before ++ .started i p :: after)) {later : List Occurrence}
    (hafter : after = r ++ .handed i q k :: later) :
    Tenure i (before ++ .started i p :: r) r ∧ holder (before ++ .started i p :: r) = some i := by
  have hsplit : before ++ .started i p :: after =
      (before ++ .started i p :: r) ++ .handed i q k :: later := by
    rw [hafter, ← List.cons_append, ← List.append_assoc]
  have hr : Chronicle (before ++ .started i p :: r) := by
    rw [hsplit] at hc
    exact hc.of_append
  exact ⟨hr.tenure, (hc _ _ _ hsplit).1⟩

theorem Chronicle.handedTo_tenure (hc : Chronicle (before ++ .started i p :: after)) :
    handedTo i (Occurrence.tenure after) = handedTo i after := by
  refine handedTo_takeWhile fun r q k later hafter => ⟨fun o ho => ?_, rfl⟩
  obtain ⟨ht, hholder⟩ := hc.holds hafter
  cases o with
  | renewed => exact ((ht.lapsed ho).2 hholder).elim
  | raised | discarded | cleared | started | refused | displaced | accepted | lost | handed
      | returned => rfl

theorem Chronicle.handedTo_reign (hc : Chronicle (before ++ .started i p :: after))
    (hu : Undisturbed (before ++ .started i p :: after)) :
    handedTo i (reign after) = handedTo i after := by
  refine handedTo_takeWhile fun r q k later hafter => ⟨fun o ho => ?_, rfl⟩
  obtain ⟨ht, hholder⟩ := hc.holds hafter
  cases o with
  | raised =>
      have hnone : .renewed ∉ r := fun hrenewed => (ht.lapsed hrenewed).2 hholder
      have hcalm := hu (before ++ .started i p :: r) i q k later (by
        rw [hafter, ← List.cons_append, ← List.append_assoc])
      exact nomatch hcalm.symm.trans (ht.opening ho hnone).1
  | renewed => exact ((ht.lapsed ho).2 hholder).elim
  | discarded | cleared | started | refused | displaced | accepted | lost | handed | returned => rfl

/-! ## What a worker is handed -/

theorem handedTo_sublist (i : Nat) (log : List Occurrence) :
    (handedTo i log).Sublist (dequeuedIn log) := by
  induction log with
  | nil => exact .slnil
  | cons o rest ih =>
      cases o with
      | handed j q k =>
          by_cases hji : j = i
          · simpa [handedTo, dequeuedIn, handedTo?, dequeued?, hji] using ih
          · simpa [handedTo, dequeuedIn, handedTo?, dequeued?, hji] using ih.cons k
      | discarded k => exact ih.cons k
      | raised | cleared | renewed | started | refused | displaced | accepted | lost | returned =>
          exact ih

/-- Since a start has found the queue empty, what leaves the queue is what has been accepted since. -/
theorem Chronicle.dequeuedIn_since (hc : Chronicle (before ++ .started i p :: r)) :
    dequeuedIn (fresh before) ++ dequeuedIn r <+: acceptedIn (fresh before) ++ acceptedIn r := by
  obtain ⟨earlier, hf⟩ := hc.of_append.found (by rw [(hc before _ r rfl).1]; rfl)
  have hsplit : before ++ .started i p :: r =
      earlier ++ ([.cleared] ++ (fresh before ++ ([.started i p] ++ r))) := by
    conv_lhs => rw [hf.split]
    simp
  have hprefix := hc.dequeuedIn_prefix
  rw [hsplit, dequeuedIn_append, acceptedIn_append, hf.emptied, List.prefix_append_right_inj] at hprefix
  simp only [dequeuedIn_append, acceptedIn_append] at hprefix
  exact hprefix

/-- What the worker of a start is handed was accepted since this start had found the queue empty and
before the next epoch, and comes in the same order. -/
theorem Chronicle.handed_sublist (hc : Chronicle (before ++ .started i p :: after)) :
    (handedTo i after).Sublist (acceptedIn (fresh before ++ Occurrence.tenure after)) := by
  obtain ⟨rest, hrest⟩ := List.takeWhile_prefix (l := after) fun o => !o.renews
  have hcut : Chronicle (before ++ .started i p :: Occurrence.tenure after) := by
    rw [← hrest, ← List.cons_append, ← List.append_assoc] at hc
    exact hc.of_append
  rw [← hc.handedTo_tenure, acceptedIn_append]
  calc
    (handedTo i (Occurrence.tenure after)).Sublist (dequeuedIn (Occurrence.tenure after)) :=
      handedTo_sublist i _
    _ |>.Sublist _ := (List.sublist_append_right _ _).trans hcut.dequeuedIn_since.sublist

/-- Undisturbed, it is the beginning of what was accepted before the next start. -/
theorem Chronicle.handed_prefix (hc : Chronicle (before ++ .started i p :: after))
    (hu : Undisturbed (before ++ .started i p :: after)) :
    handedTo i (reign after) <+: acceptedIn (fresh before ++ reign after) := by
  obtain ⟨rest, hrest⟩ := prefix_reign after
  have hcut : Chronicle (before ++ .started i p :: reign after) := by
    rw [← hrest, ← List.cons_append, ← List.append_assoc] at hc
    exact hc.of_append
  have hnothing := hc.of_append.dequeuedIn_fresh hu.of_append
    (by rw [(hc before _ after rfl).1]; rfl)
  have hsince := hcut.dequeuedIn_since
  rw [hnothing, List.nil_append, (hcut.tenure.resting (not_raised_of_reign after)).2.2] at hsince
  rw [acceptedIn_append]
  exact hsince

/-- Nothing is handed to a worker before its start. -/
theorem Chronicle.handedTo_after (hc : Chronicle (before ++ .started i p :: after)) :
    handedTo i (before ++ .started i p :: after) = handedTo i after := by
  have hnone : handedTo i before = [] := List.eq_nil_iff_forall_not_mem.mpr fun k hk => by
    obtain ⟨q, hq⟩ := mem_handedTo.mp hk
    exact ((hc before _ after rfl).2 q).2 k hq
  rw [handedTo_append, hnone, List.nil_append]
  rfl

/-- What a worker is handed while the next start is under way, it is not handed before that start. -/
theorem Chronicle.handedTo_reign_ne (hc : Chronicle log) (hlog : log = before ++ .handed i q k :: after)
    (hopening : (mark before).isOpening = true) :
    ∃ earlier later, log = earlier ++ .started i q :: later ∧
      handedTo i log ≠ handedTo i (reign later) := by
  obtain ⟨-, hstarted, -⟩ := hc before _ after hlog
  obtain ⟨earlier, r, rfl⟩ := List.append_of_mem hstarted
  have hsplit : log = earlier ++ .started i q :: (r ++ .handed i q k :: after) := by
    rw [hlog, List.append_assoc]
    rfl
  refine ⟨earlier, _, hsplit, fun hsame => ?_⟩
  rw [hsplit] at hc
  obtain ⟨htenure, -⟩ := hc.holds rfl
  have hraised : .raised ∈ r := htenure.raised_of_mark fun hrest => by
    rw [hrest] at hopening
    cases hopening
  have hwithin : reign (r ++ .handed i q k :: after) <+: r := by
    rcases List.prefix_or_prefix_of_prefix (prefix_reign _) (List.prefix_append r _) with hle | hge
    · exact hle
    · exact (not_raised_of_reign _ (hge.subset hraised)).elim
  have hfew := (hwithin.sublist.filterMap (handedTo? i)).length_le
  rw [hsplit, hc.handedTo_after, handedTo_append] at hsame
  have hone : handedTo i (.handed i q k :: after) = k :: handedTo i after :=
    List.filterMap_cons_some (if_pos rfl)
  have hmany := congrArg List.length hsame
  rw [hone, List.length_append, List.length_cons] at hmany
  have hle : (handedTo i (reign (r ++ .handed i q k :: after))).length ≤ (handedTo i r).length := hfew
  omega

/-- Nothing is handed out while a start is under way exactly if every worker is handed, before the
next start, the beginning of what is accepted up to then, and nothing else at all. -/
theorem Chronicle.undisturbed_iff (hc : Chronicle log) :
    Undisturbed log ↔ ∀ before i p after, log = before ++ .started i p :: after →
      handedTo i log = handedTo i (reign after) ∧
        handedTo i (reign after) <+: acceptedIn (fresh before ++ reign after) := by
  constructor
  · rintro hu before i p after rfl
    rw [hc.handedTo_after]
    exact ⟨(hc.handedTo_reign hu).symm, hc.handed_prefix hu⟩
  · intro hall before i q k after hlog
    cases hopening : (mark before).isOpening with
    | false => rfl
    | true =>
        obtain ⟨earlier, later, hsplit, hne⟩ := hc.handedTo_reign_ne hlog hopening
        exact (hne (hall earlier i q later hsplit).1).elim

end Occurrence
end TelemetryAgent
