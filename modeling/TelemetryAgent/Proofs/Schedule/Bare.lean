import TelemetryAgent.Proofs.Host.Bare
import TelemetryAgent.Proofs.Host.Calls
import TelemetryAgent.Proofs.Schedule.View

/-!
# Schedules without the caller

Schedulers and workers know nothing of callbacks and services. What they do, and what happens around
them, comes to the same on the bare host.
-/
namespace TelemetryAgent

namespace Scheduler
open Host

def bareImage : bareView.Likeness := bareView.image persist_bare

variable {p q : Outcome × Scheduler × Host}

theorem bare_of_agree (hpq : bareImage.Agree p q) : q = Prod.map id (Prod.map id bare) p :=
  Prod.ext hpq.outcome.symm (Prod.ext hpq.scheduler.symm hpq.host)

theorem create_bare (baseline : List BaselineItem) (config : WorkerConfig) (h : Host) :
    create baseline config h.bare = Prod.map id bare (create baseline config h) :=
  bareView.create (fun _ => rfl) (fun _ => rfl) baseline config h

theorem set_bare (path : String) (value : Value) (s : Scheduler) (h : Host) :
    s.set path value h.bare = Prod.map id (Prod.map id bare) (s.set path value h) :=
  bare_of_agree (bareImage.set path value s rfl)

theorem unset_bare (path : String) (s : Scheduler) (h : Host) :
    s.unset path h.bare = Prod.map id (Prod.map id bare) (s.unset path h) :=
  bare_of_agree (bareImage.unset path s rfl)

theorem start_bare (publisher : Nat) (s : Scheduler) (h : Host) :
    s.start publisher h.bare = Prod.map id (Prod.map id bare) (s.start publisher h) :=
  bare_of_agree (bareImage.start publisher s rfl)

end Scheduler

/-! ## What happens without the caller -/

/-- A publisher that has nothing to do with callbacks and services. -/
structure Publisher.Discreet (publisher : Publisher) : Prop where
  bare : ∀ p k h, publisher p k h.bare = Prod.map id Host.bare (publisher p k h)
  caller : ∀ p k h, Host.SameCaller h (publisher p k h).2

/-- Something happens that has nothing to do with callbacks and services. -/
def Ambient.Discreet : Ambient → Prop
  | finish _ publisher => publisher.publish.Discreet
  | aside change => (∀ h, change.apply h.bare = (change.apply h).bare) ∧
      ∀ h, Host.SameCaller h (change.apply h)
  | _ => True

theorem Ambient.Discreet.respects {a : Ambient} (ha : a.Discreet) : a.Respects Host.bareView := by
  cases a with
  | finish => exact ha.bare
  | aside => exact ha.1
  | expire | take | look | elapse => exact trivial

theorem Host.finish_caller {publisher : Publisher} (hp : publisher.Discreet) (worker : Nat)
    (h : Host) : SameCaller h (h.finish publisher worker) := by
  unfold finish
  split
  · rename_i w _
    split
    · rename_i k _
      have hcaller := hp.caller w.publisher k h
      generalize publisher w.publisher k h = p at hcaller
      rcases p with ⟨_ | _, h₁⟩ <;> exact ⟨hcaller.callbacks, hcaller.mode⟩
    · exact .refl h
  · exact .refl h

namespace System
open Host

def bare (x : System) : System := { x with host := x.host.bare }

@[simp] theorem bare_scheduler (x : System) : x.bare.scheduler = x.scheduler := rfl

@[simp] theorem bare_host (x : System) : x.bare.host = x.host.bare := rfl

@[simp] theorem bare_log (x : System) : x.bare.log = x.log := rfl

variable {a : Ambient}

theorem happen_bare (ha : a.Discreet) (x : System) : x.bare.happen a = (x.happen a).bare :=
  happen_see ha.respects x

theorem happen_caller (ha : a.Discreet) (x : System) : SameCaller x.host (x.happen a).host := by
  cases a with
  | expire timer =>
      simp only [happen, expire]
      split
      · exact .refl _
      · split <;> exact ⟨rfl, rfl⟩
  | take worker =>
      simp only [happen, take, Scheduler.take]
      split
      · split
        · split <;> exact ⟨rfl, rfl⟩
        · exact .refl _
      · exact .refl _
  | finish worker publisher =>
      simp only [happen, finish]
      split
      · exact .refl _
      · split
        · exact finish_caller ha worker x.host
        · exact .refl _
  | look worker =>
      simp only [happen, look]
      split
      · exact .refl _
      · split <;> exact ⟨rfl, rfl⟩
  | elapse millis => exact ⟨rfl, rfl⟩
  | aside change => exact ha.2 x.host

theorem happenAll_caller {events : List Ambient} (hevents : ∀ a ∈ events, a.Discreet)
    (x : System) : SameCaller x.host (x.happenAll events).host :=
  happenAll_induction (p := fun y => SameCaller x.host y.host) (.refl x.host)
    fun a ha y hy => hy.trans (happen_caller (hevents a ha) y)

theorem stopWhile_bare (timeoutMillis : Nat) {meanwhile : List Ambient}
    (hmeanwhile : ∀ a ∈ meanwhile, a.Discreet) (x : System) :
    x.bare.stopWhile timeoutMillis meanwhile =
      Prod.map id System.bare (x.stopWhile timeoutMillis meanwhile) :=
  stopWhile_see timeoutMillis (fun a ha => (hmeanwhile a ha).respects) x

end System
end TelemetryAgent
