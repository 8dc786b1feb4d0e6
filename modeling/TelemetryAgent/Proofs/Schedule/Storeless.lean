import TelemetryAgent.Proofs.Schedule.Ordering
import TelemetryAgent.Proofs.Schedule.View

/-!
# Schedules without the store

What a scheduler writes it never reads again, and a save that fails is noted and nothing else. So
with a store that fails in another way a scheduler does the same with its timers, and it tells its
caller the same.
-/
namespace TelemetryAgent

def Call.isSave : Call → Bool
  | save _ _ _ => true
  | _ => false

def Call.isTimer : Call → Bool
  | timerCreate _ _ => true
  | timerStart _ _ => true
  | timerStop _ => true
  | timerRelease _ => true
  | _ => false

def Notice.isSaveFailure : Notice → Bool
  | persistFailed _ _ => true
  | _ => false

namespace Host

/-- The host without its store, and without what it has said of saves. -/
def storeless (h : Host) : Host :=
  { h with
    settings := {}
    calls := h.calls.filter (!·.isSave)
    notices := h.notices.filter (!·.isSaveFailure) }

def storelessView : View where
  see := storeless
  timers _ := rfl
  tasks _ := rfl
  schedulers _ := rfl
  setTimers _ _ := rfl
  setTasks _ _ := rfl
  setSchedulers _ _ := rfl
  record {c} hc h := by
    have hseen : c.isSave = false := by cases c <;> first | rfl | cases hc
    simp [record, storeless, hseen]
  note {n} hn h := by
    have hseen : n.isSaveFailure = false := by cases n <;> first | rfl | cases hn
    simp [note, storeless, hseen]

theorem save_storeless (subtree key : String) (value : Bytes) (h : Host) :
    (h.save subtree key value).2.storeless = h.storeless := by
  have hrecord : (h.record (.save subtree key value)).storeless = h.storeless := by
    simp [record, storeless, Call.isSave]
  unfold save
  dsimp only
  split <;> exact hrecord

theorem saveSettings_storeless (k : Kind) (settings : List Setting) (h : Host) :
    (h.saveSettings k settings).2.storeless = h.storeless := by
  induction settings generalizing h with
  | nil => rfl
  | cons s rest ih =>
      have hsave := save_storeless Setting.subtree (s.key k) s.encode h
      unfold saveSettings
      split
      · rename_i f h₁ heq
        rw [heq] at hsave
        exact hsave
      · rename_i h₁ heq
        rw [heq] at hsave
        exact (ih h₁).trans hsave

theorem persist_storeless (e : Entry) (h : Host) : (h.persist e).storeless = h.storeless := by
  have hsaves := saveSettings_storeless e.kind e.settings h
  unfold persist
  split
  · rename_i f h₁ heq
    rw [heq] at hsaves
    refine Eq.trans ?_ hsaves
    simp [note, storeless, Notice.isSaveFailure]
  · rename_i h₁ heq
    rw [heq] at hsaves
    exact hsaves

/-- Hosts are alike that are the same without their stores. -/
def storelessSame : storelessView.Likeness := storelessView.same persist_storeless

/-- The host with another store, as far as it is up to the store which saves fail. -/
def withSaveFault (plan : Nat → Option SettingsFault) (h : Host) : Host :=
  { h with settings := { h.settings with saveFault := plan } }

def saveFaultView (plan : Nat → Option SettingsFault) : View where
  see := withSaveFault plan
  timers _ := rfl
  tasks _ := rfl
  schedulers _ := rfl
  setTimers _ _ := rfl
  setTasks _ _ := rfl
  setSchedulers _ _ := rfl
  record _ _ := rfl
  note _ _ := rfl

end Host

namespace System
open Host Scheduler

/-- Every timer is started at a period that has just been written, and it makes no difference which
saves fail. If those of a call succeed, they make of the store what it is after the call; then at the
moment at which the call starts a timer of a kind the store has the period and the flag of the entry,
and between their two saves and the start there are but calls on the timer of that entry, of which
there are none before the saves. If none has failed, the store has them for every kind that is
armed. -/
theorem write_before_arm {baseline : List BaselineItem} (hb : ∀ item ∈ baseline, item.kind ≠ .invalid)
    (config : WorkerConfig) (h : Host) (plan : Nat → Option SettingsFault) :
    ∃ s h₀, Scheduler.create baseline config h = (.ok s, h₀) ∧
      Scheduler.create baseline config (h.withSaveFault plan) = (.ok s, h₀.withSaveFault plan) ∧
      ∀ moves : List Move,
      let x := run moves ⟨s, h₀, []⟩
      let y := run moves ⟨s, h₀.withSaveFault plan, []⟩
      (∀ op : Operation, SavesSucceed x.host (x.call op).host → (x.call op).host.settings.leaves =
        x.host.settings.leaves.replay (since x.host (x.call op).host)) ∧
      (∀ (op : Operation) (earlier later : List Call) (timer seconds : Nat),
        SavesSucceed x.host (x.call op).host →
        since x.host (x.call op).host = earlier ++ .timerStart timer seconds :: later →
        ∃ e before between, op.asked? e.kind x.scheduler = some e ∧
          (x.call op).host.kinds[timer]? = some e.kind ∧ (seconds : Int) = e.period.toInt ∧
          earlier = before ++ e.saves ++ between ∧
          (∀ c ∈ before, ¬ c.Serves (x.call op).host.kinds e) ∧
          (∀ c ∈ between, c.Serves (x.call op).host.kinds e) ∧
          let now := x.host.settings.leaves.replay earlier
          now.stored? e.kind (.period e.period) = some (e.kind, .period e.period) ∧
            now.stored? e.kind (.enable e.enabled) = some (e.kind, .enable e.enabled)) ∧
      (SavesSucceed h x.host → ∀ k, x.scheduler.isArmed k x.host = true →
        ∃ e, x.scheduler.fields? k = some e ∧
          x.host.settings.leaves.stored? k (.period e.period) = some (k, .period e.period) ∧
          x.host.settings.leaves.stored? k (.enable e.enabled) = some (k, .enable e.enabled)) ∧
      ((∀ m ∈ moves, m.Respects storelessView) →
        answers moves ⟨s, h₀.withSaveFault plan, []⟩ = answers moves ⟨s, h₀, []⟩ ∧
          y.scheduler = x.scheduler ∧ y.host.timers = x.host.timers ∧
          (∀ k, y.scheduler.isArmed k y.host = x.scheduler.isArmed k x.host) ∧
          y.host.calls.filter Call.isTimer = x.host.calls.filter Call.isTimer) := by
  obtain ⟨s, h₀, hcreate, hfresh⟩ := create_fresh hb config h
  have hother := (saveFaultView plan).create (fun _ => rfl) (fun _ => rfl) baseline config h
  rw [hcreate] at hother
  have hw₀ : Wired h₀.bank.length s h₀.bank := hfresh.wired
  refine ⟨s, h₀, hcreate, hother, fun moves => ?_⟩
  have hw := wired_run (x := ⟨s, h₀, []⟩) hw₀ moves
  refine ⟨fun op hok => leaves_of_call hw hok, fun op earlier later timer seconds hok hcalls => ?_,
    fun hok k harmed => ?_, fun hmoves => ?_⟩
  · obtain ⟨e, before, between, hmem, hearlier, hbefore, hbetween, ⟨hkind, hperiod, hseconds⟩,
      hholds⟩ := saved_before_started hw hok hcalls
    refine ⟨e, before, between, Operation.asked?_of_mem_written hmem, hkind, ?_, hearlier, hbefore,
      hbetween, Leaves.stored?_of_holds hholds (plain_of_mem_call hmem).kind⟩
    rw [hseconds]
    exact Entry.seconds_eq_toInt hperiod
  · have hunarmed : Backed k s h₀.settings.leaves := fun e timer he htimer => by
      rw [(hfresh.entry he).2] at htimer
      cases htimer
    have hrun : SavesSucceed h₀ (run moves ⟨s, h₀, []⟩).host :=
      (hok.split (.ofSettings hfresh.settings) (run_wrote (x := ⟨s, h₀, []⟩) hw₀ moves)).2
    obtain ⟨e, he, -, hstored⟩ := stored?_of_armed hw
      (backed_run (x := ⟨s, h₀, []⟩) hw₀ hrun hunarmed) harmed
    exact ⟨e, he, hstored⟩
  · have hstart : Alike storelessSame ⟨s, h₀.withSaveFault plan, []⟩ ⟨s, h₀, []⟩ := ⟨rfl, rfl, rfl⟩
    obtain ⟨hanswers, hscheduler, -, hhost⟩ := hstart.run hmoves
    have hseen : (run moves ⟨s, h₀.withSaveFault plan, []⟩).host.storeless =
        (run moves ⟨s, h₀, []⟩).host.storeless := hhost
    have htimers : (run moves ⟨s, h₀.withSaveFault plan, []⟩).host.timers =
        (run moves ⟨s, h₀, []⟩).host.timers := by
      have hsame := congrArg Host.timers hseen
      exact hsame
    have hcalls : ∀ g : Host, g.calls.filter Call.isTimer = g.storeless.calls.filter Call.isTimer := by
      intro g
      unfold storeless
      rw [List.filter_filter]
      refine List.filter_congr fun c _ => ?_
      cases c <;> rfl
    refine ⟨hanswers, hscheduler, htimers, fun k => ?_, ?_⟩
    · unfold isArmed timerRunning
      rw [hscheduler, htimers]
    · rw [hcalls, hseen, ← hcalls]

/-- A period is sent to a kind that is armed. Another store, in which no save succeeds, changes
nothing; in this one the timer is started afresh once the period is there. -/
theorem rearmed_after_saves :
    let h : Host := {}
    let h' := h.withSaveFault fun _ => some .full
    let moves := [Move.call (.start 0)]
    let op := Operation.set "/request/io.edgehog.devicemanager.SystemStatus/periodSeconds"
      (.integer 20)
    (∀ item ∈ [BaselineItem.mk .systemStatus 10], item.kind ≠ .invalid) ∧
      ∃ s h₀ h₀', Scheduler.create [⟨.systemStatus, 10⟩] {} h = (.ok s, h₀) ∧
        Scheduler.create [⟨.systemStatus, 10⟩] {} h' = (.ok s, h₀') ∧
        let x := run moves ⟨s, h₀, []⟩
        SavesSucceed h x.host ∧ SavesSucceed x.host (x.call op).host ∧
        x.scheduler.isArmed .systemStatus x.host = true ∧
        since x.host (x.call op).host =
          Entry.saves ⟨.systemStatus, 20, true, none⟩ ++ [.timerStop 0, .timerStart 0 20] ∧
        (∃ e, x.scheduler.fields? .systemStatus = some e ∧
          x.host.settings.leaves.stored? .systemStatus (.period e.period) =
            some (.systemStatus, .period e.period)) ∧
        (∃ e, op.asked? e.kind x.scheduler = some e ∧ e.kind = .systemStatus ∧ e.period = 20) ∧
        answers (moves ++ [.call op]) ⟨s, h₀', []⟩ = answers (moves ++ [.call op]) ⟨s, h₀, []⟩ := by
  intro h h' moves op
  have hb : ∀ item ∈ [BaselineItem.mk .systemStatus 10], item.kind ≠ .invalid := by decide
  refine ⟨hb, ?_⟩
  obtain ⟨s, h₀, hcreate, hcreate', hrun⟩ := write_before_arm hb {} h fun _ => some .full
  obtain ⟨-, hstarts, harmed, -⟩ := hrun moves
  obtain ⟨-, -, -, hsame⟩ := hrun (moves ++ [.call op])
  refine ⟨s, h₀, _, hcreate, hcreate', ?_⟩
  intro x
  have hok : SavesSucceed h x.host := fun _ _ _ => rfl
  have hfresh := fresh_of_create hcreate
  have hplan : x.host.settings.saveFault = fun _ => none :=
    (run_wrote (x := ⟨s, h₀, []⟩) hfresh.wired moves).saveFault.trans
      (congrArg SettingsStore.saveFault hfresh.settings)
  have hnow : SavesSucceed x.host (x.call op).host := fun _ _ _ => by rw [hplan]
  have hyes : x.scheduler.isArmed .systemStatus x.host = true := by
    cases hcreate
    decide +kernel
  have hcalls : since x.host (x.call op).host =
      Entry.saves ⟨.systemStatus, 20, true, none⟩ ++ [.timerStop 0, .timerStart 0 20] := by
    cases hcreate
    decide +kernel
  obtain ⟨e, he, hperiod, -⟩ := harmed hok .systemStatus hyes
  obtain ⟨d, before, between, hasked, htimer, hseconds, -⟩ :=
    hstarts op (Entry.saves ⟨.systemStatus, 20, true, none⟩ ++ [.timerStop 0]) [] 0 20 hnow hcalls
  have hkinds : (x.call op).host.kinds[0]? = some .systemStatus := by
    cases hcreate
    decide +kernel
  have hd : d.kind = .systemStatus := Option.some.inj (htimer.symm.trans hkinds)
  refine ⟨hok, hnow, hyes, hcalls, ⟨e, he, hperiod⟩, ⟨d, hasked, hd, ?_⟩, ?_⟩
  · exact Int64.toInt_inj.mp hseconds.symm
  · refine (hsame fun m hm => ?_).1
    rcases List.mem_cons.mp hm with rfl | hm
    · exact trivial
    · rw [List.mem_singleton.mp hm]
      exact trivial

end System
end TelemetryAgent
