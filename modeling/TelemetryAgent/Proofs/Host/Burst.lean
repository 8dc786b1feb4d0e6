import TelemetryAgent.Proofs.Host.Calls

/-!
# The initial burst, call by call

What a step of a burst has to say is one list: the places of its interface, in order, with what is
known for each. Publishing goes through this list up to the first call that fails, and a burst does
so for every step, whatever became of the others.
-/
namespace TelemetryAgent

/-! ## What the steps have to say -/

namespace BurstStep

def interface? : BurstStep → Option String
  | telemetry k => k.interface?
  | osInfo => some Interface.osInfo
  | systemInfo => some Interface.systemInfo
  | baseImage => some Interface.baseImage
  | runtimeInfo => some Interface.runtimeInfo

/-- What can be said of a text: nothing if it is not known or empty. -/
def wording (s : Option String) : Option Value := (s.filter (· ≠ "")).map .text

/-- The texts about the device by their paths, each as far as it is known. -/
def texts (f : Facts) : BurstStep → List (String × Option String)
  | telemetry _ => []
  | osInfo => [("/osName", some f.os.name), ("/osVersion", some f.os.version)]
  | systemInfo =>
      [("/serialNumber", f.system.serialNumber), ("/partNumber", f.system.partNumber)]
  | baseImage =>
      [("/fingerprint", f.image.fingerprint), ("/name", f.image.name),
        ("/version", f.image.version), ("/buildId", f.image.buildId)]
  | runtimeInfo =>
      [("/name", some Runtime.name), ("/url", some Runtime.url),
        ("/version", some Runtime.version), ("/environment", some f.environment)]

/-- The properties of a step by their paths, each with the value that there is, if any. -/
def properties (f : Facts) : BurstStep → List (String × Option Value)
  | telemetry .hardwareInfo =>
      [("/cpu/architecture", some (.text f.cpu.architecture)),
        ("/cpu/model", f.cpu.model.map .text),
        ("/cpu/modelName", f.cpu.modelName.map .text),
        ("/cpu/vendor", f.cpu.vendor.map .text),
        ("/mem/totalBytes", f.cpu.totalMemoryBytes.map .longInteger)]
  | step => (step.texts f).map fun (path, s) => (path, wording s)

def objects (bootId : String) (f : Facts) : BurstStep → List (String × Fields)
  | telemetry .systemStatus =>
      [("/systemStatus",
        [("availMemoryBytes", .longInteger f.status.availMemoryBytes), ("bootId", .text bootId),
          ("taskCount", .integer f.status.taskCount),
          ("uptimeMillis", .longInteger f.status.uptimeMillis)])]
  | telemetry .storageUsage =>
      (f.storage.filter (·.freeBytes.isSome)).map fun usage =>
        ("/" ++ usage.label,
          [("totalBytes", .longInteger usage.totalBytes),
            ("freeBytes", .longInteger (usage.freeBytes.getD 0))])
  | _ => []

/-- A property for each value that there is, in order. -/
def stated (interface : String) (places : List (String × Option Value)) : List Transmission :=
  places.filterMap fun (path, value) => value.map fun value => .property ⟨interface, path⟩ value

/-- All that a step has to say, in order. Only the scan has no interface to be said on. -/
def script (bootId : String) (f : Facts) (step : BurstStep) : List Transmission :=
  match step, step.interface? with
  | telemetry .wifiScan, _ => [.scan]
  | _, none => []
  | step, some interface =>
    stated interface (step.properties f) ++
      (step.objects bootId f).map fun (path, fields) => .object ⟨interface, path⟩ fields

/-- The steps about the device, which nothing publishes again. -/
def deviceInfo : List BurstStep := [osInfo, systemInfo, baseImage, runtimeInfo]

end BurstStep

theorem BurstStep.stated_cons (interface path : String) (value : Option Value)
    (places : List (String × Option Value)) : stated interface ((path, value) :: places) =
      Transmission.known interface path value ++ stated interface places := by
  cases value <;> rfl

theorem Transmission.text_eq_known (interface path : String) (s : Option String) :
    text interface path s = known interface path (BurstStep.wording s) := by
  cases s with
  | none => rfl
  | some s =>
      by_cases hs : s = ""
      · subst hs
        rfl
      · have hwording : BurstStep.wording (some s) = some (.text s) := by
          simp [BurstStep.wording, Option.filter, hs]
        rw [text, if_neg hs, hwording]
        rfl

namespace Facts

theorem storageUsage_eq (interface : String) (f : Facts) :
    f.storageUsage interface =
      (f.storage.filter (·.freeBytes.isSome)).map fun usage =>
        .object ⟨interface, "/" ++ usage.label⟩
          [("totalBytes", .longInteger usage.totalBytes),
            ("freeBytes", .longInteger (usage.freeBytes.getD 0))] := by
  unfold storageUsage
  induction f.storage with
  | nil => rfl
  | cons usage rest ih =>
      rw [List.filterMap_cons, ih]
      obtain ⟨label, total, _ | free⟩ := usage <;> rfl

end Facts

/-- The routines of the agent say what the scripts have. -/
theorem BurstStep.script_eq (bootId : String) (f : Facts) (step : BurstStep) :
    step.script bootId f = step.transmissions bootId f := by
  have hnone (interface : String) : stated interface [] = [] := rfl
  cases step with
  | telemetry k =>
      cases k with
      | invalid | wifiScan | systemStatus => rfl
      | hardwareInfo =>
          simp only [script, interface?, Kind.interface?, properties, objects, transmissions,
            Facts.telemetry?, Facts.hardwareInfo, stated_cons, hnone, List.map_nil, List.append_nil,
            List.append_assoc, Option.bind_some, Option.getD_some]
      | storageUsage =>
          simp [script, interface?, Kind.interface?, properties, texts, objects, transmissions, hnone,
            Facts.telemetry?, Facts.storageUsage_eq]
  | osInfo | systemInfo | baseImage | runtimeInfo =>
      simp only [script, interface?, properties, texts, objects, transmissions, Facts.osInfo,
        Facts.systemInfo, Facts.baseImage, Facts.runtimeInfo, Transmission.text_eq_known,
        stated_cons, hnone, List.map_cons, List.map_nil, List.append_nil, List.append_assoc]

/-- The steps about the device never say an empty text. -/
theorem BurstStep.text_of_deviceInfo {bootId : String} {f : Facts} {step : BurstStep}
    (hstep : step ∈ deviceInfo) {t : Transmission} (ht : t ∈ step.script bootId f) :
    ∃ target s, t = .property target (.text s) ∧ s ≠ "" := by
  have hsteps : step = osInfo ∨ step = systemInfo ∨ step = baseImage ∨ step = runtimeInfo := by
    simpa [deviceInfo] using hstep
  obtain ⟨interface, hscript⟩ : ∃ interface, step.script bootId f =
      stated interface ((step.texts f).map fun (path, s) => (path, wording s)) := by
    rcases hsteps with rfl | rfl | rfl | rfl <;> exact ⟨_, List.append_nil _⟩
  rw [hscript] at ht
  obtain ⟨_, hplace, hsaid⟩ := List.mem_filterMap.mp ht
  obtain ⟨⟨path, s⟩, -, rfl⟩ := List.mem_map.mp hplace
  obtain ⟨value, hvalue, rfl⟩ := Option.map_eq_some_iff.mp hsaid
  obtain ⟨known, hknown, rfl⟩ := Option.map_eq_some_iff.mp hvalue
  exact ⟨⟨interface, path⟩, known, rfl, by simpa using (Option.filter_eq_some_iff.mp hknown).2⟩

namespace Facts

/-- The environment is the name and the version of the system, without the blanks at their end. -/
theorem environment_append (f : Facts) : ∃ blanks : List Char,
    (f.os.name ++ " " ++ f.os.version).toList = f.environment.toList ++ blanks ∧
      (∀ c ∈ blanks, Text.isBlank c = true) ∧
      ∀ c, f.environment.toList.getLast? = some c → Text.isBlank c = false := by
  have htrim := Text.eq_trimEnd_append Text.isBlank (f.os.name ++ " " ++ f.os.version).toList
  rwa [← String.toList_ofList (l := Text.trimEnd _ _)] at htrim

end Facts

/-! ## What fails -/

/-- Which calls of a publisher are refused: those on some paths, and perhaps the scan. -/
structure Refusals where
  path : String → Option SessionFault := fun _ => none
  scan : Option Fault := none

namespace Refusals

def fault? (r : Refusals) : Transmission → Option Fault
  | .property target _ => (r.path target.path).map .transport
  | .object target _ => (r.path target.path).map .transport
  | .scan => r.scan

/-- What is made of a list: what comes before the first that fails, and this one. -/
def cut (r : Refusals) (ts : List Transmission) : List Transmission :=
  ts.takeWhile (fun t => (r.fault? t).isNone) ++ (ts.dropWhile fun t => (r.fault? t).isNone).take 1

def outcome (r : Refusals) (ts : List Transmission) : Outcome :=
  .ofFault? (ts.findSome? r.fault?)

variable {r : Refusals} {t : Transmission} {ts : List Transmission}

theorem cut_of_none (ht : r.fault? t = none) : r.cut (t :: ts) = t :: r.cut ts := by
  simp [cut, ht]

theorem cut_of_some {f : Fault} (ht : r.fault? t = some f) : r.cut (t :: ts) = [t] := by
  simp [cut, ht]

/-- Where nothing fails, everything is made. -/
theorem cut_eq_self (hnone : ∀ t ∈ ts, r.fault? t = none) : r.cut ts = ts := by
  induction ts with
  | nil => rfl
  | cons t rest ih =>
      rw [cut_of_none (hnone t List.mem_cons_self),
        ih fun d hd => hnone d (List.mem_cons_of_mem t hd)]

theorem cut_subset (ht : t ∈ r.cut ts) : t ∈ ts := by
  rcases List.mem_append.mp ht with hbefore | hfirst
  · exact (List.takeWhile_sublist _).subset hbefore
  · exact (List.dropWhile_sublist _).subset (List.mem_of_mem_take hfirst)

theorem outcome_of_none (ht : r.fault? t = none) : r.outcome (t :: ts) = r.outcome ts := by
  simp [outcome, ht]

theorem outcome_of_some {f : Fault} (ht : r.fault? t = some f) : r.outcome (t :: ts) = .error f := by
  simp [outcome, ht, Outcome.ofFault?]

end Refusals

namespace Host

/-- The sessions and the platform of a host refuse these calls, however many were made before. -/
structure Refuses (r : Refusals) (h : Host) : Prop where
  path : h.sessions.publishFault = fun _ => r.path
  scan : h.platform.scanFault = fun _ => r.scan

/-- What a publisher has to go by is the same. -/
structure Steady (h h' : Host) : Prop where
  publishFault : h'.sessions.publishFault = h.sessions.publishFault
  scanFault : h'.platform.scanFault = h.platform.scanFault
  facts : h'.platform.facts = h.platform.facts
  bootId : h'.platform.bootId = h.platform.bootId

variable {r : Refusals} {h h₁ h₂ : Host}

theorem Steady.refl (h : Host) : Steady h h := ⟨rfl, rfl, rfl, rfl⟩

theorem Steady.trans (hs₁ : Steady h h₁) (hs₂ : Steady h₁ h₂) : Steady h h₂ where
  publishFault := hs₂.publishFault.trans hs₁.publishFault
  scanFault := hs₂.scanFault.trans hs₁.scanFault
  facts := hs₂.facts.trans hs₁.facts
  bootId := hs₂.bootId.trans hs₁.bootId

theorem Steady.refuses (hs : Steady h h₁) (hr : h.Refuses r) : h₁.Refuses r :=
  ⟨hs.publishFault.trans hr.path, hs.scanFault.trans hr.scan⟩

theorem noteFailure_steady (o : Outcome) (n : Fault → Notice) (h : Host) :
    Steady h (h.noteFailure o n) := by
  cases o <;> exact ⟨rfl, rfl, rfl, rfl⟩

theorem journalStep_steady (session : Nat) (context : Context)
    (step : Journal → Journal × List Notice) (h : Host) :
    Steady h (h.journalStep session context step) := by
  unfold journalStep
  split
  · exact .refl h
  · split
    · exact .refl h
    · dsimp only
      split <;> exact ⟨rfl, rfl, rfl, rfl⟩

theorem journaled_steady (session : Nat) (context : Context) (c : Call)
    (step : Journal → Journal × List Notice) (h : Host) :
    Steady h ((h.record c).countSessionCall.journalStep session context step) := by
  have hrecorded : Steady h (h.record c).countSessionCall := ⟨rfl, rfl, rfl, rfl⟩
  exact hrecorded.trans (journalStep_steady session context step _)

theorem setProperty_steady (session : Nat) (context : Context) (target : Endpoint) (value : Value)
    (h : Host) : Steady h (h.setProperty session context target value).2 := by
  unfold setProperty
  dsimp only
  split
  · exact ⟨rfl, rfl, rfl, rfl⟩
  · dsimp only
    exact journaled_steady session context _ _ h

theorem streamObject_steady (session : Nat) (context : Context) (target : Endpoint)
    (fields : Fields) (h : Host) :
    Steady h (h.streamObject session context target fields).2 := by
  unfold streamObject
  dsimp only
  split
  · exact ⟨rfl, rfl, rfl, rfl⟩
  · dsimp only
    exact journaled_steady session context _ _ h

/-! ## Transmitting -/

theorem Refuses.published (hr : h.Refuses r) (path : String) :
    h.published path = .ofFault? ((r.path path).map .transport) := by
  unfold Host.published
  rw [hr.path]
  dsimp only
  cases r.path path <;> rfl

/-- What a publisher does with a list that it has to transmit: the calls it makes and how it ends. -/
structure Transmits (session : Nat) (context : Context) (r : Refusals) (ts : List Transmission)
    (h : Host) (result : Outcome × Host) : Prop where
  outcome : result.1 = r.outcome ts
  calls : result.2.calls = h.calls ++ (r.cut ts).map (·.call session context)
  steady : Steady h result.2

theorem transmit_one (session : Nat) (context : Context) (t : Transmission) (hr : h.Refuses r) :
    (h.transmit session context t).1 = .ofFault? (r.fault? t) ∧
      (h.transmit session context t).2.calls = h.calls ++ [t.call session context] ∧
      Steady h (h.transmit session context t).2 := by
  cases t with
  | property target value =>
      exact ⟨(setProperty_outcome session context target value h).trans (hr.published _),
        setProperty_calls session context target value h,
        setProperty_steady session context target value h⟩
  | object target fields =>
      exact ⟨(streamObject_outcome session context target fields h).trans (hr.published _),
        streamObject_calls session context target fields h,
        streamObject_steady session context target fields h⟩
  | scan =>
      have hfault : h.platform.scanFault h.platform.scans = r.scan := congrFun hr.scan _
      exact ⟨congrArg Outcome.ofFault? hfault, rfl, ⟨rfl, rfl, rfl, rfl⟩⟩

theorem transmitAll_transmits (session : Nat) (context : Context) (ts : List Transmission)
    (hr : h.Refuses r) : Transmits session context r ts h (h.transmitAll session context ts) := by
  induction ts generalizing h with
  | nil => exact ⟨rfl, (List.append_nil _).symm, .refl h⟩
  | cons t rest ih =>
      obtain ⟨houtcome, hcalls, hsteady⟩ := transmit_one session context t hr
      unfold transmitAll
      generalize h.transmit session context t = result at houtcome hcalls hsteady ⊢
      obtain ⟨o, h₁⟩ := result
      dsimp only at houtcome hcalls hsteady
      cases ht : r.fault? t with
      | some f =>
          rw [ht] at houtcome
          subst houtcome
          refine ⟨(Refusals.outcome_of_some ht).symm, ?_, hsteady⟩
          rw [Refusals.cut_of_some ht]
          exact hcalls
      | none =>
          rw [ht] at houtcome
          subst houtcome
          have hrest := ih (hsteady.refuses hr)
          refine ⟨hrest.outcome.trans (Refusals.outcome_of_none ht).symm, ?_,
            hsteady.trans hrest.steady⟩
          rw [Refusals.cut_of_none ht, List.map_cons, ← List.singleton_append, ← List.append_assoc,
            ← hcalls]
          exact hrest.calls

/-! ## Steps -/

theorem publish_transmits (session : Nat) (context : Context) {k : Kind} (hk : k ≠ .invalid)
    (hr : h.Refuses r) :
    Transmits session context r ((BurstStep.telemetry k).script h.platform.bootId h.platform.facts) h
      (h.publish session context k) := by
  have hsome : h.platform.facts.telemetry? h.platform.bootId k =
      some ((BurstStep.telemetry k).script h.platform.bootId h.platform.facts) := by
    rw [BurstStep.script_eq]
    cases k with
    | invalid => exact (hk rfl).elim
    | hardwareInfo | wifiScan | systemStatus | storageUsage => rfl
  unfold publish
  rw [hsome]
  exact transmitAll_transmits session context _ hr

/-- Every step that a burst has transmits what it has to say. -/
theorem burstStep_transmits (session : Nat) {step : BurstStep} (hstep : step ∈ BurstStep.order)
    (hr : h.Refuses r) :
    Transmits session .main r (step.script h.platform.bootId h.platform.facts) h
      (h.burstStep session step) := by
  cases step with
  | telemetry k =>
      refine publish_transmits session .main ?_ hr
      rintro rfl
      revert hstep
      decide
  | osInfo | systemInfo | baseImage | runtimeInfo =>
      rw [BurstStep.script_eq]
      exact transmitAll_transmits session .main _ hr

/-- Steps do not meet: each makes its own calls, as far as these succeed. -/
theorem burstSteps_calls (session : Nat) {steps : List BurstStep}
    (hsteps : ∀ step ∈ steps, step ∈ BurstStep.order) (hr : h.Refuses r) :
    (h.burstSteps session steps).calls = h.calls ++ steps.flatMap fun step =>
      (r.cut (step.script h.platform.bootId h.platform.facts)).map (·.call session .main) := by
  induction steps generalizing h with
  | nil => exact (List.append_nil _).symm
  | cons step rest ih =>
      have hfirst := burstStep_transmits session (hsteps step List.mem_cons_self) hr
      have hsteady := hfirst.steady.trans
        (noteFailure_steady (h.burstStep session step).1 (.burstStepFailed step) _)
      have hrest := ih (fun d hd => hsteps d (List.mem_cons_of_mem step hd)) (hsteady.refuses hr)
      rw [noteFailure_calls, hfirst.calls, hsteady.facts, hsteady.bootId, List.append_assoc] at hrest
      rw [List.flatMap_cons]
      exact hrest

/-! ## The burst -/

/-- Whatever the facts and whichever calls are refused, a burst makes for each of its steps, in their
order, what the step has to say up to the first call that fails, so that a step of which nothing is
refused is made in full. No empty text is said about the device. The environment of the runtime is the
name and the version of the system, with a space between, less the blanks at their end. An object is
published for each partition whose free space is known, in the order of the platform. To publish a
kind ends with the fault of its first call that fails, if one does; the invalid kind is refused
without a call. -/
theorem calls_of_burst (session : Nat) (hr : h.Refuses r) :
    let script := BurstStep.script h.platform.bootId h.platform.facts
    let order : List BurstStep :=
      [.telemetry .hardwareInfo, .osInfo, .systemInfo, .baseImage, .runtimeInfo,
        .telemetry .systemStatus, .telemetry .storageUsage, .telemetry .wifiScan]
    ((h.burst session).calls = h.calls ++
      order.flatMap fun step => (r.cut (script step)).map (·.call session .main)) ∧
    (∀ step ∈ order, (∀ t ∈ script step, r.fault? t = none) →
      (script step).map (·.call session .main) <:+: since h (h.burst session)) ∧
    (∀ step ∈ BurstStep.deviceInfo, ∀ c ∈ since h (h.burstStep session step).2,
      ∃ target s, c = .property session target (.text s) .main ∧ s ≠ "") ∧
    (∃ blanks : List Char,
      (h.platform.facts.os.name ++ " " ++ h.platform.facts.os.version).toList =
        h.platform.facts.environment.toList ++ blanks ∧
      (∀ c ∈ blanks, Text.isBlank c = true) ∧
      ∀ c, h.platform.facts.environment.toList.getLast? = some c → Text.isBlank c = false) ∧
    (script (.telemetry .storageUsage) =
      (h.platform.facts.storage.filter (·.freeBytes.isSome)).map fun usage =>
        .object ⟨"io.edgehog.devicemanager.StorageUsage", "/" ++ usage.label⟩
          [("totalBytes", .longInteger usage.totalBytes),
            ("freeBytes", .longInteger (usage.freeBytes.getD 0))]) ∧
    (∀ context k, k ≠ .invalid →
      (h.publish session context k).1 = .ofFault? ((script (.telemetry k)).findSome? r.fault?) ∧
      (h.publish session context k).2.calls =
        h.calls ++ (r.cut (script (.telemetry k))).map (·.call session context)) ∧
    ∀ context, h.publish session context .invalid = (.error .invalidKind, h) := by
  intro script order
  have hcalls : (h.burst session).calls = h.calls ++
      order.flatMap fun step => (r.cut (script step)).map (·.call session .main) :=
    burstSteps_calls session (fun _ hstep => hstep) hr
  refine ⟨hcalls, fun step hstep hnone => ?_, fun step hstep c hc => ?_,
    h.platform.facts.environment_append, List.map_map, fun context k hk => ?_, fun _ => rfl⟩
  · have hmade : (r.cut (script step)).map (·.call session .main) =
        (script step).map (·.call session .main) := by rw [Refusals.cut_eq_self hnone]
    rw [since_of_calls hcalls, ← hmade, List.flatMap_def]
    exact List.infix_of_mem_flatten (List.mem_map_of_mem hstep)
  · have hsteps : ∀ step ∈ BurstStep.deviceInfo, step ∈ BurstStep.order := by decide
    have htransmits := burstStep_transmits session (hsteps step hstep) hr
    rw [since_of_calls htransmits.calls] at hc
    obtain ⟨t, ht, rfl⟩ := List.mem_map.mp hc
    obtain ⟨target, s, rfl, hs⟩ := BurstStep.text_of_deviceInfo hstep (Refusals.cut_subset ht)
    exact ⟨target, s, rfl, hs⟩
  · have htransmits := publish_transmits session context hk hr
    exact ⟨htransmits.outcome, htransmits.calls⟩

/-- Image and runtime both publish `/name`; where this is refused, neither gets further, and all others
say what they know. The partition whose free space is unknown is left out. Where nothing is refused
the runtime goes on to its environment. -/
theorem burst_of_refused_name :
    let facts : Facts := {
      cpu := { architecture := "arm64" }
      os := { name := "linux", version := "6.1 " }
      image := { name := some "base", version := some "1", fingerprint := some "f" }
      storage := [⟨"data", 100, some 40⟩, ⟨"swap", 50, none⟩, ⟨"boot", 10, some 5⟩] }
    let h : Host := {
      sessions := { publishFault := fun _ path => if path = "/name" then some ⟨3⟩ else none }
      platform := { facts, bootId := "b", scanFault := fun _ => some .startFailed } }
    (h.burst 0).calls =
      [.property 0 ⟨"io.edgehog.devicemanager.HardwareInfo", "/cpu/architecture"⟩ (.text "arm64")
          .main,
        .property 0 ⟨"io.edgehog.devicemanager.OSInfo", "/osName"⟩ (.text "linux") .main,
        .property 0 ⟨"io.edgehog.devicemanager.OSInfo", "/osVersion"⟩ (.text "6.1 ") .main,
        .property 0 ⟨"io.edgehog.devicemanager.BaseImage", "/fingerprint"⟩ (.text "f") .main,
        .property 0 ⟨"io.edgehog.devicemanager.BaseImage", "/name"⟩ (.text "base") .main,
        .property 0 ⟨"io.edgehog.devicemanager.RuntimeInfo", "/name"⟩ (.text "edgehog-device") .main,
        .object 0 ⟨"io.edgehog.devicemanager.SystemStatus", "/systemStatus"⟩
          [("availMemoryBytes", .longInteger 0), ("bootId", .text "b"), ("taskCount", .integer 0),
            ("uptimeMillis", .longInteger 0)] .main,
        .object 0 ⟨"io.edgehog.devicemanager.StorageUsage", "/data"⟩
          [("totalBytes", .longInteger 100), ("freeBytes", .longInteger 40)] .main,
        .object 0 ⟨"io.edgehog.devicemanager.StorageUsage", "/boot"⟩
          [("totalBytes", .longInteger 10), ("freeBytes", .longInteger 5)] .main,
        .wifiScan .main] ∧
      (h.publish 0 .worker .wifiScan).1 = .error .startFailed ∧
      (h.publish 0 .worker .storageUsage).1 = .ok () ∧
      .property 0 ⟨"io.edgehog.devicemanager.RuntimeInfo", "/environment"⟩ (.text "linux 6.1") .main ∈
        ({ h with sessions := {} }.burst 0).calls := by
  intro facts h
  have hr : h.Refuses ⟨fun path => if path = "/name" then some ⟨3⟩ else none, some .startFailed⟩ :=
    ⟨rfl, rfl⟩
  have hopen : ({ h with sessions := {} } : Host).Refuses ⟨fun _ => none, some .startFailed⟩ :=
    ⟨rfl, rfl⟩
  obtain ⟨hcalls, -, -, -, -, hpublish, -⟩ := calls_of_burst 0 hr
  refine ⟨hcalls.trans ?_, ?_, ?_, ?_⟩
  · decide +kernel
  · exact (hpublish .worker .wifiScan (by decide)).1
  · exact (hpublish .worker .storageUsage (by decide)).1.trans (by decide +kernel)
  · rw [(calls_of_burst 0 hopen).1]
    decide +kernel

/-- Nothing is published of the invalid kind, so nothing fails, and still this is a failure. -/
theorem publish_invalid_fails :
    let h : Host := {}
    h.Refuses {} ∧ since h (h.publish 0 .main .invalid).2 = [] ∧
      (h.publish 0 .main .invalid).1 ≠ .ok () :=
  ⟨⟨rfl, rfl⟩, rfl, fun heq => nomatch heq⟩

end Host
end TelemetryAgent
