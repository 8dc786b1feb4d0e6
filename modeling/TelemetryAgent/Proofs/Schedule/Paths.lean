import TelemetryAgent.Schedule.Request

/-!
# The paths that requests have

A path asks for a field of a kind if it is the root of all requests, the interface of the kind, and
one more segment, the name of the field. These paths are read, each to the one kind and the one name
that it is made of, and no others.
-/
namespace TelemetryAgent

/-! ## Interfaces -/

namespace Kind

/-- An interface is found exactly for the kind that is published on it. -/
theorem ofInterface?_eq_some_iff {interface : String} {k : Kind} :
    ofInterface? interface = some k ↔ k.interface? = some interface := by
  constructor
  · intro hfound
    have hk := List.find?_some hfound
    exact eq_of_beq hk
  · intro hk
    cases k with
    | invalid => cases hk
    | hardwareInfo | wifiScan | systemStatus | storageUsage =>
        cases hk
        decide +kernel

theorem interface?_injective {j k : Kind} {interface : String} (hj : j.interface? = some interface)
    (hk : k.interface? = some interface) : j = k :=
  Option.some.inj
    ((ofInterface?_eq_some_iff.mpr hj).symm.trans (ofInterface?_eq_some_iff.mpr hk))

theorem ne_invalid_of_interface? {k : Kind} {interface : String}
    (hk : k.interface? = some interface) : k ≠ .invalid := by
  rintro rfl
  cases hk

/-- An interface is one segment of a path. -/
theorem segment_of_interface? {k : Kind} {interface : String} (hk : k.interface? = some interface) :
    interface.toList ≠ [] ∧ '/' ∉ interface.toList := by
  cases k with
  | invalid => cases hk
  | hardwareInfo | wifiScan | systemStatus | storageUsage =>
      cases hk
      decide +kernel

end Kind

/-! ## Fields -/

inductive ConfigField.Named : String → ConfigField → Prop
  | enable : Named "enable" .enable
  | periodSeconds : Named "periodSeconds" .periodSeconds
  | other {name : String} : name ≠ "enable" → name ≠ "periodSeconds" → Named name .other

theorem ConfigField.named_iff {name : String} {f : ConfigField} :
    Named name f ↔ f = ofName name.toList := by
  have hlists (s : String) : name.toList = s.toList ↔ name = s := String.toList_inj
  constructor
  · intro hnamed
    cases hnamed with
    | enable | periodSeconds => decide
    | other henable hperiod =>
        rw [ofName, if_neg (mt (hlists "enable").mp henable),
          if_neg (mt (hlists "periodSeconds").mp hperiod)]
  · rintro rfl
    unfold ofName
    split
    · rename_i henable
      rw [(hlists "enable").mp henable]
      exact .enable
    · rename_i henable
      split
      · rename_i hperiod
        rw [(hlists "periodSeconds").mp hperiod]
        exact .periodSeconds
      · rename_i hperiod
        exact .other (mt (hlists "enable").mpr henable) (mt (hlists "periodSeconds").mpr hperiod)

/-! ## Paths -/

namespace Request

def path (interface name : String) : String := "/request/" ++ interface ++ "/" ++ name

/-- The path asks for the field of this name of the kind. -/
inductive Asks : String → Kind → String → Prop
  | of {k : Kind} {interface name : String} : k.interface? = some interface → name ≠ "" →
      '/' ∉ name.toList → Asks (path interface name) k name

theorem path_toList (interface name : String) :
    (path interface name).toList = root ++ (interface.toList ++ '/' :: name.toList) := by
  have hslash : "/".toList = ['/'] := by decide
  rw [path, String.toList_append, String.toList_append, String.toList_append, hslash,
    List.append_assoc, List.append_assoc]
  rfl

/-- What is read of a path: the first segment after the root, which has to be an interface, and the
rest, which has to be one more. -/
theorem read?_eq_some_iff {cs : List Char} {k : Kind} {f : ConfigField} :
    read? cs = some (k, f) ↔ ∃ interface name, cs = root ++ (interface ++ '/' :: name) ∧
      k.interface? = some (String.ofList interface) ∧ name ≠ [] ∧ '/' ∉ name ∧
      f = ConfigField.ofName name := by
  constructor
  · intro hread
    obtain ⟨rest, hafter, hread⟩ := Option.bind_eq_some_iff.mp hread
    obtain ⟨⟨interface, name⟩, hsplit, hread⟩ := Option.bind_eq_some_iff.mp hread
    dsimp only at hread
    split at hread
    · cases hread
    · rename_i hsegments
      obtain ⟨j, hj, hread⟩ := Option.bind_eq_some_iff.mp hread
      cases hread
      rw [not_or, not_or] at hsegments
      obtain ⟨-, hname, hplain⟩ := hsegments
      obtain ⟨rfl, -⟩ := Text.eq_of_splitFirst hsplit
      exact ⟨interface, name, Text.after?_eq_some_iff.mp hafter, Kind.ofInterface?_eq_some_iff.mp hj,
        hname, hplain, rfl⟩
  · rintro ⟨interface, name, rfl, hk, hname, hplain, rfl⟩
    obtain ⟨hinterface, hsegment⟩ := Kind.segment_of_interface? hk
    rw [String.toList_ofList] at hinterface hsegment
    have hafter : Text.after? root (root ++ (interface ++ '/' :: name)) =
        some (interface ++ '/' :: name) := Text.after?_eq_some_iff.mpr rfl
    have hsegments : ¬ (interface = [] ∨ name = [] ∨ '/' ∈ name) := by
      simp only [not_or]
      exact ⟨hinterface, hname, hplain⟩
    simp only [read?, hafter, Option.bind_eq_bind, Option.bind_some,
      Text.splitFirst_append hsegment, if_neg hsegments, Kind.ofInterface?_eq_some_iff.mpr hk]
    rfl

theorem parse_eq_ok_iff {p : String} {k : Kind} {f : ConfigField} :
    parse p = .ok (k, f) ↔ ∃ name, Asks p k name ∧ ConfigField.Named name f := by
  have hread : parse p = .ok (k, f) ↔ read? p.toList = some (k, f) := by
    unfold parse
    split
    · rename_i request hsome
      rw [hsome]
      simp
    · rename_i hnone
      rw [hnone]
      simp
  rw [hread, read?_eq_some_iff]
  constructor
  · rintro ⟨interface, name, hp, hk, hname, hplain, rfl⟩
    refine ⟨String.ofList name, ?_, ConfigField.named_iff.mpr (by rw [String.toList_ofList])⟩
    have hpath : p = path (String.ofList interface) (String.ofList name) := by
      rw [← String.toList_inj, path_toList, String.toList_ofList, String.toList_ofList, hp]
    have hne : String.ofList name ≠ "" := by
      rw [ne_eq, ← String.toList_inj, String.toList_ofList]
      exact hname
    rw [hpath]
    exact .of hk hne (by rwa [String.toList_ofList])
  · rintro ⟨name, hasks, hnamed⟩
    cases hasks with
    | @of _ interface _ hk hname hplain =>
        refine ⟨interface.toList, name.toList, path_toList interface name, ?_, ?_, hplain,
          ConfigField.named_iff.mp hnamed⟩
        · rw [String.ofList_toList]
          exact hk
        · rw [ne_eq, ← String.toList_inj] at hname
          exact hname

/-- A path asks for one field of one kind. -/
theorem Asks.unique {p : String} {j k : Kind} {name other : String} (hj : Asks p j other)
    (hk : Asks p k name) : j = k ∧ other = name := by
  cases hj with
  | @of _ interface _ hj _ _ =>
      generalize hp : path interface other = p at hk
      cases hk with
      | @of _ interface' _ hk _ _ =>
          rw [← String.toList_inj, path_toList, path_toList] at hp
          -- the first slash after the root ends the interface on both sides
          have hcut := congrArg (Text.splitFirst '/') (List.append_cancel_left hp)
          rw [Text.splitFirst_append (Kind.segment_of_interface? hj).2,
            Text.splitFirst_append (Kind.segment_of_interface? hk).2] at hcut
          obtain ⟨hinterface, hname⟩ := Prod.mk.inj (Option.some.inj hcut)
          rw [String.toList_inj.mp hinterface] at hj
          exact ⟨Kind.interface?_injective hj hk, String.toList_inj.mp hname⟩

theorem Asks.ne_invalid {p : String} {k : Kind} {name : String} (hasks : Asks p k name) :
    k ≠ .invalid := by
  cases hasks with
  | of hk => exact Kind.ne_invalid_of_interface? hk

theorem parse_error {p : String} {fault : Fault} (hp : parse p = .error fault) :
    fault = .unsupportedRequest := by
  unfold parse at hp
  split at hp
  · cases hp
  · exact (Except.error.inj hp).symm

/-- Exactly the paths that ask for a field are read, and every other is not supported. What a path
asks for is determined by the path, and never of the invalid kind; so a path that is put together
from a kind and a name is read back as these. -/
theorem parse_iff_asks :
    (∀ p, (∀ k f, parse p = .ok (k, f) ↔ ∃ name, Asks p k name ∧ ConfigField.Named name f) ∧
      (parse p = .error .unsupportedRequest ↔ ∀ k name, ¬ Asks p k name) ∧
      (∀ fault, parse p = .error fault → fault = .unsupportedRequest) ∧
      ∀ k name, Asks p k name → k ≠ .invalid ∧
        ∀ j other, Asks p j other → j = k ∧ other = name) ∧
      ∀ k interface name f, k.interface? = some interface → name ≠ "" → '/' ∉ name.toList →
        ConfigField.Named name f →
        Asks ("/request/" ++ interface ++ "/" ++ name) k name ∧
          parse ("/request/" ++ interface ++ "/" ++ name) = .ok (k, f) := by
  constructor
  · intro p
    refine ⟨fun k f => parse_eq_ok_iff, ⟨fun hp k name hasks => ?_, fun hnone => ?_⟩,
      fun fault => parse_error, fun k name hasks =>
        ⟨hasks.ne_invalid, fun j other hother => hother.unique hasks⟩⟩
    · have hok : parse p = .ok (k, ConfigField.ofName name.toList) :=
        parse_eq_ok_iff.mpr ⟨name, hasks, ConfigField.named_iff.mpr rfl⟩
      cases hok.symm.trans hp
    · cases hp : parse p with
      | error fault => rw [parse_error hp]
      | ok request =>
          obtain ⟨k, f⟩ := request
          obtain ⟨name, hasks, -⟩ := parse_eq_ok_iff.mp hp
          exact (hnone k name hasks).elim
  · intro k interface name f hk hname hplain hnamed
    have hasks : Asks (path interface name) k name := .of hk hname hplain
    exact ⟨hasks, parse_eq_ok_iff.mpr ⟨name, hasks, hnamed⟩⟩

/-- A name that a known one begins is another name, and a known name with more after it is none. -/
theorem parse_longer_names :
    let wifi := "io.edgehog.devicemanager.WiFiScanResults"
    let deeper := "/request/io.edgehog.devicemanager.SystemStatus/enable/extra"
    Kind.interface? .wifiScan = some wifi ∧ "enabled" ≠ "" ∧ '/' ∉ "enabled".toList ∧
      ConfigField.Named "enabled" .other ∧
      parse ("/request/" ++ wifi ++ "/" ++ "enabled") = .ok (.wifiScan, .other) ∧
      parse deeper = .error .unsupportedRequest ∧ ∀ k name, ¬ Asks deeper k name := by
  intro wifi deeper
  have hne : "enabled" ≠ "" := by decide
  have hplain : '/' ∉ "enabled".toList := by decide
  have hnamed : ConfigField.Named "enabled" .other := .other (by decide) (by decide)
  have hrefused : parse deeper = .error .unsupportedRequest := by decide +kernel
  obtain ⟨hread, hbuilt⟩ := parse_iff_asks
  obtain ⟨-, hunread, -⟩ := hread deeper
  exact ⟨rfl, hne, hplain, hnamed, (hbuilt .wifiScan wifi "enabled" .other rfl hne hplain hnamed).2,
    hrefused, hunread.mp hrefused⟩

end Request
end TelemetryAgent
