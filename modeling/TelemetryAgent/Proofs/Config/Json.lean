import Mathlib.Data.List.Nodup
import TelemetryAgent.Config.Json
import TelemetryAgent.Proofs.Json.ReadBack

/-!
# Configurations are read back from their JSON text

A record that was written is read by the names of its fields. So each part of a configuration is
read back from its tree, with every integer as it was, and the whole is read back from its text.
-/
namespace TelemetryAgent

namespace Json

/-! ## Records -/

theorem respelled_array (items : List Json) :
    (array items).respelled = array (items.map respelled) := by
  rw [respelled]
  congr 1
  induction items with
  | nil => rfl
  | cons item items ih => rw [respelledItems, ih, List.map_cons]

theorem respelled_record (members : List (String × Json)) : (record members).respelled =
    object (members.map fun m => ((pieces m.1).map Piece.respelled, m.2.respelled)) := by
  rw [record, respelled]
  congr 1
  induction members with
  | nil => rfl
  | cons m members ih =>
      rw [List.map_cons, respelledMembers, ih]
      rfl

theorem Whole.record {members : List (String × Json)} (hmembers : ∀ m ∈ members, Whole m.2) :
    Whole (record members) := by
  refine .object fun m hm => ?_
  obtain ⟨m, hmem, rfl⟩ := List.mem_map.mp hm
  exact hmembers m hmem

theorem named?_respelled (members : List (String × Json)) :
    named? (members.map fun m => ((pieces m.1).map Piece.respelled, m.2.respelled)) =
      some (members.map fun m => (m.1, m.2.respelled)) := by
  induction members with
  | nil => rfl
  | cons m members ih =>
      unfold pieces at ih ⊢
      simp only [List.map_cons, named?, spelled?_respelled, ih, String.ofList_toList,
        Option.bind_eq_bind, Option.bind_some]
      rfl

theorem single?_of_mem {members : List (String × Json)} (hnodup : (members.map Prod.fst).Nodup)
    {m : String × Json} (hm : m ∈ members) : single? members m.1 = some m.2 := by
  obtain ⟨before, after, rfl⟩ := List.append_of_mem hm
  rw [List.map_append, List.map_cons, List.nodup_middle, List.nodup_cons, List.mem_append,
    not_or] at hnodup
  obtain ⟨⟨hbefore, hafter⟩, -⟩ := hnodup
  have hothers : ∀ others : List (String × Json), m.1 ∉ others.map Prod.fst →
      others.filter (·.1 == m.1) = [] := by
    intro others hnone
    refine List.filter_eq_nil_iff.mpr fun other hother heq => hnone ?_
    exact List.mem_map.mpr ⟨other, hother, by simpa using heq⟩
  have hfilter : (before ++ m :: after).filter (·.1 == m.1) = [m] := by
    rw [List.filter_append, List.filter_cons_of_pos (by simp), hothers before hbefore,
      hothers after hafter, List.nil_append]
  rw [single?, hfilter]

theorem mapM_single? {members fields : List (String × Json)} (hnodup : (members.map Prod.fst).Nodup)
    (hfields : ∀ m ∈ fields, m ∈ members) :
    (fields.map Prod.fst).mapM (single? members) = some (fields.map Prod.snd) := by
  induction fields with
  | nil => rfl
  | cons m fields ih =>
      have hfirst := single?_of_mem hnodup (hfields m List.mem_cons_self)
      have hrest := ih fun m hm => hfields m (List.mem_cons_of_mem _ hm)
      rw [List.map_cons, List.mapM_cons, hfirst, hrest]
      rfl

/-- The fields of a record are found by their names. -/
theorem fields?_record {members : List (String × Json)} (hnodup : (members.map Prod.fst).Nodup) :
    fields? (members.map Prod.fst) (record members).respelled =
      some (members.map fun m => m.2.respelled) := by
  have hnames : members.map Prod.fst = (members.map fun m => (m.1, m.2.respelled)).map Prod.fst := by
    simp
  rw [respelled_record, fields?, named?_respelled]
  rw [hnames] at hnodup ⊢
  rw [Option.bind_eq_bind, Option.bind_some, mapM_single? hnodup fun m hm => hm, List.map_map]
  rfl

/-! ## Integers -/

theorem natural?_natural (n : Nat) : Text.natural? (Text.natural n) = some n :=
  Text.natural?_eq_some_iff.mpr ⟨0, rfl⟩

theorem integer?_integer (i : Int) : (integer i).integer? = some i := by
  cases i with
  | ofNat n =>
      have hread := natural?_natural n
      obtain ⟨c, s, hn, hc⟩ := natural_eq_cons n
      change (number (Text.natural n)).integer? = _
      rw [hn] at hread ⊢
      rw [integer?, hread]
      · rfl
      · rintro digits heq
        obtain ⟨rfl, -⟩ := List.cons.inj heq
        cases hc
  | negSucc n => rw [integer, Text.integer, integer?, natural?_natural (n + 1)]

theorem below?_integer {bound n : Nat} (hn : n < bound) : (integer n).below? bound = some n := by
  rw [below?, integer?_integer]
  exact if_pos hn

theorem long?_integer (i : Int64) : (integer i.toInt).long? = some i := by
  have hrange : Int64.minValue.toInt ≤ i.toInt ∧ i.toInt ≤ Int64.maxValue.toInt :=
    ⟨Int64.minValue_le_toInt i, Int64.toInt_le i⟩
  rw [long?, integer?_integer]
  dsimp only
  rw [if_pos hrange, Int64.ofInt_toInt]

end Json

/-! ## Parts -/

theorem Kind.ofName?_name (k : Kind) : Kind.ofName? k.name = some k := by
  cases k <;> decide

theorem Kind.ofJson?_respelled (k : Kind) : Kind.ofJson? k.toJson.respelled = some k := by
  change Kind.ofPieces? ((k.name.toList.map .char).map Json.Piece.respelled) = some k
  rw [Kind.ofPieces?, Json.spelled?_respelled, Option.bind_some, String.ofList_toList,
    Kind.ofName?_name]

namespace BaselineItem

theorem whole_toJson (item : BaselineItem) : Json.Whole item.toJson := by
  refine .record ?_
  simp only [List.forall_mem_cons]
  exact ⟨.string _, .integer _, nofun⟩

theorem ofJson?_respelled (item : BaselineItem) : ofJson? item.toJson.respelled = some item := by
  have hnodup : ["kind", "period_seconds"].Nodup := by decide
  have hfields : Json.fields? ["kind", "period_seconds"] item.toJson.respelled =
      some [item.kind.toJson.respelled, .integer item.period.toInt] :=
    @Json.fields?_record [("kind", _), ("period_seconds", _)] hnodup
  rw [ofJson?, hfields]
  dsimp only
  rw [Kind.ofJson?_respelled, Json.long?_integer]
  rfl

theorem mapM_ofJson? (items : List BaselineItem) :
    (items.map fun item => item.toJson.respelled).mapM ofJson? = some items := by
  induction items with
  | nil => rfl
  | cons item items ih =>
      rw [List.map_cons, List.mapM_cons, ofJson?_respelled, ih]
      rfl

end BaselineItem

namespace WorkerConfig

theorem whole_toJson (w : WorkerConfig) : Json.Whole w.toJson := by
  refine .record ?_
  simp only [List.forall_mem_cons]
  exact ⟨.integer _, .integer _, .integer _, nofun⟩

theorem ofJson?_respelled (w : WorkerConfig) : ofJson? w.toJson.respelled = some w := by
  have hnodup : ["queue_poll_interval_ms", "stack_size_bytes", "priority"].Nodup := by decide
  have hfields : Json.fields? ["queue_poll_interval_ms", "stack_size_bytes", "priority"]
      w.toJson.respelled = some [.integer w.pollMillis.toNat, .integer w.stackBytes.toNat,
        .integer w.priority.toNat] :=
    @Json.fields?_record [("queue_poll_interval_ms", _), ("stack_size_bytes", _), ("priority", _)]
      hnodup
  rw [ofJson?, hfields]
  dsimp only
  rw [Json.below?_integer w.pollMillis.toNat_lt, Json.below?_integer w.stackBytes.toNat_lt,
    Json.below?_integer w.priority.toNat_lt]
  simp

end WorkerConfig

/-! ## The whole -/

namespace Config

theorem whole_toJson (c : Config) : Json.Whole c.toJson := by
  refine .record ?_
  simp only [List.forall_mem_cons]
  refine ⟨.array fun j hj => ?_, c.worker.whole_toJson, .integer _, nofun⟩
  obtain ⟨item, -, rfl⟩ := List.mem_map.mp hj
  exact item.whole_toJson

theorem ofJson?_respelled (c : Config) : ofJson? c.toJson.respelled = some c := by
  have hnodup : ["telemetry", "worker", "disconnect_timeout_ms"].Nodup := by decide
  have hfields : Json.fields? ["telemetry", "worker", "disconnect_timeout_ms"] c.toJson.respelled =
      some [.array (c.telemetry.map fun item => item.toJson.respelled), c.worker.toJson.respelled,
        .integer c.disconnectMillis.toNat] := by
    have hrecord := @Json.fields?_record [("telemetry", .array (c.telemetry.map BaselineItem.toJson)),
      ("worker", c.worker.toJson), ("disconnect_timeout_ms", .integer c.disconnectMillis.toNat)]
      hnodup
    simp only [List.map_cons, List.map_nil, Json.respelled_array, List.map_map] at hrecord
    exact hrecord
  rw [ofJson?, hfields]
  dsimp only
  rw [BaselineItem.mapM_ofJson?, WorkerConfig.ofJson?_respelled,
    Json.below?_integer c.disconnectMillis.toNat_lt]
  simp

/-- A configuration is read back from its text: the baseline as long as it is and in its order, with
every kind, and every integer exactly. -/
theorem parse?_write (c : Config) : parse? c.toJson.write = some c := by
  rw [parse?, Json.write, String.toList_ofList, Json.parse?_render c.whole_toJson,
    Option.bind_some, ofJson?_respelled]

example : (toJson { telemetry := [⟨.wifiScan, Int64.minValue⟩] }).write =
    "\x7b\"telemetry\":[\x7b\"kind\":\"WifiScan\",\"period_seconds\":-9223372036854775808\x7d]," ++
      "\"worker\":\x7b\"queue_poll_interval_ms\":100,\"stack_size_bytes\":4096,\"priority\":5\x7d," ++
      "\"disconnect_timeout_ms\":0\x7d" := by
  decide +kernel

end Config
end TelemetryAgent
