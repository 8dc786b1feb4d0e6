import TelemetryAgent.Config.Binary
import TelemetryAgent.Proofs.Wire.Varint

/-!
# Configurations are read back from their bytes

Each part of a configuration is read back from the bytes it was written as, whatever follows them,
and so is the whole. Since a reader finds the end by itself, the bytes of one configuration are not
the beginning of those of another.
-/
namespace TelemetryAgent

open Wire

/-! ## Words -/

namespace Wire

theorem read?_write_word32 (n : UInt32) (rest : Bytes) :
    read? .word32 (write .word32 n.toNat ++ rest) = some (n.toNat, rest) := by
  have hfits : n.toNat < limit Width.word32.top 4 := limit_word32 ▸ n.toNat_lt
  exact decode?_encode (by decide) 4 n.toNat hfits rest

theorem read?_write_word64 {n : Nat} (hn : n < UInt64.size) (rest : Bytes) :
    read? .word64 (write .word64 n ++ rest) = some (n, rest) := by
  have hfits : n < limit Width.word64.top 9 := limit_word64 ▸ hn
  exact decode?_encode (by decide) 9 n hfits rest

end Wire

/-! ## Parts -/

theorem Kind.getElem?_all (k : Kind) : Kind.all[k.ordinal]? = some k := by
  cases k <;> rfl

theorem Kind.decode?_encode (k : Kind) (rest : Bytes) :
    Kind.decode? (k.encode ++ rest) = some (k, rest) := by
  have hordinal : k.ordinal = (UInt32.ofNat k.ordinal).toNat := by
    cases k <;> rfl
  have hread : read? .word32 (k.encode ++ rest) = some (k.ordinal, rest) := by
    rw [Kind.encode, hordinal]
    exact read?_write_word32 _ rest
  simp only [Kind.decode?, hread, Option.bind_eq_bind, Option.bind_some, k.getElem?_all]
  rfl

theorem BaselineItem.decode?_encode (item : BaselineItem) (rest : Bytes) :
    BaselineItem.decode? (item.encode ++ rest) = some (item, rest) := by
  rw [BaselineItem.encode, List.append_assoc]
  simp only [BaselineItem.decode?, Kind.decode?_encode, readLong?_writeLong, Option.bind_eq_bind,
    Option.bind_some]
  rfl

theorem BaselineItem.decodeMany?_encode (items : List BaselineItem) (rest : Bytes) :
    BaselineItem.decodeMany? items.length (items.flatMap BaselineItem.encode ++ rest) =
      some (items, rest) := by
  induction items with
  | nil => rfl
  | cons item items ih =>
      rw [List.length_cons, List.flatMap_cons, List.append_assoc]
      simp only [BaselineItem.decodeMany?, BaselineItem.decode?_encode, ih, Option.bind_eq_bind,
        Option.bind_some]
      rfl

theorem WorkerConfig.decode?_encode (w : WorkerConfig) (rest : Bytes) :
    WorkerConfig.decode? (w.encode ++ rest) = some (w, rest) := by
  rw [WorkerConfig.encode, List.append_assoc, List.append_assoc]
  simp only [WorkerConfig.decode?, read?_write_word32, read?_write_word64 w.stackBytes.toNat_lt,
    Option.bind_eq_bind, Option.bind_some, List.singleton_append, readByte?, UInt32.ofNat_toNat,
    UInt64.ofNat_toNat]
  rfl

/-! ## The whole -/

namespace Config

variable {c d : Config}

/-- The number of lines is written as a 64-bit number. -/
theorem decode?_encode (hc : c.telemetry.length < UInt64.size) (rest : Bytes) :
    decode? (c.encode ++ rest) = some (c, rest) := by
  rw [encode, List.append_assoc, List.append_assoc, List.append_assoc]
  simp only [decode?, read?_write_word64 hc, BaselineItem.decodeMany?_encode,
    WorkerConfig.decode?_encode, read?_write_word32, Option.bind_eq_bind, Option.bind_some,
    UInt32.ofNat_toNat]
  rfl

theorem eq_of_begins (hc : c.telemetry.length < UInt64.size) (hd : d.telemetry.length < UInt64.size)
    (hbegins : c.encode <+: d.encode) : d = c := by
  obtain ⟨rest, hrest⟩ := hbegins
  have hread := decode?_encode hc rest
  rw [hrest, ← List.append_nil d.encode, decode?_encode hd] at hread
  exact congrArg Prod.fst (Option.some.inj hread)

/-- A configuration is read back from its bytes, with exactly what follows them left over; so of two
different configurations neither one's bytes begin with the other's. A length is a number of 64 bits:
no list that a machine can hold is longer. -/
theorem read_back_of_encode (hc : c.telemetry.length < UInt64.size) :
    (∀ rest, decode? (c.encode ++ rest) = some (c, rest)) ∧
      ∀ d : Config, d.telemetry.length < UInt64.size → d ≠ c →
        ¬ c.encode <+: d.encode ∧ ¬ d.encode <+: c.encode := by
  refine ⟨decode?_encode hc, fun d hd hne => ?_⟩
  constructor
  · intro hbegins
    exact hne (eq_of_begins hc hd hbegins)
  · intro hbegins
    exact hne (eq_of_begins hd hc hbegins).symm

/-- A baseline that no agent would take is read back too, with the extreme values of every field. -/
theorem read_back_of_extremes :
    let c : Config :=
      { telemetry := [⟨.invalid, Int64.minValue⟩, ⟨.wifiScan, Int64.maxValue⟩, ⟨.wifiScan, -1⟩]
        worker := ⟨4294967295, 18446744073709551615, 255⟩
        disconnectMillis := 4294967295 }
    let d : Config := { c with telemetry := c.telemetry.take 2 }
    c.telemetry.length < UInt64.size ∧ d.telemetry.length < UInt64.size ∧ d ≠ c ∧
      decode? (c.encode ++ [128, 255]) = some (c, [128, 255]) ∧ ¬ d.encode <+: c.encode := by
  intro c d
  have hc : c.telemetry.length < UInt64.size := by decide
  have hd : d.telemetry.length < UInt64.size := by decide
  have hne : d ≠ c := by decide
  obtain ⟨hread, hapart⟩ := read_back_of_encode hc
  exact ⟨hc, hd, hne, hread [128, 255], (hapart d hd hne).2⟩

end Config
end TelemetryAgent
