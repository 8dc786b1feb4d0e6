import TelemetryAgent.Proofs.Schedule.Writing
import TelemetryAgent.Proofs.Host.Calls
import TelemetryAgent.Proofs.Settings.Spelling

/-!
# What a leaf is read as

A leaf is read as a setting exactly if its key names the field and its value begins with one of this
field. Any other key names nothing, whatever its value is, and under a good key any other value is
corrupted. What is written of an entry is read as this entry.
-/
namespace TelemetryAgent

namespace Setting

variable {key leaf : String} {value : Bytes} {k : Kind}

theorem decode_invalid_iff :
    decode key value = .error .invalidKind ↔ ∀ k leaf, ¬ Names key k leaf := by
  constructor
  · intro hd k leaf hnames
    rcases decode_of_names hnames value with ⟨s, -, -, hok⟩ | ⟨-, hcorrupted⟩
    · cases hok.symm.trans hd
    · cases hcorrupted.symm.trans hd
  · intro hnone
    exact decode_of_not_names hnone value

theorem decode_corrupted_iff :
    decode key value = .error (.settings .corrupted) ↔ ∃ k leaf, Names key k leaf ∧
      ∀ s : Setting, s.leafName = leaf → ¬ Begins value s := by
  constructor
  · intro hd
    by_cases hsome : ∃ k leaf, Names key k leaf
    · obtain ⟨k, leaf, hnames⟩ := hsome
      rcases decode_of_names hnames value with ⟨s, -, -, hok⟩ | ⟨hno, -⟩
      · cases hok.symm.trans hd
      · exact ⟨k, leaf, hnames, hno⟩
    · have hnone := decode_of_not_names (fun k leaf hnames => hsome ⟨k, leaf, hnames⟩) value
      cases hnone.symm.trans hd
  · rintro ⟨k, leaf, hnames, hno⟩
    rcases decode_of_names hnames value with ⟨s, hleaf, hbegins, -⟩ | ⟨-, hcorrupted⟩
    · exact (hno s hleaf hbegins).elim
    · exact hcorrupted

theorem decode_error {f : Fault} (hd : decode key value = .error f) :
    f = .invalidKind ∨ f = .settings .corrupted := by
  by_cases hsome : ∃ k leaf, Names key k leaf
  · obtain ⟨k, leaf, hnames⟩ := hsome
    rcases decode_of_names hnames value with ⟨s, -, -, hok⟩ | ⟨-, hcorrupted⟩
    · cases hok.symm.trans hd
    · exact .inr (Except.error.inj (hd.symm.trans hcorrupted))
  · have hnone := decode_of_not_names (fun k leaf hnames => hsome ⟨k, leaf, hnames⟩) value
    exact .inl (Except.error.inj (hd.symm.trans hnone))

end Setting

/-! ## What is written of an entry -/

/-- The flag of an entry is written after its period, if the period has been. -/
theorem Host.since_persist (e : Entry) (h : Host) :
    let save (s : Setting) := Call.save Setting.subtree (s.key e.kind) s.encode
    since h (h.persist e) =
      if h.settings.saveFault h.settings.saves = none then
        [save (.period e.period), save (.enable e.enabled)]
      else [save (.period e.period)] := by
  intro save
  obtain ⟨n, htakes, -, hcalls⟩ := saveSettings_takes e.kind e.settings h
  rw [← calls_of_persist] at hcalls
  rw [since_of_calls hcalls]
  split
  · rename_i hsaves
    have hn : n ≠ 0 := fun hzero => htakes.next (hzero ▸ Nat.succ_pos 1) (hzero ▸ hsaves)
    rw [List.take_of_length_le (Nat.succ_le_succ (Nat.pos_of_ne_zero hn))]
    rfl
  · rename_i hfails
    have hn : n = 0 := Nat.eq_zero_of_not_pos fun hpos => hfails (htakes.before 0 hpos)
    rw [hn]
    rfl

namespace Setting

/-- A leaf is read as a setting exactly if its key names the field of the kind and its value begins
with the setting. It is refused for its key if that names no field, and else for its value. What is
written of an entry is read as its period and its flag; there are no entries of the invalid kind. -/
theorem decode_iff_names :
    (∀ key value k s, decode key value = .ok (k, s) ↔ Names key k s.leafName ∧ Begins value s) ∧
      (∀ key value, decode key value = .error .invalidKind ↔ ∀ k leaf, ¬ Names key k leaf) ∧
      (∀ key value, decode key value = .error (.settings .corrupted) ↔
        ∃ k leaf, Names key k leaf ∧ ∀ s : Setting, s.leafName = leaf → ¬ Begins value s) ∧
      (∀ key value f, decode key value = .error f →
        f = .invalidKind ∨ f = .settings .corrupted) ∧
      ∀ (e : Entry) (h : Host), e.kind ≠ .invalid → ∃ periods enable : String × Bytes,
        decode periods.1 periods.2 = .ok (e.kind, .period e.period) ∧
          decode enable.1 enable.2 = .ok (e.kind, .enable e.enabled) ∧
          Host.since h (h.persist e) =
            if h.settings.saveFault h.settings.saves = none then
              [.save subtree periods.1 periods.2, .save subtree enable.1 enable.2]
            else [.save subtree periods.1 periods.2] := by
  refine ⟨fun _ _ _ _ => decode_eq_ok_iff, fun _ _ => decode_invalid_iff,
    fun _ _ => decode_corrupted_iff, fun _ _ _ => decode_error, fun e h hk => ?_⟩
  have hread (s : Setting) : decode (s.key e.kind) s.encode = .ok (e.kind, s) :=
    decode_eq_ok_iff.mpr ⟨names_key hk s, List.append_nil s.encode ▸ begins_encode s []⟩
  exact ⟨(key e.kind (.period e.period), encode (.period e.period)),
    (key e.kind (.enable e.enabled), encode (.enable e.enabled)), hread _, hread _,
    Host.since_persist e h⟩

/-- The least period of all is read from the longest of its varints, under a key with a sign and a
zero; one more unit in the last byte corrupts it, and a key of a fifth kind is invalid whatever it
holds. The least period is written and read back. -/
theorem decode_spelled_period :
    let longest : Bytes := [255, 255, 255, 255, 255, 255, 255, 255, 255, 1, 7]
    let e : Entry := ⟨.systemStatus, Int64.minValue, true, none⟩
    e.kind ≠ .invalid ∧
      (Names "+03/periods" .systemStatus "periods" ∧ Begins longest (.period Int64.minValue)) ∧
      decode "+03/periods" longest = .ok (.systemStatus, .period Int64.minValue) ∧
      decode "+03/periods" (longest.set 9 2) = .error (.settings .corrupted) ∧
      (∀ k leaf, ¬ Names "5/periods" k leaf) ∧ decode "5/periods" longest = .error .invalidKind ∧
      ∃ key value, .save subtree key value ∈ Host.since {} (Host.persist e {}) ∧
        decode key value = .ok (.systemStatus, .period Int64.minValue) := by
  intro longest e
  have hk : e.kind ≠ .invalid := by decide
  obtain ⟨hok, hinvalid, -, -, hwritten⟩ := decode_iff_names
  have hlongest : decode "+03/periods" longest = .ok (.systemStatus, .period Int64.minValue) := by
    decide +kernel
  have hunnamed : decode "5/periods" longest = .error .invalidKind := by decide +kernel
  obtain ⟨periods, enable, hperiods, -, hsince⟩ := hwritten e {} hk
  refine ⟨hk, (hok _ _ _ _).mp hlongest, hlongest, by decide +kernel, (hinvalid _ _).mp hunnamed,
    hunnamed, periods.1, periods.2, ?_, hperiods⟩
  rw [hsince, if_pos rfl]
  exact List.mem_cons_self

end Setting
end TelemetryAgent
