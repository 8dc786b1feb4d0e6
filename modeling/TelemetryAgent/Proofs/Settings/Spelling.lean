import TelemetryAgent.Proofs.Text.Numeral
import TelemetryAgent.Proofs.Wire.Varint
import TelemetryAgent.Schedule.Setting

/-!
# Spellings of a key

What keys and values stand for a setting. A setting is read back from the leaf it was written as.
Other keys can stand for the same setting, with a plus sign or zeros before the ordinal; all of them
come before the one that is written.
-/
namespace TelemetryAgent

namespace Kind

theorem of_ofOrdinal? {n : Nat} {k : Kind} (h : ofOrdinal? n = some k) :
    n = k.ordinal ∧ 0 < n ∧ n < 10 := by
  unfold ofOrdinal? at h
  split at h <;> cases h <;> exact ⟨rfl, by decide, by decide⟩

theorem ofOrdinal?_ordinal {k : Kind} (hk : k ≠ .invalid) : ofOrdinal? k.ordinal = some k := by
  cases k with
  | invalid => exact (hk rfl).elim
  | hardwareInfo | wifiScan | systemStatus | storageUsage => rfl

theorem ordinal_injective {j k : Kind} (h : j.ordinal = k.ordinal) : j = k := by
  cases j <;> cases k <;> first | rfl | cases h

theorem ordinal_lt (k : Kind) : k.ordinal < 10 := by
  cases k <;> decide

end Kind

namespace Setting

def leafName : Setting → String
  | .period _ => "periods"
  | .enable _ => "enable"

theorem leafName_ne (seconds : Int64) (flag : Bool) :
    (Setting.enable flag).leafName ≠ (Setting.period seconds).leafName := by
  have hnames : "enable" ≠ "periods" := by decide
  exact hnames

theorem key_toList (k : Kind) (s : Setting) :
    (s.key k).toList = Text.natural k.ordinal ++ '/' :: s.leafName.toList := by
  cases s with
  | period seconds =>
      have hname : "/periods".toList = '/' :: "periods".toList := by decide
      exact String.toList_ofList.trans (congrArg _ hname)
  | enable flag =>
      have hname : "/enable".toList = '/' :: "enable".toList := by decide
      exact String.toList_ofList.trans (congrArg _ hname)

theorem natural_ordinal (k : Kind) : Text.natural k.ordinal = [k.ordinal.digitChar] :=
  Text.natural_of_lt k.ordinal_lt

theorem readOrdinal?_ordinal (k : Kind) : readOrdinal? (Text.natural k.ordinal) = some k.ordinal := by
  cases k <;> decide

theorem splitFirst_key (k : Kind) (s : Setting) : Text.splitFirst '/' (s.key k).toList =
    some (Text.natural k.ordinal, s.leafName.toList) := by
  have hplain : '/' ∉ Text.natural k.ordinal := fun hmem =>
    absurd (Text.isDigit_of_mem_natural hmem) (by decide)
  rw [key_toList]
  exact Text.splitFirst_append hplain

/-- Keys are the same for the same kind and the same field. -/
theorem key_eq_iff {j k : Kind} {s t : Setting} :
    s.key j = t.key k ↔ j = k ∧ s.leafName = t.leafName := by
  constructor
  · intro heq
    have hsplit := splitFirst_key j s
    rw [heq, splitFirst_key] at hsplit
    obtain ⟨hordinal, hleaf⟩ := Prod.mk.inj (Option.some.inj hsplit)
    have hread := readOrdinal?_ordinal j
    rw [← hordinal, readOrdinal?_ordinal] at hread
    exact ⟨(Kind.ordinal_injective (Option.some.inj hread)).symm,
      (String.toList_inj.mp hleaf).symm⟩
  · rintro ⟨rfl, hleaf⟩
    rw [← String.toList_inj, key_toList, key_toList, hleaf]

/-! ## What is read -/

/-- A text of the ordinal of a kind: perhaps a plus sign, zeros, and the numeral. -/
inductive Spells : List Char → Kind → Prop
  | of {k : Kind} {sign : List Char} (zeros : Nat) : k ≠ .invalid → sign = [] ∨ sign = ['+'] →
      Spells (sign ++ (List.replicate zeros '0' ++ Text.natural k.ordinal)) k

/-- The key names a field of a kind: a text of the ordinal, a slash, and the name of the field. -/
inductive Names : String → Kind → String → Prop
  | of {key leaf : String} {ordinal : List Char} {k : Kind} : Spells ordinal k →
      leaf = "periods" ∨ leaf = "enable" → key.toList = ordinal ++ '/' :: leaf.toList →
      Names key k leaf

/-- The bytes begin with the value of a setting: a period as a varint of its number, a flag as one
byte. -/
inductive Begins : Bytes → Setting → Prop
  | period {varint rest : Bytes} {seconds : Int64} : Wire.IsVarint varint → varint.length ≤ 10 →
      Wire.value varint < UInt64.size → Wire.value varint = Wire.zigzag seconds.toInt →
      Begins (varint ++ rest) (.period seconds)
  | enable {flag : Bool} {rest : Bytes} : Begins ((if flag then 1 else 0) :: rest) (.enable flag)

theorem readOrdinal?_signed (digits : List Char) :
    readOrdinal? ('+' :: digits) = (Text.natural? digits).filter (· < 256) := by
  simp only [readOrdinal?]
  cases Text.natural? digits with
  | none => rfl
  | some n => simp [Option.filter]

theorem readOrdinal?_unsigned {text : List Char} (hplain : ∀ digits, text ≠ '+' :: digits) :
    readOrdinal? text = (Text.natural? text).filter (· < 256) := by
  unfold readOrdinal?
  split
  · rename_i digits
    exact (hplain digits rfl).elim
  · dsimp only
    cases Text.natural? text with
    | none => rfl
    | some n => simp [Option.filter]

theorem readOrdinal?_eq_some_iff {text : List Char} {n : Nat} :
    readOrdinal? text = some n ↔ n < 256 ∧ ∃ sign zeros, (sign = [] ∨ sign = ['+']) ∧
      text = sign ++ (List.replicate zeros '0' ++ Text.natural n) := by
  have hrun (digits : List Char) : (Text.natural? digits).filter (· < 256) = some n ↔
      n < 256 ∧ ∃ zeros, digits = List.replicate zeros '0' ++ Text.natural n := by
    rw [Option.filter_eq_some_iff, Text.natural?_eq_some_iff, decide_eq_true_eq, and_comm]
  by_cases hsigned : ∃ digits, text = '+' :: digits
  · obtain ⟨digits, rfl⟩ := hsigned
    rw [readOrdinal?_signed, hrun]
    constructor
    · rintro ⟨hlt, zeros, rfl⟩
      exact ⟨hlt, ['+'], zeros, .inr rfl, rfl⟩
    · rintro ⟨hlt, sign, zeros, rfl | rfl, htext⟩
      · -- a run of digits does not begin with a sign
        have hplus : '+' ∈ List.replicate zeros '0' ++ Text.natural n := by
          rw [List.nil_append] at htext
          rw [← htext]
          exact List.mem_cons_self
        rcases List.mem_append.mp hplus with hzero | hdigit
        · cases List.eq_of_mem_replicate hzero
        · exact absurd (Text.isDigit_of_mem_natural hdigit) (by decide)
      · exact ⟨hlt, zeros, (List.cons.inj htext).2⟩
  · rw [readOrdinal?_unsigned fun digits htext => hsigned ⟨digits, htext⟩, hrun]
    constructor
    · rintro ⟨hlt, zeros, rfl⟩
      exact ⟨hlt, [], zeros, .inl rfl, rfl⟩
    · rintro ⟨hlt, sign, zeros, rfl | rfl, rfl⟩
      · exact ⟨hlt, zeros, rfl⟩
      · exact (hsigned ⟨_, rfl⟩).elim

theorem kind_iff_spells {text : List Char} {k : Kind} :
    (readOrdinal? text).bind Kind.ofOrdinal? = some k ↔ Spells text k := by
  constructor
  · intro hbind
    obtain ⟨n, hn, hkind⟩ := Option.bind_eq_some_iff.mp hbind
    obtain ⟨rfl, hpos, -⟩ := Kind.of_ofOrdinal? hkind
    obtain ⟨-, sign, zeros, hsign, rfl⟩ := readOrdinal?_eq_some_iff.mp hn
    refine .of zeros ?_ hsign
    rintro rfl
    cases hpos
  · rintro ⟨zeros, hk, hsign⟩
    have hlt := k.ordinal_lt
    rw [readOrdinal?_eq_some_iff.mpr ⟨by omega, _, zeros, hsign, rfl⟩]
    exact Kind.ofOrdinal?_ordinal hk

theorem Spells.plain {text : List Char} {k : Kind} (hspells : Spells text k) : '/' ∉ text := by
  obtain ⟨zeros, -, hsign⟩ := hspells
  intro hmem
  rcases List.mem_append.mp hmem with hsigned | hdigits
  · rcases hsign with rfl | rfl
    · cases hsigned
    · cases List.mem_singleton.mp hsigned
  · rcases List.mem_append.mp hdigits with hzero | hdigit
    · cases List.eq_of_mem_replicate hzero
    · exact absurd (Text.isDigit_of_mem_natural hdigit) (by decide)

/-- A key names a field if the part before its first slash is a text of an ordinal. -/
theorem names_iff {key leaf : String} {k : Kind} : Names key k leaf ↔
    (leaf = "periods" ∨ leaf = "enable") ∧ ∃ ordinal, Spells ordinal k ∧
      Text.splitFirst '/' key.toList = some (ordinal, leaf.toList) := by
  constructor
  · rintro ⟨hspells, hleaf, hkey⟩
    rw [hkey]
    exact ⟨hleaf, _, hspells, Text.splitFirst_append hspells.plain⟩
  · rintro ⟨hleaf, ordinal, hspells, hsplit⟩
    exact .of hspells hleaf (Text.eq_of_splitFirst hsplit).1

theorem Names.ne_invalid {key leaf : String} {k : Kind} (hnames : Names key k leaf) :
    k ≠ .invalid := by
  obtain ⟨⟨_, hk, _⟩, -, -⟩ := hnames
  exact hk

theorem names_key {k : Kind} (hk : k ≠ .invalid) (s : Setting) : Names (s.key k) k s.leafName := by
  have hleaf : s.leafName = "periods" ∨ s.leafName = "enable" := by
    cases s with
    | period => exact .inl rfl
    | enable => exact .inr rfl
  exact .of (.of 0 hk (.inl rfl)) hleaf (key_toList k s)

theorem begins_period_iff {value : Bytes} {seconds : Int64} :
    Begins value (.period seconds) ↔ ∃ rest, Wire.readLong? value = some (seconds, rest) := by
  constructor
  · rintro ⟨hvarint, hlength, -, hvalue⟩
    exact ⟨_, Wire.readLong?_eq_some_iff.mpr ⟨_, rfl, hvarint, hlength, hvalue⟩⟩
  · rintro ⟨rest, hread⟩
    obtain ⟨varint, rfl, hvarint, hlength, hvalue⟩ := Wire.readLong?_eq_some_iff.mp hread
    have hlimit := Wire.zigzag_lt seconds
    rw [← hvalue] at hlimit
    exact .period hvarint hlength hlimit hvalue

theorem begins_enable_iff {value : Bytes} {flag : Bool} :
    Begins value (.enable flag) ↔ ∃ rest, Wire.readBool? value = some (flag, rest) := by
  constructor
  · rintro ⟨⟩
    exact ⟨_, Wire.readBool?_eq_some_iff.mpr rfl⟩
  · rintro ⟨rest, hread⟩
    rw [Wire.readBool?_eq_some_iff.mp hread]
    exact .enable

theorem begins_encode (s : Setting) (rest : Bytes) : Begins (s.encode ++ rest) s := by
  cases s with
  | period seconds => exact begins_period_iff.mpr ⟨rest, Wire.readLong?_writeLong seconds rest⟩
  | enable flag => exact begins_enable_iff.mpr ⟨rest, Wire.readBool?_writeBool flag rest⟩

/-- Bytes begin with one value of a field. -/
theorem Begins.unique {value : Bytes} {s t : Setting} (hs : Begins value s) (ht : Begins value t)
    (hleaf : s.leafName = t.leafName) : s = t := by
  cases s with
  | period seconds =>
      cases t with
      | period seconds' =>
          obtain ⟨rest, hread⟩ := begins_period_iff.mp hs
          obtain ⟨rest', hread'⟩ := begins_period_iff.mp ht
          cases hread.symm.trans hread'
          rfl
      | enable flag => exact (leafName_ne seconds flag hleaf.symm).elim
  | enable flag =>
      cases t with
      | period seconds => exact (leafName_ne seconds flag hleaf).elim
      | enable flag' =>
          obtain ⟨rest, hread⟩ := begins_enable_iff.mp hs
          obtain ⟨rest', hread'⟩ := begins_enable_iff.mp ht
          cases hread.symm.trans hread'
          rfl

/-- What is read under a key that names a field is a value of this field, or corrupted. -/
theorem decode_of_names {key leaf : String} {k : Kind} (hnames : Names key k leaf) (value : Bytes) :
    (∃ s : Setting, s.leafName = leaf ∧ Begins value s ∧ decode key value = .ok (k, s)) ∨
      (∀ s : Setting, s.leafName = leaf → ¬ Begins value s) ∧
        decode key value = .error (.settings .corrupted) := by
  obtain ⟨hleaf, ordinal, hspells, hsplit⟩ := names_iff.mp hnames
  have hother : "enable".toList ≠ "periods".toList := by decide
  unfold decode
  simp only [hsplit, kind_iff_spells.mpr hspells]
  rcases hleaf with rfl | rfl
  · rw [if_pos rfl]
    cases hread : Wire.readLong? value with
    | some found => exact .inl ⟨.period found.1, rfl, begins_period_iff.mpr ⟨found.2, hread⟩, rfl⟩
    | none =>
        refine .inr ⟨fun s hs hbegins => ?_, rfl⟩
        cases s with
        | period seconds =>
            obtain ⟨rest, hsome⟩ := begins_period_iff.mp hbegins
            cases hread.symm.trans hsome
        | enable flag => exact (leafName_ne 0 flag hs).elim
  · rw [if_neg hother, if_pos rfl]
    cases hread : Wire.readBool? value with
    | some found => exact .inl ⟨.enable found.1, rfl, begins_enable_iff.mpr ⟨found.2, hread⟩, rfl⟩
    | none =>
        refine .inr ⟨fun s hs hbegins => ?_, rfl⟩
        cases s with
        | period seconds => exact (leafName_ne seconds false hs.symm).elim
        | enable flag =>
            obtain ⟨rest, hsome⟩ := begins_enable_iff.mp hbegins
            cases hread.symm.trans hsome

/-- Under a key that names nothing, nothing is read. -/
theorem decode_of_not_names {key : String} (hnone : ∀ k leaf, ¬ Names key k leaf) (value : Bytes) :
    decode key value = .error .invalidKind := by
  unfold decode
  split
  · rfl
  · rename_i ordinal leaf hsplit
    split
    · rfl
    · rename_i k hkind
      have hspells := kind_iff_spells.mp hkind
      have hunnamed (name : String) (hname : name = "periods" ∨ name = "enable") :
          leaf ≠ name.toList := by
        rintro rfl
        exact hnone k name (names_iff.mpr ⟨hname, ordinal, hspells, hsplit⟩)
      rw [if_neg (hunnamed "periods" (.inl rfl)), if_neg (hunnamed "enable" (.inr rfl))]

theorem decode_eq_ok_iff {key : String} {value : Bytes} {k : Kind} {s : Setting} :
    decode key value = .ok (k, s) ↔ Names key k s.leafName ∧ Begins value s := by
  constructor
  · intro hd
    by_cases hsome : ∃ j leaf, Names key j leaf
    · obtain ⟨j, leaf, hnames⟩ := hsome
      rcases decode_of_names hnames value with ⟨t, rfl, hbegins, hok⟩ | ⟨-, herror⟩
      · cases hok.symm.trans hd
        exact ⟨hnames, hbegins⟩
      · cases herror.symm.trans hd
    · have hnone := decode_of_not_names (fun j leaf hnames => hsome ⟨j, leaf, hnames⟩) value
      cases hnone.symm.trans hd
  · rintro ⟨hnames, hbegins⟩
    rcases decode_of_names hnames value with ⟨t, hleaf, hother, hok⟩ | ⟨hno, -⟩
    · rw [hok, hother.unique hbegins hleaf]
    · exact (hno s rfl hbegins).elim

/-! ## The leaf that is written -/

/-- A setting is read back from its own leaf, whatever follows the value. -/
theorem decode_key {k : Kind} (hk : k ≠ .invalid) (s : Setting) (rest : Bytes) :
    decode (s.key k) (s.encode ++ rest) = .ok (k, s) :=
  decode_eq_ok_iff.mpr ⟨names_key hk s, begins_encode s rest⟩

/-- A leaf that stands for a setting has the name of the setting below a spelling of the ordinal. -/
theorem spelling_of_decode {key : String} {value : Bytes} {k : Kind} {s : Setting}
    (hd : decode key value = .ok (k, s)) : ∃ ordinal,
      Text.splitFirst '/' key.toList = some (ordinal, s.leafName.toList) ∧
      readOrdinal? ordinal = some k.ordinal ∧ 0 < k.ordinal := by
  obtain ⟨-, ordinal, hspells, hsplit⟩ := names_iff.mp (decode_eq_ok_iff.mp hd).1
  obtain ⟨n, hn, hkind⟩ := Option.bind_eq_some_iff.mp (kind_iff_spells.mpr hspells)
  obtain ⟨rfl, hpos, -⟩ := Kind.of_ofOrdinal? hkind
  exact ⟨ordinal, hsplit, hn, hpos⟩

/-- A leaf that is written for one kind stands for no other. -/
theorem kind_of_decode_key {j k : Kind} {s t : Setting} {value : Bytes}
    (hd : decode (s.key j) value = .ok (k, t)) : k = j := by
  obtain ⟨ordinal, hsplit, hordinal, -⟩ := spelling_of_decode hd
  rw [splitFirst_key] at hsplit
  obtain ⟨rfl, -⟩ := Prod.mk.inj (Option.some.inj hsplit)
  rw [readOrdinal?_ordinal] at hordinal
  exact (Kind.ordinal_injective (Option.some.inj hordinal)).symm

/-- A leaf that is written for one field stands for no other. -/
theorem leafName_of_decode_key {j k : Kind} {s t : Setting} {value : Bytes}
    (hd : decode (s.key j) value = .ok (k, t)) : t.leafName = s.leafName := by
  obtain ⟨ordinal, hsplit, -⟩ := spelling_of_decode hd
  rw [splitFirst_key] at hsplit
  obtain ⟨-, hname⟩ := Prod.mk.inj (Option.some.inj hsplit)
  exact (String.toList_inj.mp hname).symm

/-- Of all spellings of an ordinal the one that is written comes last. -/
theorem Spells.le {ordinal : List Char} {k : Kind} (hspells : Spells ordinal k) :
    ordinal = Text.natural k.ordinal ∨
      ∃ c rest, ordinal = c :: rest ∧ c < k.ordinal.digitChar := by
  obtain ⟨zeros, hk, rfl | rfl⟩ := hspells
  · cases zeros with
    | zero => exact .inl rfl
    | succ zeros =>
        refine .inr ⟨'0', _, rfl, ?_⟩
        cases k with
        | invalid => exact (hk rfl).elim
        | hardwareInfo | wifiScan | systemStatus | storageUsage => decide
  · refine .inr ⟨'+', _, rfl, ?_⟩
    cases k <;> decide

/-- Of all keys that stand for a setting the one that is written comes last. -/
theorem key_le_of_decode {key : String} {value : Bytes} {k : Kind} {s : Setting}
    (hd : decode key value = .ok (k, s)) : key = s.key k ∨ key < s.key k := by
  obtain ⟨hspells, -, hkey⟩ := (decode_eq_ok_iff.mp hd).1
  rcases hspells.le with hsame | ⟨c, rest, hcons, hless⟩
  · left
    rw [← String.toList_inj, hkey, key_toList, hsame]
  · right
    rw [String.lt_iff, hkey, key_toList, natural_ordinal, hcons]
    exact List.Lex.rel hless

end Setting
end TelemetryAgent
