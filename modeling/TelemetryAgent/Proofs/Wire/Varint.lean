import TelemetryAgent.Wire.Varint

/-!
# What is written is read back

A number that fits its width is read back from the bytes it was written as, whatever follows them.
Besides these bytes every padded form of the number is read, and nothing else.
-/
namespace TelemetryAgent.Wire

theorem toNat_ofNat_of_lt {n : Nat} (hn : n < 256) : (UInt8.ofNat n).toNat = n := by
  rw [UInt8.toNat_ofNat']
  exact Nat.mod_eq_of_lt hn

/-- Numbers of `groups + 1` groups, of which the last is at most `top`, are below this one. -/
def limit (top : Nat) : (groups : Nat) → Nat
  | 0 => top + 1
  | groups + 1 => 128 * limit top groups

/-! ## What is read -/

/-- Every byte but the last has its high bit set. -/
inductive IsVarint : Bytes → Prop
  | last {b : UInt8} : b.toNat < 128 → IsVarint [b]
  | more {b : UInt8} {bytes : Bytes} : 128 ≤ b.toNat → IsVarint bytes → IsVarint (b :: bytes)

/-- The number whose groups of seven bits the bytes carry, least first. -/
def value : Bytes → Nat
  | [] => 0
  | b :: bytes => b.toNat % 128 + 128 * value bytes

theorem limit_pos (top groups : Nat) : 0 < limit top groups := by
  induction groups with
  | zero => exact Nat.succ_pos top
  | succ groups ih => exact Nat.mul_pos (by decide) ih

theorem limit_word32 : limit Width.word32.top 4 = UInt32.size := by decide

theorem limit_word64 : limit Width.word64.top 9 = UInt64.size := by decide

theorem value_last {b : UInt8} (hlast : b.toNat < 128) : value [b] = b.toNat :=
  Nat.mod_eq_of_lt hlast

theorem decode?_last {top groups : Nat} {b : UInt8} {bytes : Bytes} (hlast : b.toNat < 128)
    (hfits : groups = 0 → b.toNat ≤ top) :
    decode? top (groups + 1) (b :: bytes) = some (b.toNat, bytes) := by
  have hroom : ¬ (groups = 0 ∧ top < b.toNat) := fun ⟨hzero, hlt⟩ =>
    Nat.not_lt_of_le (hfits hzero) hlt
  rw [decode?, if_neg hroom, if_pos hlast]

theorem decode?_more {top groups : Nat} {b : UInt8} {bytes : Bytes} (hmore : 128 ≤ b.toNat) :
    decode? top (groups + 2) (b :: bytes) =
      (decode? top (groups + 1) bytes).map fun (n, rest) => (b.toNat - 128 + 128 * n, rest) := by
  have hroom : ¬ (groups + 1 = 0 ∧ top < b.toNat) := fun ⟨hzero, _⟩ => nomatch hzero
  rw [decode?, if_neg hroom, if_neg (Nat.not_lt_of_le hmore)]

/-- A varint that has room and whose number is below the limit is read. -/
theorem decode?_varint {top groups : Nat} {varint : Bytes} (hvarint : IsVarint varint)
    (hlength : varint.length ≤ groups + 1) (hlimit : value varint < limit top groups)
    (rest : Bytes) : decode? top (groups + 1) (varint ++ rest) = some (value varint, rest) := by
  induction hvarint generalizing groups with
  | @last b hlast =>
      rw [value_last hlast] at hlimit ⊢
      refine decode?_last hlast fun hzero => ?_
      subst hzero
      exact Nat.le_of_lt_succ hlimit
  | @more b bytes hmore hbytes ih =>
      cases groups with
      | zero => cases hbytes <;> simp at hlength
      | succ groups =>
          have hbyte := b.toNat_lt
          rw [value, limit] at hlimit
          have hsum : b.toNat - 128 + 128 * value bytes = value (b :: bytes) := by
            rw [value]
            omega
          rw [List.cons_append, decode?_more hmore,
            ih (Nat.le_of_succ_le_succ hlength) (by omega)]
          simp only [Option.map_some, hsum]

/-- What is read is a varint of no more bytes than there are groups, whose number is below the
limit. The test of the last possible byte is this bound, since the bytes before it carry less than
one of its units. -/
theorem varint_of_decode? {top groups n : Nat} {bytes rest : Bytes}
    (hread : decode? top (groups + 1) bytes = some (n, rest)) :
    ∃ varint, bytes = varint ++ rest ∧ IsVarint varint ∧ varint.length ≤ groups + 1 ∧
      value varint = n ∧ n < limit top groups := by
  induction groups generalizing n bytes with
  | zero =>
      cases bytes with
      | nil => cases hread
      | cons b bytes =>
          unfold decode? at hread
          split at hread
          · cases hread
          · rename_i hroom
            have hfits : b.toNat ≤ top := Nat.le_of_not_lt fun hlt => hroom ⟨rfl, hlt⟩
            split at hread
            · rename_i hlast
              cases hread
              exact ⟨[b], rfl, .last hlast, Nat.le_refl 1, value_last hlast, Nat.lt_succ_of_le hfits⟩
            · cases hread
  | succ groups ih =>
      have hpos := limit_pos top groups
      cases bytes with
      | nil => cases hread
      | cons b bytes =>
          rcases Nat.lt_or_ge b.toNat 128 with hlast | hmore
          · have hfits : groups + 1 = 0 → b.toNat ≤ top := fun hzero => nomatch hzero
            rw [decode?_last hlast hfits] at hread
            cases hread
            refine ⟨[b], rfl, .last hlast, Nat.succ_pos _, value_last hlast, ?_⟩
            rw [limit]
            omega
          · rw [decode?_more hmore] at hread
            obtain ⟨⟨m, rest'⟩, hm, hsum⟩ := Option.map_eq_some_iff.mp hread
            cases hsum
            obtain ⟨varint, rfl, hvarint, hlength, hvalue, hlimit⟩ := ih hm
            have hbyte := b.toNat_lt
            refine ⟨b :: varint, rfl, .more hmore hvarint, Nat.succ_le_succ hlength, ?_, ?_⟩
            · rw [value, hvalue]
              omega
            · rw [limit]
              omega

theorem decode?_eq_some_iff {top groups n : Nat} {bytes rest : Bytes} :
    decode? top (groups + 1) bytes = some (n, rest) ↔ ∃ varint, bytes = varint ++ rest ∧
      IsVarint varint ∧ varint.length ≤ groups + 1 ∧ value varint = n ∧ n < limit top groups := by
  constructor
  · exact varint_of_decode?
  · rintro ⟨varint, rfl, hvarint, hlength, rfl, hlimit⟩
    exact decode?_varint hvarint hlength hlimit rest

/-! ## What is written -/

/-- A number below the limit is written as a varint that has room. -/
theorem encode_varint {top groups n : Nat} (htop : top < 128) (hn : n < limit top groups) :
    IsVarint (encode (groups + 1) n) ∧ (encode (groups + 1) n).length ≤ groups + 1 ∧
      value (encode (groups + 1) n) = n := by
  induction groups generalizing n with
  | zero =>
      rw [limit] at hn
      have hsmall : n < 128 := by omega
      have hbyte : (UInt8.ofNat n).toNat = n := toNat_ofNat_of_lt (by omega)
      rw [encode, if_pos hsmall]
      rw [← hbyte] at hsmall
      exact ⟨.last hsmall, Nat.le_refl 1, (value_last hsmall).trans hbyte⟩
  | succ groups ih =>
      rw [limit] at hn
      unfold encode
      split
      · rename_i hsmall
        have hbyte : (UInt8.ofNat n).toNat = n := toNat_ofNat_of_lt (by omega)
        rw [← hbyte] at hsmall
        exact ⟨.last hsmall, Nat.succ_pos _, (value_last hsmall).trans hbyte⟩
      · rename_i hlarge
        have hbyte : (UInt8.ofNat (n % 128 + 128)).toNat = n % 128 + 128 :=
          toNat_ofNat_of_lt (by omega)
        obtain ⟨hvarint, hlength, hvalue⟩ := ih (n := n / 128) (by omega)
        refine ⟨.more (by omega) hvarint, Nat.succ_le_succ hlength, ?_⟩
        rw [value, hbyte, hvalue]
        omega

theorem decode?_encode {top : Nat} (htop : top < 128) (groups n : Nat) (hn : n < limit top groups)
    (rest : Bytes) : decode? top (groups + 1) (encode (groups + 1) n ++ rest) = some (n, rest) := by
  obtain ⟨hvarint, hlength, hvalue⟩ := encode_varint htop hn
  have hread := decode?_varint hvarint hlength (by rwa [hvalue]) rest
  rwa [hvalue] at hread

/-! ## Signed numbers and flags -/

theorem zigzag_unzigzag (n : Nat) : zigzag (unzigzag n) = n := by
  unfold unzigzag
  split
  · rw [zigzag]
    omega
  · rw [zigzag]
    omega

theorem zigzag_lt (i : Int64) : zigzag i.toInt < limit 1 9 := by
  have hlimit : limit 1 9 = 18446744073709551616 := rfl
  have hlow := i.le_toInt
  have hhigh := i.toInt_lt
  rw [hlimit]
  cases hi : i.toInt with
  | ofNat n =>
      rw [hi] at hhigh
      have hn : (n : Int) < 9223372036854775808 := hhigh
      rw [zigzag]
      omega
  | negSucc n =>
      rw [hi] at hlow
      have hn : -9223372036854775808 ≤ Int.negSucc n := hlow
      rw [zigzag]
      omega

theorem readLong?_writeLong (i : Int64) (rest : Bytes) :
    readLong? (writeLong i ++ rest) = some (i, rest) := by
  have hread : read? .word64 (writeLong i ++ rest) = some (zigzag i.toInt, rest) :=
    decode?_encode (by decide) 9 (zigzag i.toInt) (zigzag_lt i) rest
  rw [readLong?, hread, Option.map_some]
  simp only [unzigzag_zigzag, Int64.ofInt_toInt]

/-- A number of 64 bits is the one of a signed number. -/
theorem zigzag_ofInt_unzigzag {n : Nat} (hn : n < UInt64.size) :
    zigzag (Int64.ofInt (unzigzag n)).toInt = n := by
  unfold UInt64.size at hn
  have hbounds : -2 ^ 63 ≤ unzigzag n ∧ unzigzag n < 2 ^ 63 := by
    unfold unzigzag
    split
    · rw [Int.ofNat_eq_natCast]
      omega
    · omega
  rw [Int64.toInt_ofInt_of_le hbounds.1 hbounds.2, zigzag_unzigzag]

theorem readLong?_eq_some_iff {bytes rest : Bytes} {i : Int64} :
    readLong? bytes = some (i, rest) ↔ ∃ varint, bytes = varint ++ rest ∧ IsVarint varint ∧
      varint.length ≤ 10 ∧ value varint = zigzag i.toInt := by
  have hread (n : Nat) : read? .word64 bytes = some (n, rest) ↔ ∃ varint, bytes = varint ++ rest ∧
      IsVarint varint ∧ varint.length ≤ 10 ∧ value varint = n ∧ n < limit 1 9 :=
    decode?_eq_some_iff
  constructor
  · intro hlong
    obtain ⟨⟨n, rest'⟩, hn, hi⟩ := Option.map_eq_some_iff.mp hlong
    cases hi
    obtain ⟨varint, hbytes, hvarint, hlength, hvalue, hlimit⟩ := (hread n).mp hn
    refine ⟨varint, hbytes, hvarint, hlength, hvalue.trans (zigzag_ofInt_unzigzag ?_).symm⟩
    rwa [← limit_word64]
  · rintro ⟨varint, hbytes, hvarint, hlength, hvalue⟩
    rw [readLong?, (hread _).mpr ⟨varint, hbytes, hvarint, hlength, hvalue, zigzag_lt i⟩,
      Option.map_some]
    simp only [unzigzag_zigzag, Int64.ofInt_toInt]

theorem readBool?_eq_some_iff {bytes rest : Bytes} {flag : Bool} :
    readBool? bytes = some (flag, rest) ↔ bytes = (if flag then 1 else 0) :: rest := by
  unfold readBool?
  split
  · rename_i b tail
    cases flag <;> grind
  · simp

theorem readBool?_writeBool (b : Bool) (rest : Bytes) :
    readBool? (writeBool b ++ rest) = some (b, rest) := by
  cases b <;> rfl

end TelemetryAgent.Wire
