import TelemetryAgent.Text.Numeral

/-!
# Numerals that are read

A run of digits is read as a number exactly if it is the numeral of this number with any number of
zeros before it.
-/
namespace TelemetryAgent.Text

theorem isDigit_of_mem_natural {n : Nat} {c : Char} (hc : c ∈ natural n) : c.isDigit = true :=
  Nat.isDigit_of_mem_toDigits (by decide) (by decide) hc

theorem natural_of_lt {n : Nat} (hn : n < 10) : natural n = [n.digitChar] :=
  Nat.toDigits_of_lt_base hn

/-- A digit is the numeral of its value. -/
theorem natural_of_isDigit {c : Char} (hc : c.isDigit = true) :
    c.toNat - 48 < 10 ∧ natural (c.toNat - 48) = [c] := by
  have hlow : 48 ≤ c.toNat := (Char.isDigit_iff_toNat.mp hc).1
  have hhigh : c.toNat ≤ 57 := (Char.isDigit_iff_toNat.mp hc).2
  have hlt : c.toNat - 48 < 10 := by omega
  have hvalue := Nat.toNat_digitChar_of_lt_ten hlt
  have hsame : (c.toNat - 48).digitChar = c := Char.toNat_inj.mp (by omega)
  exact ⟨hlt, by rw [natural_of_lt hlt, hsame]⟩

/-- Digits are zeros and then the numeral of their value. The induction is on the last digit, with
which a numeral ends. -/
theorem eq_zeros_natural {s : List Char} (hne : s ≠ []) (hall : ∀ c ∈ s, c.isDigit = true) :
    ∃ zeros, s = List.replicate zeros '0' ++ natural (Nat.ofDigitChars 10 s 0) := by
  obtain ⟨back, rfl⟩ : ∃ back : List Char, s = back.reverse := ⟨s.reverse, s.reverse_reverse.symm⟩
  induction back with
  | nil => exact (hne rfl).elim
  | cons c back ih =>
      rw [List.reverse_cons] at hall ⊢
      generalize back.reverse = front at hall ih ⊢
      obtain ⟨hlt, hdigit⟩ := natural_of_isDigit (hall c (List.mem_append_right _ List.mem_cons_self))
      have hvalue : Nat.ofDigitChars 10 (front ++ [c]) 0 =
          10 * Nat.ofDigitChars 10 front 0 + (c.toNat - 48) := by
        rw [Nat.ofDigitChars_append, Nat.ofDigitChars_cons, Nat.ofDigitChars_nil]
        rfl
      rw [hvalue]
      cases front with
      | nil =>
          rw [Nat.ofDigitChars_nil, Nat.mul_zero, Nat.zero_add, hdigit]
          exact ⟨0, rfl⟩
      | cons d front =>
          obtain ⟨zeros, hfront⟩ := ih (List.cons_ne_nil d front) fun b hb =>
            hall b (List.mem_append_left _ hb)
          generalize Nat.ofDigitChars 10 (d :: front) 0 = m at hfront ⊢
          rw [hfront, List.append_assoc]
          rcases Nat.eq_zero_or_pos m with rfl | hm
          · -- so far there are only zeros, and they all stand before the last digit
            rw [Nat.mul_zero, Nat.zero_add, hdigit, natural_of_lt (by decide)]
            refine ⟨zeros + 1, ?_⟩
            rw [List.replicate_succ', List.append_assoc]
            rfl
          · refine ⟨zeros, ?_⟩
            rw [← hdigit]
            exact congrArg _ (Nat.toDigits_append_toDigits (by decide) hm hlt)

theorem natural?_eq_some_iff {s : List Char} {n : Nat} :
    natural? s = some n ↔ ∃ zeros, s = List.replicate zeros '0' ++ natural n := by
  constructor
  · intro hread
    unfold natural? at hread
    split at hread
    · rename_i hdigits
      obtain ⟨zeros, hs⟩ := eq_zeros_natural hdigits.1 (List.all_eq_true.mp hdigits.2)
      rw [Option.some.inj hread] at hs
      exact ⟨zeros, hs⟩
    · cases hread
  · rintro ⟨zeros, rfl⟩
    have hne : List.replicate zeros '0' ++ natural n ≠ [] :=
      List.append_ne_nil_of_right_ne_nil _ Nat.toDigits_ne_nil
    have hall : ∀ c ∈ List.replicate zeros '0' ++ natural n, c.isDigit = true := by
      intro c hc
      rcases List.mem_append.mp hc with hzero | hdigit
      · rw [List.eq_of_mem_replicate hzero]
        decide
      · exact isDigit_of_mem_natural hdigit
    have hvalue : Nat.ofDigitChars 10 (List.replicate zeros '0' ++ natural n) 0 = n := by
      rw [Nat.ofDigitChars_append, Nat.ofDigitChars_replicate_zero, Nat.mul_zero]
      exact Nat.ofDigitChars_ten_toDigits
    rw [natural?, if_pos ⟨hne, List.all_eq_true.mpr hall⟩, hvalue]

end TelemetryAgent.Text
