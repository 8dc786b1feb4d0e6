import Mathlib.Data.Char

/-!
# The order of bytes

UTF-8 keeps the order: of two different characters the code of the smaller one is below that of the
other at the first byte in which the codes differ, and neither code begins with the other. So texts
are ordered by their code points as they are by their bytes.
-/
namespace TelemetryAgent

namespace Utf8

/-- The first digit in which two numbers differ decides. -/
theorem lt_digit {v w : Nat} (hlt : v < w) :
    v / 64 < w / 64 ∨ v / 64 = w / 64 ∧ v % 64 < w % 64 := by
  omega

/-- The code of a smaller character stays below, whatever comes after. -/
theorem encode_append_lt {c d : Char} (hlt : c < d) (more later : List UInt8) :
    String.utf8EncodeChar c ++ more < String.utf8EncodeChar d ++ later := by
  have hval : c.val.toNat < d.val.toNat := hlt
  have hmax : d.val.toNat < 0x110000 := by
    rcases d.valid with hvalid | hvalid
    · exact Nat.lt_trans hvalid (by decide)
    · exact hvalid.2
  have hbyte : ∀ n, (n % 64 + 128) % 256 = n % 64 + 128 := by omega
  have hthree : ∀ n, n / 4096 = n / 64 / 64 := fun n => (Nat.div_div_eq_div_mul n 64 64).symm
  have hfour : ∀ n, n / 262144 = n / 64 / 64 / 64 := fun n => by
    rw [Nat.div_div_eq_div_mul, Nat.div_div_eq_div_mul]
  unfold String.utf8EncodeChar
  dsimp only
  -- the codes are as long as the characters are large
  split_ifs <;>
    simp only [List.cons_append, List.nil_append, List.cons_lt_cons_iff, UInt8.lt_iff_toNat_lt,
      ← UInt8.toNat_inj, UInt8.toNat_ofNat', Nat.reducePow, hbyte, hthree, hfour] <;>
    rcases lt_digit hval with hval | hval <;>
    omega

theorem append_lt_append_iff (shared more later : List UInt8) :
    shared ++ more < shared ++ later ↔ more < later := by
  induction shared with
  | nil => exact Iff.rfl
  | cons b shared ih =>
      rw [List.cons_append, List.cons_append, List.cons_lt_cons_iff]
      exact ⟨fun h => h.elim (fun hlt => (UInt8.lt_irrefl b hlt).elim) fun h => ih.mp h.2,
        fun h => .inr ⟨rfl, ih.mpr h⟩⟩

theorem flatMap_encode_lt_iff {l m : List Char} :
    l.flatMap String.utf8EncodeChar < m.flatMap String.utf8EncodeChar ↔ l < m := by
  induction l generalizing m with
  | nil =>
      cases m with
      | nil => exact ⟨fun h => (List.not_lt_nil _ h).elim, fun h => (List.not_lt_nil _ h).elim⟩
      | cons d m =>
          have hcode : (d :: m).flatMap String.utf8EncodeChar ≠ [] := by
            rw [List.flatMap_cons]
            exact List.append_ne_nil_of_left_ne_nil String.utf8EncodeChar_ne_nil _
          refine ⟨fun _ => List.nil_lt_cons d m, fun _ => ?_⟩
          obtain ⟨b, code, hcode⟩ := List.exists_cons_of_ne_nil hcode
          rw [hcode]
          exact List.nil_lt_cons b code
  | cons c l ih =>
      cases m with
      | nil => exact ⟨fun h => (List.not_lt_nil _ h).elim, fun h => (List.not_lt_nil _ h).elim⟩
      | cons d m =>
          rw [List.flatMap_cons, List.flatMap_cons, List.cons_lt_cons_iff]
          rcases lt_trichotomy c d with hlt | rfl | hgt
          · exact ⟨fun _ => .inl hlt, fun _ => encode_append_lt hlt _ _⟩
          · rw [append_lt_append_iff, ih]
            exact ⟨fun h => .inr ⟨rfl, h⟩,
              fun h => h.elim (fun hlt => (Char.lt_irrefl c hlt).elim) And.right⟩
          · refine ⟨fun h => (List.lt_asymm h (encode_append_lt hgt _ _)).elim, fun h => ?_⟩
            rcases h with hlt | ⟨rfl, -⟩
            · exact (lt_asymm hlt hgt).elim
            · exact (Char.lt_irrefl c hgt).elim

def bytes (s : String) : List UInt8 := s.toByteArray.data.toList

theorem bytes_eq (s : String) : bytes s = s.toList.flatMap String.utf8EncodeChar := by
  conv => lhs; rw [← String.ofList_toList (s := s)]
  exact List.toList_data_toByteArray

/-- Texts are ordered as their bytes are. -/
theorem lt_iff (s t : String) : s < t ↔ bytes s < bytes t := by
  rw [bytes_eq, bytes_eq, flatMap_encode_lt_iff, String.lt_iff]

end Utf8
end TelemetryAgent
