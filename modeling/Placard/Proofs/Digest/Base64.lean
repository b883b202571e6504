import Placard.Digest.Base64
import Placard.Text.Blank

/-!
# Base 64 read back

Bytes that have been written in base 64 are read back, group by group: no letter
of the alphabet is the sign that fills the last group, so which of the readings
of a group applies is decided by its length in bytes. And no letter is blank.
-/

namespace Placard.Digest

theorem base64_letter {n : Nat} (h : n < 64) :
    base64Value? (base64Letter n) = some n ∧ base64Letter n ≠ '=' ∧
      Text.isBlank (base64Letter n) = false := by
  have hall :
      ((List.range 64).all fun n => decide
        (base64Value? (base64Letter n) = some n ∧
          base64Letter n ≠ '=' ∧ Text.isBlank (base64Letter n) = false)) =
            true := by decide
  exact of_decide_eq_true (List.all_eq_true.mp hall n (List.mem_range.mpr h))

theorem ofNat_eq (b : UInt8) {n : Nat} (h : n = b.toNat) :
    UInt8.ofNat n = b := by
  rw [h, UInt8.ofNat_toNat]

theorem ofBase64?_one (a : UInt8) : ofBase64? (toBase64 [a]) = some [a] := by
  have ha := a.toNat_lt_size
  have hsize : UInt8.size = 256 := rfl
  have hw := (base64_letter (by omega : a.toNat / 4 < 64)).1
  have hx := (base64_letter (by omega : a.toNat % 4 * 16 < 64)).1
  simp only [toBase64, ofBase64?, hw, hx, Option.bind_eq_bind, Option.bind_some]
  rw [if_pos (by omega), ofNat_eq a (by omega)]

theorem ofBase64?_two (a b : UInt8) :
    ofBase64? (toBase64 [a, b]) = some [a, b] := by
  have ha := a.toNat_lt_size
  have hb := b.toNat_lt_size
  have hsize : UInt8.size = 256 := rfl
  have hw :=
    (base64_letter (by omega : (a.toNat * 256 + b.toNat) / 1024 < 64)).1
  have hx :=
    (base64_letter (by omega : (a.toNat * 256 + b.toNat) / 16 % 64 < 64)).1
  obtain ⟨hy, hne, -⟩ :=
    base64_letter (by omega : (a.toNat * 256 + b.toNat) % 16 * 4 < 64)
  simp only [toBase64]
  rw [ofBase64?]
  · simp only [hw, hx, hy, Option.bind_eq_bind, Option.bind_some]
    rw [if_pos (by omega), ofNat_eq a (by omega), ofNat_eq b (by omega)]
  · exact hne

theorem ofBase64?_more (a b c : UInt8) {rest : List UInt8}
    (h : ofBase64? (toBase64 rest) = some rest) :
    ofBase64? (toBase64 (a :: b :: c :: rest)) =
      some (a :: b :: c :: rest) := by
  have ha := a.toNat_lt_size
  have hb := b.toNat_lt_size
  have hc := c.toNat_lt_size
  have hsize : UInt8.size = 256 := rfl
  have hw := (base64_letter
    (by omega : ((a.toNat * 256 + b.toNat) * 256 + c.toNat) / 262144 < 64)).1
  have hx := (base64_letter
    (by omega : ((a.toNat * 256 + b.toNat) * 256 + c.toNat) / 4096 % 64 < 64)).1
  have hy := (base64_letter
    (by omega : ((a.toNat * 256 + b.toNat) * 256 + c.toNat) / 64 % 64 < 64)).1
  obtain ⟨hz, hne, -⟩ := base64_letter
    (by omega : ((a.toNat * 256 + b.toNat) * 256 + c.toNat) % 64 < 64)
  simp only [toBase64]
  rw [ofBase64?]
  · simp only [hw, hx, hy, hz, h, Option.bind_eq_bind, Option.bind_some]
    rw [ofNat_eq a (by omega), ofNat_eq b (by omega), ofNat_eq c (by omega)]
  · intro _ heq
    exact absurd heq hne
  · intro heq
    exact absurd heq hne

/-- Bytes that have been written are read back. -/
theorem ofBase64?_toBase64 (bytes : List UInt8) :
    ofBase64? (toBase64 bytes) = some bytes := by
  induction bytes using toBase64.induct with
  | case1 => rfl
  | case2 a => exact ofBase64?_one a
  | case3 a b => exact ofBase64?_two a b
  | case4 a b c rest ih => exact ofBase64?_more a b c ih

theorem not_isBlank_of_mem_toBase64 {bytes : List UInt8} {c : Char}
    (h : c ∈ toBase64 bytes) : Text.isBlank c = false := by
  have hletter {n : Nat} (hn : n < 64) :
      Text.isBlank (base64Letter n) = false :=
    (base64_letter hn).2.2
  have hfill : Text.isBlank '=' = false := by decide
  have hsize (a : UInt8) : a.toNat < 256 := a.toNat_lt_size
  induction bytes using toBase64.induct with
  | case1 => cases h
  | case2 a =>
      have ha := hsize a
      simp only [toBase64, List.mem_cons, List.not_mem_nil, or_false] at h
      rcases h with rfl | rfl | rfl | rfl
      · exact hletter (by omega)
      · exact hletter (by omega)
      · exact hfill
      · exact hfill
  | case3 a b =>
      have ha := hsize a
      have hb := hsize b
      simp only [toBase64, List.mem_cons, List.not_mem_nil, or_false] at h
      rcases h with rfl | rfl | rfl | rfl
      · exact hletter (by omega)
      · exact hletter (by omega)
      · exact hletter (by omega)
      · exact hfill
  | case4 a b c rest ih =>
      have ha := hsize a
      have hb := hsize b
      have hc := hsize c
      simp only [toBase64, List.mem_cons] at h
      rcases h with rfl | rfl | rfl | rfl | h
      · exact hletter (by omega)
      · exact hletter (by omega)
      · exact hletter (by omega)
      · exact hletter (by omega)
      · exact ih h

end Placard.Digest
