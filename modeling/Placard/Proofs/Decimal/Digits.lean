import Placard.Decimal.Layout
import Placard.Proofs.Text.Escape

/-!
# What the text of a number is made of

Digits, a sign, a point, and the letters of what is no number: whichever of
its two forms a number takes on the wire, its text holds nothing else. So it
is plain, and it holds no low line either, the mark between the parts of a
command on variables.
-/

namespace Placard.Decimal

open Text

/-- The characters that the text of a number can have. -/
def numberChars : List Char := "0123456789-.NaNinf".toList

/-- A text with no other characters than those of numbers. -/
def Numeric (s : List Char) : Prop := ∀ c ∈ s, c ∈ numberChars

instance (s : List Char) : Decidable (Numeric s) :=
  List.decidableBAll (fun c => c ∈ numberChars) s

@[simp] theorem numeric_cons {c : Char} {s : List Char} :
    Numeric (c :: s) ↔ c ∈ numberChars ∧ Numeric s := List.forall_mem_cons

@[simp] theorem numeric_append {s t : List Char} :
    Numeric (s ++ t) ↔ Numeric s ∧ Numeric t := List.forall_mem_append

theorem Numeric.not_mem {s : List Char} (h : Numeric s) {c : Char}
    (hc : c ∉ numberChars) : c ∉ s := fun hcs => hc (h c hcs)

theorem Numeric.plain {s : List Char} (h : Numeric s) : Plain s := by
  have hall : Plain numberChars := by decide
  exact fun c hc => hall c (h c hc)

/-- What holds of the characters below a code point one by one holds of each
below it. -/
theorem forall_toNat_lt {P : Char → Prop} {n : Nat}
    (h : ∀ m < n, P (Char.ofNat m)) {c : Char} (hc : c.toNat < n) : P c :=
  Char.ofNat_toNat c ▸ h c.toNat hc

theorem mem_numberChars_of_toNat {c : Char} (hlo : 48 ≤ c.toNat)
    (hhi : c.toNat ≤ 57) : c ∈ numberChars := by
  have hall : ∀ n < 58, 48 ≤ (Char.ofNat n).toNat →
    Char.ofNat n ∈ numberChars := by decide
  exact forall_toNat_lt (P := fun c => 48 ≤ c.toNat →
    c ∈ numberChars) hall (by omega) hlo

theorem mem_numberChars_of_isDigit {c : Char} (h : isDigit c = true) :
    c ∈ numberChars := by
  simp only [isDigit, Bool.and_eq_true, decide_eq_true_eq] at h
  exact mem_numberChars_of_toNat h.1 h.2

theorem numeric_natChars (n : Nat) : Numeric (natChars n) := by
  intro c hc
  have h := Nat.isDigit_of_mem_toDigits (by decide) (by decide) hc
  have hn := Char.isDigit_iff_toNat.mp h
  exact mem_numberChars_of_toNat hn.1 hn.2

theorem numeric_zeros (n : Nat) : Numeric (zeros n) := by
  intro c hc
  rw [List.eq_of_mem_replicate hc]
  decide

theorem numeric_positional (d : Digits) (pointZero : Bool) :
    Numeric (d.positional pointZero) := by
  have hds := numeric_natChars d.digits
  have hpoint : Numeric (if pointZero then ['.', '0'] else []) := by
    cases pointZero <;> decide
  unfold Digits.positional
  simp only []
  split
  · simp only [numeric_append]
    exact ⟨⟨hds, numeric_zeros _⟩, hpoint⟩
  · split
    · simp only [numeric_append, numeric_cons]
      exact ⟨fun c hc => hds c (List.mem_of_mem_take hc), by decide,
        fun c hc => hds c (List.mem_of_mem_drop hc)⟩
    · simp only [List.cons_append, numeric_append, numeric_cons]
      exact ⟨by decide, by decide, numeric_zeros _, hds⟩

theorem numeric_intText (n : Int) : Numeric (intText n).toList := by
  unfold intText
  split
  · simp only [String.toList_append, numeric_append, String.toList_ofList]
    exact ⟨by decide, numeric_natChars _⟩
  · rw [String.toList_ofList]
    exact numeric_natChars _

theorem toList_intText_natCast (n : Nat) : (intText n).toList = natChars n := by
  rw [intText, if_neg (by omega), String.toList_ofList, Int.natAbs_natCast]

theorem numeric_render_plain (x : Float) : Numeric (plain.render x).toList := by
  have hsign (b : Bool) : Numeric (if b then "-" else "").toList := by
    cases b <;> decide
  unfold Layout.render
  split
  · decide
  · simp only []
    split
    · rw [String.toList_append, numeric_append]
      exact ⟨hsign _, by decide⟩
    · rw [String.toList_append, numeric_append, String.toList_ofList]
      exact ⟨hsign _, numeric_positional _ _⟩

theorem numeric_wireNumber (x : Float) : Numeric (wireNumber x).toList := by
  unfold wireNumber
  split
  · exact numeric_intText _
  · exact numeric_render_plain x

end Placard.Decimal
