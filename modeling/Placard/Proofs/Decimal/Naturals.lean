import Placard.Proofs.Decimal.Digits
import Mathlib.Data.List.Induction

/-!
# Natural numbers and their digits

A row of digits without a superfluous zero in front is the text of the number
that it denotes, and of no other.
-/

namespace Placard.Decimal

open Text

theorem natOfDigits_eq_ofDigitChars (acc : Nat) (ds : List Char) :
    natOfDigits acc ds = Nat.ofDigitChars 10 ds acc :=
  Nat.ofDigitChars_eq_foldl.symm

theorem natOfDigits_natChars (n : Nat) : natOfDigits 0 (natChars n) = n := by
  rw [natOfDigits_eq_ofDigitChars, natChars, Nat.ofDigitChars_ten_toDigits]

theorem natChars_ne_nil (n : Nat) : natChars n ≠ [] :=
  Nat.toDigits_ne_nil

theorem isDigit_of_mem_natChars {n : Nat} {c : Char} (h : c ∈ natChars n) :
    isDigit c = true := by
  have hdigit := Nat.isDigit_of_mem_toDigits (by decide) (by decide) h
  have hrange := Char.isDigit_iff_toNat.mp hdigit
  simp only [isDigit, Bool.and_eq_true, decide_eq_true_eq]
  exact hrange

/-- A digit and the number that it is. -/
theorem digitChar_of_isDigit {d : Char} (h : isDigit d = true) :
    d.toNat - '0'.toNat < 10 ∧ Nat.digitChar (d.toNat - '0'.toNat) = d := by
  have hlt : d.toNat < 58 := by
    simp only [isDigit, Bool.and_eq_true, decide_eq_true_eq] at h
    exact Nat.lt_succ_of_le h.2
  exact forall_toNat_lt (P := fun d => isDigit d = true →
    d.toNat - '0'.toNat < 10 ∧ Nat.digitChar (d.toNat - '0'.toNat) = d)
    (by decide) hlt h

theorem natOfDigits_append (acc : Nat) (ds es : List Char) :
    natOfDigits acc (ds ++ es) = natOfDigits (natOfDigits acc ds) es :=
  List.foldl_append

/-- Digits that do not begin with a zero denote a number that is none. -/
theorem natOfDigits_pos {d : Char} {ds : List Char} (hd : isDigit d = true)
    (hne : d ≠ '0') : 0 < natOfDigits 0 (d :: ds) := by
  obtain ⟨-, hback⟩ := digitChar_of_isDigit hd
  have hpos : 0 < d.toNat - '0'.toNat := by
    refine Nat.pos_of_ne_zero fun hzero => hne ?_
    rw [hzero] at hback
    exact hback.symm
  rw [natOfDigits_eq_ofDigitChars, Nat.ofDigitChars_cons,
    Nat.ofDigitChars_eq_ofDigitChars_zero]
  exact Nat.add_pos_left (Nat.mul_pos (Nat.pow_pos (by decide)) (by omega)) _

theorem natChars_natOfDigits {ds : List Char} (hds : ∀ d ∈ ds, isDigit d = true)
    (hne : ds ≠ []) (hzero : ∀ rest, ds = '0' :: rest → rest = []) :
    natChars (natOfDigits 0 ds) = ds := by
  induction ds using List.reverseRecOn with
  | nil => exact absurd rfl hne
  | append_singleton ds d ih =>
      obtain ⟨hlt, hback⟩ := digitChar_of_isDigit (hds d (by simp))
      rw [natOfDigits_append]
      have hlast (acc : Nat) :
          natOfDigits acc [d] = 10 * acc + (d.toNat - '0'.toNat) := rfl
      cases ds with
      | nil =>
          rw [hlast]
          show natChars (10 * 0 + (d.toNat - '0'.toNat)) = [d]
          rw [Nat.mul_zero, Nat.zero_add, natChars, Nat.toDigits_of_lt_base hlt,
            hback]
      | cons c cs =>
          have hc : isDigit c = true := hds c (by simp)
          have hcne : c ≠ '0' := by
            rintro rfl
            have := hzero (cs ++ [d]) rfl
            simp at this
          have ih :=
            ih (fun e he => hds e (List.mem_append_left _ he))
              (List.cons_ne_nil _ _)
              fun rest heq => absurd (List.cons.inj heq).1 hcne
          rw [hlast, natChars, ← Nat.toDigits_append_toDigits (by decide)
            (natOfDigits_pos hc hcne) hlt, Nat.toDigits_of_lt_base hlt, hback]
          exact congrArg (· ++ [d]) ih

/-- Only zero has a zero in front. -/
theorem natChars_of_zero_cons {n : Nat} {rest : List Char}
    (h : natChars n = '0' :: rest) : rest = [] := by
  induction n using Nat.strongRecOn generalizing rest with
  | _ n ih =>
    rw [natChars, Nat.toDigits_eq_if (by decide)] at h
    split at h
    · exact (List.cons.inj h).2.symm
    · next hle =>
        -- What stands in front of the last digit begins with a zero as well.
        obtain ⟨c, cs, hcs⟩ :=
          List.exists_cons_of_ne_nil (natChars_ne_nil (n / 10))
        rw [natChars] at hcs
        rw [hcs, List.cons_append] at h
        obtain ⟨rfl, -⟩ := List.cons.inj h
        have hnil := ih (n / 10) (by omega) hcs
        rw [hnil] at hcs
        have hvalue := natOfDigits_natChars (n / 10)
        rw [natChars, hcs] at hvalue
        have hzero : natOfDigits 0 ['0'] = 0 := rfl
        omega

end Placard.Decimal
