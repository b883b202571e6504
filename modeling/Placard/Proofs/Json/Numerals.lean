import Placard.Proofs.Decimal.Rounded
import Placard.Proofs.Json.Finite

/-!
# The text of a number is a number

However a finite number is laid out, its text is what a number has to look like:
a sign if there is one, a whole part in which no zero stands in front of other
digits, a fraction with digits in it if there is a point, and an exponent with
digits in it if there is a mark. The digits of a real decide about the whole
part. They are those of a decimal that rounds to it, which is no zero unless the
real is.
-/

namespace Placard

namespace Decimal

/-! ## The digits of a real -/

/-- Whatever rounds to a magnitude above zero is above zero. -/
theorem nearest?_pos {b : Binary} (hb : 0 < b.mantissa) {exponent : Int}
    {tie : Tie} {n : Nat} (h : (b.interval exponent).nearest? tie = some n) :
    0 < n := by
  have hlow : 0 < (b.interval exponent).low := by
    refine Nat.mul_pos ?_
      (Nat.mul_pos (Nat.pow_pos (by decide)) (Nat.pow_pos (by decide)))
    split <;> omega
  have hpos {m : Nat} (hm : (b.interval exponent).contains m = true) :
      0 < m := by
    refine Nat.pos_of_ne_zero ?_
    rintro rfl
    unfold Interval.contains at hm
    rw [Nat.zero_mul] at hm
    split at hm
    · simp only [Bool.and_eq_true, decide_eq_true_eq] at hm
      omega
    · simp only [Bool.and_eq_true, decide_eq_true_eq] at hm
      omega
  unfold Interval.nearest? at h
  dsimp only at h
  split at h
  · cases h
  · next hbelow _ => exact Option.some.inj h ▸ hpos hbelow
  · next _ habove => exact Option.some.inj h ▸ hpos habove
  · next hbelow habove =>
      split at h
      · exact Option.some.inj h ▸ hpos hbelow
      · exact Option.some.inj h ▸ hpos habove
      · split at h
        · exact Option.some.inj h ▸ hpos habove
        · rw [← Option.some.inj h]
          split
          · exact hpos hbelow
          · exact hpos habove

theorem digits_stripZeros_pos (fuel : Nat) {d : Digits} (h : 0 < d.digits) :
    0 < (stripZeros fuel d).digits := by
  induction fuel generalizing d with
  | zero => exact h
  | succ fuel ih =>
      rw [stripZeros]
      split
      · exact ih (by dsimp only; omega)
      · exact h

theorem digits_shortest_pos {b : Binary} (hb : 0 < b.mantissa) (tie : Tie) :
    0 < (b.shortest tie).digits := by
  unfold Binary.shortest
  dsimp only
  split
  · next d hfound =>
      obtain ⟨n, -, hn⟩ := List.exists_of_findSome?_eq_some hfound
      obtain ⟨m, hm, rfl⟩ := Option.map_eq_some_iff.mp hn
      exact digits_stripZeros_pos 20 (nearest?_pos hb hm)
  · exact Nat.mul_pos (Nat.mul_pos hb (Nat.pow_pos (by decide)))
      (Nat.pow_pos (by decide))

end Decimal

namespace Json

open Text Decimal

/-! ## Shapes of numbers -/

/-- A number without a sign: a whole part, a fraction if there is one, and an
exponent if there is one. -/
inductive Unsigned : List Char → Prop where
  | mk {ds behind : List Char} {f? : Option (List Char)} {s : List Symbol}
      {e? : Option Int} (hwhole : Whole ds)
      (hends : digits (behind.map some) = ([], behind.map some))
      (hf : fraction? (behind.map some) = some (f?, s))
      (he : exponent? s = some (e?, [])) :
      Unsigned (ds ++ behind)

theorem Unsigned.literal {s : List Char} (h : Unsigned s) :
    (∃ l, literal? (s.map some) = some (l, [])) ∧
      ∃ l, literal? (some '-' :: s.map some) = some (l, []) := by
  cases h with
  | mk hwhole hends hf he =>
      obtain ⟨hunsigned, hsigned⟩ := literal?_parts hwhole hends hf he
      rw [List.map_append]
      exact ⟨⟨_, hunsigned⟩, ⟨_, hsigned⟩⟩

theorem whole_singleton {c : Char} (hc : isDigit c = true) : Whole [c] where
  ne_nil := List.cons_ne_nil c []
  digits := List.forall_mem_singleton.mpr hc
  zero _ h := (List.cons.inj h).2.symm

theorem whole_take {n k : Nat} (hk : 0 < k) : Whole ((natChars n).take k) where
  ne_nil h := by
    rcases List.take_eq_nil_iff.mp h with rfl | h
    · exact Nat.lt_irrefl 0 hk
    · exact natChars_ne_nil n h
  digits _ hd := isDigit_of_mem_natChars (List.mem_of_mem_take hd)
  zero rest h := by
    have hsplit : natChars n = '0' :: (rest ++ (natChars n).drop k) := by
      conv_lhs => rw [← List.take_append_drop k (natChars n), h]
      rfl
    exact (List.append_eq_nil_iff.mp (natChars_of_zero_cons hsplit)).1

theorem isDigit_of_mem_zeros {n : Nat} {c : Char} (h : c ∈ zeros n) :
    isDigit c = true := by
  rw [List.eq_of_mem_replicate h]
  decide

/-- Zeros may stand behind the digits of what is no zero. -/
theorem whole_zeros {n : Nat} (hn : 0 < n) (k : Nat) :
    Whole (natChars n ++ zeros k) where
  ne_nil := List.append_ne_nil_of_left_ne_nil (natChars_ne_nil n) _
  digits := List.forall_mem_append.mpr
    ⟨fun _ hc => isDigit_of_mem_natChars hc,
      fun _ hc => isDigit_of_mem_zeros hc⟩
  zero rest h := by
    obtain ⟨c, ds, hcons⟩ := List.exists_cons_of_ne_nil (natChars_ne_nil n)
    rw [hcons] at h
    obtain rfl : c = '0' := (List.cons.inj h).1
    obtain rfl := natChars_of_zero_cons hcons
    have hvalue := natOfDigits_natChars n
    rw [hcons] at hvalue
    exact absurd hvalue (Nat.ne_of_lt hn)

/-- A whole part with a point and digits behind it. -/
theorem unsigned_point {ds fs : List Char} (hds : Whole ds) (hne : fs ≠ [])
    (hfs : ∀ d ∈ fs, isDigit d = true) : Unsigned (ds ++ '.' :: fs) := by
  have hread := digits?_run hne hfs (rfl : digits [] = ([], []))
  rw [List.append_nil] at hread
  refine .mk hds rfl (?_ : _ = some (some fs, [])) rfl
  rw [List.map_cons, fraction?, hread, Option.map_some]

theorem unsigned_positional {d : Digits} (h : d.digits = 0 → d.exponent ≤ 0) :
    Unsigned (d.positional true) := by
  unfold Digits.positional
  dsimp only
  split
  · next hexponent =>
      have hwhole : Whole (natChars d.digits ++ zeros d.exponent.toNat) := by
        rcases Nat.eq_zero_or_pos d.digits with hzero | hpos
        · have hle := h hzero
          rw [show d.exponent.toNat = 0 by omega, zeros, List.replicate_zero,
            List.append_nil]
          exact whole_natChars _
        · exact whole_zeros hpos _
      exact unsigned_point hwhole (List.cons_ne_nil _ _)
        (List.forall_mem_singleton.mpr rfl)
  · split
    · next hplaces =>
        refine unsigned_point (whole_take (by omega)) ?_ fun d hd =>
          isDigit_of_mem_natChars (List.mem_of_mem_drop hd)
        rw [ne_eq, List.drop_eq_nil_iff]
        omega
    · refine unsigned_point (whole_singleton (c := '0') rfl)
        (List.append_ne_nil_of_right_ne_nil _ (natChars_ne_nil _)) ?_
      exact List.forall_mem_append.mpr
        ⟨fun _ hc => isDigit_of_mem_zeros hc,
          fun _ hc => isDigit_of_mem_natChars hc⟩

section Exponent

variable {ds : List Char} {mark : Char} (hmark : mark = '-' ∨ mark = '+')
  (n : Nat)
include hmark

theorem exponent?_signed :
    ∃ e,
      exponent? (('e' :: mark :: natChars n).map some) = some (some e, []) := by
  have hread :=
    digits?_run (natChars_ne_nil n) (fun _ hd => isDigit_of_mem_natChars hd)
      (rfl : digits [] = ([], []))
  rw [List.append_nil] at hread
  rw [List.map_cons, List.map_cons, exponent?]
  rcases hmark with rfl | rfl
  · rw [signedExponent?, hread]
    exact ⟨_, rfl⟩
  · rw [signedExponent?, hread]
    exact ⟨_, rfl⟩

theorem unsigned_exponent (hds : Whole ds) :
    Unsigned (ds ++ 'e' :: mark :: natChars n) :=
  let ⟨_, he⟩ := exponent?_signed hmark n
  .mk hds rfl rfl he

theorem unsigned_point_exponent (hds : Whole ds) {fs : List Char}
    (hne : fs ≠ []) (hfs : ∀ d ∈ fs, isDigit d = true) :
    Unsigned (ds ++ '.' :: (fs ++ 'e' :: mark :: natChars n)) := by
  obtain ⟨e, he⟩ := exponent?_signed hmark n
  have hread := digits?_run hne hfs
    (rfl : digits (some 'e' :: some mark :: (natChars n).map some) = ([], _))
  refine .mk hds rfl (?_ : _ = some (some fs, _)) he
  rw [List.map_cons, List.map_append, fraction?, List.map_cons, List.map_cons,
    hread, Option.map_some]

end Exponent

theorem unsigned_scientific (d : Digits) : Unsigned d.scientific := by
  have hdigits : ∀ c ∈ natChars d.digits, isDigit c = true := fun _ hc =>
    isDigit_of_mem_natChars hc
  have hmark (power : Int) : (if power < 0 then '-' else '+') = '-' ∨
      (if power < 0 then '-' else '+') = '+' := by
    split <;> simp
  unfold Digits.scientific
  cases hcons : natChars d.digits with
  | nil => exact absurd hcons (natChars_ne_nil _)
  | cons c ds =>
      rw [hcons] at hdigits
      obtain ⟨hc, hds⟩ := List.forall_mem_cons.mp hdigits
      cases ds with
      | nil => exact unsigned_exponent (hmark _) _ (whole_singleton hc)
      | cons f fs =>
          exact unsigned_point_exponent (hmark _) _ (whole_singleton hc)
            (List.cons_ne_nil f fs) hds

theorem unsigned_magnitude (b : Binary) :
    Unsigned (realLayout.magnitude b) := by
  have hshortest (hne : b.mantissa ≠ 0) :
      (b.shortest realLayout.tie).digits ≠ 0 :=
    Nat.ne_of_gt (digits_shortest_pos (Nat.pos_of_ne_zero hne) realLayout.tie)
  unfold Layout.magnitude
  generalize hd : (if b.mantissa = 0 then (⟨0, 0⟩ : Digits) else
    b.shortest realLayout.tie) = d
  have hdigits : d.digits = 0 → d.exponent ≤ 0 := by
    subst hd
    split
    · exact fun _ => Int.le_refl 0
    · next hne => exact fun hzero => absurd hzero (hshortest hne)
  dsimp only
  split
  · exact unsigned_positional hdigits
  · exact unsigned_scientific d

/-! ## The text of a number -/

/-- The text of a finite number is that of a number as a whole. -/
theorem Number.Finite.spelled {n : Number} (h : n.Finite) : n.Spelled := by
  cases n with
  | int n => exact ⟨_, literal?_intText n⟩
  | real x =>
      have hx : x.isFinite = true := h
      obtain ⟨hnan, hinf⟩ := isFinite_iff.mp hx
      have htext : (Number.real x).text = (if isNegative x then "-" else "") ++
          String.ofList (realLayout.magnitude (Binary.ofFloat x)) := by
        show (if x.isFinite then realLayout.render x else "null") = _
        rw [if_pos hx, Layout.render, if_neg hnan]
        exact if_neg hinf
      obtain ⟨hunsigned, hsigned⟩ :=
        (unsigned_magnitude (Binary.ofFloat x)).literal
      rw [Spelled, htext, symbols_append, symbols_ofList]
      split
      · exact hsigned
      · exact hunsigned

end Json

end Placard
