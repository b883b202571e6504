import Placard.Decimal.Reader
import Placard.Proofs.Decimal.Whole

/-!
# Numbers that stay finite

What is read in steps is multiplied and divided by powers of ten, and every step
rounds. A product may be too large, and is looked at for that. A quotient is
not, and need not be: what is divided comes from 64 bits, and the divisor is at
least one. The magnitude of a number is followed here by the place of its first
binary digit, which rounding moves up by one place at most.
-/

namespace Placard.Decimal

open Float.Model Float.Model.UnpackedFloat

/-! ## Magnitudes -/

/-- Zero, or finite and less than `2 ^ k` in magnitude. -/
def Under (k : Int) : UnpackedFloat → Prop
  | .zero _ => True
  | .finite _ m e _ => totalExponent m e ≤ k
  | .infinity _ | .notANumber => False

theorem Under.isFinite {k : Int} {u : UnpackedFloat} (h : Under k u) :
    u.isFinite = true := by
  cases u with
  | zero | finite => rfl
  | infinity | notANumber => exact h.elim

theorem Under.mono {k k' : Int} {u : UnpackedFloat} (h : Under k u)
    (hk : k ≤ k') : Under k' u := by
  cases u with
  | zero => trivial
  | finite => exact Int.le_trans h hk
  | infinity | notANumber => exact h.elim

theorem Under.neg {k : Int} {u : UnpackedFloat} (h : Under k u) :
    Under k u.neg := by
  cases u with
  | zero | finite => exact h
  | infinity | notANumber => exact h.elim

theorem log2_le {m j : Nat} (h : m < 2 ^ (j + 1)) : m.log2 ≤ j := by
  rcases Nat.eq_zero_or_pos m with rfl | hm
  · simp
  · exact Nat.le_of_lt_succ ((Nat.log2_lt hm.ne').mpr h)

theorem log2_div_le (a : Nat) {b : Nat} (hb : 0 < b) :
    (a / b).log2 ≤ a.log2 - b.log2 := by
  have ha := Nat.lt_log2_self (n := a)
  have hlow := Nat.log2_self_le hb.ne'
  refine log2_le ((Nat.div_lt_iff_lt_mul hb).mpr (Nat.lt_of_lt_of_le ha ?_))
  calc 2 ^ (a.log2 + 1) ≤ 2 ^ (a.log2 - b.log2 + 1 + b.log2) :=
        Nat.pow_le_pow_right (by decide) (by omega)
    _ = 2 ^ (a.log2 - b.log2 + 1) * 2 ^ b.log2 := Nat.pow_add 2 _ _
    _ ≤ 2 ^ (a.log2 - b.log2 + 1) * b := Nat.mul_le_mul_left _ hlow

/-! ## Rounding -/

theorem mantissa_shiftRight (em : ExtendedMantissa) (n : Nat) :
    (em >>> n).mantissa = em.mantissa / 2 ^ n := by
  show (Nat.repeat ExtendedMantissa.shiftRightOne n em).mantissa = _
  induction n with
  | zero => simp [Nat.repeat]
  | succ n ih =>
      rw [Nat.repeat, ExtendedMantissa.shiftRightOne, ih,
        Nat.div_div_eq_div_mul, Nat.pow_succ]

theorem mantissa_ofMantissaAndAccuracy (m : Nat) (accuracy : Accuracy) :
    (ExtendedMantissa.ofMantissaAndAccuracy m accuracy).mantissa = m := by
  unfold ExtendedMantissa.ofMantissaAndAccuracy
  split <;> rfl

theorem roundedMantissa_le (em : ExtendedMantissa) :
    em.roundedMantissa ≤ em.mantissa + 1 := by
  unfold ExtendedMantissa.roundedMantissa Accuracy.roundToNearestEven
  split <;> omega

/-- Digits that are shifted out take nothing away from the place of the
first. -/
theorem totalExponent_shiftToTargetExponent (m : Nat) (e : Int)
    (accuracy : Accuracy) :
    totalExponent (shiftToTargetExponent .binary64 m e accuracy).1.mantissa
      (shiftToTargetExponent .binary64 m e accuracy).2 ≤
        max (totalExponent m e) (-1073) := by
  simp only [shiftToTargetExponent, shiftToExponent, targetExponent_eq,
    mantissa_shiftRight, mantissa_ofMantissaAndAccuracy]
  generalize hn : (max (totalExponent m e - 53) (-1074) - e).toNat = n
  have hlog := log2_div_le m (Nat.two_pow_pos n)
  rw [Nat.log2_two_pow] at hlog
  unfold totalExponent at hn ⊢
  omega

theorem under_roundWithAccuracy {k : Int} {s : Sign} {m : Nat} {e : Int}
    {accuracy : Accuracy} (h : totalExponent m e ≤ k) (hk : -1073 ≤ k) :
    Under (k + 1) (roundWithAccuracy .binary64 s m e accuracy) := by
  have hfirst := totalExponent_shiftToTargetExponent m e accuracy
  unfold roundWithAccuracy
  generalize shiftToTargetExponent .binary64 m e accuracy = shifted at hfirst ⊢
  obtain ⟨em, e₁⟩ := shifted
  dsimp only at hfirst ⊢
  have hrounded : em.roundedMantissa.log2 ≤ em.mantissa.log2 + 1 := by
    have hle := roundedMantissa_le em
    have hlt := Nat.lt_log2_self (n := em.mantissa)
    have hpos := Nat.two_pow_pos (em.mantissa.log2 + 1)
    refine log2_le ?_
    rw [Nat.pow_succ]
    omega
  have hsecond :=
    totalExponent_shiftToTargetExponent em.roundedMantissa e₁ .exact
  split
  · trivial
  · show totalExponent _ _ ≤ k + 1
    unfold totalExponent at *
    omega

theorem log2_mono {a b : Nat} (h : a ≤ b) : a.log2 ≤ b.log2 :=
  log2_le (Nat.lt_of_le_of_lt h Nat.lt_log2_self)

/-- Where there are digits enough, 53 of them are left. -/
theorem log2_shiftToTargetExponent {m : Nat} {e : Int} (accuracy : Accuracy)
    (hlog : 52 ≤ m.log2) (htotal : -1021 ≤ totalExponent m e) :
    (shiftToTargetExponent .binary64 m e accuracy).1.mantissa.log2 = 52 ∧
      (shiftToTargetExponent .binary64 m e accuracy).2 =
        totalExponent m e - 53 := by
  have hne : m ≠ 0 := by
    rintro rfl
    simp at hlog
  have hn : (max (totalExponent m e - 53) (-1074) - e).toNat = m.log2 - 52 := by
    unfold totalExponent at *
    omega
  simp only [shiftToTargetExponent, shiftToExponent, targetExponent_eq,
    mantissa_shiftRight, mantissa_ofMantissaAndAccuracy, hn]
  have hlow := Nat.log2_self_le hne
  have hhigh := Nat.lt_log2_self (n := m)
  have hpow : 2 ^ m.log2 = 2 ^ 52 * 2 ^ (m.log2 - 52) := by
    rw [← Nat.pow_add]
    congr 1
    omega
  have hdiv : 2 ^ 52 ≤ m / 2 ^ (m.log2 - 52) ∧
      m / 2 ^ (m.log2 - 52) < 2 ^ 53 := by
    refine ⟨(Nat.le_div_iff_mul_le (Nat.two_pow_pos _)).mpr (by omega),
      (Nat.div_lt_iff_lt_mul (Nat.two_pow_pos _)).mpr ?_⟩
    rw [Nat.pow_succ] at hhigh
    omega
  refine ⟨(Nat.log2_eq_iff (by omega)).mpr hdiv, ?_⟩
  unfold totalExponent
  omega

/-- Rounding leaves 53 digits of them, from the place of the first on, or from
the next where it has carried over them all. -/
theorem roundWithAccuracy_eq_finite {m : Nat} {e : Int} (s : Sign)
    (accuracy : Accuracy) (hlog : 52 ≤ m.log2)
    (htotal : -1021 ≤ totalExponent m e) :
    ∃ m' e' hpos,
      roundWithAccuracy .binary64 s m e accuracy = .finite s m' e' hpos ∧
      m'.log2 = 52 ∧ totalExponent m e ≤ e' + 53 ∧
      e' + 53 ≤ totalExponent m e + 1 := by
  obtain ⟨hfirst, hexponent⟩ := log2_shiftToTargetExponent accuracy hlog htotal
  unfold roundWithAccuracy
  generalize shiftToTargetExponent .binary64 m e accuracy =
    shifted at hfirst hexponent ⊢
  obtain ⟨em, e₁⟩ := shifted
  dsimp only at hfirst hexponent ⊢
  obtain ⟨hlow, hhigh⟩ := bounds_of_log2 hfirst
  have hge : em.mantissa ≤ em.roundedMantissa := by
    unfold ExtendedMantissa.roundedMantissa Accuracy.roundToNearestEven
    split <;> omega
  have hle := roundedMantissa_le em
  have hrounded : 52 ≤ em.roundedMantissa.log2 ∧ em.roundedMantissa.log2 ≤ 53 :=
    ⟨hfirst ▸ log2_mono hge, log2_le (by omega)⟩
  have hagain : -1021 ≤ totalExponent em.roundedMantissa e₁ := by
    unfold totalExponent at *
    omega
  obtain ⟨hsecond, hexponent'⟩ :=
    log2_shiftToTargetExponent .exact hrounded.1 hagain
  split
  · next hzero =>
      rw [hzero] at hsecond
      simp at hsecond
  · next hne =>
      refine ⟨_, _, Nat.pos_of_ne_zero hne, rfl, hsecond, ?_⟩
      unfold totalExponent at *
      omega

/-! ## Packing -/

theorem under_unpack_packComponents {k : Int} {s : Sign}
    {exponent : BitVec 11} {mantissa : BitVec 52} (hlow : -1022 ≤ k)
    (hhigh : (exponent.toNat : Int) ≤ k + 1022) (hmax : exponent ≠ -1#11) :
    Under k (UnpackedFloat.unpack .binary64
      (packComponents .binary64 s exponent mantissa)) := by
  have hmantissa := mantissa.isLt
  simp only [UnpackedFloat.unpack, unpackMantissa_packComponents,
    unpackExponent_packComponents, if_neg hmax]
  split
  · split
    · trivial
    · next hzero _ =>
        have hlog : mantissa.toNat.log2 ≤ 51 := log2_le hmantissa
        subst hzero
        show totalExponent mantissa.toNat
          (((0#11).toNat : Int) - (1023 + 52) + 1) ≤ k
        have hexponent : ((0#11).toNat : Int) = 0 := rfl
        unfold totalExponent
        omega
  · have hlog : (1#1 ++ mantissa).toNat.log2 ≤ 52 :=
      log2_le (1#1 ++ mantissa).isLt
    show totalExponent (1#1 ++ mantissa).toNat
      ((exponent.toNat : Int) - (1023 + 52)) ≤ k
    unfold totalExponent
    omega

section Finite

variable {s : Sign} {m : Nat} {e : Int} {hpos : 0 < m}

theorem biased_eq (e : Int) :
    e + ((2 ^ (11 - 1) - 1 : Nat) : Int) + (52 : Nat) = e + 1075 := by
  norm_num
  omega

theorem isInf_unpack_pack (he : 971 < e) :
    (Float.Model.pack (.finite s m e hpos)).unpack.isInf = true := by
  show (UnpackedFloat.unpack .binary64 (UnpackedFloat.pack .binary64 _)).isInf =
    true
  simp only [UnpackedFloat.pack, Format.mantissaBits, Format.exponentBias,
    biased_eq]
  rw [if_pos (by omega)]
  cases s <;> rfl

theorem under_unpack_pack_finite {k : Int} (h : totalExponent m e ≤ k)
    (hlow : -1022 ≤ k) (he : e ≤ 971) :
    Under k (Float.Model.pack (.finite s m e hpos)).unpack := by
  show Under k (UnpackedFloat.unpack .binary64 (UnpackedFloat.pack .binary64 _))
  unfold totalExponent at h
  simp only [UnpackedFloat.pack, Format.mantissaBits, Format.exponentBias,
    biased_eq]
  rw [if_neg (by omega)]
  split
  · have hexponent : (BitVec.ofNat 11 (e + 1075).toNat).toNat =
        (e + 1075).toNat := by
      rw [BitVec.toNat_ofNat]
      omega
    refine under_unpack_packComponents hlow (by rw [hexponent]; omega)
      fun hmax => ?_
    have : (e + 1075).toNat = 2047 := hexponent ▸ congrArg BitVec.toNat hmax
    omega
  · exact under_unpack_packComponents hlow (by show (0 : Int) ≤ _; omega)
      (by decide)

/-- What is unpacked is small enough to be packed again. -/
theorem exponent_le_of_unpack {b : BitVec 64}
    (h : UnpackedFloat.unpack .binary64 b = .finite s m e hpos) : e ≤ 971 := by
  have hlt : (@unpackExponent .binary64 b).toNat < 2 ^ 11 := BitVec.isLt _
  unfold UnpackedFloat.unpack at h
  dsimp only at h
  split at h
  · split at h <;> cases h
  · next hmax =>
      have hne : (@unpackExponent .binary64 b).toNat ≠ 2047 := fun heq =>
        hmax (BitVec.eq_of_toNat_eq heq)
      split at h
      · next hzero =>
          split at h
          · cases h
          · obtain ⟨-, -, rfl⟩ := UnpackedFloat.finite.inj h
            rw [hzero]
            decide
      · obtain ⟨-, -, rfl⟩ := UnpackedFloat.finite.inj h
        show ((@unpackExponent .binary64 b).toNat : Int) - (1023 + 52) ≤ 971
        omega

end Finite

theorem under_unpack_pack {k : Int} {u : UnpackedFloat} (h : Under k u)
    (hlow : -1022 ≤ k) (hhigh : k ≤ 972) :
    Under k (Float.Model.pack u).unpack := by
  cases u with
  | infinity | notANumber => exact h.elim
  | zero s => cases s <;> trivial
  | finite s m e =>
      replace h : totalExponent m e ≤ k := h
      refine under_unpack_pack_finite h hlow ?_
      unfold totalExponent at h
      omega

/-- What can be packed is finite, or infinite for being too large. -/
theorem isFinite_or_isInf_pack {u : UnpackedFloat} (h : u.isFinite = true) :
    (Float.Model.pack u).unpack.isFinite = true ∨
      (Float.Model.pack u).unpack.isInf = true := by
  cases u with
  | infinity | notANumber => cases h
  | zero s => exact Or.inl (by cases s <;> rfl)
  | finite s m e =>
      by_cases he : e ≤ 971
      · exact Or.inl (under_unpack_pack_finite (Int.le_max_left _ (-1022))
          (Int.le_max_right _ _) he).isFinite
      · exact Or.inr (isInf_unpack_pack (by omega))

/-! ## Products and quotients -/

/-- Finite and, in magnitude, not less than half of `2 ^ k`. -/
def AtLeast (k : Int) : UnpackedFloat → Prop
  | .finite _ m e _ => k ≤ totalExponent m e
  | .zero _ | .infinity _ | .notANumber => False

instance (k : Int) : (u : UnpackedFloat) → Decidable (AtLeast k u)
  | .finite _ m e _ => inferInstanceAs (Decidable (k ≤ totalExponent m e))
  | .zero _ | .infinity _ | .notANumber => .isFalse id

theorem exists_under {u : UnpackedFloat} (h : u.isFinite = true) :
    ∃ k, Under k u := by
  cases u with
  | zero => exact ⟨0, trivial⟩
  | finite _ m e => exact ⟨totalExponent m e, Int.le_refl _⟩
  | infinity | notANumber => cases h

theorem under_mul {k l : Int} {u v : UnpackedFloat} (hu : Under k u)
    (hv : Under l v) (hlow : -1073 ≤ k + l) :
    Under (k + l + 1) (UnpackedFloat.mul .binary64 u v) := by
  cases u with
  | infinity | notANumber => exact hu.elim
  | zero s =>
      cases v with
      | infinity | notANumber => exact hv.elim
      | zero | finite => trivial
  | finite s m e =>
      cases v with
      | infinity | notANumber => exact hv.elim
      | zero => trivial
      | finite s' m' e' =>
          refine under_roundWithAccuracy ?_ hlow
          have hlog : (m * m').log2 ≤ m.log2 + m'.log2 + 1 := by
            have hlt : m * m' < 2 ^ (m.log2 + 1) * 2 ^ (m'.log2 + 1) :=
              Nat.mul_lt_mul_of_lt_of_le Nat.lt_log2_self Nat.lt_log2_self.le
                (Nat.two_pow_pos _)
            rw [← Nat.pow_add] at hlt
            exact log2_le (hlt.trans_eq (by congr 1; omega))
          replace hu : totalExponent m e ≤ k := hu
          replace hv : totalExponent m' e' ≤ l := hv
          unfold totalExponent at *
          omega

theorem under_div {k l : Int} {u v : UnpackedFloat} (hu : Under k u)
    (hv : AtLeast l v) :
    Under (max (k - l + 1) (-1073) + 1) (UnpackedFloat.div .binary64 u v) := by
  cases v with
  | zero | infinity | notANumber => exact hv.elim
  | finite s' m' e' hpos =>
      cases u with
      | infinity | notANumber => exact hu.elim
      | zero => trivial
      | finite s m e =>
          simp only [UnpackedFloat.div, divCore, targetExponent_eq,
            Nat.shiftLeft_eq]
          refine under_roundWithAccuracy ?_ (by omega)
          generalize htop : max (totalExponent m e - totalExponent m' e' - 53)
            (-1074) = top
          generalize hn : (e - e' - min (e - e') top).toNat = n
          have hlog := log2_div_le (m * 2 ^ n) hpos
          have hlog' : (m * 2 ^ n).log2 ≤ m.log2 + n := by
            rcases Nat.eq_zero_or_pos m with rfl | hm
            · simp
            · exact (log2_mul_two_pow hm.ne' n).le
          replace hu : totalExponent m e ≤ k := hu
          replace hv : l ≤ totalExponent m' e' := hv
          unfold totalExponent at *
          omega

/-! ## Doubles -/

theorem isFinite_of_under {k : Int} {x : Float} (h : Under k x.toModel.unpack) :
    x.isFinite = true :=
  h.isFinite

/-- A product of finite numbers is finite if it is not too large. -/
theorem isFinite_mul {x y : Float} (hx : x.isFinite = true)
    (hy : y.isFinite = true) (h : (x * y).isInf = false) :
    (x * y).isFinite = true := by
  obtain ⟨k, hk⟩ := exists_under hx
  obtain ⟨l, hl⟩ := exists_under hy
  have hproduct :=
    under_mul (hk.mono (Int.le_max_left k 0)) (hl.mono (Int.le_max_left l 0))
      (by omega)
  refine (isFinite_or_isInf_pack hproduct.isFinite).resolve_right fun hinf => ?_
  rw [show (x * y).isInf = true from hinf] at h
  cases h

theorem isFinite_neg {x : Float} (hx : x.isFinite = true) :
    (-x).isFinite = true := by
  show (Float.Model.pack x.toModel.unpack.neg).unpack.isFinite = true
  replace hx : x.toModel.unpack.isFinite = true := hx
  cases hu : x.toModel.unpack with
  | infinity | notANumber =>
      rw [hu] at hx
      cases hx
  | zero s => cases s <;> rfl
  | finite s m e =>
      exact (under_unpack_pack_finite (Int.le_max_left _ (-1022))
        (Int.le_max_right _ _) (exponent_le_of_unpack hu)).isFinite

theorem under_float_div {k l k' : Int} {x y : Float}
    (hx : Under k x.toModel.unpack) (hy : AtLeast l y.toModel.unpack)
    (hk : k - l + 2 ≤ k') (hlow : -1022 ≤ k') (hhigh : k' ≤ 972) :
    Under k' (x / y).toModel.unpack :=
  under_unpack_pack ((under_div hx hy).mono (by omega)) hlow hhigh

theorem under_float_neg {k : Int} {x : Float} (h : Under k x.toModel.unpack)
    (hlow : -1022 ≤ k) (hhigh : k ≤ 972) : Under k (-x).toModel.unpack :=
  under_unpack_pack h.neg hlow hhigh

theorem under_ofNat {n : Nat} (h : n < 2 ^ 64) :
    Under 66 (Float.ofNat n).toModel.unpack := by
  by_cases hsmall : n < 2 ^ 53
  · rcases Nat.eq_zero_or_pos n with rfl | hpos
    · trivial
    · rw [toModel_ofNat hpos hsmall]
      refine under_unpack_pack ?_ (by decide) (by decide)
      show totalExponent _ _ ≤ 66
      have hlift := lift_eq hpos hsmall
      rw [totalExponent, log2_lifted hpos hsmall]
      omega
  · have hpair : ¬ (n < 2 ^ 53 ∧ 0 ≤ 22) := fun h => hsmall h.1
    have hne : n ≠ 0 := by
      rintro rfl
      exact hsmall (by decide)
    have hlarge :
        ¬ (0 : Int) < -((2 ^ Format.binary64.exponentBits : Int) + n.log2) := by
      show ¬ (0 : Int) < -((2 ^ 11 : Int) + n.log2)
      omega
    show Under 66 (Float.ofScientific n false 0).toModel.unpack
    rw [Float.ofScientific, dif_neg hpair]
    show Under 66 (Float.Model.pack
      (UnpackedFloat.ofScientific .binary64 n 0)).unpack
    rw [UnpackedFloat.ofScientific, dif_neg hne, if_neg (by decide),
      if_neg hlarge, if_pos (by decide)]
    generalize hu : finite Sign.positive
      (n <<< Format.binary64.mantissaBits) _ _ = u
    generalize hv : finite Sign.positive (10 ^ (0 : Int).toNat) 0 _ = v
    refine under_unpack_pack (under_mul (k := 64) (l := 1) ?_ ?_ (by decide))
      (by decide) (by decide)
    · rw [← hu]
      show totalExponent (n <<< 53) (-53) ≤ 64
      have hlog : n.log2 ≤ 63 := log2_le h
      rw [totalExponent, Nat.shiftLeft_eq, log2_mul_two_pow hne]
      omega
    · rw [← hv]
      show totalExponent 1 0 ≤ 1
      decide

theorem under_ofInt {z : Int} (h : z.natAbs < 2 ^ 64) :
    Under 66 (Float.ofInt z).toModel.unpack := by
  cases z with
  | ofNat n => exact under_ofNat h
  | negSucc n => exact under_float_neg (under_ofNat h) (by decide) (by decide)

/-! ## Numbers read in steps -/

/-- Three decimal digits are no more than ten binary ones. -/
theorem log2_ten_pow_le (n : Nat) : 3 * (10 ^ n).log2 ≤ 10 * n := by
  have hpos : 0 < 10 ^ n := Nat.pow_pos (by decide)
  refine (Nat.pow_le_pow_iff_right (a := 2) (by decide)).mp ?_
  calc
    2 ^ (3 * (10 ^ n).log2) = (2 ^ (10 ^ n).log2) ^ 3 := by
      rw [Nat.mul_comm, Nat.pow_mul]
    _ ≤ (10 ^ n) ^ 3 := Nat.pow_le_pow_left (Nat.log2_self_le hpos.ne') 3
    _ = (10 ^ 3) ^ n := by rw [← Nat.pow_mul, ← Nat.pow_mul, Nat.mul_comm]
    _ ≤ (2 ^ 10) ^ n := Nat.pow_le_pow_left (by decide) n
    _ = 2 ^ (10 * n) := (Nat.pow_mul 2 10 n).symm

theorem atLeast_ofScientific {n : Nat} (hlow : 22 < n) (hhigh : n < 307) :
    AtLeast 1 (Float.ofScientific 1 false n).toModel.unpack := by
  have hpair : ¬ (1 < 2 ^ 53 ∧ n ≤ 22) := fun h => absurd h.2 (by omega)
  have hlog := log2_ten_pow_le n
  have hmantissa : (1 <<< 53 * 10 ^ n).log2 = (10 ^ n).log2 + 53 := by
    rw [Nat.one_shiftLeft, Nat.mul_comm]
    exact log2_mul_two_pow (Nat.pow_pos (by decide)).ne' 53
  obtain ⟨m, e, hpos, hround, hm, hle, hge⟩ := roundWithAccuracy_eq_finite
    (m := 1 <<< 53 * 10 ^ n) (e := -53 + 0) .positive .exact (by omega) (by
      unfold totalExponent
      omega)
  unfold totalExponent at hle hge
  rw [Float.ofScientific, dif_neg hpair]
  show AtLeast 1 (Float.Model.pack
    (UnpackedFloat.ofScientific .binary64 1 n)).unpack
  have hlarge : ¬ (n : Int) > 2 ^ Format.binary64.exponentBits := by
    show ¬ (n : Int) > 2 ^ 11
    omega
  have hsmall :
      ¬ (n : Int) < -((2 ^ Format.binary64.exponentBits : Int) +
        Nat.log2 1) := by
    show ¬ (n : Int) < -((2 ^ 11 : Int) + _)
    omega
  rw [UnpackedFloat.ofScientific, dif_neg (by decide), if_neg hlarge,
    if_neg hsmall, if_pos (Int.natCast_nonneg n)]
  show AtLeast 1 (Float.Model.pack
    (roundWithAccuracy .binary64 .positive (1 <<< 53 * 10 ^ n) (-53 + 0)
      .exact)).unpack
  rw [hround, unpack_pack_finite hpos hm (by omega) (by omega)]
  show 1 ≤ totalExponent m e
  unfold totalExponent
  omega

theorem atLeast_powerOfTen {n : Nat} (h : n ≤ 308) :
    AtLeast 1 (powerOfTen n).toModel.unpack := by
  have hsmall :
      ((List.range 23).all fun n => decide
        (AtLeast 1 (powerOfTen n).toModel.unpack)) = true := by decide +kernel
  have hpower : powerOfTen n = Float.ofScientific 1 false n := by
    have hlarge : ¬ (310 : Int) < n + (1 : Nat) := by omega
    have hnegative : ¬ (n : Int) + (1 : Nat) < -330 := by omega
    rw [powerOfTen, nearestFloat, if_neg (by decide), if_neg hlarge,
      if_neg hnegative, if_neg (by omega), Int.toNat_natCast]
  by_cases hn : n ≤ 22
  · exact of_decide_eq_true
      (List.all_eq_true.mp hsmall n (List.mem_range.mpr (by omega)))
  · by_cases hlast : n < 307
    · rw [hpower]
      exact atLeast_ofScientific (by omega) hlast
    · obtain rfl | rfl : n = 307 ∨ n = 308 := by omega
      · decide +kernel
      · decide +kernel

theorem isFinite_powerOfTen {n : Nat} (h : n ≤ 308) :
    (powerOfTen n).isFinite = true := by
  have hleast := atLeast_powerOfTen h
  show (powerOfTen n).toModel.unpack.isFinite = true
  generalize (powerOfTen n).toModel.unpack = u at hleast ⊢
  cases u with
  | finite => rfl
  | zero | infinity | notANumber => exact hleast.elim

/-- Division by the largest power of ten leaves no more than there was. -/
theorem under_div_largest {x p : Float} (hp : p = powerOfTen 308)
    (hx : Under 66 x.toModel.unpack) : Under 66 (x / p).toModel.unpack := by
  have hlarge : AtLeast 1024 p.toModel.unpack := by
    rw [hp]
    decide +kernel
  exact under_float_div hx hlarge (by decide) (by decide) (by decide)

/-- What is read in steps from 64 bits is finite. -/
theorem isFinite_of_scaled? {x y : Float} {exponent : Int}
    (hx : Under 66 x.toModel.unpack) (h : scaled? x exponent = some y) :
    y.isFinite = true := by
  fun_induction scaled? x exponent with
  | case1 => cases h
  | case2 x exponent hle hpos product hinf =>
      obtain rfl := Option.some.inj h
      exact isFinite_mul (isFinite_of_under hx) (isFinite_powerOfTen (by omega))
        (Bool.not_eq_true _ ▸ hinf)
  | case3 x exponent hle hneg =>
      cases h
      exact isFinite_of_under (k := 67)
        (under_float_div hx (atLeast_powerOfTen (by omega)) (by decide)
          (by decide) (by decide))
  | case4 x exponent _ hzero =>
      cases h
      exact isFinite_of_under hx
  | case5 => cases h
  | case6 x exponent _ _ _ ih => exact ih (under_div_largest rfl hx) h

end Placard.Decimal
