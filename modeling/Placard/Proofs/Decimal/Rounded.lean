import Placard.Proofs.Decimal.Magnitude

/-!
# Doubles that are converted without loss

Unpacked, a double is rounded already: its exponent is the one that rounding
would give it. So nothing changes when it is multiplied by one and rounded
again.

The integer that a double is converted to is converted back without loss. If it
has at most 53 digits, it is a double itself, and if it has more, then so has
the double that it comes from, which has no fraction then. Only the largest
integer of 64 bits is different, as it stands for all that is beyond it. A
length on the screen is converted so, and has no sign if it is a product of
lengths that have none.
-/

namespace Placard.Decimal

open Float.Model Float.Model.UnpackedFloat

/-! ## What the bits stand for -/

section Bits

variable (b : BitVec 64)

theorem toNat_unpackExponent :
    (@unpackExponent .binary64 b).toNat = b.toNat / 2 ^ 52 % 2 ^ 11 := by
  show (b.extractLsb 62 52).toNat = _
  rw [BitVec.extractLsb_toNat, Nat.shiftRight_eq_div_pow]

theorem toNat_unpackMantissa :
    (@unpackMantissa .binary64 b).toNat = b.toNat % 2 ^ 52 := by
  show (b.extractLsb 51 0).toNat = _
  rw [BitVec.extractLsb_toNat, Nat.shiftRight_zero]

theorem toNat_unpackSign :
    (@unpackSign .binary64 b).toNat = b.toNat / 2 ^ 63 := by
  show (b.extractLsb 63 63).toNat = _
  have hlt := b.isLt
  rw [BitVec.extractLsb_toNat, Nat.shiftRight_eq_div_pow, Nat.mod_eq_of_lt]
  omega

end Bits

theorem log2_implicit_append (v : BitVec 52) : (1#1 ++ v).toNat.log2 = 52 := by
  have hlt := v.isLt
  rw [toNat_implicit_append, Nat.log2_eq_iff (by omega)]
  omega

section Reading

variable {x : Float} {s : Sign} {m : Nat} {e : Int} {hpos : 0 < m}

/-- The sign bit is that of the number which is unpacked. -/
theorem isNegative_iff (x : Float) :
    isNegative x = true ↔
      Sign.ofBitVec (@unpackSign .binary64 x.toModel.toBits.toBitVec) =
      .negative := by
  have hsign := toNat_unpackSign x.toModel.toBits.toBitVec
  have hbit : isNegative x = true ↔
      (@unpackSign .binary64 x.toModel.toBits.toBitVec).toNat = 1 := by
    rw [hsign]
    exact decide_eq_true_iff
  rw [hbit, Sign.ofBitVec]
  split
  · next hzero =>
      rw [hzero]
      exact iff_of_false (by decide) fun h => by cases h
  · next hone =>
      refine ⟨fun _ => rfl, fun _ => ?_⟩
      have hne : (@unpackSign .binary64 x.toModel.toBits.toBitVec).toNat ≠ 0 :=
        fun heq => hone (BitVec.eq_of_toNat_eq heq)
      have hlt := (@unpackSign .binary64 x.toModel.toBits.toBitVec).isLt
      omega

/-- What a double is unpacked to is its sign and magnitude, and is rounded. -/
theorem ofFloat_of_unpack (h : x.toModel.unpack = .finite s m e hpos) :
    (isNegative x = true ↔ s = .negative) ∧ (Binary.ofFloat x).mantissa = m ∧
      (Binary.ofFloat x).exponent = e ∧ Canonical m e := by
  have hexponent := toNat_unpackExponent x.toModel.toBits.toBitVec
  have hmantissa := toNat_unpackMantissa x.toModel.toBits.toBitVec
  have hword : x.toModel.toBits.toBitVec.toNat = x.toBits.toNat := rfl
  rw [hword] at hexponent hmantissa
  rw [isNegative_iff]
  rw [Float.Model.unpack, UnpackedFloat.unpack] at h
  dsimp only at h
  simp only [Binary.ofFloat, Nat.pow_eq, ← hexponent, ← hmantissa]
  split at h
  · split at h <;> cases h
  · split at h
    · next hzero =>
        split at h
        · cases h
        · obtain ⟨rfl, rfl, rfl⟩ := UnpackedFloat.finite.inj h
          rw [hzero]
          refine ⟨Iff.rfl, rfl, rfl, ?_⟩
          have hlog :
              (@unpackMantissa .binary64 x.toModel.toBits.toBitVec).toNat.log2 ≤
                51 :=
            log2_le (BitVec.isLt _)
          show Canonical _ (-1074)
          unfold Canonical totalExponent
          omega
    · next hne =>
        obtain ⟨rfl, rfl, rfl⟩ := UnpackedFloat.finite.inj h
        have hbiased :
            (@unpackExponent .binary64 x.toModel.toBits.toBitVec).toNat ≠ 0 :=
          fun heq => hne (BitVec.eq_of_toNat_eq heq)
        rw [if_neg hbiased]
        refine ⟨Iff.rfl, (toNat_implicit_append _).symm, rfl, ?_⟩
        refine canonical_of_log2 ?_ ?_
        · exact log2_implicit_append _
        · show (-1074 : Int) ≤ _ - (1023 + 52)
          omega

end Reading

/-- Nothing is lost when what has been unpacked is packed again. -/
theorem eq_of_pack_unpack {x y : Float}
    (h : y.toModel = Float.Model.pack x.toModel.unpack) : y = x := by
  refine Float.toBits_inj.mp (UInt64.toBitVec_inj.mp ?_)
  show y.toModel.toBits.toBitVec = x.toModel.toBits.toBitVec
  rw [h]
  exact pack_unpack_of_valid x.toModel.valid

theorem float_mul_one (x : Float) : x * 1 = x := by
  have hone : (1 : Float).toModel.unpack =
    .finite .positive (2 ^ 52) (-52) (by decide) := rfl
  have hmul :
      UnpackedFloat.mul .binary64 x.toModel.unpack (1 : Float).toModel.unpack =
        x.toModel.unpack := by
      rw [hone]
      cases hx : x.toModel.unpack with
      | notANumber => rfl
      | infinity s | zero s => cases s <;> rfl
      | finite s m e hpos =>
          obtain ⟨-, -, -, hcanonical⟩ := ofFloat_of_unpack hx
          have hexponent : e + -52 + (52 : Nat) = e := by omega
          have hround :=
            roundWithAccuracy_of_canonical (s := s) (k := 52)
              (e := e + -52) hpos (hexponent.symm ▸ hcanonical)
          rw [hexponent] at hround
          cases s <;> exact hround
  refine eq_of_pack_unpack ?_
  show Float.Model.pack (UnpackedFloat.mul .binary64 _ _) = _
  rw [hmul]

/-! ## Numbers without a sign -/

/-- Neither less than zero nor minus zero. -/
def Unsigned : UnpackedFloat → Prop
  | .notANumber => True
  | .infinity s | .zero s | .finite s _ _ _ => s = .positive

theorem unsigned_roundWithAccuracy (m : Nat) (e : Int) (accuracy : Accuracy) :
    Unsigned (roundWithAccuracy .binary64 .positive m e accuracy) := by
  unfold roundWithAccuracy
  dsimp only
  split <;> rfl

theorem Unsigned.mul {u v : UnpackedFloat} (hu : Unsigned u) (hv : Unsigned v) :
    Unsigned (UnpackedFloat.mul .binary64 u v) := by
  cases u <;> cases v <;> try trivial
  case finite.finite =>
    cases hu
    cases hv
    exact unsigned_roundWithAccuracy _ _ _
  all_goals
    cases hu
    cases hv
    rfl

theorem Unsigned.div {u v : UnpackedFloat} (hu : Unsigned u) (hv : Unsigned v) :
    Unsigned (UnpackedFloat.div .binary64 u v) := by
  cases u <;> cases v <;> try trivial
  case finite.finite =>
    cases hu
    cases hv
    exact unsigned_roundWithAccuracy _ _ _
  all_goals
    cases hu
    cases hv
    rfl

theorem unsigned_packComponents (exponent : BitVec 11) (mantissa : BitVec 52) :
    Unsigned (unpack .binary64
      (packComponents .binary64 .positive exponent mantissa)) := by
  unfold UnpackedFloat.unpack
  dsimp only
  rw [unpackSign_packComponents]
  split
  · split
    · rfl
    · trivial
  · split
    · split <;> rfl
    · rfl

theorem Unsigned.pack {u : UnpackedFloat} (h : Unsigned u) :
    Unsigned (Float.Model.pack u).unpack := by
  show Unsigned (unpack .binary64 (UnpackedFloat.pack .binary64 u))
  cases u with
  | notANumber => exact unsigned_packComponents _ _
  | infinity | zero =>
      cases h
      exact unsigned_packComponents _ _
  | finite s m e hpos =>
      cases h
      unfold UnpackedFloat.pack
      dsimp only
      split
      · exact unsigned_packComponents _ _
      · split <;> exact unsigned_packComponents _ _

theorem unsigned_ofNat {n : Nat} (h : n < 2 ^ 53) :
    Unsigned (Float.ofNat n).toModel.unpack := by
  rcases Nat.eq_zero_or_pos n with rfl | hpos
  · rfl
  · rw [toModel_ofNat hpos h]
    exact Unsigned.pack rfl

theorem unsigned_of_pos {x : Float} (h : 0 < x) :
    Unsigned x.toModel.unpack := by
  replace h : (0 : Float).toModel.unpack.lt x.toModel.unpack = true :=
    of_decide_eq_true h
  have hzero : (0 : Float).toModel.unpack = .zero .positive := rfl
  rw [hzero] at h
  cases hx : x.toModel.unpack with
  | notANumber => trivial
  | zero s =>
      rw [hx] at h
      cases h
  | infinity s | finite s m e hpos =>
      rw [hx] at h
      cases s with
      | positive => rfl
      | negative => cases h

theorem isNegative_of_unsigned {x : Float} (h : Unsigned x.toModel.unpack)
    (hx : x.isNaN = false) : isNegative x = false := by
  refine Bool.eq_false_iff.mpr fun hneg => ?_
  rw [isNegative_iff] at hneg
  replace hx : x.toModel.unpack.isNaN = false := hx
  rw [Float.Model.unpack, UnpackedFloat.unpack] at h hx
  dsimp only at h hx
  rw [hneg] at h hx
  split at h
  · split at h
    · cases h
    · next hmax hmantissa =>
        rw [if_pos hmax, if_neg hmantissa] at hx
        cases hx
  · split at h
    · split at h <;> cases h
    · cases h

theorem toInt64_nonneg {x : Float} (h : Unsigned x.toModel.unpack) :
    0 ≤ toInt64 x := by
  have hmax : (0 : Int) ≤ Int64.maxValue.toInt := by decide
  unfold toInt64 toRange
  split
  · exact Int.le_refl 0
  · next hnan =>
      have hsign := isNegative_of_unsigned h (Bool.eq_false_iff.mpr hnan)
      rw [nearestInt, hsign]
      split
      · exact hmax
      · exact le_max_of_le_right (le_min hmax (Int.natCast_nonneg _))

/-! ## Whole numbers of 64 bits -/

theorem isFinite_iff {x : Float} :
    x.isFinite = true ↔ ¬ x.isNaN = true ∧ ¬ x.isInf = true := by
  show x.toModel.unpack.isFinite = true ↔
    ¬ x.toModel.unpack.isNaN = true ∧ ¬ x.toModel.unpack.isInf = true
  cases x.toModel.unpack with
  | finite | zero =>
      exact iff_of_true rfl ⟨Bool.false_ne_true, Bool.false_ne_true⟩
  | infinity => exact iff_of_false Bool.false_ne_true fun h => h.2 rfl
  | notANumber => exact iff_of_false Bool.false_ne_true fun h => h.1 rfl

theorem toRange_of_isFinite {x : Float} (h : x.isFinite = true) (lo hi : Int) :
    toRange lo hi x = max lo (min hi (nearestInt x)) := by
  obtain ⟨hnan, hinf⟩ := isFinite_iff.mp h
  rw [toRange, if_neg hnan, if_neg hinf]

theorem isWhole_ofInt {z : Int} (h : 0 < z.natAbs) (hz : z.natAbs < 2 ^ 53) :
    isWhole (Float.ofInt z) = true := by
  obtain ⟨-, hm, he⟩ := ofFloat_ofInt h hz
  have hfinite : (Float.ofInt z).isFinite = true :=
    isFinite_of_under (under_ofInt (by omega))
  have hexponent : (- -(lift z.natAbs : Int)).toNat = lift z.natAbs := by omega
  simp only [isWhole, hfinite, hm, he, hexponent, Nat.pow_eq, Nat.mul_mod_left,
    decide_true, Bool.or_true, Bool.and_self]

section Large

variable {x : Float} {m : Nat} {hpos : 0 < m}

/-- The double of a number of more than 53 digits is rounded from it once. -/
theorem toModel_ofNat_of_large {n : Nat} (h : 2 ^ 53 ≤ n) :
    (Float.ofNat n).toModel =
      Float.Model.pack (roundWithAccuracy .binary64 .positive (n * 2 ^ 53) (-53)
        .exact) := by
  have hpair : ¬ (n < 2 ^ 53 ∧ 0 ≤ 22) := fun h' => by omega
  have hne : n ≠ 0 := by omega
  have hsmall :
      ¬ (0 : Int) < -((2 ^ Format.binary64.exponentBits : Int) + n.log2) := by
    show ¬ (0 : Int) < -((2 ^ 11 : Int) + n.log2)
    omega
  have hproduct : UnpackedFloat.ofScientific .binary64 n 0 =
      roundWithAccuracy .binary64 .positive (n * 2 ^ 53) (-53) .exact := by
    rw [UnpackedFloat.ofScientific, dif_neg hne, if_neg (by decide),
      if_neg hsmall, if_pos (by decide)]
    simp only [UnpackedFloat.mul, Format.mantissaBits, Nat.shiftLeft_eq,
      Int.toNat_zero, Nat.pow_zero, Nat.mul_one, Int.add_zero]
    rfl
  show (Float.ofScientific n false 0).toModel = _
  rw [Float.ofScientific, dif_neg hpair, ← hproduct]
  rfl

/-- A number of more than 53 digits that is a double is converted to that
double. -/
theorem ofNat_of_unpack {n k : Nat}
    (hx : x.toModel.unpack = .finite .positive m k hpos) (hn : n = m * 2 ^ k)
    (hlarge : 2 ^ 53 ≤ n) : Float.ofNat n = x := by
  obtain ⟨-, -, -, hcanonical⟩ := ofFloat_of_unpack hx
  have hexponent : (-53 : Int) + ((k + 53 : Nat) : Int) = k := by omega
  have hround :=
    roundWithAccuracy_of_canonical (s := .positive) (k := k + 53)
      (e := -53) hpos (hexponent.symm ▸ hcanonical)
  rw [hexponent] at hround
  refine eq_of_pack_unpack ?_
  rw [toModel_ofNat_of_large hlarge, hx, hn, Nat.mul_assoc, ← Nat.pow_add,
    hround]

theorem eq_zero_of_unpack {s : Sign} (hx : x.toModel.unpack = .zero s) :
    x = 0 ∨ x = -0 := by
  cases s with
  | positive => exact Or.inl (eq_of_pack_unpack (by rw [hx]; rfl)).symm
  | negative => exact Or.inr (eq_of_pack_unpack (by rw [hx]; rfl)).symm

/-- What is converted to a positive integer, and not to the largest one, is
finite and rounded to it. -/
theorem nearest_of_toInt64 (hmin : 0 < toInt64 x)
    (hmax : toInt64 x < Int64.maxValue.toInt) :
    x.isFinite = true ∧ isNegative x = false ∧
      toInt64 x = (Binary.ofFloat x).nearest := by
  have hlow : Int64.minValue.toInt = -2 ^ 63 := rfl
  have hhigh : Int64.maxValue.toInt = 2 ^ 63 - 1 := rfl
  unfold toInt64 toRange at hmin hmax ⊢
  rw [hlow, hhigh] at hmin hmax ⊢
  split at hmin
  · cases hmin
  · next hnan =>
      rw [if_neg hnan] at hmax ⊢
      split at hmin
      · next hinf =>
          rw [if_pos hinf] at hmax
          cases hneg : isNegative x with
          | true =>
              rw [hneg, if_pos rfl] at hmin
              omega
          | false =>
              rw [hneg, if_neg Bool.false_ne_true] at hmax
              omega
      · next hinf =>
          rw [if_neg hinf] at hmax ⊢
          have hsign : isNegative x = false := by
            refine Bool.eq_false_iff.mpr fun hneg => ?_
            rw [nearestInt, if_pos hneg] at hmin
            omega
          refine ⟨isFinite_iff.mpr ⟨hnan, hinf⟩, hsign, ?_⟩
          rw [nearestInt, if_neg (Bool.eq_false_iff.mp hsign)] at hmin hmax ⊢
          omega

/-- What half a unit adds does not give a number more digits than it has. -/
theorem nearest_lt {b : Binary} (hm : b.mantissa < 2 ^ 53)
    (he : b.exponent < 0) : b.nearest < 2 ^ 53 := by
  have hunit : 2 ^ 1 ≤ 2 ^ (-b.exponent).toNat :=
    Nat.pow_le_pow_right (by decide) (by omega)
  rw [Binary.nearest, if_neg (by omega)]
  dsimp only [Nat.pow_eq]
  rw [Nat.div_lt_iff_lt_mul (by omega)]
  calc 2 * b.mantissa + 2 ^ (-b.exponent).toNat
      < 2 * 2 ^ 53 + 2 ^ (-b.exponent).toNat := by omega
    _ ≤ 2 ^ 53 * (2 * 2 ^ (-b.exponent).toNat) := by omega

theorem Canonical.lt {m : Nat} {e : Int} (h : Canonical m e) (hpos : 0 < m) :
    m < 2 ^ 53 := by
  refine (Nat.log2_lt hpos.ne').mp ?_
  unfold Canonical totalExponent at h
  omega

/-- A double that is converted to an integer of more than 53 digits, and not to
the largest one, is the double of that integer. -/
theorem ofInt_toInt64_of_large (hlarge : 2 ^ 53 ≤ toInt64 x)
    (hmax : toInt64 x < Int64.maxValue.toInt) :
    Float.ofInt (toInt64 x) = x ∧ 0 ≤ (Binary.ofFloat x).exponent := by
  obtain ⟨hfinite, hsign, hnearest⟩ := nearest_of_toInt64 (by omega) hmax
  replace hfinite : x.toModel.unpack.isFinite = true := hfinite
  cases hx : x.toModel.unpack with
  | infinity | notANumber =>
      rw [hx] at hfinite
      cases hfinite
  | zero s =>
      rcases eq_zero_of_unpack hx with rfl | rfl <;>
        exact absurd hlarge (by decide +kernel)
  | finite s m e hpos =>
      obtain ⟨hneg, hm, he, hcanonical⟩ := ofFloat_of_unpack hx
      have hpositive : s = .positive := by
        cases s with
        | positive => rfl
        | negative => exact absurd (hneg.mpr rfl) (Bool.eq_false_iff.mp hsign)
      subst hpositive
      have hwhole : 0 ≤ e := by
        by_contra hlt
        have := nearest_lt (hm ▸ hcanonical.lt hpos) (he ▸ Int.not_le.mp hlt)
        omega
      obtain ⟨k, rfl⟩ := Int.eq_ofNat_of_zero_le hwhole
      have hvalue : (Binary.ofFloat x).nearest = m * 2 ^ k := by
        rw [Binary.nearest, hm, he, if_pos hwhole]
        rfl
      rw [hvalue] at hnearest
      refine ⟨?_, he ▸ hwhole⟩
      rw [hnearest]
      exact ofNat_of_unpack hx rfl (by omega)

/-- The integer that a double is converted to is converted back without loss, if
it is positive and not the largest one. -/
theorem exact_ofInt_toInt64 (hmin : 0 < toInt64 x)
    (hmax : toInt64 x < Int64.maxValue.toInt) :
    isWhole (Float.ofInt (toInt64 x)) = true ∧
      nearestInt (Float.ofInt (toInt64 x)) = toInt64 x := by
  by_cases hsmall : (toInt64 x).natAbs < 2 ^ 53
  · exact ⟨isWhole_ofInt (by omega) hsmall, nearestInt_ofInt hsmall⟩
  · obtain ⟨hfinite, hsign, hnearest⟩ := nearest_of_toInt64 hmin hmax
    obtain ⟨heq, hexponent⟩ := ofInt_toInt64_of_large (by omega) hmax
    rw [heq]
    constructor
    · simp only [isWhole, hfinite, hexponent, decide_true, Bool.true_or,
        Bool.and_self]
    · rw [nearestInt, if_neg (Bool.eq_false_iff.mp hsign), hnearest]

end Large

end Placard.Decimal
