import Mathlib
import Placard.Decimal.Rounding

/-!
# Whole numbers are doubles without loss

A place in the drawing order is an integer of 32 bits. It is read as a double,
and written back it is rounded to an integer again. Nothing is lost on the way,
because an integer of at most 53 binary digits is moved up to exactly 53 of
them, and from then on no step of the arithmetic of doubles has anything to
round. The statements follow the number through that arithmetic: the mantissa
and exponent it is given, the bits these are packed into, and what is read from
the bits.
-/

namespace Placard.Decimal

open Float.Model Float.Model.UnpackedFloat

/-! ## Mantissas of 53 digits -/

theorem log2_mul_two_pow {m : Nat} (h : m ≠ 0) (k : Nat) :
    (m * 2 ^ k).log2 = m.log2 + k := by
  have hlow := Nat.log2_self_le h
  have hhigh := Nat.lt_log2_self (n := m)
  rw [Nat.log2_eq_iff (by positivity)]
  constructor
  · rw [Nat.pow_add]
    exact Nat.mul_le_mul_right _ hlow
  · rw [show m.log2 + k + 1 = (m.log2 + 1) + k by omega, Nat.pow_add]
    exact Nat.mul_lt_mul_of_pos_right hhigh (by positivity)

theorem bounds_of_log2 {m : Nat} (hm : m.log2 = 52) :
    2 ^ 52 ≤ m ∧ m < 2 ^ 53 := by
  refine (Nat.log2_eq_iff ?_).mp hm
  rintro rfl
  simp at hm

/-- Zeros that are shifted out leave no trace. -/
theorem shiftRight_mul_two_pow (m k : Nat) :
    (⟨m * 2 ^ k, false, false⟩ : ExtendedMantissa) >>> k =
      ⟨m, false, false⟩ := by
  show Nat.repeat ExtendedMantissa.shiftRightOne k _ = _
  induction k generalizing m with
  | zero => simp [Nat.repeat]
  | succ k ih =>
      rw [Nat.repeat, show m * 2 ^ (k + 1) = m * 2 * 2 ^ k by ring, ih (m * 2)]
      simp [ExtendedMantissa.shiftRightOne]

theorem targetExponent_eq (t : Int) :
    Format.binary64.targetExponent t = max (t - 53) (-1074) := by
  simp [Format.targetExponent, Format.mantissaBits, Format.minExponent]

/-- The exponent is the one that rounding would give the number. -/
def Canonical (m : Nat) (e : Int) : Prop :=
  max (totalExponent m e - 53) (-1074) = e

theorem canonical_of_log2 {m : Nat} {e : Int} (hm : m.log2 = 52)
    (he : -1074 ≤ e) : Canonical m e := by
  unfold Canonical totalExponent
  omega

theorem totalExponent_mul_two_pow {m : Nat} (h : 0 < m) (k : Nat) (e : Int) :
    totalExponent (m * 2 ^ k) e = totalExponent m (e + k) := by
  rw [totalExponent, totalExponent, log2_mul_two_pow h.ne']
  omega

theorem roundWithAccuracy_of_canonical {s : Sign} {m k : Nat} {e : Int}
    (hpos : 0 < m) (h : Canonical m (e + k)) :
    roundWithAccuracy .binary64 s (m * 2 ^ k) e .exact =
      .finite s m (e + k) hpos := by
  have hfirst : shiftToTargetExponent .binary64 (m * 2 ^ k) e .exact =
      (⟨m, false, false⟩, e + k) := by
    have hk : (e + k - e).toNat = k := by omega
    rw [shiftToTargetExponent, shiftToExponent, totalExponent_mul_two_pow hpos,
      targetExponent_eq,
      show max (totalExponent m (e + k) - 53) (-1074) = e + k from h]
    simp only [hk, ExtendedMantissa.ofMantissaAndAccuracy,
      shiftRight_mul_two_pow]
  have hsecond : shiftToTargetExponent .binary64 m (e + k) .exact =
      (⟨m, false, false⟩, e + k) := by
    rw [shiftToTargetExponent, shiftToExponent, targetExponent_eq,
      show max (totalExponent m (e + k) - 53) (-1074) = e + k from h]
    simp only [Int.sub_self, Int.toNat_zero, Int.natCast_zero, Int.add_zero]
    rfl
  have hround : (⟨m, false, false⟩ : ExtendedMantissa).roundedMantissa = m :=
    rfl
  simp only [roundWithAccuracy, hfirst, hround, hsecond, dif_neg hpos.ne']

/-- A number of 53 digits, with zeros behind them or not, is not rounded. -/
theorem roundWithAccuracy_mul_two_pow {s : Sign} {m k : Nat} {e : Int}
    (hpos : 0 < m) (hm : m.log2 = 52) (he : -1074 ≤ e + k) :
    roundWithAccuracy .binary64 s (m * 2 ^ k) e .exact =
      .finite s m (e + k) hpos :=
  roundWithAccuracy_of_canonical hpos (canonical_of_log2 hm he)

/-! ## Bits -/

theorem pack_finite {s : Sign} {m : Nat} {e : Int} (hpos : 0 < m)
    (hm : m.log2 = 52) (he : -1074 ≤ e) (he' : e ≤ 971) :
    UnpackedFloat.pack .binary64 (.finite s m e hpos) =
      packComponents .binary64 s (BitVec.ofNat 11 (e + 1075).toNat)
        (BitVec.ofNat 52 m) := by
  have hbiased : e + ((2 ^ (11 - 1) - 1 : Nat) : Int) + (52 : Nat) =
      e + 1075 := by
    norm_num
    omega
  simp only [UnpackedFloat.pack, hm, Format.mantissaBits, Format.exponentBias,
    hbiased]
  rw [if_neg (by omega), if_pos trivial]

theorem toNat_implicit_append (v : BitVec 52) :
    (1#1 ++ v).toNat = 2 ^ 52 + v.toNat := by
  rw [BitVec.toNat_append, ← Nat.shiftLeft_add_eq_or_of_lt v.isLt,
    Nat.shiftLeft_eq]
  rfl

theorem unpack_pack_finite {s : Sign} {m : Nat} {e : Int} (hpos : 0 < m)
    (hm : m.log2 = 52) (he : -1074 ≤ e) (he' : e ≤ 971) :
    (Float.Model.pack (.finite s m e hpos)).unpack = .finite s m e hpos := by
  obtain ⟨hle, hlt⟩ := bounds_of_log2 hm
  have hbiased : (BitVec.ofNat 11 (e + 1075).toNat).toNat =
      (e + 1075).toNat := by
    rw [BitVec.toNat_ofNat]
    omega
  have hmax : BitVec.ofNat 11 (e + 1075).toNat ≠ -1#11 := by
    intro h
    have : (e + 1075).toNat = 2047 := hbiased ▸ congrArg BitVec.toNat h
    omega
  have hmin : BitVec.ofNat 11 (e + 1075).toNat ≠ 0#11 := by
    intro h
    have : (e + 1075).toNat = 0 := hbiased ▸ congrArg BitVec.toNat h
    omega
  have hmantissa : (1#1 ++ BitVec.ofNat 52 m).toNat = m := by
    rw [toNat_implicit_append, BitVec.toNat_ofNat]
    omega
  show UnpackedFloat.unpack .binary64
    (UnpackedFloat.pack .binary64 (.finite s m e hpos)) = _
  rw [pack_finite hpos hm he he']
  simp only [UnpackedFloat.unpack, unpackMantissa_packComponents,
    unpackExponent_packComponents, unpackSign_packComponents,
    Sign.ofBitVec_toBitVec, if_neg hmax, if_neg hmin, hmantissa, hbiased]
  congr 1
  show ((e + 1075).toNat : Int) - (1023 + 52) = e
  omega

theorem toNat_toBits_pack {s : Sign} {m : Nat} {e : Int} (hpos : 0 < m)
    (hm : m.log2 = 52) (he : -1074 ≤ e) (he' : e ≤ 971) :
    (Float.Model.pack (.finite s m e hpos)).toBits.toNat =
      s.toBitVec.toNat * 2 ^ 63 + (e + 1075).toNat * 2 ^ 52 + m % 2 ^ 52 := by
  show (UnpackedFloat.pack .binary64 (.finite s m e hpos)).toNat = _
  rw [pack_finite hpos hm he he']
  show (s.toBitVec ++ BitVec.ofNat 11 (e + 1075).toNat ++ BitVec.ofNat 52
    m).toNat = _
  have hmantissa : m % 2 ^ 52 < 2 ^ 52 := Nat.mod_lt m (Nat.two_pow_pos 52)
  have hexponent : (e + 1075).toNat % 2 ^ 11 < 2 ^ 11 :=
    Nat.mod_lt _ (Nat.two_pow_pos 11)
  rw [BitVec.toNat_append, BitVec.toNat_append, BitVec.toNat_ofNat,
    BitVec.toNat_ofNat, ← Nat.shiftLeft_add_eq_or_of_lt hexponent,
    ← Nat.shiftLeft_add_eq_or_of_lt hmantissa, Nat.shiftLeft_eq,
    Nat.shiftLeft_eq, Nat.mod_eq_of_lt (by omega)]
  ring

/-! ## Integers

An integer that is not zero becomes its sign, its magnitude moved up to 53
digits, and the exponent that moves it back. -/

/-- How far a magnitude is moved up. -/
def lift (n : Nat) : Nat := 52 - n.log2

theorem lift_eq {n : Nat} (h : 0 < n) (hn : n < 2 ^ 53) :
    lift n + n.log2 = 52 := by
  have := (Nat.log2_lt h.ne').mpr hn
  rw [lift]
  omega

theorem log2_lifted {n : Nat} (h : 0 < n) (hn : n < 2 ^ 53) :
    (n * 2 ^ lift n).log2 = 52 := by
  rw [log2_mul_two_pow h.ne', Nat.add_comm, lift_eq h hn]

theorem lifted_pos {n : Nat} (h : 0 < n) : 0 < n * 2 ^ lift n :=
  Nat.mul_pos h (Nat.two_pow_pos _)

theorem unpacked_ofNat {n : Nat} (h : 0 < n) (hn : n < 2 ^ 53) :
    UnpackedFloat.ofNat .binary64 n =
      .finite .positive (n * 2 ^ lift n) (-lift n) (lifted_pos h) := by
  have hlift := lift_eq h hn
  have hcompare : compare (n : Int) 0 = .gt := Int.compare_eq_gt.mpr (by omega)
  have htarget : Format.binary64.targetExponent (totalExponent n 0) =
      -lift n := by
    simp [Format.targetExponent, totalExponent, Format.mantissaBits,
      Format.minExponent]
    omega
  have hshift : (- -(lift n : Int)).toNat = lift n := by omega
  have hround :=
    roundWithAccuracy_mul_two_pow (s := .positive) (k := 0) (lifted_pos h)
      (log2_lifted h hn) (show -1074 ≤ -(lift n : Int) + (0 : Nat) by omega)
  rw [Nat.pow_zero, Nat.mul_one, Int.natCast_zero, Int.add_zero] at hround
  simp only [UnpackedFloat.ofNat, UnpackedFloat.ofInt, UnpackedFloat.normalize,
    hcompare, UnpackedFloat.round, htarget, decreaseExponent, Int.toNat_natCast,
    Int.zero_sub, hshift, Nat.shiftLeft_eq, hround]

/-- The double of a natural number is its conversion times one. -/
theorem toModel_ofNat {n : Nat} (h : 0 < n) (hn : n < 2 ^ 53) :
    (Float.ofNat n).toModel =
      Float.Model.pack (.finite .positive (n * 2 ^ lift n) (-lift n)
        (lifted_pos h)) := by
  have hlift := lift_eq h hn
  have hpair : n < 2 ^ 53 ∧ 0 ≤ 22 := ⟨hn, by decide⟩
  have hword : n.toUInt64.toNat = n := by
    rw [Nat.toUInt64, UInt64.toNat_ofNat']
    omega
  have hone : (Float.Model.ofBits 4607182418800017408).unpack =
      .finite .positive (2 ^ 52) (-52) (by decide) := rfl
  have hconvert : (Float.Model.ofUInt64 n.toUInt64).unpack =
      .finite .positive (n * 2 ^ lift n) (-lift n) (lifted_pos h) := by
    rw [Float.Model.ofUInt64, UnpackedFloat.ofUInt64, hword,
      unpacked_ofNat h hn]
    exact unpack_pack_finite _ (log2_lifted h hn) (by omega) (by omega)
  have hproduct := roundWithAccuracy_mul_two_pow (s := .positive) (k := 52)
    (e := -lift n + -52) (lifted_pos h) (log2_lifted h hn) (by omega)
  have hexponent : -(lift n : Int) + -52 + (52 : Nat) = -lift n := by omega
  rw [hexponent] at hproduct
  show (Float.ofScientific n false 0).toModel = _
  rw [Float.ofScientific, dif_pos hpair]
  show Float.Model.pack
    (UnpackedFloat.mul .binary64 (Float.Model.ofUInt64 n.toUInt64).unpack
      (Float.Model.ofBits 4607182418800017408).unpack) = _
  rw [hconvert, hone]
  exact congrArg Float.Model.pack hproduct

theorem toModel_ofInt {z : Int} (h : 0 < z.natAbs) (hz : z.natAbs < 2 ^ 53) :
    (Float.ofInt z).toModel =
      Float.Model.pack (.finite (if z < 0 then .negative else .positive)
        (z.natAbs * 2 ^ lift z.natAbs) (-lift z.natAbs) (lifted_pos h)) := by
  have hlift := lift_eq h hz
  cases z with
  | ofNat n =>
      have hsign : ¬ Int.ofNat n < 0 := Int.not_lt.mpr (Int.natCast_nonneg n)
      simp only [if_neg hsign]
      exact toModel_ofNat h hz
  | negSucc n =>
      replace h : 0 < n + 1 := h
      replace hz : n + 1 < 2 ^ 53 := hz
      replace hlift : lift (n + 1) + (n + 1).log2 = 52 := hlift
      have hunpack : (Float.ofNat (n + 1)).toModel.unpack =
          .finite .positive ((n + 1) * 2 ^ lift (n + 1)) (-lift (n + 1))
            (lifted_pos h) := by
        rw [toModel_ofNat h hz]
        exact unpack_pack_finite _ (log2_lifted h hz) (by omega) (by omega)
      show Float.Model.pack (Float.ofNat (n + 1)).toModel.unpack.neg = _
      rw [hunpack]
      simp only [if_pos (Int.negSucc_lt_zero n)]
      rfl

/-- The magnitude of the double of an integer is that of the integer. -/
theorem ofFloat_ofInt {z : Int} (h : 0 < z.natAbs) (hz : z.natAbs < 2 ^ 53) :
    isNegative (Float.ofInt z) = decide (z < 0) ∧
      (Binary.ofFloat (Float.ofInt z)).mantissa = z.natAbs * 2 ^ lift z.natAbs ∧
      (Binary.ofFloat (Float.ofInt z)).exponent = -lift z.natAbs := by
  have hlift := lift_eq h hz
  obtain ⟨hle, hlt⟩ := bounds_of_log2 (log2_lifted h hz)
  have hbits := toNat_toBits_pack (s := if z < 0 then .negative else .positive)
    (lifted_pos h) (log2_lifted h hz) (show -1074 ≤
      -(lift z.natAbs : Int) by omega)
    (by omega)
  rw [← toModel_ofInt h hz] at hbits
  have hsign : (if z < 0 then Sign.negative else Sign.positive).toBitVec.toNat =
      if z < 0 then 1 else 0 := by
    split <;> rfl
  have hbiased : (-(lift z.natAbs : Int) + 1075).toNat =
    1075 - lift z.natAbs := by omega
  rw [hsign, hbiased] at hbits
  generalize z.natAbs * 2 ^ lift z.natAbs = m at hbits hle hlt ⊢
  generalize lift z.natAbs = k at hbits hlift ⊢
  generalize hword : (Float.ofInt z).toModel.toBits.toNat = word at hbits
  have hnormal : ¬ 1075 - k = 0 := by omega
  have hexponent : word / 2 ^ 52 % 2 ^ 11 = 1075 - k := by
    split at hbits <;> omega
  have hfraction : word % 2 ^ 52 = m % 2 ^ 52 := by
    split at hbits <;> omega
  have htop : word / 2 ^ 63 = 1 ↔ z < 0 := by
    split at hbits <;> omega
  simp only [isNegative, Binary.ofFloat, Float.toBits, hword, Nat.pow_eq,
    hexponent, hfraction, htop, if_neg hnormal, true_and]
  omega

theorem nearest_lifted {b : Binary} {n k : Nat} (hm : b.mantissa = n * 2 ^ k)
    (he : b.exponent = -k) : b.nearest = n := by
  rw [Binary.nearest, hm, he]
  split
  · next hk =>
      obtain rfl : k = 0 := by omega
      simp
  · have hk : (- -(k : Int)).toNat = k := by omega
    have hunit : 0 < 2 ^ k := Nat.two_pow_pos k
    have hsum : 2 * (n * 2 ^ k) + 2 ^ k = 2 ^ k + n * (2 * 2 ^ k) := by ring
    simp only [hk, Nat.pow_eq]
    rw [hsum, Nat.add_mul_div_right _ _ (by omega), Nat.div_eq_of_lt (by omega),
      Nat.zero_add]

/-- Rounding the double of an integer gives the integer. -/
theorem nearestInt_ofInt {z : Int} (hz : z.natAbs < 2 ^ 53) :
    nearestInt (Float.ofInt z) = z := by
  by_cases h : 0 < z.natAbs
  · obtain ⟨hsign, hm, he⟩ := ofFloat_ofInt h hz
    simp only [nearestInt, hsign, nearest_lifted hm he, decide_eq_true_eq]
    split <;> omega
  · obtain rfl : z = 0 := by omega
    have hsign : isNegative (Float.ofInt 0) = false := rfl
    have hmantissa : (Binary.ofFloat (Float.ofInt 0)).mantissa = 0 := rfl
    have hzero : (Binary.ofFloat (Float.ofInt 0)).nearest = 0 :=
      nearest_lifted (hmantissa.trans (Nat.zero_mul (2 ^ 1074)).symm) rfl
    simp only [nearestInt, hsign, hzero]
    rfl

theorem isFinite_ofInt {z : Int} (hz : z.natAbs < 2 ^ 53) :
    (Float.ofInt z).isNaN = false ∧ (Float.ofInt z).isInf = false := by
  by_cases h : 0 < z.natAbs
  · have hlift := lift_eq h hz
    have hunpack :=
      unpack_pack_finite (s := if z < 0 then .negative else .positive)
        (lifted_pos h) (log2_lifted h hz) (show -1074 ≤
          -(lift z.natAbs : Int) by omega)
        (by omega)
    rw [← toModel_ofInt h hz] at hunpack
    constructor
    · show (Float.ofInt z).toModel.unpack.isNaN = false
      rw [hunpack]
      rfl
    · show (Float.ofInt z).toModel.unpack.isInf = false
      rw [hunpack]
      rfl
  · obtain rfl : z = 0 := by omega
    exact ⟨rfl, rfl⟩

/-- An integer of 32 bits is what its double is rounded to. -/
theorem toInt32_ofInt (n : Int32) :
    Int32.ofInt (toInt32 (Float.ofInt n.toInt)) = n := by
  have hlow := n.le_toInt
  have hhigh := n.toInt_lt
  have hz : n.toInt.natAbs < 2 ^ 53 := by omega
  obtain ⟨hnan, hinf⟩ := isFinite_ofInt hz
  have hmin : Int32.minValue.toInt = -2 ^ 31 := rfl
  have hmax : Int32.maxValue.toInt = 2 ^ 31 - 1 := rfl
  have hrange : toInt32 (Float.ofInt n.toInt) = n.toInt := by
    simp only [toInt32, toRange, hnan, hinf, nearestInt_ofInt hz, hmin, hmax,
      Bool.false_eq_true, if_false]
    omega
  rw [hrange, Int32.ofInt_toInt]

end Placard.Decimal
