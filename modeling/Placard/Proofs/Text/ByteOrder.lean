import Mathlib.Data.String.Basic
import Mathlib.Tactic.SplitIfs
import Placard.Json.Source

/-!
# The order of bytes

Texts are compared by the code points of their characters, and their bytes in
UTF-8 come in the same order. The first byte of a character tells how many
follow, and the more follow the greater it is. Each of the others holds six
bits, the highest first. So of two characters the first place where their bytes
differ tells which is greater, and the bytes of neither begin with those of the
other.

The bytes of a text, taken one by one and put together again, give its symbols.
-/

namespace Placard.Text

/-! ## The bytes of a text -/

theorem toListLoop_eq (bytes : ByteArray) (i : Nat) (before : List UInt8) :
    ByteArray.toList.loop bytes i before =
      before.reverse ++ bytes.data.toList.drop i := by
  fun_induction ByteArray.toList.loop bytes i before with
  | case1 i before hlt ih =>
      have hlength : i < bytes.data.toList.length := by simpa using hlt
      have hget : bytes.get! i = bytes.data[i]! := by cases bytes; rfl
      rw [ih, List.drop_eq_getElem_cons hlength, hget,
        getElem!_pos bytes.data i hlt, List.reverse_cons, List.append_assoc]
      rfl
  | case2 i before hge =>
      rw [List.drop_eq_nil_of_le (by simpa using hge), List.append_nil]

theorem mk_toList (bytes : ByteArray) :
    (⟨bytes.toList.toArray⟩ : ByteArray) = bytes := by
  rw [ByteArray.toList, toListLoop_eq, List.reverse_nil, List.nil_append,
    List.drop_zero]

theorem symbolsOfBytes_toUTF8 (text : String) :
    symbolsOfBytes ⟨text.toUTF8.toList.toArray⟩ = symbols text := by
  have htext : String.fromUTF8? text.toUTF8 = some text := by
    rw [String.toUTF8_eq_toByteArray, String.fromUTF8?,
      dif_pos text.isValidUTF8]
    rfl
  rw [mk_toList, symbolsOfBytes, htext]

/-- The bytes of a text in UTF-8. -/
def bytes (s : String) : List UInt8 :=
  s.toUTF8.toList

theorem bytes_eq_flatMap (s : String) :
    bytes s = s.toList.flatMap String.utf8EncodeChar := by
  rw [bytes, ByteArray.toList, toListLoop_eq, List.reverse_nil, List.nil_append,
    List.drop_zero, String.toUTF8_eq_toByteArray, ← String.utf8Encode_toList,
    List.utf8Encode, List.data_toByteArray]

/-! ## One character -/

/-- How many bytes follow the first byte of a code point. -/
def following (v : Nat) : Nat :=
  if v ≤ 0x7F then 0 else if v ≤ 0x7FF then 1 else if v ≤ 0xFFFF then 2 else 3

/-- The first byte of a code point. -/
def leading (v : Nat) : Nat :=
  if v ≤ 0x7F then v else if v ≤ 0x7FF then v / 64 + 192
  else if v ≤ 0xFFFF then v / 64 ^ 2 + 224 else v / 64 ^ 3 + 240

/-- The last `n` bytes of a code point. -/
def trailing : (n v : Nat) → List UInt8
  | 0, _ => []
  | n + 1, v => UInt8.ofNat (v / 64 ^ n % 64 + 128) :: trailing n v

theorem toNat_val_lt (c : Char) : c.val.toNat < 0x110000 := by
  have h := c.valid
  simp only [UInt32.isValidChar, Nat.isValidChar] at h
  omega

theorem utf8EncodeChar_eq (c : Char) :
    String.utf8EncodeChar c =
      UInt8.ofNat (leading c.val.toNat) :: trailing (following c.val.toNat)
        c.val.toNat := by
  have hlt := toNat_val_lt c
  unfold String.utf8EncodeChar leading following
  generalize c.val.toNat = v at *
  dsimp only
  split_ifs with h₁ h₂ h₃
  · rfl
  · rw [Nat.mod_eq_of_lt (by omega : v / 64 < 32)]
    simp only [trailing, Nat.pow_zero, Nat.div_one]
  · rw [Nat.mod_eq_of_lt (by omega : v / 4096 < 16)]
    simp only [trailing, Nat.pow_zero, Nat.div_one, Nat.pow_one, Nat.reducePow]
  · rw [Nat.mod_eq_of_lt (by omega : v / 262144 < 8)]
    simp only [trailing, Nat.pow_zero, Nat.div_one, Nat.pow_one, Nat.reducePow]

section Order

variable {v w : Nat} {r s : List UInt8}

theorem leading_le (h : v ≤ w) : leading v ≤ leading w := by
  unfold leading
  split_ifs <;> omega

theorem leading_lt (h : v < 0x110000) : leading v < 256 := by
  unfold leading
  split_ifs <;> omega

/-- Where the first bytes are the same, as many follow, and the same is said so
far. -/
theorem following_eq (h : leading v = leading w) (hv : v < 0x110000)
    (hw : w < 0x110000) :
    following v = following w ∧
      v / 64 ^ following v = w / 64 ^ following v := by
  unfold leading at h
  unfold following
  split_ifs at h ⊢ <;> omega

theorem byte_lt {a b : Nat} (hb : b < 256) (hle : a ≤ b) (h : a = b → r < s) :
    UInt8.ofNat a :: r < UInt8.ofNat b :: s := by
  rw [List.cons_lt_cons_iff]
  rcases Nat.lt_or_eq_of_le hle with hlt | rfl
  · exact Or.inl ((UInt8.ofNat_lt_iff_lt (Nat.lt_trans hlt hb) hb).mpr hlt)
  · exact Or.inr ⟨rfl, h rfl⟩

theorem trailing_lt {n : Nat} (h : v < w) (hsame : v / 64 ^ n = w / 64 ^ n) :
    trailing n v ++ r < trailing n w ++ s := by
  induction n with
  | zero =>
      rw [Nat.pow_zero, Nat.div_one, Nat.div_one] at hsame
      exact absurd hsame (Nat.ne_of_lt h)
  | succ n ih =>
      have hle : v / 64 ^ n ≤ w / 64 ^ n :=
        Nat.div_le_div_right (Nat.le_of_lt h)
      rw [Nat.pow_succ, ← Nat.div_div_eq_div_mul, ← Nat.div_div_eq_div_mul]
        at hsame
      exact byte_lt (by omega) (by omega) fun heq => ih (by omega)

theorem utf8EncodeChar_lt {c d : Char} (h : c < d) :
    String.utf8EncodeChar c ++ r < String.utf8EncodeChar d ++ s := by
  have hlt : c.val.toNat < d.val.toNat := h
  have hc := toNat_val_lt c
  have hd := toNat_val_lt d
  rw [utf8EncodeChar_eq, utf8EncodeChar_eq]
  refine byte_lt (leading_lt hd) (leading_le (Nat.le_of_lt hlt)) fun heq => ?_
  obtain ⟨hfollowing, hsame⟩ := following_eq heq hc hd
  rw [← hfollowing]
  exact trailing_lt hlt hsame

end Order

/-! ## Texts -/

theorem bytes_lt {s t : String} (h : s < t) : bytes s < bytes t := by
  rw [bytes_eq_flatMap, bytes_eq_flatMap]
  replace h := String.lt_iff_toList_lt.mp h
  generalize s.toList = cs at h
  generalize t.toList = ds at h
  induction cs generalizing ds with
  | nil =>
      cases ds with
      | nil => exact absurd h (List.not_lt_nil _)
      | cons d ds =>
          rw [List.flatMap_cons, utf8EncodeChar_eq]
          exact List.nil_lt_cons _ _
  | cons c cs ih =>
      cases ds with
      | nil => exact absurd h (List.not_lt_nil _)
      | cons d ds =>
          rw [List.flatMap_cons, List.flatMap_cons]
          rcases List.cons_lt_cons_iff.mp h with hlt | ⟨rfl, hrest⟩
          · exact utf8EncodeChar_lt hlt
          · exact List.append_left_lt (ih ds hrest)

end Placard.Text
