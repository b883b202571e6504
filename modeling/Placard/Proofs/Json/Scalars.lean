import Mathlib.Algebra.Group.Int.Defs
import Placard.Json.Printer
import Placard.Json.Reader
import Placard.Proofs.Decimal.Naturals

/-!
# Reading back strings and numbers

A string that has been written is read back, whatever stands behind its closing
quote. A number has no end of its own: what is read as a number by itself is
read as the same number in front of a comma or a closing bracket. An integer
that fits 64 bits is read back as that integer. A real need not be: what is read
is computed in steps, each of which rounds. That the text of a real gives the
real is said of the real, by `ReadsBack`.
-/

namespace Placard.Json

open Text Decimal

@[simp] theorem symbols_append (s t : String) :
    symbols (s ++ t) = symbols s ++ symbols t := by
  rw [symbols, String.toList_append, List.map_append, symbols, symbols]

theorem symbols_ofList (cs : List Char) :
    symbols (String.ofList cs) = cs.map some := by
  rw [symbols, String.toList_ofList]

/-! ## Strings -/

/-- What a character of a quoted string is read as. -/
def pieceOf (c : Char) : Piece :=
  if letter? c = none ∧ c.toNat < 0x20 then .unit c.toNat else .symbol (some c)

theorem unletter?_of_letter? {c l : Char} (h : letter? c = some l) :
    unletter? l = some c ∧ l ≠ 'u' := by
  unfold letter? at h
  split at h <;> cases h <;> exact ⟨rfl, by decide⟩

theorem hexValue?_hexDigit {n : Nat} (h : n < 16) :
    hexValue? (hexDigit n) = some n := by
  revert n
  decide

theorem pieces?_quotedChar (before : List Piece) (c : Char) (s : List Symbol) :
    pieces? before ((quotedChar c).map some ++ s) =
      pieces? (pieceOf c :: before) s := by
  cases hletter : letter? c with
  | some l =>
      obtain ⟨hback, hne⟩ := unletter?_of_letter? hletter
      have hpiece : pieceOf c = .symbol (some c) := by simp [pieceOf, hletter]
      have hquoted : (quotedChar c).map some = [some '\\', some l] := by
        simp only [quotedChar, hletter, List.map_cons, List.map_nil]
      rw [hquoted, hpiece, List.cons_append, List.cons_append, List.nil_append]
      rw [pieces?.eq_4]
      · rw [Option.bind_some, hback]
      · intro a b c d s' heq
        exact absurd (Option.some.inj heq) hne
  | none =>
      by_cases hlow : c.toNat < 0x20
      · have hpiece : pieceOf c = .unit c.toNat := by
          simp [pieceOf, hletter, hlow]
        have hquoted : (quotedChar c).map some =
            [some '\\', some 'u', some '0', some '0',
              some (hexDigit (c.toNat / 16)),
              some (hexDigit (c.toNat % 16))] := by
          simp only [quotedChar, hletter, if_pos hlow, List.map_cons,
            List.map_nil]
        have hunit :
            unit? (some '0') (some '0') (some (hexDigit (c.toNat / 16)))
              (some (hexDigit (c.toNat % 16))) = some c.toNat := by
            have hzero : hexValue? '0' = some 0 := rfl
            simp only [unit?, Option.bind_some, hzero,
              hexValue?_hexDigit (by omega : c.toNat / 16 < 16),
              hexValue?_hexDigit (by omega : c.toNat % 16 < 16),
              Option.bind_eq_bind]
            congr 1
            omega
        rw [hquoted, hpiece]
        simp only [List.cons_append, List.nil_append]
        rw [pieces?.eq_3, hunit]
      · have hpiece : pieceOf c = .symbol (some c) := by simp [pieceOf, hlow]
        have hquoted : (quotedChar c).map some = [some c] := by
          simp only [quotedChar, hletter, if_neg hlow, List.map_cons,
            List.map_nil]
        rw [hquoted, hpiece, List.cons_append, List.nil_append]
        rw [pieces?.eq_5]
        · simp [isControl, hlow]
        · intro heq
          rw [Option.some.inj heq] at hletter
          cases hletter
        · intro _ _ _ _ _ heq
          rw [Option.some.inj heq] at hletter
          cases hletter
        · intro _ _ heq
          rw [Option.some.inj heq] at hletter
          cases hletter

theorem pieces?_quoted (cs : List Char) (before : List Piece)
    (s : List Symbol) :
    pieces? before ((cs.flatMap quotedChar).map some ++ some '"' :: s) =
      some (before.reverse ++ cs.map pieceOf, s) := by
  induction cs generalizing before with
  | nil =>
      rw [List.flatMap_nil, List.map_nil, List.nil_append, pieces?,
        List.map_nil, List.append_nil]
  | cons c cs ih =>
      rw [List.flatMap_cons, List.map_append, List.append_assoc,
        pieces?_quotedChar, ih, List.reverse_cons, List.append_assoc,
        List.map_cons, List.singleton_append]

/-- A unit by itself is the character of its number, if neither it nor the next
is half of a pair. -/
theorem characters?_unit {n : Nat} (hhigh : isHigh n = false)
    (hlow : isLow n = false) (before : List Char) {ps : List Piece}
    (hnext : ∀ m rest, ps = .unit m :: rest → isLow m = false) :
    characters? before (.unit n :: ps) =
      characters? (Char.ofNat n :: before) ps := by
  have halone : (isHigh n || isLow n) = false := by
    rw [hhigh, hlow, Bool.or_self]
  cases ps with
  | nil =>
      rw [characters?.eq_5 _ _ _ (by intro _ _ h; cases h), halone]
      rfl
  | cons p ps =>
      cases p with
      | symbol c =>
          rw [characters?.eq_5 _ _ _ (by intro _ _ h; cases h), halone]
          rfl
      | unit m =>
          rw [characters?, hhigh, hlow, hnext m ps rfl]
          rfl

theorem not_surrogate {n : Nat} (h : n < 0x20) :
    isHigh n = false ∧ isLow n = false := by
  simp only [isHigh, isLow, Bool.and_eq_false_imp, decide_eq_true_eq,
    decide_eq_false_iff_not]
  omega

theorem characters?_pieceOf (cs before : List Char) :
    characters? before (cs.map pieceOf) = some (before.reverse ++ cs) := by
  induction cs generalizing before with
  | nil => rw [List.map_nil, characters?, List.append_nil]
  | cons c cs ih =>
      have hrest := ih (c :: before)
      rw [List.reverse_cons, List.append_assoc, List.singleton_append] at hrest
      rw [List.map_cons, ← hrest]
      by_cases h : letter? c = none ∧ c.toNat < 0x20
      · have hpiece : pieceOf c = .unit c.toNat := if_pos h
        rw [hpiece]
        have hnext : ∀ m rest, cs.map pieceOf = .unit m :: rest →
            isLow m = false := by
          intro m rest heq
          obtain ⟨d, -, hd⟩ := List.mem_map.mp
            (heq ▸ List.mem_cons_self : Piece.unit m ∈ cs.map pieceOf)
          unfold pieceOf at hd
          split at hd
          · next h =>
              cases hd
              exact (not_surrogate h.2).2
          · cases hd
        obtain ⟨hhigh, hlow⟩ := not_surrogate h.2
        rw [characters?_unit hhigh hlow before hnext, Char.ofNat_toNat]
      · have hpiece : pieceOf c = .symbol (some c) := if_neg h
        rw [hpiece, characters?]

/-- A string that has been written is read back. -/
theorem string?_quoted (t : String) (s : List Symbol) :
    string? ((t.toList.flatMap quotedChar).map some ++ some '"' :: s) =
      some (some t, s) := by
  rw [string?, pieces?_quoted, Option.map_some, List.reverse_nil,
    List.nil_append]
  simp only [characters?_pieceOf, Option.map_some, List.reverse_nil,
    List.nil_append, String.ofList_toList]

theorem symbols_quoted (t : String) :
    symbols (quoted t) =
      some '"' :: ((t.toList.flatMap quotedChar).map some ++ [some '"']) := by
  rw [quoted, symbols_append, symbols_append,
    symbols_ofList (t.toList.flatMap quotedChar), List.append_assoc]
  rfl

/-! ## Numbers -/

/-- What may stand behind a value: nothing, a comma or a closing bracket. -/
def Stops (s : List Symbol) : Prop :=
  ∀ c ∈ s.head?, c = some ',' ∨ c = some ']' ∨ c = some '\x7d'

@[simp] theorem stops_nil : Stops [] := nofun

@[simp] theorem stops_cons {c : Symbol} {s : List Symbol} :
    Stops (c :: s) ↔ c = some ',' ∨ c = some ']' ∨ c = some '\x7d' := by
  simp [Stops]

theorem digits_of_stops {rest : List Symbol} (h : Stops rest) :
    digits rest = ([], rest) := by
  cases rest with
  | nil => rfl
  | cons c rest => rcases stops_cons.mp h with rfl | rfl | rfl <;> rfl

theorem digits_append {rest : List Symbol} (h : Stops rest) (s : List Symbol) :
    digits (s ++ rest) = ((digits s).1, (digits s).2 ++ rest) := by
  induction s with
  | nil => exact digits_of_stops h
  | cons c s ih =>
      cases c with
      | none => rfl
      | some c =>
          rw [List.cons_append, digits, digits]
          split
          · rw [ih]
          · rfl

section Append

variable {rest s s' : List Symbol}

/-- A character that nothing is stopped by is at the front of a text if it was
there before something that stops was put behind. -/
theorem not_append_cons (h : Stops rest) {c : Char}
    (hc : c ∉ [',', ']', '\x7d']) (hs : ∀ r, s = some c :: r → False)
    (r : List Symbol) (heq : s ++ rest = some c :: r) : False := by
  cases s with
  | nil =>
      rw [List.nil_append] at heq
      rw [heq, stops_cons, Option.some.injEq, Option.some.injEq,
        Option.some.injEq] at h
      exact hc (by simpa using h)
  | cons d s =>
      cases heq
      exact hs s rfl

theorem digits?_append (h : Stops rest) {ds : List Char}
    (hs : digits? s = some (ds, s')) :
    digits? (s ++ rest) = some (ds, s' ++ rest) := by
  unfold digits? at hs ⊢
  rw [digits_append h]
  generalize digits s = r at hs ⊢
  obtain ⟨_ | ⟨d, ds'⟩, s''⟩ := r
  · cases hs
  · cases hs
    rfl

theorem whole?_append (h : Stops rest) {ds : List Char}
    (hs : whole? s = some (ds, s')) :
    whole? (s ++ rest) = some (ds, s' ++ rest) := by
  unfold whole? at hs
  split at hs
  · cases hs
    rfl
  · next hnot =>
      rw [whole?]
      · exact digits?_append h hs
      · exact not_append_cons h (by decide) hnot

theorem fraction?_append (h : Stops rest) {f? : Option (List Char)}
    (hs : fraction? s = some (f?, s')) :
    fraction? (s ++ rest) = some (f?, s' ++ rest) := by
  unfold fraction? at hs
  split at hs
  · obtain ⟨⟨ds, s''⟩, hds, heq⟩ := Option.map_eq_some_iff.mp hs
    cases heq
    rw [List.cons_append, fraction?, digits?_append h hds, Option.map_some]
  · next hnot =>
      cases hs
      rw [fraction?]
      exact not_append_cons h (by decide) hnot

theorem signedExponent?_append (h : Stops rest) {e : Int}
    (hs : signedExponent? s = some (e, s')) :
    signedExponent? (s ++ rest) = some (e, s' ++ rest) := by
  unfold signedExponent? at hs
  split at hs
  · obtain ⟨⟨ds, s''⟩, hds, heq⟩ := Option.map_eq_some_iff.mp hs
    cases heq
    rw [List.cons_append, signedExponent?, digits?_append h hds,
      Option.map_some]
  · obtain ⟨⟨ds, s''⟩, hds, heq⟩ := Option.map_eq_some_iff.mp hs
    cases heq
    rw [List.cons_append, signedExponent?, digits?_append h hds,
      Option.map_some]
  · next hminus hplus =>
      obtain ⟨⟨ds, s''⟩, hds, heq⟩ := Option.map_eq_some_iff.mp hs
      cases heq
      rw [signedExponent?, digits?_append h hds, Option.map_some]
      · exact not_append_cons h (by decide) hminus
      · exact not_append_cons h (by decide) hplus

theorem exponent?_append (h : Stops rest) {e? : Option Int}
    (hs : exponent? s = some (e?, s')) :
    exponent? (s ++ rest) = some (e?, s' ++ rest) := by
  unfold exponent? at hs
  split at hs
  · obtain ⟨⟨e, s''⟩, he, heq⟩ := Option.map_eq_some_iff.mp hs
    cases heq
    rw [List.cons_append, exponent?, signedExponent?_append h he,
      Option.map_some]
  · obtain ⟨⟨e, s''⟩, he, heq⟩ := Option.map_eq_some_iff.mp hs
    cases heq
    rw [List.cons_append, exponent?, signedExponent?_append h he,
      Option.map_some]
  · next hlower hupper =>
      cases hs
      rw [exponent?]
      · exact not_append_cons h (by decide) hlower
      · exact not_append_cons h (by decide) hupper

theorem sign_append (hs : s ≠ []) (rest : List Symbol) :
    sign (s ++ rest) = ((sign s).1, (sign s).2 ++ rest) := by
  cases s with
  | nil => exact absurd rfl hs
  | cons c s =>
      rw [List.cons_append]
      unfold sign
      split
      · next heq =>
          cases heq
          rfl
      · next hnot =>
          split
          · next heq =>
              cases heq
              exact absurd rfl (hnot _)
          · rfl

/-- What is read as a number is read as the same in front of something that
stops it. -/
theorem literal?_append (h : Stops rest) {l : Literal}
    (hs : literal? s = some (l, s')) :
    literal? (s ++ rest) = some (l, s' ++ rest) := by
  have hne : s ≠ [] := by
    rintro rfl
    cases hs
  unfold literal? at hs ⊢
  rw [sign_append hne]
  generalize sign s = r at hs ⊢
  obtain ⟨negative, s₁⟩ := r
  simp only [Option.bind_eq_bind, Option.bind_eq_some_iff] at hs
  obtain ⟨⟨whole, s₂⟩, hwhole, ⟨fraction, s₃⟩, hfraction, ⟨exponent, s₄⟩,
    hexponent, heq⟩ := hs
  cases heq
  simp only [Option.bind_eq_bind, whole?_append h hwhole,
    fraction?_append h hfraction, exponent?_append h hexponent,
    Option.bind_some]

end Append

/-- The number that a whole text denotes. -/
def numberOf? (s : List Symbol) : Option Number :=
  match literal? s with
  | some (l, []) => l.number?
  | _ => none

/-- The text of a number is that of a number as a whole, and of nothing else. -/
def Number.Spelled (n : Number) : Prop :=
  ∃ l, literal? (symbols n.text) = some (l, [])

/-- The number that the text of a number denotes. -/
def Number.reread? (n : Number) : Option Number :=
  numberOf? (symbols n.text)

/-- The text of a number denotes that number. -/
def Number.ReadsBack (n : Number) : Prop :=
  n.reread? = some n

instance (n : Number) : Decidable n.ReadsBack :=
  inferInstanceAs (Decidable (n.reread? = some n))

theorem numberOf?_eq_some {s : List Symbol} {n : Number} :
    numberOf? s = some n ↔ ∃ l, literal? s = some (l, []) ∧
      l.number? = some n := by
  unfold numberOf?
  split
  · next l hl =>
      rw [hl]
      constructor
      · exact fun h => ⟨l, rfl, h⟩
      · rintro ⟨l', heq, h⟩
        cases heq
        exact h
  · next hnot =>
      refine ⟨nofun, ?_⟩
      rintro ⟨l, hl, -⟩
      exact absurd hl (hnot l)

theorem Number.ReadsBack.spelled {n : Number} (h : n.ReadsBack) : n.Spelled :=
  let ⟨l, hl, _⟩ := numberOf?_eq_some.mp h
  ⟨l, hl⟩

/-! ## Digits -/

section Run

variable {ds : List Char} {rest : List Symbol}

/-- Digits are read up to what is none. -/
theorem digits_run (hds : ∀ d ∈ ds, isDigit d = true)
    (hrest : digits rest = ([], rest)) :
    digits (ds.map some ++ rest) = (ds, rest) := by
  induction ds with
  | nil => exact hrest
  | cons d ds ih =>
      rw [List.map_cons, List.cons_append, digits,
        if_pos (hds d List.mem_cons_self),
        ih fun e he => hds e (List.mem_cons_of_mem _ he)]

theorem digits?_run (hne : ds ≠ []) (hds : ∀ d ∈ ds, isDigit d = true)
    (hrest : digits rest = ([], rest)) :
    digits? (ds.map some ++ rest) = some (ds, rest) := by
  rw [digits?, digits_run hds hrest]
  cases ds with
  | nil => exact absurd rfl hne
  | cons d ds => rfl

/-- The digits of a whole part: a zero stands in front of no other digit. -/
structure Whole (ds : List Char) : Prop where
  ne_nil : ds ≠ []
  digits : ∀ d ∈ ds, isDigit d = true
  zero : ∀ rest, ds = '0' :: rest → rest = []

theorem Whole.read (h : Whole ds) (hrest : Json.digits rest = ([], rest)) :
    whole? (ds.map some ++ rest) = some (ds, rest) := by
  by_cases hzero : ∃ ds', ds = '0' :: ds'
  · obtain ⟨ds', rfl⟩ := hzero
    obtain rfl := h.zero ds' rfl
    rfl
  · rw [whole?]
    · exact digits?_run h.ne_nil h.digits hrest
    · intro s heq
      obtain ⟨d, ds', rfl⟩ := List.exists_cons_of_ne_nil h.ne_nil
      exact hzero ⟨ds', congrArg (· :: ds')
        (Option.some.inj (List.cons.inj heq).1)⟩

/-- No sign is read where digits begin. -/
theorem Whole.sign (h : Whole ds) (rest : List Symbol) :
    Json.sign (ds.map some ++ rest) = (false, ds.map some ++ rest) := by
  obtain ⟨d, ds', rfl⟩ := List.exists_cons_of_ne_nil h.ne_nil
  have hd := h.digits d List.mem_cons_self
  rw [List.map_cons, List.cons_append, Json.sign]
  intro s heq
  rw [Option.some.inj (List.cons.inj heq).1] at hd
  cases hd

theorem whole_natChars (n : Nat) : Whole (natChars n) where
  ne_nil := natChars_ne_nil n
  digits _ hd := isDigit_of_mem_natChars hd
  zero _ h := natChars_of_zero_cons h

/-- A number is read part by part, with a sign in front of it or without. -/
theorem literal?_parts (h : Whole ds) (hrest : Json.digits rest = ([], rest))
    {f? : Option (List Char)} {s : List Symbol}
    (hf : fraction? rest = some (f?, s)) {e? : Option Int}
    (he : exponent? s = some (e?, [])) :
    literal? (ds.map some ++ rest) = some (⟨false, ds, f?, e?⟩, []) ∧
      literal? (some '-' :: (ds.map some ++ rest)) =
        some (⟨true, ds, f?, e?⟩, []) := by
  constructor
  · rw [literal?, h.sign]
    simp only [Option.bind_eq_bind, h.read hrest, Option.bind_some, hf, he]
  · rw [literal?, Json.sign]
    simp only [Option.bind_eq_bind, h.read hrest, Option.bind_some, hf, he]

end Run

/-! ## Integers -/

/-- Digits of a number that fits 64 bits all count. -/
theorem fit_of_lt {n : Nat} {ds : List Char}
    (h : natOfDigits n ds < UInt64.size) :
    fit n ds = (natOfDigits n ds, []) := by
  induction ds generalizing n with
  | nil => rfl
  | cons d ds ih =>
      have hsplit :
          natOfDigits n (d :: ds) = natOfDigits (natOfDigits n [d]) ds := rfl
      rw [hsplit] at h ⊢
      have hgrows : natOfDigits n [d] ≤ natOfDigits (natOfDigits n [d]) ds := by
        rw [natOfDigits_eq_ofDigitChars _ ds,
          Nat.ofDigitChars_eq_ofDigitChars_zero]
        have := Nat.le_mul_of_pos_left (natOfDigits n [d])
          (Nat.pow_pos (n := ds.length) (by decide : 0 < 10))
        omega
      rw [fit, if_pos (by omega), ih h]

theorem literal?_intText (n : Int) :
    literal? (symbols (intText n)) =
      some (⟨decide (n < 0), natChars n.natAbs, none, none⟩, []) := by
  obtain ⟨hunsigned, hsigned⟩ := literal?_parts (whole_natChars n.natAbs)
    (rfl : digits [] = ([], [])) (rfl : fraction? [] = some (none, []))
    (rfl : exponent? [] = some (none, []))
  rw [List.append_nil] at hunsigned hsigned
  unfold intText
  split
  · next hneg =>
      rw [symbols_append, symbols_ofList (natChars n.natAbs),
        decide_eq_true hneg]
      exact hsigned
  · next hneg =>
      rw [symbols_ofList, decide_eq_false hneg]
      exact hunsigned

/-- An integer that fits 64 bits, with or without sign, is read back. -/
theorem readsBack_int {n : Int} (hlow : -2 ^ 63 ≤ n) (hhigh : n < 2 ^ 64) :
    (Number.int n).ReadsBack := by
  have hsize : n.natAbs < UInt64.size := by
    have : UInt64.size = 2 ^ 64 := rfl
    omega
  have hdigits := natOfDigits_natChars n.natAbs
  have hfit : fit 0 (natChars n.natAbs) = (n.natAbs, []) := by
    rw [fit_of_lt (by rwa [hdigits]), hdigits]
  refine numberOf?_eq_some.mpr ⟨_, literal?_intText n, ?_⟩
  rw [Literal.number?]
  simp only [hfit, and_self, if_true]
  refine congrArg some ?_
  unfold integer
  by_cases hneg : n < 0
  · rw [decide_eq_true hneg, if_pos rfl, if_pos (by
      have : Nat.pow 2 63 = 2 ^ 63 := rfl
      omega)]
    congr 1
    omega
  · rw [decide_eq_false hneg, if_neg Bool.false_ne_true]
    congr 1
    omega

end Placard.Json
