import Placard.Proofs.Decimal.Digits
import Placard.Template.Formula
import Mathlib.Data.List.Infix
import Mathlib.Data.List.TakeWhile

/-!
# The grammar of formulas

A formula is spelled by pieces: blanks, an operator, blanks, and a number, and
after the last piece blanks again. It is read exactly if it is spelled so, by
one piece at least, and every number is finite. The reader then gives the steps
of the pieces in turn, whatever the blanks are and though a sign and an operator
may be one character: behind an operator the character is a sign, and behind a
number it is an operator. A number ends where no digit and no point comes next,
and neither a blank nor an operator is one, so there is no other spelling of a
formula.
-/

namespace Placard

namespace Text

/-! ## Runs of characters

A run of characters of one kind ends where a character of another kind comes
next, or the text ends. So it is what is taken of the text as long as the kind
is the same, and two texts that are equal have equal runs in front.
-/

section Runs

variable {α : Type} {p : α → Bool} {run rest : List α}

theorem takeWhile_run (hrun : ∀ c ∈ run, p c = true)
    (hrest : ∀ c ∈ rest.head?, p c = false) :
    (run ++ rest).takeWhile p = run := by
  rw [List.takeWhile_append_of_pos hrun]
  cases rest with
  | nil => exact List.append_nil run
  | cons c rest =>
      rw [List.takeWhile_cons_of_neg (by simp [hrest c rfl]), List.append_nil]

theorem dropWhile_run (hrun : ∀ c ∈ run, p c = true)
    (hrest : ∀ c ∈ rest.head?, p c = false) :
    (run ++ rest).dropWhile p = rest := by
  rw [List.dropWhile_append_of_pos hrun]
  cases rest with
  | nil => rfl
  | cons c rest => rw [List.dropWhile_cons_of_neg (by simp [hrest c rfl])]

/-- Where a run ends is told by the text. -/
theorem run_inj {run' rest' : List α} (hrun : ∀ c ∈ run, p c = true)
    (hrun' : ∀ c ∈ run', p c = true) (hrest : ∀ c ∈ rest.head?, p c = false)
    (hrest' : ∀ c ∈ rest'.head?, p c = false)
    (h : run ++ rest = run' ++ rest') : run = run' ∧ rest = rest' := by
  constructor
  · rw [← takeWhile_run hrun hrest, h, takeWhile_run hrun' hrest']
  · rw [← dropWhile_run hrun hrest, h, dropWhile_run hrun' hrest']

theorem not_of_dropWhile_eq_cons {s : List α} {c : α}
    (h : s.dropWhile p = c :: rest) : p c = false := by
  have hhead := List.head?_dropWhile_not p s
  rw [h] at hhead
  exact hhead

end Runs

end Text

open Text Decimal

/-! ## Numbers -/

/-- A character that a number text goes on with. -/
def isNumberPart (c : Char) : Bool :=
  isDigit c || c == '.'

theorem toNat_lt_of_isNumberPart {c : Char} (h : isNumberPart c = true) :
    c.toNat < 58 := by
  simp only [isNumberPart, isDigit, Bool.or_eq_true, Bool.and_eq_true,
    decide_eq_true_eq, beq_iff_eq] at h
  rcases h with ⟨-, hle⟩ | rfl
  · exact Nat.lt_succ_of_le hle
  · decide

theorem ne_sign_of_isNumberPart {c : Char} (h : isNumberPart c = true) :
    c ≠ '-' ∧ c ≠ '+' := by
  constructor <;> rintro rfl <;> cases h

/-- The sign that a number is written with. -/
inductive Sign where
  | unsigned
  | minus
  | plus
deriving DecidableEq

namespace Sign

/-- The character of a sign, if there is one. -/
def text : Sign → List Char
  | unsigned => []
  | minus => ['-']
  | plus => ['+']

/-- What a sign makes of a magnitude. -/
def apply : Sign → Float → Float
  | unsigned, x => x
  | minus, x => -x
  | plus, x => x

end Sign

/-- How a number is written in a formula: a sign if there is one, then digits,
at least one, with at most one point among them. -/
@[ext] structure Numeral where
  sign : Sign
  whole : List Char
  /-- The digits behind the point, if there is a point. -/
  fraction : Option (List Char)
  whole_digits : ∀ c ∈ whole, isDigit c = true
  fraction_digits : ∀ c ∈ fraction.getD [], isDigit c = true
  some_digit : whole ++ fraction.getD [] ≠ []

namespace Numeral

/-- The part from the point on. -/
def tail : Option (List Char) → List Char
  | none => []
  | some ds => '.' :: ds

/-- The text behind the sign. -/
def body (n : Numeral) : List Char :=
  n.whole ++ tail n.fraction

/-- The text of a numeral. -/
def text (n : Numeral) : List Char :=
  n.sign.text ++ n.body

/-- The digits of a numeral on both sides of its point. -/
def digits (n : Numeral) : List Char :=
  n.whole ++ n.fraction.getD []

/-- The double nearest to the number without its sign: all digits together,
taken down by as many places as there are behind the point. -/
def magnitude (n : Numeral) : Float :=
  nearestFloat (natOfDigits 0 n.digits) (n.digits.dropWhile (· == '0')).length
    (-(n.fraction.getD []).length)

/-- The number that a numeral denotes. -/
def value (n : Numeral) : Float :=
  n.sign.apply n.magnitude

theorem head_tail (fraction : Option (List Char)) :
    ∀ c ∈ (tail fraction).head?, isDigit c = false := by
  cases fraction with
  | none => exact fun _ h => absurd h (Option.not_mem_none _)
  | some ds =>
      rintro c hc
      obtain rfl : '.' = c := Option.some.inj hc
      rfl

theorem tail_injective : Function.Injective tail
  | none, none, _ => rfl
  | some _, some _, h => congrArg some (List.cons.inj h).2

theorem body_ne_nil (n : Numeral) : n.body ≠ [] := by
  intro h
  obtain ⟨hwhole, htail⟩ := List.append_eq_nil_iff.mp h
  cases hfraction : n.fraction with
  | none => exact n.some_digit (by rw [hwhole, hfraction]; rfl)
  | some ds =>
      rw [hfraction] at htail
      cases htail

theorem isNumberPart_of_mem_body (n : Numeral) :
    ∀ c ∈ n.body, isNumberPart c = true := by
  have hdigit {c : Char} (h : isDigit c = true) : isNumberPart c = true := by
    rw [isNumberPart, h, Bool.true_or]
  have htail : ∀ c ∈ tail n.fraction, isNumberPart c = true := by
    have hfraction := n.fraction_digits
    cases hf : n.fraction with
    | none => exact List.forall_mem_nil _
    | some ds =>
        rw [hf] at hfraction
        exact List.forall_mem_cons.mpr
          ⟨rfl, fun c hc => hdigit (hfraction c hc)⟩
  exact List.forall_mem_append.mpr
    ⟨fun c hc => hdigit (n.whole_digits c hc), htail⟩

/-! ### Reading what is written -/

theorem magnitude?_body (n : Numeral) :
    magnitude? n.body = some n.magnitude := by
  have htake : n.body.takeWhile isDigit = n.whole :=
    takeWhile_run n.whole_digits (head_tail _)
  have hdrop : n.body.dropWhile isDigit = tail n.fraction :=
    dropWhile_run n.whole_digits (head_tail _)
  have hsome := n.some_digit
  have hfraction := n.fraction_digits
  unfold magnitude?
  rw [htake, hdrop]
  unfold magnitude digits
  cases hf : n.fraction with
  | none =>
      rw [hf, Option.getD_none, List.append_nil] at hsome
      simp [tail, exponentPart?, hsome]
  | some ds =>
      rw [hf, Option.getD_some] at hsome hfraction
      have htakes : ds.takeWhile isDigit = ds :=
        List.takeWhile_eq_self_iff.mpr hfraction
      have hdrops : ds.dropWhile isDigit = [] :=
        List.dropWhile_eq_nil_iff.mpr hfraction
      have hnone : (n.whole.isEmpty && ds.isEmpty) = false :=
        Bool.eq_false_iff.mpr fun h => hsome (by simpa using h)
      simp [tail, exponentPart?, htakes, hdrops, hnone]

/-- Among digits and points it is a point that ends the digits. -/
theorem point_of_dropWhile {s rest : List Char} {c : Char}
    (hs : ∀ d ∈ s, isNumberPart d = true)
    (h : s.dropWhile isDigit = c :: rest) :
    c = '.' ∧ ∀ d ∈ rest, isNumberPart d = true := by
  have hsub : (c :: rest) ⊆ s := h ▸ (List.dropWhile_sublist isDigit).subset
  have hpart := hs c (hsub List.mem_cons_self)
  rw [isNumberPart, not_of_dropWhile_eq_cons h, Bool.false_or] at hpart
  exact ⟨beq_iff_eq.mp hpart,
    fun d hd => hs d (hsub (List.mem_cons_of_mem _ hd))⟩

/-- Digits and points are read only if they are the digits of a number. -/
theorem exists_of_magnitude? (sign : Sign) {s : List Char} {x : Float}
    (hs : ∀ c ∈ s, isNumberPart c = true) (h : magnitude? s = some x) :
    ∃ n : Numeral, n.sign = sign ∧ n.body = s := by
  have hsplit := List.takeWhile_append_dropWhile (p := isDigit) (l := s)
  have hwhole : ∀ c ∈ s.takeWhile isDigit, isDigit c = true :=
    fun c hc => List.mem_takeWhile_imp hc
  unfold magnitude? at h
  cases hdrop : s.dropWhile isDigit with
  | nil =>
      rw [hdrop] at h hsplit
      refine ⟨⟨sign, s.takeWhile isDigit, none, hwhole,
        fun _ hc => absurd hc List.not_mem_nil, ?_⟩, rfl, hsplit⟩
      intro hnil
      simp [(List.append_eq_nil_iff.mp hnil).1] at h
  | cons c rest =>
      obtain ⟨rfl, hpart⟩ := point_of_dropWhile hs hdrop
      rw [hdrop] at h hsplit
      -- A second point would be taken for the mark of an exponent.
      have hrest : rest.dropWhile isDigit = [] := by
        cases hbehind : rest.dropWhile isDigit with
        | nil => rfl
        | cons d more =>
            obtain ⟨rfl, -⟩ := point_of_dropWhile hpart hbehind
            simp [hbehind, exponentPart?] at h
      refine ⟨⟨sign, s.takeWhile isDigit, some rest, hwhole,
        List.dropWhile_eq_nil_iff.mp hrest, ?_⟩, rfl, hsplit⟩
      intro hnil
      obtain ⟨hnone, hrests⟩ := List.append_eq_nil_iff.mp hnil
      rw [Option.getD_some] at hrests
      simp [hnone, hrests] at h

/-- Digits and points do not spell a name. -/
theorem named?_eq_none {s : List Char} (hs : ∀ c ∈ s, isNumberPart c = true) :
    named? s = none := by
  have hne {name : String} (c : Char) (hname : name.toList.head? = some c)
      (hc : c ∈ ['i', 'n']) : String.ofList (s.map Char.toLower) ≠ name := by
    rintro rfl
    rw [String.toList_ofList, List.head?_map, Option.map_eq_some_iff] at hname
    obtain ⟨d, hd, rfl⟩ := hname
    exact forall_toNat_lt (P := fun d => d.toLower ∉ ['i', 'n']) (by decide)
      (toNat_lt_of_isNumberPart (hs d (List.mem_of_mem_head? hd))) hc
  unfold named?
  split
  · next h => exact absurd h (hne 'i' rfl (by decide))
  · next h => exact absurd h (hne 'i' rfl (by decide))
  · next h => exact absurd h (hne 'n' rfl (by decide))
  · rfl

theorem readFloatChars?_of_unsigned {s : List Char}
    (h : ∀ c ∈ s.head?, c ≠ '-' ∧ c ≠ '+') :
    readFloatChars? s = (magnitude? s).or (named? s) := by
  unfold readFloatChars?
  split
  · exact absurd rfl (h '-' rfl).1
  · exact absurd rfl (h '+' rfl).2
  · rfl

/-- Of digits and points behind a sign the sign is taken, and no name is
read. -/
theorem readFloatChars?_signed (sign : Sign) {s : List Char}
    (hs : ∀ c ∈ s, isNumberPart c = true) :
    readFloatChars? (sign.text ++ s) = (magnitude? s).map sign.apply := by
  have hor : (magnitude? s).or (named? s) = magnitude? s := by
    rw [named?_eq_none hs, Option.or_none]
  cases sign with
  | unsigned =>
      have hhead : ∀ c ∈ s.head?, c ≠ '-' ∧ c ≠ '+' := fun c hc =>
        ne_sign_of_isNumberPart (hs c (List.mem_of_mem_head? hc))
      rw [Sign.text, List.nil_append, readFloatChars?_of_unsigned hhead, hor]
      exact (congrFun Option.map_id _).symm
  | minus =>
      show ((magnitude? s).or (named? s)).map (fun x => -x) = _
      rw [hor]
      rfl
  | plus =>
      show (magnitude? s).or (named? s) = _
      rw [hor]
      exact (congrFun Option.map_id _).symm

theorem readFloatChars?_text (n : Numeral) :
    readFloatChars? n.text = some n.value := by
  rw [text, readFloatChars?_signed n.sign n.isNumberPart_of_mem_body,
    magnitude?_body]
  rfl

/-- A number is written in one way only. -/
theorem text_injective {m n : Numeral} (h : m.text = n.text) : m = n := by
  have hhead (k : Numeral) :
      ∀ c ∈ k.body.head?, c ≠ '-' ∧ c ≠ '+' := fun c hc =>
    ne_sign_of_isNumberPart
      (k.isNumberPart_of_mem_body c (List.mem_of_mem_head? hc))
  have hsign (k : Numeral) : k.sign =
      if k.text.head? = some '-' then .minus
      else if k.text.head? = some '+' then .plus
      else .unsigned := by
    rw [text]
    cases k.sign with
    | unsigned =>
        rw [Sign.text, List.nil_append,
          if_neg fun hc : _ = _ => (hhead k _ hc).1 rfl,
          if_neg fun hc : _ = _ => (hhead k _ hc).2 rfl]
    | minus => rfl
    | plus => rfl
  have hsigns : m.sign = n.sign := by rw [hsign m, hsign n, h]
  have hbodies : m.body = n.body := by
    rw [text, text, hsigns] at h
    exact List.append_cancel_left h
  obtain ⟨hwhole, htail⟩ :=
    run_inj m.whole_digits n.whole_digits (head_tail _) (head_tail _) hbodies
  exact Numeral.ext hsigns hwhole (tail_injective htail)

end Numeral

namespace Formula

theorem literal_text (n : Numeral) {rest : List Char}
    (hrest : ∀ c ∈ rest.head?, isNumberPart c = false) :
    literal (n.text ++ rest) = n.text := by
  have hbody := n.isNumberPart_of_mem_body
  have htake : (n.body ++ rest).takeWhile isNumberPart = n.body :=
    takeWhile_run hbody hrest
  rw [Numeral.text]
  cases n.sign with
  | unsigned =>
      obtain ⟨c, cs, hcons⟩ := List.exists_cons_of_ne_nil n.body_ne_nil
      rw [hcons] at hbody htake ⊢
      obtain ⟨hminus, hplus⟩ :=
        ne_sign_of_isNumberPart (hbody c List.mem_cons_self)
      rw [Sign.text, List.nil_append, List.cons_append, literal,
        if_neg (not_or.mpr ⟨hminus, hplus⟩)]
      exact htake
  | minus => exact congrArg ('-' :: ·) htake
  | plus => exact congrArg ('+' :: ·) htake

/-- A number text is a sign with digits and points behind it. -/
theorem exists_literal (t : List Char) :
    ∃ (sign : Sign) (s : List Char), literal t = sign.text ++ s ∧
      (∀ c ∈ s, isNumberPart c = true) ∧ literal t <+: t := by
  have hrun (s : List Char) :
      ∀ c ∈ s.takeWhile isNumberPart, isNumberPart c = true :=
    fun c hc => List.mem_takeWhile_imp hc
  cases t with
  | nil => exact ⟨.unsigned, [], rfl, hrun [], List.nil_prefix⟩
  | cons c s =>
      rw [literal]
      split
      · next hc =>
          have hprefix : c :: s.takeWhile isNumberPart <+: c :: s :=
            List.cons_prefix_cons.mpr ⟨rfl, List.takeWhile_prefix _⟩
          rcases hc with rfl | rfl
          · exact ⟨.minus, _, rfl, hrun s, hprefix⟩
          · exact ⟨.plus, _, rfl, hrun s, hprefix⟩
      · exact ⟨.unsigned, _, rfl, hrun (c :: s), List.takeWhile_prefix _⟩

theorem operand?_text {n : Numeral} (h : n.value.isFinite = true) :
    operand? n.text = some n.value := by
  rw [operand?, n.readFloatChars?_text]
  exact Option.filter_eq_some_iff.mpr ⟨rfl, h⟩

/-- What is taken for a number and read is the text of a number. -/
theorem exists_numeral {t : List Char} {x : Float}
    (h : operand? (literal t) = some x) :
    ∃ n : Numeral, literal t = n.text ∧ n.value = x ∧
      n.value.isFinite = true := by
  obtain ⟨hread, hfinite⟩ := Option.filter_eq_some_iff.mp h
  obtain ⟨sign, s, hliteral, hs, -⟩ := exists_literal t
  rw [hliteral, Numeral.readFloatChars?_signed sign hs] at hread
  obtain ⟨y, hy, rfl⟩ := Option.map_eq_some_iff.mp hread
  obtain ⟨n, rfl, rfl⟩ := Numeral.exists_of_magnitude? sign hs hy
  have hvalue := n.magnitude?_body.symm.trans hy
  obtain rfl := Option.some.inj hvalue
  exact ⟨n, hliteral, rfl, hfinite⟩

end Formula

/-! ## Pieces -/

/-- The character that stands for an operator in a formula. -/
def Operator.symbol : Operator → Char
  | add => '+'
  | sub => '-'
  | mul => '*'
  | div => '/'
  | mod => '%'
  | pow => '^'

theorem Operator.ofSymbol?_eq_some_iff {c : Char} {op : Operator} :
    Operator.ofSymbol? c = some op ↔ c = op.symbol := by
  constructor
  · intro h
    unfold ofSymbol? at h
    split at h <;> cases h <;> rfl
  · rintro rfl
    cases op <;> rfl

theorem Operator.symbol_injective : Function.Injective Operator.symbol := by
  intro a b h
  have hread := Operator.ofSymbol?_eq_some_iff.mpr h
  rw [Operator.ofSymbol?_eq_some_iff.mpr rfl] at hread
  exact Option.some.inj hread

/-- Blanks are no operators, and neither they nor operators go on with a
number. -/
theorem Operator.symbol_facts (op : Operator) :
    isBlank op.symbol = false ∧ isNumberPart op.symbol = false := by
  cases op <;> decide

theorem isNumberPart_of_isBlank {c : Char} (h : isBlank c = true) :
    isNumberPart c = false := by
  by_contra hpart
  rw [Bool.not_eq_false] at hpart
  have hnot : isNumberPart c = false :=
    forall_toNat_lt (P := fun c => isBlank c = true →
      isNumberPart c = false) (by decide)
      (toNat_lt_of_isNumberPart hpart) h
  exact absurd hpart (Bool.eq_false_iff.mp hnot)

/-- How a step is written: blanks, an operator, blanks, and a number. -/
@[ext] structure Piece where
  lead : List Char
  op : Operator
  gap : List Char
  number : Numeral
  lead_blank : ∀ c ∈ lead, isBlank c = true
  gap_blank : ∀ c ∈ gap, isBlank c = true

namespace Piece

/-- The text of a piece. -/
def text (p : Piece) : List Char :=
  p.lead ++ p.op.symbol :: (p.gap ++ p.number.text)

/-- The step that a piece denotes. -/
def step (p : Piece) : Step :=
  ⟨p.op, p.number.value⟩

/-- Pieces with blanks behind them. -/
def spelling (ps : List Piece) (trail : List Char) : List Char :=
  ps.flatMap text ++ trail

theorem spelling_cons (p : Piece) (ps : List Piece) (trail : List Char) :
    spelling (p :: ps) trail =
      p.lead ++ p.op.symbol ::
        (p.gap ++ (p.number.text ++ spelling ps trail)) := by
  simp only [spelling, text, List.flatMap_cons, List.append_assoc,
    List.cons_append]

/-- A piece begins with a blank or an operator, so no number goes on in it. -/
theorem head_spelling (ps : List Piece) {trail : List Char}
    (htrail : ∀ c ∈ trail, isBlank c = true) :
    ∀ c ∈ (spelling ps trail).head?, isNumberPart c = false := by
  intro c hc
  cases ps with
  | nil => exact isNumberPart_of_isBlank (htrail c (List.mem_of_mem_head? hc))
  | cons p ps =>
      rw [spelling_cons] at hc
      cases hlead : p.lead with
      | nil =>
          rw [hlead] at hc
          obtain rfl : p.op.symbol = c := Option.some.inj hc
          exact p.op.symbol_facts.2
      | cons d lead =>
          rw [hlead] at hc
          obtain rfl : d = c := Option.some.inj hc
          exact isNumberPart_of_isBlank
            (p.lead_blank d (hlead ▸ List.mem_cons_self))

theorem head_number (n : Numeral) (rest : List Char) :
    ∀ c ∈ (n.text ++ rest).head?, isBlank c = false := by
  have hsign : ∀ c ∈ n.sign.text, isBlank c = false := by
    cases n.sign with
    | unsigned => exact List.forall_mem_nil _
    | plus => exact List.forall_mem_singleton.mpr rfl
    | minus => exact List.forall_mem_singleton.mpr rfl
  have hbody : ∀ c ∈ n.body, isBlank c = false := by
    intro c hc
    by_contra hblank
    rw [Bool.not_eq_false] at hblank
    have hpart := n.isNumberPart_of_mem_body c hc
    rw [isNumberPart_of_isBlank hblank] at hpart
    cases hpart
  obtain ⟨c, cs, hcons⟩ := List.exists_cons_of_ne_nil
    (List.append_ne_nil_of_right_ne_nil n.sign.text n.body_ne_nil)
  intro d hd
  rw [Numeral.text, hcons] at hd
  obtain rfl : c = d := Option.some.inj hd
  have hmem : c ∈ n.sign.text ++ n.body := hcons ▸ List.mem_cons_self
  exact (List.mem_append.mp hmem).elim (hsign c) (hbody c)

end Piece

/-! ## Formulas -/

namespace Formula

/-- What a piece in front of a text adds to what is read of the text. -/
theorem stepsFrom?_piece (p : Piece) (hfinite : p.number.value.isFinite = true)
    {rest : List Char} (hrest : ∀ c ∈ rest.head?, isNumberPart c = false) :
    stepsFrom? (p.lead ++ p.op.symbol :: (p.gap ++ (p.number.text ++ rest))) =
      (stepsFrom? rest).map (p.step :: ·) := by
  have hlead :
      (p.lead ++ p.op.symbol :: (p.gap ++ (p.number.text ++ rest))).dropWhile
        isBlank = p.op.symbol :: (p.gap ++ (p.number.text ++ rest)) :=
      dropWhile_run p.lead_blank fun c hc =>
        Option.some.inj hc ▸ p.op.symbol_facts.1
  have hgap : (p.gap ++ (p.number.text ++ rest)).dropWhile isBlank =
      p.number.text ++ rest :=
    dropWhile_run p.gap_blank (Piece.head_number _ _)
  rw [stepsFrom?]
  split
  · next hnil =>
      rw [hlead] at hnil
      cases hnil
  · next c r hcons =>
      rw [hlead] at hcons
      cases hcons
      simp only [Operator.ofSymbol?_eq_some_iff.mpr rfl, hgap,
        literal_text _ hrest, operand?_text hfinite, List.drop_left,
        Option.bind_eq_bind, Option.bind_some]
      cases stepsFrom? rest <;> rfl

theorem stepsFrom?_spelling {ps : List Piece} {trail : List Char}
    (hfinite : ∀ p ∈ ps, p.number.value.isFinite = true)
    (htrail : ∀ c ∈ trail, isBlank c = true) :
    stepsFrom? (Piece.spelling ps trail) = some (ps.map Piece.step) := by
  induction ps with
  | nil =>
      rw [stepsFrom?]
      split
      · rfl
      · next c r hcons =>
          rw [Piece.spelling, List.flatMap_nil, List.nil_append,
            List.dropWhile_eq_nil_iff.mpr htrail] at hcons
          cases hcons
  | cons p ps ih =>
      obtain ⟨hp, hps⟩ := List.forall_mem_cons.mp hfinite
      rw [Piece.spelling_cons,
        stepsFrom?_piece p hp (Piece.head_spelling ps htrail), ih hps]
      rfl

/-- A text that is read is spelled by pieces of finite numbers, and the steps
are theirs. -/
theorem exists_spelling {s : List Char} {steps : List Step}
    (h : stepsFrom? s = some steps) :
    ∃ ps trail, (∀ c ∈ trail, isBlank c = true) ∧ s = Piece.spelling ps trail ∧
      (∀ p ∈ ps, p.number.value.isFinite = true) ∧
      steps = ps.map Piece.step := by
  fun_induction stepsFrom? s generalizing steps with
  | case1 s hblank =>
      cases h
      exact ⟨[], s, List.dropWhile_eq_nil_iff.mp hblank, rfl,
        fun _ hp => absurd hp List.not_mem_nil, rfl⟩
  | case2 s c r hcons ih =>
      simp only [Option.bind_eq_bind, Option.bind_eq_some_iff] at h
      obtain ⟨op, hop, x, hx, more, hmore, hsteps⟩ := h
      cases hsteps
      obtain ⟨ps, trail, htrail, hrest, hfinite, rfl⟩ := ih hmore
      obtain ⟨n, hliteral, rfl, hn⟩ := exists_numeral hx
      obtain rfl := Operator.ofSymbol?_eq_some_iff.mp hop
      let p : Piece := ⟨s.takeWhile isBlank, op, r.takeWhile isBlank, n,
        fun _ hc => List.mem_takeWhile_imp hc, fun _ hc =>
          List.mem_takeWhile_imp hc⟩
      have htext : r.dropWhile isBlank = n.text ++ Piece.spelling ps trail := by
        obtain ⟨_, _, -, -, hprefix⟩ := exists_literal (r.dropWhile isBlank)
        rw [← hrest, ← hliteral]
        exact List.prefix_append_drop hprefix
      have hspelled : s = Piece.spelling (p :: ps) trail := by
        rw [Piece.spelling_cons, ← htext, List.takeWhile_append_dropWhile,
          ← hcons, List.takeWhile_append_dropWhile]
      exact ⟨p :: ps, trail, htrail, hspelled,
        List.forall_mem_cons.mpr ⟨hn, hfinite⟩, rfl⟩

/-- A formula is read exactly if pieces spell it, at least one and all with
finite numbers, and what is read are the steps of the pieces in turn. -/
theorem grammar_exact {formula : String} {steps : List Step} :
    steps? formula = some steps ↔
      ∃ ps trail, ps ≠ [] ∧ (∀ c ∈ trail, isBlank c = true) ∧
        formula.toList = Piece.spelling ps trail ∧
        (∀ p ∈ ps, p.number.value.isFinite = true) ∧
        steps = ps.map Piece.step := by
  constructor
  · intro h
    obtain ⟨hread, hsome⟩ := Option.filter_eq_some_iff.mp h
    obtain ⟨ps, trail, htrail, hspelled, hfinite, rfl⟩ := exists_spelling hread
    refine ⟨ps, trail, ?_, htrail, hspelled, hfinite, rfl⟩
    rintro rfl
    cases hsome
  · rintro ⟨ps, trail, hne, htrail, hspelled, hfinite, rfl⟩
    obtain ⟨p, ps, rfl⟩ := List.exists_cons_of_ne_nil hne
    rw [steps?, hspelled, stepsFrom?_spelling hfinite htrail]
    rfl

end Formula

/-- No text is spelled in two ways. -/
theorem Piece.spelling_injective {ps qs : List Piece}
    {trail trail' : List Char} (htrail : ∀ c ∈ trail, isBlank c = true)
    (htrail' : ∀ c ∈ trail', isBlank c = true)
    (h : spelling ps trail = spelling qs trail') :
    ps = qs ∧ trail = trail' := by
  have hmixed {p : Piece} {ps : List Piece} {trail trail' : List Char}
      (htrail : ∀ c ∈ trail, isBlank c = true) :
      trail ≠ spelling (p :: ps) trail' := by
    rintro rfl
    rw [spelling_cons] at htrail
    have hblank := htrail _ (List.mem_append_right _ List.mem_cons_self)
    rw [p.op.symbol_facts.1] at hblank
    cases hblank
  induction ps generalizing qs with
  | nil =>
      cases qs with
      | nil => exact ⟨rfl, h⟩
      | cons q qs => exact absurd h (hmixed htrail)
  | cons p ps ih =>
      cases qs with
      | nil => exact absurd h.symm (hmixed htrail')
      | cons q qs =>
          have hop (o : Operator) (rest : List Char) :
              ∀ c ∈ (o.symbol :: rest).head?, isBlank c = false :=
            fun c hc => Option.some.inj hc ▸ o.symbol_facts.1
          rw [spelling_cons, spelling_cons] at h
          obtain ⟨hlead, h⟩ :=
            run_inj p.lead_blank q.lead_blank (hop _ _) (hop _ _) h
          obtain ⟨hsymbol, h⟩ := List.cons.inj h
          obtain ⟨hgap, h⟩ := run_inj p.gap_blank q.gap_blank (head_number _ _)
            (head_number _ _) h
          have hnumber : p.number.text = q.number.text := by
            rw [← Formula.literal_text p.number (head_spelling ps htrail), h,
              Formula.literal_text q.number (head_spelling qs htrail')]
          rw [hnumber] at h
          obtain ⟨rfl, rfl⟩ := ih (List.append_cancel_left h)
          have hpiece : p = q :=
            Piece.ext hlead (Operator.symbol_injective hsymbol) hgap
              (Numeral.text_injective hnumber)
          exact ⟨hpiece ▸ rfl, rfl⟩

end Placard
