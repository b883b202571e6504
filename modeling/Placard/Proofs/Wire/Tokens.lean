import Placard.Proofs.Wire.Blocks

/-!
# What each command is made of

A command is put together from plain texts and from marks of its own. Free text
comes into it along many ways: the path of an asset, the words of a font, a
lead and a trail, a literal, the key of metadata, the name of a field, the
operands of a formula. For each there is one reason why it brings no separator
with it: it is escaped, or filtered, or it is a number. What is left in a
command is what the command was given, and here it is said for each kind which
marks those are.
-/

namespace Placard

open Text Decimal

/-! ## Tokens -/

theorem plain_hex (c : Color) : Plain c.hex.toList := by
  have hvalid := c.valid
  simp only [isHexColor, Bool.and_eq_true, List.all_eq_true] at hvalid
  have hall : separators.all (fun x => !isLowerHex x) = true := by decide
  rw [Color.hex, String.toList_ofList]
  intro x hx hsep
  have hnot := List.all_eq_true.mp hall x hsep
  rw [hvalid.2 x hx] at hnot
  cases hnot

theorem plain_sideText (n : UInt32) : Plain (Size.sideText n).toList :=
  (numeric_intText _).plain

theorem plain_gravity (g : Gravity) : Plain g.token.toList := by
  cases g <;> decide

theorem plain_operator (o : Operator) : Plain o.token.toList := by
  cases o <;> decide

theorem markedBy_asset (path : String) :
    MarkedBy [':'] (Token.asset path).toList := by
  rw [Token.asset, String.toList_ofList]
  intro c hc
  rcases mem_join hc with rfl | ⟨piece, hp, hc⟩
  · exact Or.inr List.mem_cons_self
  · obtain ⟨part, -, rfl⟩ := List.mem_map.mp hp
    exact Or.inl (plain_escapeChars part c hc)

theorem plain_styles (words : List String) :
    Plain (String.join ((Token.styles words).map fun s => "_" ++
      s)).toList := by
  have hall : ∀ s ∈ Token.styleWords, Plain s.toList := by
    simp only [Token.styleWords, List.forall_mem_cons]
    decide
  rw [String.toList_join, List.flatMap_map]
  intro c hc
  obtain ⟨s, hs, hc⟩ := List.mem_flatMap.mp hc
  have hword := of_decide_eq_true (List.mem_filter.mp hs).2
  have hplain : Plain ("_" ++ s).toList := by
    rw [String.toList_append, plain_append]
    exact ⟨by decide, hall s hword⟩
  exact hplain c hc

theorem plain_font (name : String) (size : Float) :
    Plain (Token.font name size).toList := by
  unfold Token.font
  simp only [String.toList_append, plain_append]
  refine ⟨⟨⟨?_, by decide⟩, (numeric_wireNumber size).plain⟩, plain_styles _⟩
  split
  · decide
  · rw [toList_escape]
    exact plain_escapeChars _

theorem markedBy_placement (p : Placement) :
    MarkedBy [','] p.command.toList := by
  unfold Placement.command
  simp only [String.toList_append, markedBy_append]
  exact ⟨⟨⟨⟨⟨by decide, (plain_gravity _).markedBy _⟩, by decide⟩,
    (numeric_intText _).plain.markedBy _⟩, by decide⟩,
    (numeric_intText _).plain.markedBy _⟩

/-! ## Literals -/

theorem numeric_of_isDigits {s : List Char} (h : Literal.isDigits s = true) :
    Numeric s := by
  simp only [Literal.isDigits, Bool.and_eq_true, List.all_eq_true] at h
  exact fun c hc => mem_numberChars_of_isDigit (h.2 c hc)

theorem numeric_of_isPlainNumber {s : List Char}
    (h : Literal.isPlainNumber s = true) : Numeric s := by
  have hdigits : Numeric ((after? ['-'] s).getD s) := by
    simp only [Literal.isPlainNumber] at h
    split at h
    · exact numeric_of_isDigits h
    · next whole fraction hcut =>
        rw [Bool.and_eq_true] at h
        rw [eq_append_of_cut? hcut, numeric_append, numeric_cons]
        exact ⟨numeric_of_isDigits h.1, by decide, numeric_of_isDigits h.2⟩
  cases hsign : after? ['-'] s with
  | none => rwa [hsign] at hdigits
  | some ds =>
      rw [hsign] at hdigits
      rw [after?_eq_some_iff.mp hsign, numeric_append]
      exact ⟨by decide, hdigits⟩

/-- A literal that goes onto the wire as it stands is a plain number. -/
def Literal.Valid : Literal → Prop
  | .number digits => isPlainNumber digits.toList = true
  | .text _ => True

theorem Literal.valid_ofText (s : String) : (Literal.ofText s).Valid := by
  unfold Literal.ofText
  split
  · next h => exact h
  · trivial

theorem Literal.markedBy_token {l : Literal} (h : l.Valid) :
    MarkedBy ['!'] l.token.toList := by
  cases l with
  | number digits => exact (numeric_of_isPlainNumber h).plain.markedBy _
  | text s =>
      simp only [Literal.token, String.toList_append, markedBy_append,
        toList_escape]
      exact ⟨⟨by decide, (plain_escapeChars _).markedBy _⟩, by decide⟩

/-! ## Commands on variables -/

theorem markedBy_value {v : Variable} (h : Variable.Named v.name.toList) :
    MarkedBy ['$'] v.value.toList := by
  rw [Variable.value, String.toList_append, markedBy_append]
  exact ⟨by decide, h.plain.markedBy _⟩

theorem markedBy_scratch {v : Variable} (h : Variable.Named v.name.toList) :
    MarkedBy ['$'] v.scratch.toList := by
  rw [Variable.scratch, String.toList_append, markedBy_append]
  exact ⟨by decide, h.plain.markedBy _⟩

theorem markedBy_reference {v : Variable} (h : Variable.Named v.name.toList) :
    MarkedBy ['$'] v.reference.toList := by
  rw [Variable.reference, String.toList_append, String.toList_append,
    markedBy_append, markedBy_append]
  exact ⟨⟨by decide, h.plain.markedBy _⟩, by decide⟩

theorem plain_steps (steps : List Step) :
    Plain (String.join (steps.map Command.stepText)).toList := by
  rw [String.toList_join, List.flatMap_map]
  intro c hc
  obtain ⟨s, -, hc⟩ := List.mem_flatMap.mp hc
  have hplain : Plain (Command.stepText s).toList := by
    simp only [Command.stepText, String.toList_append, plain_append]
    exact ⟨⟨⟨by decide, plain_operator _⟩, by decide⟩,
      (numeric_wireNumber _).plain⟩
  exact hplain c hc

/-- A command whose variables have proper names and whose literal is valid. -/
def Command.WellFormed : Command → Prop
  | .assign target literal => Variable.Named target.name.toList ∧ literal.Valid
  | .lookUp target _ => Variable.Named target.name.toList
  | .ifFound target => Variable.Named target.name.toList
  | .keep target => Variable.Named target.name.toList
  | .endIf => True
  | .derive target source _ =>
    Variable.Named target.name.toList ∧ Variable.Named source.name.toList

theorem Command.markedBy_text {c : Command} (h : c.WellFormed) :
    MarkedBy ['!', '$', ':'] c.text.toList := by
  have hdollar : ['$'] ⊆ ['!', '$', ':'] := by decide
  have hbang : ['!'] ⊆ ['!', '$', ':'] := by decide
  cases c with
  | assign target literal =>
      simp only [Command.text, String.toList_append, markedBy_append]
      exact ⟨⟨(markedBy_value h.1).mono hdollar, by decide⟩,
        (Literal.markedBy_token h.2).mono hbang⟩
  | lookUp target key =>
      simp only [Command.text, String.toList_append, markedBy_append,
        toList_escape]
      exact ⟨⟨⟨(markedBy_scratch h).mono hdollar, by decide⟩,
        (plain_escapeChars _).markedBy _⟩, by decide⟩
  | ifFound target =>
      simp only [Command.text, String.toList_append, markedBy_append]
      exact ⟨⟨by decide, (markedBy_scratch h).mono hdollar⟩, by decide⟩
  | keep target =>
      simp only [Command.text, String.toList_append, markedBy_append]
      exact ⟨⟨(markedBy_value h).mono hdollar, by decide⟩,
        (markedBy_scratch h).mono hdollar⟩
  | endIf => decide
  | derive target source steps =>
      simp only [Command.text, String.toList_append, markedBy_append]
      exact ⟨⟨⟨(markedBy_value h.1).mono hdollar, by decide⟩,
        (markedBy_value h.2).mono hdollar⟩, (plain_steps _).markedBy _⟩

theorem Command.text_ne_nil (c : Command) : c.text.toList ≠ [] := by
  cases c with
  | endIf => decide
  | assign _ _ | lookUp _ _ | ifFound _ | keep _ | derive _ _ _ =>
      simp only [Command.text, Variable.value, Variable.scratch,
        String.toList_append, List.append_assoc]
      exact List.append_ne_nil_of_left_ne_nil (by decide) _

/-! ## Blocks -/

theorem Expression.wellFormed_ofBinding (b : Binding) {target : Variable}
    (h : Variable.Named target.name.toList) (needed : Bool) :
    ∀ c ∈ (Expression.ofBinding b target needed).commands, c.WellFormed := by
  unfold Expression.ofBinding
  simp only []
  split
  · have hdefault : (if b.currentLiteral.isEmpty then Literal.text " "
        else Literal.ofText b.currentLiteral).Valid := by
      split
      · trivial
      · exact Literal.valid_ofText _
    simp only [Expression.commands, List.forall_mem_cons]
    exact ⟨⟨h, hdefault⟩, h, h, h, trivial,
      fun _ hc => absurd hc List.not_mem_nil⟩
  · split
    · exact List.forall_mem_singleton.mpr ⟨h, Literal.valid_ofText _⟩
    · exact fun _ hc => absurd hc List.not_mem_nil

theorem Plan.wellFormed_expressionOf (t : Template) (bs : Bindings)
    (key : String) (text : TextLayer) {target : Variable}
    (h : Variable.Named target.name.toList) :
    ∀ c ∈ (expressionOf t bs key text target).commands, c.WellFormed := by
  cases hk : (t.keptDerivations bs).get? key with
  | some d =>
      obtain ⟨_, _, _, _, _, _, hder, rfl⟩ := Template.derives_of_kept hk
      rw [expressionOf_of_kept hk]
      exact List.forall_mem_singleton.mpr
        ⟨Template.named_variable hder.hasTarget,
          Template.named_variable hder.hasSource⟩
  | none =>
      rw [expressionOf_of_not_kept hk]
      exact Expression.wellFormed_ofBinding _ h _

theorem Plan.IsBlock.wellFormed {t : Template} {bs : Bindings} {b : Block}
    (h : IsBlock t bs b) : ∀ c ∈ b.expression.commands, c.WellFormed := by
  rw [h.expressed]
  exact wellFormed_expressionOf _ _ _ _ (Template.named_variable h.named)

end Placard
