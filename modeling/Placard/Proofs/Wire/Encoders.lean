import Mathlib.Data.Set.Operations
import Placard.Proofs.Wire.Meaning

/-!
# What is written onto the wire is read back as it was

Three writers bring free text onto the wire: one escapes it, one makes a token
of the path of an asset, and one makes a token of a literal. Each has a reader
that gives back exactly what was written.

The converse is the part with something in it. A text that somebody else wrote
can hold percent signs that start no code, or separators; reading the codes back
and escaping again changes it. The texts that this leaves alone are those
without separators in which every percent sign starts a code, and those are all
that escaping ever writes.
-/

namespace Placard

namespace Text

/-! ## What escaping writes -/

/-- A text that begins with what stands behind the percent sign of a code. -/
def StartsCode (s : List Char) : Prop :=
  ∃ c a b rest, code? c = some (a, b) ∧ s = a :: b :: rest

/-- A text as escaping writes it. -/
structure Escaped (s : List Char) : Prop where
  plain : Plain s
  coded : Follows '%' StartsCode s

theorem Escaped.tail {c : Char} {s : List Char} (h : Escaped (c :: s)) :
    Escaped s :=
  ⟨(plain_cons.mp h.plain).2, (follows_cons.mp h.coded).2⟩

theorem code?_eq_none {c : Char} (h : c ∉ separators) (hpercent : c ≠ '%') :
    code? c = none := by
  unfold code?
  split <;> first | rfl | exact absurd (by decide) h | exact absurd rfl hpercent

theorem ne_percent_of_code?_eq_some {c a b : Char} (h : code? c = some (a, b)) :
    a ≠ '%' ∧ b ≠ '%' := by
  unfold code? at h
  split at h <;> cases h <;> decide

theorem escaped_escapeChars (s : List Char) : Escaped (escapeChars s) := by
  refine ⟨plain_escapeChars s, ?_⟩
  induction s with
  | nil => exact follows_of_not_mem List.not_mem_nil
  | cons c s ih =>
      rw [escapeChars]
      split
      · next a b h =>
          obtain ⟨ha, hb⟩ := ne_percent_of_code?_eq_some h
          simp only [follows_cons]
          exact ⟨fun _ => ⟨c, a, b, _, h, rfl⟩, fun heq => absurd heq ha,
            fun heq => absurd heq hb, ih⟩
      · next h =>
          exact follows_cons.mpr
            ⟨fun heq => absurd heq (ne_percent_of_code? h), ih⟩

/-- The reader and the writer go through such a text side by side: at a percent
sign both take a whole code, and elsewhere both take one character. -/
theorem Escaped.escapeChars_unescapeChars {s : List Char} (h : Escaped s) :
    escapeChars (unescapeChars s) = s := by
  -- not by induction on the text: a code takes three characters off at once
  match s with
  | [] => rfl
  | c :: s =>
      by_cases hpercent : c = '%'
      · subst hpercent
        obtain ⟨d, a, b, rest, hcode, rfl⟩ := (follows_cons.mp h.coded).1 rfl
        have ih := h.tail.tail.tail.escapeChars_unescapeChars
        rw [unescapeChars, if_pos rfl, ofCode?_of_code? hcode]
        simp only [escapeChars, hcode, ih]
      · have hcode := code?_eq_none (plain_cons.mp h.plain).1 hpercent
        have ih := h.tail.escapeChars_unescapeChars
        rw [unescapeChars_cons hpercent, escapeChars, hcode]
        simp only [ih]
termination_by s.length

theorem unescape_escape (s : String) : unescape (escape s) = s := by
  rw [unescape, toList_escape, unescapeChars_escapeChars, String.ofList_toList]

theorem escape_unescape {u : String} (h : Escaped u.toList) :
    escape (unescape u) = u := by
  rw [escape, unescape, String.toList_ofList, h.escapeChars_unescapeChars,
    String.ofList_toList]

theorem mem_range_escape {u : String} :
    u ∈ Set.range escape ↔ Escaped u.toList := by
  constructor
  · rintro ⟨s, rfl⟩
    rw [toList_escape]
    exact escaped_escapeChars s.toList
  · intro h
    exact ⟨unescape u, escape_unescape h⟩

end Text

open Text

/-! ## Paths -/

namespace Token

/-- The path that a token of an asset stands for. -/
def pathChars (token : List Char) : List Char :=
  join '/' ((split ':' token).map unescapeChars)

@[inherit_doc pathChars]
def path (token : String) : String :=
  String.ofList (pathChars token.toList)

theorem pathChars_assetChars (path : List Char) :
    pathChars (assetChars path) = path := by
  have hfree : ∀ piece ∈ (split '/' path).map escapeChars, ':' ∉ piece := by
    intro piece hpiece
    obtain ⟨part, -, rfl⟩ := List.mem_map.mp hpiece
    exact (plain_escapeChars part).not_mem (by decide)
  have hne : (split '/' path).map escapeChars ≠ [] := by
    rw [split_eq_splitOn, ne_eq, List.map_eq_nil_iff]
    exact List.splitOn_ne_nil '/' path
  have hparts : unescapeChars ∘ escapeChars = id :=
    funext unescapeChars_escapeChars
  rw [pathChars, assetChars, split_join hfree hne, List.map_map, hparts,
    List.map_id, join_split]

theorem path_asset (a : String) : path (asset a) = a := by
  rw [path, asset, String.toList_ofList, pathChars_assetChars,
    String.ofList_toList]

end Token

/-! ## Literals -/

namespace Literal

/-- The text that a token of a literal stands for: what is between its
exclamation marks, or all of it if there are none. -/
def rawOfToken (token : String) : String :=
  String.ofList ((Instruction.readQuoted? token.toList).getD token.toList)

theorem rawOfToken_token {l : Literal} (h : l.Valid) :
    rawOfToken l.token = l.raw := by
  cases l with
  | number digits =>
      have hfree : '!' ∉ digits.toList :=
        (numeric_of_isPlainNumber h).plain.not_mem (by decide)
      have hlead : after? ['!'] digits.toList = none := by
        refine Option.eq_none_iff_forall_ne_some.mpr fun rest hrest => hfree ?_
        rw [after?_eq_some_iff.mp hrest]
        exact List.mem_cons_self
      rw [rawOfToken, token, Instruction.readQuoted?, hlead]
      exact String.ofList_toList
  | text s =>
      rw [rawOfToken, toList_token_text, Instruction.readQuoted?_escape]
      exact String.ofList_toList

theorem rawOfToken_ofText (r : String) : rawOfToken (ofText r).token = r := by
  rw [rawOfToken_token (valid_ofText r), raw_ofText]

end Literal

/-- Escaping, the tokens of assets and the tokens of literals are read back
exactly, and what escaping writes is known by its form. -/
theorem encoders_invertible :
    (∀ s, unescape (escape s) = s) ∧
    (∀ s t, escape (s ++ t) = escape s ++ escape t) ∧
    (∀ s, Escaped (escape s).toList) ∧
    (∀ u, (escape (unescape u) = u ↔ u ∈ Set.range escape) ∧
      (u ∈ Set.range escape ↔ Escaped u.toList)) ∧
    (∀ a, Token.path (Token.asset a) = a) ∧
    (∀ r, Literal.rawOfToken (Literal.ofText r).token = r) ∧
    (∀ r r', (Literal.ofText r).token = (Literal.ofText r').token ↔
      r = r') := by
  refine ⟨unescape_escape, ?append, ?escaped, ?image, Token.path_asset,
    Literal.rawOfToken_ofText, ?injective⟩
  case append =>
    intro s t
    rw [escape, String.toList_append, escapeChars_append, String.ofList_append]
    rfl
  case escaped =>
    intro s
    exact mem_range_escape.mp ⟨s, rfl⟩
  case image =>
    refine fun u => ⟨⟨fun h => ⟨_, h⟩, ?_⟩, mem_range_escape⟩
    rintro ⟨s, rfl⟩
    rw [unescape_escape]
  case injective =>
    refine fun r r' => ⟨fun h => ?_, fun h => h ▸ rfl⟩
    rw [← Literal.rawOfToken_ofText r, h, Literal.rawOfToken_ofText]

end Placard
