import Placard.Text.Split

/-!
# Cutting undoes joining

Splitting at a separator is what the standard library calls `splitOn`, and
joining is its `intercalate`, so the two undo each other as they do there: if
no piece holds the separator, the pieces come back as they were put in. The
searches for one cut and for a lead are said by what they find: a text is cut
at the first separator, and a lead is found exactly where the text begins with
it.
-/

namespace Placard.Text

/-! ## Splitting and joining -/

theorem splitWhere_eq_splitOnP (p : Char → Bool) (s : List Char) :
    splitWhere p s = s.splitOnP p := by
  induction s with
  | nil => rfl
  | cons c s ih =>
      rw [splitWhere, List.splitOnP_cons_eq_if_modifyHead, ih]
      split
      · rfl
      · cases h : s.splitOnP p with
        | nil => exact absurd h (List.splitOnP_ne_nil p s)
        | cons piece rest => rfl

theorem split_eq_splitOn (sep : Char) (s : List Char) :
    split sep s = s.splitOn sep :=
  splitWhere_eq_splitOnP (· == sep) s

theorem join_cons_cons (sep : Char) (piece next : List Char)
    (rest : List (List Char)) :
    join sep (piece :: next :: rest) =
      piece ++ sep :: join sep (next :: rest) := rfl

theorem join_eq_intercalate (sep : Char) (pieces : List (List Char)) :
    join sep pieces = [sep].intercalate pieces := by
  match pieces with
  | [] => rfl
  | [piece] => rw [join, List.intercalate_singleton]
  | piece :: next :: rest =>
      rw [join_cons_cons, join_eq_intercalate sep (next :: rest),
        List.intercalate_cons_cons]
      simp only [List.append_assoc, List.singleton_append]

theorem split_join {sep : Char} {pieces : List (List Char)}
    (hfree : ∀ piece ∈ pieces, sep ∉ piece) (hne : pieces ≠ []) :
    split sep (join sep pieces) = pieces := by
  rw [split_eq_splitOn, join_eq_intercalate]
  exact List.splitOn_intercalate sep hfree hne

theorem join_split (sep : Char) (s : List Char) :
    join sep (split sep s) = s := by
  rw [split_eq_splitOn, join_eq_intercalate]
  exact List.intercalate_splitOn sep

theorem split_of_not_mem {sep : Char} {s : List Char} (h : sep ∉ s) :
    split sep s = [s] := by
  rw [split_eq_splitOn]
  exact List.splitOn_eq_singleton h

theorem split_append_cons {sep : Char} {piece : List Char} (h : sep ∉ piece)
    (s : List Char) : split sep (piece ++ sep :: s) = piece :: split sep s := by
  rw [split_eq_splitOn, split_eq_splitOn]
  exact List.splitOn_append_cons_self_of_not_mem h s

/-- The first piece begins as the text does. -/
theorem exists_split_cons {c sep : Char} (h : c ≠ sep) (s : List Char) :
    ∃ piece rest, split sep (c :: s) = (c :: piece) :: rest := by
  rw [split, splitWhere, if_neg (by simpa using h)]
  split
  · exact ⟨_, _, rfl⟩
  · exact ⟨_, _, rfl⟩

theorem join_cons_head (sep c : Char) (piece : List Char)
    (rest : List (List Char)) :
    join sep ((c :: piece) :: rest) = c :: join sep (piece :: rest) := by
  cases rest <;> rfl

/-- A joined text has no characters but those of its pieces and the
separator. -/
theorem mem_join {c sep : Char} {pieces : List (List Char)}
    (h : c ∈ join sep pieces) : c = sep ∨ ∃ piece ∈ pieces, c ∈ piece := by
  match pieces with
  | [] => cases h
  | [piece] => exact Or.inr ⟨piece, List.mem_cons_self, h⟩
  | piece :: next :: rest =>
      rw [join_cons_cons] at h
      rcases List.mem_append.mp h with hc | hc
      · exact Or.inr ⟨piece, List.mem_cons_self, hc⟩
      · rcases List.mem_cons.mp hc with hc | hc
        · exact Or.inl hc
        · rcases mem_join hc with hc | ⟨p, hp, hc⟩
          · exact Or.inl hc
          · exact Or.inr ⟨p, List.mem_cons_of_mem _ hp, hc⟩

/-- A joined text ends as its last piece does. -/
theorem exists_join_snoc (sep : Char) (pieces : List (List Char))
    (x y : List Char) :
    ∃ lead, join sep (pieces ++ [x ++ y]) = lead ++ y ∧
      ∀ c ∈ lead, c = sep ∨ c ∈ x ∨ ∃ piece ∈ pieces, c ∈ piece := by
  induction pieces with
  | nil => exact ⟨x, rfl, fun c hc => Or.inr (Or.inl hc)⟩
  | cons p ps ih =>
      obtain ⟨lead, heq, hlead⟩ := ih
      refine ⟨p ++ sep :: lead, ?_, ?_⟩
      · obtain ⟨q, qs, hqs⟩ := List.exists_cons_of_ne_nil
          (List.append_ne_nil_of_right_ne_nil ps (List.cons_ne_nil (x ++ y) []))
        rw [List.cons_append, hqs, join_cons_cons, ← hqs, heq,
          List.append_assoc, List.cons_append]
      · intro c hc
        rcases List.mem_append.mp hc with hc | hc
        · exact Or.inr (Or.inr ⟨p, List.mem_cons_self, hc⟩)
        · rcases List.mem_cons.mp hc with hc | hc
          · exact Or.inl hc
          · rcases hlead c hc with hc | hc | ⟨piece, hpiece, hc⟩
            · exact Or.inl hc
            · exact Or.inr (Or.inl hc)
            · exact Or.inr (Or.inr ⟨piece, List.mem_cons_of_mem _ hpiece, hc⟩)

/-! ## The first cut -/

theorem cut?_append_cons {sep : Char} {left : List Char} (h : sep ∉ left)
    (right : List Char) :
    cut? sep (left ++ sep :: right) = some (left, right) := by
  induction left with
  | nil => rw [List.nil_append, cut?, if_pos (beq_self_eq_true sep)]
  | cons c left ih =>
      rw [List.mem_cons, not_or] at h
      rw [List.cons_append, cut?, if_neg (by simpa using Ne.symm h.1), ih h.2]
      rfl

theorem cut?_eq_none {sep : Char} {s : List Char} (h : sep ∉ s) :
    cut? sep s = none := by
  induction s with
  | nil => rfl
  | cons c s ih =>
      rw [List.mem_cons, not_or] at h
      rw [cut?, if_neg (by simpa using Ne.symm h.1), ih h.2]
      rfl

theorem eq_append_of_cut? {sep : Char} {s left right : List Char}
    (h : cut? sep s = some (left, right)) : s = left ++ sep :: right := by
  by_cases hs : sep ∈ s
  · obtain ⟨l, r, rfl, hl⟩ := List.eq_append_cons_of_mem hs
    rw [cut?_append_cons hl] at h
    cases h
    rfl
  · rw [cut?_eq_none hs] at h
    cases h

/-- The cut is at the first occurrence. -/
theorem not_mem_of_cut? {sep : Char} {s left right : List Char}
    (h : cut? sep s = some (left, right)) : sep ∉ left := by
  obtain ⟨l, r, heq, hl⟩ := List.eq_append_cons_of_mem
    (eq_append_of_cut? h ▸ List.mem_append_right left
      List.mem_cons_self : sep ∈ s)
  rw [heq, cut?_append_cons hl] at h
  cases h
  exact hl

/-! ## Leads -/

theorem after?_eq_some_iff {lead s rest : List Char} :
    after? lead s = some rest ↔ s = lead ++ rest := by
  induction lead generalizing s with
  | nil => rw [after?, Option.some.injEq, List.nil_append]
  | cons l lead ih =>
      cases s with
      | nil => simp [after?]
      | cons c s =>
          rw [after?, List.cons_append, List.cons.injEq]
          by_cases h : l = c
          · rw [if_pos (by simpa using h), ih]
            exact ⟨fun hs => ⟨h.symm, hs⟩, And.right⟩
          · rw [if_neg (by simpa using h)]
            constructor
            · intro hs
              cases hs
            · intro hs
              exact absurd hs.1.symm h

theorem after?_cons_of_ne {l c : Char} (h : c ≠ l) (lead s : List Char) :
    after? (l :: lead) (c :: s) = none := by
  rw [after?, if_neg (by simpa using Ne.symm h)]

theorem after?_append (lead rest : List Char) :
    after? lead (lead ++ rest) = some rest :=
  after?_eq_some_iff.mpr rfl

/-! ## Where a character stands -/

/-- What follows each occurrence of a character. -/
def Follows (c : Char) (P : List Char → Prop) (s : List Char) : Prop :=
  ∀ pre post, s = pre ++ c :: post → P post

theorem follows_of_not_mem {c : Char} {P : List Char → Prop} {s : List Char}
    (h : c ∉ s) : Follows c P s := by
  rintro pre post rfl
  exact absurd (List.mem_append_right _ List.mem_cons_self) h

theorem Follows.mono {c : Char} {P Q : List Char → Prop} {s : List Char}
    (h : Follows c P s) (hsub : ∀ post, P post → Q post) : Follows c Q s :=
  fun pre post hs => hsub post (h pre post hs)

theorem follows_cons {c d : Char} {P : List Char → Prop} {s : List Char} :
    Follows c P (d :: s) ↔ (d = c → P s) ∧ Follows c P s := by
  constructor
  · intro h
    refine ⟨?_, fun pre post hs => h (d :: pre) post (congrArg (d :: ·) hs)⟩
    rintro rfl
    exact h [] s rfl
  · rintro ⟨hd, hs⟩ pre post heq
    cases pre with
    | nil =>
        cases heq
        exact hd rfl
    | cons e pre =>
        cases heq
        exact hs pre post rfl

theorem follows_append {c : Char} {P : List Char → Prop} {a : List Char}
    (h : c ∉ a) (s : List Char) : Follows c P (a ++ s) ↔ Follows c P s := by
  induction a with
  | nil => exact Iff.rfl
  | cons d a ih =>
      rw [List.mem_cons, not_or] at h
      rw [List.cons_append, follows_cons, ih h.2]
      exact ⟨And.right, fun hs => ⟨fun hd => absurd hd.symm h.1, hs⟩⟩

/-- An occurrence is the first one, or it is behind the first one. -/
theorem eq_or_behind {c : Char} {a b l r : List Char} (h : c ∉ a)
    (heq : a ++ c :: b = l ++ c :: r) :
    l = a ∨ ∃ m, l = a ++ c :: m ∧ b = m ++ c :: r := by
  induction a generalizing l with
  | nil =>
      cases l with
      | nil => exact Or.inl rfl
      | cons d l =>
          cases heq
          exact Or.inr ⟨l, rfl, rfl⟩
  | cons x a ih =>
      rw [List.mem_cons, not_or] at h
      cases l with
      | nil =>
          cases heq
          exact absurd rfl h.1
      | cons d l =>
          obtain ⟨hd, htail⟩ := List.cons.inj heq
          subst hd
          rcases ih h.2 htail with rfl | ⟨m, rfl, hb⟩
          · exact Or.inl rfl
          · exact Or.inr ⟨m, rfl, hb⟩

/-- Another character than the separator stands in one of the pieces, and the
piece is between separators or the ends of the text. -/
theorem exists_piece_of_join {c sep : Char} (hne : c ≠ sep)
    {pieces : List (List Char)} {pre post : List Char}
    (h : join sep pieces = pre ++ c :: post) :
    ∃ piece ∈ pieces, ∃ before l r after, piece = l ++ c :: r ∧
      pre = before ++ l ∧ post = r ++ after ∧
      (before = [] ∨ ∃ b, before = b ++ [sep]) ∧
      (after = [] ∨ ∃ a, after = sep :: a) := by
  match pieces with
  | [] =>
      rw [join] at h
      exact absurd h.symm
        (List.append_ne_nil_of_right_ne_nil _ (List.cons_ne_nil _ _))
  | [piece] =>
      rw [join] at h
      exact ⟨piece, List.mem_cons_self, [], pre, post, [], h, rfl,
        (List.append_nil _).symm, Or.inl rfl, Or.inl rfl⟩
  | piece :: next :: rest =>
      rw [join_cons_cons] at h
      rcases List.append_eq_append_iff.mp h with ⟨as, rfl, has⟩ | ⟨bs, rfl, hbs⟩
      · -- Behind the first piece: the separator, then one of the rest.
        cases as with
        | nil =>
            cases has
            exact absurd rfl hne
        | cons a as =>
            obtain ⟨hsep, hrest⟩ := List.cons.inj has
            subst hsep
            obtain ⟨p, hp, before, l, r, after, rfl, rfl, rfl, hbefore,
                hafter⟩ :=
              exists_piece_of_join hne hrest
            refine ⟨_, List.mem_cons_of_mem _ hp, piece ++ sep :: before, l, r,
              after, rfl, ?_, rfl, ?_, hafter⟩
            · simp only [List.append_assoc, List.cons_append]
            · rcases hbefore with rfl | ⟨b, rfl⟩
              · exact Or.inr ⟨piece, rfl⟩
              · refine Or.inr ⟨piece ++ sep :: b, ?_⟩
                simp only [List.append_assoc, List.cons_append]
      · cases bs with
        | nil =>
            cases hbs
            exact absurd rfl hne
        | cons b bs =>
            cases hbs
            exact ⟨_, List.mem_cons_self, [], pre, bs, _, rfl, rfl, rfl,
              Or.inl rfl, Or.inr ⟨_, rfl⟩⟩

end Placard.Text
