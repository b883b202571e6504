import Placard.Proofs.Text.Split

/-!
# Where a text occurs

An offset that a search answers with is that of an occurrence, counted in the
bytes in front of it. The first occurrence of a text that begins with some
character cannot be in front of the first place where the character stands, and
if the text is there, that is where it is found first.
-/

namespace Placard.Text

@[simp] theorem byteLength_nil : byteLength [] = 0 := rfl

@[simp] theorem byteLength_cons (c : Char) (s : List Char) :
    byteLength (c :: s) = c.utf8Size + byteLength s := rfl

@[simp] theorem byteLength_append (s t : List Char) :
    byteLength (s ++ t) = byteLength s + byteLength t := by
  induction s with
  | nil => rw [List.nil_append, byteLength_nil, Nat.zero_add]
  | cons c s ih =>
      rw [List.cons_append, byteLength_cons, byteLength_cons, ih, Nat.add_assoc]

theorem byteLength_cons_pos (c : Char) (s : List Char) :
    0 < byteLength (c :: s) := by
  have := c.utf8Size_pos
  rw [byteLength_cons]
  omega

theorem exists_of_mem_offsetsFrom {needle : List Char} {start skip o : Nat}
    {s : List Char} (h : o ∈ offsetsFrom needle start skip s) :
    ∃ pre post, s = pre ++ needle ++ post ∧ o = start + byteLength pre := by
  induction s generalizing start skip with
  | nil => cases h
  | cons c s ih =>
      -- An occurrence further on is one behind this character.
      have hlater {skip : Nat}
          (h : o ∈ offsetsFrom needle (start + c.utf8Size) skip s) :
          ∃ pre post, c :: s = pre ++ needle ++ post ∧
            o = start + byteLength pre := by
        obtain ⟨pre, post, rfl, rfl⟩ := ih h
        exact ⟨c :: pre, post, rfl, by rw [byteLength_cons, Nat.add_assoc]⟩
      rw [offsetsFrom] at h
      split at h
      · next hhere =>
          rcases List.mem_cons.mp h with rfl | h
          · obtain ⟨post, hpost⟩ := List.isPrefixOf_iff_prefix.mp hhere.2
            exact ⟨[], post, hpost.symm, rfl⟩
          · exact hlater h
      · exact hlater h

theorem exists_of_mem_offsets {needle s : List Char} {o : Nat}
    (h : o ∈ offsets needle s) :
    ∃ pre post, s = pre ++ needle ++ post ∧ o = byteLength pre := by
  unfold offsets at h
  split at h
  · cases h
  · obtain ⟨pre, post, hs, ho⟩ := exists_of_mem_offsetsFrom h
    exact ⟨pre, post, hs, by rw [ho, Nat.zero_add]⟩

theorem offsetsFrom_of_first {c : Char} {needle pre : List Char} (h : c ∉ pre)
    (post : List Char) (start : Nat) :
    ∃ rest,
      offsetsFrom (c :: needle) start 0 (pre ++ (c :: needle) ++ post) =
        (start + byteLength pre) :: rest := by
  induction pre generalizing start with
  | nil =>
      have hhere : (c :: needle).isPrefixOf (c :: (needle ++ post)) = true :=
        List.isPrefixOf_iff_prefix.mpr ⟨post, rfl⟩
      rw [List.nil_append, List.cons_append, offsetsFrom, if_pos ⟨rfl, hhere⟩]
      exact ⟨_, rfl⟩
  | cons d pre ih =>
      rw [List.mem_cons, not_or] at h
      have hnot :
          (c :: needle).isPrefixOf (d :: (pre ++ (c :: needle) ++ post)) =
            false := by
        rw [List.isPrefixOf, beq_eq_false_iff_ne.mpr h.1, Bool.false_and]
      obtain ⟨rest, hrest⟩ := ih h.2 (start + d.utf8Size)
      refine ⟨rest, ?_⟩
      rw [List.cons_append, List.cons_append, offsetsFrom, if_neg,
        byteLength_cons, ← Nat.add_assoc]
      · exact hrest
      · rintro ⟨-, hhere⟩
        rw [hnot] at hhere
        cases hhere

/-- The first occurrence is the first to be found. -/
theorem offsets_of_first {c : Char} {needle pre : List Char} (h : c ∉ pre)
    (post : List Char) :
    ∃ rest,
      offsets (c :: needle) (pre ++ (c :: needle) ++ post) =
        byteLength pre :: rest := by
  obtain ⟨rest, hrest⟩ := offsetsFrom_of_first h post 0
  rw [Nat.zero_add] at hrest
  exact ⟨rest, hrest⟩

/-- An occurrence of what begins with a character is where the character first
stands, or further on. -/
theorem eq_or_lt_of_occurrence {c : Char} {a b l r needle : List Char}
    (h : c ∉ a) (heq : a ++ c :: b = l ++ (c :: needle) ++ r) :
    (l = a ∧ b = needle ++ r) ∨ byteLength a < byteLength l := by
  rw [List.append_assoc, List.cons_append] at heq
  rcases eq_or_behind h heq with rfl | ⟨m, rfl, -⟩
  · exact Or.inl ⟨rfl, (List.cons.inj (List.append_cancel_left heq)).2⟩
  · refine Or.inr ?_
    have := byteLength_cons_pos c m
    rw [byteLength_append]
    omega

/-- Of two texts without a character that begin alike, up to where it stands in
the second, the first is the second or shorter. -/
theorem eq_or_shorter {c : Char} {s t rest post : List Char} (hs : c ∉ s)
    (ht : c ∉ t) (heq : t ++ c :: rest = s ++ post) :
    s = t ∨ byteLength s < byteLength t := by
  rcases List.append_eq_append_iff.mp heq with ⟨as, rfl, has⟩ | ⟨bs, rfl, -⟩
  · cases as with
    | nil => exact Or.inl (List.append_nil t)
    | cons a as =>
        rw [← (List.cons.inj has).1] at hs
        exact absurd (List.mem_append_right _ List.mem_cons_self) hs
  · cases bs with
    | nil => exact Or.inl (List.append_nil s).symm
    | cons b bs =>
        have := byteLength_cons_pos b bs
        refine Or.inr ?_
        rw [byteLength_append]
        omega

end Placard.Text
