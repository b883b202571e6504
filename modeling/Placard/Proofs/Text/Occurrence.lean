import Placard.Proofs.Text.Search
import Mathlib.Order.Bounds.Basic

/-!
# Every occurrence of a text

The searches pass over an occurrence that begins inside the one before it. What
they find first is not passed over by any, so it is the first occurrence of all.
-/

namespace Placard.Text

/-- Whether a text stands at a byte offset of another. -/
def occursAt (needle : List Char) (o : Nat) : List Char → Bool
  | [] => o = 0 && needle.isEmpty
  | c :: s =>
    (o = 0 && needle.isPrefixOf (c :: s)) ||
      (c.utf8Size ≤ o && occursAt needle (o - c.utf8Size) s)

theorem occursAt_iff {needle s : List Char} {o : Nat} :
    occursAt needle o s = true ↔
      ∃ pre post, s = pre ++ needle ++ post ∧ o = byteLength pre := by
  induction s generalizing o with
  | nil =>
      simp only [occursAt, Bool.and_eq_true, decide_eq_true_eq,
        List.isEmpty_iff]
      constructor
      · rintro ⟨rfl, rfl⟩
        exact ⟨[], [], rfl, rfl⟩
      · rintro ⟨pre, post, hsplit, rfl⟩
        obtain ⟨rfl, rfl, -⟩ : pre = [] ∧ needle = [] ∧ post = [] := by
          simpa using hsplit.symm
        exact ⟨rfl, rfl⟩
  | cons c s ih =>
      simp only [occursAt, Bool.or_eq_true, Bool.and_eq_true, decide_eq_true_eq,
        List.isPrefixOf_iff_prefix, ih]
      constructor
      · rintro (⟨rfl, post, hpost⟩ | ⟨hle, pre, post, rfl, ho⟩)
        · exact ⟨[], post, hpost.symm, rfl⟩
        · refine ⟨c :: pre, post, rfl, ?_⟩
          rw [byteLength_cons]
          omega
      · rintro ⟨pre, post, hsplit, rfl⟩
        cases pre with
        | nil => exact Or.inl ⟨rfl, post, hsplit.symm⟩
        | cons d pre =>
            obtain ⟨rfl, rfl⟩ := List.cons.inj hsplit
            refine Or.inr ⟨?_, pre, post, rfl, ?_⟩ <;>
              rw [byteLength_cons] <;> omega

theorem exists_occursAt_iff {needle s : List Char} :
    (∃ o, occursAt needle o s = true) ↔ needle <:+: s := by
  constructor
  · rintro ⟨o, h⟩
    obtain ⟨pre, post, hsplit, -⟩ := occursAt_iff.mp h
    exact ⟨pre, post, hsplit.symm⟩
  · rintro ⟨pre, post, hsplit⟩
    exact ⟨byteLength pre, occursAt_iff.mpr ⟨pre, post, hsplit.symm, rfl⟩⟩

theorem occursAt_of_mem_offsets {needle s : List Char} {o : Nat}
    (h : o ∈ offsets needle s) : occursAt needle o s = true :=
  occursAt_iff.mpr (exists_of_mem_offsets h)

theorem occursAt_self (s : List Char) : occursAt s 0 s = true :=
  occursAt_iff.mpr ⟨[], [], (List.append_nil s).symm, rfl⟩

/-- What stands at an offset is no longer than what is left of the text
there. -/
theorem byteLength_le_of_occursAt {needle s : List Char} {o : Nat}
    (h : occursAt needle o s = true) :
    o + byteLength needle ≤ byteLength s := by
  obtain ⟨pre, post, rfl, rfl⟩ := occursAt_iff.mp h
  rw [byteLength_append, byteLength_append]
  omega

/-- The whole text is the only one of its length that stands in it. -/
theorem eq_of_occursAt {needle s : List Char} {o : Nat}
    (h : occursAt needle o s = true) (hlen : byteLength needle = byteLength s) :
    needle = s := by
  have hnil {l : List Char} (hl : byteLength l = 0) : l = [] := by
    cases l with
    | nil => rfl
    | cons c l => exact absurd hl (byteLength_cons_pos c l).ne'
  obtain ⟨pre, post, rfl, -⟩ := occursAt_iff.mp h
  rw [byteLength_append, byteLength_append] at hlen
  rw [hnil (by omega : byteLength pre = 0),
    hnil (by omega : byteLength post = 0), List.nil_append, List.append_nil]

/-- Where the search meets nothing before the first occurrence, it finds it. -/
theorem offsetsFrom_of_least {needle s : List Char} {o : Nat}
    (hne : needle ≠ []) (hat : occursAt needle o s = true)
    (hleast : ∀ o', occursAt needle o' s = true → o ≤ o') (start : Nat) :
    ∃ rest, offsetsFrom needle start 0 s = (start + o) :: rest := by
  induction s generalizing start o with
  | nil =>
      obtain ⟨pre, post, hsplit, -⟩ := occursAt_iff.mp hat
      simp only [List.nil_eq, List.append_eq_nil_iff] at hsplit
      exact absurd hsplit.1.2 hne
  | cons c s ih =>
      rw [offsetsFrom]
      by_cases hhere : needle.isPrefixOf (c :: s) = true
      · have hzero : o ≤ 0 := hleast 0 (by simp [occursAt, hhere])
        rw [if_pos ⟨rfl, hhere⟩, Nat.le_zero.mp hzero]
        exact ⟨_, rfl⟩
      · rw [if_neg (fun h => hhere h.2)]
        simp only [occursAt, Bool.or_eq_true, Bool.and_eq_true,
          decide_eq_true_eq, hhere, Bool.false_eq_true, and_false, false_or]
          at hat hleast
        obtain ⟨hle, hat⟩ := hat
        have hlater : ∀ o', occursAt needle o' s = true →
            o - c.utf8Size ≤ o' := by
          intro o' ho'
          have :=
            hleast (o' + c.utf8Size) ⟨by omega, by rwa [Nat.add_sub_cancel]⟩
          omega
        obtain ⟨rest, hrest⟩ := ih hat hlater (start + c.utf8Size)
        refine ⟨rest, ?_⟩
        rw [hrest]
        congr 1
        omega

/-- The first offset that the search finds is the least at which the text
occurs. -/
theorem offsets_of_least {needle s : List Char} {o : Nat} (hne : needle ≠ [])
    (h : IsLeast {o' | occursAt needle o' s = true} o) :
    ∃ rest, offsets needle s = o :: rest := by
  obtain ⟨rest, hrest⟩ := offsetsFrom_of_least hne h.1 (fun o' ho' => h.2 ho') 0
  rw [Nat.zero_add] at hrest
  rw [offsets, if_neg (by simpa using hne)]
  exact ⟨rest, hrest⟩

end Placard.Text
