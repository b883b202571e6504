import Mathlib.Data.List.Nodup
import Placard.Field.Variable
import Placard.Proofs.Decimal.Digits

/-!
# Two fields never share a variable

The name of a variable is made of letters and digits, and no two fields have
the same. The second half rests on one count: a base has one more candidate
than there are names taken, the candidates are all different, so one of them is
free and the search for it cannot come back empty.

Nothing else about names matters to the wire. A name can be the beginning of
another; what follows a name there is never a letter or a digit, so even then
the two are told apart.
-/

namespace Placard

open Text Decimal

namespace Variable

/-- A text of ASCII letters and digits. -/
def Named (s : List Char) : Prop := ∀ c ∈ s, isNameChar c = true

instance (s : List Char) : Decidable (Named s) :=
  List.decidableBAll (fun c => isNameChar c = true) s

theorem Named.not_mem {s : List Char} (h : Named s) {c : Char}
    (hc : isNameChar c = false) : c ∉ s := by
  intro hcs
  rw [h c hcs] at hc
  cases hc

theorem Named.plain {s : List Char} (h : Named s) : Plain s := by
  have hall : separators.all (fun c => !isNameChar c) = true := by decide
  intro c hcs hc
  have hname := List.all_eq_true.mp hall c hc
  exact h.not_mem (by simpa using hname) hcs

/-! ## The candidates for a base -/

theorem named_natChars (n : Nat) : Named (natChars n) := by
  intro c hc
  have h := Nat.isDigit_of_mem_toDigits (by decide) (by decide) hc
  have hn := Char.isDigit_iff_toNat.mp h
  have hd : isDigit c = true := by
    simp only [isDigit, Bool.and_eq_true, decide_eq_true_eq]
    exact hn
  simp only [isNameChar, hd, Bool.true_or]

theorem named_baseName (field : String) : Named (baseName field).toList := by
  unfold baseName
  simp only []
  split
  · decide
  · rw [String.toList_ofList]
    exact fun c hc => (List.mem_filter.mp hc).2

theorem natChars_injective {m n : Nat} (h : natChars m = natChars n) :
    m = n := by
  rw [← Nat.ofDigitChars_ten_toDigits (n := m),
    ← Nat.ofDigitChars_ten_toDigits (n := n)]
  exact congrArg (Nat.ofDigitChars 10 · 0) h

theorem toList_candidate_succ (base : String) (n : Nat) :
    (candidate base (n + 1)).toList = base.toList ++ natChars (n + 2) := by
  have h : ((n : Int) + 2) = ((n + 2 : Nat) : Int) := rfl
  rw [candidate, h, String.toList_append, toList_intText_natCast]

theorem named_candidate {base : String} (h : Named base.toList) (n : Nat) :
    Named (candidate base n).toList := by
  cases n with
  | zero => exact h
  | succ n =>
      rw [toList_candidate_succ]
      exact List.forall_mem_append.mpr ⟨h, named_natChars _⟩

theorem candidate_injective (base : String) {m n : Nat}
    (h : candidate base m = candidate base n) : m = n := by
  have hne (k : Nat) : candidate base 0 ≠ candidate base (k + 1) := by
    intro heq
    have hl := congrArg String.toList heq
    rw [toList_candidate_succ] at hl
    exact Nat.toDigits_ne_nil (List.append_right_eq_self.mp hl.symm)
  cases m with
  | zero =>
      cases n with
      | zero => rfl
      | succ n => exact absurd h (hne n)
  | succ m =>
      cases n with
      | zero => exact absurd h.symm (hne m)
      | succ n =>
          have hl := congrArg String.toList h
          rw [toList_candidate_succ, toList_candidate_succ] at hl
          have := natChars_injective (List.append_cancel_left hl)
          omega

/-- One more candidate than there are names taken, all different, cannot all be
taken. -/
theorem exists_free (base : String) (taken : List String) :
    ∃ n ∈ (List.range (taken.length + 1)).map (candidate base), n ∉ taken := by
  apply Decidable.byContradiction
  intro hall
  have hsub : (List.range (taken.length + 1)).map (candidate base) ⊆ taken := by
    intro n hn
    exact Decidable.byContradiction fun hnt => hall ⟨n, hn, hnt⟩
  have hnodup : ((List.range (taken.length + 1)).map (candidate base)).Nodup :=
    List.nodup_range.map fun _ _ h => candidate_injective base h
  have hlen := hnodup.length_le_of_subset hsub
  rw [List.length_map, List.length_range] at hlen
  omega

/-- The name that is found is that of the first candidate that is free. -/
theorem freeName_spec (base : String) (taken : List String) :
    ∃ n ≤ taken.length, freeName base taken = candidate base n ∧
      candidate base n ∉ taken ∧ ∀ m < n, candidate base m ∈ taken := by
  obtain ⟨free, hmem, hfree⟩ := exists_free base taken
  unfold freeName
  simp only [List.find?_map]
  cases hfind : (List.range (taken.length + 1)).find?
      ((fun n => decide (n ∉ taken)) ∘ candidate base) with
  | none =>
      obtain ⟨n, hn, rfl⟩ := List.mem_map.mp hmem
      exact absurd (decide_eq_true hfree) (List.find?_eq_none.mp hfind n hn)
  | some n =>
      obtain ⟨hn, hrange, hbelow⟩ := List.find?_range_eq_some.mp hfind
      refine ⟨n, Nat.lt_succ_iff.mp (List.mem_range.mp hrange), rfl,
        of_decide_eq_true hn, ?_⟩
      intro m hm
      simpa using hbelow m hm

theorem freeName_not_mem (base : String) (taken : List String) :
    freeName base taken ∉ taken := by
  obtain ⟨n, -, hn, hfree, -⟩ := freeName_spec base taken
  exact hn ▸ hfree

theorem named_freeName {base : String} (h : Named base.toList)
    (taken : List String) : Named (freeName base taken).toList := by
  obtain ⟨n, -, hn, -⟩ := freeName_spec base taken
  exact hn ▸ named_candidate h n

/-! ## The variables of fields in turn -/

theorem map_fst_assign (taken fields : List String) :
    (assign taken fields).map (·.1) = fields := by
  induction fields generalizing taken with
  | nil => rfl
  | cons field rest ih => exact congrArg (field :: ·) (ih _)

theorem named_of_mem_assign {taken fields : List String} {e : String × Variable}
    (h : e ∈ assign taken fields) : Named e.2.name.toList := by
  induction fields generalizing taken with
  | nil => cases h
  | cons field rest ih =>
      rcases List.mem_cons.mp h with rfl | h
      · exact named_freeName (named_baseName field) taken
      · exact ih h

/-- The invariant of the assignment: every name it gives is new to what was
taken before, so no name is given twice. -/
theorem assign_fresh (taken fields : List String) :
    ((assign taken fields).map (·.2)).Nodup ∧
      ∀ e ∈ assign taken fields, e.2.name ∉ taken := by
  induction fields generalizing taken with
  | nil => exact ⟨List.nodup_nil, List.forall_mem_nil _⟩
  | cons field rest ih =>
      rw [assign]
      have hfree := freeName_not_mem (baseName field) taken
      generalize freeName (baseName field) taken = name at hfree
      obtain ⟨hnodup, hnew⟩ := ih (name :: taken)
      constructor
      · refine List.nodup_cons.mpr ⟨?_, hnodup⟩
        intro hmem
        obtain ⟨e, he, heq⟩ := List.mem_map.mp hmem
        exact hnew e he (heq ▸ List.mem_cons_self)
      · intro e he
        rcases List.mem_cons.mp he with rfl | he
        · exact hfree
        · exact fun ht => hnew e he (List.mem_cons_of_mem _ ht)

end Variable

/-! ## The variables of a template -/

theorem mem_distinct {a : String} {as : List String} :
    a ∈ distinct as ↔ a ∈ as := by
  induction as with
  | nil => exact Iff.rfl
  | cons b rest ih =>
      rw [distinct, List.mem_cons, List.mem_cons, List.mem_filter, ih]
      by_cases h : a = b <;> simp [h]

theorem nodup_distinct (as : List String) : (distinct as).Nodup := by
  induction as with
  | nil => exact List.nodup_nil
  | cons a rest ih =>
      refine List.nodup_cons.mpr ⟨?_, ih.filter _⟩
      intro h
      exact absurd (List.mem_filter.mp h).2 (by simp)

namespace Template

open Variable

theorem variables_isSome {t : Template} {field : String}
    (h : field ∈ t.fields) : ∃ v, t.variables.get? field = some v := by
  have hkeys := map_fst_assign [] t.fields
  rw [← hkeys] at h
  obtain ⟨⟨f, v⟩, hmem, rfl⟩ := List.mem_map.mp h
  refine ⟨v, Table.get?_ofList_of_mem ?_ hmem⟩
  rw [hkeys]
  exact nodup_distinct _

theorem named_variable {t : Template} {field : String} {v : Variable}
    (h : t.variables.get? field = some v) : Named v.name.toList :=
  named_of_mem_assign (Table.mem_of_get?_ofList h)

theorem variables_injective {t : Template} {field other : String}
    {v : Variable} (h : t.variables.get? field = some v)
    (ho : t.variables.get? other = some v) : field = other := by
  have hm := Table.mem_of_get?_ofList h
  have hmo := Table.mem_of_get?_ofList ho
  have heq := List.inj_on_of_nodup_map (assign_fresh [] t.fields).1 hm hmo rfl
  exact congrArg Prod.fst heq

end Template

end Placard
