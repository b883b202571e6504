import Placard.Proofs.Text.Split
import Placard.Text.Reserved

/-!
# Escaped text is plain, and reads back

What the wire is cut at is one of seven characters. A text is plain if it holds
none of them, so a command that is put together from plain texts and a few
separators of its own can be taken apart again. Escaping makes every text
plain, changes nothing that escaping and reading back would not restore, and
goes through a text character by character.
-/

namespace Placard.Text

/-- The characters that separate and mark commands on the wire. -/
def separators : List Char := ['!', '/', ',', '$', ':', ' ', '\n']

/-- A text without any separator. -/
def Plain (s : List Char) : Prop := ∀ c ∈ s, c ∉ separators

instance (s : List Char) : Decidable (Plain s) :=
  List.decidableBAll (fun c => c ∉ separators) s

@[simp] theorem plain_nil : Plain [] := List.forall_mem_nil _

@[simp] theorem plain_cons {c : Char} {s : List Char} :
    Plain (c :: s) ↔ c ∉ separators ∧ Plain s := List.forall_mem_cons

@[simp] theorem plain_append {s t : List Char} :
    Plain (s ++ t) ↔ Plain s ∧ Plain t := List.forall_mem_append

theorem Plain.not_mem {s : List Char} (h : Plain s) {c : Char}
    (hc : c ∈ separators) :
    c ∉ s := fun hcs => h c hcs hc

/-- A text without any separator but the marks given. -/
def MarkedBy (marks s : List Char) : Prop := ∀ c ∈ s, c ∉ separators ∨ c ∈ marks

instance (marks s : List Char) : Decidable (MarkedBy marks s) :=
  List.decidableBAll (fun c => c ∉ separators ∨ c ∈ marks) s

theorem Plain.markedBy {s : List Char} (h : Plain s) (marks : List Char) :
    MarkedBy marks s := fun c hc => Or.inl (h c hc)

@[simp] theorem markedBy_append {marks s t : List Char} :
    MarkedBy marks (s ++ t) ↔ MarkedBy marks s ∧ MarkedBy marks t :=
  List.forall_mem_append

theorem MarkedBy.not_mem {marks s : List Char} (h : MarkedBy marks s) {c : Char}
    (hc : c ∈ separators) (hm : c ∉ marks) : c ∉ s := by
  intro hcs
  rcases h c hcs with hsep | hmark
  · exact hsep hc
  · exact hm hmark

theorem MarkedBy.mono {marks marks' s : List Char} (h : MarkedBy marks s)
    (hsub : marks ⊆ marks') : MarkedBy marks' s :=
  fun c hc => (h c hc).imp id fun hm => hsub hm

/-! ## Codes -/

theorem code?_plain {c a b : Char} (h : code? c = some (a, b)) :
    Plain [a, b] := by
  unfold code? at h
  split at h <;> cases h <;> decide

theorem not_separator_of_code? {c : Char} (h : code? c = none) :
    c ∉ separators := by
  intro hc
  simp only [separators, List.mem_cons, List.not_mem_nil, or_false] at hc
  rcases hc with rfl | rfl | rfl | rfl | rfl | rfl | rfl <;> cases h

theorem ne_percent_of_code? {c : Char} (h : code? c = none) : c ≠ '%' := by
  rintro rfl
  cases h

theorem ofCode?_of_code? {c a b : Char} (h : code? c = some (a, b)) :
    ofCode? a b = some c := by
  unfold code? at h
  split at h <;> cases h <;> rfl

/-! ## Escaping -/

theorem escapeChars_append (s t : List Char) :
    escapeChars (s ++ t) = escapeChars s ++ escapeChars t := by
  induction s with
  | nil => rfl
  | cons c s ih =>
      rw [List.cons_append, escapeChars, escapeChars]
      split <;> rw [ih] <;> rfl

theorem plain_escapeChars (s : List Char) : Plain (escapeChars s) := by
  induction s with
  | nil => exact plain_nil
  | cons c s ih =>
      rw [escapeChars]
      split
      · next a b h =>
          have hab := code?_plain h
          simp only [plain_cons, plain_nil, and_true] at hab ⊢
          exact ⟨by decide, hab.1, hab.2, ih⟩
      · next h => exact plain_cons.mpr ⟨not_separator_of_code? h, ih⟩

theorem unescapeChars_cons {c : Char} (h : c ≠ '%') (s : List Char) :
    unescapeChars (c :: s) = c :: unescapeChars s := by
  match s with
  | [] => rfl
  | [_] => rfl
  | _ :: _ :: _ => rw [unescapeChars, if_neg h]

/-- What is escaped is read back, whatever stands behind it: no code is cut off
at its end. -/
theorem unescapeChars_escapeChars_append (s rest : List Char) :
    unescapeChars (escapeChars s ++ rest) = s ++ unescapeChars rest := by
  induction s with
  | nil => rfl
  | cons c s ih =>
      rw [escapeChars]
      split
      · next a b h =>
          rw [List.cons_append, List.cons_append, List.cons_append,
            unescapeChars, if_pos rfl, ofCode?_of_code? h]
          exact congrArg (c :: ·) ih
      · next h =>
          rw [List.cons_append, unescapeChars_cons (ne_percent_of_code? h), ih,
            List.cons_append]

theorem unescapeChars_escapeChars (s : List Char) :
    unescapeChars (escapeChars s) = s := by
  have h := unescapeChars_escapeChars_append s []
  rwa [List.append_nil, unescapeChars, List.append_nil] at h

theorem unescapeChars_append {s : List Char} (h : '%' ∉ s) (rest : List Char) :
    unescapeChars (s ++ rest) = s ++ unescapeChars rest := by
  induction s with
  | nil => rfl
  | cons c s ih =>
      rw [List.mem_cons, not_or] at h
      rw [List.cons_append, unescapeChars_cons (Ne.symm h.1), ih h.2,
        List.cons_append]

theorem escapeChars_injective {s t : List Char}
    (h : escapeChars s = escapeChars t) : s = t := by
  rw [← unescapeChars_escapeChars s, h, unescapeChars_escapeChars]

@[simp] theorem toList_escape (s : String) :
    (escape s).toList = escapeChars s.toList := String.toList_ofList

end Placard.Text
