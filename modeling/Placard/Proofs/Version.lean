import Mathlib.Algebra.Group.Nat.Defs
import Placard.Proofs.Decimal.Naturals
import Placard.Proofs.Text.Split
import Placard.Version

/-!
# Versions and their texts

A text is read as a version exactly if it is the text of that version, and the
version keeps the rules: its numbers fit 64 bits, its identifiers are not empty
and of the characters that they may have, and no identifier of the pre-release
is a number with a superfluous zero in front. The first plus sign and then the
first hyphen before it divide a text, and neither can stand in what is in front
of it.
-/

namespace Placard

open Text Decimal

namespace Version

/-- Identifiers behind a mark, if there are any. -/
def marked (mark : Char) : List (List Char) → List Char
  | [] => []
  | ids => mark :: join '.' ids

/-- The three numbers of a version. -/
def core (v : Version) : List Char :=
  join '.' [natChars v.major, natChars v.minor, natChars v.patch]

/-- The text of a version. -/
def text (v : Version) : String :=
  String.ofList (v.core ++ marked '-' v.preRelease ++ marked '+' v.build)

/-- Identifiers that may stand in a version. -/
def Identifiers (ids : List (List Char)) : Prop :=
  ∀ p ∈ ids, p ≠ [] ∧ ∀ c ∈ p, isIdentifierChar c = true

/-- The numbers have 64 bits, and the identifiers are as they have to be. -/
structure Valid (v : Version) : Prop where
  major_lt : v.major < 2 ^ 64
  minor_lt : v.minor < 2 ^ 64
  patch_lt : v.patch < 2 ^ 64
  preRelease : Identifiers v.preRelease
  noLeadingZero : ∀ p ∈ v.preRelease, hasLeadingZero p = false
  build : Identifiers v.build

/-! ## Numbers -/

theorem hasLeadingZero_natChars (n : Nat) :
    hasLeadingZero (natChars n) = false := by
  unfold hasLeadingZero
  split
  · next c rest heq =>
      exact absurd (natChars_of_zero_cons heq) (List.cons_ne_nil c rest)
  · rfl

theorem number?_eq_some {ds : List Char} {n : Nat} :
    number? ds = some n ↔ n < 2 ^ 64 ∧ ds = natChars n := by
  unfold number?
  split
  · next hbad =>
      refine ⟨nofun, ?_⟩
      rintro ⟨-, rfl⟩
      have hdigits : (natChars n).all isDigit = true :=
        List.all_eq_true.mpr fun d hd => isDigit_of_mem_natChars hd
      have hempty : (natChars n).isEmpty = false := by
        rw [List.isEmpty_eq_false_iff]
        exact natChars_ne_nil n
      rw [hasLeadingZero_natChars, hdigits, hempty] at hbad
      exact absurd hbad (by decide)
  · next hgood =>
      simp only [Bool.or_eq_true, not_or, Bool.not_eq_true, Bool.not_eq_false',
        List.isEmpty_eq_false_iff] at hgood
      obtain ⟨⟨hne, hdigits⟩, hzero⟩ := hgood
      have hdigits' : ∀ d ∈ ds, isDigit d = true := List.all_eq_true.mp hdigits
      have hback : natChars (natOfDigits 0 ds) = ds := by
        refine natChars_natOfDigits hdigits' hne ?_
        rintro (_ | ⟨c, rest⟩) rfl
        · rfl
        · rw [hasLeadingZero, hdigits] at hzero
          cases hzero
      have hsize : UInt64.size = 2 ^ 64 := rfl
      dsimp only
      split
      · next hlt =>
          constructor
          · intro h
            cases h
            exact ⟨hsize ▸ hlt, hback.symm⟩
          · rintro ⟨-, rfl⟩
            rw [natOfDigits_natChars]
      · next hge =>
          refine ⟨nofun, ?_⟩
          rintro ⟨hlt, rfl⟩
          rw [natOfDigits_natChars] at hge
          exact absurd (hsize ▸ hlt) hge

/-! ## Identifiers -/

theorem not_isIdentifierChar_of_mem {c : Char} (h : c ∈ ['.', '+']) :
    isIdentifierChar c = false := by
  have hall : (['.', '+'].all fun c => !isIdentifierChar c) = true := by decide
  simpa using List.all_eq_true.mp hall c h

theorem Identifiers.not_mem_join {ids : List (List Char)}
    (h : Identifiers ids) :
    '+' ∉ join '.' ids := fun hmem => by
  rcases mem_join hmem with heq | ⟨p, hp, hc⟩
  · exact absurd heq (by decide)
  · have hplus := (h p hp).2 '+' hc
    rw [not_isIdentifierChar_of_mem (by decide)] at hplus
    cases hplus

theorem identifiers?_eq_some {s : List Char} {ids : List (List Char)} :
    identifiers? s = some ids ↔
      ids ≠ [] ∧ Identifiers ids ∧ s = join '.' ids := by
  have hall (ids : List (List Char)) :
      (ids.all fun p => !p.isEmpty && p.all isIdentifierChar) = true ↔
        Identifiers ids := by
    simp [Identifiers]
  unfold identifiers?
  constructor
  · intro h
    simp only at h
    split at h
    · next hgood =>
        cases h
        refine ⟨fun hnil => ?_, (hall _).mp hgood, (join_split '.' s).symm⟩
        have := List.splitOn_ne_nil '.' s
        rw [← split_eq_splitOn] at this
        exact this hnil
    · cases h
  · rintro ⟨hne, hids, rfl⟩
    have hsplit : split '.' (join '.' ids) = ids := by
      refine split_join (fun p hp hmem => ?_) hne
      have hpoint := (hids p hp).2 '.' hmem
      rw [not_isIdentifierChar_of_mem (by decide)] at hpoint
      cases hpoint
    simp only [hsplit, (hall ids).mpr hids, if_true]

/-- What stands in front of a mark, and the identifiers behind it. -/
def cutIdentifiers? (mark : Char) (s : List Char) :
    Option (List Char × List (List Char)) :=
  match cut? mark s with
  | none => some (s, [])
  | some (s, b) => (identifiers? b).map fun b => (s, b)

theorem cutIdentifiers?_eq_some {mark : Char} {s left : List Char}
    {ids : List (List Char)} :
    cutIdentifiers? mark s = some (left, ids) ↔
      mark ∉ left ∧ Identifiers ids ∧ s = left ++ marked mark ids := by
  unfold cutIdentifiers?
  constructor
  · intro h
    split at h
    · next hcut =>
        cases h
        refine ⟨fun hmem => ?_, (by simp [Identifiers]),
          (List.append_nil s).symm⟩
        obtain ⟨l, r, heq, hl⟩ := List.eq_append_cons_of_mem hmem
        rw [heq, cut?_append_cons hl] at hcut
        cases hcut
    · next l b hcut =>
        obtain ⟨ids', hids, heq⟩ := Option.map_eq_some_iff.mp h
        cases heq
        obtain ⟨hne, hgood, rfl⟩ := identifiers?_eq_some.mp hids
        refine ⟨not_mem_of_cut? hcut, hgood, ?_⟩
        rw [eq_append_of_cut? hcut]
        obtain ⟨p, ps, rfl⟩ := List.exists_cons_of_ne_nil hne
        rfl
  · rintro ⟨hleft, hgood, rfl⟩
    cases ids with
    | nil =>
        rw [marked, List.append_nil, cut?_eq_none hleft]
    | cons p ps =>
        have hids :=
          identifiers?_eq_some.mpr ⟨List.cons_ne_nil p ps, hgood, rfl⟩
        rw [marked, cut?_append_cons hleft]
        · simp only [hids, Option.map_some]
        · exact nofun

/-! ## Whole versions -/

theorem ofText?_eq (s : String) : ofText? s = (do
    let (rest, build) ← cutIdentifiers? '+' s.toList
    let (core, preRelease) ← cutIdentifiers? '-' rest
    if preRelease.any hasLeadingZero then none else
    match split '.' core with
    | [major, minor, patch] => do
      let major ← number? major
      let minor ← number? minor
      let patch ← number? patch
      some ⟨major, minor, patch, preRelease, build⟩
    | _ => none) := by
  unfold ofText? cutIdentifiers?
  simp only [Option.bind_eq_bind]
  cases cut? '+' s.toList with
  | none =>
      simp only [Option.bind_some]
      cases cut? '-' s.toList <;> rfl
  | some r =>
      cases hb : identifiers? r.2 with
      | none => simp only [hb, Option.map_none, Option.bind_none]
      | some build =>
          simp only [hb, Option.map_some, Option.bind_some]
          cases cut? '-' r.1 <;> rfl

theorem split_core (v : Version) :
    split '.' v.core =
      [natChars v.major, natChars v.minor, natChars v.patch] := by
  refine split_join (fun p hp hmem => ?_) (List.cons_ne_nil _ _)
  have hpoint : isDigit '.' = true := by
    simp only [List.mem_cons, List.not_mem_nil, or_false] at hp
    rcases hp with rfl | rfl | rfl <;> exact isDigit_of_mem_natChars hmem
  exact absurd hpoint (by decide)

/-- The three numbers hold neither of the marks. -/
theorem not_mem_core (v : Version) {mark : Char} (h : mark ∈ ['-', '+']) :
    mark ∉ v.core := by
  intro hmem
  have hcases : mark = '.' ∨ isDigit mark = true := by
    refine (mem_join hmem).imp id ?_
    rintro ⟨p, hp, hc⟩
    simp only [List.mem_cons, List.not_mem_nil, or_false] at hp
    rcases hp with rfl | rfl | rfl <;> exact isDigit_of_mem_natChars hc
  have hneither :
      (['-', '+'].all fun mark => decide ¬ (mark = '.' ∨ isDigit mark = true)) =
        true :=
    by decide
  exact of_decide_eq_true (List.all_eq_true.mp hneither mark h) hcases

/-- A text is read as a version exactly if it is the text of that version. -/
theorem ofText?_eq_some {s : String} {v : Version} :
    ofText? s = some v ↔ v.Valid ∧ s = v.text := by
  rw [ofText?_eq]
  simp only [Option.bind_eq_bind, Option.bind_eq_some_iff]
  constructor
  · rintro ⟨⟨rest, build⟩, hcutBuild, ⟨core, preRelease⟩, hcutPre, h⟩
    obtain ⟨-, hbuild, hs⟩ := cutIdentifiers?_eq_some.mp hcutBuild
    obtain ⟨-, hpre, rfl⟩ := cutIdentifiers?_eq_some.mp hcutPre
    split at h
    · cases h
    · next hzero =>
        split at h
        · next major minor patch hsplit =>
            simp only [Option.bind_eq_some_iff] at h
            obtain ⟨a, ha, b, hb, c, hc, heq⟩ := h
            cases heq
            obtain ⟨ha', rfl⟩ := number?_eq_some.mp ha
            obtain ⟨hb', rfl⟩ := number?_eq_some.mp hb
            obtain ⟨hc', rfl⟩ := number?_eq_some.mp hc
            refine ⟨⟨ha', hb', hc', hpre, by simpa using hzero, hbuild⟩, ?_⟩
            rw [text, Version.core, ← hsplit, join_split, ← hs,
              String.ofList_toList]
        · cases h
  · rintro ⟨hv, rfl⟩
    have hplus : '+' ∉ v.core ++ marked '-' v.preRelease := by
      intro hmem
      rcases List.mem_append.mp hmem with hmem | hmem
      · exact v.not_mem_core (by decide) hmem
      · unfold marked at hmem
        split at hmem
        · cases hmem
        · rcases List.mem_cons.mp hmem with heq | hmem
          · exact absurd heq (by decide)
          · exact hv.preRelease.not_mem_join hmem
    refine ⟨(v.core ++ marked '-' v.preRelease, v.build),
      cutIdentifiers?_eq_some.mpr ⟨hplus, hv.build, ?_⟩, (v.core, v.preRelease),
      cutIdentifiers?_eq_some.mpr ⟨v.not_mem_core (by decide), hv.preRelease,
        rfl⟩, ?_⟩
    · rw [text, String.toList_ofList]
    · have hzero : ¬ v.preRelease.any hasLeadingZero = true := by
        simpa using hv.noLeadingZero
      simp only [if_neg hzero, split_core,
        number?_eq_some.mpr ⟨hv.major_lt, rfl⟩,
        number?_eq_some.mpr ⟨hv.minor_lt, rfl⟩,
        number?_eq_some.mpr ⟨hv.patch_lt, rfl⟩, Option.bind_some]

end Version

end Placard
