import Placard.Proofs.Json.Numerals
import Placard.Proofs.Json.Reordering

/-!
# Canonical texts

The canonical text of a value says what is in the value and not in which order
the members of its objects stand: two values have one canonical text exactly if
they are reordered to one another, as no two values have one text.

Such a text is read as the normal form with every number as its own text is
read. So it is its own canonical text exactly if it is read at all, which it is
not where arrays and objects are nested too deep, and every number is written as
it was. An integer is; a real need not be, as only so many of its digits count
when it is read.
-/

namespace Placard.Json

open Text

/-! ## Values that are held -/

/-- A number as it is held: an integer fits 64 bits, with or without sign, and a
real is finite. -/
def Number.Held : Number → Prop
  | .int n => -2 ^ 63 ≤ n ∧ n < 2 ^ 64
  | .real x => x.isFinite = true

instance (n : Number) : Decidable n.Held :=
  match n with
  | .int n => inferInstanceAs (Decidable (-2 ^ 63 ≤ n ∧ n < 2 ^ 64))
  | .real x => inferInstanceAs (Decidable (x.isFinite = true))

theorem Number.Held.finite {n : Number} (h : n.Held) : n.Finite := by
  cases n with
  | int n =>
      obtain ⟨hlow, hhigh⟩ := h
      exact Decimal.isFinite_of_under (Decimal.under_ofInt (by omega))
  | real x => exact h

/-- A value as it is held: no two members of an object have one name, and the
numbers are numbers that can be held. -/
structure Proper (v : Json) : Prop where
  names : v.EachObject List.Nodup
  numbers : ∀ n ∈ v.numbers, n.Held

instance (v : Json) : Decidable v.Proper :=
  decidable_of_iff (v.EachObject List.Nodup ∧ ∀ n ∈ v.numbers, n.Held)
    ⟨fun ⟨h, h'⟩ => ⟨h, h'⟩, fun ⟨h, h'⟩ => ⟨h, h'⟩⟩

/-! ## What a text is read as -/

/-- How a value stands to the one that its text is read as. -/
structure Rereading (levels : Nat) (v w : Json) : Prop where
  depth : v.depth ≤ levels
  namings : w.namings = v.namings
  numbers : List.Forall₂ (fun n m => n.reread? = some m) v.numbers w.numbers

mutual

theorem rereading :
    (v : Json) → {levels : Nat} → {w : Json} → v.reread? levels = some w →
    Rereading levels v w
  | .null, _, _, h => by
      rw [reread?] at h
      cases h
      exact ⟨Nat.zero_le _, rfl, .nil⟩
  | .bool _, _, _, h => by
      rw [reread?] at h
      cases h
      exact ⟨Nat.zero_le _, rfl, .nil⟩
  | .number n, _, _, h => by
      rw [reread?] at h
      obtain ⟨m, hm, rfl⟩ := Option.map_eq_some_iff.mp h
      exact ⟨Nat.zero_le _, rfl, .cons hm .nil⟩
  | .string _, _, _, h => by
      rw [reread?] at h
      cases h
      exact ⟨Nat.zero_le _, rfl, .nil⟩
  | .array _, 0, _, h => by
      rw [reread?] at h
      cases h
  | .array vs, levels + 1, _, h => by
      rw [reread?] at h
      obtain ⟨ws, hws, rfl⟩ := Option.map_eq_some_iff.mp h
      obtain ⟨hdepth, hnamings, hnumbers⟩ := rereadingElements vs hws
      exact ⟨Nat.succ_le_succ hdepth, hnamings, hnumbers⟩
  | .object _, 0, _, h => by
      rw [reread?] at h
      cases h
  | .object ms, levels + 1, _, h => by
      rw [reread?] at h
      obtain ⟨ms', hms', rfl⟩ := Option.map_eq_some_iff.mp h
      obtain ⟨hdepth, hnames, hnamings, hnumbers⟩ := rereadingMembers ms hms'
      exact ⟨Nat.succ_le_succ hdepth, congrArg₂ List.cons hnames hnamings,
        hnumbers⟩

theorem rereadingElements :
    (vs : List Json) → {levels : Nat} → {ws : List Json} →
    rereadElements? levels vs = some ws →
    depthOfElements vs ≤ levels ∧ namingsOfElements ws = namingsOfElements vs ∧
      List.Forall₂ (fun n m => n.reread? = some m) (numbersOfElements vs)
        (numbersOfElements ws)
  | [], _, _, h => by
      rw [rereadElements?] at h
      cases h
      exact ⟨Nat.zero_le _, rfl, .nil⟩
  | v :: vs, _, _, h => by
      simp only [rereadElements?, Option.bind_eq_bind, Option.bind_eq_some_iff,
        Option.some.injEq] at h
      obtain ⟨w, hw, ws, hws, rfl⟩ := h
      have hv := rereading v hw
      obtain ⟨hdepth, hnamings, hnumbers⟩ := rereadingElements vs hws
      exact ⟨Nat.max_le.mpr ⟨hv.depth, hdepth⟩, congrArg₂ List.append hv.namings
        hnamings, List.rel_append hv.numbers hnumbers⟩

theorem rereadingMembers : (ms : List (String × Json)) → {levels : Nat} →
    {ms' : List (String × Json)} → rereadMembers? levels ms = some ms' →
    depthOfMembers ms ≤ levels ∧ ms'.map (·.1) = ms.map (·.1) ∧
      namingsOfMembers ms' = namingsOfMembers ms ∧
      List.Forall₂ (fun n m => n.reread? = some m) (numbersOfMembers ms)
        (numbersOfMembers ms')
  | [], _, _, h => by
      rw [rereadMembers?] at h
      cases h
      exact ⟨Nat.zero_le _, rfl, rfl, .nil⟩
  | (k, v) :: ms, _, _, h => by
      simp only [rereadMembers?, Option.bind_eq_bind, Option.bind_eq_some_iff,
        Option.some.injEq] at h
      obtain ⟨w, hw, ms', hms', rfl⟩ := h
      have hv := rereading v hw
      obtain ⟨hdepth, hnames, hnamings, hnumbers⟩ := rereadingMembers ms hms'
      exact ⟨Nat.max_le.mpr ⟨hv.depth, hdepth⟩, congrArg (k :: ·) hnames,
        congrArg₂ List.append hv.namings hnamings,
        List.rel_append hv.numbers hnumbers⟩

end

/-- The text of a number is read as a number with that text. -/
def Number.Reprinted (n : Number) : Prop :=
  n.reread?.map Number.text = some n.text

instance (n : Number) : Decidable n.Reprinted :=
  inferInstanceAs (Decidable (n.reread?.map Number.text = some n.text))

theorem Number.ReadsBack.reprinted {n : Number} (h : n.ReadsBack) :
    n.Reprinted :=
  congrArg (Option.map Number.text) h

mutual

/-- A text is written again where every number in it is. -/
theorem exists_reread :
    (v : Json) → (∀ n ∈ v.numbers, n.Reprinted) → {levels : Nat} →
    v.depth ≤ levels → ∃ w, v.reread? levels = some w ∧ compact w = compact v
  | .null, _, _, _ => ⟨.null, by rw [reread?], rfl⟩
  | .bool b, _, _, _ => ⟨.bool b, by rw [reread?], rfl⟩
  | .number n, hn, _, _ => by
      obtain ⟨m, hm, htext⟩ :=
        Option.map_eq_some_iff.mp (hn n List.mem_cons_self)
      exact ⟨.number m, by rw [reread?, hm, Option.map_some], htext⟩
  | .string t, _, _, _ => ⟨.string t, by rw [reread?], rfl⟩
  | .array vs, hn, levels + 1, hlevels => by
      obtain ⟨ws, hws, htexts⟩ :=
        exists_rereadElements vs hn (Nat.succ_le_succ_iff.mp hlevels)
      exact ⟨.array ws, by rw [reread?, hws, Option.map_some],
        by rw [compact, compact, htexts]⟩
  | .object ms, hn, levels + 1, hlevels => by
      obtain ⟨ms', hms', htexts⟩ :=
        exists_rereadMembers ms hn (Nat.succ_le_succ_iff.mp hlevels)
      exact ⟨.object ms', by rw [reread?, hms', Option.map_some],
        by rw [compact, compact, htexts]⟩

theorem exists_rereadElements :
    (vs : List Json) → (∀ n ∈ numbersOfElements vs, n.Reprinted) →
    {levels : Nat} → depthOfElements vs ≤ levels →
    ∃ ws, rereadElements? levels vs = some ws ∧
      compactElements ws = compactElements vs
  | [], _, _, _ => ⟨[], by rw [rereadElements?], rfl⟩
  | v :: vs, hn, _, hlevels => by
      obtain ⟨hv, hvs⟩ := Nat.max_le.mp hlevels
      obtain ⟨w, hw, htext⟩ :=
        exists_reread v (fun n h => hn n (List.mem_append_left _ h)) hv
      obtain ⟨ws, hws, htexts⟩ :=
        exists_rereadElements vs
          (fun n h => hn n (List.mem_append_right _ h)) hvs
      refine ⟨w :: ws, ?_,
        by rw [compactElements, compactElements, htext, htexts]⟩
      rw [rereadElements?, hw, hws]
      rfl

theorem exists_rereadMembers : (ms : List (String × Json)) →
    (∀ n ∈ numbersOfMembers ms, n.Reprinted) → {levels : Nat} →
    depthOfMembers ms ≤ levels →
    ∃ ms', rereadMembers? levels ms = some ms' ∧
      compactMembers ms' = compactMembers ms
  | [], _, _, _ => ⟨[], by rw [rereadMembers?], rfl⟩
  | (k, v) :: ms, hn, _, hlevels => by
      obtain ⟨hv, hms⟩ := Nat.max_le.mp hlevels
      obtain ⟨w, hw, htext⟩ :=
        exists_reread v (fun n h => hn n (List.mem_append_left _ h)) hv
      obtain ⟨ms', hms', htexts⟩ :=
        exists_rereadMembers ms
          (fun n h => hn n (List.mem_append_right _ h)) hms
      refine ⟨(k, w) :: ms', ?_,
        by rw [compactMembers, compactMembers, htext, htexts]⟩
      rw [rereadMembers?, hw, hms']
      rfl

end

/-- What each number is read as has its text, if all of them have the same texts
in turn. -/
theorem reprinted_of_texts {ns ms : List Number}
    (h : List.Forall₂ (fun n m => n.reread? = some m) ns ms)
    (htexts : ms.map Number.text = ns.map Number.text) :
    ∀ n ∈ ns, n.Reprinted := by
  induction h with
  | nil => exact List.forall_mem_nil _
  | @cons n m ns ms hnm _ ih =>
      obtain ⟨htext, htexts⟩ := List.cons.inj htexts
      refine List.forall_mem_cons.mpr ⟨?_, ih htexts⟩
      rw [Number.Reprinted, hnm, Option.map_some, htext]

/-! ## Canonical texts -/

/-- What is read from the text of a normal form is a normal form. -/
theorem normal_of_reread {v w : Json} {levels : Nat}
    (h : v.normal.reread? levels = some w) : w.normal = w := by
  refine normal_eq_self ?_
  rw [EachObject, (rereading v.normal h).namings]
  exact ascending_normal v

theorem ofText?_canonical_of_spelled {v : Json}
    (hv : ∀ n ∈ v.numbers, n.Spelled) :
    ofText? (canonical v) = v.normal.reread? maxDepth := by
  rw [canonical,
    ofText?_of_spelled fun n hn => hv n (mem_numbers_of_normal v hn)]
  cases hread : v.normal.reread? maxDepth with
  | none => rfl
  | some w => rw [Option.map_some, normal_of_reread hread]

/-- A canonical text is its own canonical text exactly if it is not nested too
deep, and every number in it is written as it was. -/
theorem canonical_kept_iff {v : Json} (hv : ∀ n ∈ v.numbers, n.Finite) :
    (ofText? (canonical v)).map canonical = some (canonical v) ↔
      v.normal.depth ≤ maxDepth ∧ ∀ n ∈ v.normal.numbers, n.Reprinted := by
  have hspelled : ∀ n ∈ v.normal.numbers, n.Spelled := fun n hn =>
    (hv n (mem_numbers_of_normal v hn)).spelled
  have hread := ofText?_canonical_of_spelled fun n hn => (hv n hn).spelled
  constructor
  · intro h
    obtain ⟨w, hw, htext⟩ := Option.map_eq_some_iff.mp h
    have hfinite := finite_of_ofText? hw
    rw [hread] at hw
    have hrereading := rereading v.normal hw
    rw [canonical, normal_of_reread hw, canonical] at htext
    have halike :=
      alike_of_compact_eq (fun n hn => (hfinite n hn).spelled) hspelled htext
    exact ⟨hrereading.depth, reprinted_of_texts hrereading.numbers halike.texts⟩
  · rintro ⟨hdepth, hnumbers⟩
    obtain ⟨w, hw, htext⟩ := exists_reread v.normal hnumbers hdepth
    rw [hread, hw, Option.map_some, canonical, normal_of_reread hw, htext,
      canonical]

/-- Two values have one canonical text exactly if they are the same up to the
order of members. The text is that of the value with the names of every object
ascending. And it is its own canonical text exactly if it is not nested too deep
to be read, and every real in it is read and written as it was. -/
theorem canonical_faithful {v w : Json} (hv : v.Proper) (hw : w.Proper)
    (hprint : ∀ n ∈ v.numbers, ∀ m ∈ w.numbers, n.text = m.text → n = m) :
    (canonical v = canonical w ↔ Reordered v w) ∧
      (∃ u, Reordered v u ∧ canonical v = compact u ∧
        u.EachObject (List.Pairwise fun k k' => bytes k < bytes k')) ∧
      ((ofText? (canonical v)).map canonical = some (canonical v) ↔
        v.depth ≤ maxDepth ∧ ∀ x, .real x ∈ v.numbers →
          (Number.real x).Reprinted) := by
  have hnormal := reordered_normal hv.names
  refine ⟨⟨fun h => ?_, fun h => ?_⟩,
    ⟨v.normal, hnormal, rfl, (ascending_normal v).bytes⟩, ?_⟩
  · have halike : Alike v.normal w.normal := alike_of_compact_eq
      (fun n hn => (hv.numbers n (mem_numbers_of_normal v hn)).finite.spelled)
      (fun m hm => (hw.numbers m (mem_numbers_of_normal w hm)).finite.spelled) h
    have hsame : v.normal = w.normal := halike.eq fun n hn m hm =>
      hprint n (mem_numbers_of_normal v hn) m (mem_numbers_of_normal w hm)
    exact hnormal.trans (hsame ▸ (reordered_normal hw.names).symm)
  · exact congrArg compact (h.normal_eq hv.names).2
  · have hreals : (∀ n ∈ v.numbers, n.Reprinted) ↔
        ∀ x, .real x ∈ v.numbers → (Number.real x).Reprinted := by
      refine ⟨fun h x => h _, fun h n hn => ?_⟩
      cases n with
      | int n =>
          exact (readsBack_int (hv.numbers _ hn).1
            (hv.numbers _ hn).2).reprinted
      | real x => exact h x hn
    rw [canonical_kept_iff fun n hn => (hv.numbers n hn).finite,
      ← hnormal.depth_le, ← hreals]
    simp only [hnormal.mem_numbers]

theorem canonical_faithful_of_nested_objects :
    let v : Json :=
      .object [("z", .int 1),
        ("a", .object [("y", .bool true), ("b", .real 0.5)])]
    let w : Json :=
      .object [("a", .object [("b", .real 0.5), ("y", .bool true)]),
        ("z", .int 1)]
    v.Proper ∧ w.Proper ∧
      (∀ n ∈ v.numbers, ∀ m ∈ w.numbers, n.text = m.text → n = m) ∧
      Reordered v w ∧
      v.EachObject (List.Pairwise fun k k' => bytes k' < bytes k) ∧
      (ofText? (canonical w)).map canonical = some (canonical v) := by
  intro v w
  have hv : v.Proper := by decide +kernel
  have hw : w.Proper := by decide +kernel
  have hprint : ∀ n ∈ v.numbers, ∀ m ∈ w.numbers, n.text = m.text → n = m := by
    decide +kernel
  have hsame : canonical v = canonical w := by decide +kernel
  obtain ⟨hreordered, -, hkept⟩ := canonical_faithful hv hw hprint
  refine ⟨hv, hw, hprint, hreordered.mp hsame, by decide +kernel, ?_⟩
  rw [← hsame]
  refine hkept.mpr ⟨by decide, fun x hx => ?_⟩
  have hall : ∀ n ∈ v.numbers, n.Reprinted := by decide +kernel
  exact hall _ hx

/-- So many arrays, each in the next. -/
def nested : Nat → Json
  | 0 => .null
  | n + 1 => .array [nested n]

/-- A real of seventeen digits is read as another one, and an array nested too
deep is not read at all. -/
theorem canonical_not_kept :
    let x : Json := .real 54.609110401925996
    let deep : Json := nested (maxDepth + 1)
    x.Proper ∧ canonical x = "54.609110401925996" ∧
      (ofText? (canonical x)).map canonical = some "54.609110401926" ∧
      deep.Proper ∧ (ofText? (canonical deep)).map canonical = none := by
  intro x deep
  have hx : x.Proper := by decide +kernel
  have hdeep : deep.Proper := by decide +kernel
  exact ⟨hx, by decide +kernel, by decide +kernel, hdeep, by decide +kernel⟩

end Placard.Json
