import Placard.Proofs.Json.Normal

/-!
# What a source holds

A source holds a value if every part of the value is in it, the members of an
object in whatever order. Both ways in which a value that has been written
reaches a decoder give a source that holds it: read for decoding, where the
members stand as they were written, and read for any use, where they stand in
the order of their names. Of the members of an object something can be said only
if no two have one name, which is asked in each object by itself.
-/

namespace Placard.Json

mutual

/-- The source holds the value: it is the value's own but for what stands behind
arrays and objects, and for the order of members no two of which have one name.
Of an object with a name that is repeated it is said only that it is read. -/
def Holds : Json → Source → Prop
  | .null, s => s = .null
  | .bool b, s => s = .bool b
  | .number n, s => s = .number n
  | .string t, s => s = .string t
  | .array vs, s => ∃ ss behind, s = .array ss (some behind) ∧
    HoldsElements vs ss
  | .object ms, s =>
    ∃ ss behind, s = .object ss (some behind) ∧
      (Source.membersToJson? ss).isSome ∧
      ((ms.map (·.1)).Nodup → ∃ ss', ss'.Perm ss ∧ HoldsMembers ms ss')

/-- Elements held in their order. -/
def HoldsElements : List Json → List Source → Prop
  | [], ss => ss = []
  | v :: vs, ss => ∃ s ss', ss = s :: ss' ∧ Holds v s ∧ HoldsElements vs ss'

/-- Members held in their order. -/
def HoldsMembers : List (String × Json) → List (Option String × Source) → Prop
  | [], ss => ss = []
  | (k, v) :: ms, ss => ∃ s ss', ss = (some k, s) :: ss' ∧ Holds v s ∧
    HoldsMembers ms ss'

end

/-! ## Members -/

section Members

variable {ms : List (String × Json)} {ss : List (Option String × Source)}

theorem HoldsMembers.names (h : HoldsMembers ms ss) :
    ss.map (·.1) = ms.map fun m => some m.1 := by
  induction ms generalizing ss with
  | nil =>
      obtain rfl := h
      rfl
  | cons m ms ih =>
      obtain ⟨s, ss', rfl, -, hss'⟩ := h
      rw [List.map_cons, List.map_cons, ih hss']

theorem HoldsMembers.exists_mem (h : HoldsMembers ms ss) {m : String × Json}
    (hm : m ∈ ms) : ∃ s, (some m.1, s) ∈ ss ∧ Holds m.2 s := by
  induction ms generalizing ss with
  | nil => cases hm
  | cons m' ms ih =>
      obtain ⟨s, ss', rfl, hs, hss'⟩ := h
      rcases List.mem_cons.mp hm with rfl | hm
      · exact ⟨s, List.mem_cons_self, hs⟩
      · obtain ⟨s', hmem, hs'⟩ := ih hss' hm
        exact ⟨s', List.mem_cons_of_mem _ hmem, hs'⟩

/-- The members of a source that holds an object whose members have different
names. -/
theorem holds_object {s : Source} (h : Holds (.object ms) s)
    (hn : (ms.map (·.1)).Nodup) :
    ∃ ss behind, s = .object ss (some behind) ∧
      (Source.membersToJson? ss).isSome ∧
      (ss.map (·.1)).Nodup ∧ ∀ m ∈ ms, ∃ s, (some m.1, s) ∈ ss ∧
      Holds m.2 s := by
  obtain ⟨ss, behind, rfl, hjson, hmembers⟩ := h
  obtain ⟨ss', hperm, hss'⟩ := hmembers hn
  refine ⟨ss, behind, rfl, hjson, ?_, fun m hm => ?_⟩
  · refine (hperm.map (·.1)).nodup_iff.mp ?_
    have hsome := hn.map fun _ _ => Option.some.inj
    rw [List.map_map] at hsome
    rw [hss'.names]
    exact hsome
  · obtain ⟨s, hmem, hs⟩ := hss'.exists_mem hm
    exact ⟨s, hperm.mem_iff.mp hmem, hs⟩

theorem named_of_membersToJson? (h : (Source.membersToJson? ss).isSome) :
    ∀ m ∈ ss, m.1.isSome := by
  induction ss with
  | nil => exact fun m hm => nomatch hm
  | cons m ss ih =>
      obtain ⟨ms, hms⟩ := Option.isSome_iff_exists.mp h
      simp only [Source.membersToJson?, Option.bind_eq_bind,
        Option.bind_eq_some_iff] at hms
      obtain ⟨k, hk, v, -, ms', hms', -⟩ := hms
      rw [List.forall_mem_cons]
      exact ⟨Option.isSome_of_eq_some hk, ih (Option.isSome_of_eq_some hms')⟩

end Members

/-! ## Read for decoding -/

mutual

/-- A source holds the value that it has. -/
theorem holds_of_toJson? :
    (s : Source) → {v : Json} → s.toJson? = some v → Holds v s
  | .null, _, h => by cases h; exact rfl
  | .bool _, _, h => by cases h; exact rfl
  | .number _, _, h => by cases h; exact rfl
  | .string _, _, h => by cases h; exact rfl
  | .array ss (some behind), _, h => by
      obtain ⟨vs, hvs, rfl⟩ := Option.map_eq_some_iff.mp h
      exact ⟨ss, behind, rfl, holdsElements_of_toJson? ss hvs⟩
  | .object ss (some behind), _, h => by
      obtain ⟨ms, hms, rfl⟩ := Option.map_eq_some_iff.mp h
      refine ⟨ss, behind, rfl, Option.isSome_of_eq_some hms, fun _ => ?_⟩
      exact ⟨ss, List.Perm.refl ss, holdsMembers_of_toJson? ss hms⟩
  | .array _ none, _, h => nomatch h
  | .object _ none, _, h => nomatch h
  | .unreadable, _, h => nomatch h

theorem holdsElements_of_toJson? : (ss : List Source) → {vs : List Json} →
    Source.elementsToJson? ss = some vs → HoldsElements vs ss
  | [], _, h => by cases h; exact rfl
  | s :: ss, _, h => by
      simp only [Source.elementsToJson?, Option.bind_eq_bind,
        Option.bind_eq_some_iff] at h
      obtain ⟨v, hv, vs, hvs, heq⟩ := h
      cases heq
      exact ⟨s, ss, rfl, holds_of_toJson? s hv, holdsElements_of_toJson? ss hvs⟩

theorem holdsMembers_of_toJson? : (ss : List (Option String × Source)) →
    {ms : List (String × Json)} → Source.membersToJson? ss = some ms →
    HoldsMembers ms ss
  | [], _, h => by cases h; exact rfl
  | (k?, s) :: ss, _, h => by
      simp only [Source.membersToJson?, Option.bind_eq_bind,
        Option.bind_eq_some_iff] at h
      obtain ⟨k, rfl, v, hv, ms, hms, heq⟩ := h
      cases heq
      exact ⟨s, ss, rfl, holds_of_toJson? s hv, holdsMembers_of_toJson? ss hms⟩

end

/-! ## Read for any use -/

theorem ofMembers_eq_map (ms : List (String × Json)) :
    Source.ofMembers ms = ms.map fun m => (some m.1, .ofJson m.2) := by
  induction ms with
  | nil => rfl
  | cons m ms ih => rw [Source.ofMembers, ih, List.map_cons]

mutual

theorem toJson?_ofJson : (v : Json) → (Source.ofJson v).toJson? = some v
  | .null => rfl
  | .bool _ => rfl
  | .number _ => rfl
  | .string _ => rfl
  | .array vs =>
    congrArg (Option.map Json.array) (elementsToJson?_ofElements vs)
  | .object ms =>
    congrArg (Option.map Json.object) (membersToJson?_ofMembers ms)

theorem elementsToJson?_ofElements : (vs : List Json) →
    Source.elementsToJson? (Source.ofElements vs) = some vs
  | [] => rfl
  | v :: vs => by
      rw [Source.ofElements, Source.elementsToJson?, toJson?_ofJson v,
        elementsToJson?_ofElements vs]
      rfl

theorem membersToJson?_ofMembers : (ms : List (String × Json)) →
    Source.membersToJson? (Source.ofMembers ms) = some ms
  | [] => rfl
  | (k, v) :: ms => by
      rw [Source.ofMembers, Source.membersToJson?, toJson?_ofJson v,
        membersToJson?_ofMembers ms]
      rfl

end

mutual

/-- The normal form of a value holds the value. -/
theorem holds_normal : (v : Json) → Holds v (.ofJson v.normal)
  | .null => rfl
  | .bool _ => rfl
  | .number _ => rfl
  | .string _ => rfl
  | .array vs => ⟨_, [], rfl, holdsElements_normal vs⟩
  | .object ms => by
      refine ⟨_, [], rfl, Option.isSome_of_eq_some (membersToJson?_ofMembers _),
        fun hn => ?_⟩
      refine ⟨_, ?_, holdsMembers_normal ms⟩
      rw [ofMembers_eq_map, ofMembers_eq_map]
      exact ((Table.perm_ofList (names_normalMembers ms ▸ hn)).map _).symm

theorem holdsElements_normal : (vs : List Json) →
    HoldsElements vs (Source.ofElements (normalElements vs))
  | [] => rfl
  | v :: vs => ⟨_, _, rfl, holds_normal v, holdsElements_normal vs⟩

theorem holdsMembers_normal : (ms : List (String × Json)) →
    HoldsMembers ms (Source.ofMembers (normalMembers ms))
  | [] => rfl
  | (_, v) :: ms => ⟨_, _, rfl, holds_normal v, holdsMembers_normal ms⟩

end

end Placard.Json
