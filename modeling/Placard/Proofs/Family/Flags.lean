import Mathlib.Logic.Function.Basic
import Placard.Family.Overrides

/-!
# Flags as a function of child and layer

The flags of a child are kept in a table of its layers, with no entry where
there is no flag. Which entries there are is of no interest to anything but the
table; what counts is which flags a layer has, and every operation on the tables
changes those of one layer of one child, or takes all of a child away.
-/

namespace Placard

theorem Toggles.inherits_all {key : String} (h : key ≠ canvasKey)
    (q : Property) : Toggles.all.inherits key q = true := by
  unfold inherits PropertyClass.of?
  rw [if_neg h]
  cases q <;> rfl

/-- The sides of the canvas are not inherited. -/
theorem Toggles.not_side_of_inherits {toggles : Toggles} {key : String}
    {q : Property} (h : toggles.inherits key q = true) :
    ¬ (key = canvasKey ∧ (q = .width ∨ q = .height)) := by
  rintro ⟨rfl, rfl | rfl⟩ <;> cases h

theorem Toggles.inherits_all_iff {key : String} {q : Property} :
    Toggles.all.inherits key q = true ↔
      ¬ (key = canvasKey ∧ (q = .width ∨ q = .height)) := by
  refine ⟨not_side_of_inherits, fun hside => ?_⟩
  by_cases hkey : key = canvasKey
  · cases q <;> first
      | exact absurd ⟨hkey, Or.inl rfl⟩ hside
      | exact absurd ⟨hkey, Or.inr rfl⟩ hside
      | rw [hkey]; rfl
  · exact inherits_all hkey q

@[simp] theorem PropertySet.contains_emptyCollection (p : Property) :
    (∅ : PropertySet).contains p = false :=
  PropertySet.contains_empty p

theorem PropertySet.eq_empty_of_isEmpty {s : PropertySet}
    (h : s.isEmpty = true) : s = ∅ := by
  ext p
  have hmembers : s.members = [] := List.isEmpty_iff.mp h
  rw [contains_emptyCollection, contains, hmembers]
  rfl

theorem LayerFlags.eq_empty_of_isEmpty {f : LayerFlags} (h : f.isEmpty = true) :
    f = .empty := by
  obtain ⟨whole, properties⟩ := f
  simp only [isEmpty, Bool.and_eq_true, Bool.not_eq_true'] at h
  obtain ⟨hwhole, hproperties⟩ := h
  rw [hwhole, PropertySet.eq_empty_of_isEmpty hproperties]
  rfl

@[simp] theorem LayerFlags.properties_empty :
    LayerFlags.empty.properties = ∅ := rfl

namespace Overrides

variable {o o' : Overrides} {c c' l : String}

/-! ## The flags of the child in question -/

theorem flags_of_get? (h : o'.get? c = o.get? c) : o'.flags c = o.flags c := by
  funext l
  unfold flags layersOf
  rw [h]

theorem flags_of_get?_eq_none (h : o.get? c = none) :
    o.flags c = fun _ => .empty := by
  funext l
  unfold flags layersOf
  rw [h]
  rfl

theorem flags_ite (b : Prop) [Decidable b] (o o' : Overrides) (c : String) :
    (if b then o else o').flags c = if b then o.flags c else o'.flags c :=
  apply_ite (fun o => o.flags c) b o o'

theorem flags_setFlags (o : Overrides) (c l : String) (f : LayerFlags) :
    (o.setFlags c l f).flags c = Function.update (o.flags c) l f := by
  funext l'
  simp only [flags, layersOf, setFlags, Table.get?_insert, if_true,
    Option.getD_some]
  by_cases h : l = l'
  · subst h
    rw [if_pos rfl, Option.getD_some, Function.update_self]
  · rw [if_neg h, Function.update_of_ne (Ne.symm h)]
    rfl

theorem flags_mark (o : Overrides) (c l : String) (p : Property) :
    (o.mark c l p).flags c = Function.update (o.flags c) l
      { o.flags c l with properties := (o.flags c l).properties.insert p } :=
  o.flags_setFlags c l _

theorem flags_markLayer (o : Overrides) (c l : String) :
    (o.markLayer c l).flags c =
      Function.update (o.flags c) l { o.flags c l with whole := true } :=
  o.flags_setFlags c l _

theorem getD_nonempty? (layers : Table LayerFlags) :
    (nonempty? layers).getD ∅ = layers := by
  unfold nonempty?
  split
  · next h =>
      ext k
      have hentries : layers.entries = [] := List.isEmpty_iff.mp h
      simp only [Option.getD_none, Table.get?, hentries]
      rfl
  · rfl

/-- The flags after an operation on the table of a child, if it has one. -/
theorem flags_alter (o : Overrides) (c : String)
    (f : Table LayerFlags → Table LayerFlags) (hf : f ∅ = ∅) (l : String) :
    flags (o.alter c fun layers? => layers?.bind fun layers => nonempty?
      (f layers)) c l = ((f (o.layersOf c)).get? l).getD .empty := by
  unfold flags layersOf
  rw [Table.get?_alter, if_pos rfl]
  cases hc : o.get? c with
  | none => rw [Option.bind_none, Option.getD_none, hf]
  | some layers => rw [Option.bind_some, getD_nonempty?, Option.getD_some]

theorem flags_clearLayer (o : Overrides) (c l : String) :
    (o.clearLayer c l).flags c = Function.update (o.flags c) l .empty := by
  funext l'
  rw [clearLayer, flags_alter o c (fun layers => layers.erase l) (by rfl),
    Table.get?_erase]
  by_cases h : l = l'
  · subst h
    rw [if_pos rfl, Option.getD_none, Function.update_self]
  · rw [if_neg h, Function.update_of_ne (Ne.symm h), flags]

theorem flags_unmark (o : Overrides) (c l : String) (p : Property) :
    (o.unmark c l p).flags c = Function.update (o.flags c) l
      { o.flags c l with properties := (o.flags c l).properties.erase p } := by
  funext l'
  rw [unmark, flags_alter o c (fun layers => layers.alter l fun f? =>
    (f?.map fun f => { f with properties := f.properties.erase p }).filter
      fun f => !f.isEmpty) (by rfl), Table.get?_alter]
  by_cases h : l = l'
  · subst h
    rw [if_pos rfl, Function.update_self]
    unfold flags
    cases hl : (o.layersOf c).get? l with
    | none =>
        have herase : (∅ : PropertySet).erase p = ∅ := by
          ext q
          simp
        simp only [Option.map_none, Option.filter_none, Option.getD_none,
          LayerFlags.properties_empty, herase]
        rfl
    | some f =>
        simp only [Option.map_some, Option.getD_some]
        cases hempty :
            ({ f with properties := f.properties.erase p } :
              LayerFlags).isEmpty with
        | true =>
            rw [Option.filter_some_neg (by simp [hempty]), Option.getD_none]
            exact (LayerFlags.eq_empty_of_isEmpty hempty).symm
        | false =>
            rw [Option.filter_some_pos (by simp [hempty]), Option.getD_some]
  · rw [if_neg h, Function.update_of_ne (Ne.symm h), flags]

/-! ## All other children -/

theorem get?_setFlags_of_ne (h : c' ≠ c) (f : LayerFlags) :
    (o.setFlags c l f).get? c' = o.get? c' := by
  rw [setFlags, Table.get?_insert, if_neg (Ne.symm h)]

theorem get?_mark_of_ne (h : c' ≠ c) (p : Property) :
    (o.mark c l p).get? c' = o.get? c' :=
  get?_setFlags_of_ne h _

theorem get?_markLayer_of_ne (h : c' ≠ c) :
    (o.markLayer c l).get? c' = o.get? c' :=
  get?_setFlags_of_ne h _

theorem get?_unmark_of_ne (h : c' ≠ c) (p : Property) :
    (o.unmark c l p).get? c' = o.get? c' := by
  rw [unmark, Table.get?_alter, if_neg (Ne.symm h)]

theorem get?_clearLayer_of_ne (h : c' ≠ c) :
    (o.clearLayer c l).get? c' = o.get? c' := by
  rw [clearLayer, Table.get?_alter, if_neg (Ne.symm h)]

theorem get?_clearChild_of_ne (h : c' ≠ c) :
    (o.clearChild c).get? c' = o.get? c' := by
  rw [clearChild, Table.get?_erase, if_neg (Ne.symm h)]

/-! ## Who has entries -/

theorem contains_of_alter {f : Table LayerFlags → Option (Table LayerFlags)}
    (h : Table.contains (o.alter c fun layers? => layers?.bind f) c' = true) :
    o.contains c' = true := by
  unfold Table.contains at h ⊢
  rw [Table.get?_alter] at h
  split at h
  · next hc =>
      subst hc
      cases ho : o.get? c with
      | none =>
          rw [ho] at h
          cases h
      | some layers => rfl
  · exact h

end Overrides

end Placard
