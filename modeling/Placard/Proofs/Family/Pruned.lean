import Placard.Proofs.Family.WellFormed

/-!
# Flags leave nothing behind

A table of flags could hold entries without a flag: a child without layers, or a
layer of which nothing is flagged. No operation leaves one, and so the tables
are determined by what is flagged. Taking a flag away that has just been set
therefore gives back the very tables that there were before, and not only the
same flags.
-/

namespace Placard

namespace Overrides

theorem eq_of_getD_eq {α : Type} {a? b? : Option α} {d : α} (ha : a? ≠ some d)
    (hb : b? ≠ some d) (h : a?.getD d = b?.getD d) : a? = b? := by
  cases a? with
  | none =>
      cases b? with
      | none => rfl
      | some b => exact absurd (congrArg some h.symm) hb
  | some a =>
      cases b? with
      | none => exact absurd (congrArg some h) ha
      | some b => exact congrArg some h

/-- There is no entry without a flag. -/
structure Pruned (o : Overrides) : Prop where
  layers : ∀ c, o.get? c ≠ some ∅
  flags : ∀ c l, (o.layersOf c).get? l ≠ some .empty

variable {o o' : Overrides} {c l : String} {p : Property}

/-- What is flagged determines the tables. -/
theorem Pruned.ext (h : o.Pruned) (h' : o'.Pruned)
    (hflags : ∀ c, o.flags c = o'.flags c) : o = o' := by
  refine Table.ext fun c => eq_of_getD_eq (h.layers c) (h'.layers c) ?_
  exact Table.ext fun l =>
    eq_of_getD_eq (h.flags c l) (h'.flags c l) (congrFun (hflags c) l)

theorem pruned_empty : Pruned ∅ where
  layers _ := nofun
  flags _ _ := nofun

/-! ## Operations on tables -/

theorem insert_ne_empty {α : Type} (t : Table α) (k : String) (v : α) :
    t.insert k v ≠ ∅ := by
  intro h
  have hk := t.get?_insert k k v
  rw [h, if_pos rfl] at hk
  cases hk

theorem nonempty?_ne (layers : Table LayerFlags) :
    nonempty? layers ≠ some ∅ := by
  unfold nonempty?
  split
  · nofun
  · next h =>
      rintro ⟨⟩
      exact h rfl

theorem Pruned.setFlags (h : o.Pruned) {f : LayerFlags} (hf : f ≠ .empty)
    (c l : String) : (o.setFlags c l f).Pruned where
  layers d := by
    rw [Overrides.setFlags, Table.get?_insert]
    split
    · exact fun heq => insert_ne_empty _ _ _ (Option.some.inj heq)
    · exact h.layers d
  flags d k := by
    rw [layersOf, Overrides.setFlags, Table.get?_insert]
    split
    · rw [Option.getD_some, Table.get?_insert]
      split
      · exact fun heq => hf (Option.some.inj heq)
      · exact h.flags c k
    · exact h.flags d k

/-- An operation on the layers of a child that leaves none without a flag. -/
theorem Pruned.alter (h : o.Pruned) (c : String)
    {f : Table LayerFlags → Table LayerFlags}
    (hf : ∀ layers : Table LayerFlags, (∀ l, layers.get? l ≠ some .empty) →
      ∀ l, (f layers).get? l ≠ some .empty) :
    Pruned (o.alter c fun layers? => layers?.bind fun layers => nonempty?
      (f layers)) where
  layers d := by
    rw [Table.get?_alter]
    split
    · cases o.get? c with
      | none => exact (Option.some_ne_none _).symm
      | some layers => exact nonempty?_ne _
    · exact h.layers d
  flags d k := by
    rw [layersOf, Table.get?_alter]
    split
    · have hold := h.flags c
      rw [layersOf] at hold
      cases hc : o.get? c with
      | none => exact (Option.some_ne_none _).symm
      | some layers =>
          rw [hc, Option.getD_some] at hold
          rw [Option.bind_some, getD_nonempty?]
          exact hf layers hold k
    · exact h.flags d k

theorem Pruned.mark (h : o.Pruned) (c l : String) (p : Property) :
    (o.mark c l p).Pruned := by
  refine h.setFlags (fun heq => ?_) c l
  have hp := congrArg (fun f => f.properties.contains p) heq
  simp at hp

theorem Pruned.markLayer (h : o.Pruned) (c l : String) :
    (o.markLayer c l).Pruned :=
  h.setFlags (fun heq => Bool.noConfusion (congrArg LayerFlags.whole heq)) c l

theorem Pruned.unmark (h : o.Pruned) (c l : String) (p : Property) :
    (o.unmark c l p).Pruned := by
  refine h.alter c fun layers hlayers k => ?_
  rw [Table.get?_alter]
  split
  · intro heq
    obtain ⟨-, hempty⟩ := Option.filter_eq_some_iff.mp heq
    cases hempty
  · exact hlayers k

theorem Pruned.clearLayer (h : o.Pruned) (c l : String) :
    (o.clearLayer c l).Pruned := by
  refine h.alter c fun layers hlayers k => ?_
  rw [Table.get?_erase]
  split
  · nofun
  · exact hlayers k

theorem Pruned.clearChild (h : o.Pruned) (c : String) :
    (o.clearChild c).Pruned where
  layers d := by
    rw [Overrides.clearChild, Table.get?_erase]
    split
    · exact (Option.some_ne_none _).symm
    · exact h.layers d
  flags d k := by
    rw [layersOf, Overrides.clearChild, Table.get?_erase]
    split
    · exact (Option.some_ne_none _).symm
    · exact h.flags d k

theorem Pruned.dropFromChildren {w : Workspace} (h : w.overrides.Pruned)
    (key : String) (ids : List String) :
    (w.dropFromChildren key ids).overrides.Pruned := by
  induction ids generalizing w with
  | nil => exact h
  | cons c rest ih =>
      rw [Workspace.dropFromChildren_cons]
      exact ih (w := w.dropFromChild key c) (h.clearLayer c key)

/-- A flag that is set and taken away again leaves nothing behind. -/
theorem Pruned.unmark_mark (h : o.Pruned) (hfree : o.isMarked c l p = false) :
    (o.mark c l p).unmark c l p = o := by
  refine ((h.mark c l p).unmark c l p).ext h fun d => ?_
  by_cases hd : d = c
  · subst hd
    have hsame : ((o.flags d l).properties.insert p).erase p =
        (o.flags d l).properties := by
      ext q
      by_cases hq : q = p
      · subst hq
        rw [PropertySet.contains_erase, decide_eq_false (not_not.mpr rfl),
          Bool.false_and]
        exact hfree.symm
      · simp [hq]
    rw [flags_unmark, flags_mark, Function.update_idem, Function.update_self]
    dsimp only
    rw [hsame]
    exact Function.update_eq_self l _
  · rw [flags_of_get? (get?_unmark_of_ne hd p),
      flags_of_get? (get?_mark_of_ne hd p)]

end Overrides

/-! ## Workspaces -/

variable {w w' : Workspace} {op : Operation}

theorem Effect.pruned (h : Effect w op w') (ho : w.overrides.Pruned) :
    w'.overrides.Pruned := by
  cases h with
  | register | createChild | setOfParent | resyncChild | addToParent
  | addToChild => exact ho
  | removeChild => exact ho.clearChild _
  | setOfChild =>
      dsimp only
      split
      · exact ho.mark _ _ _
      · exact ho
  | resetProperty => exact ho.unmark _ _ _
  | resetLayer => exact ho.clearLayer _ _
  | @deleteOfParent id key t =>
      exact Overrides.Pruned.dropFromChildren
        (w := { w with library := w.library.put id (t.dropLayer key) }) ho _ _
  | deleteOfChild =>
      dsimp only
      split
      · exact (ho.clearLayer _ _).markLayer _ _
      · exact ho.clearLayer _ _
  | replaceChildLayer =>
      dsimp only
      split
      · exact (ho.clearLayer _ _).markLayer _ _
      · exact ho

theorem Workspace.WellFormed.pruned_run (hw : w.WellFormed)
    (ho : w.overrides.Pruned) (ops : List Operation) :
    (w.run ops).overrides.Pruned :=
  hw.run_induct (P := fun w => w.overrides.Pruned)
    (fun _ h ho => h.pruned ho) ho ops

/-- No run leaves an entry without a flag. -/
theorem Workspace.run_pruned (ops : List Operation) :
    (Workspace.empty.run ops).overrides.Pruned :=
  wellFormed_empty.pruned_run Overrides.pruned_empty ops

end Placard
