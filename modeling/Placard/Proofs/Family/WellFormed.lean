import Placard.Proofs.Family.Pairs
import Placard.Proofs.Template.Validity

/-!
# What holds of every workspace that operations build

The links between children and parents are kept in two tables beside the
templates, and the flags of children in a third. Nothing makes these agree but
what the operations do. Here it is shown that they do agree in every workspace
that is built from the empty one: templates are found under their own ids, are
sound, and belong together as the links say; and what is flagged is something
that the child has from its parent, or has had.

The last is a matter of pairs. A flag on a layer needs the layer in the parent,
which is where its value would come from, and a flag on a property needs it in
the child, which is where the value is. A layer that is the child's own as a
whole needs no flags on its properties, and it may be gone from the child: so a
deletion is remembered.
-/

namespace Placard

/-! ## Flags of a pair -/

/-- What is flagged is there to be flagged: in the parent, as a place that the
child does not take from there, and, if it is a property, in the child. The
canvas is always there. -/
structure Pair.FlagsFit (x : Pair) (key : String) : Prop where
  parent : x.flags key ≠ .empty → (x.parent.part? key).isSome
  child : ∀ q, (x.flags key).properties.contains q = true →
    (x.child.part? key).isSome
  whole : (x.flags key).whole = true → (x.flags key).properties = ∅

namespace Pair.FlagsFit

variable {p c key : String} {op : Operation} {x x' : Pair}

/-- Nothing that the flags need has gone, and the flags are the same. -/
theorem mono (h : x.FlagsFit key)
    (hparent : (x.parent.part? key).isSome → (x'.parent.part? key).isSome)
    (hchild : (x.child.part? key).isSome → (x'.child.part? key).isSome)
    (hflags : x'.flags key = x.flags key) : x'.FlagsFit key where
  parent := fun hne => hparent (h.parent (hflags ▸ hne))
  child := fun q hq => hchild (h.child q (hflags ▸ hq))
  whole := hflags ▸ h.whole

theorem of_empty (h : x.flags key = .empty) : x.FlagsFit key where
  parent := fun hne => absurd h hne
  child := fun q hq => by
    rw [h, LayerFlags.properties_empty, PropertySet.contains_emptyCollection]
      at hq
    cases hq
  whole := fun _ => by rw [h, LayerFlags.properties_empty]

theorem of_own (h : x.flags key = .own)
    (hparent : x.parent.hasLayer key = true) : x.FlagsFit key where
  parent := fun _ => Template.isSome_part?_of_hasLayer hparent
  child := fun q hq => by
    rw [h, LayerFlags.own, PropertySet.contains_emptyCollection] at hq
    cases hq
  whole := fun _ => by rw [h, LayerFlags.own]

theorem of_marked (hparent : (x.parent.part? key).isSome)
    (hchild : (x.child.part? key).isSome)
    (hwhole : (x.flags key).whole = false) : x.FlagsFit key where
  parent := fun _ => hparent
  child := fun _ _ => hchild
  whole := fun h => by
    rw [hwhole] at h
    cases h

/-- A step keeps the flags under its own key fit. -/
theorem of_key (hstep : PairStep p c op x x') (hop : op.key? = some key)
    (h : x.FlagsFit key) : x'.FlagsFit key := by
  cases hstep with
  | idle => exact h
  | setOfParent hset =>
      cases hop
      refine h.mono (fun hkey => ?_) (fun hkey => ?_) rfl
      · rw [Template.isSome_part?_of_set hset]
        exact hkey
      · dsimp only
        split
        · rw [Template.isSome_part?_getD_set]
          exact hkey
        · exact hkey
  | setOfChild hset =>
      cases hop
      have hchild := Template.isSome_part?_self_of_set hset
      split
      · next htracked =>
          rw [Bool.and_eq_true, Bool.not_eq_true'] at htracked
          refine of_marked htracked.1 hchild ?_
          dsimp only
          rw [Function.update_self]
          exact htracked.2
      · exact h.mono (fun hkey => hkey) (fun _ => hchild) rfl
  | resetProperty hwhole hv hset =>
      cases hop
      refine of_marked (Template.isSome_part?_of_get? hv)
        (Template.isSome_part?_self_of_set hset) ?_
      dsimp only
      rw [Function.update_self]
      exact hwhole
  | resyncChild => cases hop
  | resetLayer | deleteOfParent =>
      cases hop
      exact of_empty (Function.update_self _ _ _)
  | deleteOfChild =>
      cases hop
      split
      · next hparent => exact of_own (Function.update_self _ _ _) hparent
      · exact of_empty (Function.update_self _ _ _)
  | addToParent =>
      cases hop
      refine h.mono (Template.isSome_part?_pushLayer _) (fun hkey => ?_) rfl
      dsimp only
      split
      · exact hkey
      · exact Template.isSome_part?_pushLayer _ hkey
  | addToChild =>
      cases hop
      exact h.mono (fun hkey => hkey) (Template.isSome_part?_pushLayer _) rfl
  | replaceChildLayer =>
      cases hop
      split
      · next hparent => exact of_own (Function.update_self _ _ _) hparent
      · exact h.mono (fun hkey => hkey)
          (Template.isSome_part?_placeLayer _ _) rfl

theorem step (hstep : PairStep p c op x x') (h : x.FlagsFit key) :
    x'.FlagsFit key := by
  cases hop : op.key? with
  | none =>
      rcases hstep.of_key?_eq_none hop with rfl | ⟨values, -, rfl⟩
      · exact h
      · refine h.mono (fun hkey => hkey) (fun hkey => ?_) rfl
        rw [Template.isSome_part?_takeValues]
        exact hkey
  | some touched =>
      by_cases hkey : key = touched
      · exact of_key hstep (hkey ▸ hop) h
      · obtain ⟨hparent, hchild, hflags⟩ := hstep.frame hop hkey
        exact h.mono (fun h => hparent ▸ h) (fun h => hchild ▸ h) hflags

end Pair.FlagsFit

/-! ## Workspaces -/

/-- What every workspace is that operations build. -/
structure Workspace.WellFormed (w : Workspace) : Prop where
  linked : w.library.Linked
  sound : ∀ id t, w.library.get? id = some t → t.Sound
  children : w.FlagsChildren
  pairs : ∀ p c x, w.HasPair p c x → ∀ key, x.FlagsFit key

section Effects

variable {w w' : Workspace} {op : Operation}

theorem Effect.linked (hlinked : w.library.Linked) (h : Effect w op w') :
    w'.library.Linked := by
  rcases h.library_cases hlinked with
    hedits | ⟨t, -, hadds, -⟩ | ⟨p, id, canvas?, t, hadds, -⟩ | ⟨id, p, -,
      hid, rfl⟩
  · exact hlinked.edits hedits
  · exact hlinked.addsParent hadds
  · exact hlinked.addsChild hadds (Library.id_childTemplate _ _ _)
  · exact hlinked.removeChild hid

theorem Effect.sound (hlinked : w.library.Linked)
    (hsound : ∀ id t, w.library.get? id = some t → t.Sound)
    (h : Effect w op w') (id : String) (t : Template)
    (ht : w'.library.get? id = some t) : t.Sound := by
  rcases h.library_cases hlinked with
    hedits | ⟨u, hvalid, hadds, -⟩ | ⟨p, c, canvas?, u, hadds, -⟩ | ⟨c, p, -,
      hid, rfl⟩
  · obtain ⟨u, hu, hedit⟩ := hedits.get?_eq_some ht
    exact (hsound id u hu).edits hedit
  · rcases hadds.get?_cases ht with rfl | ht
    · exact (Template.check_valid_iff.mp hvalid).sound
    · exact hsound id t ht
  · rcases hadds.get?_cases ht with rfl | ht
    · exact Library.sound_childTemplate (hsound p u hadds.parent) _ _
    · exact hsound id t ht
  · exact hsound id t (Library.get?_of_detach ht)

theorem Effect.contains_cases {c : String} (h : Effect w op w')
    (hc : w'.overrides.contains c = true) :
    w.overrides.contains c = true ∨ ∃ p, w.library.parentOf? c = some p := by
  have hchild {id p : String} {o : Overrides}
      (hid : w.library.parentOf? id = some p)
      (ho : c ≠ id → o.get? c = w.overrides.get? c) (hc : o.contains c = true) :
      w.overrides.contains c = true ∨ ∃ p, w.library.parentOf? c = some p := by
    by_cases heq : c = id
    · exact Or.inr ⟨p, heq ▸ hid⟩
    · exact Or.inl (by rw [Table.contains, ← ho heq]; exact hc)
  cases h with
  | register | createChild | setOfParent | resyncChild | addToParent
  | addToChild =>
      exact Or.inl hc
  | removeChild hid =>
      exact hchild hid (fun hne => Overrides.get?_clearChild_of_ne hne) hc
  | setOfChild hid =>
      split at hc
      · exact hchild hid (fun hne => Overrides.get?_mark_of_ne hne _) hc
      · exact Or.inl hc
  | resetProperty | resetLayer => exact Or.inl (Overrides.contains_of_alter hc)
  | @deleteOfParent id key t =>
      exact Or.inl (contains_of_dropFromChildren
        (w := { w with library := w.library.put id (t.dropLayer key) }) hc)
  | deleteOfChild hid =>
      split at hc
      · refine hchild hid (fun hne => ?_) hc
        rw [Overrides.get?_markLayer_of_ne hne,
          Overrides.get?_clearLayer_of_ne hne]
      · exact Or.inl (Overrides.contains_of_alter hc)
  | replaceChildLayer hid =>
      split at hc
      · refine hchild hid (fun hne => ?_) hc
        rw [Overrides.get?_markLayer_of_ne hne,
          Overrides.get?_clearLayer_of_ne hne]
      · exact Or.inl hc

theorem Effect.flagsChildren (hlinked : w.library.Linked)
    (hchildren : w.FlagsChildren) (h : Effect w op w') : w'.FlagsChildren := by
  intro c hc
  obtain ⟨p, hp⟩ : ∃ p, w.library.parentOf? c = some p := by
    rcases h.contains_cases hc with hold | hlink
    · exact hchildren c hold
    · exact hlink
  rcases h.library_cases hlinked with
    hedits | ⟨t, -, hadds, -⟩ | ⟨q, id, canvas?, t, hadds, -⟩ | ⟨id, q, -,
      hid, rfl⟩
  · exact ⟨p, hedits.parentOf?_eq c ▸ hp⟩
  · exact ⟨p, (hadds.parentOf? c).trans hp⟩
  · rw [hadds.parentOf?]
    split
    · exact ⟨q, rfl⟩
    · exact ⟨p, hp⟩
  · rw [Library.parentOf?_detach]
    split
    · next heq =>
        -- The flags of the child have gone with it.
        subst heq
        rw [Table.contains, Overrides.clearChild, Table.get?_erase, if_pos rfl]
          at hc
        cases hc
    · exact ⟨p, hp⟩

namespace Workspace

theorem WellFormed.effect (hw : w.WellFormed) (h : Effect w op w') :
    w'.WellFormed where
  linked := h.linked hw.linked
  sound := h.sound hw.linked hw.sound
  children := h.flagsChildren hw.linked hw.children
  pairs := fun p c x' hx' key => by
    rcases HasPair.of_effect hw.linked hw.children h hx' with
      ⟨x, hx, hstep⟩ | ⟨-, -, -, hflags⟩
    · exact (hw.pairs p c x hx key).step hstep
    · exact .of_empty (congrFun hflags key)

theorem WellFormed.perform (hw : w.WellFormed) (op : Operation) :
    (op.perform w).2.WellFormed :=
  Operation.perform_induct hw.linked hw fun _ h => hw.effect h

theorem wellFormed_empty : Workspace.empty.WellFormed where
  linked := Library.linked_empty
  sound := fun _ _ h => by cases h
  children := fun _ h => by cases h
  pairs := fun _ _ _ h => by cases h.link

theorem WellFormed.run (hw : w.WellFormed) (ops : List Operation) :
    (w.run ops).WellFormed := by
  induction ops generalizing w with
  | nil => exact hw
  | cons op rest ih => exact ih (hw.perform op)

/-- What every operation keeps that is as asked holds after a run of such
operations. -/
theorem Each.run_induct {P : Workspace → Prop}
    {asked : Workspace → Operation → Prop} {ops : List Operation}
    (hops : w.Each asked ops)
    (hperform : ∀ {w : Workspace} {op : Operation}, w.WellFormed →
      asked w op → P w →
      P (op.perform w).2) (hw : w.WellFormed) (h : P w) : P (w.run ops) := by
  induction ops generalizing w with
  | nil => exact h
  | cons op rest ih => exact ih hops.2 (hw.perform op) (hperform hw hops.1 h)

/-- What every effect keeps, on workspaces that are well formed, holds after a
run. -/
theorem WellFormed.run_induct {P : Workspace → Prop}
    (heffect : ∀ {w w' : Workspace} {op : Operation}, w.WellFormed →
      Effect w op w' → P w →
      P w') (hw : w.WellFormed) (h : P w) (ops : List Operation) :
    P (w.run ops) :=
  have hops : w.Each (fun _ _ => True) ops :=
    each_of_forall (fun _ _ => trivial) w
  hops.run_induct (fun hw _ h => Operation.perform_induct hw.linked h fun _ =>
    (heffect hw · h)) hw h

end Workspace

end Effects

end Placard
