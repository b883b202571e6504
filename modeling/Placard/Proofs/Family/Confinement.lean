import Placard.Proofs.Family.WellFormed
import Placard.Proofs.Template.Changes

/-!
# What an edit leaves alone

An edit that is addressed to a child stays with that child. One that is
addressed to a parent stays with the parent and its children, and takes flags
away only where it takes a layer away. A value that is written changes the one
place that it is written to, in the template that it is addressed to and in
those of its children that the report names.
-/

namespace Placard

variable {w w' : Workspace} {op : Operation} {id c p : String}

/-! ## An edit of a child -/

/-- An edit of a child changes neither another template nor the flags of another
child. -/
theorem Effect.eq_of_edits_child (h : Effect w op w') (hop : op.edits? = some c)
    (hchild : w.library.parentOf? c = some p) (hid : id ≠ c) :
    w'.library.get? id = w.library.get? id ∧
      w'.overrides.get? id = w.overrides.get? id := by
  have hnot : w.library.isParent c = true → False := fun hparent => by
    rw [(Library.isParent_iff.mp hparent).2] at hchild
    cases hchild
  cases h with
  | register | createChild => cases hop
  | setOfParent hparent | deleteOfParent hparent | addToParent hparent =>
      cases hop
      exact (hnot hparent).elim
  | removeChild =>
      cases hop
      exact ⟨(Library.get?_detach _ _ _ _).trans (if_neg (Ne.symm hid)),
        Overrides.get?_clearChild_of_ne hid⟩
  | setOfChild =>
      cases hop
      refine ⟨Library.get?_put_of_ne hid, ?_⟩
      dsimp only
      split
      · exact Overrides.get?_mark_of_ne hid _
      · rfl
  | resetProperty =>
      cases hop
      exact ⟨Library.get?_put_of_ne hid, Overrides.get?_unmark_of_ne hid _⟩
  | resyncChild | addToChild =>
      cases hop
      exact ⟨Library.get?_put_of_ne hid, rfl⟩
  | resetLayer =>
      cases hop
      exact ⟨Library.get?_put_of_ne hid, Overrides.get?_clearLayer_of_ne hid⟩
  | deleteOfChild =>
      cases hop
      refine ⟨Library.get?_put_of_ne hid, ?_⟩
      dsimp only
      split
      · rw [Overrides.get?_markLayer_of_ne hid,
          Overrides.get?_clearLayer_of_ne hid]
      · exact Overrides.get?_clearLayer_of_ne hid
  | replaceChildLayer =>
      cases hop
      refine ⟨Library.get?_put_of_ne hid, ?_⟩
      dsimp only
      split
      · rw [Overrides.get?_markLayer_of_ne hid,
          Overrides.get?_clearLayer_of_ne hid]
      · rfl

/-! ## An edit of a parent -/

/-- An edit of a parent changes the parent and its children only. -/
theorem Effect.get?_of_edits_parent (hlinked : w.library.Linked)
    (h : Effect w op w') (hop : op.edits? = some p)
    (hparent : w.library.isParent p = true) (hid : id ≠ p)
    (hc : id ∉ w.library.childrenOf p) :
    w'.library.get? id = w.library.get? id := by
  have hnot {q : String} (hchild : w.library.parentOf? p = some q) : False := by
    rw [(Library.isParent_iff.mp hparent).2] at hchild
    cases hchild
  have hnodup := hlinked.nodup_childrenOf p
  cases h with
  | register | createChild => cases hop
  | removeChild hchild | setOfChild hchild | resetProperty hchild
  | resyncChild hchild | resetLayer hchild | deleteOfChild hchild
  | addToChild hchild | replaceChildLayer hchild =>
      cases hop
      exact (hnot hchild).elim
  | setOfParent =>
      cases hop
      rw [get?_writeAll _ _ _ (nodup_propagationTargets hnodup _ _ _ _ _),
        if_neg fun hmem => hc (mem_propagationTargets.mp hmem).1,
        Library.get?_put_of_ne hid]
  | @deleteOfParent _ key t =>
      cases hop
      have hget := get?_dropFromChildren key hnodup
        { w with library := w.library.put p (t.dropLayer key) } id
      rw [if_neg hc, Library.get?_put_of_ne hid] at hget
      exact hget
  | addToParent =>
      cases hop
      rw [Library.get?_put_of_ne hid, get?_pushAll _ hnodup, if_neg hc]

theorem Overrides.layersOf_clearLayer (o : Overrides) (c l c' : String) :
    (o.clearLayer c l).layersOf c' =
      if c = c' then (o.layersOf c).erase l else o.layersOf c' := by
  rw [layersOf, clearLayer, Table.get?_alter]
  split
  · next h =>
      rw [layersOf]
      cases o.get? c with
      | none => rfl
      | some layers => exact getD_nonempty? _
  · rfl

theorem get?_overrides_dropFromChildren_of_notMem {ids : List String}
    (key : String) (hc : c ∉ ids) (w : Workspace) :
    (w.dropFromChildren key ids).overrides.get? c = w.overrides.get? c := by
  induction ids generalizing w with
  | nil => rfl
  | cons d ids ih =>
      rw [List.mem_cons, not_or] at hc
      rw [Workspace.dropFromChildren_cons, ih hc.2]
      exact Overrides.get?_clearLayer_of_ne hc.1

/-- Of the flags of the children those of the layer go, and no others. -/
theorem get?_layersOf_dropFromChildren (key : String) (ids : List String)
    (w : Workspace) (c l : String) :
    ((w.dropFromChildren key ids).overrides.layersOf c).get? l =
      if c ∈ ids ∧ l = key then none else (w.overrides.layersOf c).get? l := by
  induction ids generalizing w with
  | nil => simp only [List.not_mem_nil, false_and, if_false]; rfl
  | cons d ids ih =>
      have hone : ((w.dropFromChild key d).overrides.layersOf c).get? l =
          if d = c ∧ key = l then none
          else (w.overrides.layersOf c).get? l := by
        show ((w.overrides.clearLayer d key).layersOf c).get? l = _
        rw [Overrides.layersOf_clearLayer]
        by_cases hd : d = c
        · subst hd
          simp only [if_true, Table.get?_erase, true_and]
        · simp only [hd, if_false, false_and]
      rw [Workspace.dropFromChildren_cons, ih, hone]
      by_cases hl : l = key
      · subst hl
        by_cases hd : c = d
        · simp [hd]
        · simp [hd, Ne.symm hd]
      · simp [hl, Ne.symm hl]

/-! ## A write -/

/-- The children that a write to a template goes on to and that take the
value. -/
def Workspace.updated (w : Workspace) (id layer : String) (p : Property)
    (v : Value) (toggles : Toggles) : List String :=
  if w.library.isParent id && toggles.inherits layer p then
    (w.library.childrenOf id).filter fun c =>
      w.library.holds c layer && !w.overrides.isOverridden c layer p &&
        (w.library.refusal? c layer p v).isNone
  else []

theorem Library.refusal?_put_of_ne {lib : Library} {t : Template} (h : c ≠ id)
    (layer : String) (p : Property) (v : Value) :
    (lib.put id t).refusal? c layer p v = lib.refusal? c layer p v := by
  rw [refusal?, get?_put_of_ne h, refusal?]

theorem Library.holds_put_of_ne {lib : Library} {t : Template} (h : c ≠ id)
    (layer : String) : (lib.put id t).holds c layer = lib.holds c layer := by
  rw [holds, get?_put_of_ne h, holds]

theorem snd_writeAll (layer : String) (p : Property) (v : Value)
    {ids : List String} (hn : ids.Nodup) (lib : Library) :
    (lib.writeAll layer p v ids).2 =
      ids.filter fun c => (lib.refusal? c layer p v).isNone := by
  induction ids generalizing lib with
  | nil => rfl
  | cons c rest ih =>
      obtain ⟨hc, hrest⟩ := List.nodup_cons.mp hn
      rw [Library.writeAll]
      cases ht : lib.get? c with
      | none =>
          rw [List.filter_cons_of_neg (by simp [Library.refusal?, ht])]
          dsimp only
          exact ih hrest lib
      | some t =>
          cases hset : t.set layer p v with
          | error e =>
              rw [List.filter_cons_of_neg
                (by simp [Library.refusal?, ht, hset])]
              dsimp only
              rw [hset]
              exact ih hrest lib
          | ok t' =>
              rw [List.filter_cons_of_pos
                (by simp [Library.refusal?, ht, hset])]
              dsimp only
              rw [hset]
              refine congrArg (c :: ·)
                ((ih hrest _).trans (List.filter_congr fun d hd => ?_))
              have hne : d ≠ c := fun h => hc (h ▸ hd)
              rw [Library.refusal?_put_of_ne hne]

/-- The children that a write updates are those that it goes on to and that take
the value. -/
theorem updated_eq (hlinked : w.library.Linked)
    (hid : w.library.isParent id = true) (t : Template) (layer : String)
    (p : Property) (v : Value) (toggles : Toggles) :
    w.updated id layer p v toggles =
      (propagationTargets layer p (w.library.childrenOf id) w.overrides toggles
        fun c => (w.library.put id t).holds c layer).filter
          fun c => ((w.library.put id t).refusal? c layer p v).isNone := by
  rw [Workspace.updated, hid, Bool.true_and, propagationTargets]
  split
  · rw [List.filter_filter]
    refine List.filter_congr fun d hd => ?_
    have hne : d ≠ id := fun h => hlinked.not_mem_own_children id (h ▸ hd)
    rw [Library.refusal?_put_of_ne hne, Library.holds_put_of_ne hne,
      Bool.and_comm]
  · rfl

/-- A write reports the children that it has gone on to. -/
theorem ends_setProperty_report (hlinked : w.library.Linked) (id layer : String)
    (p : Property) (v : Value) (toggles : Toggles) :
    Ends (Edit.setProperty id layer p v toggles) w
      (fun report _ => report.updatedChildren = w.updated id layer p v toggles)
      fun _ _ => True := by
  unfold Edit.setProperty
  rw [ends_bind, Edit.ends_library, ends_ite]
  refine ⟨fun hid => ?_, fun hid => ?_⟩
  · rw [ends_bind, Edit.ends_write]
    refine ⟨fun t ht => ⟨fun t' hset => ?_, fun _ _ => trivial⟩,
      fun _ => trivial⟩
    rw [ends_bind, ends_get, ends_bind, Edit.ends_setLibrary, ends_pure]
    show (Library.writeAll layer p v (w.library.put id t')
      (propagationTargets layer p (w.library.childrenOf id) w.overrides toggles
        fun child => (w.library.put id t').holds child layer)).2 = _
    rw [snd_writeAll _ _ _
      (nodup_propagationTargets (hlinked.nodup_childrenOf id) _ _ _ _ _),
        updated_eq hlinked hid t']
  · rw [ends_bind, Edit.ends_parentOf]
    refine ⟨fun parent hparent => ?_, fun _ => trivial⟩
    rw [ends_bind, ends_get, ends_bind, Edit.ends_write]
    refine ⟨fun t ht => ⟨fun t' hset => ?_, fun _ _ => trivial⟩,
      fun _ => trivial⟩
    have hnone : [] = w.updated id layer p v toggles := by
      rw [Workspace.updated, Bool.eq_false_iff.mpr hid, Bool.false_and,
        if_neg Bool.false_ne_true]
    exact ends_ite.mpr ⟨fun _ => hnone, fun _ => hnone⟩

/-- A write changes one place of the template that it is addressed to, and of
each child that it goes on to and that takes the value. -/
theorem Effect.differAt_of_set (hlinked : w.library.Linked) {layer : String}
    {p : Property} {v : Value} {toggles : Toggles}
    (h : Effect w (.setProperty id layer p v toggles) w') (id' : String) :
    w'.library.get? id' = w.library.get? id' ∨
      (id' = id ∨ id' ∈ w.updated id layer p v toggles) ∧
        ∃ t t', w.library.get? id' = some t ∧ w'.library.get? id' = some t' ∧
          t.DifferAt t' layer p := by
  cases h with
  | @setOfParent _ _ _ _ _ t t' hid ht hset =>
      have hget := get?_writeAll layer p v (nodup_propagationTargets
        (hlinked.nodup_childrenOf id) layer p w.overrides toggles fun child =>
          (w.library.put id t').holds child layer) (w.library.put id t') id'
      by_cases hself : id' = id
      · subst hself
        rw [if_neg fun hmem => hlinked.not_mem_own_children id'
          (mem_propagationTargets.mp hmem).1, Library.get?_put_self] at hget
        exact Or.inr ⟨Or.inl rfl, t, t', ht, hget,
          Template.differAt_of_set hset⟩
      · rw [Library.get?_put_of_ne hself] at hget
        split at hget
        · next hmem =>
            cases hu : w.library.get? id' with
            | none => exact Or.inl (hget.trans (by rw [hu, Option.map_none]))
            | some u =>
                rw [hu, Option.map_some] at hget
                cases huset : u.set layer p v with
                | error e =>
                    rw [huset] at hget
                    exact Or.inl hget
                | ok u' =>
                    rw [huset] at hget
                    have hmember : id' ∈ w.updated id layer p v toggles := by
                      rw [updated_eq hlinked hid t', List.mem_filter,
                        Library.refusal?_put_of_ne hself]
                      exact ⟨hmem, by simp [Library.refusal?, hu, huset]⟩
                    exact Or.inr ⟨Or.inr hmember, u, u', rfl, hget,
                      Template.differAt_of_set huset⟩
        · exact Or.inl hget
  | @setOfChild _ _ _ _ _ _ t t' _ ht hset =>
      by_cases hself : id' = id
      · subst hself
        exact Or.inr ⟨Or.inl rfl, t, t', ht, Library.get?_put_self _ _ _,
          Template.differAt_of_set hset⟩
      · exact Or.inl (Library.get?_put_of_ne hself)

/-! ## Confinement -/

/-- Of a workspace, that no edit of it changes more than it is meant to. -/
structure Workspace.EditsConfined (w : Workspace) : Prop where
  /-- An edit of a child changes no other template and the flags of no other
  child. -/
  child : ∀ (op : Operation) c p, op.edits? = some c →
    w.library.parentOf? c = some p →
    ∀ id, id ≠ c →
      (op.perform w).2.library.get? id = w.library.get? id ∧
        (op.perform w).2.overrides.get? id = w.overrides.get? id
  /-- An edit of a parent changes no template but the parent and its
  children. -/
  parent : ∀ (op : Operation) p, op.edits? = some p →
    w.library.isParent p = true →
    ∀ id, id ≠ p → id ∉ w.library.childrenOf p →
      (op.perform w).2.library.get? id = w.library.get? id
  /-- A write to a parent changes no flags. -/
  flags_set : ∀ id layer p v toggles, w.library.isParent id = true →
    ((Operation.setProperty id layer p v toggles).perform w).2.overrides =
      w.overrides
  /-- A layer that is added to a parent changes no flags. -/
  flags_add : ∀ id l, w.library.isParent id = true →
    ((Operation.addLayer id l).perform w).2.overrides = w.overrides
  /-- Deleting a layer of a parent takes the flags of its children for that
  layer away, and no others. -/
  flags_delete : ∀ id key, w.library.isParent id = true → ∀ c,
    (c ∉ w.library.childrenOf id →
      ((Operation.deleteLayer id key).perform w).2.overrides.get? c =
        w.overrides.get? c) ∧
    ∀ l, (((Operation.deleteLayer id key).perform w).2.overrides.layersOf
      c).get? l = (w.overrides.layersOf c).get? l ∨
      c ∈ w.library.childrenOf id ∧ l = key ∧
        (((Operation.deleteLayer id key).perform w).2.overrides.layersOf c).get?
          l = none
  /-- A write that succeeds reports the children that have the layer, no value
  of their own there and take the value, if the template is a parent and the
  class of the property is inherited; it changes nothing but what is read there,
  of the template that it is addressed to and of those children. -/
  write : ∀ id layer p v toggles report w',
    outcome (Edit.setProperty id layer p v toggles) w = (.ok report, w') →
    report.updatedChildren = w.updated id layer p v toggles ∧
    ∀ id', w'.library.get? id' = w.library.get? id' ∨
      (id' = id ∨ id' ∈ report.updatedChildren) ∧
        ∃ t t', w.library.get? id' = some t ∧ w'.library.get? id' = some t' ∧
          t.DifferAt t' layer p

theorem Workspace.WellFormed.editsConfined (hw : w.WellFormed) :
    w.EditsConfined where
  child := fun op c p hop hchild id hid =>
    Operation.perform_induct
      (P := fun w' => w'.library.get? id = w.library.get? id ∧
        w'.overrides.get? id = w.overrides.get? id) hw.linked ⟨rfl, rfl⟩
      fun _ h => h.eq_of_edits_child hop hchild hid
  parent := fun op p hop hparent id hid hc =>
    Operation.perform_induct (P := fun w' => w'.library.get? id =
      w.library.get? id) hw.linked
      rfl fun _ h => h.get?_of_edits_parent hw.linked hop hparent hid hc
  flags_set := fun id layer p v toggles hparent =>
    Operation.perform_induct (P := fun w' => w'.overrides = w.overrides)
      hw.linked rfl fun w' h => by
        cases h with
        | setOfParent => rfl
        | setOfChild hchild =>
            rw [(Library.isParent_iff.mp hparent).2] at hchild
            cases hchild
  flags_add := fun id l hparent =>
    Operation.perform_induct (P := fun w' => w'.overrides = w.overrides)
      hw.linked rfl fun w' h => by cases h <;> rfl
  flags_delete := fun id key hparent c =>
    Operation.perform_induct
      (P := fun w' => (c ∉ w.library.childrenOf id →
        w'.overrides.get? c = w.overrides.get? c) ∧
        ∀ l,
          (w'.overrides.layersOf c).get? l = (w.overrides.layersOf c).get? l ∨
          c ∈ w.library.childrenOf id ∧ l = key ∧
            (w'.overrides.layersOf c).get? l = none)
      hw.linked ⟨fun _ => rfl, fun _ => Or.inl rfl⟩ fun w' h => by
        cases h with
        | deleteOfParent =>
            refine ⟨fun hc => get?_overrides_dropFromChildren_of_notMem key hc
              _, fun l => ?_⟩
            rw [get?_layersOf_dropFromChildren]
            split
            · next hmem => exact Or.inr ⟨hmem.1, hmem.2, rfl⟩
            · exact Or.inl rfl
        | deleteOfChild hchild =>
            rw [(Library.isParent_iff.mp hparent).2] at hchild
            cases hchild
  write := fun id layer p v toggles report w' h => by
    have hreport := ends_setProperty_report hw.linked id layer p v toggles
    have heffect := ends_setProperty (w := w) id layer p v toggles
    rw [Ends, h] at hreport heffect
    refine ⟨hreport, fun id' => ?_⟩
    rw [hreport]
    exact Effect.differAt_of_set hw.linked heffect id'

/-- No edit changes more than it is meant to, whatever was done before. -/
theorem Workspace.run_editsConfined (ops : List Operation) :
    (Workspace.empty.run ops).EditsConfined :=
  (wellFormed_empty.run ops).editsConfined

/-- The child has the layer, and a value of its own for the colour of the canvas
only. -/
example :
    let w := Workspace.empty.run titleRun
    w.updated "wide" "title" .font (.text "Lato") .all = ["tall"] ∧
      w.updated "wide" canvasKey .backgroundColor (.color .white) .all = [] ∧
      w.updated "tall" "title" .font (.text "Lato") .all = [] := by
  decide +kernel

end Placard
