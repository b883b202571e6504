import Placard.Proofs.Family.WellFormed
import Placard.Proofs.Template.Overwriting

/-!
# Writes that may be made in either order

Two writes to different places leave the same workspace behind whichever is made
first, and each is taken or refused as if the other were not there. For most
pairs the reason is that they store in different places and that neither looks
at what the other has stored. There is one pair that does get in each other's
way: a write to a parent and one to a child of it, to the same property of the
same layer. Made first, the write to the parent reaches the child and is
overwritten there. Made second, it finds the property flagged and does not reach
the child. So it is the flag that makes the order not matter, and it is there
because the parent has the layer.

A write is described by the templates that it reaches and by whether it is
flagged, both as they are before it is made.
-/

namespace Placard

/-! ## Tables and flags -/

namespace Table

variable {α : Type} {k k' : String}

theorem insert_insert (t : Table α) (k : String) (v v' : α) :
    (t.insert k v).insert k v' = t.insert k v' := by
  ext j
  simp only [get?_insert]
  split <;> rfl

theorem insert_comm (h : k ≠ k') (t : Table α) (v v' : α) :
    (t.insert k v).insert k' v' = (t.insert k' v').insert k v := by
  ext j : 1
  simp only [get?_insert]
  by_cases hj : k = j
  · have hj' : k' ≠ j := hj ▸ Ne.symm h
    simp only [if_pos hj, if_neg hj']
  · simp only [if_neg hj]

end Table

theorem PropertySet.insert_comm (s : PropertySet) (p q : Property) :
    (s.insert p).insert q = (s.insert q).insert p := by
  ext r
  simp only [contains_insert]
  exact Bool.or_left_comm _ _ _

namespace Overrides

variable {o : Overrides} {c c' l l' : String}

theorem layersOf_setFlags (o : Overrides) (c l : String) (f : LayerFlags) :
    (o.setFlags c l f).layersOf c = (o.layersOf c).insert l f := by
  rw [layersOf, setFlags, Table.get?_insert, if_pos rfl, Option.getD_some]

theorem layersOf_setFlags_of_ne (h : c' ≠ c) (f : LayerFlags) :
    (o.setFlags c l f).layersOf c' = o.layersOf c' := by
  rw [layersOf, get?_setFlags_of_ne h, layersOf]

theorem setFlags_setFlags (o : Overrides) (c l : String) (f f' : LayerFlags) :
    (o.setFlags c l f).setFlags c l f' = o.setFlags c l f' := by
  rw [setFlags, layersOf_setFlags, Table.insert_insert, setFlags,
    Table.insert_insert, setFlags]

theorem setFlags_comm (h : (c, l) ≠ (c', l')) (o : Overrides)
    (f f' : LayerFlags) :
    (o.setFlags c l f).setFlags c' l' f' =
      (o.setFlags c' l' f').setFlags c l f := by
  by_cases hc : c = c'
  · subst hc
    have hl : l ≠ l' := fun heq => h (by rw [heq])
    rw [setFlags, layersOf_setFlags, setFlags, Table.insert_insert, setFlags,
      layersOf_setFlags, setFlags, Table.insert_insert, Table.insert_comm hl]
  · rw [setFlags, layersOf_setFlags_of_ne (Ne.symm hc), setFlags,
      Table.insert_comm hc, setFlags, layersOf_setFlags_of_ne hc, setFlags]

theorem flags_setFlags_of_ne (h : (c', l') ≠ (c, l)) (f : LayerFlags) :
    (o.setFlags c l f).flags c' l' = o.flags c' l' := by
  by_cases hc : c' = c
  · subst hc
    have hl : l' ≠ l := fun heq => h (by rw [heq])
    rw [flags_setFlags, Function.update_of_ne hl]
  · rw [flags_of_get? (get?_setFlags_of_ne hc f)]

theorem mark_comm (o : Overrides) (c l : String) (p : Property)
    (c' l' : String) (q : Property) :
    (o.mark c l p).mark c' l' q = (o.mark c' l' q).mark c l p := by
  by_cases h : (c, l) = (c', l')
  · cases h
    simp only [mark, setFlags_setFlags, flags_setFlags, Function.update_self,
      PropertySet.insert_comm]
  · simp only [mark, flags_setFlags_of_ne h, flags_setFlags_of_ne (Ne.symm h),
      setFlags_comm h]

end Overrides

/-! ## Writes -/

/-- A write to a property, with its arguments. -/
structure Write where
  id : String
  layer : String
  property : Property
  value : Value
  toggles : Toggles

namespace Write

/-- The write as an operation. -/
def operation (a : Write) : Operation :=
  .setProperty a.id a.layer a.property a.value a.toggles

/-- What the write is addressed to. -/
def place (a : Write) : String × String × Property :=
  (a.id, a.layer, a.property)

/-- The template with the value written to it, if it takes the value. -/
def on (a : Write) (t : Template) : Template :=
  t.trySet a.layer a.property a.value

/-- The template that the write is addressed to is there and takes the value. -/
def Fits (a : Write) (w : Workspace) : Prop :=
  ∃ t t', w.library.get? a.id = some t ∧
    t.set a.layer a.property a.value = .ok t'

/-- Whether the write goes on to a child. -/
def passes (a : Write) (w : Workspace) (c : String) : Bool :=
  a.toggles.inherits a.layer a.property && w.library.holds c a.layer &&
    !(w.overrides.flags c a.layer).covers a.property

/-- Whether the write reaches a template: the one that it is addressed to, and
the children of that to which it goes on. -/
def reaches (a : Write) (w : Workspace) (id : String) : Bool :=
  id = a.id || (w.library.parentOf? id = some a.id && a.passes w id)

/-- Whether the property is flagged: the template is a child, and the parent has
the layer. -/
def marks (a : Write) (w : Workspace) : Bool :=
  (w.library.parentOf? a.id).any fun p =>
    w.library.holds p a.layer && !w.overrides.isLayerOverridden a.id a.layer

/-- What the write makes of a template of the workspace. -/
def step (a : Write) (w : Workspace) (id : String) (t : Template) : Template :=
  if a.reaches w id then a.on t else t

/-- What the write makes of the workspace. -/
structure Done (a : Write) (w w' : Workspace) : Prop where
  parents : w'.library.parents = w.library.parents
  children : w'.library.children = w.library.children
  templates : ∀ id, w'.library.get? id = (w.library.get? id).map (a.step w id)
  overrides : w'.overrides =
    if a.marks w then w.overrides.mark a.id a.layer a.property else w.overrides

variable {a b : Write} {w w' w₁ w₂ w₁₂ w₂₁ : Workspace}

theorem fits_of_effect (h : Effect w a.operation w') : a.Fits w := by
  obtain ⟨id, layer, p, v, toggles⟩ := a
  cases h with
  | setOfParent _ ht hset | setOfChild _ ht hset => exact ⟨_, _, ht, hset⟩

theorem reaches_self (a : Write) (w : Workspace) : a.reaches w a.id = true := by
  rw [reaches, decide_eq_true rfl, Bool.true_or]

theorem reaches_of_ne {id : String} (h : id ≠ a.id) :
    a.reaches w id = (decide (w.library.parentOf? id = some a.id) &&
      a.passes w id) := by
  rw [reaches, decide_eq_false h, Bool.false_or]

theorem step_self {t t' : Template} (w : Workspace)
    (h : t.set a.layer a.property a.value = .ok t') : a.step w a.id t = t' := by
  rw [step, reaches_self, if_pos rfl, on, Template.trySet_of_ok h]

theorem step_of_not_reaches {id : String} (h : a.reaches w id = false)
    (t : Template) : a.step w id t = t := by
  rw [step, h, if_neg Bool.false_ne_true]

/-- The children that a write to a parent goes on to are those that it
reaches. -/
theorem mem_targets {id : String} (hlinked : w.library.Linked) (hid : id ≠ a.id)
    (t : Template) :
    id ∈ propagationTargets a.layer a.property (w.library.childrenOf a.id)
      w.overrides a.toggles
        (fun child => (w.library.put a.id t).holds child a.layer) ↔
      a.reaches w id = true := by
  have hholds : (w.library.put a.id t).holds id a.layer =
      w.library.holds id a.layer := by
    rw [Library.holds, Library.get?_put_of_ne hid, Library.holds]
  simp only [mem_propagationTargets, hlinked.mem_childrenOf, hholds,
    reaches_of_ne hid, passes, Bool.and_eq_true, decide_eq_true_eq]

theorem done_of_effect (hlinked : w.library.Linked)
    (h : Effect w a.operation w') : a.Done w w' := by
  generalize hop : a.operation = op at h
  cases h with
  | @setOfParent id layer p v toggles t t' hid ht hset =>
      cases hop
      have hedits :=
        Library.edits_writeAll a.layer a.property a.value
          (w.library.put a.id t')
          (propagationTargets a.layer a.property (w.library.childrenOf a.id)
            w.overrides a.toggles
            fun child => (w.library.put a.id t').holds child a.layer)
      refine ⟨hedits.parents, hedits.children, fun id => ?_, ?_⟩
      · rw [get?_writeAll _ _ _
          (nodup_propagationTargets (hlinked.nodup_childrenOf a.id) _ _ _ _ _)]
        by_cases hid : id = a.id
        · subst hid
          have hnot := hlinked.not_mem_own_children a.id
          rw [if_neg fun hmem => hnot (mem_propagationTargets.mp hmem).1,
            Library.get?_put_self, ht]
          exact congrArg some (step_self w hset).symm
        · simp only [mem_targets hlinked hid, Library.get?_put_of_ne hid]
          cases w.library.get? id with
          | none => simp only [Option.map_none, ite_self]
          | some u => exact (apply_ite some _ _ _).symm
      · have horphan := (Library.isParent_iff.mp hid).2
        rw [marks, horphan, Option.any_none, if_neg Bool.false_ne_true]
  | @setOfChild id parent layer p v toggles t t' hparent ht hset =>
      cases hop
      refine ⟨rfl, rfl, fun id => ?_, ?_⟩
      · by_cases hid : id = a.id
        · subst hid
          rw [Library.get?_put_self, ht]
          exact congrArg some (step_self w hset).symm
        · -- A child has no children that the write could go on to.
          have hlink : w.library.parentOf? id ≠ some a.id := fun hlink => by
            rw [hlinked.parentOf?_parent hlink] at hparent
            cases hparent
          have hstays : a.reaches w id = false := by
            rw [reaches_of_ne hid, decide_eq_false hlink, Bool.false_and]
          rw [Library.get?_put_of_ne hid]
          cases w.library.get? id with
          | none => rfl
          | some u => exact congrArg some (step_of_not_reaches hstays u).symm
      · rw [marks, hparent, Option.any_some]
  | _ => cases hop

/-! ## What one write looks at and another may change -/

theorem hasLayer_step (a : Write) (w : Workspace) (id : String) (t : Template)
    (key : String) : (a.step w id t).hasLayer key = t.hasLayer key := by
  unfold step
  split
  · exact Template.hasLayer_getD_set t a.layer a.property a.value key
  · rfl

theorem kind?_step (a : Write) (w : Workspace) (id : String) (t : Template)
    (key : String) : (a.step w id t).kind? key = t.kind? key := by
  unfold step
  split
  · exact Template.kind?_trySet t a.layer a.property a.value key
  · rfl

theorem step_congr {id : String} (h : a.reaches w' id = a.reaches w id) :
    a.step w' id = a.step w id := by
  funext t
  rw [step, h, step]

theorem Fits.holds (h : a.Fits w) : w.library.holds a.id a.layer = true := by
  obtain ⟨t, t', ht, hset⟩ := h
  rw [holds_eq ht, ← Template.isSome_part?_of_set hset]
  exact Template.isSome_part?_self_of_set hset

namespace Done

theorem parentOf? (h : a.Done w w') (id : String) :
    w'.library.parentOf? id = w.library.parentOf? id := by
  rw [Library.parentOf?, h.parents, Library.parentOf?]

theorem holds (h : a.Done w w') (id layer : String) :
    w'.library.holds id layer = w.library.holds id layer := by
  rw [Library.holds, h.templates, Library.holds]
  cases w.library.get? id with
  | none => rfl
  | some t =>
      rw [Option.map_some, Option.any_some, Option.any_some, hasLayer_step]

/-- The flags of a layer are the same, but for the property if it is the layer
that has been written to. -/
theorem flags_cases (h : a.Done w w') (c l : String) :
    w'.overrides.flags c l = w.overrides.flags c l ∨
      ((c, l) = (a.id, a.layer) ∧
        w'.overrides.flags c l =
          { w.overrides.flags c l with
            properties :=
              (w.overrides.flags c l).properties.insert a.property }) := by
  rw [h.overrides]
  split
  · by_cases hplace : (c, l) = (a.id, a.layer)
    · refine Or.inr ⟨hplace, ?_⟩
      cases hplace
      rw [Overrides.flags_mark, Function.update_self]
    · rw [Overrides.mark, Overrides.flags_setFlags_of_ne hplace]
      exact Or.inl rfl
  · exact Or.inl rfl

theorem whole (h : a.Done w w') (c l : String) :
    (w'.overrides.flags c l).whole = (w.overrides.flags c l).whole := by
  rcases h.flags_cases c l with hflags | ⟨-, hflags⟩ <;> rw [hflags]

theorem marks (h : a.Done w w') (b : Write) : b.marks w' = b.marks w := by
  simp only [Write.marks, h.parentOf?, h.holds, Overrides.isLayerOverridden,
    h.whole]

theorem covers_of_ne {c l : String} {q : Property} (h : a.Done w w')
    (hne : a.place ≠ (c, l, q)) :
    (w'.overrides.flags c l).covers q = (w.overrides.flags c l).covers q := by
  rcases h.flags_cases c l with hflags | ⟨hplace, hflags⟩
  · rw [hflags]
  · cases hplace
    have hq : q ≠ a.property := fun heq => hne (by rw [place, heq])
    rw [hflags, LayerFlags.covers, LayerFlags.covers,
      PropertySet.contains_insert, decide_eq_false hq, Bool.false_or]

theorem reaches_of_ne {id : String} (h : a.Done w w')
    (hne : a.place ≠ (id, b.layer, b.property)) :
    b.reaches w' id = b.reaches w id := by
  simp only [reaches, passes, h.parentOf?, h.holds, h.covers_of_ne hne]

/-- What is written to a child is the child's own afterwards, if the parent has
the layer: it is flagged, or its layer is. -/
theorem covers {p : String} (h : a.Done w w')
    (hlink : w.library.parentOf? a.id = some p)
    (hholds : w.library.holds p a.layer = true) :
    (w'.overrides.flags a.id a.layer).covers a.property = true := by
  cases hwhole : (w.overrides.flags a.id a.layer).whole with
  | true => rw [LayerFlags.covers, h.whole, hwhole, Bool.true_or]
  | false =>
      have hmarks : a.marks w = true := by
        rw [Write.marks, hlink, Option.any_some, hholds,
          Overrides.isLayerOverridden, hwhole]
        rfl
      rw [h.overrides, if_pos hmarks, Overrides.flags_mark,
        Function.update_self, LayerFlags.covers, PropertySet.contains_insert,
        decide_eq_true rfl, Bool.true_or, Bool.or_true]

/-- A write to the same property elsewhere does not reach what has been written
to, even where it would have before. -/
theorem not_reaches (h : a.Done w w') (hb : b.Fits w) (hid : a.id ≠ b.id)
    (hlayer : b.layer = a.layer) (hproperty : b.property = a.property) :
    b.reaches w' a.id = false := by
  rw [Write.reaches_of_ne hid, h.parentOf?]
  by_cases hlink : w.library.parentOf? a.id = some b.id
  · rw [passes, hlayer, hproperty, h.covers hlink (hlayer ▸ hb.holds),
      Bool.not_true, Bool.and_false, Bool.and_false]
  · rw [decide_eq_false hlink, Bool.false_and]

end Done

/-! ## Two writes -/

/-- Where the places differ within the template, the template is the same after
both. -/
theorem on_comm (h : (a.layer, a.property) ≠ (b.layer, b.property))
    (t : Template) : b.on (a.on t) = a.on (b.on t) :=
  Template.trySet_comm h t a.value b.value

theorem step_comm {id : String}
    (h : (a.layer, a.property) ≠ (b.layer, b.property)) (w : Workspace)
    (t : Template) :
    b.step w id (a.step w id t) = a.step w id (b.step w id t) := by
  unfold step
  split
  · split
    · exact on_comm h t
    · rfl
  · rfl

/-- A template that neither write is addressed to is not reached by both, if
they are addressed to different ones. -/
theorem step_comm_of_ne {id : String} (hab : a.id ≠ b.id) (ha : id ≠ a.id)
    (hb : id ≠ b.id) (w : Workspace) (t : Template) :
    b.step w id (a.step w id t) = a.step w id (b.step w id t) := by
  by_cases hlink : w.library.parentOf? id = some a.id
  · have hstays : b.reaches w id = false := by
      rw [reaches_of_ne hb, hlink,
        decide_eq_false fun heq => hab (Option.some.inj heq), Bool.false_and]
    rw [step_of_not_reaches hstays, step_of_not_reaches hstays]
  · have hstays : a.reaches w id = false := by
      rw [reaches_of_ne ha, decide_eq_false hlink, Bool.false_and]
    rw [step_of_not_reaches hstays, step_of_not_reaches hstays]

/-- A value that fits is what is read in the end, whatever has been written to
the same property before. -/
theorem step_step_self {t t' : Template}
    (hset : t.set a.layer a.property a.value = .ok t')
    (hlayer : b.layer = a.layer) (hproperty : b.property = a.property)
    (w w' : Workspace) : a.step w' a.id (b.step w a.id t) = t' := by
  cases hreaches : b.reaches w a.id with
  | false => rw [step_of_not_reaches hreaches, step_self w' hset]
  | true =>
      rw [step, reaches_self, if_pos rfl, step, if_pos hreaches, on, on, hlayer,
        hproperty]
      exact Template.trySet_trySet hset b.value

section Orders

variable (ha : a.Done w w₁) (hb : b.Done w₁ w₁₂) (hb' : b.Done w w₂)
  (ha' : a.Done w₂ w₂₁) (hfits : a.Fits w) (hfits' : b.Fits w)

include ha hb hb' ha' hfits hfits'

/-- Two writes to one property of different templates: the template that one of
them is addressed to is the same in either order. -/
theorem get?_addressed (hid : a.id ≠ b.id) (hlayer : b.layer = a.layer)
    (hproperty : b.property = a.property) :
    w₁₂.library.get? a.id = w₂₁.library.get? a.id := by
  obtain ⟨t, t', ht, hset⟩ := hfits
  have hstays := ha.not_reaches hfits' hid hlayer hproperty
  rw [hb.templates, ha.templates, ha'.templates, hb'.templates, ht]
  simp only [Option.map_some]
  rw [step_of_not_reaches hstays, step_self w hset,
    step_step_self hset hlayer hproperty]

theorem get?_comm (hne : a.place ≠ b.place) (id : String) :
    w₁₂.library.get? id = w₂₁.library.get? id := by
  -- Where neither write changes whether the other reaches the template, it
  -- takes the two steps of the workspace before, and only their order differs.
  have hunmoved (h : a.place ≠ (id, b.layer, b.property))
      (h' : b.place ≠ (id, a.layer, a.property))
      (hcomm : ∀ t, b.step w id (a.step w id t) = a.step w id (b.step w id t)) :
      w₁₂.library.get? id = w₂₁.library.get? id := by
    rw [hb.templates, ha.templates, ha'.templates, hb'.templates,
      step_congr (ha.reaches_of_ne h), step_congr (hb'.reaches_of_ne h'),
      Option.map_map, Option.map_map]
    exact congrArg (fun f => (w.library.get? id).map f) (funext hcomm)
  by_cases hsame : (a.layer, a.property) = (b.layer, b.property)
  · obtain ⟨hlayer, hproperty⟩ := Prod.mk.inj hsame
    have hid : a.id ≠ b.id :=
      fun heq => hne (by rw [place, place, heq, hlayer, hproperty])
    by_cases hida : id = a.id
    · subst hida
      exact get?_addressed ha hb hb' ha' hfits hfits' hid hlayer.symm
        hproperty.symm
    · by_cases hidb : id = b.id
      · subst hidb
        exact (get?_addressed hb' ha' ha hb hfits' hfits hid.symm hlayer
          hproperty).symm
      · exact hunmoved (fun h => hida (congrArg Prod.fst h).symm)
          (fun h => hidb (congrArg Prod.fst h).symm) fun t =>
            step_comm_of_ne hid hida hidb w t
  · exact hunmoved (fun h => hsame (congrArg Prod.snd h))
      (fun h => hsame (congrArg Prod.snd h).symm) fun t => step_comm hsame w t

/-- Two writes to different places, each of which is taken, leave the same
workspace behind in either order. -/
theorem Done.comm (hne : a.place ≠ b.place) : w₁₂ = w₂₁ := by
  have htemplates : w₁₂.library.templates = w₂₁.library.templates :=
    Table.ext fun id => get?_comm ha hb hb' ha' hfits hfits' hne id
  have hchildren : w₁₂.library.children = w₂₁.library.children := by
    rw [hb.children, ha.children, ha'.children, hb'.children]
  have hparents : w₁₂.library.parents = w₂₁.library.parents := by
    rw [hb.parents, ha.parents, ha'.parents, hb'.parents]
  have hoverrides : w₁₂.overrides = w₂₁.overrides := by
    rw [hb.overrides, ha'.overrides, ha.marks, hb'.marks, ha.overrides,
      hb'.overrides]
    split
    · split
      · exact Overrides.mark_comm _ _ _ _ _ _ _
      · rfl
    · rfl
  obtain ⟨⟨templates, children, parents⟩, overrides⟩ := w₁₂
  obtain ⟨⟨templates', children', parents'⟩, overrides'⟩ := w₂₁
  cases htemplates
  cases hchildren
  cases hparents
  cases hoverrides
  rfl

end Orders

/-! ## Taken or refused -/

/-- Why the write is refused, if it is. -/
def refusal? (a : Write) (w : Workspace) : Option EditError :=
  w.library.refusal? a.id a.layer a.property a.value

/-- No write makes another one fit, or keeps it from fitting. -/
theorem Done.refusal? (h : a.Done w w') (b : Write) :
    b.refusal? w' = b.refusal? w := by
  unfold Write.refusal? Library.refusal?
  rw [h.templates]
  cases w.library.get? b.id with
  | none => rfl
  | some t =>
      have hsame :=
        Template.verdict_set (kind?_step a w b.id t b.layer) b.property b.value
      simp only [Option.map_some]
      generalize (a.step w b.id t).set b.layer b.property b.value = r at hsame ⊢
      generalize t.set b.layer b.property b.value = r' at hsame ⊢
      cases r <;> cases r' <;> cases hsame <;> rfl

/-- A write is refused for its reason and changes nothing, or is done. -/
theorem perform_cases (hlinked : w.library.Linked) (a : Write) :
    (∃ e, a.refusal? w = some e ∧
      a.operation.perform w = (.error (.notEdited e), w)) ∨
      (a.refusal? w = none ∧ a.Fits w ∧
        ∃ w', a.operation.perform w = (.ok (), w') ∧ a.Done w w') := by
  have hends :=
    ends_setProperty_refusal (w := w) a.id a.layer a.property a.value a.toggles
  show (∃ e, _ ∧
      Workspace.edited (outcome (Edit.setProperty _ _ _ _ _) w) = _) ∨
    (_ ∧ _ ∧ ∃ w',
      Workspace.edited (outcome (Edit.setProperty _ _ _ _ _) w) = _ ∧ _)
  rcases hends.cases with ⟨e, w', hx, rfl, hrefusal⟩ | ⟨report, w', hx, heffect⟩
  · exact Or.inl ⟨e, hrefusal, by rw [hx, Workspace.edited]⟩
  · have hfits : a.Fits w := fits_of_effect heffect
    refine Or.inr ⟨?_, hfits, w', by rw [hx, Workspace.edited],
      done_of_effect hlinked heffect⟩
    obtain ⟨t, t', ht, hset⟩ := hfits
    simp only [Write.refusal?, Library.refusal?, ht, hset]

theorem perform_of_refusal? {e : EditError} (hlinked : w.library.Linked)
    (h : a.refusal? w = some e) :
    a.operation.perform w = (.error (.notEdited e), w) := by
  rcases a.perform_cases hlinked with ⟨e', he', hperform⟩ | ⟨hnone, -⟩
  · rw [he', Option.some.injEq] at h
    rw [hperform, h]
  · rw [hnone] at h
    cases h

theorem perform_of_refusal?_eq_none (hlinked : w.library.Linked)
    (h : a.refusal? w = none) :
    a.Fits w ∧ ∃ w', a.operation.perform w = (.ok (), w') ∧ a.Done w w' := by
  rcases a.perform_cases hlinked with ⟨e, he, -⟩ | ⟨-, hdone⟩
  · rw [he] at h
    cases h
  · exact hdone

/-- A write answers the same before and after another one. -/
theorem perform_after (hw : w.WellFormed) (a b : Write) :
    (a.operation.perform (b.operation.perform w).2).1 =
      (a.operation.perform w).1 := by
  cases hb : b.refusal? w with
  | some e => rw [perform_of_refusal? hw.linked hb]
  | none =>
      obtain ⟨-, w₂, hperform, hdone⟩ :=
        perform_of_refusal?_eq_none hw.linked hb
      have hlinked : w₂.library.Linked := by
        have hafter := (hw.perform b.operation).linked
        rw [hperform] at hafter
        exact hafter
      have hsame := hdone.refusal? a
      rw [hperform]
      cases ha : a.refusal? w with
      | some e =>
          rw [perform_of_refusal? hw.linked ha,
            perform_of_refusal? hlinked (hsame.trans ha)]
      | none =>
          obtain ⟨-, w₁, hfirst, -⟩ := perform_of_refusal?_eq_none hw.linked ha
          obtain ⟨-, w₂₁, hsecond, -⟩ :=
            perform_of_refusal?_eq_none hlinked (hsame.trans ha)
          rw [hfirst, hsecond]

theorem perform_comm (hw : w.WellFormed) (h : a.place ≠ b.place) :
    (b.operation.perform (a.operation.perform w).2).2 =
      (a.operation.perform (b.operation.perform w).2).2 := by
  have hlinked (c : Write) : (c.operation.perform w).2.library.Linked :=
    (hw.perform c.operation).linked
  have hlinkeda := hlinked a
  have hlinkedb := hlinked b
  cases ha : a.refusal? w with
  | some e =>
      rw [perform_of_refusal? hw.linked ha]
      cases hb : b.refusal? w with
      | some e' =>
          rw [perform_of_refusal? hw.linked hb,
            perform_of_refusal? hw.linked ha]
      | none =>
          obtain ⟨-, w₂, hperform, hdone⟩ :=
            perform_of_refusal?_eq_none hw.linked hb
          rw [hperform] at hlinkedb ⊢
          rw [perform_of_refusal? hlinkedb ((hdone.refusal? a).trans ha)]
  | none =>
      obtain ⟨hfitsa, w₁, hpa, hda⟩ := perform_of_refusal?_eq_none hw.linked ha
      rw [hpa] at hlinkeda ⊢
      cases hb : b.refusal? w with
      | some e =>
          rw [perform_of_refusal? hw.linked hb, hpa,
            perform_of_refusal? hlinkeda ((hda.refusal? b).trans hb)]
      | none =>
          obtain ⟨hfitsb, w₂, hpb, hdb⟩ :=
            perform_of_refusal?_eq_none hw.linked hb
          rw [hpb] at hlinkedb ⊢
          obtain ⟨-, w₁₂, hpab, hdab⟩ :=
            perform_of_refusal?_eq_none hlinkeda ((hda.refusal? b).trans hb)
          obtain ⟨-, w₂₁, hpba, hdba⟩ :=
            perform_of_refusal?_eq_none hlinkedb ((hdb.refusal? a).trans ha)
          rw [hpab, hpba]
          exact hda.comm hdab hdb hdba hfitsa hfitsb h

end Write

/-- In every workspace that is built from the empty one, two writes to different
places may be made in either order: the workspace is the same after both, and
each is taken, or refused for the same reason, whether it is made first or
second. -/
theorem Workspace.writes_commute (ops : List Operation) {a b : Write}
    (h : a.place ≠ b.place) :
    (b.operation.perform (a.operation.perform (Workspace.empty.run ops)).2).2 =
        (a.operation.perform
          (b.operation.perform (Workspace.empty.run ops)).2).2 ∧
      (a.operation.perform
        (b.operation.perform (Workspace.empty.run ops)).2).1 =
        (a.operation.perform (Workspace.empty.run ops)).1 ∧
      (b.operation.perform
        (a.operation.perform (Workspace.empty.run ops)).2).1 =
        (b.operation.perform (Workspace.empty.run ops)).1 := by
  have hw := wellFormed_empty.run ops
  exact ⟨Write.perform_comm hw h, Write.perform_after hw a b,
    Write.perform_after hw b a⟩

/-- A colour for the title of the parent. -/
def whiteTitle : Write := ⟨"wide", "title", .color, .color .white, .all⟩

/-- Another for the title of the child. -/
def blackTitle : Write := ⟨"tall", "title", .color, .color .black, .all⟩

theorem titleRun_writes_commute :
    (blackTitle.operation.perform
          (whiteTitle.operation.perform (Workspace.empty.run titleRun)).2).2 =
        (whiteTitle.operation.perform
          (blackTitle.operation.perform (Workspace.empty.run titleRun)).2).2 ∧
      (whiteTitle.operation.perform
          (blackTitle.operation.perform (Workspace.empty.run titleRun)).2).1 =
        (whiteTitle.operation.perform (Workspace.empty.run titleRun)).1 ∧
      (blackTitle.operation.perform
          (whiteTitle.operation.perform (Workspace.empty.run titleRun)).2).1 =
        (blackTitle.operation.perform (Workspace.empty.run titleRun)).1 :=
  Workspace.writes_commute titleRun (by decide)

end Placard
