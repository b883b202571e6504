import Placard.Proofs.Template.Edits

/-!
# Children and parents belong together

Whose child a template is stands in two tables, one from the child to its parent
and one from the parent to its children, beside the table of the templates
themselves. They say the same thing: a child in the one is in the list of its
parent in the other, once, and both are there.

Most operations change what templates are like and not which there are. `Edits`
says that of a library, as it does of a template, and the links are kept by it
for the reason that they do not look into the templates. Only making and
removing templates has to be looked at in detail.
-/

namespace Placard

/-- What the loss of a layer of the parent does to one child. -/
def Workspace.dropFromChild (key : String) (w : Workspace) (c : String) :
    Workspace where
  library :=
    match w.library.get? c with
    | some t =>
      if w.overrides.isLayerOverridden c key then w.library
      else w.library.put c (t.dropLayer key)
    | none => w.library
  overrides := w.overrides.clearLayer c key

theorem Workspace.dropFromChildren_cons (key : String) (w : Workspace)
    (c : String) (rest : List String) :
    w.dropFromChildren key (c :: rest) =
      (w.dropFromChild key c).dropFromChildren key rest :=
  rfl

namespace Library

variable {lib lib' : Library} {id id' c p : String} {t t' : Template}

theorem get?_put (lib : Library) (id : String) (t : Template) (id' : String) :
    (lib.put id t).get? id' = if id = id' then some t else lib.get? id' :=
  Table.get?_insert _ _ _ _

theorem get?_put_self (lib : Library) (id : String) (t : Template) :
    (lib.put id t).get? id = some t := by
  rw [get?_put, if_pos rfl]

theorem get?_put_of_ne (h : id' ≠ id) :
    (lib.put id t).get? id' = lib.get? id' := by
  rw [get?_put, if_neg (Ne.symm h)]

/-- To put a template where it is changes nothing. -/
theorem put_self (h : lib.get? id = some t) : lib.put id t = lib := by
  have htemplates : lib.templates.insert id t = lib.templates := by
    ext id' : 1
    rw [Table.get?_insert]
    split
    · next heq => exact (heq ▸ h).symm
    · rfl
  rw [put, htemplates]

theorem contains_of_get? (h : lib.get? id = some t) :
    lib.contains id = true := by
  rw [contains, Table.contains]
  exact Option.isSome_iff_exists.mpr ⟨t, h⟩

theorem exists_get? (h : lib.contains id = true) : ∃ t, lib.get? id = some t :=
  Option.isSome_iff_exists.mp h

theorem get?_eq_none_iff : lib.get? id = none ↔ lib.contains id = false := by
  rw [contains, Table.contains, Option.isSome_eq_false_iff,
    Option.isNone_iff_eq_none, get?]

/-! ## Libraries that differ in what their templates are like -/

/-- What editing templates can make of a library. -/
structure Edits (lib lib' : Library) : Prop where
  parents : lib'.parents = lib.parents
  children : lib'.children = lib.children
  templates : ∀ id, Option.Rel Template.Edits (lib.get? id) (lib'.get? id)

theorem Edits.refl (lib : Library) : lib.Edits lib where
  parents := rfl
  children := rfl
  templates := fun id => by
    cases lib.get? id with
    | none => exact .none
    | some t => exact .some (.refl t)

theorem Edits.trans {lib₁ lib₂ lib₃ : Library} (h : lib₁.Edits lib₂)
    (h' : lib₂.Edits lib₃) : lib₁.Edits lib₃ where
  parents := h'.parents.trans h.parents
  children := h'.children.trans h.children
  templates := fun id => by
    have hfirst := h.templates id
    have hsecond := h'.templates id
    generalize lib₁.get? id = t₁ at hfirst ⊢
    generalize lib₂.get? id = t₂ at hfirst hsecond
    generalize lib₃.get? id = t₃ at hsecond ⊢
    cases hfirst with
    | none =>
        cases hsecond
        exact .none
    | some hfirst =>
        cases hsecond with
        | some hsecond => exact .some (hfirst.trans hsecond)

theorem Edits.put (ht : lib.get? id = some t) (h : t.Edits t') :
    lib.Edits (lib.put id t') where
  parents := rfl
  children := rfl
  templates := fun id' => by
    rw [get?_put]
    split
    · next heq =>
        rw [← heq, ht]
        exact .some h
    · exact (Edits.refl lib).templates id'

/-! ## Templates that are revised where they are -/

/-- The library with the template under an id made into another, if there is
one. -/
def revise (f : Template → Template) (lib : Library) (id : String) : Library :=
  match lib.get? id with
  | some t => lib.put id (f t)
  | none => lib

/-- The library with templates revised one after the other. -/
def reviseAll (f : Template → Template) (lib : Library) (ids : List String) :
    Library :=
  ids.foldl (revise f) lib

theorem revise_of_none {f : Template → Template} (h : lib.get? id = none) :
    lib.revise f id = lib := by
  rw [revise, h]

theorem revise_of_some {f : Template → Template} (h : lib.get? id = some t) :
    lib.revise f id = lib.put id (f t) := by
  rw [revise, h]

theorem reviseAll_cons (f : Template → Template) (lib : Library) (id : String)
    (rest : List String) :
    lib.reviseAll f (id :: rest) = (lib.revise f id).reviseAll f rest :=
  rfl

theorem get?_revise_self (f : Template → Template) (lib : Library)
    (id : String) : (lib.revise f id).get? id = (lib.get? id).map f := by
  cases h : lib.get? id with
  | none => rw [revise_of_none h, h, Option.map_none]
  | some t => rw [revise_of_some h, get?_put_self, Option.map_some]

theorem get?_revise_of_ne {f : Template → Template} (h : id' ≠ id) :
    (lib.revise f id).get? id' = lib.get? id' := by
  cases ht : lib.get? id with
  | none => rw [revise_of_none ht]
  | some t => rw [revise_of_some ht, get?_put_of_ne h]

theorem edits_revise {f : Template → Template}
    (hf : ∀ t : Template, t.Edits (f t)) (lib : Library) (id : String) :
    lib.Edits (lib.revise f id) := by
  cases h : lib.get? id with
  | none =>
      rw [revise_of_none h]
      exact .refl lib
  | some t =>
      rw [revise_of_some h]
      exact .put h (hf t)

theorem edits_reviseAll {f : Template → Template}
    (hf : ∀ t : Template, t.Edits (f t)) (lib : Library) (ids : List String) :
    lib.Edits (lib.reviseAll f ids) := by
  induction ids generalizing lib with
  | nil => exact .refl lib
  | cons id rest ih => exact .trans (edits_revise hf lib id) (ih _)

/-- A template that takes the value is written to, and no other changes. -/
theorem fst_writeAll (layer : String) (p : Property) (v : Value) (lib : Library)
    (ids : List String) :
    (lib.writeAll layer p v ids).1 =
      lib.reviseAll (fun t => (t.set layer p v).toOption.getD t) ids := by
  induction ids generalizing lib with
  | nil => rfl
  | cons id rest ih =>
      rw [writeAll, reviseAll_cons]
      split
      · next h => rw [ih, revise_of_none h]
      · next t h =>
          rw [revise_of_some h]
          split
          · next hset =>
              rw [ih, hset, Except.toOption, Option.getD_none, put_self h]
          · next t' hset =>
              rw [hset, Except.toOption, Option.getD_some]
              exact ih _

/-- A template with no layer of the key is given the layer, and no other
changes. -/
theorem fst_pushAll (l : Layer) (lib : Library) (ids : List String) :
    (lib.pushAll l ids).1 =
      lib.reviseAll (fun t => if t.hasLayer l.key then t else t.pushLayer l)
        ids := by
  induction ids generalizing lib with
  | nil => rfl
  | cons id rest ih =>
      rw [pushAll, reviseAll_cons]
      split
      · next h => rw [ih, revise_of_none h]
      · next t h =>
          rw [revise_of_some h]
          split
          · rw [ih, put_self h]
          · exact ih _

theorem edits_writeAll (layer : String) (p : Property) (v : Value)
    (lib : Library) (ids : List String) :
    lib.Edits (lib.writeAll layer p v ids).1 := by
  rw [fst_writeAll]
  refine edits_reviseAll (fun t => ?_) lib ids
  cases hset : t.set layer p v with
  | error e => exact .refl t
  | ok u => exact .set hset

theorem edits_pushAll (l : Layer) (lib : Library) (ids : List String) :
    lib.Edits (lib.pushAll l ids).1 := by
  rw [fst_pushAll]
  refine edits_reviseAll (fun t => ?_) lib ids
  split
  · exact .refl t
  · next hnew => exact .push (Bool.not_eq_true _ ▸ hnew)

theorem library_dropFromChild (key : String) (w : Workspace) (c : String) :
    (w.dropFromChild key c).library =
      w.library.revise
        (fun t => if w.overrides.isLayerOverridden c key then t else
          t.dropLayer key) c := by
  unfold Workspace.dropFromChild
  cases h : w.library.get? c with
  | none => rw [revise_of_none h]
  | some t =>
      rw [revise_of_some h]
      dsimp only
      split
      · rw [put_self h]
      · rfl

theorem edits_dropFromChild (key : String) (w : Workspace) (c : String) :
    w.library.Edits (w.dropFromChild key c).library := by
  rw [library_dropFromChild]
  refine edits_revise (fun t => ?_) _ c
  split
  · exact .refl t
  · exact .drop t key

theorem edits_dropFromChildren (key : String) (w : Workspace)
    (children : List String) :
    w.library.Edits (w.dropFromChildren key children).library := by
  induction children generalizing w with
  | nil => exact .refl _
  | cons c rest ih =>
      rw [Workspace.dropFromChildren_cons]
      exact .trans (edits_dropFromChild key w c) (ih _)

theorem Edits.get?_eq_some (h : lib.Edits lib') (ht' : lib'.get? id = some t') :
    ∃ t, lib.get? id = some t ∧ t.Edits t' := by
  have hrel := h.templates id
  rw [ht'] at hrel
  generalize lib.get? id = found at hrel
  cases hrel with
  | some hedits => exact ⟨_, rfl, hedits⟩

theorem Edits.contains_eq (h : lib.Edits lib') (id : String) :
    lib'.contains id = lib.contains id := by
  have hrel := h.templates id
  show (lib'.get? id).isSome = (lib.get? id).isSome
  generalize lib.get? id = found at hrel ⊢
  generalize lib'.get? id = found' at hrel ⊢
  cases hrel <;> rfl

theorem Edits.parentOf?_eq (h : lib.Edits lib') (id : String) :
    lib'.parentOf? id = lib.parentOf? id := by
  rw [parentOf?, h.parents, parentOf?]

theorem Edits.childrenOf_eq (h : lib.Edits lib') (id : String) :
    lib'.childrenOf id = lib.childrenOf id := by
  rw [childrenOf, h.children, childrenOf]

theorem Edits.isParent_eq (h : lib.Edits lib') (id : String) :
    lib'.isParent id = lib.isParent id := by
  rw [isParent, h.contains_eq, h.parents, isParent]

/-! ## Links -/

/-- Every template is kept under its own id, and what stands in the two tables
of links goes together and is about templates that are there. -/
structure Linked (lib : Library) : Prop where
  named : ∀ id t, lib.get? id = some t → t.id = id
  /-- A child is there, and so is its parent, which is no child and lists it
  once. -/
  child : ∀ c p, lib.parentOf? c = some p →
    lib.contains c = true ∧ lib.isParent p = true ∧
      (lib.childrenOf p).count c = 1
  listed : ∀ p c, c ∈ lib.childrenOf p → lib.parentOf? c = some p

theorem isParent_iff :
    lib.isParent id = true ↔
      lib.contains id = true ∧ lib.parentOf? id = none := by
  rw [isParent, Bool.and_eq_true, Bool.not_eq_true', Table.contains,
    Option.isSome_eq_false_iff, Option.isNone_iff_eq_none, parentOf?]

theorem parentOf?_of_not_isParent (h : lib.contains id = true)
    (hnot : lib.isParent id = false) : ∃ p, lib.parentOf? id = some p := by
  refine Option.isSome_iff_exists.mp ?_
  rw [isParent, h, Bool.true_and, Bool.not_eq_false'] at hnot
  exact hnot

namespace Linked

theorem edits (hlinked : lib.Linked) (h : lib.Edits lib') : lib'.Linked where
  named := fun id t' ht' => by
    obtain ⟨t, ht, hedits⟩ := h.get?_eq_some ht'
    rw [hedits.id_eq, hlinked.named id t ht]
  child := fun c p hp => by
    rw [h.parentOf?_eq] at hp
    rw [h.contains_eq, h.isParent_eq, h.childrenOf_eq]
    exact hlinked.child c p hp
  listed := fun p c hc => by
    rw [h.childrenOf_eq] at hc
    rw [h.parentOf?_eq]
    exact hlinked.listed p c hc

theorem exists_child (hlinked : lib.Linked) (h : lib.parentOf? c = some p) :
    ∃ t, lib.get? c = some t :=
  exists_get? (hlinked.child c p h).1

theorem isParent (hlinked : lib.Linked) (h : lib.parentOf? c = some p) :
    lib.isParent p = true :=
  (hlinked.child c p h).2.1

theorem exists_parent (hlinked : lib.Linked) (h : lib.parentOf? c = some p) :
    ∃ t, lib.get? p = some t :=
  exists_get? (isParent_iff.mp (hlinked.isParent h)).1

theorem parentOf?_parent (hlinked : lib.Linked) (h : lib.parentOf? c = some p) :
    lib.parentOf? p = none :=
  (isParent_iff.mp (hlinked.isParent h)).2

theorem ne_parent (hlinked : lib.Linked) (h : lib.parentOf? c = some p) :
    c ≠ p := by
  rintro rfl
  have hnone := hlinked.parentOf?_parent h
  rw [h] at hnone
  cases hnone

theorem mem_childrenOf (hlinked : lib.Linked) :
    c ∈ lib.childrenOf p ↔ lib.parentOf? c = some p := by
  refine ⟨hlinked.listed p c, fun h => ?_⟩
  rw [← List.count_pos_iff, (hlinked.child c p h).2.2]
  exact Nat.one_pos

theorem nodup_childrenOf (hlinked : lib.Linked) (p : String) :
    (lib.childrenOf p).Nodup := by
  rw [List.nodup_iff_count_le_one]
  intro c
  by_cases hc : c ∈ lib.childrenOf p
  · exact Nat.le_of_eq (hlinked.child c p (hlinked.listed p c hc)).2.2
  · rw [List.count_eq_zero_of_not_mem hc]
    exact Nat.zero_le 1

theorem not_mem_own_children (hlinked : lib.Linked) (p : String) :
    p ∉ lib.childrenOf p :=
  fun h => hlinked.ne_parent (hlinked.listed p p h) rfl

theorem parentOf?_eq_none (hlinked : lib.Linked) (h : lib.contains c = false) :
    lib.parentOf? c = none := by
  cases hp : lib.parentOf? c with
  | none => rfl
  | some p =>
      rw [(hlinked.child c p hp).1] at h
      cases h

theorem contains_familyOf (hlinked : lib.Linked) (h : lib.contains id = true) :
    lib.contains (lib.familyOf id) = true := by
  rw [familyOf]
  cases hp : lib.parentOf? id with
  | none => exact h
  | some p => exact (isParent_iff.mp (hlinked.isParent hp)).1

theorem childrenOf_eq_nil (hlinked : lib.Linked) (h : lib.contains p = false) :
    lib.childrenOf p = [] := by
  refine List.eq_nil_iff_forall_not_mem.mpr fun c hc => ?_
  have hcontains :=
    (isParent_iff.mp (hlinked.isParent (hlinked.listed p c hc))).1
  rw [h] at hcontains
  cases hcontains

end Linked

theorem linked_empty : (∅ : Library).Linked where
  named := fun _ _ h => by cases h
  child := fun _ _ h => by cases h
  listed := fun _ _ h => by cases h

/-! ## Making and removing templates -/

/-- What registering a parent does to a library. -/
structure AddsParent (lib : Library) (t : Template) (lib' : Library) :
    Prop where
  fresh : lib.contains t.id = false
  get? : ∀ id, lib'.get? id = if t.id = id then some t else lib.get? id
  parentOf? : ∀ id, lib'.parentOf? id = lib.parentOf? id
  childrenOf : ∀ id,
    lib'.childrenOf id = if t.id = id then [] else lib.childrenOf id

theorem AddsParent.get?_eq_some {u : Template} (h : lib.AddsParent t lib')
    (hu : lib.get? id = some u) : lib'.get? id = some u := by
  rw [h.get?, if_neg, hu]
  rintro rfl
  have hfresh := h.fresh
  rw [contains_of_get? hu] at hfresh
  cases hfresh

theorem AddsParent.get?_cases {u : Template} (h : lib.AddsParent t lib')
    (hu : lib'.get? id = some u) : u = t ∨ lib.get? id = some u := by
  rw [h.get?] at hu
  split at hu
  · exact Or.inl (Option.some.inj hu).symm
  · exact Or.inr hu

theorem addsParent (h : lib.addParent t = .ok lib') :
    lib.AddsParent t lib' := by
  unfold addParent at h
  split at h
  · cases h
  · next hnew =>
      cases h
      refine ⟨Bool.not_eq_true _ ▸ hnew, fun _ => Table.get?_insert _ _ _ _,
        fun _ => rfl, fun id => ?_⟩
      simp only [Library.childrenOf, Table.get?_insert]
      split <;> rfl

/-- What making a child of a parent does to a library. -/
structure AddsChild (lib : Library) (p id : String) (parent child : Template)
    (lib' : Library) : Prop where
  isParent : lib.isParent p = true
  parent : lib.get? p = some parent
  fresh : lib.contains id = false
  get? : ∀ q, lib'.get? q = if id = q then some child else lib.get? q
  parentOf? : ∀ q, lib'.parentOf? q = if id = q then some p else lib.parentOf? q
  childrenOf : ∀ q,
    lib'.childrenOf q =
      if p = q then lib.childrenOf p ++ [id] else lib.childrenOf q

theorem AddsChild.ne_of_get? {parent child u : Template} {q : String}
    (h : lib.AddsChild p id parent child lib') (hu : lib.get? q = some u) :
    id ≠ q := by
  rintro rfl
  have hfresh := h.fresh
  rw [contains_of_get? hu] at hfresh
  cases hfresh

theorem AddsChild.get?_eq_some {parent child u : Template} {q : String}
    (h : lib.AddsChild p id parent child lib') (hu : lib.get? q = some u) :
    lib'.get? q = some u := by
  rw [h.get?, if_neg (h.ne_of_get? hu), hu]

theorem AddsChild.get?_cases {parent child u : Template} {q : String}
    (h : lib.AddsChild p id parent child lib') (hu : lib'.get? q = some u) :
    u = child ∨ lib.get? q = some u := by
  rw [h.get?] at hu
  split at hu
  · exact Or.inl (Option.some.inj hu).symm
  · exact Or.inr hu

theorem exists_addsChild {canvas? : Option Size}
    (h : lib.createChild p id canvas? = .ok lib') :
    ∃ parent, lib.AddsChild p id parent (childTemplate parent id canvas?)
      lib' := by
  unfold createChild at h
  split at h
  · cases h
  · next hparent =>
      split at h
      · cases h
      · next parent ht =>
          split at h
          · cases h
          · next hnew =>
              cases h
              refine ⟨parent, ?_, ht, Bool.not_eq_true _ ▸ hnew,
                fun _ => Table.get?_insert _ _ _ _, fun _ =>
                  Table.get?_insert _ _ _ _,
                fun q => ?_⟩
              · rw [Bool.not_eq_true] at hparent
                rw [Library.isParent, contains_of_get? ht, hparent]
                rfl
              · simp only [Library.childrenOf, Table.get?_insert]
                split <;> rfl

theorem id_childTemplate (parent : Template) (id : String)
    (canvas? : Option Size) : (childTemplate parent id canvas?).id = id := by
  unfold childTemplate
  cases canvas? <;> rfl

theorem layers_childTemplate (parent : Template) (id : String)
    (canvas? : Option Size) :
    (childTemplate parent id canvas?).layers = parent.layers := by
  unfold childTemplate
  cases canvas? <;> rfl

theorem background_childTemplate (parent : Template) (id : String)
    (canvas? : Option Size) :
    (childTemplate parent id canvas?).background = parent.background := by
  unfold childTemplate
  cases canvas? <;> rfl

theorem one_le_max (n : UInt32) : 1 ≤ max 1 n := by
  show 1 ≤ if 1 ≤ n then n else 1
  split
  · assumption
  · exact UInt32.le_refl 1

theorem sound_childTemplate {parent : Template} (h : parent.Sound) (id : String)
    (canvas? : Option Size) : (childTemplate parent id canvas?).Sound := by
  refine ⟨?_, ?_, ?_⟩
  · unfold childTemplate
    cases canvas? with
    | none => exact h.width
    | some size => exact one_le_max size.width
  · unfold childTemplate
    cases canvas? with
    | none => exact h.height
    | some size => exact one_le_max size.height
  · rw [Template.DistinctKeys, Template.keys, layers_childTemplate]
    exact h.keys

theorem Linked.addsParent (hlinked : lib.Linked) (h : lib.AddsParent t lib') :
    lib'.Linked := by
  have hcontains {id : String} (hid : lib.contains id = true) :
      lib'.contains id = true := by
    obtain ⟨u, hu⟩ := exists_get? hid
    exact contains_of_get? (h.get?_eq_some hu)
  have hchildren (id : String) : lib'.childrenOf id = lib.childrenOf id := by
    rw [h.childrenOf]
    split
    · next heq => rw [← heq, hlinked.childrenOf_eq_nil h.fresh]
    · rfl
  constructor
  case named =>
    intro id u hu
    rw [h.get?] at hu
    split at hu
    · next heq =>
        cases hu
        exact heq
    · exact hlinked.named id u hu
  case child =>
    intro c p hp
    rw [h.parentOf?] at hp
    obtain ⟨hc, hparent, hcount⟩ := hlinked.child c p hp
    rw [isParent_iff] at hparent ⊢
    rw [h.parentOf?, hchildren]
    exact ⟨hcontains hc, ⟨hcontains hparent.1, hparent.2⟩, hcount⟩
  case listed =>
    intro p c hc
    rw [hchildren] at hc
    rw [h.parentOf?]
    exact hlinked.listed p c hc

theorem Linked.addsChild (hlinked : lib.Linked) {parent child : Template}
    (h : lib.AddsChild p id parent child lib') (hid : child.id = id) :
    lib'.Linked := by
  obtain ⟨hcontains, horphan⟩ := isParent_iff.mp h.isParent
  have hfresh {q : String} (hq : lib.contains q = true) : id ≠ q := by
    obtain ⟨u, hu⟩ := exists_get? hq
    exact h.ne_of_get? hu
  have hunlisted (q : String) : id ∉ lib.childrenOf q := fun hmem =>
    hfresh (hlinked.child id q (hlinked.listed q id hmem)).1 rfl
  have hkept {q : String} (hq : lib.contains q = true) :
      lib'.contains q = true ∧ lib'.parentOf? q = lib.parentOf? q := by
    obtain ⟨u, hu⟩ := exists_get? hq
    exact ⟨contains_of_get? (h.get?_eq_some hu),
      by rw [h.parentOf?, if_neg (hfresh hq)]⟩
  constructor
  case named =>
    intro q u hu
    rw [h.get?] at hu
    split at hu
    · next heq =>
        cases hu
        rw [hid, heq]
    · exact hlinked.named q u hu
  case child =>
    intro c q hq
    rw [h.parentOf?] at hq
    rw [isParent_iff]
    split at hq
    · next heq =>
        cases hq
        subst heq
        have hnew := h.get? id
        rw [if_pos rfl] at hnew
        refine ⟨contains_of_get? hnew,
          ⟨(hkept hcontains).1, (hkept hcontains).2.trans horphan⟩, ?_⟩
        rw [h.childrenOf, if_pos rfl, List.count_append,
          List.count_eq_zero_of_not_mem (hunlisted p),
          List.count_singleton_self]
    · next hne =>
        obtain ⟨hc, hparent, hcount⟩ := hlinked.child c q hq
        rw [isParent_iff] at hparent
        refine ⟨(hkept hc).1,
          ⟨(hkept hparent.1).1, (hkept hparent.1).2.trans hparent.2⟩, ?_⟩
        rw [h.childrenOf]
        split
        · next heq =>
            subst heq
            rw [List.count_append, hcount, List.count_singleton,
              beq_eq_false_iff_ne.mpr hne]
            rfl
        · exact hcount
  case listed =>
    intro q c hc
    rw [h.childrenOf] at hc
    rw [h.parentOf?]
    split at hc
    · next heq =>
        subst heq
        rcases List.mem_append.mp hc with hc | hc
        · rw [if_neg fun heq => hunlisted p (by rw [heq]; exact hc)]
          exact hlinked.listed p c hc
        · rw [if_pos (List.mem_singleton.mp hc).symm]
    · rw [if_neg fun heq => hunlisted q (by rw [heq]; exact hc)]
      exact hlinked.listed q c hc

theorem childrenOf_detach (lib : Library) (c p q : String) :
    ((lib.detach c p).discard c).childrenOf q =
      if p = q then (lib.childrenOf p).filter fun s => s ≠ c
      else lib.childrenOf q := by
  unfold childrenOf discard detach
  simp only [Table.get?_alter]
  split
  · cases lib.children.get? p with
    | none => rfl
    | some siblings => rfl
  · rfl

theorem parentOf?_detach (lib : Library) (c p q : String) :
    ((lib.detach c p).discard c).parentOf? q = if c =
      q then none else lib.parentOf? q :=
  Table.get?_erase _ _ _

theorem get?_detach (lib : Library) (c p q : String) :
    ((lib.detach c p).discard c).get? q = if c = q then none else lib.get? q :=
  Table.get?_erase _ _ _

theorem get?_of_detach {q : String}
    (h : ((lib.detach c p).discard c).get? q = some t) :
    lib.get? q = some t := by
  rw [get?_detach] at h
  split at h
  · cases h
  · exact h

theorem contains_detach_of_ne (h : id ≠ c) :
    ((lib.detach c p).discard c).contains id = lib.contains id := by
  show (((lib.detach c p).discard c).get? id).isSome = (lib.get? id).isSome
  rw [get?_detach, if_neg (Ne.symm h)]

theorem Linked.removeChild (hlinked : lib.Linked)
    (h : lib.parentOf? c = some p) : ((lib.detach c p).discard c).Linked := by
  constructor
  case named => exact fun id t ht => hlinked.named id t (get?_of_detach ht)
  case child =>
    intro d q hq
    rw [parentOf?_detach] at hq
    split at hq
    · cases hq
    · next hne =>
        obtain ⟨hd, hqparent, hcount⟩ := hlinked.child d q hq
        have hqne : q ≠ c := by
          rintro rfl
          rw [(isParent_iff.mp hqparent).2] at h
          cases h
        rw [isParent_iff] at hqparent ⊢
        rw [contains_detach_of_ne (Ne.symm hne), contains_detach_of_ne hqne,
          parentOf?_detach, if_neg (Ne.symm hqne), childrenOf_detach]
        refine ⟨hd, hqparent, ?_⟩
        split
        · next heq =>
            subst heq
            rw [List.count_filter (by simpa using Ne.symm hne)]
            exact hcount
        · exact hcount
  case listed =>
    intro q d hd
    rw [childrenOf_detach] at hd
    rw [parentOf?_detach]
    split at hd
    · next heq =>
        subst heq
        obtain ⟨hmem, hne⟩ := List.mem_filter.mp hd
        rw [if_neg fun heq => of_decide_eq_true hne heq.symm]
        exact hlinked.listed p d hmem
    · next hqne =>
        have hlink := hlinked.listed q d hd
        rw [if_neg]
        · exact hlink
        · rintro rfl
          rw [h, Option.some.injEq] at hlink
          exact hqne hlink

end Library

end Placard
