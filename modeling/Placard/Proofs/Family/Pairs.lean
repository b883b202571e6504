import Placard.Proofs.Family.Operations

/-!
# One parent and one child

Most of what is to be said of families is said of a parent and one of its
children: the two templates, and the flags of the child. An operation on a
workspace with any number of families does one of a dozen things to such a pair,
and which one it is depends on the pair alone. `PairStep` lists them. So an
invariant of pairs is proved over the steps of pairs, and holds of every pair in
every workspace that is reached.

A pair comes into being when the child is made, with the templates alike but for
the canvas and with nothing flagged.
-/

namespace Placard

/-! ## Pairs -/

/-- Whether a property is the child's own: it is flagged, or its layer is. -/
def LayerFlags.covers (f : LayerFlags) (p : Property) : Bool :=
  f.whole || f.properties.contains p

theorem Overrides.isOverridden_eq (o : Overrides) (c layer : String)
    (q : Property) :
    o.isOverridden c layer q = (o.flags c layer).covers q := rfl

/-- The flags of a layer that is the child's own as a whole. -/
def LayerFlags.own : LayerFlags := ⟨true, ∅⟩

/-- A parent, one of its children, and the flags of the child. -/
structure Pair where
  parent : Template
  child : Template
  flags : String → LayerFlags

/-- The two templates are parent and child in the workspace. -/
structure Workspace.HasPair (w : Workspace) (p c : String) (x : Pair) :
    Prop where
  link : w.library.parentOf? c = some p
  parent : w.library.get? p = some x.parent
  child : w.library.get? c = some x.child
  flags : w.overrides.flags c = x.flags

/-- The template that an operation edits. -/
def Operation.edits? : Operation → Option String
  | register _ => none
  | createChild _ _ _ _ => none
  | removeChild id => some id
  | setProperty id _ _ _ _ => some id
  | resetProperty id _ _ => some id
  | resyncChild id _ => some id
  | resetLayer id _ => some id
  | deleteLayer id _ => some id
  | addLayer id _ => some id
  | replaceChildLayer id _ => some id

/-- The key that an operation is about. -/
def Operation.key? : Operation → Option String
  | register _ => none
  | createChild _ _ _ _ => none
  | removeChild _ => none
  | setProperty _ layer _ _ _ => some layer
  | resetProperty _ layer _ => some layer
  | resyncChild _ _ => none
  | resetLayer _ key => some key
  | deleteLayer _ key => some key
  | addLayer _ l => some l.key
  | replaceChildLayer _ l => some l.key

open Function in
/-- What operations do to the parent `p` and its child `c`. -/
inductive PairStep (p c : String) : Operation → Pair → Pair → Prop where
  | idle {op : Operation} (hparent : op.edits? ≠ some p)
      (hchild : op.edits? ≠ some c) (x : Pair) : PairStep p c op x x
  | setOfParent {layer : String} {q : Property} {v : Value}
      {toggles : Toggles} {x : Pair} {t : Template}
      (hset : x.parent.set layer q v = .ok t) :
      PairStep p c (.setProperty p layer q v toggles) x { x with
        parent := t
        child :=
          if toggles.inherits layer q && (x.child.part? layer).isSome &&
              !(x.flags layer).covers q then
            (x.child.set layer q v).toOption.getD x.child
          else x.child }
  | setOfChild {layer : String} {q : Property} {v : Value} {toggles : Toggles}
      {x : Pair} {t : Template} (hset : x.child.set layer q v = .ok t) :
      PairStep p c (.setProperty c layer q v toggles) x { x with
        child := t
        flags :=
          if (x.parent.part? layer).isSome && !(x.flags layer).whole then
            update x.flags layer
              { x.flags layer with
                properties := (x.flags layer).properties.insert q }
          else x.flags }
  | resetProperty {layer : String} {q : Property} {v : Value} {x : Pair}
      {t : Template} (hwhole : (x.flags layer).whole = false)
      (hv : x.parent.get? layer q = some v)
      (hset : x.child.set layer q v = .ok t) :
      PairStep p c (.resetProperty c layer q) x { x with
        child := t
        flags := update x.flags layer
          { x.flags layer with
            properties := (x.flags layer).properties.erase q } }
  | resyncChild {toggles : Toggles} {x : Pair}
      {values : List (String × Property × Value)}
      (hvalues : ∀ layer q v, (layer, q, v) ∈ values ↔
        toggles.inherits layer q = true ∧ (x.flags layer).covers q = false ∧
          x.parent.get? layer q = some v) :
      PairStep p c (.resyncChild c toggles) x
        { x with child := (x.child.takeValues values).1 }
  | resetLayer {key : String} {l : Layer} {x : Pair}
      (hl : x.parent.layer? key = some l) :
      PairStep p c (.resetLayer c key) x { x with
        child := x.child.placeLayer l
          ((x.parent.layerIndex? key).getD x.child.layers.length)
        flags := update x.flags key .empty }
  | deleteOfParent {key : String} {x : Pair}
      (hkey : x.parent.hasLayer key = true) :
      PairStep p c (.deleteLayer p key) x {
        parent := x.parent.dropLayer key
        child := if (x.flags key).whole then x.child else x.child.dropLayer key
        flags := update x.flags key .empty }
  | deleteOfChild {key : String} {x : Pair}
      (hkey : x.child.hasLayer key = true) :
      PairStep p c (.deleteLayer c key) x { x with
        child := x.child.dropLayer key
        flags :=
          update x.flags key (if x.parent.hasLayer key then .own else .empty) }
  | addToParent {l : Layer} {x : Pair} (hkey : l.key ≠ canvasKey)
      (hnew : x.parent.hasLayer l.key = false) :
      PairStep p c (.addLayer p l) x { x with
        parent := x.parent.pushLayer l
        child :=
          if x.child.hasLayer l.key then x.child else x.child.pushLayer l }
  | addToChild {l : Layer} {x : Pair} (hkey : l.key ≠ canvasKey)
      (hnew : x.child.hasLayer l.key = false) :
      PairStep p c (.addLayer c l) x { x with child := x.child.pushLayer l }
  | replaceChildLayer {l : Layer} {x : Pair} :
      PairStep p c (.replaceChildLayer c l) x { x with
        child := x.child.placeLayer l x.child.layers.length
        flags :=
          if x.parent.hasLayer l.key then update x.flags l.key .own
          else x.flags }

/-- A step leaves alone what is under other keys than its own. -/
theorem PairStep.frame {p c key key' : String} {op : Operation} {x x' : Pair}
    (hstep : PairStep p c op x x') (hop : op.key? = some key)
    (hne : key' ≠ key) :
    x'.parent.part? key' = x.parent.part? key' ∧
      x'.child.part? key' = x.child.part? key' ∧
      x'.flags key' = x.flags key' := by
  cases hstep with
  | idle => exact ⟨rfl, rfl, rfl⟩
  | @setOfParent _ q v _ _ _ hset =>
      cases hop
      refine ⟨Template.part?_of_set hset hne, ?_, rfl⟩
      dsimp only
      split
      · cases hchild : x.child.set key q v with
        | error e => rw [Except.toOption, Option.getD_none]
        | ok t => exact Template.part?_of_set hchild hne
      · rfl
  | setOfChild hset =>
      cases hop
      refine ⟨rfl, Template.part?_of_set hset hne, ?_⟩
      dsimp only
      split
      · exact Function.update_of_ne hne _ _
      · rfl
  | resetProperty _ _ hset =>
      cases hop
      exact ⟨rfl, Template.part?_of_set hset hne, Function.update_of_ne hne _ _⟩
  | resyncChild => cases hop
  | resetLayer hl =>
      cases hop
      obtain ⟨-, rfl⟩ := mem_of_findLayer? hl
      exact ⟨rfl, Template.part?_placeLayer_of_ne _ (Or.inr hne),
        Function.update_of_ne hne _ _⟩
  | deleteOfParent =>
      cases hop
      refine ⟨Template.part?_dropLayer_of_ne (Or.inr hne), ?_,
        Function.update_of_ne hne _ _⟩
      dsimp only
      split
      · rfl
      · exact Template.part?_dropLayer_of_ne (Or.inr hne)
  | deleteOfChild =>
      cases hop
      exact ⟨rfl, Template.part?_dropLayer_of_ne (Or.inr hne),
        Function.update_of_ne hne _ _⟩
  | addToParent =>
      cases hop
      refine ⟨Template.part?_pushLayer_of_ne (Or.inr hne), ?_, rfl⟩
      dsimp only
      split
      · rfl
      · exact Template.part?_pushLayer_of_ne (Or.inr hne)
  | addToChild =>
      cases hop
      exact ⟨rfl, Template.part?_pushLayer_of_ne (Or.inr hne), rfl⟩
  | replaceChildLayer =>
      cases hop
      refine ⟨rfl, Template.part?_placeLayer_of_ne _ (Or.inr hne), ?_⟩
      dsimp only
      split
      · exact Function.update_of_ne hne _ _
      · rfl

/-- The layers under other keys stay what they are, also one under the key of
the canvas, which as a part is hidden by the canvas. -/
theorem PairStep.frame_layers {p c key key' : String} {op : Operation}
    {x x' : Pair} (hstep : PairStep p c op x x') (hop : op.key? = some key)
    (hne : key' ≠ key) :
    x'.parent.layer? key' = x.parent.layer? key' ∧
      x'.child.layer? key' = x.child.layer? key' := by
  cases hstep with
  | idle => exact ⟨rfl, rfl⟩
  | setOfParent hset =>
      cases hop
      refine ⟨Template.layer?_of_set hset (Or.inl hne), ?_⟩
      dsimp only
      split
      · exact Template.layer?_getD_set (Or.inl hne) _ _ _
      · rfl
  | setOfChild hset | resetProperty _ _ hset =>
      cases hop
      exact ⟨rfl, Template.layer?_of_set hset (Or.inl hne)⟩
  | resyncChild => cases hop
  | resetLayer hl =>
      cases hop
      obtain ⟨-, rfl⟩ := mem_of_findLayer? hl
      exact ⟨rfl, Template.layer?_placeLayer_of_ne _ hne⟩
  | deleteOfParent =>
      cases hop
      refine ⟨Template.layer?_dropLayer_of_ne hne, ?_⟩
      dsimp only
      split
      · rfl
      · exact Template.layer?_dropLayer_of_ne hne
  | deleteOfChild =>
      cases hop
      exact ⟨rfl, Template.layer?_dropLayer_of_ne hne⟩
  | addToParent =>
      cases hop
      refine ⟨Template.layer?_pushLayer_of_ne hne, ?_⟩
      dsimp only
      split
      · rfl
      · exact Template.layer?_pushLayer_of_ne hne
  | addToChild =>
      cases hop
      exact ⟨rfl, Template.layer?_pushLayer_of_ne hne⟩
  | replaceChildLayer =>
      cases hop
      exact ⟨rfl, Template.layer?_placeLayer_of_ne _ hne⟩

/-- Where a step has no key of its own, it changes nothing, or the child takes
values over. -/
theorem PairStep.of_key?_eq_none {p c : String} {op : Operation} {x x' : Pair}
    (hstep : PairStep p c op x x') (hop : op.key? = none) :
    x' = x ∨ ∃ values : List (String × Property × Value),
      (∀ layer q v, (layer, q, v) ∈ values → x.parent.get? layer q = some v) ∧
        x' = { x with child := (x.child.takeValues values).1 } := by
  cases hstep with
  | idle => exact Or.inl rfl
  | resyncChild hvalues =>
      exact Or.inr ⟨_, fun layer q v hmem => ((hvalues layer q v).mp hmem).2.2,
        rfl⟩
  | _ => cases hop

/-- Whatever has flags is a child. -/
def Workspace.FlagsChildren (w : Workspace) : Prop :=
  ∀ c, w.overrides.contains c = true → ∃ p, w.library.parentOf? c = some p

theorem Workspace.FlagsChildren.flags_eq {w : Workspace} {c : String}
    (h : w.FlagsChildren) (hc : w.library.parentOf? c = none) :
    w.overrides.flags c = fun _ => .empty := by
  refine Overrides.flags_of_get?_eq_none ?_
  by_contra hne
  obtain ⟨p, hp⟩ := h c (Option.isSome_iff_ne_none.mpr hne)
  rw [hc] at hp
  cases hp

section Steps

variable {w w' : Workspace} {p c id : String} {x x' : Pair} {op : Operation}

theorem flags_markLayer_clearLayer (o : Overrides) (c key : String) :
    ((o.clearLayer c key).markLayer c key).flags c =
      Function.update (o.flags c) key .own := by
  rw [Overrides.flags_markLayer, Overrides.flags_clearLayer,
    Function.update_idem, Function.update_self]
  rfl

theorem holds_eq {lib : Library} {t : Template} (h : lib.get? id = some t)
    (layer : String) : lib.holds id layer = (t.part? layer).isSome := by
  rw [Library.holds, h, Option.any_some, Template.isSome_part?]

theorem hasLayer_eq {lib : Library} {t : Template} (h : lib.get? id = some t)
    (layer : String) : lib.hasLayer id layer = t.hasLayer layer := by
  rw [Library.hasLayer, h, Option.any_some]

theorem mem_inheritedValues {parent : Template} {o : Overrides}
    {toggles : Toggles} {layer : String} {q : Property} {v : Value} :
    (layer, q, v) ∈ inheritedValues parent o c toggles ↔
      toggles.inherits layer q = true ∧ (o.flags c layer).covers q = false ∧
        parent.get? layer q = some v := by
  unfold inheritedValues
  simp only [List.mem_flatMap, List.mem_filterMap]
  constructor
  · rintro ⟨layer', -, q', -, h⟩
    split at h
    · next htest =>
        obtain ⟨v', hv, heq⟩ := Option.map_eq_some_iff.mp h
        cases heq
        simp only [Bool.and_eq_true, Bool.not_eq_true',
          Overrides.isOverridden_eq] at htest
        exact ⟨htest.1, htest.2, hv⟩
    · cases h
  · rintro ⟨hinherits, hnot, hv⟩
    refine ⟨layer, ?_, q, q.mem_all, ?_⟩
    · unfold Template.get? at hv
      split at hv
      · next hkey => exact hkey ▸ List.mem_cons_self
      · obtain ⟨l, hl, -⟩ := Option.bind_eq_some_iff.mp hv
        refine List.mem_cons_of_mem _ ?_
        rw [← Template.keys, ← Template.hasLayer_iff, Template.hasLayer, hl]
        rfl
    · rw [Overrides.isOverridden_eq, hinherits, hnot, hv]
      rfl

end Steps

theorem mem_propagationTargets {layer : String} {q : Property}
    {children : List String} {o : Overrides} {toggles : Toggles}
    {has : String → Bool} :
    c ∈ propagationTargets layer q children o toggles has ↔
      c ∈ children ∧
        (toggles.inherits layer q && has c && !(o.flags c layer).covers q) =
          true := by
  unfold propagationTargets
  split
  · next h => rw [List.mem_filter, h, Bool.true_and, Overrides.isOverridden_eq]
  · next h => simp [h]

theorem nodup_propagationTargets {children : List String} (h : children.Nodup)
    (layer : String) (q : Property) (o : Overrides) (toggles : Toggles)
    (has : String → Bool) :
    (propagationTargets layer q children o toggles has).Nodup := by
  unfold propagationTargets
  split
  · exact h.filter _
  · exact List.nodup_nil

/-! ## An operation takes a step of every pair -/

namespace Workspace.HasPair

variable {w w' : Workspace} {p c id q : String} {x x' : Pair} {op : Operation}

theorem eq (h : w.HasPair p c x) (h' : w.HasPair p c x') : x = x' := by
  obtain ⟨parent, child, flags⟩ := x
  obtain ⟨parent', child', flags'⟩ := x'
  rw [Pair.mk.injEq]
  exact ⟨Option.some.inj (h.parent.symm.trans h'.parent),
    Option.some.inj (h.child.symm.trans h'.child), h.flags.symm.trans h'.flags⟩

/-- A pair of which neither template is edited stays as it is. -/
theorem frame (hx : w.HasPair p c x)
    (hlink : w'.library.parentOf? c = w.library.parentOf? c)
    (hparent : w'.library.get? p = w.library.get? p)
    (hchild : w'.library.get? c = w.library.get? c)
    (hflags : w'.overrides.flags c = w.overrides.flags c) : w'.HasPair p c x :=
  ⟨hlink.trans hx.link, hparent.trans hx.parent, hchild.trans hx.child,
    hflags.trans hx.flags⟩

/-- Where a child is edited, the pair is that of the child and its parent, or it
stays as it is. -/
theorem put_child {t : Template} {o : Overrides} (hlinked : w.library.Linked)
    (hx : w.HasPair p c x) (hid : w.library.parentOf? id = some q)
    (ho : ∀ d, d ≠ id → o.get? d = w.overrides.get? d) :
    (id ≠ p ∧ id ≠ c ∧ HasPair ⟨w.library.put id t, o⟩ p c x) ∨
      (id = c ∧ q = p ∧
        HasPair ⟨w.library.put id t, o⟩ p c
          { x with child := t, flags := o.flags c }) := by
  have hnotParent : id ≠ p := by
    rintro rfl
    have horphan := hlinked.parentOf?_parent hx.link
    rw [hid] at horphan
    cases horphan
  by_cases hc : id = c
  · subst hc
    have hq : q = p := Option.some.inj (hid.symm.trans hx.link)
    exact Or.inr ⟨rfl, hq, hx.link,
      (Library.get?_put_of_ne (Ne.symm hnotParent)).trans hx.parent,
      Library.get?_put_self _ _ _, rfl⟩
  · exact Or.inl ⟨hnotParent, hc,
      hx.frame rfl (Library.get?_put_of_ne (Ne.symm hnotParent))
      (Library.get?_put_of_ne (Ne.symm hc))
      (Overrides.flags_of_get? (ho c (Ne.symm hc)))⟩

/-- Where a parent is edited along with its children, the pair is that of the
parent and one of them, or none of the templates edited is in it. -/
theorem parent_cases (hlinked : w.library.Linked) (hx : w.HasPair p c x)
    (hid : w.library.isParent id = true) :
    (id ≠ p ∧ id ≠ c ∧ p ∉ w.library.childrenOf id ∧
      c ∉ w.library.childrenOf id) ∨
      (id = p ∧ id ≠ c ∧ p ∉ w.library.childrenOf id ∧
        c ∈ w.library.childrenOf id) := by
  have hnotChild : id ≠ c := by
    rintro rfl
    have horphan := (Library.isParent_iff.mp hid).2
    rw [hx.link] at horphan
    cases horphan
  have hunlisted : p ∉ w.library.childrenOf id := by
    rw [hlinked.mem_childrenOf, hlinked.parentOf?_parent hx.link]
    exact fun h => by cases h
  by_cases hp : id = p
  · subst hp
    exact Or.inr ⟨rfl, hnotChild, hunlisted, hlinked.mem_childrenOf.mpr hx.link⟩
  · refine Or.inl ⟨hp, hnotChild, hunlisted, ?_⟩
    rw [hlinked.mem_childrenOf, hx.link]
    exact fun h => hp (Option.some.inj h).symm

theorem step_of_neither (hop : op.edits? = some id) (hp : id ≠ p)
    (hc : id ≠ c) (x : Pair) : PairStep p c op x x := by
  refine .idle ?_ ?_ x
  · rw [hop]
    exact fun h => hp (Option.some.inj h)
  · rw [hop]
    exact fun h => hc (Option.some.inj h)

/-- The step of a pair where an operation edits a child. -/
theorem step_of_child {t : Template} {o : Overrides}
    (hlinked : w.library.Linked) (hx : w.HasPair p c x)
    (hop : op.edits? = some id) (hid : w.library.parentOf? id = some q)
    (ho : ∀ d, d ≠ id → o.get? d = w.overrides.get? d)
    (hstep : id = c → q = p →
      PairStep p c op x { x with child := t, flags := o.flags c }) :
    ∃ x', HasPair ⟨w.library.put id t, o⟩ p c x' ∧ PairStep p c op x x' := by
  rcases put_child (t := t) hlinked hx hid ho with ⟨hp, hc, hx'⟩ | ⟨hc, hq, hx'⟩
  · exact ⟨x, hx', step_of_neither hop hp hc x⟩
  · exact ⟨_, hx', hstep hc hq⟩

/-- The step of a pair where an operation edits a parent, and children of it. -/
theorem step_of_parent (hlinked : w.library.Linked) (hx : w.HasPair p c x)
    (hop : op.edits? = some id) (hid : w.library.isParent id = true)
    (hframe : id ≠ p → p ∉ w.library.childrenOf id → id ≠ c →
      c ∉ w.library.childrenOf id →
      w'.HasPair p c x)
    (hstep : id = p → p ∉ w.library.childrenOf p → p ≠ c →
      c ∈ w.library.childrenOf p →
      ∃ x', w'.HasPair p c x' ∧ PairStep p c op x x') :
    ∃ x', w'.HasPair p c x' ∧ PairStep p c op x x' := by
  rcases parent_cases hlinked hx hid with
    ⟨hp, hc, hpmem, hcmem⟩ | ⟨rfl, hc, hpmem, hcmem⟩
  · exact ⟨x, hframe hp hpmem hc hcmem, step_of_neither hop hp hc x⟩
  · exact hstep rfl hpmem hc hcmem

theorem step_setOfParent {layer : String} {r : Property} {v : Value}
    {toggles : Toggles} {t t' : Template} (hlinked : w.library.Linked)
    (hx : w.HasPair p c x) (hid : w.library.isParent id = true)
    (ht : w.library.get? id = some t) (hset : t.set layer r v = .ok t') :
    ∃ x', HasPair { w with
        library := ((w.library.put id t').writeAll layer r v
          (propagationTargets layer r (w.library.childrenOf id)
            w.overrides toggles
            fun child => (w.library.put id t').holds child layer)).1 } p c x' ∧
      PairStep p c (.setProperty id layer r v toggles) x x' := by
  have hnodup :=
    nodup_propagationTargets (hlinked.nodup_childrenOf id) layer r w.overrides
      toggles fun child => (w.library.put id t').holds child layer
  have hlink := Library.Edits.parentOf?_eq
    ((w.library.put id t').edits_writeAll layer r v
      (propagationTargets layer r (w.library.childrenOf id) w.overrides toggles
        fun child => (w.library.put id t').holds child layer)) c
  have hget (d : String) :=
    get?_writeAll layer r v hnodup (w.library.put id t') d
  refine step_of_parent hlinked hx rfl hid (fun hp hpmem hc hcmem => ?_) ?_
  · refine hx.frame hlink ((hget p).trans ?_) ((hget c).trans ?_) rfl
    · rw [if_neg fun h => hpmem (mem_propagationTargets.mp h).1,
        Library.get?_put_of_ne (Ne.symm hp)]
    · rw [if_neg fun h => hcmem (mem_propagationTargets.mp h).1,
        Library.get?_put_of_ne (Ne.symm hc)]
  · rintro rfl hpmem hc hcmem
    rw [hx.parent, Option.some.injEq] at ht
    subst ht
    refine ⟨_, ?_, .setOfParent hset⟩
    refine ⟨hlink.trans hx.link, ?_, ?_, hx.flags⟩
    · rw [hget, if_neg fun h => hpmem (mem_propagationTargets.mp h).1,
        Library.get?_put_self]
    · have hchild :=
        (Library.get?_put_of_ne (t := t') (Ne.symm hc)).trans hx.child
      rw [hget, hchild, Option.map_some]
      simp only [mem_propagationTargets, hcmem, true_and, holds_eq hchild,
        hx.flags]
      split <;> rfl

theorem step_deleteOfParent {key : String} {t : Template}
    (hlinked : w.library.Linked) (hx : w.HasPair p c x)
    (hid : w.library.isParent id = true) (ht : w.library.get? id = some t)
    (hkey : t.hasLayer key = true) :
    ∃ x', HasPair (({ w with library := w.library.put id (t.dropLayer key) } :
        Workspace).dropFromChildren key (w.library.childrenOf id)) p c x' ∧
      PairStep p c (.deleteLayer id key) x x' := by
  have hnodup := hlinked.nodup_childrenOf id
  have hlink := (Library.edits_dropFromChildren key
    { w with library := w.library.put id (t.dropLayer key) }
    (w.library.childrenOf id)).parentOf?_eq c
  have hget (d : String) := get?_dropFromChildren key hnodup
    { w with library := w.library.put id (t.dropLayer key) } d
  have hflags (d : String) := flags_dropFromChildren key hnodup
    { w with library := w.library.put id (t.dropLayer key) } d
  refine step_of_parent hlinked hx rfl hid (fun hp hpmem hc hcmem => ?_) ?_
  · refine hx.frame hlink ((hget p).trans ?_) ((hget c).trans ?_)
      ((hflags c).trans (if_neg hcmem))
    · rw [if_neg hpmem, Library.get?_put_of_ne (Ne.symm hp)]
    · rw [if_neg hcmem, Library.get?_put_of_ne (Ne.symm hc)]
  · rintro rfl hpmem hc hcmem
    rw [hx.parent, Option.some.injEq] at ht
    subst ht
    refine ⟨_, ?_, .deleteOfParent hkey⟩
    refine ⟨hlink.trans hx.link, ?_, ?_, ?_⟩
    · rw [hget, if_neg hpmem, Library.get?_put_self]
    · rw [hget, if_pos hcmem, Library.get?_put_of_ne (Ne.symm hc), hx.child,
        Option.map_some, Overrides.isLayerOverridden, hx.flags]
    · rw [hflags, if_pos hcmem, hx.flags]

theorem step_addToParent {l : Layer} {t : Template} (hlinked : w.library.Linked)
    (hx : w.HasPair p c x) (hid : w.library.isParent id = true)
    (ht : w.library.get? id = some t) (hkey : l.key ≠ canvasKey)
    (hnew : t.hasLayer l.key = false) :
    ∃ x', HasPair { w with library :=
        (w.library.pushAll l (w.library.childrenOf id)).1.put id (t.pushLayer l)
          } p c x' ∧
      PairStep p c (.addLayer id l) x x' := by
  have hlink :=
    (w.library.edits_pushAll l (w.library.childrenOf id)).parentOf?_eq c
  have hget (d : String) :=
    get?_pushAll l (hlinked.nodup_childrenOf id) w.library d
  refine step_of_parent hlinked hx rfl hid (fun hp hpmem hc hcmem => ?_) ?_
  · refine hx.frame hlink ?_ ?_ rfl
    · exact (Library.get?_put_of_ne (Ne.symm hp)).trans
        ((hget p).trans (if_neg hpmem))
    · exact (Library.get?_put_of_ne (Ne.symm hc)).trans
        ((hget c).trans (if_neg hcmem))
  · rintro rfl hpmem hc hcmem
    rw [hx.parent, Option.some.injEq] at ht
    subst ht
    refine ⟨_, ?_, .addToParent hkey hnew⟩
    refine ⟨hlink.trans hx.link, Library.get?_put_self _ _ _, ?_, hx.flags⟩
    refine (Library.get?_put_of_ne (Ne.symm hc)).trans ((hget c).trans ?_)
    rw [if_pos hcmem, hx.child, Option.map_some]

/-- A pair that an operation does not take apart takes a step. -/
theorem exists_step (hlinked : w.library.Linked) (hx : w.HasPair p c x)
    (heffect : Effect w op w') (hlive : w'.library.parentOf? c = some p) :
    ∃ x', w'.HasPair p c x' ∧ PairStep p c op x x' := by
  cases heffect with
  | register _ hlib =>
      exact ⟨x, ⟨hlive, hlib.get?_eq_some hx.parent, hlib.get?_eq_some hx.child,
        hx.flags⟩,
        .idle (by simp [Operation.edits?]) (by simp [Operation.edits?]) x⟩
  | createChild hlib =>
      exact ⟨x, ⟨hlive, hlib.get?_eq_some hx.parent, hlib.get?_eq_some hx.child,
        hx.flags⟩,
        .idle (by simp [Operation.edits?]) (by simp [Operation.edits?]) x⟩
  | @removeChild id q hid =>
      have hc : id ≠ c := by
        rintro rfl
        rw [Library.parentOf?_detach, if_pos rfl] at hlive
        cases hlive
      have hp : id ≠ p := by
        rintro rfl
        rw [hlinked.parentOf?_parent hx.link] at hid
        cases hid
      refine ⟨x, hx.frame (hlive.trans hx.link.symm) ?_ ?_ ?_,
        step_of_neither rfl hp hc x⟩
      · exact (Library.get?_detach _ _ _ _).trans (if_neg hp)
      · exact (Library.get?_detach _ _ _ _).trans (if_neg hc)
      · exact Overrides.flags_of_get?
          (Overrides.get?_clearChild_of_ne (Ne.symm hc))
  | setOfParent hid ht hset => exact step_setOfParent hlinked hx hid ht hset
  | deleteOfParent hid ht hkey =>
      exact step_deleteOfParent hlinked hx hid ht hkey
  | addToParent hid ht hkey hnew =>
      exact step_addToParent hlinked hx hid ht hkey hnew
  | setOfChild hid ht hset =>
      refine step_of_child hlinked hx rfl hid (fun d hd => ?_) ?_
      · split
        · exact Overrides.get?_mark_of_ne hd _
        · rfl
      · rintro rfl rfl
        rw [hx.child, Option.some.injEq] at ht
        subst ht
        rw [holds_eq hx.parent, Overrides.isLayerOverridden,
          Overrides.flags_ite, Overrides.flags_mark, hx.flags]
        exact .setOfChild hset
  | resetProperty hid hwhole hu hv ht hset =>
      refine step_of_child hlinked hx rfl hid
        (fun d hd => Overrides.get?_unmark_of_ne hd _) ?_
      rintro rfl rfl
      rw [hx.parent, Option.some.injEq] at hu
      rw [hx.child, Option.some.injEq] at ht
      subst hu ht
      rw [Overrides.isLayerOverridden, hx.flags] at hwhole
      rw [Overrides.flags_unmark, hx.flags]
      exact .resetProperty hwhole hv hset
  | resyncChild hid hu ht =>
      refine step_of_child hlinked hx rfl hid (fun d hd => rfl) ?_
      rintro rfl rfl
      rw [hx.parent, Option.some.injEq] at hu
      rw [hx.child, Option.some.injEq] at ht
      subst hu ht
      rw [hx.flags]
      refine .resyncChild fun layer r v => ?_
      rw [mem_inheritedValues, hx.flags]
  | resetLayer hid hu hl ht =>
      refine step_of_child hlinked hx rfl hid
        (fun d hd => Overrides.get?_clearLayer_of_ne hd) ?_
      rintro rfl rfl
      rw [hx.parent, Option.some.injEq] at hu
      rw [hx.child, Option.some.injEq] at ht
      subst hu ht
      rw [Overrides.flags_clearLayer, hx.flags]
      exact .resetLayer hl
  | deleteOfChild hid ht hkey =>
      refine step_of_child hlinked hx rfl hid (fun d hd => ?_) ?_
      · split
        · exact (Overrides.get?_markLayer_of_ne hd).trans
            (Overrides.get?_clearLayer_of_ne hd)
        · exact Overrides.get?_clearLayer_of_ne hd
      · rintro rfl rfl
        rw [hx.child, Option.some.injEq] at ht
        subst ht
        rw [hasLayer_eq hx.parent, Overrides.flags_ite,
          flags_markLayer_clearLayer, Overrides.flags_clearLayer, ← apply_ite,
          hx.flags]
        exact .deleteOfChild hkey
  | addToChild hid ht hkey hnew =>
      refine step_of_child hlinked hx rfl hid (fun d hd => rfl) ?_
      rintro rfl rfl
      rw [hx.child, Option.some.injEq] at ht
      subst ht
      rw [hx.flags]
      exact .addToChild hkey hnew
  | replaceChildLayer hid ht =>
      refine step_of_child hlinked hx rfl hid (fun d hd => ?_) ?_
      · split
        · exact (Overrides.get?_markLayer_of_ne hd).trans
            (Overrides.get?_clearLayer_of_ne hd)
        · rfl
      · rintro rfl rfl
        rw [hx.child, Option.some.injEq] at ht
        subst ht
        rw [hasLayer_eq hx.parent, Overrides.flags_ite,
          flags_markLayer_clearLayer, hx.flags]
        exact .replaceChildLayer

/-- Where there is a pair after an operation there was one before, of which it
has taken the step, or else the operation has made the child. -/
theorem of_effect (hlinked : w.library.Linked) (hchildren : w.FlagsChildren)
    (heffect : Effect w op w') (hx' : w'.HasPair p c x') :
    (∃ x, w.HasPair p c x ∧ PairStep p c op x x') ∨
      (w.library.isParent p = true ∧ w.library.get? p = some x'.parent ∧
        (∃ canvas?, x'.child = Library.childTemplate x'.parent c canvas?) ∧
        x'.flags = fun _ => .empty) := by
  have hold (hlink : w.library.parentOf? c = some p) :
      ∃ x, w.HasPair p c x ∧ PairStep p c op x x' := by
    obtain ⟨u, hu⟩ := hlinked.exists_parent hlink
    obtain ⟨t, ht⟩ := hlinked.exists_child hlink
    have hx : w.HasPair p c ⟨u, t, w.overrides.flags c⟩ := ⟨hlink, hu, ht, rfl⟩
    obtain ⟨y, hy, hstep⟩ := exists_step hlinked hx heffect hx'.link
    exact ⟨_, hx, hy.eq hx' ▸ hstep⟩
  rcases heffect.library_cases hlinked with
    hedits | ⟨t, -, hadds, -⟩ | ⟨q, id, canvas?, t, hadds, hsame⟩ | ⟨id, q, -,
      hid, rfl⟩
  · exact Or.inl (hold (hedits.parentOf?_eq c ▸ hx'.link))
  · exact Or.inl (hold (hadds.parentOf? c ▸ hx'.link))
  · have hlink := hx'.link
    rw [hadds.parentOf?] at hlink
    split at hlink
    · next hid =>
        subst hid
        obtain rfl : q = p := Option.some.inj hlink
        have hparent := hadds.get?_eq_some hadds.parent
        rw [hx'.parent, Option.some.injEq] at hparent
        have hchild := hadds.get? id
        rw [if_pos rfl, hx'.child, Option.some.injEq] at hchild
        refine Or.inr ⟨hadds.isParent, hparent ▸ hadds.parent,
          ⟨canvas?, hparent ▸ hchild⟩, ?_⟩
        rw [← hx'.flags, hsame]
        exact hchildren.flags_eq (hlinked.parentOf?_eq_none hadds.fresh)
    · exact Or.inl (hold hlink)
  · have hlink := hx'.link
    rw [Library.parentOf?_detach] at hlink
    split at hlink
    · cases hlink
    · exact Or.inl (hold hlink)

end Workspace.HasPair

end Placard
