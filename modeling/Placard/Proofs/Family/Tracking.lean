import Placard.Proofs.Family.WellFormed

/-!
# Children follow their parents

A child shows what its parent shows wherever it is not flagged to be different:
a layer that the parent has and that is not the child's own is in the child too,
is a text or a picture in both, and every property that is not flagged reads the
same in both.

That is so whatever is done to the two, with one reservation for each side.
Where a parent is given a layer that a child has already for itself, the child
keeps its own, and there is no flag to say so. And where a child has been given
a layer under the key of the canvas, deleting that layer deletes the flags of
the canvas.
-/

namespace Placard

/-- A property of the child reads as in the parent. -/
def Pair.Agrees (x : Pair) (key : String) (q : Property) : Prop :=
  (x.child.get? key q).map (Value.normal q) =
    (x.parent.get? key q).map (Value.normal q)

/-- The child follows the parent in what the key addresses. -/
def Pair.FollowsAt (x : Pair) (key : String) : Prop :=
  (x.parent.kind? key).isSome → (x.flags key).whole = false →
    x.child.kind? key = x.parent.kind? key ∧
      ∀ q, Toggles.all.inherits key q = true →
        (x.flags key).properties.contains q = false →
        x.Agrees key q

/-! ## Steps of a pair -/

namespace Pair.FollowsAt

variable {x x' : Pair} {key : String}

theorem congr (h : x.FollowsAt key)
    (hparent : x'.parent.part? key = x.parent.part? key)
    (hchild : x'.child.part? key = x.child.part? key)
    (hflags : x'.flags key = x.flags key) : x'.FollowsAt key := by
  unfold FollowsAt Agrees at h ⊢
  rw [Template.kind?_congr hparent, Template.kind?_congr hchild, hflags]
  simp only [Template.get?_of_part? hparent, Template.get?_of_part? hchild]
  exact h

theorem of_whole (h : (x.flags key).whole = true) : x.FollowsAt key := by
  intro _ hwhole
  rw [h] at hwhole
  cases hwhole

theorem of_own (h : x.flags key = .own) : x.FollowsAt key :=
  of_whole (by rw [h, LayerFlags.own])

theorem of_absent (h : x.parent.part? key = none) : x.FollowsAt key := by
  intro hsome
  rw [Template.isSome_kind?, h] at hsome
  cases hsome

theorem of_same (h : x.child.part? key = x.parent.part? key) :
    x.FollowsAt key :=
  fun _ _ => ⟨Template.kind?_congr h, fun q _ _ => by
    rw [Agrees, Template.get?_of_part? h]⟩

variable {layer : String} {r : Property} {v : Value} {u t : Template}
  {f : String → LayerFlags}

/-- A property written to the parent, and to the child unless that has its
own. -/
theorem setOfParent (h : x.FollowsAt layer)
    (hset : x.parent.set layer r v = .ok u) :
    Pair.FollowsAt ⟨u,
      if Toggles.all.inherits layer r && (x.child.part? layer).isSome &&
          !(x.flags layer).covers r then
        (x.child.set layer r v).toOption.getD x.child
      else x.child, x.flags⟩ layer := by
  intro hsome hwhole
  have hkind := Template.kind?_of_set hset layer
  obtain ⟨-, -, hother⟩ := Template.of_set hset
  rw [hkind] at hsome
  obtain ⟨hsame, hagrees⟩ := h hsome hwhole
  split
  · obtain ⟨t, hchild, hread⟩ := Template.exists_set_same hset hsame
    obtain ⟨-, -, hotherChild⟩ := Template.of_set hchild
    rw [hchild]
    refine ⟨(Template.kind?_of_set hchild layer).trans (hsame.trans hkind.symm),
      fun q hq hfree => ?_⟩
    by_cases hqr : q = r
    · subst hqr
      exact congrArg (Option.map _) hread
    · have hold := hagrees q hq hfree
      rw [Agrees, ← hotherChild q hqr, ← hother q hqr] at hold
      exact hold
  · next hcond =>
      refine ⟨hsame.trans hkind.symm, fun q hq hfree => ?_⟩
      have hqr : q ≠ r := by
        rintro rfl
        refine hcond ?_
        have hpart : (x.child.part? layer).isSome = true := by
          rw [← Template.isSome_kind?, hsame]
          exact hsome
        have hcovers : (x.flags layer).covers q = false := by
          rw [LayerFlags.covers, hwhole, hfree]
          rfl
        rw [hq, hpart, hcovers]
        rfl
      have hold := hagrees q hq hfree
      rw [Agrees, ← hother q hqr] at hold
      exact hold

/-- A property written to the child and flagged. -/
theorem setOfChild (h : x.FollowsAt layer)
    (hset : x.child.set layer r v = .ok t) :
    Pair.FollowsAt ⟨x.parent, t,
      if (x.parent.part? layer).isSome && !(x.flags layer).whole then
        Function.update x.flags layer
          { x.flags layer with
            properties := (x.flags layer).properties.insert r }
      else x.flags⟩ layer := by
  by_cases hown : (x.flags layer).whole = true
  · refine of_whole ?_
    simp [hown]
  · intro hsome hwhole
    rw [Bool.not_eq_true] at hown
    have hcond : ((x.parent.part? layer).isSome && !(x.flags layer).whole) =
        true := by
      rw [← Template.isSome_kind?, hsome, hown]
      rfl
    obtain ⟨hsame, hagrees⟩ := h hsome hown
    obtain ⟨-, -, hother⟩ := Template.of_set hset
    refine ⟨(Template.kind?_of_set hset layer).trans hsame,
      fun q hq hfree => ?_⟩
    simp only [hcond, if_true, Function.update_self,
      PropertySet.contains_insert, Bool.or_eq_false_iff,
      decide_eq_false_iff_not] at hfree
    have hold := hagrees q hq hfree.2
    rw [Agrees, ← hother q hfree.1] at hold
    exact hold

/-- The value of the parent written to the child, whether the flag of the
property stays or goes. -/
theorem writeBack (h : x.FollowsAt layer)
    (hv : x.parent.get? layer r = some v)
    (hset : x.child.set layer r v = .ok t)
    (hwhole : (f layer).whole = (x.flags layer).whole)
    (hfree : ∀ q, q ≠ r →
      (f layer).properties.contains q = (x.flags layer).properties.contains q) :
    Pair.FollowsAt ⟨x.parent, t, f⟩ layer := by
  intro hsome hown
  obtain ⟨hsame, hagrees⟩ := h hsome (hwhole ▸ hown)
  obtain ⟨⟨k, hk, -, hwritten⟩, hread, hother⟩ := Template.of_set hset
  refine ⟨(Template.kind?_of_set hset layer).trans hsame, fun q hq hnot => ?_⟩
  by_cases hqr : q = r
  · subst hqr
    obtain ⟨v', hv'⟩ := Option.isSome_iff_exists.mp hread
    rw [hv'] at hwritten
    have hnormal := Template.normal_written? (hsame ▸ hk) hv hwritten
    rw [Agrees, hv', hv, Option.map_some, Option.map_some, hnormal]
  · have hold := hagrees q hq (hfree q hqr ▸ hnot)
    rw [Agrees, ← hother q hqr] at hold
    exact hold

end Pair.FollowsAt

/-- Values of the parent taken over by the child. -/
theorem Pair.followsAt_takeValues {x : Pair} (h : ∀ key, x.FollowsAt key)
    {values : List (String × Property × Value)}
    (hvalues : ∀ layer q v, (layer, q, v) ∈ values →
      x.parent.get? layer q = some v)
    (key : String) :
    Pair.FollowsAt { x with child := (x.child.takeValues values).1 } key := by
  refine Template.takeValues_induct (P := fun t => ∀ key,
    Pair.FollowsAt { x with child := t } key)
    (fun {t t' layer r v} hmem hset h k => ?_) h key
  by_cases hk : k = layer
  · subst hk
    exact (h k).writeBack (hvalues k r v hmem) hset rfl fun _ _ => rfl
  · exact (h k).congr rfl (Template.part?_of_set hset hk) rfl

/-! ## Operations that keep children behind their parents -/

/-- What is written to a parent goes on to its children, and so do its layers:
both classes of properties are inherited, and no child has a layer already whose
key the parent is given. -/
def Operation.Propagates (w : Workspace) : Operation → Prop
  | setProperty _ _ _ _ toggles => toggles = .all
  | resyncChild _ toggles => toggles = .all
  | addLayer id l =>
    ∀ c ∈ w.library.childrenOf id, w.library.hasLayer c l.key = false
  | _ => True

/-- No layer is deleted under the key of the canvas. -/
def Operation.SparesCanvas (w : Workspace) : Operation → Prop
  | deleteLayer id key => key = canvasKey → w.library.hasLayer id key = false
  | _ => True

section Steps

variable {w w' : Workspace} {p c key : String} {op : Operation} {x x' : Pair}

/-- A step that keeps the child behind the parent keeps it so under its own
key. -/
theorem Pair.FollowsAt.of_key (hlinked : w.library.Linked)
    (hx : w.HasPair p c x) (hkeys : x.parent.DistinctKeys)
    (hcanvas : x.parent.hasLayer canvasKey = false) (hop : op.Propagates w)
    (hspares : op.SparesCanvas w) (hstep : PairStep p c op x x')
    (hkey : op.key? = some key) (h : x.FollowsAt key) : x'.FollowsAt key := by
  have hreserved {k : String} (hk : x.parent.hasLayer k = true) :
      k ≠ canvasKey := by
    rintro rfl
    rw [hcanvas] at hk
    cases hk
  cases hstep with
  | idle => exact h
  | @setOfParent _ _ _ toggles _ _ hset =>
      cases hkey
      obtain rfl : toggles = .all := hop
      exact h.setOfParent hset
  | setOfChild hset =>
      cases hkey
      exact h.setOfChild hset
  | resetProperty hwhole hv hset =>
      cases hkey
      refine h.writeBack hv hset ?_ fun q hq => ?_
      · rw [Function.update_self]
      · rw [Function.update_self, PropertySet.contains_erase, decide_eq_true hq,
          Bool.true_and]
  | resyncChild => cases hkey
  | resetLayer hl =>
      cases hkey
      obtain ⟨-, rfl⟩ := mem_of_findLayer? hl
      have hne := hreserved (Option.isSome_iff_exists.mpr ⟨_, hl⟩)
      refine .of_same ?_
      rw [Template.part?_placeLayer _ hne, Template.part?_of_ne _ hne, hl,
        Option.map_some]
  | deleteOfParent hdel =>
      cases hkey
      exact .of_absent (Template.part?_dropLayer hkeys (hreserved hdel))
  | deleteOfChild hdel =>
      cases hkey
      have hne : key ≠ canvasKey := fun heq => by
        have hnone := hspares heq
        rw [hasLayer_eq hx.child, hdel] at hnone
        cases hnone
      split
      · exact .of_own (Function.update_self _ _ _)
      · next hnone =>
          exact .of_absent (Template.part?_eq_none hne
            (Bool.not_eq_true _ ▸ hnone))
  | addToParent hne hnew =>
      cases hkey
      have hchild := hop c (hlinked.mem_childrenOf.mpr hx.link)
      rw [hasLayer_eq hx.child] at hchild
      refine .of_same ?_
      dsimp only
      rw [hchild, if_neg Bool.false_ne_true,
        Template.part?_pushLayer hchild hne, Template.part?_pushLayer hnew hne]
  | addToChild hne hnew =>
      cases hkey
      -- What the parent has and the child has not is the child's own as a
      -- whole.
      refine fun hsome hwhole => absurd (h hsome hwhole).1 fun hsame => ?_
      rw [Template.kind?, Template.part?_eq_none hne hnew] at hsame
      rw [← hsame] at hsome
      cases hsome
  | @replaceChildLayer l _ =>
      cases hkey
      split
      · exact .of_own (Function.update_self _ _ _)
      · next hnone =>
          by_cases hne : l.key = canvasKey
          · exact h.congr rfl (Template.part?_placeLayer_of_ne _ (Or.inl hne))
              rfl
          · exact .of_absent (Template.part?_eq_none hne
              (Bool.not_eq_true _ ▸ hnone))

theorem Pair.followsAt_step (hlinked : w.library.Linked)
    (hx : w.HasPair p c x) (hkeys : x.parent.DistinctKeys)
    (hcanvas : x.parent.hasLayer canvasKey = false) (hop : op.Propagates w)
    (hspares : op.SparesCanvas w) (hstep : PairStep p c op x x')
    (h : ∀ key, x.FollowsAt key) (key : String) : x'.FollowsAt key := by
  cases htouched : op.key? with
  | none =>
      rcases hstep.of_key?_eq_none htouched with rfl | ⟨values, hvalues, rfl⟩
      · exact h key
      · exact followsAt_takeValues h hvalues key
  | some touched =>
      by_cases hkey : key = touched
      · exact FollowsAt.of_key hlinked hx hkeys hcanvas hop hspares hstep
          (hkey ▸ htouched) (h key)
      · obtain ⟨hparent, hchild, hflags⟩ := hstep.frame htouched hkey
        exact (h key).congr hparent hchild hflags

theorem Template.get?_canvas {q : Property}
    (h : Toggles.all.inherits canvasKey q = true) (t : Template) :
    t.get? canvasKey q = if q =
      .backgroundColor then some (.color t.background) else none := by
  cases q <;> first | rfl | cases h

/-- A child that has just been made follows its parent. -/
theorem Pair.followsAt_childTemplate {parent : Template} {canvas? : Option Size}
    (f : String → LayerFlags) (key : String) :
    Pair.FollowsAt ⟨parent, Library.childTemplate parent c canvas?, f⟩ key := by
  by_cases hkey : key = canvasKey
  · subst hkey
    refine fun _ _ => ⟨?_, fun q hq _ => ?_⟩
    · rw [Template.kind?_canvas, Template.kind?_canvas]
    · -- The sides, in which the two may differ, are not inherited.
      rw [Agrees, Template.get?_canvas hq, Template.get?_canvas hq,
        Library.background_childTemplate]
  · refine .of_same ?_
    dsimp only
    rw [Template.part?_of_ne _ hkey, Template.part?_of_ne _ hkey,
      Template.layer?, Library.layers_childTemplate, ← Template.layer?]

/-! ## Runs -/

/-- No parent has a layer under the key of the canvas. -/
def Library.Unreserved (lib : Library) : Prop :=
  ∀ p t, lib.parentOf? p = none → lib.get? p = some t →
    t.hasLayer canvasKey = false

/-- Nothing makes a parent of a child. -/
theorem Effect.parentOf?_eq_none {t : Template} (hlinked : w.library.Linked)
    (h : Effect w op w') (ht : w'.library.get? p = some t)
    (horphan : w'.library.parentOf? p = none) :
    w.library.parentOf? p = none := by
  rcases h.library_cases hlinked with
    hedits | ⟨u, -, hadds, -⟩ | ⟨q, id, canvas?, u, hadds, -⟩ | ⟨id, q, -,
      hid, rfl⟩
  · exact hedits.parentOf?_eq p ▸ horphan
  · exact hadds.parentOf? p ▸ horphan
  · rw [hadds.parentOf?] at horphan
    split at horphan
    · cases horphan
    · exact horphan
  · rw [Library.get?_detach] at ht
    rw [Library.parentOf?_detach] at horphan
    split at ht
    · cases ht
    · next hne =>
        rw [if_neg hne] at horphan
        exact horphan

theorem Effect.unreserved (hlinked : w.library.Linked)
    (hfree : w.library.Unreserved) (h : Effect w op w') :
    w'.library.Unreserved := by
  intro p t horphan' ht
  have horphan := h.parentOf?_eq_none hlinked ht horphan'
  have hchild {id q : String} {u : Template}
      (hid : w.library.parentOf? id = some q)
      (ht : (w.library.put id u).get? p = some t) :
      t.hasLayer canvasKey = false := by
    refine hfree p t horphan ?_
    rw [Library.get?_put_of_ne] at ht
    · exact ht
    · rintro rfl
      rw [hid] at horphan
      cases horphan
  have hparent {lib : Library} {id : String} {u : Template}
      (hlib : lib.get? p = w.library.get? p) (hu : u.hasLayer canvasKey = false)
      (ht : (lib.put id u).get? p = some t) : t.hasLayer canvasKey = false := by
    rw [Library.get?_put] at ht
    split at ht
    · cases ht
      exact hu
    · exact hfree p t horphan (hlib ▸ ht)
  have hunlisted (id : String) : p ∉ w.library.childrenOf id := by
    rw [hlinked.mem_childrenOf, horphan]
    exact fun h => by cases h
  have hnodup := hlinked.nodup_childrenOf
  cases h with
  | register hvalid hlib =>
      rcases hlib.get?_cases ht with rfl | ht
      · exact (Template.check_valid_iff.mp hvalid).hasLayer_canvas
      · exact hfree p t horphan ht
  | createChild hlib =>
      rw [hlib.parentOf?] at horphan'
      split at horphan'
      · cases horphan'
      · next hne =>
          rw [hlib.get?, if_neg hne] at ht
          exact hfree p t horphan ht
  | removeChild hid => exact hfree p t horphan (Library.get?_of_detach ht)
  | setOfParent hid hu hset =>
      rw [get?_writeAll _ _ _ (nodup_propagationTargets (hnodup _) _ _ _ _ _),
        if_neg fun hmem => hunlisted _ (mem_propagationTargets.mp hmem).1] at ht
      refine hparent rfl ?_ ht
      rw [Template.hasLayer_of_set hset]
      exact hfree _ _ (Library.isParent_iff.mp hid).2 hu
  | deleteOfParent hid hu =>
      rw [get?_dropFromChildren _ (hnodup _), if_neg (hunlisted _)] at ht
      exact hparent rfl (Template.hasLayer_of_dropLayer
        (hfree _ _ (Library.isParent_iff.mp hid).2 hu)) ht
  | addToParent hid hu hne hnew =>
      refine hparent ?_ (Template.hasLayer_pushLayer_of_ne (Ne.symm hne)
        (hfree _ _ (Library.isParent_iff.mp hid).2 hu)) ht
      rw [get?_pushAll _ (hnodup _), if_neg (hunlisted _)]
  | setOfChild hid | resetProperty hid | resyncChild hid | resetLayer hid
  | deleteOfChild hid | addToChild hid | replaceChildLayer hid =>
      exact hchild hid ht

/-- What makes children follow their parents, and stays so. -/
structure Workspace.Following (w : Workspace) : Prop where
  wellFormed : w.WellFormed
  unreserved : w.library.Unreserved
  pairs : ∀ p c x, w.HasPair p c x → ∀ key, x.FollowsAt key

theorem Workspace.Following.effect (hw : w.Following) (hop : op.Propagates w)
    (hspares : op.SparesCanvas w) (h : Effect w op w') : w'.Following where
  wellFormed := hw.wellFormed.effect h
  unreserved := h.unreserved hw.wellFormed.linked hw.unreserved
  pairs := fun p c x' hx' key => by
    have hlinked := hw.wellFormed.linked
    rcases HasPair.of_effect hlinked hw.wellFormed.children h hx' with
      ⟨x, hx, hstep⟩ | ⟨-, -, ⟨canvas?, hchild⟩, -⟩
    · have hcanvas :=
        hw.unreserved p _ (hlinked.parentOf?_parent hx.link) hx.parent
      exact Pair.followsAt_step hlinked hx
        (hw.wellFormed.sound _ _ hx.parent).keys hcanvas hop
        hspares hstep (hw.pairs p c x hx) key
    · obtain ⟨u, t, f⟩ := x'
      obtain rfl : t = Library.childTemplate u c canvas? := hchild
      exact Pair.followsAt_childTemplate f key

theorem Workspace.following_empty : Workspace.empty.Following where
  wellFormed := wellFormed_empty
  unreserved := fun _ _ _ h => by cases h
  pairs := fun _ _ _ h => by cases h.link

theorem Workspace.Following.run (hw : w.Following) {ops : List Operation}
    (hops : w.Each (fun w op => op.Propagates w ∧ op.SparesCanvas w) ops) :
    (w.run ops).Following :=
  hops.run_induct
    (fun hwell ⟨hop, hspares⟩ hw => Operation.perform_induct hwell.linked hw
      fun _ => hw.effect hop hspares)
    hw.wellFormed hw

end Steps

/-- Children follow their parents. A layer that both have, and that is not the
child's own as a whole, is of one kind in both, and every property of it that is
not flagged reads in the child as in the parent; and so does the colour of the
canvas. -/
structure Workspace.Tracks (w : Workspace) : Prop where
  layers : ∀ p c u t, w.library.parentOf? c = some p →
    w.library.get? p = some u →
    w.library.get? c = some t → ∀ key, u.hasLayer key = true →
    t.hasLayer key = true →
      w.overrides.isLayerOverridden c key = false →
        t.kind? key = u.kind? key ∧
          ∀ q, w.overrides.isOverridden c key q = false →
            (t.get? key q).map (Value.normal q) =
              (u.get? key q).map (Value.normal q)
  canvas : ∀ p c u t, w.library.parentOf? c = some p →
    w.library.get? p = some u →
    w.library.get? c = some t →
      w.overrides.isOverridden c canvasKey .backgroundColor = false →
        t.get? canvasKey .backgroundColor = u.get? canvasKey .backgroundColor

theorem Workspace.Following.tracks {w : Workspace} (hw : w.Following) :
    w.Tracks := by
  have hpair {p c : String} {u t : Template}
      (hp : w.library.parentOf? c = some p) (hu : w.library.get? p = some u)
      (ht : w.library.get? c = some t) (key : String) :
      Pair.FollowsAt ⟨u, t, w.overrides.flags c⟩ key :=
    hw.pairs p c _ ⟨hp, hu, ht, rfl⟩ key
  constructor
  case layers =>
    intro p c u t hp hu ht key hkey _ hwhole
    have hne : key ≠ canvasKey := by
      rintro rfl
      have horphan := hw.wellFormed.linked.parentOf?_parent hp
      rw [hw.unreserved p u horphan hu] at hkey
      cases hkey
    have hsome : (u.kind? key).isSome = true := by
      rw [Template.isSome_kind?]
      exact Template.isSome_part?_of_hasLayer hkey
    obtain ⟨hkind, hagrees⟩ := hpair hp hu ht key hsome hwhole
    refine ⟨hkind, fun q hq => hagrees q (Toggles.inherits_all hne q) ?_⟩
    exact (Bool.or_eq_false_iff.mp hq).2
  case canvas =>
    intro p c u t hp hu ht hq
    obtain ⟨hwhole, hmarked⟩ := Bool.or_eq_false_iff.mp hq
    have hagrees :=
      (hpair hp hu ht canvasKey (by rw [Template.kind?_canvas]; rfl) hwhole).2
        .backgroundColor rfl hmarked
    rw [Pair.Agrees, Template.get?_canvas rfl, Template.get?_canvas rfl]
      at hagrees
    rw [Template.get?_canvas rfl, Template.get?_canvas rfl]
    exact hagrees

/-- In every workspace that is built from the empty one by operations which pass
on what is done to parents, and of which none deletes a layer under the key of
the canvas, children follow their parents. -/
theorem Workspace.run_tracks {ops : List Operation}
    (hops : Workspace.empty.Each (fun w op => op.Propagates w ∧
      op.SparesCanvas w) ops) :
    (Workspace.empty.run ops).Tracks :=
  (following_empty.run hops).tracks

theorem titleRun_tracks :
    Workspace.empty.Each (fun w op => op.Propagates w ∧
      op.SparesCanvas w) titleRun ∧
      (Workspace.empty.run titleRun).Tracks := by
  have hops : Workspace.empty.Each (fun w op => op.Propagates w ∧
      op.SparesCanvas w) titleRun := by
    refine ⟨⟨trivial, trivial⟩, ⟨trivial, trivial⟩, ⟨?_, trivial⟩,
      ⟨rfl, trivial⟩, ⟨?_, trivial⟩, ⟨rfl, trivial⟩, ⟨trivial, ?_⟩, trivial⟩
    · show ∀ c ∈ Library.childrenOf _ "wide", _
      decide +kernel
    · show ∀ c ∈ Library.childrenOf _ "tall", _
      decide +kernel
    · exact fun h => absurd h (by decide)
  exact ⟨hops, Workspace.run_tracks hops⟩

/-- A child whose own background is forgotten: it is given a layer under the key
of the canvas, which nothing else allows, and loses the flags of the canvas with
it. -/
def reservedRun : List Operation :=
  [.register (.ofCanvas "wide" 1200 628), .createChild "wide" (some "tall")
    "fresh" none, .setProperty "tall" canvasKey .backgroundColor
    (.color .black) .all,
      .replaceChildLayer "tall" ⟨canvasKey, .text (.ofField "note" (.px 32))⟩,
      .deleteLayer "tall" canvasKey]

theorem reservedRun_not_tracks :
    Workspace.empty.Each (fun w op => op.Propagates w) reservedRun ∧
      ¬ (Workspace.empty.run reservedRun).Tracks := by
  refine ⟨⟨trivial, trivial, rfl, trivial, trivial, trivial⟩, fun h => ?_⟩
  have hends :
      ((Workspace.empty.run reservedRun).library.parentOf? "tall" =
        some "wide" ∧
        (Workspace.empty.run reservedRun).library.get? "wide" =
          some (.ofCanvas "wide" 1200 628) ∧
        (Workspace.empty.run reservedRun).library.get? "tall" =
          some { Template.ofCanvas "tall" 1200 628 with
            background := .black }) ∧
        (Workspace.empty.run reservedRun).overrides.isOverridden "tall"
          canvasKey .backgroundColor = false := by
      decide +kernel
  obtain ⟨⟨hlink, hparent, hchild⟩, hfree⟩ := hends
  have hsame := h.canvas _ _ _ _ hlink hparent hchild hfree
  revert hsame
  decide

end Placard
