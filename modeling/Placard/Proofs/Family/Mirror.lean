import Placard.Proofs.Family.Lifetime

/-!
# Children that are left alone

A child starts as a copy of its parent and has no flags. So long as nothing is
done to the child itself there are none, and whatever is done to the parent is
done to the child as well: the same value is written to the same layer, the same
layer is put behind the others, or taken out. The two lists of layers are equal
at every time, in what can be written and in what cannot. The canvas may differ,
as a child may be made on one of its own, and what is written to the sides of
the parent's does not reach it. The background does.
-/

namespace Placard

/-- The child has the layers and the background of the parent, and no flags. -/
structure Pair.Mirrors (x : Pair) : Prop where
  layers : x.child.layers = x.parent.layers
  background : x.child.background = x.parent.background
  flags : x.flags = fun _ => .empty

/-- What the operation writes to a parent it passes on, whatever the
property. -/
def Operation.PassesOn : Operation → Prop
  | setProperty _ _ _ _ toggles => toggles = .all
  | _ => True

namespace Pair.Mirrors

variable {p c key : String} {op : Operation} {x x' : Pair} {q : Property}
  {v : Value} {t : Template}

theorem of_copy {canvas? : Option Size}
    (hchild : x.child = Library.childTemplate x.parent c canvas?)
    (hflags : x.flags = fun _ => .empty) : x.Mirrors where
  layers := hchild ▸ Library.layers_childTemplate _ _ _
  background := hchild ▸ Library.background_childTemplate _ _ _
  flags := hflags

theorem hasLayer (h : x.Mirrors) (key : String) :
    x.child.hasLayer key = x.parent.hasLayer key := by
  rw [Template.hasLayer, Template.layer?, h.layers, Template.hasLayer,
    Template.layer?]

theorem covers (h : x.Mirrors) (key : String) (q : Property) :
    (x.flags key).covers q = false := by
  rw [h.flags]
  exact PropertySet.contains_empty q

theorem update_flags (h : x.Mirrors) (key : String) :
    Function.update x.flags key .empty = fun _ => .empty := by
  rw [h.flags]
  exact Function.update_eq_self key _

/-- What is written to a layer of the parent is written to that of the child. -/
theorem setLayer (h : x.Mirrors) (hkey : key ≠ canvasKey)
    (hset : x.parent.set key q v = .ok t) :
    Mirrors
      { x with
        parent := t
        child := (x.child.set key q v).toOption.getD x.child } := by
  have hchild :
      x.child.set key q v = .ok { x.child with layers := t.layers } := by
    rw [Template.set_of_layers hkey h.layers, hset]
    rfl
  rw [hchild]
  refine ⟨rfl, ?_, h.flags⟩
  rw [Template.background_of_set hset hkey]
  exact h.background

/-- Of what is written to the canvas of the parent, the colour of the background
reaches the child, and the sides do not. -/
theorem setCanvas (h : x.Mirrors) (hset : x.parent.set canvasKey q v = .ok t) :
    Mirrors { x with
      parent := t
      child :=
        if Toggles.all.inherits canvasKey q then
          (x.child.set canvasKey q v).toOption.getD x.child
        else x.child } := by
  obtain ⟨hlayers, ⟨rfl, color, hcolor, hchild⟩ | ⟨hside, hbackground⟩⟩ :=
    Template.set_canvas_cases hset
  · have hreaches : Toggles.all.inherits canvasKey .backgroundColor = true :=
      rfl
    rw [if_pos hreaches, hchild]
    exact ⟨h.layers.trans hlayers.symm, hcolor.symm, h.flags⟩
  · have hown : Toggles.all.inherits canvasKey q = false := by
      rcases hside with rfl | rfl <;> rfl
    rw [if_neg (by rw [hown]; exact Bool.false_ne_true)]
    exact ⟨h.layers.trans hlayers.symm,
      h.background.trans hbackground.symm, h.flags⟩

theorem setOfParent (h : x.Mirrors) (hset : x.parent.set key q v = .ok t) :
    Mirrors { x with
      parent := t
      child :=
        if Toggles.all.inherits key q && (x.child.part? key).isSome &&
            !(x.flags key).covers q then
          (x.child.set key q v).toOption.getD x.child
        else x.child } := by
  have hheld : (x.child.part? key).isSome = true := by
    by_cases hkey : key = canvasKey
    · rw [hkey, Template.part?_canvas]
      rfl
    · rw [Template.isSome_part?, h.hasLayer,
        Template.hasLayer_self_of_set hset hkey]
      exact Bool.or_true _
  rw [hheld, h.covers, Bool.and_true, Bool.not_false, Bool.and_true]
  by_cases hkey : key = canvasKey
  · subst hkey
    exact h.setCanvas hset
  · rw [Toggles.inherits_all hkey, if_pos rfl]
    exact h.setLayer hkey hset

theorem step (hstep : PairStep p c op x x') (hchild : op.edits? ≠ some c)
    (hpasses : op.PassesOn) (h : x.Mirrors) : x'.Mirrors := by
  cases hstep with
  | idle => exact h
  | setOfParent hset =>
      obtain rfl := hpasses
      exact h.setOfParent hset
  | @deleteOfParent key =>
      have hwhole : (x.flags key).whole = false := by rw [h.flags]; rfl
      rw [hwhole, if_neg Bool.false_ne_true]
      exact ⟨congrArg (removeLayer key) h.layers, h.background,
        h.update_flags key⟩
  | @addToParent l _ _ hnew =>
      rw [h.hasLayer, hnew, if_neg Bool.false_ne_true]
      exact ⟨congrArg (· ++ [l]) h.layers, h.background, h.flags⟩
  | setOfChild | resetProperty | resyncChild | resetLayer | deleteOfChild
  | addToChild | replaceChildLayer => exact absurd rfl hchild

end Pair.Mirrors

/-- From the operation that makes a child on, whatever canvas it is made on, and
for as long as none is addressed to the child itself, the child has the layers
of its parent, and its background. -/
theorem Workspace.layers_eq_of_untouched {ops rest : List Operation}
    {op : Operation} {p c : String}
    (hfresh : (Workspace.empty.run ops).library.contains c = false)
    (hlink : (op.perform (Workspace.empty.run ops)).2.library.parentOf?
      c = some p)
    (hrest : ∀ op ∈ rest, op.edits? ≠ some c ∧ op.PassesOn) :
    ∃ u t, ((Workspace.empty.run ops).run (op :: rest)).library.get?
      p = some u ∧
      ((Workspace.empty.run ops).run (op :: rest)).library.get? c = some t ∧
        t.layers = u.layers ∧ t.background = u.background := by
  have hw := wellFormed_empty.run ops
  obtain ⟨x, hx⟩ := (hw.perform op).linked.exists_pair hlink
  obtain ⟨⟨canvas?, hcopy⟩, hflags⟩ := HasPair.of_fresh hw hfresh hx
  have hlives : ∀ op ∈ rest, op ≠ .removeChild c ∧ op.edits? ≠ some c ∧
      op.PassesOn :=
    fun op hmem => ⟨fun heq => (hrest op hmem).1 (heq ▸ rfl), hrest op hmem⟩
  obtain ⟨y, hy, h⟩ := HasPair.run_induct (P := Pair.Mirrors)
    (fun _ _ _ _ _ hasked _ _ hstep h => h.step hstep hasked.1 hasked.2)
    (each_of_forall hlives _) (hw.perform op) hx (.of_copy hcopy hflags)
  exact ⟨y.parent, y.child, hy.parent, hy.child, h.layers, h.background⟩

/-- What happens to a parent and to one of its children, and not to the
other. -/
def siblingRun : List Operation :=
  [.addLayer "wide" ⟨"title", .text (.ofField "title" (.px 32))⟩,
    .createChild "wide" (some "square") "fresh" (some ⟨628, 628⟩),
    .deleteLayer "square" "title", .setProperty "wide" "title" .color
      (.color .white) .all, .setProperty "wide" canvasKey .backgroundColor
      (.color .black) .all,
    .addLayer "wide" ⟨"note", .text (.ofField "note" (.px 32))⟩,
      .removeChild "square", .deleteLayer "wide" "title"]

theorem siblingRun_layers_eq :
    ∃ u t, ((Workspace.empty.run [.register (.ofCanvas "wide" 1200 628)]).run
          (.createChild "wide" (some "tall") "fresh" (some ⟨628, 1200⟩) ::
            siblingRun)).library.get? "wide" = some u ∧
      ((Workspace.empty.run [.register (.ofCanvas "wide" 1200 628)]).run
          (.createChild "wide" (some "tall") "fresh" (some ⟨628, 1200⟩) ::
            siblingRun)).library.get? "tall" = some t ∧
        t.layers = u.layers ∧ t.background = u.background := by
  refine Workspace.layers_eq_of_untouched (by decide +kernel)
    (by decide +kernel) ?_
  simp [siblingRun, Operation.edits?, Operation.PassesOn]

end Placard
