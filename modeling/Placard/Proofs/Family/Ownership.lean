import Placard.Proofs.Family.Lifetime

/-!
# Layers that a child has for itself

Which layers are a child's own is not stored. It is read off two things: a layer
that the parent has none of is the child's, and so is one that is flagged as a
whole. What is done to the parent moves a layer from one kind to the other. When
the parent's layer is deleted the flag goes, and the child's own layer is left
behind; and as the flag comes with the parent's layer, there is nothing that a
write to the parent or a deletion there could reach.

There is one gap. Where the parent is given a layer whose key the child has
already, the child keeps its own and no flag is set: from then on the layer
counts as inherited, is written to with the parent's, and goes with it. So an
own layer is safe for as long as the parent is given none of its key.
-/

namespace Placard

/-! ## What a child has deleted is remembered -/

/-- What the parent has and the child has not is flagged as the child's own. -/
def Pair.RemembersAt (x : Pair) (key : String) : Prop :=
  x.parent.hasLayer key = true → x.child.hasLayer key = false →
    (x.flags key).whole = true

namespace Pair.RemembersAt

variable {p c key : String} {op : Operation} {x x' : Pair}

theorem of_held (h : x.child.hasLayer key = true) : x.RemembersAt key := by
  intro _ hnone
  rw [h] at hnone
  cases hnone

/-- Neither template has gained or lost the layer, and it is flagged as
before. -/
theorem congr (h : x.RemembersAt key)
    (hparent : x'.parent.hasLayer key = x.parent.hasLayer key)
    (hchild : x'.child.hasLayer key = x.child.hasLayer key)
    (hwhole : (x'.flags key).whole = (x.flags key).whole) :
    x'.RemembersAt key := by
  unfold RemembersAt
  rw [hparent, hchild, hwhole]
  exact h

theorem of_key (hkeys : x.parent.DistinctKeys) (hstep : PairStep p c op x x')
    (hop : op.key? = some key) (h : x.RemembersAt key) :
    x'.RemembersAt key := by
  cases hstep with
  | idle => exact h
  | setOfParent hset =>
      cases hop
      refine h.congr (Template.hasLayer_of_set hset key) ?_ rfl
      dsimp only
      split
      · exact Template.hasLayer_getD_set _ _ _ _ _
      · rfl
  | setOfChild hset =>
      cases hop
      refine h.congr rfl (Template.hasLayer_of_set hset key) ?_
      dsimp only
      split
      · rw [Function.update_self]
      · rfl
  | resetProperty _ _ hset =>
      cases hop
      refine h.congr rfl (Template.hasLayer_of_set hset key) ?_
      dsimp only
      rw [Function.update_self]
  | resyncChild => cases hop
  | resetLayer hl =>
      cases hop
      obtain ⟨-, rfl⟩ := mem_of_findLayer? hl
      exact of_held (Template.hasLayer_placeLayer _ _ _)
  | deleteOfParent =>
      cases hop
      intro hparent
      rw [Template.hasLayer_dropLayer hkeys] at hparent
      cases hparent
  | deleteOfChild =>
      cases hop
      intro hparent _
      dsimp only at hparent ⊢
      rw [Function.update_self, if_pos hparent, LayerFlags.own]
  | addToParent _ hnew =>
      cases hop
      refine of_held ?_
      dsimp only
      split
      · assumption
      · next hlacks =>
          exact Template.hasLayer_pushLayer (Bool.not_eq_true _ ▸ hlacks)
  | addToChild _ hnew =>
      cases hop
      exact of_held (Template.hasLayer_pushLayer hnew)
  | replaceChildLayer =>
      cases hop
      exact of_held (Template.hasLayer_placeLayer _ _ _)

theorem step (hkeys : x.parent.DistinctKeys) (hstep : PairStep p c op x x')
    (h : x.RemembersAt key) : x'.RemembersAt key := by
  cases hop : op.key? with
  | none =>
      rcases hstep.of_key?_eq_none hop with rfl | ⟨values, -, rfl⟩
      · exact h
      · exact h.congr rfl (Template.hasLayer_takeValues _ _ _) rfl
  | some touched =>
      by_cases hkey : key = touched
      · exact of_key hkeys hstep (hkey ▸ hop) h
      · obtain ⟨hparent, hchild⟩ := hstep.frame_layers hop hkey
        obtain ⟨-, -, hflags⟩ := hstep.frame hop hkey
        exact h.congr (Template.hasLayer_congr hparent)
          (Template.hasLayer_congr hchild) (by rw [hflags])

end Pair.RemembersAt

theorem Pair.remembersAt_childTemplate {parent : Template} {c : String}
    {canvas? : Option Size} (f : String → LayerFlags) (key : String) :
    Pair.RemembersAt ⟨parent, Library.childTemplate parent c canvas?, f⟩
      key := by
  intro hparent hnone
  rw [Template.hasLayer, Template.layer?, Library.layers_childTemplate] at hnone
  rw [Template.hasLayer, Template.layer?, hnone] at hparent
  cases hparent

theorem Workspace.HasPair.remembersAt {ops : List Operation} {p c : String}
    {x : Pair} (hx : (Workspace.empty.run ops).HasPair p c x) (key : String) :
    x.RemembersAt key :=
  induct (P := fun x => x.RemembersAt key)
    (fun _ _ _ => Pair.remembersAt_childTemplate _ key)
    (fun _ _ _ _ _ hkeys _ hstep h => h.step hkeys hstep) ops wellFormed_empty
    (fun _ _ _ h => by cases h.link) hx

/-! ## What a child has for itself stays -/

/-- The layer is the child's own: it has it, and the parent has none of its key
or it is flagged as a whole. -/
structure Pair.Owns (x : Pair) (l : Layer) : Prop where
  held : x.child.layer? l.key = some l
  own : x.parent.hasLayer l.key = true → (x.flags l.key).whole = true

/-- The operation is one on the child and the layer. Taking over what the parent
has is not among them: it leaves alone what is the child's own. -/
def Operation.Touches (c key : String) : Operation → Prop
  | removeChild id => id = c
  | setProperty id layer _ _ _ => id = c ∧ layer = key
  | resetLayer id layer => id = c ∧ layer = key
  | deleteLayer id layer => id = c ∧ layer = key
  | replaceChildLayer id l => id = c ∧ l.key = key
  | _ => False

/-- The operation gives the parent a layer of the key, of which it had none. -/
def Operation.Gives (w : Workspace) (p key : String) : Operation → Prop
  | addLayer id l => id = p ∧ l.key = key ∧ w.library.hasLayer p key = false
  | _ => False

namespace Pair.Owns

variable {w : Workspace} {p c : String} {op : Operation} {x x' : Pair}
  {l : Layer}

theorem hasLayer (h : x.Owns l) : x.child.hasLayer l.key = true := by
  rw [Template.hasLayer, h.held]
  rfl

/-- The layer is the same, the parent has it if it had, and it is flagged as
before. -/
theorem congr (h : x.Owns l)
    (hparent : x'.parent.hasLayer l.key = x.parent.hasLayer l.key)
    (hchild : x'.child.layer? l.key = x.child.layer? l.key)
    (hwhole : (x'.flags l.key).whole = (x.flags l.key).whole) : x'.Owns l where
  held := hchild.trans h.held
  own := fun hkey => hwhole.trans (h.own (hparent ▸ hkey))

theorem of_key (hx : w.HasPair p c x) (hkeys : x.parent.DistinctKeys)
    (hstep : PairStep p c op x x') (hop : op.key? = some l.key)
    (htouch : ¬ op.Touches c l.key) (hgive : ¬ op.Gives w p l.key)
    (h : x.Owns l) : x'.Owns l := by
  cases hstep with
  | idle => exact h
  | setOfParent hset =>
      obtain rfl := Option.some.inj hop
      refine h.congr (Template.hasLayer_of_set hset _) ?_ rfl
      dsimp only
      split
      · next hreach =>
          -- A layer that the parent has is flagged, so it is the canvas that is
          -- written to.
          have hcanvas : l.key = canvasKey := by
            by_contra hkey
            have hwhole := h.own (Template.hasLayer_self_of_set hset hkey)
            simp [LayerFlags.covers, hwhole] at hreach
          exact Template.layer?_getD_set (Or.inr hcanvas) _ _ _
      · rfl
  | resetProperty hwhole hv hset =>
      obtain rfl := Option.some.inj hop
      have hcanvas : l.key = canvasKey := by
        by_contra hkey
        rw [h.own (Template.hasLayer_of_get? hv hkey)] at hwhole
        cases hwhole
      refine h.congr rfl (Template.layer?_of_set hset (Or.inr hcanvas)) ?_
      dsimp only
      rw [Function.update_self]
  | resyncChild => cases hop
  | deleteOfParent hkey =>
      obtain rfl := Option.some.inj hop
      refine ⟨?_, fun hparent => ?_⟩
      · dsimp only
        rw [if_pos (h.own hkey)]
        exact h.held
      · rw [Template.hasLayer_dropLayer hkeys] at hparent
        cases hparent
  | addToChild _ hnew =>
      rw [Option.some.inj hop, h.hasLayer] at hnew
      cases hnew
  | addToParent _ hnew =>
      have hlacks := (hasLayer_eq hx.parent _).trans hnew
      have hkey := Option.some.inj hop
      exact absurd ⟨rfl, hkey, hkey ▸ hlacks⟩ hgive
  | setOfChild | resetLayer | deleteOfChild | replaceChildLayer =>
      exact absurd ⟨rfl, Option.some.inj hop⟩ htouch

theorem step (hx : w.HasPair p c x) (hkeys : x.parent.DistinctKeys)
    (hstep : PairStep p c op x x') (htouch : ¬ op.Touches c l.key)
    (hgive : ¬ op.Gives w p l.key) (h : x.Owns l) : x'.Owns l := by
  cases hop : op.key? with
  | some touched =>
      by_cases hkey : l.key = touched
      · exact of_key hx hkeys hstep (hkey ▸ hop) htouch hgive h
      · obtain ⟨hparent, hchild⟩ := hstep.frame_layers hop hkey
        obtain ⟨-, -, hflags⟩ := hstep.frame hop hkey
        exact h.congr (Template.hasLayer_congr hparent) hchild (by rw [hflags])
  | none =>
      cases hstep with
      | idle => exact h
      | resyncChild hvalues =>
          refine h.congr rfl
            (Template.layer?_takeValues (fun q v hmem => ?_) _) rfl
          obtain ⟨-, hfree, hv⟩ := (hvalues _ _ _).mp hmem
          by_contra hkey
          rw [LayerFlags.covers, h.own (Template.hasLayer_of_get? hv hkey)]
            at hfree
          cases hfree
      | _ => cases hop

end Pair.Owns

/-- A child owns the layer that it has just been given. -/
theorem Workspace.HasPair.owns_of_given {ops : List Operation} {p c : String}
    {x : Pair} {l : Layer} {op : Operation}
    (hx : (Workspace.empty.run ops).HasPair p c x)
    (hop : op = .addLayer c l ∨ op = .replaceChildLayer c l)
    (hdone : (op.perform (Workspace.empty.run ops)).1 = .ok ()) :
    ∃ x', (op.perform (Workspace.empty.run ops)).2.HasPair p c x' ∧
      x'.Owns l := by
  have hw := wellFormed_empty.run ops
  have hne := hw.linked.ne_parent hx.link
  rcases hop with rfl | rfl
  · obtain ⟨x', hx', hstep⟩ := hx.step_of_done hw hdone (by simp)
    refine ⟨x', hx', ?_⟩
    cases hstep with
    | idle _ hchild => exact absurd rfl hchild
    | addToParent => exact absurd rfl hne
    | addToChild _ hnew =>
        exact ⟨Template.layer?_pushLayer_self hnew, fun hparent =>
          hx.remembersAt l.key hparent hnew⟩
  · obtain ⟨x', hx', hstep⟩ := hx.step_of_done hw hdone (by simp)
    refine ⟨x', hx', ?_⟩
    cases hstep with
    | idle _ hchild => exact absurd rfl hchild
    | replaceChildLayer =>
        refine ⟨Template.layer?_placeLayer _ _ _, fun hparent => ?_⟩
        dsimp only at hparent ⊢
        rw [if_pos hparent, Function.update_self, LayerFlags.own]

/-- A layer that a child has been given for itself stays as it is until
something is done to it in the child, whatever is done to the parent, if the
parent is not given one of the same key beside it. -/
theorem Workspace.own_layer_kept {ops rest : List Operation} {p c : String}
    {l : Layer} {op : Operation}
    (hlink : (Workspace.empty.run ops).library.parentOf? c = some p)
    (hop : op = .addLayer c l ∨ op = .replaceChildLayer c l)
    (hdone : (op.perform (Workspace.empty.run ops)).1 = .ok ())
    (hrest : (op.perform (Workspace.empty.run ops)).2.Each
      (fun w op => ¬ op.Touches c l.key ∧ ¬ op.Gives w p l.key) rest) :
    ∃ t, ((Workspace.empty.run ops).run (op :: rest)).library.get? c = some t ∧
      t.layer? l.key = some l := by
  have hw := wellFormed_empty.run ops
  obtain ⟨x, hx⟩ := hw.linked.exists_pair hlink
  obtain ⟨x', hx', howns⟩ := hx.owns_of_given hop hdone
  have hlives : (op.perform (Workspace.empty.run ops)).2.Each
      (fun w op => op ≠ .removeChild c ∧ ¬ op.Touches c l.key ∧
        ¬ op.Gives w p l.key) rest :=
    Each.mono (fun _ _ h => ⟨fun heq => h.1 (heq ▸ rfl), h⟩) hrest
  obtain ⟨y, hy, hkept⟩ := HasPair.run_induct (P := fun x => x.Owns l)
    (fun w op x x' hx hasked hkeys _ hstep h => h.step hx hkeys hstep hasked.1
      hasked.2) hlives
    (hw.perform op) hx' howns
  exact ⟨y.child, hy.child, hkept.held⟩

/-- The title that a child has put in place of its parent's outlasts that. -/
theorem titleRun_own_layer_kept :
    ((Operation.replaceChildLayer "tall"
      ⟨"title", .image (.ofSize 64 64)⟩).perform
        (Workspace.empty.run titleRun)).1 = .ok () ∧
      ∃ t, ((Workspace.empty.run titleRun).run
          [.replaceChildLayer "tall" ⟨"title", .image (.ofSize 64 64)⟩,
            .setProperty "wide" "title" .color (.color .black) .all,
            .deleteLayer "wide" "title"]).library.get? "tall" = some t ∧
        t.layer? "title" = some ⟨"title", .image (.ofSize 64 64)⟩ := by
  have hdone :
      ((Operation.replaceChildLayer "tall"
        ⟨"title", .image (.ofSize 64 64)⟩).perform
        (Workspace.empty.run titleRun)).1 = .ok () := by
      rfl
  refine ⟨hdone, Workspace.own_layer_kept (p := "wide") (by decide +kernel)
    (Or.inr rfl) hdone ?_⟩
  simp [Workspace.Each, Operation.Touches, Operation.Gives]

/-- Once the parent has been given a layer of the key, the child may lose its
own: its note counts as inherited from then on, and is deleted with the
parent's. -/
theorem own_layer_lost_to_given :
    ¬ ∀ (ops rest : List Operation) (p c : String) (l : Layer) (op : Operation),
      (Workspace.empty.run ops).library.parentOf? c = some p →
      (op = .addLayer c l ∨ op = .replaceChildLayer c l) →
      (op.perform (Workspace.empty.run ops)).1 = .ok () →
      (op.perform (Workspace.empty.run ops)).2.Each
        (fun _ op => ¬ op.Touches c l.key) rest →
      ∃ t, ((Workspace.empty.run ops).run (op :: rest)).library.get?
        c = some t ∧
        t.layer? l.key = some l := by
  intro h
  obtain ⟨t, ht, hkept⟩ := h titleRun
    [.addLayer "wide" ⟨"note", .text (.ofField "note" (.px 32))⟩,
      .deleteLayer "wide" "note"]
    "wide" "tall" ⟨"note", .text (.ofField "note" (.px 32))⟩ _
      (by decide +kernel) (Or.inl rfl)
    (by rfl) (by simp [Workspace.Each, Operation.Touches])
  have hlost : (((Workspace.empty.run titleRun).run
      [.addLayer "tall" ⟨"note", .text (.ofField "note" (.px 32))⟩,
        .addLayer "wide" ⟨"note", .text (.ofField "note" (.px 32))⟩,
        .deleteLayer "wide" "note"]).library.get? "tall").any
      (fun t => t.hasLayer "note") = false := by
    decide +kernel
  rw [ht, Option.any_some, Template.hasLayer_of_layer? hkept] at hlost
  cases hlost

end Placard
