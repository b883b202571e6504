import Placard.Proofs.Family.Ownership
import Placard.Proofs.Template.Others

/-!
# The order of inherited layers

A child has the layers that it inherits in the order in which its parent has
them, and nearly everything that is done to either keeps it so. Values leave the
lists as they are; what is deleted leaves the rest in order; a layer that the
parent is given goes behind the others in both; and what the child is given for
itself is not inherited.

There are two exceptions, and both make an inherited layer of one that stands
where nothing has been said about it. A layer that the child has lost is put
back at the place that it has in the parent's list, counted in the child's list,
which may lack others of the parent's layers or have layers of its own; one that
the child has still is replaced where it stands, wherever that is. And where the
parent is given a layer whose key the child has already, the child's own counts
as inherited from then on. Such a layer is in line where the same inherited
layers stand in front of it in the child as in the parent. The order is kept by
every run that puts layers in line; and where the child has all that stands in
front of the layer in the parent, and nothing of its own there, a layer that is
put back is in line.
-/

namespace Placard

/-! ## Keys in front of a layer -/

theorem takeWhile_append_cons_of_mem {key : String} {ks : List String}
    (h : key ∈ ks) :
    ∃ after, ks = ks.takeWhile (fun k => k ≠ key) ++ key :: after := by
  induction ks with
  | nil => cases h
  | cons k rest ih =>
      rw [List.takeWhile_cons]
      by_cases hk : k = key
      · subst hk
        exact ⟨rest, by simp⟩
      · obtain ⟨after, hafter⟩ :=
          ih ((List.mem_cons.mp h).resolve_left (Ne.symm hk))
        refine ⟨after, ?_⟩
        rw [if_pos (decide_eq_true hk), List.cons_append, ← hafter]

theorem findIdx?_of_mem {key : String} {ks : List String} (h : key ∈ ks) :
    ks.findIdx? (fun k => k = key) =
      some (ks.takeWhile fun k => k ≠ key).length := by
  induction ks with
  | nil => cases h
  | cons k rest ih =>
      rw [List.findIdx?_cons, List.takeWhile_cons]
      by_cases hk : k = key
      · simp [hk]
      · rw [ih ((List.mem_cons.mp h).resolve_left (Ne.symm hk))]
        simp [hk]

namespace Template

variable {t t' : Template} {key : String} {l : Layer} {front back : List String}

/-- The keys in front of the layer under a key; all of them if there is none. -/
def before (t : Template) (key : String) : List String :=
  t.keys.takeWhile fun k => k ≠ key

/-- The keys but one. -/
def others (t : Template) (key : String) : List String :=
  t.keys.filter fun k => k ≠ key

theorem keys_of_hasLayer (h : t.hasLayer key = true) :
    ∃ after, t.keys = t.before key ++ key :: after :=
  takeWhile_append_cons_of_mem (hasLayer_iff.mp h)

theorem before_of_not_hasLayer (h : t.hasLayer key = false) :
    t.before key = t.keys := by
  refine List.takeWhile_eq_self_iff.mpr fun k hk => decide_eq_true ?_
  rintro rfl
  rw [← hasLayer_iff, h] at hk
  cases hk

theorem layerIndex?_of_hasLayer (h : t.hasLayer key = true) :
    t.layerIndex? key = some (t.before key).length := by
  rw [layerIndex?, before, ← findIdx?_of_mem (hasLayer_iff.mp h), keys,
    List.findIdx?_map]
  rfl

theorem others_of_keys (hd : t.DistinctKeys)
    (h : t.keys = front ++ key :: back) : t.others key = front ++ back := by
  rw [DistinctKeys, h, List.nodup_middle, List.nodup_cons] at hd
  rw [others, h, List.filter_append, List.filter_cons_of_neg (by simp),
    ← List.filter_append, List.filter_eq_self]
  rintro k hk
  exact decide_eq_true fun heq => hd.1 (heq ▸ hk)

theorem keys_pushLayer (t : Template) (l : Layer) :
    (t.pushLayer l).keys = t.keys ++ [l.key] := by
  rw [keys, pushLayer, List.map_append, List.map_singleton, keys]

theorem keys_placeLayer_of_hasLayer (h : t.hasLayer l.key = true)
    (place : Nat) : (t.placeLayer l place).keys = t.keys := by
  rw [placeLayer, if_pos h]
  exact keys_replaceBody _ _ _

theorem keys_placeLayer_of_not_hasLayer (h : t.hasLayer l.key = false)
    (place : Nat) :
    (t.placeLayer l place).keys =
      t.keys.take place ++ l.key :: t.keys.drop place := by
  rw [placeLayer, h, if_neg Bool.false_ne_true, keys, insertIdx_min_length,
    List.map_append, List.map_cons, List.map_take, List.map_drop, keys]

theorem keys_getD_set (t : Template) (layer : String) (q : Property)
    (v : Placard.Value) :
    ((t.set layer q v).toOption.getD t).keys = t.keys := by
  cases h : t.set layer q v with
  | error e => rfl
  | ok t' => exact keys_of_set h

theorem hasLayer_of_keys (h : t'.keys = t.keys) (key : String) :
    t'.hasLayer key = t.hasLayer key := by
  rw [Bool.eq_iff_iff, hasLayer_iff, hasLayer_iff, h]

theorem others_of_otherLayers (h : t'.otherLayers key = t.otherLayers key) :
    t'.others key = t.others key := by
  have hothers (t : Template) :
      t.others key = (t.otherLayers key).map Layer.key := by
    rw [others, keys, List.filter_map]
    rfl
  rw [hothers, hothers, h]

/-- A test that the key fails is passed by what it passes of the others. -/
theorem filter_others_of_not {f : String → Bool} (h : f key = false) :
    (t.others key).filter f = t.keys.filter f := by
  rw [others, List.filter_filter]
  refine List.filter_congr fun k _ => ?_
  by_cases hk : k = key
  · rw [hk, h, Bool.false_and]
  · rw [decide_eq_true hk, Bool.and_true]

end Template

/-! ## Pairs in order -/

/-- Flags on properties alone leave alone whose the layers are. -/
theorem whole_update (flags : String → LayerFlags) (key k : String)
    (ps : PropertySet) :
    (Function.update flags key { flags key with properties := ps } k).whole =
      (flags k).whole := by
  by_cases hk : k = key
  · subst hk
    rw [Function.update_self]
  · rw [Function.update_of_ne hk]

/-- The child has the layer from the parent: both have one of the key, and it is
not flagged as the child's own. -/
def Pair.inherits (x : Pair) (key : String) : Bool :=
  x.parent.hasLayer key && x.child.hasLayer key && !(x.flags key).whole

/-- The layers that the child inherits stand in it as they stand in the
parent. -/
def Pair.InOrder (x : Pair) : Prop :=
  x.child.keys.filter x.inherits = x.parent.keys.filter x.inherits

/-- The keys in front of a layer of the parent when it has been put back into
the child: what stands in front of the one there is, or else the first keys of
the child, as many as stand in front of it in the parent. -/
def Pair.front (x : Pair) (key : String) : List String :=
  if x.child.hasLayer key then x.child.before key
  else x.child.keys.take (x.parent.before key).length

/-- In front of the place of the layer in the child the same inherited layers
stand as in the parent. -/
def Pair.InLine (x : Pair) (key : String) : Prop :=
  (x.front key).filter x.inherits = (x.parent.before key).filter x.inherits

instance (x : Pair) (key : String) : Decidable (x.InLine key) :=
  inferInstanceAs (Decidable (_ = _))

instance (x : Pair) : Decidable x.InOrder :=
  inferInstanceAs (Decidable (_ = _))

/-- A layer that comes to be inherited where the child has its place for it
comes in line. -/
def Operation.PutsInLine (w : Workspace) : Operation → Prop
  | resetLayer c key => ∀ p x, w.HasPair p c x → x.parent.hasLayer key = true →
    x.InLine key
  | addLayer p l => ∀ c x, w.HasPair p c x → x.parent.hasLayer l.key = false →
      x.child.hasLayer l.key = true → x.InLine l.key
  | _ => True

section Steps

variable {w w' : Workspace} {p c key : String} {op : Operation} {x x' : Pair}

theorem PairStep.otherLayers_eq (hstep : PairStep p c op x x')
    (hop : op.key? = some key) :
    x'.parent.otherLayers key = x.parent.otherLayers key ∧
      x'.child.otherLayers key = x.child.otherLayers key := by
  cases hstep with
  | idle => exact ⟨rfl, rfl⟩
  | setOfParent hset =>
      cases hop
      refine ⟨Template.otherLayers_set hset, ?_⟩
      dsimp only
      split
      · exact Template.otherLayers_getD_set _ _ _ _
      · rfl
  | setOfChild hset | resetProperty _ _ hset =>
      cases hop
      exact ⟨rfl, Template.otherLayers_set hset⟩
  | resyncChild => cases hop
  | resetLayer hl =>
      cases hop
      obtain ⟨-, rfl⟩ := mem_of_findLayer? hl
      exact ⟨rfl, Template.otherLayers_placeLayer _ _ _⟩
  | deleteOfParent =>
      cases hop
      refine ⟨Template.otherLayers_dropLayer _ key, ?_⟩
      dsimp only
      split
      · rfl
      · exact Template.otherLayers_dropLayer _ key
  | deleteOfChild =>
      cases hop
      exact ⟨rfl, Template.otherLayers_dropLayer _ key⟩
  | addToParent =>
      cases hop
      refine ⟨Template.otherLayers_pushLayer _ _, ?_⟩
      dsimp only
      split
      · rfl
      · exact Template.otherLayers_pushLayer _ _
  | addToChild =>
      cases hop
      exact ⟨rfl, Template.otherLayers_pushLayer _ _⟩
  | replaceChildLayer =>
      cases hop
      exact ⟨rfl, Template.otherLayers_placeLayer _ _ _⟩

theorem PairStep.inherits_eq {k : String} (hstep : PairStep p c op x x')
    (hop : op.key? = some key) (hk : k ≠ key) :
    x'.inherits k = x.inherits k := by
  obtain ⟨hparent, hchild⟩ := hstep.frame_layers hop hk
  obtain ⟨-, -, hflags⟩ := hstep.frame hop hk
  rw [Pair.inherits, Template.hasLayer_congr hparent,
    Template.hasLayer_congr hchild, hflags, Pair.inherits]

namespace Pair.InOrder

/-- Neither list has changed, and the same layers are the child's own. -/
theorem congr (h : x.InOrder) (hparent : x'.parent.keys = x.parent.keys)
    (hchild : x'.child.keys = x.child.keys)
    (hwhole : ∀ k, (x'.flags k).whole = (x.flags k).whole) : x'.InOrder := by
  have hinherits : x'.inherits = x.inherits := by
    funext k
    rw [inherits, Template.hasLayer_of_keys hparent,
      Template.hasLayer_of_keys hchild, hwhole, inherits]
  rw [InOrder, hparent, hchild, hinherits]
  exact h

/-- The other layers are in order, whatever has been done to the one. -/
theorem others (h : x.InOrder) (hstep : PairStep p c op x x')
    (hop : op.key? = some key) :
    (x'.child.others key).filter x.inherits =
      (x'.parent.others key).filter x.inherits := by
  obtain ⟨hparent, hchild⟩ := hstep.otherLayers_eq hop
  rw [Template.others_of_otherLayers hparent,
    Template.others_of_otherLayers hchild, Template.others, Template.others,
    List.filter_comm, h, List.filter_comm]

/-- A layer that is not inherited after a step is in nobody's way. -/
theorem of_own (hothers : (x'.child.others key).filter x.inherits =
      (x'.parent.others key).filter x.inherits)
    (hinherits : ∀ k, k ≠ key → x'.inherits k = x.inherits k)
    (hown : x'.inherits key = false) : x'.InOrder := by
  have hcongr (t : Template) : (t.others key).filter x'.inherits =
      (t.others key).filter x.inherits := by
    refine List.filter_congr fun k hk => hinherits k ?_
    simpa using (List.mem_filter.mp hk).2
  rw [InOrder, ← Template.filter_others_of_not hown,
    ← Template.filter_others_of_not hown, hcongr, hcongr, hothers]

/-- A layer that stands in line after a step keeps the order. -/
theorem of_line {front back ahead after : List String}
    (hothers : (x'.child.others key).filter x.inherits =
      (x'.parent.others key).filter x.inherits)
    (hinherits : ∀ k, k ≠ key → x'.inherits k = x.inherits k)
    (hparentKeys : x'.parent.DistinctKeys)
    (hchildKeys : x'.child.DistinctKeys)
    (hchild : x'.child.keys = front ++ key :: back)
    (hparent : x'.parent.keys = ahead ++ key :: after)
    (hline : front.filter x.inherits = ahead.filter x.inherits) :
    x'.InOrder := by
  have hchildOthers := Template.others_of_keys hchildKeys hchild
  have hparentOthers := Template.others_of_keys hparentKeys hparent
  rw [hchildOthers, hparentOthers, List.filter_append, List.filter_append,
    hline] at hothers
  have hbehind := List.append_cancel_left hothers
  have hcongr {ks : List String} (hks : ∀ k ∈ ks, k ≠ key) :
      ks.filter x'.inherits = ks.filter x.inherits :=
    List.filter_congr fun k hk => hinherits k (hks k hk)
  have hne {t : Template} {ks : List String} (hks : t.others key = ks) :
      ∀ k ∈ ks, k ≠ key := by
    intro k hk
    rw [← hks] at hk
    simpa using (List.mem_filter.mp hk).2
  obtain ⟨hfront, hback⟩ := List.forall_mem_append.mp (hne hchildOthers)
  obtain ⟨hahead, hafter⟩ := List.forall_mem_append.mp (hne hparentOthers)
  rw [InOrder, hchild, hparent, List.filter_append, List.filter_append,
    hcongr hfront, hcongr hahead, hline, List.filter_cons, List.filter_cons,
    hcongr hback, hcongr hafter, hbehind]

end Pair.InOrder

theorem Pair.keys_placeLayer {l : Layer} (h : x.parent.hasLayer l.key = true)
    (n : Nat) :
    ∃ back,
      (x.child.placeLayer l ((x.parent.layerIndex? l.key).getD n)).keys =
        x.front l.key ++ l.key :: back := by
  cases hheld : x.child.hasLayer l.key with
  | true =>
      rw [Template.keys_placeLayer_of_hasLayer hheld, front, if_pos hheld]
      exact Template.keys_of_hasLayer hheld
  | false =>
      rw [Template.keys_placeLayer_of_not_hasLayer hheld, front, hheld,
        if_neg Bool.false_ne_true, Template.layerIndex?_of_hasLayer h,
        Option.getD_some]
      exact ⟨_, rfl⟩

/-- A step that puts its layer in line keeps the order. -/
theorem Pair.InOrder.step (hx : w.HasPair p c x) (hop : op.PutsInLine w)
    (hparent : x.parent.DistinctKeys) (hchild : x.child.DistinctKeys)
    (hparent' : x'.parent.DistinctKeys) (hchild' : x'.child.DistinctKeys)
    (hstep : PairStep p c op x x') (hremembers : ∀ key, x.RemembersAt key)
    (h : x.InOrder) : x'.InOrder := by
  cases hkey : op.key? with
  | none =>
      rcases hstep.of_key?_eq_none hkey with rfl | ⟨values, -, rfl⟩
      · exact h
      · exact h.congr rfl (Template.keys_takeValues _ _) fun _ => rfl
  | some key =>
      have hothers := h.others hstep hkey
      have hinherits {k : String} (hk : k ≠ key) := hstep.inherits_eq hkey hk
      cases hstep with
      | idle => exact h
      | setOfParent hset =>
          refine h.congr (Template.keys_of_set hset) ?_ fun _ => rfl
          dsimp only
          split
          · exact Template.keys_getD_set _ _ _ _
          · rfl
      | setOfChild hset =>
          refine h.congr rfl (Template.keys_of_set hset) fun k => ?_
          dsimp only
          split
          · exact whole_update _ _ _ _
          · rfl
      | resetProperty _ _ hset =>
          exact h.congr rfl (Template.keys_of_set hset) fun k =>
            whole_update _ _ _ _
      | resyncChild => cases hkey
      | resetLayer hl =>
          cases hkey
          obtain ⟨-, rfl⟩ := mem_of_findLayer? hl
          have hheld := Template.hasLayer_of_layer? hl
          obtain ⟨back, hback⟩ :=
            Pair.keys_placeLayer hheld x.child.layers.length
          obtain ⟨after, hafter⟩ := Template.keys_of_hasLayer hheld
          exact .of_line hothers (fun _ => hinherits) hparent' hchild'
            hback hafter (hop p x hx hheld)
      | deleteOfParent =>
          cases hkey
          refine .of_own hothers (fun _ => hinherits) ?_
          rw [Pair.inherits, Template.hasLayer_dropLayer hparent,
            Bool.false_and, Bool.false_and]
      | deleteOfChild =>
          cases hkey
          refine .of_own hothers (fun _ => hinherits) ?_
          rw [Pair.inherits, Template.hasLayer_dropLayer hchild, Bool.and_false,
            Bool.false_and]
      | @addToParent l _ _ hnew =>
          cases hkey
          have hahead := Template.keys_pushLayer x.parent l
          cases hheld : x.child.hasLayer l.key with
          | true =>
              obtain ⟨back, hback⟩ := Template.keys_of_hasLayer hheld
              have hline := hop c x hx hnew hheld
              rw [InLine, front, if_pos hheld,
                Template.before_of_not_hasLayer hnew] at hline
              rw [hheld] at hothers hinherits hchild'
              exact .of_line hothers (fun _ => hinherits) hparent' hchild' hback
                hahead hline
          | false =>
              have hback := Template.keys_pushLayer x.child l
              rw [hheld] at hothers hinherits hchild'
              exact .of_line hothers (fun _ => hinherits) hparent' hchild'
                hback hahead h
      | @addToChild l _ _ hnew =>
          cases hkey
          refine .of_own hothers (fun _ => hinherits) ?_
          -- If the parent has the layer, it was deleted from the child.
          cases hheld : x.parent.hasLayer l.key with
          | true => simp [inherits, hremembers l.key hheld hnew]
          | false => simp [inherits, hheld]
      | @replaceChildLayer l _ =>
          cases hkey
          refine .of_own hothers (fun _ => hinherits) ?_
          cases hheld : x.parent.hasLayer l.key with
          | true => simp [inherits, hheld, LayerFlags.own]
          | false => simp [inherits, hheld]

/-- A child that has nothing for itself and all that stands in front of the
layer in the parent takes the layer back in line: what it has lost can be put
back from the front on. -/
theorem Pair.InOrder.inLine (h : x.InOrder)
    (hheld : x.parent.hasLayer key = true)
    (hlost : x.child.hasLayer key = false)
    (hown : ∀ k ∈ x.child.keys, x.inherits k = true)
    (hfront : ∀ k ∈ x.parent.before key, x.inherits k = true) :
    x.InLine key := by
  obtain ⟨after, hkeys⟩ := Template.keys_of_hasLayer hheld
  have hchild :
      x.child.keys = x.parent.before key ++ (key :: after).filter
        x.inherits := by
    rw [← List.filter_eq_self.mpr hown, h, hkeys, List.filter_append,
      List.filter_eq_self.mpr hfront]
  rw [InLine, front, hlost, if_neg Bool.false_ne_true, hchild, List.take_left]

theorem Operation.putsInLine_resetLayer (hx : w.HasPair p c x)
    (h : x.InLine key) : (resetLayer c key).PutsInLine w := by
  intro p' x' hx' _
  obtain rfl : p' = p := Option.some.inj (hx'.link.symm.trans hx.link)
  exact hx'.eq hx ▸ h

/-! ## Runs -/

/-- What keeps the layers that children inherit in the order of the parent, and
stays so. -/
structure Workspace.Stacked (w : Workspace) : Prop where
  wellFormed : w.WellFormed
  remembers : ∀ p c x, w.HasPair p c x → ∀ key, x.RemembersAt key
  pairs : ∀ p c x, w.HasPair p c x → x.InOrder

theorem Workspace.Stacked.effect (hw : w.Stacked) (hop : op.PutsInLine w)
    (h : Effect w op w') : w'.Stacked where
  wellFormed := hw.wellFormed.effect h
  remembers := fun p c x' hx' key => by
    have hlinked := hw.wellFormed.linked
    rcases HasPair.of_effect hlinked hw.wellFormed.children h hx' with
      ⟨x, hx, hstep⟩ | ⟨-, -, ⟨canvas?, hchild⟩, -⟩
    · exact (hw.remembers p c x hx key).step
        (hw.wellFormed.sound _ _ hx.parent).keys hstep
    · obtain ⟨u, t, f⟩ := x'
      obtain rfl : t = Library.childTemplate u c canvas? := hchild
      exact Pair.remembersAt_childTemplate f key
  pairs := fun p c x' hx' => by
    have hlinked := hw.wellFormed.linked
    rcases HasPair.of_effect hlinked hw.wellFormed.children h hx' with
      ⟨x, hx, hstep⟩ | ⟨-, -, ⟨canvas?, hchild⟩, -⟩
    · have hkeys := hw.wellFormed.sound
      have hkeys' := (hw.wellFormed.effect h).sound
      exact (hw.pairs p c x hx).step hx hop (hkeys _ _ hx.parent).keys
        (hkeys _ _ hx.child).keys
        (hkeys' _ _ hx'.parent).keys (hkeys' _ _ hx'.child).keys hstep
        (hw.remembers p c x hx)
    · rw [Pair.InOrder, Template.keys, hchild, Library.layers_childTemplate,
        Template.keys]

theorem Workspace.stacked_empty : Workspace.empty.Stacked where
  wellFormed := wellFormed_empty
  remembers := fun _ _ _ h => by cases h.link
  pairs := fun _ _ _ h => by cases h.link

theorem Workspace.Stacked.run (hw : w.Stacked) {ops : List Operation}
    (hops : w.Each (fun w op => op.PutsInLine w) ops) : (w.run ops).Stacked :=
  hops.run_induct
    (fun hwell hop hw => Operation.perform_induct hwell.linked hw fun _ =>
      hw.effect hop)
    hw.wellFormed hw

/-- In every workspace that is built from the empty one by operations which put
layers in line, the layers that a child inherits stand in it as they stand in
the parent. -/
theorem Workspace.run_inOrder {ops : List Operation}
    (hops : Workspace.empty.Each (fun w op => op.PutsInLine w) ops)
    (hx : (Workspace.empty.run ops).HasPair p c x) : x.InOrder :=
  (stacked_empty.run hops).pairs p c x hx

end Steps

/-- A text that shows its own key. -/
def letter (key : String) : Layer :=
  ⟨key, .text (.ofField key (.px 32))⟩

/-- A child that has lost the first two of three layers. -/
def lostRun : List Operation :=
  [.register { Template.ofCanvas "wide" 1200 628 with
      layers := [letter "a", letter "b", letter "c"] },
    .createChild "wide" (some "tall") "fresh" none, .deleteLayer "tall" "a",
      .deleteLayer "tall" "b"]

/-- The pair of `lostRun` with layers that the child may have been given
back. -/
def lostPair (w : Workspace) (layers : List Layer) : Pair where
  parent := { Template.ofCanvas "wide" 1200 628 with
    layers := [letter "a", letter "b", letter "c"] }
  child := { Template.ofCanvas "tall" 1200 628 with layers := layers }
  flags := w.overrides.flags "tall"

/-- The layers put back from the front on. -/
def restoredRun : List Operation :=
  lostRun ++ [.resetLayer "tall" "a", .resetLayer "tall" "b"]

theorem restoredRun_inOrder :
    Workspace.empty.Each (fun w op => op.PutsInLine w) restoredRun ∧
      ∃ x, (Workspace.empty.run restoredRun).HasPair "wide" "tall" x ∧
      x.InOrder := by
  have hops :
      Workspace.empty.Each (fun w op => op.PutsInLine w) restoredRun := by
    refine ⟨trivial, trivial, trivial, trivial, ?_, ?_, trivial⟩
    · refine Operation.putsInLine_resetLayer (p := "wide")
        (x := lostPair _ [letter "c"]) ⟨?_, ?_, ?_, rfl⟩ ?_ <;> decide +kernel
    · refine Operation.putsInLine_resetLayer (p := "wide")
        (x := lostPair _ [letter "a", letter "c"]) ⟨?_, ?_, ?_, rfl⟩ ?_ <;>
          decide +kernel
  have hx : (Workspace.empty.run restoredRun).HasPair "wide" "tall"
      (lostPair (Workspace.empty.run restoredRun) [letter "a", letter "b",
        letter "c"]) :=
    ⟨by decide +kernel, by decide +kernel, by decide +kernel, rfl⟩
  exact ⟨hops, _, hx, Workspace.run_inOrder hops hx⟩

/-- Put back from the back on, the second layer comes to stand behind the
third. -/
theorem lostRun_not_inOrder :
    ¬ ∀ (ops : List Operation) (p c : String) (x : Pair),
      (Workspace.empty.run ops).HasPair p c x → x.InOrder := by
  intro h
  have hx : (Workspace.empty.run (lostRun ++ [.resetLayer "tall" "b"])).HasPair
    "wide" "tall" (lostPair _ [letter "c", letter "b"]) :=
    ⟨by decide +kernel, by decide +kernel, by decide +kernel, rfl⟩
  have horder := h _ _ _ _ hx
  revert horder
  decide +kernel

end Placard
