import Mathlib.Data.Finset.Card
import Placard.Proofs.Family.Lifetime
import Placard.Proofs.Family.Tracking
import Placard.Proofs.Template.Taking

/-!
# A child that catches up with its parent

A child can fall behind its parent while a class of properties is not inherited.
To catch up it goes through the parent's places, the canvas first and then the
layers, and takes what it inherits there and has no value of its own for. No
place is gone through twice, because no two layers of the parent have one key
and none has that of the canvas.

Afterwards the child reads as the parent does in every such place that both
have. In all others it reads as before, and it has the layers it had. The answer
is the number of places where it was behind, which is none when it catches up
again.
-/

namespace Placard

open Decimal

/-- What is read from the template can be written: its numbers are finite, and
no key of metadata and no asset is an empty text. -/
structure Template.Copyable (u : Template) : Prop where
  finite : ∀ x ∈ u.floats, x.isFinite = true
  nonempty : ∀ l ∈ u.layers, l.body.get? .metadataKey ≠ some (.text "") ∧
    l.body.get? .assetId ≠ some (.text "")

instance (u : Template) : Decidable u.Copyable :=
  decidable_of_iff ((∀ x ∈ u.floats, x.isFinite = true) ∧
      ∀ l ∈ u.layers, l.body.get? .metadataKey ≠ some (.text "") ∧
        l.body.get? .assetId ≠ some (.text ""))
    ⟨fun ⟨h, h'⟩ => ⟨h, h'⟩, fun ⟨h, h'⟩ => ⟨h, h'⟩⟩

/-! ## The values of the parent -/

section Values

variable {u : Template} {o : Overrides} {c key : String} {p : Property}
  {toggles : Toggles}

theorem Template.Copyable.of_get? {v : Placard.Value} (hu : u.Copyable)
    (hv : u.get? key p = some v) : v.Copyable p ∧ v.Finite := by
  have hfinite := finite_of_get? hu.finite hv
  refine ⟨hfinite.copyable ?_, hfinite⟩
  rintro hp rfl
  unfold get? at hv
  split at hv
  · obtain rfl | rfl := hp <;> cases hv
  · obtain ⟨l, hl, hread⟩ := Option.bind_eq_some_iff.mp hv
    obtain ⟨hmetadata, hasset⟩ := hu.nonempty l (mem_of_findLayer? hl).1
    obtain rfl | rfl := hp
    · exact hmetadata hread
    · exact hasset hread

theorem Template.offers_inheritedValues (hu : u.Copyable) :
    u.Offers (inheritedValues u o c toggles) := by
  intro key p v hmem
  obtain ⟨hinherits, -, hv⟩ := mem_inheritedValues.mp hmem
  obtain ⟨hcopy, hfinite⟩ := hu.of_get? hv
  exact ⟨hv, hcopy, hfinite, Toggles.not_side_of_inherits hinherits⟩

theorem nodup_inheritedValues (hkeys : u.DistinctKeys)
    (hfree : u.hasLayer canvasKey = false) :
    ((inheritedValues u o c toggles).map placeOf).Nodup := by
  have hplace {key : String} {p : Property} {place : String × Property}
      (h : Option.map placeOf (if toggles.inherits key p && !o.isOverridden c
        key p then
          (u.get? key p).map fun v => (key, p, v) else none) = some place) :
      place = (key, p) := by
    obtain ⟨value, hvalue, rfl⟩ := Option.map_eq_some_iff.mp h
    split at hvalue
    · obtain ⟨v, -, rfl⟩ := Option.map_eq_some_iff.mp hvalue
      rfl
    · cases hvalue
  have hcanvas : canvasKey ∉ u.keys := by
    rw [← Template.hasLayer_iff, hfree]
    exact Bool.false_ne_true
  unfold inheritedValues
  simp only [List.map_flatMap, List.map_filterMap, List.nodup_flatMap]
  constructor
  · intro key _
    refine Property.nodup_all.filterMap fun p q place hp hq => ?_
    exact (Prod.mk.inj ((hplace hp).symm.trans (hplace hq))).2
  · have hnodup : (canvasKey :: u.keys).Nodup :=
      List.nodup_cons.mpr ⟨hcanvas, hkeys⟩
    refine hnodup.imp ?_
    intro key key' hne place hmem hmem'
    obtain ⟨p, -, hp⟩ := List.mem_filterMap.mp hmem
    obtain ⟨q, -, hq⟩ := List.mem_filterMap.mp hmem'
    exact hne (Prod.mk.inj ((hplace hp).symm.trans (hplace hq))).1

theorem Workspace.run_unreserved (ops : List Operation) :
    (Workspace.empty.run ops).library.Unreserved :=
  wellFormed_empty.run_induct (P := fun w => w.library.Unreserved)
    (fun hw h hfree => h.unreserved hw.linked hfree)
    (fun _ _ _ h => by cases h) ops

end Values

/-! ## The child -/

namespace Pair

/-- The child inherits the property and has no value of its own for it. -/
def Inherits (x : Pair) (toggles : Toggles) (layer : String) (q : Property) :
    Prop :=
  toggles.inherits layer q = true ∧ (x.flags layer).covers q = false

/-- The child is behind its parent: it inherits a property that both have, and
its value is another than the parent's. -/
def Behind (x : Pair) (toggles : Toggles) (layer : String) (q : Property) :
    Prop :=
  x.Inherits toggles layer q ∧ ∃ v old, x.parent.get? layer q = some v ∧
    x.child.get? layer q = some old ∧ old.same v = false

/-- The child of the pair has caught up and is `t` now, for which it took `n`
values. -/
structure CaughtUp (x : Pair) (toggles : Toggles) (t : Template) (n : Nat) :
    Prop where
  /-- Where the child inherits it reads as the parent does. -/
  inherited : ∀ layer q v old, x.Inherits toggles layer q →
    x.parent.get? layer q = some v →
    x.child.get? layer q = some old → ∃ new, t.get? layer q = some new ∧
      new.same v = true
  /-- Where it does not, or the parent has nothing to inherit, it reads as
  before. -/
  others : ∀ layer q, ¬ (x.Inherits toggles layer q ∧
    (x.parent.get? layer q).isSome) →
    t.get? layer q = x.child.get? layer q
  /-- Layers that the parent lacks are as before. -/
  own : ∀ key, key ≠ canvasKey → x.parent.hasLayer key = false →
    t.layer? key = x.child.layer? key
  id : t.id = x.child.id
  keys : t.keys = x.child.keys
  /-- No layer has another kind, calculation or role. -/
  fixed : t.layers.map (fun l => l.body.fixed) = x.child.layers.map fun l =>
    l.body.fixed
  count : ∃ places : Finset (String × Property),
    (∀ layer q, (layer, q) ∈ places ↔ x.Behind toggles layer q) ∧
      places.card = n

theorem caughtUp_takeValues {x : Pair} {toggles : Toggles}
    {values : List (String × Property × Value)}
    (hvalues : ∀ layer q v, (layer, q, v) ∈ values ↔
      x.Inherits toggles layer q ∧ x.parent.get? layer q = some v)
    (hoffers : x.parent.Offers values) (hnodup : (values.map placeOf).Nodup) :
    x.CaughtUp toggles (x.child.takeValues values).1
      (x.child.takeValues values).2 := by
  have htaken := Template.taken_takeValues hoffers hnodup x.child
  constructor
  case inherited =>
    intro layer q v old hinherits hv hold
    exact htaken.same hoffers ((hvalues layer q v).mpr ⟨hinherits, hv⟩) hold
  case others =>
    intro layer q hnot
    refine htaken.others layer q fun hmem => hnot ?_
    obtain ⟨⟨layer', q', v⟩, hlisted, heq⟩ := List.mem_map.mp hmem
    cases heq
    obtain ⟨hinherits, hv⟩ := (hvalues layer' q' v).mp hlisted
    exact ⟨hinherits, Option.isSome_of_eq_some hv⟩
  case own =>
    intro key hkey hnone
    refine Template.layer?_takeValues (fun q v hmem => ?_) x.child
    have hlayer := Template.hasLayer_of_get? ((hvalues key q v).mp hmem).2 hkey
    rw [hnone] at hlayer
    cases hlayer
  case id =>
    exact Template.takeValues_induct (P := fun t => t.id = x.child.id)
      (fun _ hset h => (Template.id_of_set hset).trans h) rfl
  case keys => exact Template.keys_takeValues x.child values
  case fixed =>
    exact Template.takeValues_induct
      (P := fun t => t.layers.map (fun l => l.body.fixed) =
        x.child.layers.map fun l => l.body.fixed)
      (fun _ hset h => (Template.differAt_of_set hset).fixed.trans h) rfl
  case count =>
    -- no two values are meant for one place, so there are as many places as
    -- values
    have hdistinct : ((values.filter x.child.lags).map placeOf).Nodup :=
      hnodup.sublist (List.filter_sublist.map placeOf)
    refine ⟨((values.filter x.child.lags).map placeOf).toFinset,
      fun layer q => ?_, ?_⟩
    · rw [List.mem_toFinset, List.mem_map]
      constructor
      · rintro ⟨⟨layer', q', v⟩, hmem, heq⟩
        cases heq
        obtain ⟨hmem, hlags⟩ := List.mem_filter.mp hmem
        obtain ⟨hinherits, hv⟩ := (hvalues layer' q' v).mp hmem
        obtain ⟨old, hold, hdiffers⟩ := Template.exists_of_lags hlags
        exact ⟨hinherits, v, old, hv, hold, hdiffers⟩
      · rintro ⟨hinherits, v, old, hv, hold, hdiffers⟩
        refine ⟨(layer, q, v), List.mem_filter.mpr
          ⟨(hvalues layer q v).mpr ⟨hinherits, hv⟩, ?_⟩, rfl⟩
        rw [Template.lags_of_get? hold, hdiffers]
        rfl
    · rw [List.toFinset_card_of_nodup hdistinct, List.length_map, htaken.count]

end Pair

/-! ## Catching up -/

namespace Workspace

variable {w : Workspace} {p c : String} {toggles : Toggles} {x : Pair}

theorem HasPair.outcome_resyncChild (hx : w.HasPair p c x) (toggles : Toggles) :
    outcome (Edit.resyncChild c toggles) w =
      let taken :=
        x.child.takeValues (inheritedValues x.parent w.overrides c toggles)
      (.ok taken.2, ⟨w.library.put c taken.1, w.overrides⟩) := by
  refine outcome_eq_of_ends ?_
  unfold Edit.resyncChild
  rw [ends_bind, Edit.ends_parentOf, hx.link]
  refine ⟨fun parent hparent => ?_, nofun⟩
  obtain rfl := Option.some.inj hparent
  rw [ends_bind, Edit.ends_template, hx.parent]
  refine ⟨fun u hu => ?_, nofun⟩
  obtain rfl := Option.some.inj hu
  rw [ends_bind, Edit.ends_overrides, ends_bind, Edit.ends_template, hx.child]
  refine ⟨fun t ht => ?_, nofun⟩
  obtain rfl := Option.some.inj ht
  rw [ends_bind, Edit.ends_put, ends_pure]
  exact ⟨rfl, rfl⟩

theorem HasPair.catches_up (hw : w.WellFormed) (hfree : w.library.Unreserved)
    (hx : w.HasPair p c x) (hcopy : x.parent.Copyable) (toggles : Toggles) :
    ∃ n t,
        outcome (Edit.resyncChild c toggles) w =
          (.ok n, ⟨w.library.put c t, w.overrides⟩) ∧
      x.CaughtUp toggles t n ∧
      outcome (Edit.resyncChild c toggles) ⟨w.library.put c t, w.overrides⟩ =
        (.ok 0, ⟨w.library.put c t, w.overrides⟩) := by
  have hcanvas := hfree p _ (hw.linked.parentOf?_parent hx.link) hx.parent
  have hnodup :
      ((inheritedValues x.parent w.overrides c toggles).map placeOf).Nodup :=
    nodup_inheritedValues (hw.sound _ _ hx.parent).keys hcanvas
  have hoffers :
      x.parent.Offers (inheritedValues x.parent w.overrides c toggles) :=
    Template.offers_inheritedValues hcopy
  refine ⟨_, _, hx.outcome_resyncChild toggles, ?caught, ?again⟩
  case caught =>
    refine Pair.caughtUp_takeValues (fun layer q v => ?_) hoffers hnodup
    rw [mem_inheritedValues, hx.flags, ← and_assoc]
    rfl
  case again =>
    have hne : p ≠ c := Ne.symm (hw.linked.ne_parent hx.link)
    have hx' : HasPair ⟨w.library.put c
        (x.child.takeValues (inheritedValues x.parent w.overrides c toggles)).1,
        w.overrides⟩ p c { x with
          child :=
            (x.child.takeValues
              (inheritedValues x.parent w.overrides c toggles)).1 } :=
      ⟨hx.link, (Library.get?_put_of_ne hne).trans hx.parent,
        Library.get?_put_self _ _ _, hx.flags⟩
    rw [hx'.outcome_resyncChild toggles]
    dsimp only
    rw [Template.takeValues_takeValues hoffers hnodup,
      Library.put_self (Library.get?_put_self _ _ _)]

/-- A child of a parent whose values can be written catches up: it is another
template then, and nothing else of the workspace has changed. To catch up again
does nothing. -/
theorem resync_catches_up (ops : List Operation) {p c : String} {x : Pair}
    (hx : (Workspace.empty.run ops).HasPair p c x) (hcopy : x.parent.Copyable)
    (toggles : Toggles) :
    ∃ n t w',
      outcome (Edit.resyncChild c toggles) (Workspace.empty.run ops) =
        (.ok n, w') ∧
      w' = ⟨(Workspace.empty.run ops).library.put c t,
        (Workspace.empty.run ops).overrides⟩ ∧
      x.CaughtUp toggles t n ∧
      outcome (Edit.resyncChild c toggles) w' = (.ok 0, w') := by
  obtain ⟨n, t, hfirst, hcaught, hagain⟩ :=
    hx.catches_up (wellFormed_empty.run ops) (run_unreserved ops) hcopy toggles
  exact ⟨n, t, _, hfirst, rfl, hcaught, hagain⟩

/-- A title that the child inherits, and whose new colour and place it has
missed. -/
def missedRun : List Operation :=
  titleRun ++ [.setProperty "wide" "title" .color (.color .black) ⟨false, true⟩,
    .setProperty "wide" "title" .x (.number 40) ⟨true, false⟩]

theorem missedRun_resync_catches_up :
    ∃ x, (Workspace.empty.run missedRun).HasPair "wide" "tall" x ∧
      x.parent.Copyable ∧
      ∃ n t w', outcome (Edit.resyncChild "tall" .all)
        (Workspace.empty.run missedRun) = (.ok n, w') ∧
        w' = ⟨(Workspace.empty.run missedRun).library.put "tall" t,
          (Workspace.empty.run missedRun).overrides⟩ ∧
        x.CaughtUp .all t n ∧
        outcome (Edit.resyncChild "tall" .all) w' = (.ok 0, w') := by
  obtain ⟨x, hx⟩ :=
    exists_pair_of_run (p := "wide") (c := "tall") missedRun (by decide +kernel)
  have hcopy : ∀ u ∈ (Workspace.empty.run missedRun).library.get? "wide",
      u.Copyable := by
    decide +kernel
  exact ⟨x, hx, hcopy _ hx.parent,
    resync_catches_up missedRun hx (hcopy _ hx.parent) .all⟩

example : (outcome (Edit.resyncChild "tall" ⟨true, false⟩)
    (Workspace.empty.run missedRun)).1 = .ok 1 := by
  rfl

end Workspace

end Placard
