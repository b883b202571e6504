import Placard.Proofs.Family.Commuting
import Placard.Proofs.Family.Confinement
import Placard.Proofs.Family.Lifetime
import Placard.Proofs.Template.Copying

/-!
# What the status of a property promises

The status of a property of a child says what a write to the parent will do
there. Of one that is inherited it promises that the write goes on to the child,
and of any other that it does not. The status and the write look at the same
flags, and at the same layers where both templates have the property; what the
write looks at besides is whether the property is of a class that is inherited.

A side of the canvas is of no class. A child has its own, and no write goes on
to it, but its status is that of a property which is inherited all the same.
There the first promise is not kept, and there only.
-/

namespace Placard

namespace Workspace

variable {w w' : Workspace} {p c layer : String} {q : Property} {v : Value}
  {toggles : Toggles} {x : Pair} {report : EditReport}

/-- The status of a property that the parent has is a matter of the flags. -/
theorem HasPair.outcome_propertyStatus (hx : w.HasPair p c x)
    (hparent : (x.parent.get? layer q).isSome) :
    outcome (Edit.propertyStatus c layer q) w =
      (.ok (if (x.flags layer).whole then .own
        else
          if (x.flags layer).covers q then .overridden
          else .inherited), w) := by
  obtain ⟨u, hu⟩ := Option.isSome_iff_exists.mp hparent
  have hholds : w.library.holds p layer = true :=
    (holds_eq hx.parent layer).trans (Template.isSome_part?_of_get? hu)
  have hwhole : w.overrides.isLayerOverridden c layer =
      (x.flags layer).whole := by
    rw [Overrides.isLayerOverridden, hx.flags]
  have hcovers :
      w.overrides.isOverridden c layer q = (x.flags layer).covers q := by
    rw [Overrides.isOverridden_eq, hx.flags]
  refine outcome_eq_of_ends ?_
  unfold Edit.propertyStatus
  rw [ends_bind, Edit.ends_template, hx.child]
  refine ⟨fun t _ => ?_, fun hnone => absurd hnone (Option.some_ne_none _)⟩
  rw [ends_bind, Edit.ends_library, hx.link]
  dsimp only
  rw [ends_bind, Edit.ends_template, hx.parent]
  refine ⟨fun u _ => ?_, fun hnone => absurd hnone (Option.some_ne_none _)⟩
  rw [ends_bind, ends_get, hholds, hwhole, hcovers]
  cases (x.flags layer).whole with
  | true => exact ⟨rfl, rfl⟩
  | false => cases (x.flags layer).covers q <;> exact ⟨rfl, rfl⟩

section Write

variable (hw : w.WellFormed) (hx : w.HasPair p c x)
  (hset : outcome (Edit.setProperty p layer q v toggles) w = (.ok report, w'))

include hw hx hset

theorem HasPair.done_of_setProperty :
    Write.Done ⟨p, layer, q, v, toggles⟩ w w' ∧
      ∃ u, x.parent.set layer q v = .ok u ∧ w'.library.get? p = some u := by
  have heffect : Effect w (Write.operation ⟨p, layer, q, v, toggles⟩) w' :=
    (ends_setProperty p layer q v toggles).of_outcome hset
  have hdone := Write.done_of_effect hw.linked heffect
  obtain ⟨t, u, ht, hset⟩ := Write.fits_of_effect heffect
  obtain rfl := Option.some.inj (hx.parent.symm.trans ht)
  refine ⟨hdone, u, hset, ?_⟩
  rw [hdone.templates, hx.parent, Option.map_some, Write.step_self w hset]

/-- A write to the parent leaves a child alone that has a value of its own. -/
theorem HasPair.get?_eq_of_covers (hcovers : (x.flags layer).covers q = true) :
    w'.library.get? c = w.library.get? c := by
  obtain ⟨hdone, -⟩ := hx.done_of_setProperty hw hset
  have hstays : (⟨p, layer, q, v, toggles⟩ : Write).reaches w c = false := by
    rw [Write.reaches_of_ne (hw.linked.ne_parent hx.link), Write.passes,
      hx.flags, hcovers, Bool.not_true, Bool.and_false, Bool.and_false]
  rw [hdone.templates, hx.child, Option.map_some,
    Write.step_of_not_reaches hstays]

/-- A write to the parent goes on to a child that inherits the property and has
it. -/
theorem HasPair.passed_on (hcovers : (x.flags layer).covers q = false)
    (hinherits : toggles.inherits layer q = true)
    (hchild : (x.child.get? layer q).isSome) :
    c ∈ report.updatedChildren ∧
      ∃ u t, w'.library.get? p = some u ∧ w'.library.get? c = some t ∧
        t.get? layer q = u.get? layer q := by
  obtain ⟨hdone, u, hparent, hu⟩ := hx.done_of_setProperty hw hset
  obtain ⟨t, hpassed, hsame⟩ := Template.exists_set_of_set hparent hchild
  obtain ⟨old, hold⟩ := Option.isSome_iff_exists.mp hchild
  have hholds : w.library.holds c layer = true :=
    (holds_eq hx.child layer).trans (Template.isSome_part?_of_get? hold)
  refine ⟨?reported, u, t, hu, ?written, hsame⟩
  case reported =>
    have hoverridden : w.overrides.isOverridden c layer q = false := by
      rw [Overrides.isOverridden_eq, hx.flags, hcovers]
    -- the child does not refuse what the parent has taken
    have htaken : w.library.refusal? c layer q v = none := by
      simp only [Library.refusal?, hx.child, hpassed]
    rw [(ends_setProperty_report hw.linked p layer q v toggles).of_outcome hset,
      Workspace.updated, hw.linked.isParent hx.link, hinherits, Bool.true_and,
      if_pos rfl, List.mem_filter, hholds, hoverridden, htaken]
    exact ⟨hw.linked.mem_childrenOf.mpr hx.link, rfl⟩
  case written =>
    have hreaches : (⟨p, layer, q, v, toggles⟩ : Write).reaches w c = true := by
      rw [Write.reaches, hx.link, Write.passes, hinherits, hholds, hx.flags,
        hcovers]
      simp
    rw [hdone.templates, hx.child, Option.map_some, Write.step, hreaches,
      if_pos rfl, Write.on, Template.trySet_of_ok hpassed]

end Write

/-- Where parent and child have a property, its status in the child keeps its
promises: what is written to the parent, with both classes inherited, goes on to
the child if the property is inherited and is no side of the canvas; and if it
is not inherited, the child stays as it is whatever is written. -/
theorem status_kept (ops : List Operation) {p c layer : String} {q : Property}
    {x : Pair} (hx : (Workspace.empty.run ops).HasPair p c x)
    (hparent : (x.parent.get? layer q).isSome)
    (hchild : (x.child.get? layer q).isSome) :
    ∃ status, outcome (Edit.propertyStatus c layer q)
      (Workspace.empty.run ops) = (.ok status, Workspace.empty.run ops) ∧
      (status = .inherited ∨ status = .overridden ∨ status = .own) ∧
      ∀ v toggles report w', outcome (Edit.setProperty p layer q v toggles)
          (Workspace.empty.run ops) = (.ok report, w') →
        (status = .inherited → toggles = .all →
          ¬ (layer = canvasKey ∧ (q = .width ∨ q = .height)) →
          c ∈ report.updatedChildren ∧
            ∃ u t, w'.library.get? p = some u ∧ w'.library.get? c = some t ∧
              t.get? layer q = u.get? layer q) ∧
        (status ≠ .inherited →
          w'.library.get? c = (Workspace.empty.run ops).library.get? c) := by
  have hw := wellFormed_empty.run ops
  refine ⟨_, hx.outcome_propertyStatus hparent, ?_,
    fun v toggles report w' hset => ?_⟩
  · split
    · exact Or.inr (Or.inr rfl)
    · split
      · exact Or.inr (Or.inl rfl)
      · exact Or.inl rfl
  · cases hcovers : (x.flags layer).covers q with
    | true =>
        refine ⟨fun h => ?_, fun _ => hx.get?_eq_of_covers hw hset hcovers⟩
        split at h <;> cases h
    | false =>
        have hwhole : (x.flags layer).whole = false :=
          (Bool.or_eq_false_iff.mp hcovers).1
        rw [hwhole]
        refine ⟨fun _ hall hside => ?_, fun h => absurd rfl h⟩
        subst hall
        exact hx.passed_on hw hset hcovers
          (Toggles.inherits_all_iff.mpr hside) hchild

theorem titleRun_status_kept :
    ∃ x, (Workspace.empty.run titleRun).HasPair "wide" "tall" x ∧
      (x.parent.get? "title" .font).isSome ∧
      (x.child.get? "title" .font).isSome ∧
      ∃ status, outcome (Edit.propertyStatus "tall" "title" .font)
          (Workspace.empty.run titleRun) =
            (.ok status, Workspace.empty.run titleRun) ∧
        (status = .inherited ∨ status = .overridden ∨ status = .own) ∧
        ∀ v toggles report w',
          outcome (Edit.setProperty "wide" "title" .font v toggles)
            (Workspace.empty.run titleRun) = (.ok report, w') →
          (status = .inherited → toggles = .all →
            ¬ ("title" = canvasKey ∧
              (Property.font = .width ∨ Property.font = .height)) →
            "tall" ∈ report.updatedChildren ∧
              ∃ u t, w'.library.get? "wide" = some u ∧
              w'.library.get? "tall" = some t ∧
                t.get? "title" .font = u.get? "title" .font) ∧
          (status ≠ .inherited →
            w'.library.get? "tall" = (Workspace.empty.run titleRun).library.get?
              "tall") := by
  obtain ⟨x, hx⟩ :=
    exists_pair_of_run (p := "wide") (c := "tall") titleRun (by decide +kernel)
  have hparent : ∀ u ∈ (Workspace.empty.run titleRun).library.get? "wide",
      (u.get? "title" .font).isSome := by decide +kernel
  have hchild : ∀ t ∈ (Workspace.empty.run titleRun).library.get? "tall",
      (t.get? "title" .font).isSome := by decide +kernel
  exact ⟨x, hx, hparent _ hx.parent, hchild _ hx.child,
    status_kept titleRun hx (hparent _ hx.parent) (hchild _ hx.child)⟩

/-- The width of a child counts as inherited, and a new one for its parent does
not reach it. -/
theorem width_not_kept :
    ¬ ∀ (ops : List Operation) (p c layer : String) (q : Property) (x : Pair)
      (v : Value) (report : EditReport) (w' : Workspace),
      (Workspace.empty.run ops).HasPair p c x → (x.parent.get? layer q).isSome →
      (x.child.get? layer q).isSome →
      (outcome (Edit.propertyStatus c layer q) (Workspace.empty.run ops)).1 =
        .ok .inherited →
      outcome (Edit.setProperty p layer q v .all) (Workspace.empty.run ops) =
        (.ok report, w') →
      c ∈ report.updatedChildren ∧
        ∃ u t, w'.library.get? p = some u ∧ w'.library.get? c = some t ∧
          t.get? layer q = u.get? layer q := by
  intro h
  obtain ⟨x, hx⟩ :=
    exists_pair_of_run (p := "wide") (c := "tall") titleRun (by decide +kernel)
  have hwritten :
      (outcome (Edit.setProperty "wide" canvasKey .width (.number 800) .all)
        (Workspace.empty.run titleRun)).1 = .ok ⟨[], false⟩ := by rfl
  obtain ⟨hlisted, -⟩ :=
    h titleRun "wide" "tall" canvasKey .width x (.number 800) _ _ hx rfl
      rfl (by rfl) (Prod.ext hwritten rfl)
  cases hlisted

end Workspace

end Placard
