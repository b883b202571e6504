import Placard.Proofs.Template.Validity
import Placard.Proofs.Wire.Preview
import Placard.Proofs.Wire.Settling
import Placard.Proofs.Wire.Walk

/-!
# Which calculations are kept

The compiler keeps calculations in three stages. It resolves those that can be
followed; of the derivations it drops those that start empty until there are
none; and it walks over what is left, so that each layer finds the one it is
derived from defined. Each stage was described by itself, the first by what the
layers say of themselves, the second by the largest supported set, the third by
a walk without a bound. Here they are put together, with the warnings of the
check, which name no layer that resolves, and with the variables: a layer that
is kept needs one, so its field has one.

None of the stages needs the keys to be different, or the calculations to lead
anywhere, in order to come to an end.
-/

namespace Placard

open Relation (ReflTransGen)

/-! ## Warnings about calculations -/

namespace Template

variable {t : Template} {v : Violation}

theorem mem_referenceViolations (h : v ∈ t.violations)
    (hrule : v.rule = "references") :
    ∃ key text, (key, text) ∈ t.textLayers ∧
      v ∈ Check.referenceViolations t key text := by
  simp only [violations, List.mem_append, List.mem_flatMap] at h
  rcases h with (((h | h) | ⟨l, -, h⟩) | ⟨⟨key, text⟩, hmem, h⟩) | ⟨l, -, h⟩
  · exact absurd ((Check.of_canvasViolations h).1.symm.trans hrule) (by decide)
  · exact absurd ((Check.of_keyViolations h).1.symm.trans hrule) (by decide)
  · exact absurd ((Check.of_geometryViolations h).1.symm.trans hrule)
      (by decide)
  · exact ⟨key, text, hmem, h⟩
  · exact absurd ((Check.of_roleViolations h).1.symm.trans hrule) (by decide)

/-- No layer that the check warns about is derived. -/
theorem not_derived_of_warned (hd : t.DistinctKeys) (h : v ∈ t.violations)
    (hrule : v.rule = "references") :
    ∃ key, v.layer = some key ∧ t.derivations.get? key = none := by
  obtain ⟨key, text, hmem, hv⟩ := mem_referenceViolations h hrule
  obtain ⟨-, hlayer, c, hc, hbad⟩ := Check.of_referenceViolations hv
  refine ⟨key, hlayer, Option.eq_none_iff_forall_not_mem.mpr fun d hder => ?_⟩
  obtain ⟨text', c', dependency, _, _, steps, hres, -⟩ :=
    (get?_derivations_iff hd).mp hder
  have hcalc := calculation?_of_mem hd hres.declared
  rw [hres.calculates, calculation?_of_mem hd hmem, hc, Option.some.injEq]
    at hcalc
  subst hcalc
  rcases hbad with (hnone | hself) | hsteps
  · rw [hres.depends] at hnone
    cases hnone
  · exact hres.other hself
  · rw [hres.readable] at hsteps
    cases hsteps

/-! ## What comes to an end -/

/-- Each stage comes to an end, and what is computed within a bound is what it
comes to without one: the chain of every layer is followed to one answer,
dropping does not go on for ever, and the walk over any derivations comes to one
order. -/
structure Halts (t : Template) (bs : Bindings) : Prop where
  chains : ∀ key c, t.calculation? key = some c → c.dependsOn ≠ key → ∀ b,
    t.Follow [key] c.dependsOn b ↔
      t.chainEnds (t.layers.length + 1) [key] c.dependsOn = b
  dropping : WellFounded fun rest kept => t.Drops bs kept rest
  walks : ∀ kept order,
    t.Walk kept [] (t.roots kept) order ↔ t.definitionOrder kept = order

theorem halts (t : Template) (bs : Bindings) : t.Halts bs where
  chains _ _ hc hne _ := follow_dependsOn_iff hc hne
  dropping := drops_wellFounded t bs
  walks _ _ := walk_roots_iff

end Template

namespace Plan

variable {t : Template} {bs : Bindings} {key : String} {d : Derivation}

/-- The field of a layer that is kept has a variable, and the plan defines
it. -/
theorem exists_variable_of_kept (hd : t.DistinctKeys)
    (h : (t.keptDerivations bs).get? key = some d) (settings : CompilerSettings)
    (canvas : Size) (asset : String) :
    ∃ text v, t.textLayer? key = some text ∧
      t.variables.get? (text.field key) = some v ∧
      text.field key ∈ (definitions t bs).fields ∧
      v ∈ (compile settings t bs canvas asset).variables.map (·.2) := by
  obtain ⟨text, c, _, target, source, steps, hder, rfl⟩ :=
    Template.derives_of_kept h
  obtain ⟨blocks, hdefs, hwell, hcomplete⟩ := exists_blocks hd bs
  have hfield := hcomplete key text hder.declared target hder.hasTarget
    (by rw [expressionOf_of_kept h]; rfl)
  obtain ⟨b, hb, heq⟩ := List.mem_map.mp hfield
  have hnamed := (hwell.isBlock b hb).named
  rw [heq, hder.hasTarget, Option.some.injEq] at hnamed
  refine ⟨text, target, Template.textLayer?_of_mem hd hder.declared,
    hder.hasTarget, (mem_fields_of_blocks hdefs).mpr ⟨b, hb, heq⟩, ?_⟩
  rw [targets_of_blocks hdefs, hnamed]
  exact List.mem_map_of_mem hb

/-- What is kept of the calculations of a template.

The derivations are those of the layers that resolve, and no layer that the
check warns about is among them. Those that are kept are the largest supported
set of them, and they are come to in whichever way the ones that start empty are
dropped. Each of them has a variable. -/
structure KeepsCalculations (settings : CompilerSettings) (t : Template)
    (bs : Bindings) (canvas : Size) (asset : String) : Prop where
  resolved : ∀ key d, t.derivations.get? key = some d ↔
    ∃ text c dependency target source steps,
      t.Resolves key text c dependency target source steps ∧
        d = ⟨c.dependsOn, .derived target source steps⟩
  warned : ∀ v ∈ t.violations, v.rule = "references" →
    ∃ key, v.layer = some key ∧ t.derivations.get? key = none
  within : Template.Within (t.keptDerivations bs) t.derivations
  largest : IsGreatest {S | t.Supported bs t.derivations S}
    {key | (t.keptDerivations bs).contains key = true}
  reached : ReflTransGen (t.Drops bs) t.derivations (t.keptDerivations bs)
  settled : ∀ rest, ¬ t.Drops bs (t.keptDerivations bs) rest
  anyOrder : ∀ rest, ReflTransGen (t.Drops bs) t.derivations rest →
    (∀ next, ¬ t.Drops bs rest next) → rest = t.keptDerivations bs
  defined : ∀ key d, (t.keptDerivations bs).get? key = some d →
    ∃ text v, t.textLayer? key = some text ∧
      t.variables.get? (text.field key) = some v ∧
      text.field key ∈ (definitions t bs).fields ∧
      v ∈ (compile settings t bs canvas asset).variables.map (·.2)

/-- All stages come to an end, and where keys are different, what is kept of the
calculations in the end is told by the layers and their content. -/
theorem compile_keepsCalculations (settings : CompilerSettings) (t : Template)
    (bs : Bindings) (canvas : Size) (asset : String) :
    t.Halts bs ∧ (t.DistinctKeys →
      KeepsCalculations settings t bs canvas asset) := by
  refine ⟨t.halts bs, fun hd => ?_⟩
  have hreached := Template.settle_reached t bs t.derivations
  have hsettled := Template.not_drops_settle t bs t.derivations
  exact {
    resolved := fun _ _ => Template.get?_derivations_iff hd
    warned := fun _ h hrule => Template.not_derived_of_warned hd h hrule
    within := Template.within_of_drops hreached
    largest := Template.isGreatest_of_not_drops hreached hsettled
    reached := hreached
    settled := hsettled
    anyOrder := fun _ hrun hstuck => Template.eq_keptDerivations hrun hstuck
    defined := fun _ _ h => exists_variable_of_kept hd h settings canvas asset }

/-- With a price, the layer that is reduced from it is kept; the two that depend
on each other are not. -/
theorem soldOut_keepsCalculations :
    soldOut.DistinctKeys ∧
      (soldOut.keptDerivations
        (Table.empty.insert "Price" (.ofLiteral "Price" "10"))).keys =
          ["reduced"] ∧
      KeepsCalculations ⟨1080, 48⟩ soldOut
        (Table.empty.insert "Price" (.ofLiteral "Price" "10")) ⟨1080, 1080⟩
        "shop/shoe" := by
  have hd : soldOut.DistinctKeys := by decide
  exact ⟨hd, by decide +kernel, (compile_keepsCalculations _ _ _ _ _).2 hd⟩

end Plan

end Placard
