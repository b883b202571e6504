import Placard.Proofs.Wire.Resolution
import Placard.Proofs.Wire.Retexting

/-!
# Calculations that are not kept

A layer whose calculation is not kept is compiled as if it had none. Taking the
calculation away changes nothing that the other parts of compiling look at: the
key and the place of the layer, its field, its content and the way that it is
written stay as they are. It changes what the calculations are resolved from,
however. Chains become shorter, so a layer that had been grounded stays so,
since its chain ends at the latest where it did; and no layer is resolved that
had not been, because only those that are kept still calculate. All that is
resolved is then kept, and nothing is left to drop.
-/

namespace Placard

/-! ## Taking calculations away -/

/-- The layer with its calculation, or without. -/
def TextLayer.calculateIf (keeps : Bool) (text : TextLayer) : TextLayer :=
  { text with calculation := if keeps then text.calculation else none }

/-- The layer without its calculation, unless its key is to calculate. -/
def Layer.calculateOnly (keeps : String → Bool) (l : Layer) : Layer :=
  match l.body with
  | .text text => { l with body := .text (text.calculateIf (keeps l.key)) }
  | .image _ => l

/-- The template with the calculations of such layers only. -/
def Template.calculateOnly (keeps : String → Bool) (t : Template) : Template :=
  { t with layers := t.layers.map (Layer.calculateOnly keeps) }

/-! ## What stays as it is -/

namespace Template

variable (keeps : String → Bool) (t : Template)

theorem calculateOnly_eq_mapTexts :
    t.calculateOnly keeps = t.mapTexts fun key =>
      TextLayer.calculateIf (keeps key) :=
  rfl

theorem order_calculateIf (key : String) (text : TextLayer) :
    (text.calculateIf (keeps key)).order = text.order :=
  rfl

theorem textLayers_calculateOnly :
    (t.calculateOnly keeps).textLayers =
      t.textLayers.map fun (key, text) =>
        (key, text.calculateIf (keeps key)) := by
  rw [calculateOnly_eq_mapTexts, textLayers_mapTexts]

theorem textLayer?_calculateOnly (key : String) :
    (t.calculateOnly keeps).textLayer? key =
      (t.textLayer? key).map (TextLayer.calculateIf (keeps key)) := by
  rw [calculateOnly_eq_mapTexts, textLayer?_mapTexts]

@[simp] theorem keys_calculateOnly : (t.calculateOnly keeps).keys = t.keys := by
  rw [calculateOnly_eq_mapTexts, keys_mapTexts]

/-- Of its field and its place a layer says the same without its calculation. -/
theorem matches_calculateOnly :
    t.Matches TextLayer.SameField (t.calculateOnly keeps) := by
  rw [calculateOnly_eq_mapTexts]
  exact matches_mapTexts (order_calculateIf keeps)
    (fun _ _ => ⟨rfl, rfl, rfl⟩) t

@[simp] theorem variables_calculateOnly :
    (t.calculateOnly keeps).variables = t.variables :=
  (t.matches_calculateOnly keeps).sameName.variables_eq

@[simp] theorem baseFontSize_calculateOnly (settings : CompilerSettings) :
    Plan.baseFontSize (t.calculateOnly keeps) settings =
      Plan.baseFontSize t settings := by
  have hbase : (t.calculateOnly keeps).baseFontSize? = t.baseFontSize? := by
    rw [calculateOnly_eq_mapTexts]
    exact t.baseFontSize?_mapTexts fun _ _ => rfl
  rw [Plan.baseFontSize, Plan.baseFontSize, hbase]

theorem drawOrder_calculateOnly :
    (t.calculateOnly keeps).drawOrder =
      t.drawOrder.map (Layer.calculateOnly keeps) := by
  rw [calculateOnly_eq_mapTexts, drawOrder_mapTexts (order_calculateIf keeps)]
  rfl

end Template

namespace Plan

variable (keeps : String → Bool) (t : Template)

theorem emit?_calculateOnly (bs : Bindings) (defined : List String)
    (base ratio : Float) (l : Layer) :
    emit? (t.calculateOnly keeps) bs defined base ratio
      (l.calculateOnly keeps) = emit? t bs defined base ratio l := by
  obtain ⟨key, body⟩ := l
  cases body with
  | text text =>
      simp only [emit?, Layer.calculateOnly, Template.variables_calculateOnly]
      rfl
  | image image => rfl

end Plan

/-! ## What is resolved -/

namespace Template

variable {t : Template} {bs : Bindings} {keeps : String → Bool} {key : String}

theorem calculation?_calculateOnly :
    (t.calculateOnly keeps).calculation? key =
      if keeps key then t.calculation? key else none := by
  rw [calculation?, calculation?, textLayer?_calculateOnly]
  cases t.textLayer? key with
  | none => simp
  | some text => rfl

theorem exists_leadsOut_of_none (h : t.calculation? key = none)
    (rest : List String) :
    ∃ rest', List.Sublist rest' rest ∧ t.LeadsOut (key :: rest') :=
  ⟨[], List.nil_sublist _, .ends h⟩

/-- With fewer calculations a chain leads out no later. -/
theorem LeadsOut.calculateOnly {rest : List String}
    (h : t.LeadsOut (key :: rest)) :
    ∃ rest', List.Sublist rest' rest ∧
      (t.calculateOnly keeps).LeadsOut (key :: rest') := by
  induction rest generalizing key with
  | nil =>
      cases h with
      | ends hnone =>
          refine exists_leadsOut_of_none ?_ _
          rw [calculation?_calculateOnly, hnone, ite_self]
  | cons dependency rest ih =>
      cases h with
      | @link _ c _ hc hrest =>
          by_cases hkeeps : keeps key = true
          · obtain ⟨rest', hsub, hout⟩ := ih hrest
            refine ⟨c.dependsOn :: rest', hsub.cons_cons _, .link ?_ hout⟩
            rw [calculation?_calculateOnly, if_pos hkeeps, hc]
          · refine exists_leadsOut_of_none ?_ _
            rw [calculation?_calculateOnly, if_neg hkeeps]

theorem Grounded.calculateOnly (h : t.Grounded key) :
    (t.calculateOnly keeps).Grounded key := by
  obtain ⟨rest, hout, hnodup⟩ := h
  obtain ⟨rest', hsub, hout'⟩ := hout.calculateOnly
  exact ⟨rest', hout', hnodup.sublist (hsub.cons_cons key)⟩

/-- A layer that resolves and goes on calculating still resolves. -/
theorem Resolves.calculateOnly {text dependency : TextLayer} {c : Calculation}
    {target source : Variable} {steps : List Step} (hkeeps : keeps key = true)
    (h : t.Resolves key text c dependency target source steps) :
    (t.calculateOnly keeps).Resolves key (text.calculateIf (keeps key)) c
      (dependency.calculateIf (keeps c.dependsOn)) target source steps where
  declared := by
    rw [textLayers_calculateOnly]
    exact List.mem_map_of_mem (f := fun e => (e.1, e.2.calculateIf (keeps e.1)))
      h.declared
  calculates := by rw [TextLayer.calculateIf, hkeeps, if_pos rfl, h.calculates]
  readable := h.readable
  other := h.other
  depends := by rw [textLayer?_calculateOnly, h.depends, Option.map_some]
  grounded := h.grounded.calculateOnly
  hasTarget := by
    rw [variables_calculateOnly]
    exact h.hasTarget
  hasSource := by
    rw [variables_calculateOnly]
    exact h.hasSource
  apart := h.apart

/-- The template in which only the layers that are kept still calculate. -/
def calculateKept (t : Template) (bs : Bindings) : Template :=
  t.calculateOnly (t.keptDerivations bs).contains

/-- All that is resolved when only the layers that are kept calculate is what
was kept. -/
theorem derivations_calculateKept (hd : t.DistinctKeys) :
    (t.calculateKept bs).derivations = t.keptDerivations bs := by
  have hd' : (t.calculateKept bs).DistinctKeys := by
    rw [DistinctKeys, calculateKept, keys_calculateOnly]
    exact hd
  refine Table.ext fun key => ?_
  cases hkept : (t.keptDerivations bs).get? key with
  | some d =>
      obtain ⟨text, c, dependency, target, source, steps, hres, rfl⟩ :=
        (get?_derivations_iff hd).mp (get?_of_settle hkept)
      have hkeeps : (t.keptDerivations bs).contains key = true := by
        rw [Table.contains, hkept, Option.isSome_some]
      exact (get?_derivations_iff hd').mpr
        ⟨_, c, _, target, source, steps, hres.calculateOnly hkeeps, rfl⟩
  | none =>
      -- The layer does not calculate any more, so it has no derivation.
      refine Option.eq_none_iff_forall_not_mem.mpr fun d hget => ?_
      obtain ⟨_, c, _, _, _, _, hres, -⟩ := (get?_derivations_iff hd').mp hget
      have hcalc :=
        (calculation?_of_mem hd' hres.declared).trans hres.calculates
      rw [calculateKept, calculation?_calculateOnly, Table.contains, hkept]
        at hcalc
      cases hcalc

theorem settle_eq_self {kept : Derivations}
    (h : ∀ rest, ¬ t.Drops bs kept rest) : t.settle bs kept = kept := by
  rcases Relation.ReflTransGen.cases_head (settle_reached t bs kept) with
    heq | ⟨rest, hdrop, -⟩
  · exact heq.symm
  · exact absurd hdrop (h rest)

theorem keptDerivations_calculateKept (hd : t.DistinctKeys) :
    (t.calculateKept bs).keptDerivations bs = t.keptDerivations bs := by
  rw [keptDerivations, derivations_calculateKept hd]
  refine settle_eq_self (not_drops_iff.mpr fun key d hget => ?_)
  rw [calculateKept,
    ((t.matches_calculateOnly _).sameContent bs).startsEmpty_eq]
  exact not_drops_iff.mp (not_drops_settle t bs t.derivations) key d hget

end Template

/-! ## What is compiled -/

namespace Plan

variable {t : Template} {bs : Bindings}

theorem definitions_calculateKept (hd : t.DistinctKeys) :
    definitions (t.calculateKept bs) bs = definitions t bs := by
  have hmatches := t.matches_calculateOnly (t.keptDerivations bs).contains
  rw [definitions, definitions, Template.keptDerivations_calculateKept hd,
    Template.calculateKept, hmatches.definitionOrder_eq,
    (hmatches.sameContent bs).add_eq hmatches.sameName]

/-- A calculation that is not kept makes no difference to the plan. -/
theorem compile_calculateKept (hd : t.DistinctKeys)
    (settings : CompilerSettings) (canvas : Size) (asset : String) :
    compile settings (t.calculateKept bs) bs canvas asset =
      compile settings t bs canvas asset := by
  have hlayers (defined : List String) (base ratio : Float) :
      (t.calculateKept bs).drawOrder.filterMap
          (emit? (t.calculateKept bs) bs defined base ratio) =
        t.drawOrder.filterMap (emit? t bs defined base ratio) := by
    rw [Template.calculateKept, Template.drawOrder_calculateOnly,
      List.filterMap_map]
    exact List.filterMap_congr fun l _ =>
      emit?_calculateOnly _ t bs defined base ratio l
  have hbase : baseFontSize (t.calculateKept bs) settings =
      baseFontSize t settings :=
    Template.baseFontSize_calculateOnly _ t settings
  have hbackground : (t.calculateKept bs).background = t.background := rfl
  unfold compile
  simp only [definitions_calculateKept hd, hlayers, hbase, hbackground]

/-- Of the three calculations of the template none is kept without a price, and
without them it is compiled alike. -/
theorem compile_calculateKept_soldOut :
    soldOut.DistinctKeys ∧ soldOut.calculateKept Table.empty ≠ soldOut ∧
      compile ⟨1080, 48⟩ (soldOut.calculateKept Table.empty) Table.empty
        ⟨1080, 1080⟩ "shop/shoe" =
        compile ⟨1080, 48⟩ soldOut Table.empty ⟨1080, 1080⟩ "shop/shoe" := by
  have hd : soldOut.DistinctKeys := by decide
  exact ⟨hd, by decide +kernel, compile_calculateKept hd _ _ _⟩

end Plan

end Placard
