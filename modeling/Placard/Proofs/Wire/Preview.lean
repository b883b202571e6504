import Placard.Field.Preview
import Placard.Proofs.Wire.Decoding
import Placard.Proofs.Wire.Meaning

/-!
# Previews show what is compiled

A text layer that is written out with its literal, and not with a variable, has
no calculation that reached the wire. Its preview decides that anew, layer by
layer: it follows every calculation that can be read, and shows the literal only
where no number comes of it. The compiler has dropped such a calculation for one
of two reasons. Where what it starts from may be empty, the preview finds that
out as well: the source shows its literal, which is empty, and nothing is
calculated from an empty text. Where the calculation could not be compiled in
the first place, because its chain comes back to itself or because it starts
from the field that it is for, the preview does not notice and shows a number.
So the two agree on the layers whose previews go through calculations that can
be compiled. On the others they may differ, but need not: where a chain comes
back to itself and none of its texts is a number, the preview calculates nothing
either.

What the induction is on is the number of calculations that the preview may
still follow. It carries that the layer is not derived and not looked up, which
a dropped derivation hands on to its source.
-/

namespace Placard

open Text

namespace Template

variable {t : Template} {bs : Bindings} {key : String} {text : TextLayer}

/-! ## Calculations that are dropped -/

/-- A derivation is dropped only where it starts from a layer that is not
derived in the end and whose content may be empty. -/
theorem source_of_dropped {kept : Derivations} {d : Derivation}
    (h : kept.get? key = some d) (hgone : (t.settle bs kept).get? key = none) :
    (t.settle bs kept).get? d.source = none ∧
      ∃ dependency, t.textLayer? d.source = some dependency ∧
        (bs.resolve d.source dependency).holdsValue = false := by
  fun_induction settle t bs kept with
  | case1 kept rest hlt ih =>
      cases hrest : rest.get? key with
      | some d' =>
          have hsame := get?_of_dropEmpty hrest
          rw [h, Option.some.injEq] at hsame
          exact ih (hsame ▸ hrest) hgone
      | none =>
          -- It goes in this round, so its source has no derivation before it.
          have hstart := (get?_dropEmpty_eq_none_iff h).mp hrest
          rw [startsEmpty, Bool.and_eq_true, Bool.not_eq_true'] at hstart
          obtain ⟨hroot, hempty⟩ := hstart
          constructor
          · refine Option.eq_none_iff_forall_not_mem.mpr fun d' hd' => ?_
            rw [Table.contains, get?_of_dropEmpty (get?_of_settle hd')] at hroot
            cases hroot
          · split at hempty
            · next dependency hdep =>
                exact ⟨dependency, hdep, by simpa using hempty⟩
            · cases hempty
  | case2 kept rest hge =>
      rw [h] at hgone
      cases hgone

/-! ## Calculations that a preview follows -/

theorem calculation_of_usable {source : String} {steps : List Step}
    (h : Bindings.usableCalculation? t key text = some (source, steps)) :
    ∃ c, text.calculation = some c ∧ c.steps? = some steps ∧
      c.dependsOn = source ∧
      source ≠ key ∧ ∃ dependency, t.textLayer? source = some dependency := by
  simp only [Bindings.usableCalculation?, Option.bind_eq_bind,
    Option.bind_eq_some_iff] at h
  obtain ⟨c, hc, steps', hsteps, h⟩ := h
  split at h
  · next huse =>
      obtain ⟨rfl, rfl⟩ := Prod.mk.inj (Option.some.inj h)
      exact ⟨c, hc, hsteps, rfl, huse.2, Option.isSome_iff_exists.mp huse.1⟩
  · cases h

/-- The layers that the preview of a layer goes through: the layer itself and,
if its calculation can be read, those of the layer that it depends on. -/
inductive PreviewsThrough (t : Template) : String → String → Prop where
  | here (key : String) : PreviewsThrough t key key
  | there {key source other : String} {text : TextLayer} {steps : List Step}
      (htext : t.textLayer? key = some text)
      (huse : Bindings.usableCalculation? t key text = some (source, steps))
      (h : PreviewsThrough t source other) : PreviewsThrough t key other

/-- Every calculation that the preview of a layer follows can be compiled. -/
def CompilesPreview (t : Template) (key : String) : Prop :=
  ∀ other text, t.PreviewsThrough key other → t.textLayer? other = some text →
    (Bindings.usableCalculation? t other text).isSome = true →
      (t.derivation? other text).isSome = true

theorem CompilesPreview.source (h : t.CompilesPreview key) {source : String}
    {steps : List Step} (htext : t.textLayer? key = some text)
    (huse : Bindings.usableCalculation? t key text = some (source, steps)) :
    t.CompilesPreview source :=
  fun other text' hthrough => h other text' (.there htext huse hthrough)

/-! Where no field is that of two layers, all that the preview can miss is that
a chain comes back to itself. -/

theorem chainEnds_mono {fuel fuel' : Nat} {visited visited' : List String}
    (hfuel : fuel ≤ fuel') (hsub : visited' ⊆ visited)
    (h : t.chainEnds fuel visited key = true) :
    t.chainEnds fuel' visited' key = true := by
  induction fuel generalizing fuel' visited visited' key with
  | zero =>
      rw [chainEnds] at h
      cases h
  | succ fuel ih =>
      obtain ⟨fuel', rfl⟩ :=
        Nat.exists_eq_add_of_le' (Nat.le_trans (Nat.le_add_left 1 fuel) hfuel)
      rw [chainEnds] at h ⊢
      split
      · rfl
      · next c hc =>
          rw [hc] at h
          simp only [Bool.and_eq_true, decide_eq_true_eq] at h ⊢
          have hcons : key :: visited' ⊆ key :: visited :=
            List.cons_subset_cons key hsub
          exact ⟨fun hmem => h.1 (hcons hmem), ih (by omega) hcons h.2⟩

/-- The chain of calculations from a layer on comes to an end. -/
def ChainEnds (t : Template) (key : String) : Prop :=
  t.chainEnds (t.layers.length + 1) [] key = true

instance (t : Template) (key : String) : Decidable (t.ChainEnds key) :=
  inferInstanceAs (Decidable (_ = true))

theorem ChainEnds.depends (h : t.ChainEnds key) {c : Calculation}
    (hc : t.calculation? key = some c) :
    t.chainEnds (t.layers.length + 1) [key] c.dependsOn = true := by
  rw [ChainEnds, chainEnds, hc] at h
  simp only [Bool.and_eq_true] at h
  exact chainEnds_mono (Nat.le_succ _) (List.Subset.refl _) h.2

theorem ChainEnds.through {other : String} (h : t.ChainEnds key)
    (hthrough : t.PreviewsThrough key other) : t.ChainEnds other := by
  induction hthrough with
  | here => exact h
  | there htext huse _ ih =>
      obtain ⟨c, hc, -, rfl, -⟩ := calculation_of_usable huse
      refine ih (chainEnds_mono (Nat.le_refl _) (List.nil_subset _)
        (h.depends ?_))
      rw [calculation?, htext]
      exact hc

theorem derivation?_isSome (hf : t.DistinctFields)
    (htext : t.textLayer? key = some text) (hends : t.ChainEnds key)
    (huse : (Bindings.usableCalculation? t key text).isSome = true) :
    (t.derivation? key text).isSome = true := by
  obtain ⟨⟨source, steps⟩, huse⟩ := Option.isSome_iff_exists.mp huse
  obtain ⟨c, hc, hsteps, rfl, hne, dependency, hdep⟩ :=
    calculation_of_usable huse
  have hcalc : t.calculation? key = some c := by
    rw [calculation?, htext]
    exact hc
  have hfollow : t.canFollow key = true := by
    simp only [canFollow, hcalc, hsteps, hdep, hends.depends hcalc,
      Option.isSome_some, hne, ne_eq, not_false_eq_true, decide_true,
      Bool.and_self]
  have hmem := mem_textLayers_of_textLayer? htext
  have hmem' := mem_textLayers_of_textLayer? hdep
  obtain ⟨target, htarget⟩ := exists_variable hmem
  obtain ⟨source, hsource⟩ := exists_variable hmem'
  have hapart : target ≠ source := by
    rintro rfl
    exact hne (eq_of_field_eq hf hmem' hmem
      (variables_injective hsource htarget))
  have hder : t.Derives key text c dependency target source steps :=
    ⟨hmem, hc, hfollow, hdep, htarget, hsource, hsteps⟩
  rw [hder.derivation?_eq, if_neg hapart, Option.isSome_some]

theorem compilesPreview_of_chainEnds (hf : t.DistinctFields)
    (h : t.ChainEnds key) : t.CompilesPreview key :=
  fun _ _ hthrough htext huse =>
    derivation?_isSome hf htext (h.through hthrough) huse

end Template

namespace Bindings

variable {t : Template} {bs : Bindings} {key : String} {text : TextLayer}

theorem calculated?_empty (steps : List Step) :
    calculated? steps "" = none := rfl

/-- A layer that is not derived and not looked up shows its literal in the
preview. -/
theorem previewValue?_of_not_kept (hd : t.DistinctKeys) (depth : Nat)
    (hcompiles : t.CompilesPreview key) (htext : t.textLayer? key = some text)
    (hkept : (t.keptDerivations bs).get? key = none)
    (hlooks : (bs.resolve key text).looksUp = false) :
    bs.previewValue? t depth key =
      some (bs.resolve key text).currentLiteral := by
  have hown : literal? (bs.resolve key text) =
      some (bs.resolve key text).currentLiteral :=
    if_neg (Bool.eq_false_iff.mp hlooks)
  induction depth generalizing key text with
  | zero =>
      rw [previewValue?, htext]
      exact hown
  | succ depth ih =>
      rw [previewValue?, htext]
      simp only [Option.bind_eq_bind, Option.bind_some]
      split
      · exact hown
      · next source steps huse =>
          -- The calculation was dropped, so its source is empty.
          have hsome := hcompiles key text (.here key) htext (by rw [huse]; rfl)
          obtain ⟨d, hder⟩ := Option.isSome_iff_exists.mp hsome
          obtain ⟨c, hc, -, rfl, -, -⟩ := Template.calculation_of_usable huse
          obtain ⟨c', _, _, _, _, hderives, rfl⟩ :=
            Template.derives_of_derivation?
              (Template.mem_textLayers_of_textLayer? htext) hder
          have hsame := hderives.calculates
          rw [hc, Option.some.injEq] at hsame
          subst hsame
          obtain ⟨hroot, dependency, hdep, hempty⟩ :=
            Template.source_of_dropped
              (Template.get?_derivations hd htext hder) hkept
          simp only [Binding.holdsValue, Bool.or_eq_false_iff,
            Bool.not_eq_false', String.isEmpty_iff] at hempty
          have hsource := ih (hcompiles.source htext huse) hdep hroot hempty.1
            (if_neg (Bool.eq_false_iff.mp hempty.1))
          rw [hsource, hempty.2, Option.bind_some, calculated?_empty,
            Option.none_or]
          exact hown

end Bindings

namespace Plan

section Texts

variable {settings : CompilerSettings} {t : Template} {bs : Bindings}
  {e : Emission} {text : TextLayer}

/-- The preview of a text layer that the plan shows without a variable is the
text that the plan shows, if all that the preview calculates with can be
compiled. -/
theorem previewText?_eq_decodeText? (hd : t.DistinctKeys) {canvas : Size}
    {asset : String} (he : e ∈ (compile settings t bs canvas asset).layers)
    (hmem : (e.key, text) ∈ t.textLayers)
    (hdefined : definedFor t bs e.key text = none)
    (hcompiles : t.CompilesPreview e.key) :
    bs.previewText? t e.key = Fragment.decodeText? e.content := by
  have htext := Template.textLayer?_of_mem hd hmem
  obtain ⟨blocks, hdefs, hwell, hcomplete⟩ := exists_blocks hd bs
  obtain ⟨hkept, hlooks⟩ :=
    not_kept_of_not_defined hdefs hwell hcomplete hmem hdefined
  have hvalue :=
    Bindings.previewValue?_of_not_kept hd Bindings.previewDepth hcompiles htext
      hkept hlooks
  have hemits : EmitsText settings t bs e text := by
    rcases emits_of_mem he with ⟨text', h⟩ | ⟨image, width, height, h⟩
    · have hsame := Template.textLayer?_of_mem hd h.declared
      rw [htext, Option.some.injEq] at hsame
      exact hsame ▸ h
    · have hsame := Template.textLayer?_of_layer hd h.declared
      rw [htext] at hsame
      cases hsame
  rw [Bindings.previewText?, htext, hemits.decodeText?_content hdefined,
    Option.bind_eq_bind, Option.bind_some, hvalue]
  rfl

end Texts

/-- A text that shows what a formula makes of another layer, or a literal. -/
def calculated (field : String) (c : Calculation) (literal : String) :
    TextLayer :=
  { TextLayer.ofField field (.px 48) with
    calculation := some c
    defaultValue := literal }

/-- A layer that is reduced from one without a price, and two that depend on
each other. -/
def soldOut : Template :=
  { Template.ofCanvas "tag" 1080 1080 with
    layers := [
      ⟨"price", .text (TextLayer.ofField "Price" (.px 48))⟩,
      ⟨"reduced", .text (calculated "Reduced" ⟨"* 0.8", "price"⟩ "sold out")⟩,
      ⟨"up", .text (calculated "Up" ⟨"+ 1", "down"⟩ "1")⟩,
      ⟨"down", .text (calculated "Down" ⟨"+ 1", "up"⟩ "2")⟩] }

theorem previewText?_soldOut :
    soldOut.DistinctKeys ∧
      ∃ e ∈
        (compile ⟨1080, 48⟩ soldOut Table.empty ⟨1080, 1080⟩
          "shop/shoe").layers,
        ∃ text, (e.key, text) ∈ soldOut.textLayers ∧ e.key = "reduced" ∧
          definedFor soldOut Table.empty e.key text = none ∧
          soldOut.CompilesPreview e.key ∧
          Bindings.previewText? Table.empty soldOut e.key =
            Fragment.decodeText? e.content := by
  have hd : soldOut.DistinctKeys := by decide
  have hf : soldOut.DistinctFields := by decide
  have hmem : ("reduced", calculated "Reduced" ⟨"* 0.8", "price"⟩ "sold out") ∈
      soldOut.textLayers := by decide
  have hdefined : definedFor soldOut Table.empty "reduced"
      (calculated "Reduced" ⟨"* 0.8", "price"⟩ "sold out") = none := by
    decide +kernel
  obtain ⟨e, he, hkey, -⟩ :
      ∃ e ∈
        (compile ⟨1080, 48⟩ soldOut Table.empty ⟨1080, 1080⟩
          "shop/shoe").layers,
        e.key = "reduced" ∧ EmitsText ⟨1080, 48⟩ soldOut Table.empty e _ :=
    exists_emission hmem (by decide +kernel)
  rw [← hkey] at hmem hdefined
  have hcompiles : soldOut.CompilesPreview e.key :=
    Template.compilesPreview_of_chainEnds hf (by rw [hkey]; decide)
  exact ⟨hd, e, he, _, hmem, hkey, hdefined, hcompiles,
    previewText?_eq_decodeText? hd he hmem hdefined hcompiles⟩

/-- Where a chain comes back to itself, the preview is a number and the plan
shows the literal. -/
theorem not_previewText?_eq_decodeText? :
    ¬ ∀ (settings : CompilerSettings) (t : Template) (bs : Bindings)
      (canvas : Size)
      (asset : String) (e : Emission) (text : TextLayer), t.DistinctKeys →
      e ∈ (compile settings t bs canvas asset).layers →
      (e.key, text) ∈ t.textLayers →
      definedFor t bs e.key text = none →
        bs.previewText? t e.key = Fragment.decodeText? e.content := by
  intro hall
  have hmem :
      ("up", calculated "Up" ⟨"+ 1", "down"⟩ "1") ∈ soldOut.textLayers := by
    decide
  have hdefined : definedFor soldOut Table.empty "up"
      (calculated "Up" ⟨"+ 1", "down"⟩ "1") = none := by decide +kernel
  obtain ⟨e, he, hkey, h⟩ :
      ∃ e ∈
        (compile ⟨1080, 48⟩ soldOut Table.empty ⟨1080, 1080⟩
          "shop/shoe").layers,
        e.key = "up" ∧ EmitsText ⟨1080, 48⟩ soldOut Table.empty e _ :=
    exists_emission hmem (by decide +kernel)
  rw [← hkey] at hmem hdefined
  have heq := hall _ _ _ _ _ _ _ (by decide) he hmem hdefined
  rw [h.decodeText?_content hdefined, hkey] at heq
  revert heq
  decide +kernel

end Plan

end Placard
