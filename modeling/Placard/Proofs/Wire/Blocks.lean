import Placard.Proofs.Wire.Order
import Placard.Wire.Plan

/-!
# Definitions in blocks

The commands on variables come in blocks: one block for each field that has a
variable, all of it for one layer, and no field has two. Whatever is said of
the definitions of a plan is said of its blocks in turn, with the invariant
that is carried from one block to the next: a field is new when its block is
added, and a block that is derived finds the field it is derived from defined.

A field is missing only where nothing needs it: if the layer of a field is
bound to metadata, or derived, or another is derived from it, there is a
block.
-/

namespace Placard

/-- The variable that a command is for. -/
def Command.target? : Command → Option Variable
  | .assign target _ => some target
  | .lookUp target _ => some target
  | .ifFound target => some target
  | .keep target => some target
  | .endIf => none
  | .derive target _ _ => some target

theorem Expression.target_of_command {e : Expression} {v : Variable}
    (h : e.target? = some v) {c : Command} (hc : c ∈ e.commands) :
    c = .endIf ∨ c.target? = some v := by
  cases e with
  | literal _ => cases h
  | assigned target _ | derived target _ _ =>
      rw [List.mem_singleton.mp hc]
      exact Or.inr h
  | lookedUp target fallback key =>
      simp only [commands, List.mem_cons, List.not_mem_nil, or_false] at hc
      rcases hc with rfl | rfl | rfl | rfl | rfl
      · exact Or.inr h
      · exact Or.inr h
      · exact Or.inr h
      · exact Or.inr h
      · exact Or.inl rfl

/-- The commands that define the variable of one field. -/
structure Block where
  layer : String
  text : TextLayer
  target : Variable
  expression : Expression

namespace Block

/-- The field that the block is for. -/
def field (b : Block) : String :=
  b.text.field b.layer

/-- The commands, each with the layer. -/
def commands (b : Block) : List (String × Command) :=
  b.expression.commands.map fun c => (b.layer, c)

/-- The commands as a plan has them. -/
def segments (b : Block) : List Segment :=
  b.expression.commands.map fun c => ⟨c.text, some b.layer, .definition⟩

end Block

namespace Plan

/-- The definitions that consist of blocks. -/
def Definitions.ofBlocks (bs : List Block) : Definitions where
  commands := bs.flatMap Block.commands
  «variables» := bs.map fun b => (b.layer, b.target)
  fields := (bs.map Block.field).reverse

theorem Definitions.ofBlocks_snoc (bs : List Block) (b : Block) :
    Definitions.ofBlocks (bs ++ [b]) =
      ⟨(ofBlocks bs).commands ++ b.commands,
        (ofBlocks bs).variables ++ [(b.layer, b.target)],
        b.field :: (ofBlocks bs).fields⟩ := by
  simp only [ofBlocks, List.flatMap_append, List.flatMap_singleton,
    List.map_append, List.map_singleton, List.reverse_append,
    List.reverse_singleton, List.singleton_append]

/-- The expression for the field of a text layer in a template. -/
def expressionOf (t : Template) (bs : Bindings) (key : String)
    (text : TextLayer) (target : Variable) : Expression :=
  expressionFor bs (t.keptDerivations bs)
    ((t.keptDerivations bs).values.map Derivation.source) key text target

theorem expressionOf_of_kept {t : Template} {bs : Bindings} {key : String}
    {d : Derivation} (h : (t.keptDerivations bs).get? key = some d)
    (text : TextLayer) (target : Variable) :
    expressionOf t bs key text target = d.expression := by
  rw [expressionOf, expressionFor, h]

theorem expressionOf_of_not_kept {t : Template} {bs : Bindings} {key : String}
    (h : (t.keptDerivations bs).get? key = none)
    (text : TextLayer) (target : Variable) :
    expressionOf t bs key text target =
      Expression.ofBinding (bs.resolve key text) target
        (key ∈ (t.keptDerivations bs).values.map Derivation.source) := by
  rw [expressionOf, expressionFor, h]

theorem target_ofBinding {b : Binding} {target v : Variable} {needed : Bool}
    (h : (Expression.ofBinding b target needed).target? = some v) :
    v = target := by
  unfold Expression.ofBinding at h
  simp only [] at h
  split at h
  · cases h
    rfl
  · split at h <;> cases h
    rfl

/-- If a variable is defined for a layer, it is the variable of its field. -/
theorem target_expressionOf {t : Template} (hd : t.DistinctKeys)
    {bs : Bindings} {key : String} {text : TextLayer} {target v : Variable}
    (htext : t.textLayer? key = some text)
    (htarget : t.variables.get? (text.field key) = some target)
    (h : (expressionOf t bs key text target).target? = some v) :
    v = target := by
  cases hk : (t.keptDerivations bs).get? key with
  | none =>
      rw [expressionOf_of_not_kept hk] at h
      exact target_ofBinding h
  | some d =>
      obtain ⟨text', c, _, target', _, _, hder, rfl⟩ :=
        Template.derives_of_kept hk
      rw [expressionOf_of_kept hk] at h
      have hsame := Template.textLayer?_of_mem hd hder.declared
      rw [htext, Option.some.injEq] at hsame
      have htarget' := hder.hasTarget
      rw [← hsame, htarget, Option.some.injEq] at htarget'
      rw [← Option.some.injEq, ← h, htarget']
      rfl

theorem source_isSome {t : Template} {bs : Bindings} {key : String}
    {d : Derivation} (h : (t.keptDerivations bs).get? key = some d)
    (text : TextLayer) (target : Variable) :
    (expressionOf t bs d.source text target).target?.isSome = true := by
  cases hk : (t.keptDerivations bs).get? d.source with
  | some d' =>
      obtain ⟨_, _, _, _, _, _, _, rfl⟩ := Template.derives_of_kept hk
      rw [expressionOf_of_kept hk]
      rfl
  | none =>
      have hneeded :
          d.source ∈ (t.keptDerivations bs).values.map Derivation.source :=
        List.mem_map_of_mem (Table.mem_values_of_get? h)
      rw [expressionOf_of_not_kept hk, decide_eq_true hneeded,
        Expression.ofBinding]
      simp only []
      split <;> rfl

/-- What a block is, and what it is for: the expression for its layer, which
defines the variable of its field. -/
structure IsBlock (t : Template) (bs : Bindings) (b : Block) : Prop where
  declared : t.textLayer? b.layer = some b.text
  named : t.variables.get? b.field = some b.target
  expressed : b.expression = expressionOf t bs b.layer b.text b.target
  targeted : b.expression.target? = some b.target

/-- The three forms of a block, each with what it takes to have that form. -/
inductive BlockForm (t : Template) (bs : Bindings) (b : Block) : Prop where
  | derived {c : Calculation} {dependency : TextLayer} {source : Variable}
      {steps : List Step}
      (hkept : (t.keptDerivations bs).get? b.layer =
        some ⟨c.dependsOn, .derived b.target source steps⟩)
      (hder : t.Derives b.layer b.text c dependency b.target source steps)
      (he : b.expression = .derived b.target source steps)
  | lookedUp (hkept : (t.keptDerivations bs).get? b.layer = none)
      (hlooks : (bs.resolve b.layer b.text).looksUp = true)
      (he : b.expression = .lookedUp b.target
        (if (bs.resolve b.layer b.text).currentLiteral.isEmpty then .text " "
          else Literal.ofText (bs.resolve b.layer b.text).currentLiteral)
        (bs.resolve b.layer b.text).metadataKey)
  | assigned (hkept : (t.keptDerivations bs).get? b.layer = none)
      (hlooks : (bs.resolve b.layer b.text).looksUp = false)
      (he : b.expression = .assigned b.target
        (Literal.ofText (bs.resolve b.layer b.text).currentLiteral))

theorem IsBlock.form {t : Template} (hd : t.DistinctKeys) {bs : Bindings}
    {b : Block} (h : IsBlock t bs b) : BlockForm t bs b := by
  have he := h.expressed
  have htarget := h.targeted
  cases hk : (t.keptDerivations bs).get? b.layer with
  | some d =>
      rw [expressionOf_of_kept hk] at he
      obtain ⟨text, c, dependency, target, source, steps, hder, rfl⟩ :=
        Template.derives_of_kept hk
      rw [he] at htarget
      cases htarget
      have hsame := Template.textLayer?_of_mem hd hder.declared
      rw [h.declared, Option.some.injEq] at hsame
      subst hsame
      exact .derived hk hder he
  | none =>
      rw [expressionOf_of_not_kept hk, Expression.ofBinding] at he
      simp only [] at he
      split at he
      · next hlooks => exact .lookedUp hk hlooks he
      · next hlooks =>
          split at he
          · exact .assigned hk (Bool.eq_false_iff.mpr hlooks) he
          · rw [he] at htarget
            cases htarget

/-- Blocks of different fields, each behind the block of what it is derived
from. -/
inductive WellDefined (t : Template) (bs : Bindings) : List Block → Prop where
  | nil : WellDefined t bs []
  | snoc {blocks : List Block} {b : Block} (h : WellDefined t bs blocks)
      (hb : IsBlock t bs b) (hnew : b.field ∉ blocks.map Block.field)
      (hsource : ∀ d, (t.keptDerivations bs).get? b.layer = some d →
        ∃ dependency, t.textLayer? d.source = some dependency ∧
          ∃ b' ∈ blocks, b'.field = dependency.field d.source) :
      WellDefined t bs (blocks ++ [b])

theorem WellDefined.isBlock {t : Template} {bs : Bindings} {blocks : List Block}
    (h : WellDefined t bs blocks) : ∀ b ∈ blocks, IsBlock t bs b := by
  induction h with
  | nil => exact List.forall_mem_nil _
  | snoc _ hb _ _ ih =>
      exact List.forall_mem_append.mpr ⟨ih, List.forall_mem_singleton.mpr hb⟩

/-- The variable that a block is derived from is that of an earlier block. -/
theorem exists_source {t : Template} {bs : Bindings} {blocks : List Block}
    {b : Block} (hwell : WellDefined t bs blocks)
    (hsource : ∀ d, (t.keptDerivations bs).get? b.layer = some d →
      ∃ dependency, t.textLayer? d.source = some dependency ∧
        ∃ b' ∈ blocks, b'.field = dependency.field d.source) {c : Calculation}
    {dependency : TextLayer} {source : Variable} {steps : List Step}
    (hkept : (t.keptDerivations bs).get? b.layer =
      some ⟨c.dependsOn, .derived b.target source steps⟩)
    (hder : t.Derives b.layer b.text c dependency b.target source steps) :
    ∃ b' ∈ blocks, b'.field = dependency.field c.dependsOn ∧
      b'.target = source := by
  obtain ⟨dependency', hdep, b', hb', hfield⟩ := hsource _ hkept
  rw [hder.depends, Option.some.injEq] at hdep
  subst hdep
  have hnamed := (hwell.isBlock b' hb').named
  rw [hfield, hder.hasSource, Option.some.injEq] at hnamed
  exact ⟨b', hb', hfield, hnamed.symm⟩

theorem WellDefined.nodup_fields {t : Template} {bs : Bindings}
    {blocks : List Block} (h : WellDefined t bs blocks) :
    (blocks.map Block.field).Nodup := by
  induction h with
  | nil => exact List.nodup_nil
  | snoc _ _ hnew _ ih =>
      rw [List.map_append, List.map_singleton]
      exact List.nodup_append.mpr ⟨ih, List.nodup_singleton _,
        fun x hx y hy heq =>
          hnew (List.mem_singleton.mp hy ▸ heq ▸ hx)⟩

theorem WellDefined.nodup_targets {t : Template} {bs : Bindings}
    {blocks : List Block} (h : WellDefined t bs blocks) :
    (blocks.map Block.target).Nodup := by
  refine List.Nodup.map_on ?_ (List.Nodup.of_map _ h.nodup_fields)
  intro b hb b' hb' heq
  have hnamed := (h.isBlock b hb).named
  have hnamed' := (h.isBlock b' hb').named
  rw [heq] at hnamed
  exact List.inj_on_of_nodup_map h.nodup_fields hb hb'
    (Template.variables_injective hnamed hnamed')

/-- The blocks have the variable of every text layer that needs one. -/
def Complete (t : Template) (bs : Bindings) (keys : List String)
    (blocks : List Block) : Prop :=
  ∀ key ∈ keys, ∀ text, t.textLayer? key = some text →
    ∀ target, t.variables.get? (text.field key) = some target →
      (expressionOf t bs key text target).target?.isSome = true →
        text.field key ∈ blocks.map Block.field

theorem Complete.mono {t : Template} {bs : Bindings} {keys : List String}
    {blocks blocks' : List Block} (h : Complete t bs keys blocks)
    (hsub : blocks ⊆ blocks') : Complete t bs keys blocks' :=
  fun key hkey text htext target htarget hsome =>
    List.map_subset _ hsub (h key hkey text htext target htarget hsome)

/-- What adding a layer does: nothing, if its field needs no variable or has
one, and else it adds the block of the layer. -/
theorem add_cases {t : Template} (hd : t.DistinctKeys) (bs : Bindings)
    (blocks : List Block) (key : String) :
    (Definitions.add t bs (t.keptDerivations bs)
        ((t.keptDerivations bs).values.map Derivation.source)
        (Definitions.ofBlocks blocks) key = Definitions.ofBlocks blocks ∧
      Complete t bs [key] blocks) ∨
    ∃ b, b.layer = key ∧ IsBlock t bs b ∧ b.field ∉ blocks.map Block.field ∧
      Definitions.add t bs (t.keptDerivations bs)
        ((t.keptDerivations bs).values.map Derivation.source)
        (Definitions.ofBlocks blocks) key =
          Definitions.ofBlocks (blocks ++ [b]) := by
  unfold Definitions.add
  split
  · next hnone =>
      refine Or.inl ⟨rfl, List.forall_mem_singleton.mpr fun text htext => ?_⟩
      rw [hnone] at htext
      cases htext
  · next text htext =>
      simp only []
      -- From here on the layer is known, and only its field is in question.
      have hknown
          (h : ∀ target, t.variables.get? (text.field key) = some target →
            (expressionOf t bs key text target).target?.isSome = true →
              text.field key ∈ blocks.map Block.field) :
          Complete t bs [key] blocks := by
        refine List.forall_mem_singleton.mpr fun text' htext' => ?_
        rw [htext, Option.some.injEq] at htext'
        exact htext' ▸ h
      split
      · next hnone =>
          refine Or.inl ⟨rfl, hknown fun target htarget => ?_⟩
          rw [hnone] at htarget
          cases htarget
      · next target htarget =>
          rw [← expressionOf]
          split
          · next hnone =>
              refine Or.inl ⟨rfl, hknown fun target' htarget' hsome => ?_⟩
              rw [htarget, Option.some.injEq] at htarget'
              rw [← htarget', hnone] at hsome
              cases hsome
          · next v hv =>
              split
              · next hmem =>
                  exact Or.inl ⟨rfl,
                    hknown fun _ _ _ => List.mem_reverse.mp hmem⟩
              · next hnew =>
                  have hvt := target_expressionOf hd htext htarget hv
                  subst hvt
                  let b : Block := ⟨key, text, v, expressionOf t bs key text v⟩
                  exact Or.inr ⟨b, rfl, ⟨htext, htarget, rfl, hv⟩,
                    fun h => hnew (List.mem_reverse.mpr h),
                    (Definitions.ofBlocks_snoc blocks b).symm⟩

/-- The step from the definitions before a layer to those behind it. -/
theorem exists_blocks_add {t : Template} (hd : t.DistinctKeys) {bs : Bindings}
    {order : List String} {key : String} {blocks : List Block}
    (hwell : WellDefined t bs blocks) (hcomplete : Complete t bs order blocks)
    (hsource : ∀ d, (t.keptDerivations bs).get? key = some d →
      d.source ∈ order) :
    ∃ blocks', Definitions.add t bs (t.keptDerivations bs)
        ((t.keptDerivations bs).values.map Derivation.source)
        (Definitions.ofBlocks blocks) key = Definitions.ofBlocks blocks' ∧
      WellDefined t bs blocks' ∧ Complete t bs (order ++ [key]) blocks' := by
  rcases add_cases hd bs blocks key with ⟨hadd, hkey⟩ | ⟨b, rfl, hb, hnew, hadd⟩
  · exact ⟨blocks, hadd, hwell, List.forall_mem_append.mpr ⟨hcomplete, hkey⟩⟩
  · refine ⟨blocks ++ [b], hadd, hwell.snoc hb hnew ?_,
      List.forall_mem_append.mpr ⟨?_, ?_⟩⟩
    · intro d hk
      obtain ⟨_, c, dependency, _, source, _, hder, rfl⟩ :=
        Template.derives_of_kept hk
      have hfield :=
        hcomplete c.dependsOn (hsource _ hk) dependency hder.depends source
          hder.hasSource (source_isSome hk _ _)
      obtain ⟨b', hb', heq⟩ := List.mem_map.mp hfield
      exact ⟨dependency, hder.depends, b', hb', heq⟩
    · exact hcomplete.mono (List.subset_append_left _ _)
    · refine List.forall_mem_singleton.mpr fun text htext _ _ _ => ?_
      rw [hb.declared, Option.some.injEq] at htext
      subst htext
      exact List.mem_map_of_mem
        (List.mem_append_right _ (List.mem_singleton.mpr rfl))

theorem exists_blocks_of_sourceFirst {t : Template} (hd : t.DistinctKeys)
    {bs : Bindings} {order : List String}
    (h : Template.SourceFirst (t.keptDerivations bs) order) :
    ∃ blocks, order.foldl (Definitions.add t bs (t.keptDerivations bs)
        ((t.keptDerivations bs).values.map Derivation.source)) ⟨[], [], []⟩ =
          Definitions.ofBlocks blocks ∧
      WellDefined t bs blocks ∧ Complete t bs order blocks := by
  induction h with
  | nil => exact ⟨[], rfl, .nil, List.forall_mem_nil _⟩
  | snoc _ _ hsource ih =>
      obtain ⟨blocks, hfold, hwell, hcomplete⟩ := ih
      rw [List.foldl_append, hfold]
      exact exists_blocks_add hd hwell hcomplete hsource

/-- The definitions of a template are the blocks of the fields that need a
variable. -/
theorem exists_blocks {t : Template} (hd : t.DistinctKeys) (bs : Bindings) :
    ∃ blocks, definitions t bs = Definitions.ofBlocks blocks ∧
      WellDefined t bs blocks ∧
      ∀ key text, (key, text) ∈ t.textLayers →
        ∀ target, t.variables.get? (text.field key) = some target →
          (expressionOf t bs key text target).target?.isSome = true →
            text.field key ∈ blocks.map Block.field := by
  have horder := Template.definitionOrder_sourceFirst t (t.keptDerivations bs)
  obtain ⟨blocks, hdefs, hwell, hcomplete⟩ :=
    exists_blocks_of_sourceFirst hd horder
  refine ⟨blocks, hdefs, hwell, ?_⟩
  intro key text hmem target htarget hsome
  exact hcomplete key (Template.mem_definitionOrder hd bs hmem) text
    (Template.textLayer?_of_mem hd hmem) target htarget hsome

section Compile

variable {settings : CompilerSettings} {t : Template} {bs : Bindings}
  {canvas : Size} {asset : String} {blocks : List Block}

theorem bindings_of_blocks
    (h : definitions t bs = Definitions.ofBlocks blocks) :
    (compile settings t bs canvas asset).bindings =
      blocks.flatMap Block.segments := by
  simp only [compile, h, Definitions.ofBlocks, List.map_flatMap, Block.commands,
    List.map_map]
  rfl

theorem variables_of_blocks
    (h : definitions t bs = Definitions.ofBlocks blocks) :
    (compile settings t bs canvas asset).variables =
      blocks.map fun b => (b.layer, b.target) := by
  simp only [compile, h, Definitions.ofBlocks]

theorem targets_of_blocks (h : definitions t bs = Definitions.ofBlocks blocks) :
    (compile settings t bs canvas asset).variables.map (·.2) =
      blocks.map Block.target := by
  rw [variables_of_blocks h, List.map_map]
  rfl

theorem mem_fields_of_blocks
    (h : definitions t bs = Definitions.ofBlocks blocks) {field : String} :
    field ∈ (definitions t bs).fields ↔ ∃ b ∈ blocks, b.field = field := by
  rw [h, Definitions.ofBlocks, List.mem_reverse, List.mem_map]

theorem segments_of_blocks
    (h : definitions t bs = Definitions.ofBlocks blocks) :
    (compile settings t bs canvas asset).segments =
      assetSegment asset :: blocks.flatMap Block.segments ++
        canvasSegment t.background canvas ::
          (compile settings t bs canvas asset).layers.flatMap
            Emission.segments := by
  rw [segments, bindings_of_blocks h]
  rfl

theorem mem_segments (h : definitions t bs = Definitions.ofBlocks blocks)
    {s : Segment} :
    s ∈ (compile settings t bs canvas asset).segments ↔
      s = assetSegment asset ∨
      (∃ b ∈ blocks, ∃ c ∈ b.expression.commands,
        s = ⟨c.text, some b.layer, .definition⟩) ∨
      s = canvasSegment t.background canvas ∨
      ∃ e ∈ (compile settings t bs canvas asset).layers, s ∈ e.segments := by
  rw [segments_of_blocks h]
  simp only [List.mem_cons, List.mem_append, List.mem_flatMap, Block.segments,
    List.mem_map, List.cons_append, eq_comm]

end Compile

end Plan

end Placard
