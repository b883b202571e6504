import Placard.Proofs.Wire.Contents
import Placard.Proofs.Wire.Machine

/-!
# Variables are defined once, and before they are used

The definitions are written by a walk over the layers, while variables belong
to fields, and a field can be that of several layers. So the order is argued
for by blocks: a block reads what it has set itself, or the variable of an
earlier block. A block sets the two registers of its variable and no other, and
no variable has two blocks, which puts all that sets a variable in one place.

What is claimed of commands is claimed of their texts as they are read back,
not of what they were made from.
-/

namespace Placard

open Text

namespace Segment

/-- The command on registers that a segment is read as. -/
def instruction? (s : Segment) : Option Instruction :=
  Instruction.read? s.tokens.toList

/-- A segment that sets a register. -/
def Assigns (s : Segment) (register : List Char) : Prop :=
  ∃ i, s.instruction? = some i ∧ i.writes? = some register

end Segment

/-! ## Registers that have been set -/

/-- Every segment in turn is a command that reads what has been set. -/
def Supplied (set : List Char → Prop) : List Segment → Prop
  | [] => True
  | s :: rest =>
    (∃ i, s.instruction? = some i ∧ ∀ r ∈ i.reads, set r) ∧
      Supplied (fun r => set r ∨ s.Assigns r) rest

theorem Supplied.mono {set set' : List Char → Prop} {ss : List Segment}
    (h : Supplied set ss) (hsub : ∀ r, set r → set' r) : Supplied set' ss := by
  induction ss generalizing set set' with
  | nil => trivial
  | cons s ss ih =>
      obtain ⟨⟨i, hi, hreads⟩, hrest⟩ := h
      exact ⟨⟨i, hi, fun r hr => hsub r (hreads r hr)⟩,
        ih hrest fun r hr => hr.imp_left (hsub r)⟩

theorem supplied_append {set : List Char → Prop} {ss ss' : List Segment} :
    Supplied set (ss ++ ss') ↔
      Supplied set ss ∧ Supplied (fun r => set r ∨
        ∃ s ∈ ss, s.Assigns r) ss' := by
  induction ss generalizing set with
  | nil =>
      constructor
      · exact fun h => ⟨trivial, h.mono fun r hr => Or.inl hr⟩
      · rintro ⟨-, h⟩
        refine h.mono fun r hr => ?_
        rcases hr with hr | ⟨s, hs, -⟩
        · exact hr
        · exact absurd hs List.not_mem_nil
  | cons s ss ih =>
      rw [List.cons_append, Supplied, Supplied, ih, and_assoc]
      refine and_congr_right fun _ => and_congr_right fun _ =>
        ⟨fun h => ?_, fun h => ?_⟩
      · refine h.mono fun r hr => ?_
        rcases hr with (hr | hr) | ⟨s', hs', hr⟩
        · exact Or.inl hr
        · exact Or.inr ⟨s, List.mem_cons_self, hr⟩
        · exact Or.inr ⟨s', List.mem_cons_of_mem _ hs', hr⟩
      · refine h.mono fun r hr => ?_
        rcases hr with hr | ⟨s', hs', hr⟩
        · exact Or.inl (Or.inl hr)
        · rcases List.mem_cons.mp hs' with rfl | hs'
          · exact Or.inl (Or.inr hr)
          · exact Or.inr ⟨s', hs', hr⟩

/-- What a segment reads is set, by an earlier one or before them all. -/
theorem Supplied.at {set : List Char → Prop} {before after : List Segment}
    {s : Segment} (h : Supplied set (before ++ s :: after)) :
    ∃ i, s.instruction? = some i ∧
      ∀ r ∈ i.reads, set r ∨ ∃ s' ∈ before, s'.Assigns r := by
  obtain ⟨i, hi, hreads⟩ := (supplied_append.mp h).2.1
  exact ⟨i, hi, hreads⟩

/-! ## The segments of a block -/

theorem instruction?_of_wellFormed {c : Command} (h : c.WellFormed)
    (provenance : Option String) (kind : SegmentKind) :
    (Segment.mk c.text provenance kind).instruction? = some c.instruction :=
  Instruction.read?_text h

theorem assigns_iff {c : Command} (h : c.WellFormed)
    {provenance : Option String} {kind : SegmentKind} {r : List Char} :
    (Segment.mk c.text provenance kind).Assigns r ↔
      c.instruction.writes? = some r := by
  constructor
  · rintro ⟨i, hi, hr⟩
    rw [instruction?_of_wellFormed h, Option.some.injEq] at hi
    exact hi ▸ hr
  · exact fun hr => ⟨_, instruction?_of_wellFormed h _ _, hr⟩

/-- A command sets one of the two registers of the variable that it is for. -/
theorem Command.register_of_writes {c : Command} {v : Variable}
    (h : c.target? = some v) {r : List Char}
    (hr : c.instruction.writes? = some r) :
    r = v.register ∨ r = v.scratchRegister := by
  cases c with
  | assign _ _ | keep _ | derive _ _ _ =>
      cases h
      exact Or.inl (Option.some.inj hr).symm
  | lookUp _ _ =>
      cases h
      exact Or.inr (Option.some.inj hr).symm
  | ifFound _ | endIf => cases hr

/-- The segments of a block are commands on variables, all of its layer. -/
theorem Block.of_mem_segments {b : Block} {s : Segment} (h : s ∈ b.segments) :
    s.kind = .definition ∧ s.provenance = some b.layer := by
  obtain ⟨c, -, rfl⟩ := List.mem_map.mp h
  exact ⟨rfl, rfl⟩

namespace Plan

section Blocks

variable {t : Template} {bs : Bindings} {b : Block}

/-- A block sets the registers of its variable and no other. -/
theorem IsBlock.assigns (hb : IsBlock t bs b) {s : Segment}
    (hs : s ∈ b.segments) {r : List Char} (hr : s.Assigns r) :
    r = b.target.register ∨ r = b.target.scratchRegister := by
  obtain ⟨c, hc, rfl⟩ := List.mem_map.mp hs
  have hwrites := (assigns_iff (hb.wellFormed c hc)).mp hr
  rcases Expression.target_of_command hb.targeted hc with rfl | htarget
  · cases hwrites
  · exact Command.register_of_writes htarget hwrites

theorem IsBlock.exists_assigns (hd : t.DistinctKeys) (hb : IsBlock t bs b) :
    ∃ s ∈ b.segments, s.Assigns b.target.register := by
  have hwell := hb.wellFormed
  have hfirst {c : Command} (hc : c ∈ b.expression.commands)
      (hr : c.instruction.writes? = some b.target.register) :
      ∃ s ∈ b.segments, s.Assigns b.target.register :=
    ⟨_, List.mem_map_of_mem hc, (assigns_iff (hwell c hc)).mpr hr⟩
  cases hb.form hd with
  | @derived _ _ source steps _ _ he =>
      refine hfirst (c := .derive b.target source steps) ?_ rfl
      rw [he]
      exact List.mem_cons_self
  | lookedUp _ _ he =>
      refine hfirst (c := .keep b.target) ?_ rfl
      rw [he]
      simp only [Expression.commands, List.mem_cons, true_or, or_true]
  | assigned _ _ he =>
      refine hfirst (c := .assign b.target
        (Literal.ofText (bs.resolve b.layer b.text).currentLiteral)) ?_ rfl
      rw [he]
      exact List.mem_cons_self

/-- A block reads what it has set itself, or the variable it is derived from. -/
theorem IsBlock.supplied (hd : t.DistinctKeys) (hb : IsBlock t bs b)
    {set : List Char → Prop}
    (hset : ∀ {c : Calculation} {dependency : TextLayer} {source : Variable}
      {steps : List Step},
      (t.keptDerivations bs).get? b.layer =
        some ⟨c.dependsOn, .derived b.target source steps⟩ →
      t.Derives b.layer b.text c dependency b.target source steps →
      set source.register) : Supplied set b.segments := by
  have hwell := hb.wellFormed
  have hnone (set : List Char → Prop) : ∀ r ∈ ([] : List (List Char)), set r :=
    List.forall_mem_nil _
  cases hb.form hd with
  | derived hkept hder he =>
      rw [he] at hwell
      rw [Block.segments, he]
      have hc := hwell _ List.mem_cons_self
      exact ⟨⟨_, instruction?_of_wellFormed hc _ _,
        List.forall_mem_singleton.mpr (hset hkept hder)⟩, trivial⟩
  | lookedUp _ _ he =>
      rw [he] at hwell
      simp only [Expression.commands, List.forall_mem_cons] at hwell
      obtain ⟨hassign, hlookUp, hfound, hkeep, hend, -⟩ := hwell
      -- The test and the copy read what the look-up has set.
      have hscratch : (Segment.mk (Command.lookUp b.target
          (bs.resolve b.layer b.text).metadataKey).text (some b.layer)
          .definition).Assigns b.target.scratchRegister :=
        (assigns_iff hlookUp).mpr rfl
      rw [Block.segments, he]
      exact ⟨⟨_, instruction?_of_wellFormed hassign _ _, hnone _⟩,
        ⟨_, instruction?_of_wellFormed hlookUp _ _, hnone _⟩,
        ⟨_, instruction?_of_wellFormed hfound _ _,
          List.forall_mem_singleton.mpr (Or.inr hscratch)⟩,
        ⟨_, instruction?_of_wellFormed hkeep _ _,
          List.forall_mem_singleton.mpr (Or.inl (Or.inr hscratch))⟩,
        ⟨_, instruction?_of_wellFormed hend _ _, hnone _⟩, trivial⟩
  | assigned _ _ he =>
      rw [he] at hwell
      rw [Block.segments, he]
      have hc := hwell _ List.mem_cons_self
      exact ⟨⟨_, instruction?_of_wellFormed hc _ _, hnone _⟩, trivial⟩

/-- The blocks in turn read what is set before: the invariant is that what has
been set so far includes the variables of the blocks so far. -/
theorem supplied_blocks {blocks : List Block} (hd : t.DistinctKeys)
    (hwell : WellDefined t bs blocks) :
    Supplied (fun _ => False) (blocks.flatMap Block.segments) := by
  induction hwell with
  | nil => trivial
  | @snoc blocks b hwell hb _ hsource ih =>
      rw [List.flatMap_append, List.flatMap_singleton]
      refine supplied_append.mpr ⟨ih, hb.supplied hd ?_⟩
      intro c dependency source steps hkept hder
      obtain ⟨b', hb', -, rfl⟩ := exists_source hwell hsource hkept hder
      obtain ⟨s, hs, hset⟩ := (hwell.isBlock b' hb').exists_assigns hd
      exact Or.inr ⟨s, List.mem_flatMap.mpr ⟨b', hb', hs⟩, hset⟩

/-- What sets a variable is in the block of the variable. -/
theorem WellDefined.target_of_assigns {blocks : List Block}
    (hwell : WellDefined t bs blocks) (hb : b ∈ blocks) {s : Segment}
    (hs : s ∈ b.segments) {v : Variable} (h : s.Assigns v.register) :
    v = b.target := by
  rcases (hwell.isBlock b hb).assigns hs h with heq | heq
  · exact Variable.register_injective heq
  · exact absurd heq (Variable.register_ne_scratchRegister _ _)

/-- The commands that set a variable are next to each other, among commands of
one layer that set nothing else. -/
theorem exists_block {blocks : List Block}
    (hwell : WellDefined t bs blocks) (v : Variable) :
    ∃ before block after layer,
      blocks.flatMap Block.segments = before ++ block ++ after ∧
      (∀ s ∈ block, s.provenance = some layer ∧
        ∀ r, s.Assigns r → r = v.register ∨ r = v.scratchRegister) ∧
      ∀ s ∈ before ++ after, ¬ s.Assigns v.register := by
  by_cases hv : v ∈ blocks.map Block.target
  · obtain ⟨b, hb, rfl⟩ := List.mem_map.mp hv
    obtain ⟨front, back, rfl⟩ := List.append_of_mem hb
    refine ⟨front.flatMap Block.segments, b.segments,
      back.flatMap Block.segments, b.layer, ?_, ?_, ?_⟩
    · rw [List.flatMap_append, List.flatMap_cons, List.append_assoc]
    · intro s hs
      exact ⟨(Block.of_mem_segments hs).2, fun r hr =>
        (hwell.isBlock b hb).assigns hs hr⟩
    · intro s hs hset
      have hnodup := hwell.nodup_targets
      rw [List.map_append, List.map_cons, List.nodup_middle, List.nodup_cons]
        at hnodup
      rw [← List.flatMap_append] at hs
      obtain ⟨b', hb', hs⟩ := List.mem_flatMap.mp hs
      have hmem : b' ∈ front ++ b :: back :=
        (List.mem_append.mp hb').elim (List.mem_append_left _)
          fun h => List.mem_append_right _ (List.mem_cons_of_mem _ h)
      have htarget := hwell.target_of_assigns hmem hs hset
      refine hnodup.1 ?_
      rw [htarget, ← List.map_append]
      exact List.mem_map_of_mem hb'
  · refine ⟨blocks.flatMap Block.segments, [], [], "", ?_, ?_, ?_⟩
    · rw [List.append_nil, List.append_nil]
    · exact List.forall_mem_nil _
    · intro s hs hset
      rw [List.append_nil] at hs
      obtain ⟨b, hb, hs⟩ := List.mem_flatMap.mp hs
      exact hv (hwell.target_of_assigns hb hs hset ▸ List.mem_map_of_mem hb)

end Blocks

/-! ## The whole plan -/

/-- One of these commands on variables sets the register. -/
def SetBy (ss : List Segment) (register : List Char) : Prop :=
  ∃ s ∈ ss, s.kind = .definition ∧ s.Assigns register

/-- Every variable is defined in one place, before it is used, and is used where
its field is shown. -/
structure Disciplined (t : Template) (bs : Bindings) (p : Plan) : Prop where
  reads : ∀ before s after, p.segments = before ++ s :: after →
    s.kind = .definition →
    ∃ i, s.instruction? = some i ∧ ∀ r ∈ i.reads, SetBy before r
  refers : ∀ before s after, p.segments = before ++ s :: after →
    s.kind = .textContent →
    ∀ lead register trail,
      s.tokens.toList = lead ++ '$' :: '(' :: (register ++ ')' :: trail) →
      ')' ∉ register → SetBy before register
  block : ∀ v : Variable, ∃ before block after layer,
    p.bindings = before ++ block ++ after ∧
    (∀ s ∈ block, s.provenance = some layer ∧
      ∀ r, s.Assigns r → r = v.register ∨ r = v.scratchRegister) ∧
    ∀ s ∈ before ++ after, ¬ s.Assigns v.register
  nodup : (p.variables.map (·.2)).Nodup
  listed : ∀ layer v, (layer, v) ∈ p.variables ↔
    ∃ s ∈ p.bindings, s.provenance = some layer ∧ s.Assigns v.register
  /-- A text whose field has a variable refers to it. -/
  shown : ∀ key text v, (key, text) ∈ t.textLayers →
    t.variables.get? (text.field key) = some v → v ∈ p.variables.map (·.2) →
    (∃ e ∈ p.layers, e.key = key) ∧
    ∀ e ∈ p.layers, e.key = key →
      Fragment.textPayload? e.content.toList =
        some (escape text.lead ++ v.reference ++ escape text.trail).toList
  /-- Any other text has its literal, and no dollar sign at all. -/
  inlined : ∀ key text v, (key, text) ∈ t.textLayers →
    t.variables.get? (text.field key) = some v → v ∉ p.variables.map (·.2) →
    ∀ e ∈ p.layers, e.key = key → '$' ∉ e.content.toList ∧
      Fragment.textPayload? e.content.toList =
        some (escape text.lead ++ escape (bs.resolve key text).currentLiteral ++
          escape text.trail).toList

section Compile

variable {settings : CompilerSettings} {t : Template} {bs : Bindings}
  {canvas : Size} {asset : String}

/-- The three places of a segment: first, among the commands on variables, or
behind them all. -/
theorem place_of_segment (p : Plan) {before after : List Segment} {s : Segment}
    (h : p.segments = before ++ s :: after) :
    s = p.asset ∨
    (∃ front back, before = p.asset :: front ∧
      p.bindings = front ++ s :: back) ∨
    p.bindings ⊆ before ∧
      s ∈ p.canvas :: p.layers.flatMap Emission.segments := by
  cases before with
  | nil => exact Or.inl (List.cons.inj h).1.symm
  | cons a front =>
      rw [segments, List.cons_append, List.cons_append] at h
      have hasset := (List.cons.inj h).1
      subst hasset
      rcases List.append_eq_append_iff.mp (List.cons.inj h).2 with
        ⟨as, rfl, has⟩ | ⟨bs, hbs, hrest⟩
      · refine Or.inr (Or.inr
          ⟨?_, has ▸ List.mem_append_right _ List.mem_cons_self⟩)
        exact fun x hx => List.mem_cons_of_mem _ (List.mem_append_left _ hx)
      · cases bs with
        | nil =>
            rw [List.append_nil] at hbs
            refine Or.inr (Or.inr ⟨?_, ?_⟩)
            · rw [hbs]
              exact List.subset_cons_self _ _
            · rw [(List.cons.inj hrest).1]
              exact List.mem_cons_self
        | cons b back =>
            rw [← (List.cons.inj hrest).1] at hbs
            exact Or.inr (Or.inl ⟨front, back, rfl, hbs⟩)

theorem kind_of_mem_bindings {s : Segment}
    (h : s ∈ (compile settings t bs canvas asset).bindings) :
    s.kind = .definition := by
  obtain ⟨⟨key, c⟩, -, rfl⟩ := List.mem_map.mp h
  rfl

/-- Behind the commands on variables there are none, and a text is that of a
text layer. -/
theorem kind_of_mem_layers {s : Segment}
    (h : s ∈ (compile settings t bs canvas asset).canvas ::
      (compile settings t bs canvas asset).layers.flatMap Emission.segments) :
    s.kind ≠ .definition ∧ (s.kind = .textContent →
      ∃ e text, EmitsText settings t bs e text ∧ s.tokens = e.content) := by
  rcases List.mem_cons.mp h with rfl | h
  · exact ⟨nofun, nofun⟩
  · obtain ⟨e, he, hs⟩ := List.mem_flatMap.mp h
    simp only [Emission.segments, List.mem_cons, List.not_mem_nil, or_false]
      at hs
    rcases hs with rfl | rfl
    · rcases emits_of_mem he with ⟨text, htext⟩ | ⟨image, width, height, himage⟩
      · refine ⟨?_, fun _ => ⟨e, text, htext, rfl⟩⟩
        rw [htext.kind]
        nofun
      · rw [himage.kind]
        exact ⟨nofun, nofun⟩
    · exact ⟨nofun, nofun⟩

/-- A command on variables has the asset and other such commands before it. -/
theorem definition_of_segments {before after : List Segment} {s : Segment}
    (h : (compile settings t bs canvas asset).segments = before ++ s :: after)
    (hkind : s.kind = .definition) :
    ∃ front back, before = assetSegment asset :: front ∧
      (compile settings t bs canvas asset).bindings = front ++ s :: back := by
  rcases place_of_segment _ h with rfl | hplace | ⟨-, hs⟩
  · cases hkind
  · exact hplace
  · exact absurd hkind (kind_of_mem_layers hs).1

theorem text_of_segments {before after : List Segment} {s : Segment}
    (h : (compile settings t bs canvas asset).segments = before ++ s :: after)
    (hkind : s.kind = .textContent) :
    (compile settings t bs canvas asset).bindings ⊆ before ∧
      ∃ e text, EmitsText settings t bs e text ∧ s.tokens = e.content := by
  rcases place_of_segment _ h with rfl | ⟨front, back, -, hplace⟩ | ⟨hsub, hs⟩
  · cases hkind
  · have hdef : s.kind = .definition := kind_of_mem_bindings
      (hplace ▸ List.mem_append_right _ List.mem_cons_self)
    rw [hkind] at hdef
    cases hdef
  · exact ⟨hsub, (kind_of_mem_layers hs).2 hkind⟩

/-- An emission under the key of a text layer is of that layer. -/
theorem emitsText_of_key (hd : t.DistinctKeys) {key : String}
    {text : TextLayer} (hmem : (key, text) ∈ t.textLayers) {e : Emission}
    (he : e ∈ (compile settings t bs canvas asset).layers)
    (hkey : e.key = key) : EmitsText settings t bs e text := by
  have htext := Template.textLayer?_of_mem hd hmem
  rcases emits_of_mem he with ⟨text', h⟩ | ⟨image, width, height, h⟩
  · have htext' := Template.textLayer?_of_mem hd h.declared
    rw [hkey, htext, Option.some.injEq] at htext'
    exact htext' ▸ h
  · have hlayer := Template.textLayer?_of_layer hd h.declared
    rw [hkey, htext] at hlayer
    cases hlayer

section Defined

variable {blocks : List Block}

/-- What a command on variables reads has been set in front of it. -/
theorem set_before_definition (hd : t.DistinctKeys)
    (hdefs : definitions t bs = Definitions.ofBlocks blocks)
    (hwell : WellDefined t bs blocks) {before after : List Segment}
    {s : Segment}
    (h : (compile settings t bs canvas asset).segments = before ++ s :: after)
    (hkind : s.kind = .definition) :
    ∃ i, s.instruction? = some i ∧ ∀ r ∈ i.reads, SetBy before r := by
  obtain ⟨front, back, rfl, hfront⟩ := definition_of_segments h hkind
  have hblocks : blocks.flatMap Block.segments = front ++ s :: back := by
    rw [← bindings_of_blocks hdefs, hfront]
  have hsupplied := supplied_blocks hd hwell
  rw [hblocks] at hsupplied
  obtain ⟨i, hi, hreads⟩ := hsupplied.at
  refine ⟨i, hi, fun r hr => ?_⟩
  rcases hreads r hr with hfalse | ⟨s', hs', hset⟩
  · exact hfalse.elim
  · have hmem : s' ∈ blocks.flatMap Block.segments :=
      hblocks ▸ List.mem_append_left _ hs'
    obtain ⟨b, hb, hsb⟩ := List.mem_flatMap.mp hmem
    exact ⟨s', List.mem_cons_of_mem _ hs', (Block.of_mem_segments hsb).1, hset⟩

/-- What stands between the parentheses behind a dollar sign of a text is the
register of the variable of its field. -/
theorem register_of_reference {e : Emission} {text : TextLayer}
    (h : EmitsText settings t bs e text) {v : Variable}
    (hdefined : definedFor t bs e.key text = some v)
    {lead register trail : List Char}
    (hplace : e.content.toList =
      lead ++ '$' :: '(' :: (register ++ ')' :: trail))
    (hparen : ')' ∉ register) : register = v.register := by
  obtain ⟨trail', hpost⟩ := h.follows_dollar hdefined _ _ hplace
  have hname : ')' ∉ v.register :=
    ((named_definedFor hdefined).not_mem_register rfl).1
  have hcut := cut?_append_cons hparen trail
  rw [(List.cons.inj hpost).2] at hcut
  have hcut' := cut?_append_cons hname trail'
  rw [Variable.register, List.cons_append, hcut, Option.some.injEq] at hcut'
  exact congrArg Prod.fst hcut'

theorem set_before_text (hd : t.DistinctKeys)
    (hdefs : definitions t bs = Definitions.ofBlocks blocks)
    (hwell : WellDefined t bs blocks) {before after : List Segment}
    {s : Segment}
    (h : (compile settings t bs canvas asset).segments = before ++ s :: after)
    (hkind : s.kind = .textContent) {lead register trail : List Char}
    (hplace : s.tokens.toList =
      lead ++ '$' :: '(' :: (register ++ ')' :: trail))
    (hparen : ')' ∉ register) : SetBy before register := by
  obtain ⟨hsub, e, text, htext, htokens⟩ := text_of_segments h hkind
  rw [htokens] at hplace
  cases hdefined : definedFor t bs e.key text with
  | none =>
      have hdollar := htext.not_mem_dollar hdefined
      rw [hplace] at hdollar
      exact absurd (List.mem_append_right _ List.mem_cons_self) hdollar
  | some v =>
      rw [register_of_reference htext hdefined hplace hparen]
      obtain ⟨b, hb, -, rfl⟩ := (definedFor_eq_some_iff hdefs hwell).mp hdefined
      obtain ⟨s', hs', hset⟩ := (hwell.isBlock b hb).exists_assigns hd
      refine ⟨s', hsub ?_, (Block.of_mem_segments hs').1, hset⟩
      rw [bindings_of_blocks hdefs]
      exact List.mem_flatMap.mpr ⟨b, hb, hs'⟩

/-- A variable is listed with the layer whose commands set it. -/
theorem mem_variables_iff (hd : t.DistinctKeys)
    (hdefs : definitions t bs = Definitions.ofBlocks blocks)
    (hwell : WellDefined t bs blocks) {layer : String} {v : Variable} :
    (layer, v) ∈ (compile settings t bs canvas asset).variables ↔
      ∃ s ∈ (compile settings t bs canvas asset).bindings,
        s.provenance = some layer ∧ s.Assigns v.register := by
  rw [variables_of_blocks hdefs, bindings_of_blocks hdefs, List.mem_map]
  constructor
  · rintro ⟨b, hb, heq⟩
    cases heq
    obtain ⟨s, hs, hset⟩ := (hwell.isBlock b hb).exists_assigns hd
    exact ⟨s, List.mem_flatMap.mpr ⟨b, hb, hs⟩,
      (Block.of_mem_segments hs).2, hset⟩
  · rintro ⟨s, hs, hlayer, hset⟩
    obtain ⟨b, hb, hsb⟩ := List.mem_flatMap.mp hs
    refine ⟨b, hb, ?_⟩
    rw [(Block.of_mem_segments hsb).2, Option.some.injEq] at hlayer
    rw [hlayer, hwell.target_of_assigns hb hsb hset]

theorem definedFor_of_listed
    (hdefs : definitions t bs = Definitions.ofBlocks blocks)
    (hwell : WellDefined t bs blocks) {key : String} {text : TextLayer}
    {v : Variable} (hnamed : t.variables.get? (text.field key) = some v)
    (hv : v ∈ blocks.map Block.target) : definedFor t bs key text = some v := by
  obtain ⟨b, hb, rfl⟩ := List.mem_map.mp hv
  exact (definedFor_eq_some_iff hdefs hwell).mpr
    ⟨b, hb, Template.variables_injective (hwell.isBlock b hb).named hnamed, rfl⟩

theorem definedFor_of_not_listed
    (hdefs : definitions t bs = Definitions.ofBlocks blocks)
    (hwell : WellDefined t bs blocks) {key : String} {text : TextLayer}
    {v : Variable} (hnamed : t.variables.get? (text.field key) = some v)
    (hv : v ∉ blocks.map Block.target) : definedFor t bs key text = none := by
  cases hsome : definedFor t bs key text with
  | none => rfl
  | some v' =>
      obtain ⟨b, hb, hfield, -⟩ := (definedFor_eq_some_iff hdefs hwell).mp hsome
      have hown := (hwell.isBlock b hb).named
      rw [hfield, hnamed, Option.some.injEq] at hown
      exact absurd (hown ▸ List.mem_map_of_mem hb) hv

end Defined

theorem compile_disciplined (settings : CompilerSettings) {t : Template}
    (hd : t.DistinctKeys) (bs : Bindings) (canvas : Size) (asset : String) :
    Disciplined t bs (compile settings t bs canvas asset) := by
  obtain ⟨blocks, hdefs, hwell, -⟩ := exists_blocks hd bs
  constructor
  case reads =>
    intro before s after hsegments hkind
    exact set_before_definition hd hdefs hwell hsegments hkind
  case refers =>
    intro before s after hsegments hkind lead register trail hplace hparen
    exact set_before_text hd hdefs hwell hsegments hkind hplace hparen
  case block =>
    intro v
    rw [bindings_of_blocks hdefs]
    exact exists_block hwell v
  case nodup =>
    rw [targets_of_blocks hdefs]
    exact hwell.nodup_targets
  case listed => exact fun layer v => mem_variables_iff hd hdefs hwell
  case shown =>
    intro key text v hmem hnamed hv
    rw [targets_of_blocks hdefs] at hv
    have hdefined := definedFor_of_listed hdefs hwell hnamed hv
    constructor
    · have hshows : payload text (bs.resolve key text).currentLiteral
          (definedFor t bs key text) ≠ "" := by
        rw [hdefined]
        exact payload_ne_empty _ _ _
      obtain ⟨e, he, hkey, -⟩ := exists_emission hmem hshows
      exact ⟨e, he, hkey⟩
    · intro e he hkey
      have h := emitsText_of_key hd hmem he hkey
      rw [h.textPayload?_content, h.identifier_of_defined (hkey ▸ hdefined)]
  case inlined =>
    intro key text v hmem hnamed hv e he hkey
    rw [targets_of_blocks hdefs] at hv
    have h := emitsText_of_key hd hmem he hkey
    have hdefined : definedFor t bs e.key text = none :=
      hkey ▸ definedFor_of_not_listed hdefs hwell hnamed hv
    rw [h.textPayload?_content, h.identifier_of_not_defined hdefined, hkey]
    exact ⟨h.not_mem_dollar hdefined, rfl⟩

theorem priceTag_disciplined :
    Template.priceTag.DistinctKeys ∧
      Disciplined Template.priceTag Table.empty
        (compile ⟨1080, 48⟩ Template.priceTag Table.empty ⟨1080, 1080⟩
          "shop/shoe") := by
  have hd : Template.priceTag.DistinctKeys := by decide
  exact ⟨hd, compile_disciplined _ hd _ _ _⟩

end Compile

end Plan

end Placard
