import Placard.Proofs.Wire.Contents
import Placard.Proofs.Wire.Machine

/-!
# A compiled template shows the values of its fields

What a text layer shows is said twice. Said of the template, it is the value of
the layer between a lead and a trail: what a calculation that was kept makes of
the value of the layer it depends on, or what the metadata holds, or a literal.
Said of the wire, it is what the text of the layer comes to in a machine that
has read and carried out the commands on variables. The two agree, and neither
the reading nor the running can fail.

The induction is over the blocks. What it carries is that the register of every
block so far holds the value of the block. A block finds there the value it is
derived from, and leaves the registers of the others as they were, since no two
blocks have one variable. Only then are the values of blocks those of layers,
where no field is that of two.
-/

namespace Placard

open Text

/-! ## Values -/

/-- What the metadata has under the key of a binding, where it has anything, and
else the literal; a look-up without one falls back on a single space. A binding
without a look-up shows its literal. -/
def Binding.value (w : World) (b : Binding) : List Char :=
  let found := (w.metadata b.metadataKey.toList).getD []
  if b.looksUp then
    if found.isEmpty then
      if b.currentLiteral.isEmpty then [' '] else b.currentLiteral.toList
    else found
  else b.currentLiteral.toList

theorem Binding.value_of_looksUp {w : World} {b : Binding}
    (h : b.looksUp = true) :
    b.value w = if ((w.metadata b.metadataKey.toList).getD []).isEmpty then
      if b.currentLiteral.isEmpty then [' '] else b.currentLiteral.toList
      else (w.metadata b.metadataKey.toList).getD [] := if_pos h

theorem Binding.value_of_not_looksUp {w : World} {b : Binding}
    (h : b.looksUp = false) :
    b.value w = b.currentLiteral.toList := if_neg (Bool.eq_false_iff.mp h)

namespace Template

/-- The value of the text layer under a key. -/
inductive Value (t : Template) (bs : Bindings) (w : World) :
    String → List Char → Prop where
  | calculated {key : String} {d : Derivation} {c : Calculation}
      {steps : List Step} {value : List Char}
      (hkept : (t.keptDerivations bs).get? key = some d)
      (hc : t.calculation? key = some c) (hsteps : c.steps? = some steps)
      (hvalue : Value t bs w c.dependsOn value) :
      Value t bs w key (w.compute (steps.map Step.parts) value)
  | bound {key : String} {text : TextLayer}
      (hkept : (t.keptDerivations bs).get? key = none)
      (htext : t.textLayer? key = some text) :
      Value t bs w key ((bs.resolve key text).value w)

theorem Value.unique {t : Template} {bs : Bindings} {w : World} {key : String}
    {v v' : List Char} (h : Value t bs w key v) (h' : Value t bs w key v') :
    v = v' := by
  induction h generalizing v' with
  | calculated hkept hc hsteps _ ih =>
      cases h' with
      | calculated _ hc' hsteps' hvalue' =>
          rw [hc, Option.some.injEq] at hc'
          subst hc'
          rw [hsteps, Option.some.injEq] at hsteps'
          rw [hsteps', ih hvalue']
      | bound hkept' =>
          rw [hkept] at hkept'
          cases hkept'
  | bound hkept htext =>
      cases h' with
      | calculated hkept' =>
          rw [hkept] at hkept'
          cases hkept'
      | bound _ htext' =>
          rw [htext, Option.some.injEq] at htext'
          rw [htext']

end Template

/-! ## Running the blocks -/

theorem Literal.raw_ofText (s : String) : (Literal.ofText s).raw = s := by
  unfold Literal.ofText
  split <;> rfl

theorem Literal.raw_fallback (s : String) :
    (if s.isEmpty then Literal.text " " else Literal.ofText s).raw.toList =
      if s.isEmpty then [' '] else s.toList := by
  split
  · simp only [Literal.raw, String.reduceToList]
  · rw [Literal.raw_ofText]

namespace Plan

section Blocks

variable {t : Template} {bs : Bindings} {b : Block} {w : World}

/-- A look-up leaves the metadata, if there is any, and else what it falls back
on. -/
theorem run_lookUp {m : Machine} (hrun : m.running = true) {target : Variable}
    {fallback : Literal} {key : String}
    (hwell : ∀ c ∈ (Expression.lookedUp target fallback key).commands,
      c.WellFormed) :
    ∃ m', m.run w ((Expression.lookedUp target fallback key).commands.map
        fun c => c.text.toList) = some m' ∧ m'.running = true ∧
      m'.store target.register = some
        (if ((w.metadata key.toList).getD []).isEmpty then fallback.raw.toList
          else (w.metadata key.toList).getD []) ∧
      ∀ r, r ≠ target.register → r ≠ target.scratchRegister →
        m'.store r = m.store r := by
  simp only [Expression.commands, List.forall_mem_cons] at hwell
  obtain ⟨hassign, hlookUp, hfound, hkeep, hend, -⟩ := hwell
  have hne := target.register_ne_scratchRegister target
  let m₁ := m.set target.register fallback.raw.toList
  let m₂ := m₁.set target.scratchRegister ((w.metadata key.toList).getD [])
  have h₁ : m.step w (Command.assign target fallback).instruction = some m₁ :=
    Machine.step_of_running hrun _
  have h₂ : m₁.step w (Command.lookUp target key).instruction = some m₂ :=
    Machine.step_of_running (m := m₁) hrun _
  have hscratch : m₂.store target.scratchRegister =
      some ((w.metadata key.toList).getD []) := m₁.store_set_self _ _
  have hkept : m₂.store target.register = some fallback.raw.toList := by
    rw [m₁.store_set_of_ne hne]
    exact m.store_set_self _ _
  have hframe : ∀ r, r ≠ target.register → r ≠ target.scratchRegister →
      m₂.store r = m.store r := by
    intro r hr hr'
    rw [m₁.store_set_of_ne hr', m.store_set_of_ne hr]
  have h₃ : m₂.step w (Command.ifFound target).instruction =
      some { m₂ with running := !((w.metadata key.toList).getD []).isEmpty } :=
    Machine.step_ifFound (m := m₂) hrun hscratch
  simp only [Expression.commands, List.map_cons, List.map_nil,
    Machine.run_cons_text w _ hassign, Machine.run_cons_text w _ hlookUp,
    Machine.run_cons_text w _ hfound, Machine.run_cons_text w _ hkeep,
    Machine.run_cons_text w _ hend, h₁, h₂, h₃, Option.bind_some]
  cases hempty : ((w.metadata key.toList).getD []).isEmpty with
  | true =>
      -- The copy is passed over.
      rw [Machine.step_of_not_running rfl (fun h => by cases h),
        Option.bind_some]
      exact ⟨_, rfl, rfl, by rw [if_pos rfl]; exact hkept, hframe⟩
  | false =>
      have hcopy : ({ m₂ with running := true } : Machine).step w
          (Command.keep target).instruction =
          some (({ m₂ with running := true } : Machine).set target.register
            ((w.metadata key.toList).getD [])) :=
        Machine.step_compute (m := { m₂ with running := true }) rfl hscratch _ _
      rw [Bool.not_false, hcopy, Option.bind_some]
      refine ⟨_, rfl, rfl, ?_, ?_⟩
      · rw [if_neg Bool.false_ne_true]
        exact Machine.store_set_self _ _ _
      · intro r hr hr'
        rw [← hframe r hr hr']
        exact Machine.store_set_of_ne _ hr _

/-- What a block leaves in the register of its variable: what the steps make of
the value of the block that it is derived from, or else the content of its
field. -/
inductive BlockValue (t : Template) (bs : Bindings) (w : World) :
    Block → List Char → Prop where
  | derived {b b' : Block} {c : Calculation} {dependency : TextLayer}
      {source : Variable} {steps : List Step} {value : List Char}
      (hkept : (t.keptDerivations bs).get? b.layer =
        some ⟨c.dependsOn, .derived b.target source steps⟩)
      (hder : t.Derives b.layer b.text c dependency b.target source steps)
      (hb' : IsBlock t bs b')
      (hfield : b'.field = dependency.field c.dependsOn)
      (hvalue : BlockValue t bs w b' value) :
      BlockValue t bs w b (w.compute (steps.map Step.parts) value)
  | bound {b : Block} (hkept : (t.keptDerivations bs).get? b.layer = none) :
      BlockValue t bs w b ((bs.resolve b.layer b.text).value w)

/-- Where no two layers share a field, the value of a block is that of its
layer. -/
theorem BlockValue.value (hf : t.DistinctFields) {value : List Char}
    (h : BlockValue t bs w b value) (hb : IsBlock t bs b) :
    t.Value bs w b.layer value := by
  induction h with
  | @derived b b' c dependency source steps value hkept hder hb' hfield _ ih =>
      have hc : t.calculation? b.layer = some c := by
        rw [Template.calculation?, hb.declared]
        exact hder.calculates
      have hlayer : b'.layer = c.dependsOn := Template.eq_of_field_eq hf
        (Template.mem_textLayers_of_textLayer? hb'.declared)
        (Template.mem_textLayers_of_textLayer? hder.depends) hfield
      exact .calculated hkept hc hder.hasSteps (hlayer ▸ ih hb')
  | bound hkept => exact .bound hkept hb.declared

/-- A block that finds what it is derived from can be run. It puts its value
into the register of its variable, and leaves all registers but its two as they
were. -/
theorem run_block (hd : t.DistinctKeys) (hb : IsBlock t bs b) {m : Machine}
    (hrun : m.running = true)
    (hsource : ∀ {c : Calculation} {dependency : TextLayer} {source : Variable}
      {steps : List Step},
      (t.keptDerivations bs).get? b.layer =
        some ⟨c.dependsOn, .derived b.target source steps⟩ →
      t.Derives b.layer b.text c dependency b.target source steps →
      ∃ b' value, IsBlock t bs b' ∧ b'.field = dependency.field c.dependsOn ∧
        m.store source.register = some value ∧ BlockValue t bs w b' value) :
    ∃ m' value, m.run w (b.segments.map fun s => s.tokens.toList) = some m' ∧
      m'.running = true ∧ m'.store b.target.register = some value ∧
      BlockValue t bs w b value ∧
      ∀ r, r ≠ b.target.register → r ≠ b.target.scratchRegister →
        m'.store r = m.store r := by
  have hwell := hb.wellFormed
  have htexts : (b.segments.map fun s => s.tokens.toList) =
      b.expression.commands.map fun c => c.text.toList := by
    rw [Block.segments, List.map_map]
    rfl
  rw [htexts]
  cases hb.form hd with
  | @derived c dependency source steps hkept hder he =>
      obtain ⟨b', value, hb', hfield, hstore, hvalue⟩ := hsource hkept hder
      have hstep : m.step w (Command.derive b.target source steps).instruction =
          some (m.set b.target.register
            (w.compute (steps.map Step.parts) value)) :=
        Machine.step_compute hrun hstore _ _
      rw [he] at hwell ⊢
      simp only [Expression.commands, List.map_cons, List.map_nil,
        Machine.run_cons_text w m (hwell _ List.mem_cons_self), hstep,
        Option.bind_some]
      exact ⟨_, _, rfl, hrun, m.store_set_self _ _,
        .derived hkept hder hb' hfield hvalue,
        fun r hr _ => m.store_set_of_ne hr _⟩
  | lookedUp hkept hlooks he =>
      rw [he] at hwell ⊢
      obtain ⟨m', hm', hrun', hstore, hframe⟩ := run_lookUp (w := w) hrun hwell
      rw [Literal.raw_fallback, ← Binding.value_of_looksUp hlooks] at hstore
      exact ⟨m', _, hm', hrun', hstore, .bound hkept, hframe⟩
  | assigned hkept hlooks he =>
      rw [he] at hwell ⊢
      simp only [Expression.commands, List.map_cons, List.map_nil,
        Machine.run_cons_text w m (hwell _ List.mem_cons_self),
        Machine.step_of_running hrun, Command.instruction, Machine.perform,
        Literal.raw_ofText, Option.bind_some]
      exact ⟨_, _, rfl, hrun, m.store_set_self _ _,
        Binding.value_of_not_looksUp hlooks ▸ .bound hkept,
        fun r hr _ => m.store_set_of_ne hr _⟩

/-- The invariant of the run: the register of every block so far holds the value
of the block. -/
theorem exists_run {blocks : List Block} (hd : t.DistinctKeys)
    (hwell : WellDefined t bs blocks) :
    ∃ m, Machine.start.run w
        ((blocks.flatMap Block.segments).map fun s => s.tokens.toList) =
          some m ∧
      m.running = true ∧
      ∀ b ∈ blocks, ∃ value, m.store b.target.register = some value ∧
        BlockValue t bs w b value := by
  induction hwell with
  | nil => exact ⟨Machine.start, rfl, rfl, List.forall_mem_nil _⟩
  | @snoc blocks b hwell hb hnew hsource ih =>
      obtain ⟨m, hm, hrun, hvalues⟩ := ih
      obtain ⟨m', value, hm', hrun', hstore, hvalue, hframe⟩ :=
        run_block (w := w) hd hb hrun
          (by
            intro c dependency source steps hkept hder
            obtain ⟨b', hb', hfield, rfl⟩ :=
              exists_source hwell hsource hkept hder
            obtain ⟨value, hstore, hvalue⟩ := hvalues b' hb'
            exact ⟨b', value, hwell.isBlock b' hb', hfield, hstore, hvalue⟩)
      refine ⟨m', ?_, hrun', List.forall_mem_append.mpr
        ⟨?_, List.forall_mem_singleton.mpr ⟨value, hstore, hvalue⟩⟩⟩
      · rw [List.flatMap_append, List.map_append, Machine.run_append, hm,
          List.flatMap_singleton]
        exact hm'
      · intro b' hb'
        have hnodup := (hwell.snoc hb hnew hsource).nodup_targets
        rw [List.map_append, List.map_singleton] at hnodup
        have hother : b'.target ≠ b.target := fun heq =>
          (List.nodup_append.mp hnodup).2.2 _ (List.mem_map_of_mem hb') _
            (List.mem_singleton.mpr rfl) heq
        obtain ⟨value', hstore', hvalue'⟩ := hvalues b' hb'
        refine ⟨value', ?_, hvalue'⟩
        rw [hframe _ (fun h => hother (Variable.register_injective h))
          (Variable.register_ne_scratchRegister _ _)]
        exact hstore'

theorem run_blocks {blocks : List Block} (hd : t.DistinctKeys)
    (hf : t.DistinctFields) (hwell : WellDefined t bs blocks) :
    ∃ m, Machine.start.run w
        ((blocks.flatMap Block.segments).map fun s => s.tokens.toList) =
          some m ∧
      m.running = true ∧
      ∀ b ∈ blocks, ∃ value, m.store b.target.register = some value ∧
        t.Value bs w b.layer value := by
  obtain ⟨m, hm, hrun, hvalues⟩ := exists_run (w := w) hd hwell
  refine ⟨m, hm, hrun, fun b hb => ?_⟩
  obtain ⟨value, hstore, hvalue⟩ := hvalues b hb
  exact ⟨value, hstore, hvalue.value hf (hwell.isBlock b hb)⟩

/-- A layer whose field has no variable is neither derived nor looked up. -/
theorem not_kept_of_not_defined {blocks : List Block}
    (hdefs : definitions t bs = Definitions.ofBlocks blocks)
    (hwell : WellDefined t bs blocks)
    (hcomplete : ∀ key text, (key, text) ∈ t.textLayers →
      ∀ target, t.variables.get? (text.field key) = some target →
        (expressionOf t bs key text target).target?.isSome = true →
          text.field key ∈ blocks.map Block.field)
    {key : String} {text : TextLayer} (hmem : (key, text) ∈ t.textLayers)
    (hdefined : definedFor t bs key text = none) :
    (t.keptDerivations bs).get? key = none ∧
      (bs.resolve key text).looksUp = false := by
  obtain ⟨target, htarget⟩ := Template.exists_variable hmem
  have hnone : (expressionOf t bs key text target).target?.isSome = false := by
    refine Bool.eq_false_iff.mpr fun hsome => ?_
    obtain ⟨b, hb, hfield⟩ :=
      List.mem_map.mp (hcomplete key text hmem target htarget hsome)
    have :=
      (definedFor_eq_some_iff hdefs hwell (v := b.target)).mpr
        ⟨b, hb, hfield, rfl⟩
    rw [hdefined] at this
    cases this
  cases hkept : (t.keptDerivations bs).get? key with
  | some d =>
      obtain ⟨_, _, _, _, _, _, _, rfl⟩ := Template.derives_of_kept hkept
      rw [expressionOf_of_kept hkept] at hnone
      cases hnone
  | none =>
      rw [expressionOf_of_not_kept hkept, Expression.ofBinding] at hnone
      simp only [] at hnone
      split at hnone
      · cases hnone
      · next hlooks => exact ⟨rfl, Bool.eq_false_iff.mpr hlooks⟩

/-- A layer whose field has no variable shows its literal. -/
theorem value_of_not_defined {blocks : List Block}
    (hdefs : definitions t bs = Definitions.ofBlocks blocks)
    (hwell : WellDefined t bs blocks)
    (hcomplete : ∀ key text, (key, text) ∈ t.textLayers →
      ∀ target, t.variables.get? (text.field key) = some target →
        (expressionOf t bs key text target).target?.isSome = true →
          text.field key ∈ blocks.map Block.field) (hd : t.DistinctKeys)
    {key : String} {text : TextLayer} (hmem : (key, text) ∈ t.textLayers)
    (hdefined : definedFor t bs key text = none) :
    t.Value bs w key (bs.resolve key text).currentLiteral.toList := by
  obtain ⟨hkept, hlooks⟩ :=
    not_kept_of_not_defined hdefs hwell hcomplete hmem hdefined
  rw [← Binding.value_of_not_looksUp hlooks]
  exact .bound hkept (Template.textLayer?_of_mem hd hmem)

end Blocks

end Plan

/-! ## Showing -/

namespace Store

/-- What the command of a text shows. -/
def overlay? (s : Store) (content : List Char) : Option (List Char) :=
  (Fragment.textPayload? content).bind s.show?

theorem show?_reference {s : Store} {v : Variable} {value : List Char}
    (hnamed : Variable.Named v.name.toList) (hvalue : s v.register = some value)
    (lead trail : String) :
    s.show? (escape lead ++ v.reference ++ escape trail).toList =
      some (lead.toList ++ value ++ trail.toList) := by
  have hparen : ')' ∉ v.register := (hnamed.not_mem_register rfl).1
  have hdollar : '$' ∉ escapeChars lead.toList :=
    (plain_escapeChars _).not_mem (by decide)
  have hrest :
      '$' ∉ '(' :: (v.register ++ ')' :: escapeChars trail.toList) := by
    simp only [List.mem_cons, List.mem_append, not_or]
    exact ⟨by decide, (hnamed.not_mem_register rfl).1, by decide,
      (plain_escapeChars _).not_mem (by decide)⟩
  have hpiece :
      s.expand? ('(' :: (v.register ++ ')' :: escapeChars trail.toList)) =
        some (value ++ trail.toList) := by
      have hafter :
          after? ['('] ('(' ::
            (v.register ++ ')' :: escapeChars trail.toList)) =
            some (v.register ++ ')' :: escapeChars trail.toList) := rfl
      simp only [expand?, hafter, cut?_append_cons hparen, hvalue,
        Option.bind_eq_bind, Option.bind_some, unescapeChars_escapeChars]
  simp only [show?, String.toList_append, toList_escape,
    Variable.toList_reference, List.append_assoc, List.cons_append,
    List.nil_append, split_append_cons hdollar, split_of_not_mem hrest,
    List.mapM_cons, List.mapM_nil, hpiece, Option.bind_eq_bind,
    Option.bind_some, Option.pure_def, Option.map_some,
    unescapeChars_escapeChars, List.flatten_cons, List.flatten_nil,
    List.append_nil]

theorem show?_literal (s : Store) (lead literal trail : String) :
    s.show? (escape lead ++ escape literal ++ escape trail).toList =
      some (lead.toList ++ literal.toList ++ trail.toList) := by
  have hescape : (escape lead ++ escape literal ++ escape trail).toList =
      escapeChars (lead.toList ++ literal.toList ++ trail.toList) := by
    simp only [String.toList_append, toList_escape, escapeChars_append]
  have hdollar :
      '$' ∉ escapeChars (lead.toList ++ literal.toList ++ trail.toList) :=
    (plain_escapeChars _).not_mem (by decide)
  simp only [show?, hescape, split_of_not_mem hdollar, List.mapM_nil,
    Option.pure_def, Option.map_some, unescapeChars_escapeChars,
    List.flatten_nil, List.append_nil]

end Store

namespace Plan

end Plan

end Placard
