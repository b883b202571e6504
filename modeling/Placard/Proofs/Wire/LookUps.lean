import Placard.Proofs.Wire.Discipline

/-!
# Where look-ups come from

A look-up on the wire is part of the block of a field, and the block has one
only if the content of its layer is looked up. So a field is not looked up in
any plan in which no layer that has it takes its content from metadata.
-/

namespace Placard

namespace Plan

variable {settings : CompilerSettings} {t : Template} {bs : Bindings}
  {canvas : Size} {asset : String} {v : Variable} {key : List Char}

/-- A command that is read as a look-up is that of a layer whose content is
looked up. -/
theorem IsBlock.looksUp (hd : t.DistinctKeys) {b : Block}
    (hb : IsBlock t bs b) {s : Segment} (hs : s ∈ b.segments)
    (hread : s.instruction? = some (.lookUp v.scratchRegister key)) :
    v = b.target ∧ (bs.resolve b.layer b.text).looksUp = true ∧
      key = (bs.resolve b.layer b.text).metadataKey.toList := by
  obtain ⟨c, hc, rfl⟩ := List.mem_map.mp hs
  rw [instruction?_of_wellFormed (hb.wellFormed c hc), Option.some.injEq]
    at hread
  cases hb.form hd with
  | derived _ _ he =>
      rw [he, Expression.commands, List.mem_singleton] at hc
      subst hc
      cases hread
  | assigned _ _ he =>
      rw [he, Expression.commands, List.mem_singleton] at hc
      subst hc
      cases hread
  | lookedUp _ hlooks he =>
      rw [he] at hc
      simp only [Expression.commands, List.mem_cons, List.not_mem_nil, or_false]
        at hc
      rcases hc with rfl | rfl | rfl | rfl | rfl
      · cases hread
      · obtain ⟨hregister, hkey⟩ := Instruction.lookUp.inj hread
        exact ⟨Variable.scratchRegister_injective hregister.symm, hlooks,
          hkey.symm⟩
      · cases hread
      · cases hread
      · cases hread

/-- A field is looked up for a layer that has it and takes its content from
metadata. -/
theorem exists_looksUp (hd : t.DistinctKeys) {s : Segment}
    (hs : s ∈ (compile settings t bs canvas asset).segments)
    (hkind : s.kind = .definition)
    (hread : s.instruction? = some (.lookUp v.scratchRegister key))
    {field : String} (hv : t.variables.get? field = some v) :
    ∃ layer text, (layer, text) ∈ t.textLayers ∧ text.field layer = field ∧
      (bs.resolve layer text).looksUp = true ∧
      key = (bs.resolve layer text).metadataKey.toList := by
  obtain ⟨blocks, hdefs, hwell, -⟩ := exists_blocks hd bs
  obtain ⟨before, after, hplace⟩ := List.append_of_mem hs
  obtain ⟨front, back, -, hbindings⟩ := definition_of_segments hplace hkind
  rw [bindings_of_blocks hdefs] at hbindings
  obtain ⟨b, hb, hsb⟩ : ∃ b ∈ blocks, s ∈ b.segments := by
    rw [← List.mem_flatMap, hbindings]
    exact List.mem_append_right _ List.mem_cons_self
  have hblock := hwell.isBlock b hb
  obtain ⟨rfl, hlooks, hkey⟩ := hblock.looksUp hd hsb hread
  exact ⟨b.layer, b.text, Template.mem_textLayers_of_textLayer? hblock.declared,
    Template.variables_injective hblock.named hv, hlooks, hkey⟩

end Plan

end Placard
