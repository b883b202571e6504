import Placard.Proofs.Wire.Discipline
import Placard.Proofs.Wire.Forms

/-!
# What a text shows is read off its command

A text is found behind the font in the one parameter that names one, and how
many parameters stand in front of that, or words in the font, does not matter:
none of them has a comma or a colon. What is found is the lead, the content and
the trail, escaped one by one and put together. Reading the codes back goes
through it in the same order, because no code runs on into what stands behind
it, and the reference to a variable has no percent sign at all.

The other commands have no parameter that names a font, so nothing is read off
them. For the picture that is a matter of its path, and it is left out here.
-/

namespace Placard

open Text

/-! ## Commands without a text -/

namespace Fragment

theorem textPayload?_cons {c : Char} {s : List Char} (hc : c ≠ 'l')
    (h : ',' ∉ c :: s) : textPayload? (c :: s) = none := by
  refine textPayload?_eq_none fun piece hpiece => ?_
  rw [split_of_not_mem h, List.mem_singleton] at hpiece
  rw [hpiece]
  simp only [String.reduceToList]
  exact after?_cons_of_ne hc _ _

theorem textPayload?_asset (asset : String) :
    textPayload? (Plan.assetSegment asset).tokens.toList = none := by
  have hfree : ',' ∉ (Plan.assetSegment asset).tokens.toList := by
    have hasset :=
      (markedBy_asset asset).not_mem (c := ',') (by decide) (by decide)
    simp only [Plan.assetSegment, String.toList_append, List.mem_append, not_or]
    exact ⟨⟨⟨by decide, by decide⟩, hasset⟩, by decide⟩
  obtain ⟨s, hs⟩ : ∃ s, (Plan.assetSegment asset).tokens.toList = '$' :: s := by
    simp only [Plan.assetSegment, subjectVariable, String.toList_append,
      String.reduceToList, List.cons_append]
    exact ⟨_, rfl⟩
  rw [hs] at hfree ⊢
  exact textPayload?_cons (by decide) hfree

theorem textPayload?_command {c : Command} (h : c.WellFormed) :
    textPayload? c.text.toList = none := by
  have hfree :=
    (Command.markedBy_text h).not_mem (c := ',') (by decide) (by decide)
  obtain ⟨x, s, hs, hx⟩ : ∃ x s, c.text.toList = x :: s ∧ x ≠ 'l' := by
    cases c with
    | endIf => exact ⟨_, _, rfl, by decide⟩
    | assign _ _ | lookUp _ _ | ifFound _ | keep _ | derive _ _ _ =>
        simp only [Command.text, Variable.value, Variable.scratch,
          String.toList_append, String.reduceToList, List.cons_append,
          List.nil_append]
        exact ⟨_, _, rfl, by decide⟩
  rw [hs] at hfree ⊢
  exact textPayload?_cons hx hfree

theorem textPayload?_canvas (background : Color) (canvas : Size) :
    textPayload? (Plan.canvasSegment background canvas).tokens.toList =
      none := by
  refine textPayload?_eq_none ?_
  rw [split_canvasSegment]
  simp only [List.forall_mem_cons, String.toList_append, String.reduceToList]
  exact ⟨after?_cons_of_ne (by decide) _ _, after?_cons_of_ne (by decide) _ _,
    after?_cons_of_ne (by decide) _ _, after?_cons_of_ne (by decide) _ _,
    List.forall_mem_nil _⟩

theorem decodeText?_eq_none {s : String} (h : textPayload? s.toList = none) :
    decodeText? s = none := by
  rw [decodeText?, h, Option.map_none]

end Fragment

/-! ## Texts -/

namespace Plan

section Texts

variable {settings : CompilerSettings} {t : Template} {bs : Bindings}
  {e : Emission} {text : TextLayer}

theorem EmitsText.decodeText?_identifier (h : EmitsText settings t bs e text) :
    Fragment.decodeText? e.content = some (unescape e.identifier) := by
  rw [Fragment.decodeText?, h.textPayload?_content, Option.map_some]
  rfl

theorem EmitsText.decodeText?_content (h : EmitsText settings t bs e text)
    (hdefined : definedFor t bs e.key text = none) :
    Fragment.decodeText? e.content =
      some (text.lead ++ (bs.resolve e.key text).currentLiteral ++
        text.trail) := by
  rw [h.decodeText?_identifier, h.identifier_of_not_defined hdefined, unescape]
  simp only [String.toList_append, toList_escape, ← escapeChars_append,
    unescapeChars_escapeChars, String.ofList_append, String.ofList_toList]

theorem EmitsText.decodeText?_content_of_defined
    (h : EmitsText settings t bs e text) {v : Variable}
    (hdefined : definedFor t bs e.key text = some v) :
    Fragment.decodeText? e.content =
      some (text.lead ++ v.reference ++ text.trail) := by
  have hpercent : '%' ∉ v.reference.toList := by
    simp only [Variable.reference, String.toList_append, List.mem_append,
      not_or]
    exact ⟨⟨by decide, (named_definedFor hdefined).not_mem rfl⟩, by decide⟩
  rw [h.decodeText?_identifier, h.identifier_of_defined hdefined, unescape]
  simp only [String.toList_append, toList_escape, List.append_assoc,
    unescapeChars_escapeChars_append, unescapeChars_append hpercent,
    unescapeChars_escapeChars, String.ofList_append, String.ofList_toList]
  rw [String.append_assoc]

end Texts

/-! ## The whole plan -/

/-- What each text shows is read off its command: the lead, the reference to the
variable of its field if that is defined and else the literal, and the trail.
Nothing is read off a command that shows nothing. -/
structure Decodable (t : Template) (bs : Bindings) (p : Plan) : Prop where
  texts : ∀ e ∈ p.layers, e.kind = .textContent →
    ∃ text v, (e.key, text) ∈ t.textLayers ∧
      t.variables.get? (text.field e.key) = some v ∧
      Fragment.decodeText? e.content = some (text.lead ++
        (if v ∈ p.variables.map (·.2) then v.reference
          else (bs.resolve e.key text).currentLiteral) ++ text.trail)
  others : ∀ s ∈ p.segments, s.kind ≠ .textContent → s.kind ≠ .imageContent →
    Fragment.decodeText? s.tokens = none

theorem compile_decodable (settings : CompilerSettings) {t : Template}
    (hd : t.DistinctKeys) (bs : Bindings) (canvas : Size) (asset : String) :
    Decodable t bs (compile settings t bs canvas asset) := by
  obtain ⟨blocks, hdefs, hwell, -⟩ := exists_blocks hd bs
  constructor
  case texts =>
    intro e he hkind
    rcases emits_of_mem he with ⟨text, h⟩ | ⟨image, width, height, h⟩
    · obtain ⟨v, hv⟩ := Template.exists_variable h.declared
      refine ⟨text, v, h.declared, hv, ?_⟩
      rw [targets_of_blocks hdefs]
      split
      · next hlisted =>
          exact h.decodeText?_content_of_defined
            (definedFor_of_listed hdefs hwell hv hlisted)
      · next hunlisted =>
          exact h.decodeText?_content
            (definedFor_of_not_listed hdefs hwell hv hunlisted)
    · rw [h.kind] at hkind
      cases hkind
  case others =>
    intro s hs htext himage
    refine Fragment.decodeText?_eq_none ?_
    rcases (mem_segments hdefs).mp hs with
      rfl | ⟨b, hb, c, hc, rfl⟩ | rfl | ⟨e, he, hs⟩
    · exact Fragment.textPayload?_asset asset
    · exact Fragment.textPayload?_command ((hwell.isBlock b hb).wellFormed c hc)
    · exact Fragment.textPayload?_canvas _ _
    · simp only [Emission.segments, List.mem_cons, List.not_mem_nil, or_false]
        at hs
      have hemits := emits_of_mem he
      rcases hs with rfl | rfl
      · rcases hemits with ⟨text, h⟩ | ⟨image, width, height, h⟩
        · exact absurd h.kind htext
        · exact absurd h.kind himage
      · obtain ⟨p, hp⟩ : ∃ p : Placement, e.apply = p.command := by
          rcases hemits with ⟨text, h⟩ | ⟨image, width, height, h⟩
          · exact h.placed
          · exact h.placed
        simp only [hp]
        exact Fragment.textPayload?_placement p

theorem priceTag_decodable :
    Template.priceTag.DistinctKeys ∧
      Decodable Template.priceTag Table.empty
        (compile ⟨1080, 48⟩ Template.priceTag Table.empty ⟨1080, 1080⟩
          "shop/shoe") := by
  have hd : Template.priceTag.DistinctKeys := by decide
  exact ⟨hd, compile_decodable _ hd _ _ _⟩

end Plan

end Placard
