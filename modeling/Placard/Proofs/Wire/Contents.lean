import Placard.Proofs.Wire.Tokens
import Placard.Wire.Fragment

/-!
# What each layer shows

The commands of the layers, told apart by their kind. A text is a list of
parameters of which the last names the font and what is shown, a picture is a
list of four; neither has a comma of its own anywhere, so cutting at the commas
gives the parameters back, and what is shown is found behind the font.
-/

namespace Placard

open Text Decimal

namespace Plan

/-- The variable of a text layer's field, if it is defined. -/
def definedFor (t : Template) (bs : Bindings) (key : String)
    (text : TextLayer) : Option Variable :=
  if text.field key ∈ (definitions t bs).fields then t.variables.get?
    (text.field key)
  else none

theorem definedFor_eq_some_iff {t : Template} {bs : Bindings}
    {blocks : List Block}
    (hdefs : definitions t bs = Definitions.ofBlocks blocks)
    (hwell : WellDefined t bs blocks) {key : String} {text : TextLayer}
    {v : Variable} :
    definedFor t bs key text = some v ↔
      ∃ b ∈ blocks, b.field = text.field key ∧ b.target = v := by
  unfold definedFor
  constructor
  · intro h
    split at h
    · next hmem =>
        obtain ⟨b, hb, hfield⟩ := (mem_fields_of_blocks hdefs).mp hmem
        have hnamed := (hwell.isBlock b hb).named
        rw [hfield, h, Option.some.injEq] at hnamed
        exact ⟨b, hb, hfield, hnamed.symm⟩
    · cases h
  · rintro ⟨b, hb, hfield, rfl⟩
    rw [if_pos ((mem_fields_of_blocks hdefs).mpr ⟨b, hb, hfield⟩), ← hfield]
    exact (hwell.isBlock b hb).named

/-- An emission of a text layer. -/
structure EmitsText (settings : CompilerSettings) (t : Template) (bs : Bindings)
    (e : Emission) (text : TextLayer) : Prop where
  declared : (e.key, text) ∈ t.textLayers
  kind : e.kind = .textContent
  identifier : e.identifier =
    payload text (bs.resolve e.key text).currentLiteral
    (definedFor t bs e.key text)
  shows : e.identifier ≠ ""
  content : e.content =
    ",".intercalate (textParameters text (baseFontSize t settings) e.identifier)
  placed : ∃ p : Placement, e.apply = p.command

/-- An emission of an image layer. -/
structure EmitsImage (t : Template) (e : Emission) (image : ImageLayer)
    (width height : Int) : Prop where
  declared : ⟨e.key, .image image⟩ ∈ t.layers
  kind : e.kind = .imageContent
  shown : image.shown = true
  identifier : e.identifier = imageToken image
  content : e.content = "l_" ++ e.identifier ++ ",c_fit,w_" ++ intText width ++
    ",h_" ++ intText height
  placed : ∃ p : Placement, e.apply = p.command

section Emissions

variable {settings : CompilerSettings} {t : Template} {bs : Bindings}
  {canvas : Size} {asset : String}

theorem mem_layers {e : Emission} :
    e ∈ (compile settings t bs canvas asset).layers ↔
      ∃ l ∈ t.layers, emit? t bs (definitions t bs).fields
        (baseFontSize t settings)
        (scaleRatio canvas settings.baseWidth) l = some e := by
  simp only [compile, List.mem_filterMap, Template.drawOrder,
    List.mem_mergeSort]

theorem emit?_text (t : Template) (bs : Bindings) {l : Layer} {text : TextLayer}
    (h : l.body = .text text) (base ratio : Float) :
    emit? t bs (definitions t bs).fields base ratio l =
      emitText? l.key text (bs.resolve l.key text).currentLiteral
        (definedFor t bs l.key text) base ratio := by
  unfold emit?
  rw [h]
  rfl

theorem emit?_image {l : Layer} {image : ImageLayer} (h : l.body = .image image)
    (defined : List String) (base ratio : Float) :
    emit? t bs defined base ratio l = emitImage? l.key image ratio := by
  unfold emit?
  rw [h]

theorem emitText?_of_ne {key literal : String} {text : TextLayer}
    {defined? : Option Variable} (h : payload text literal defined? ≠ "")
    (base ratio : Float) :
    emitText? key text literal defined? base ratio = some
      ⟨key, .textContent, ",".intercalate (textParameters text base
          (payload text literal defined?)),
        (Placement.compute text.x text.y text.gravity ratio).command,
        payload text literal defined?⟩ := by
  rw [emitText?]
  exact if_neg fun hempty => h (String.isEmpty_iff.mp hempty)

/-- A picture is emitted with its sides, scaled to the canvas. -/
theorem emitsImage_of_emit? {defined : List String} {base ratio : Float}
    {key : String} {image : ImageLayer} {e : Emission}
    (hl : ⟨key, .image image⟩ ∈ t.layers)
    (he : emit? t bs defined base ratio ⟨key, .image image⟩ = some e) :
    EmitsImage t e image (imageSide image.width ratio)
      (imageSide image.height ratio) := by
  rw [emit?_image rfl, emitImage?] at he
  split at he
  · cases he
  · next hshown =>
      cases he
      exact ⟨hl, rfl, by simpa using hshown, rfl, rfl, _, rfl⟩

/-- What a plan has in its layers comes from a text or from a picture. -/
theorem emits_of_mem {e : Emission}
    (he : e ∈ (compile settings t bs canvas asset).layers) :
    (∃ text, EmitsText settings t bs e text) ∨
      ∃ image width height, EmitsImage t e image width height := by
  obtain ⟨l, hl, he⟩ := mem_layers.mp he
  cases hbody : l.body with
  | text text =>
      have hmem : (l.key, text) ∈ t.textLayers :=
        Template.mem_textLayers.mpr ⟨l, hl, rfl, by rw [Layer.text?, hbody]⟩
      rw [emit?_text t bs hbody] at he
      by_cases hshows : payload text (bs.resolve l.key text).currentLiteral
          (definedFor t bs l.key text) = ""
      · rw [emitText?, hshows] at he
        cases he
      · rw [emitText?_of_ne hshows] at he
        cases he
        exact Or.inl ⟨text, hmem, rfl, rfl, hshows, rfl, _, rfl⟩
  | image image =>
      have hlayer : l = ⟨l.key, .image image⟩ := by rw [← hbody]
      rw [hlayer] at hl he
      exact Or.inr ⟨image, _, _, emitsImage_of_emit? hl he⟩

theorem payload_ne_empty (text : TextLayer) (literal : String) (v : Variable) :
    payload text literal (some v) ≠ "" := by
  intro h
  have hnil := congrArg String.toList h
  unfold payload at hnil
  simp only [Variable.reference, String.toList_append, String.reduceToList,
    List.append_eq_nil_iff, List.cons_ne_nil, false_and, and_false] at hnil

theorem exists_emission {key : String} {text : TextLayer}
    (hmem : (key, text) ∈ t.textLayers)
    (hshows : payload text (bs.resolve key text).currentLiteral
      (definedFor t bs key text) ≠ "") :
    ∃ e ∈ (compile settings t bs canvas asset).layers,
      e.key = key ∧ EmitsText settings t bs e text := by
  obtain ⟨l, hl, rfl, htext⟩ := Template.mem_textLayers.mp hmem
  have hbody : l.body = .text text := by
    unfold Layer.text? at htext
    split at htext <;> cases htext
    assumption
  have he := emit?_text t bs hbody (baseFontSize t settings)
    (scaleRatio canvas settings.baseWidth)
  rw [emitText?_of_ne hshows] at he
  exact ⟨_, mem_layers.mpr ⟨l, hl, he⟩, rfl, hmem, rfl, rfl, hshows,
    rfl, _, rfl⟩

end Emissions

/-! ## Parameters -/

theorem markedBy_payload {text : TextLayer} {literal : String}
    {defined? : Option Variable}
    (h : ∀ v, defined? = some v → Variable.Named v.name.toList) :
    MarkedBy ['$'] (payload text literal defined?).toList := by
  have hescape (s : String) : MarkedBy ['$'] (escape s).toList := by
    rw [toList_escape]
    exact (plain_escapeChars _).markedBy _
  unfold payload
  cases defined? with
  | none =>
      simp only [String.toList_append, markedBy_append]
      exact ⟨⟨hescape _, hescape _⟩, hescape _⟩
  | some v =>
      simp only [String.toList_append, markedBy_append]
      exact ⟨⟨hescape _, markedBy_reference (h v rfl)⟩, hescape _⟩

theorem named_definedFor {t : Template} {bs : Bindings} {key : String}
    {text : TextLayer} {v : Variable} (h : definedFor t bs key text = some v) :
    Variable.Named v.name.toList := by
  unfold definedFor at h
  split at h
  · exact Template.named_variable h
  · cases h

/-- The parameters in front of the last one are plain but for one colon, and
none of them names a font. -/
theorem textParameters_eq (text : TextLayer) (base : Float) (payload : String) :
    ∃ front, textParameters text base payload =
        front ++ ["l_text:" ++ Token.font text.font
          (text.fontSize.resolve base) ++ ":" ++ payload] ∧
      ∀ s ∈ front, MarkedBy [':'] s.toList ∧
        after? "l_text:".toList s.toList = none := by
  refine ⟨_, rfl, ?_⟩
  have hcolor : MarkedBy [':'] ("co_rgb:" ++ text.color.hex).toList ∧
      after? "l_text:".toList ("co_rgb:" ++ text.color.hex).toList = none := by
    rw [String.toList_append, markedBy_append]
    exact ⟨⟨by decide, (plain_hex _).markedBy _⟩, rfl⟩
  intro s hs
  simp only [List.mem_append, List.mem_singleton] at hs
  rcases hs with (hs | rfl) | hs | hs
  · split at hs
    · next width _ =>
        have hwidth : MarkedBy [':'] ("w_" ++ intText (toInt64 width)).toList ∧
            after? "l_text:".toList ("w_" ++ intText (toInt64 width)).toList =
              none := by
          rw [String.toList_append, markedBy_append]
          exact ⟨⟨by decide, (numeric_intText _).plain.markedBy _⟩, rfl⟩
        simp only [List.mem_cons, List.not_mem_nil, or_false] at hs
        rcases hs with rfl | rfl
        · exact ⟨by decide, rfl⟩
        · exact hwidth
    · cases hs
  · exact hcolor
  · split at hs
    · rw [List.mem_singleton.mp hs]
      exact ⟨by decide, rfl⟩
    · cases hs
  · split at hs
    · rw [List.mem_singleton.mp hs]
      exact ⟨by decide, rfl⟩
    · cases hs

theorem toList_intercalate_eq_join {sep : String} {c : Char}
    (h : sep.toList = [c]) (ss : List String) :
    (sep.intercalate ss).toList = join c (ss.map String.toList) := by
  rw [String.toList_intercalate, join_eq_intercalate, h]

section Texts

variable {settings : CompilerSettings} {t : Template} {bs : Bindings}
  {e : Emission} {text : TextLayer}

theorem EmitsText.markedBy_identifier (h : EmitsText settings t bs e text) :
    MarkedBy ['$'] e.identifier.toList := by
  rw [h.identifier]
  exact markedBy_payload fun v hv => named_definedFor hv

theorem EmitsText.markedBy_last (h : EmitsText settings t bs e text)
    (font : String) (hfont : Plain font.toList) :
    MarkedBy ['$', ':'] ("l_text:" ++ font ++ ":" ++ e.identifier).toList := by
  simp only [String.toList_append, markedBy_append]
  exact ⟨⟨⟨by decide, hfont.markedBy _⟩, by decide⟩,
    h.markedBy_identifier.mono (by decide)⟩

theorem EmitsText.split_content (h : EmitsText settings t bs e text) :
    split ',' e.content.toList =
      (textParameters text (baseFontSize t settings) e.identifier).map
        String.toList := by
  obtain ⟨front, heq, hfront⟩ :=
    textParameters_eq text (baseFontSize t settings) e.identifier
  rw [h.content, toList_intercalate_eq_join rfl]
  refine split_join ?_ ?_
  · intro piece hpiece
    obtain ⟨s, hs, rfl⟩ := List.mem_map.mp hpiece
    rw [heq, List.mem_append, List.mem_singleton] at hs
    rcases hs with hs | rfl
    · exact (hfront s hs).1.not_mem (by decide) (by decide)
    · exact (h.markedBy_last _ (plain_font _ _)).not_mem (by decide) (by decide)
  · rw [heq, List.map_append]
    exact List.append_ne_nil_of_right_ne_nil _ (List.cons_ne_nil _ _)

/-- What is shown ends the command, and no dollar sign is in front of it. -/
theorem EmitsText.content_eq (h : EmitsText settings t bs e text) :
    ∃ lead, e.content.toList = lead ++ e.identifier.toList ∧
      MarkedBy [',', ':'] lead := by
  obtain ⟨front, heq, hfront⟩ :=
    textParameters_eq text (baseFontSize t settings) e.identifier
  have hfont :=
    plain_font text.font (text.fontSize.resolve (baseFontSize t settings))
  obtain ⟨lead, hjoin, hlead⟩ := exists_join_snoc ',' (front.map String.toList)
    ("l_text:" ++ Token.font text.font
      (text.fontSize.resolve (baseFontSize t settings)) ++ ":").toList
        e.identifier.toList
  refine ⟨lead, ?_, ?_⟩
  · rw [h.content, toList_intercalate_eq_join rfl, heq, List.map_append,
      List.map_singleton, String.toList_append]
    exact hjoin
  · intro c hc
    rcases hlead c hc with rfl | hc | ⟨piece, hpiece, hc⟩
    · exact Or.inr (by decide)
    · have hmarks : MarkedBy [',', ':'] ("l_text:" ++ Token.font text.font
          (text.fontSize.resolve (baseFontSize t settings)) ++ ":").toList := by
        simp only [String.toList_append, markedBy_append]
        exact ⟨⟨by decide, hfont.markedBy _⟩, by decide⟩
      exact hmarks c hc
    · obtain ⟨s, hs, rfl⟩ := List.mem_map.mp hpiece
      exact (hfront s hs).1.mono (by decide) c hc

theorem EmitsText.markedBy_content (h : EmitsText settings t bs e text) :
    MarkedBy [',', ':', '$'] e.content.toList := by
  obtain ⟨lead, heq, hlead⟩ := h.content_eq
  rw [heq, markedBy_append]
  exact ⟨hlead.mono (by decide), h.markedBy_identifier.mono (by decide)⟩

theorem EmitsText.identifier_of_not_defined (h : EmitsText settings t bs e text)
    (hdefined : definedFor t bs e.key text = none) :
    e.identifier = escape text.lead ++
      escape (bs.resolve e.key text).currentLiteral ++ escape text.trail := by
  rw [h.identifier, hdefined]
  rfl

theorem EmitsText.identifier_of_defined (h : EmitsText settings t bs e text)
    {v : Variable} (hdefined : definedFor t bs e.key text = some v) :
    e.identifier = escape text.lead ++ v.reference ++ escape text.trail := by
  rw [h.identifier, hdefined]
  rfl

theorem EmitsText.not_mem_dollar (h : EmitsText settings t bs e text)
    (hdefined : definedFor t bs e.key text = none) :
    '$' ∉ e.content.toList := by
  obtain ⟨lead, heq, hlead⟩ := h.content_eq
  rw [heq, h.identifier_of_not_defined hdefined]
  simp only [String.toList_append, List.mem_append, not_or, toList_escape]
  exact ⟨hlead.not_mem (by decide) (by decide),
    ⟨(plain_escapeChars _).not_mem (by decide),
      (plain_escapeChars _).not_mem (by decide)⟩,
      (plain_escapeChars _).not_mem (by decide)⟩

/-- The one dollar sign of a text refers to the variable of its field. -/
theorem EmitsText.follows_dollar (h : EmitsText settings t bs e text)
    {v : Variable} (hdefined : definedFor t bs e.key text = some v) :
    Follows '$' (fun post => ∃ trail,
      post = '(' :: 'f' :: (v.name.toList ++ ')' :: trail))
      e.content.toList := by
  have hescape (s : String) : '$' ∉ (escape s).toList := by
    rw [toList_escape]
    exact (plain_escapeChars _).not_mem (by decide)
  have hfree :
      '$' ∉ '(' :: 'f' ::
        (v.name.toList ++ ')' :: (escape text.trail).toList) := by
    simp only [List.mem_cons, List.mem_append, not_or]
    exact ⟨by decide, by decide, (named_definedFor hdefined).not_mem rfl,
      by decide, hescape _⟩
  obtain ⟨lead, heq, hlead⟩ := h.content_eq
  rw [heq, h.identifier_of_defined hdefined]
  simp only [Variable.reference, String.toList_append, String.reduceToList,
    List.append_assoc, List.cons_append, List.nil_append]
  refine (follows_append (hlead.not_mem (by decide) (by decide)) _).mpr ?_
  refine (follows_append (hescape _) _).mpr ?_
  exact follows_cons.mpr ⟨fun _ => ⟨_, rfl⟩, follows_of_not_mem hfree⟩

theorem EmitsText.content_ne_nil (h : EmitsText settings t bs e text) :
    e.content.toList ≠ [] := by
  obtain ⟨lead, heq, -⟩ := h.content_eq
  rw [heq]
  exact List.append_ne_nil_of_right_ne_nil _
    fun hnil => h.shows (String.toList_eq_nil_iff.mp hnil)

theorem EmitsText.textPayload?_content (h : EmitsText settings t bs e text) :
    Fragment.textPayload? e.content.toList = some e.identifier.toList := by
  obtain ⟨front, heq, hfront⟩ :=
    textParameters_eq text (baseFontSize t settings) e.identifier
  have hnone : (front.map String.toList).findSome? (after? "l_text:".toList) =
      none := by
    rw [List.findSome?_eq_none_iff]
    intro piece hpiece
    obtain ⟨s, hs, rfl⟩ := List.mem_map.mp hpiece
    exact (hfront s hs).2
  have hfont := (plain_font text.font
    (text.fontSize.resolve (baseFontSize t settings))).not_mem (c :=
      ':') (by decide)
  have hlast : (after? "l_text:".toList ("l_text:" ++ Token.font text.font
      (text.fontSize.resolve (baseFontSize t settings)) ++ ":" ++
        e.identifier).toList) = some ((Token.font text.font
      (text.fontSize.resolve (baseFontSize t settings))).toList ++
        ':' :: e.identifier.toList) := by
    simp only [String.toList_append, List.append_assoc]
    exact after?_append _ _
  rw [Fragment.textPayload?, h.split_content, heq, List.map_append,
    List.findSome?_append, hnone, Option.none_or, List.map_singleton,
    List.findSome?_singleton, hlast]
  simp only [Option.bind_eq_bind, Option.bind_some, cut?_append_cons hfont]

theorem EmitsText.split_last (h : EmitsText settings t bs e text) :
    (split ',' e.content.toList).getLast?.map (split ':') =
      some ["l_text".toList,
        (Token.font text.font
          (text.fontSize.resolve (baseFontSize t settings))).toList,
        e.identifier.toList] := by
  obtain ⟨front, heq, -⟩ :=
    textParameters_eq text (baseFontSize t settings) e.identifier
  have hfont :=
    plain_font text.font (text.fontSize.resolve (baseFontSize t settings))
  have hid := h.markedBy_identifier.not_mem (c := ':') (by decide) (by decide)
  have hlast : ("l_text:" ++ Token.font text.font
      (text.fontSize.resolve (baseFontSize t settings)) ++ ":" ++
        e.identifier).toList =
      join ':' ["l_text".toList, (Token.font text.font
        (text.fontSize.resolve (baseFontSize t settings))).toList,
        e.identifier.toList] := by
    simp only [String.toList_append, join, String.reduceToList,
      List.append_assoc, List.cons_append, List.nil_append]
  rw [h.split_content, heq, List.map_append, List.map_singleton,
    List.getLast?_concat, Option.map_some, hlast,
    split_join ?_ (List.cons_ne_nil _ _)]
  simp only [List.forall_mem_cons]
  exact ⟨by decide, hfont.not_mem (by decide), hid,
    List.forall_mem_nil _⟩

end Texts

/-! ## Pictures -/

theorem markedBy_imageToken (image : ImageLayer) :
    MarkedBy ['$', ':'] (imageToken image).toList := by
  unfold imageToken
  split
  · exact (markedBy_asset _).mono (by decide)
  · decide

section Images

variable {t : Template} {e : Emission} {image : ImageLayer} {width height : Int}

theorem EmitsImage.split_content (h : EmitsImage t e image width height) :
    split ',' e.content.toList =
      [("l_" ++ e.identifier).toList, "c_fit".toList,
        ("w_" ++ intText width).toList, ("h_" ++ intText height).toList] := by
  have heq : e.content.toList =
      join ',' [("l_" ++ e.identifier).toList, "c_fit".toList,
        ("w_" ++ intText width).toList, ("h_" ++ intText height).toList] := by
    rw [h.content]
    simp only [String.toList_append, List.append_assoc]
    rfl
  have hid :=
    (markedBy_imageToken image).not_mem (c := ',') (by decide) (by decide)
  have hnumber (n : Int) : ',' ∉ (intText n).toList :=
    (numeric_intText n).plain.not_mem (by decide)
  rw [heq]
  refine split_join ?_ (List.cons_ne_nil _ _)
  simp only [List.forall_mem_cons, String.toList_append, List.mem_append,
    not_or]
  exact ⟨⟨by decide, h.identifier ▸ hid⟩, by decide, ⟨by decide, hnumber _⟩,
    ⟨by decide, hnumber _⟩, List.forall_mem_nil _⟩

theorem EmitsImage.markedBy_content (h : EmitsImage t e image width height) :
    MarkedBy [',', ':', '$'] e.content.toList := by
  have hid : MarkedBy [',', ':', '$'] e.identifier.toList :=
    h.identifier ▸ (markedBy_imageToken image).mono (by decide)
  rw [h.content]
  simp only [String.toList_append, markedBy_append]
  exact ⟨⟨⟨⟨⟨by decide, hid⟩, by decide⟩, (numeric_intText _).plain.markedBy _⟩,
    by decide⟩,
    (numeric_intText _).plain.markedBy _⟩

theorem EmitsImage.content_ne_nil (h : EmitsImage t e image width height) :
    e.content.toList ≠ [] := by
  rw [h.content]
  simp only [String.toList_append, List.append_assoc]
  exact List.append_ne_nil_of_left_ne_nil (by decide) _

theorem EmitsImage.imageToken?_content (h : EmitsImage t e image width height) :
    Fragment.imageToken? e.content.toList = some e.identifier.toList := by
  rw [Fragment.imageToken?, h.split_content, List.head?_cons, Option.bind_some,
    String.toList_append]
  exact after?_append ['l', '_'] _

end Images

end Plan

end Placard
