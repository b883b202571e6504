import Placard.Proofs.Template.Writing
import Placard.Proofs.Wire.Likeness

/-!
# What a change of looks touches

Most properties of a layer say how it looks: where it is put, in which colour
and font, how large. Writing one of them leaves alone whatever the content and
the place of a layer depend on. So the variables are defined as before, the same
layers are shown in the same order, and of the commands only one can become
another: the one that the property is written into. The size of the first text
is the exception, since all percentages refer to it.
-/

namespace Placard

/-! ## Where a property shows -/

/-- Whether a property only says how a layer looks: not what its content is, nor
whether and before which others it is drawn. -/
def Property.isLook : Property → Bool
  | .order | .fieldName | .metadataKey | .defaultValue | .lead | .trail | .shown
  | .backgroundColor => false
  | _ => true

/-- The commands that a property of the looks is written into, if any are. -/
def Property.shownIn? : Property → Option SegmentKind
  | .x | .y | .gravity => some .apply
  | .fontSize | .color | .font | .wrap | .wrapWidth | .noOverflow
  | .disallowOverflow =>
    some .textContent
  | .width | .height | .assetId => some .imageContent
  | _ => none

namespace Template

/-- The first text layer has the key, so percentages refer to its size. -/
def BaseText (t : Template) (key : String) : Prop :=
  (t.textLayers.head?).map (·.1) = some key

/-- A text layer has the key, and its size is a percentage. -/
def HasShare (t : Template) (key : String) : Prop :=
  ∃ text share, (key, text) ∈ t.textLayers ∧ text.fontSize = .percent share

/-- Whether a property of the layer under `key` shows in the commands of a kind
for the layer under `other`: in its own, or in those for all percentages of its
size. -/
def ShowsAt (t : Template) (key : String) (p : Property) (other : String)
    (kind : SegmentKind) : Prop :=
  p.shownIn? = some kind ∧
    (other = key ∨ p = .fontSize ∧ t.BaseText key ∧ t.HasShare other)

end Template

/-- The same command, or another one for the same of the layers and kinds
given. -/
inductive Segment.SameBut (shows : String → SegmentKind → Prop) :
    Segment → Segment → Prop
  | same (s : Segment) : SameBut shows s s
  | shows {key : String} {kind : SegmentKind} (tokens tokens' : String)
      (h : shows key kind) :
      SameBut shows ⟨tokens, some key, kind⟩ ⟨tokens', some key, kind⟩

/-- The same layer is shown by the same commands but for the kinds given. -/
structure Emission.SameBut (shows : String → SegmentKind → Prop)
    (e e' : Emission) : Prop where
  key : e'.key = e.key
  kind : e'.kind = e.kind
  content : e'.content = e.content ∨ shows e.key e.kind
  apply : e'.apply = e.apply ∨ shows e.key .apply

theorem Emission.SameBut.refl {shows : String → SegmentKind → Prop}
    (e : Emission) : e.SameBut shows e :=
  ⟨rfl, rfl, Or.inl rfl, Or.inl rfl⟩

theorem Segment.SameBut.of_tokens {shows : String → SegmentKind → Prop}
    {key : String} {kind : SegmentKind} {tokens tokens' : String}
    (h : tokens' = tokens ∨ shows key kind) :
    SameBut shows ⟨tokens, some key, kind⟩ ⟨tokens', some key, kind⟩ := by
  rcases h with rfl | h
  · exact .same _
  · exact .shows _ _ h

theorem Emission.SameBut.segments {shows : String → SegmentKind → Prop}
    {e e' : Emission} (h : e.SameBut shows e') :
    List.Forall₂ (Segment.SameBut shows) e.segments e'.segments := by
  rw [Emission.segments, Emission.segments, h.key, h.kind]
  exact .cons (.of_tokens h.content) (.cons (.of_tokens h.apply) .nil)

/-! ## Writing a property -/

/-- The text after something has been stored at a property of it. -/
def TextLayer.Rewritten (p : Property) (text text' : TextLayer) : Prop :=
  ∃ s x, slot? p = some s ∧ text' = s.put x text

/-- The image after something has been stored at a property of it. -/
def ImageLayer.Rewritten (p : Property) (image image' : ImageLayer) : Prop :=
  ∃ s x, slot? p = some s ∧ image' = s.put x image

/-- The layer, or what it becomes when a property of the layer under `key` is
written. -/
inductive Layer.Rewritten (key : String) (p : Property) : Layer → Layer → Prop
  | kept (l : Layer) : Rewritten key p l l
  | text {text text' : TextLayer} (h : text.Rewritten p text') :
      Rewritten key p ⟨key, .text text⟩ ⟨key, .text text'⟩
  | image {image image' : ImageLayer} (h : image.Rewritten p image') :
      Rewritten key p ⟨key, .image image⟩ ⟨key, .image image'⟩

section Writing

variable {p : Property} {key : String} {v : Value}

theorem Layer.Rewritten.of_set {l : Layer} {body : LayerBody}
    (hl : l.key = key) (h : l.body.set key p v = .ok body) :
    l.Rewritten key p { l with body := body } := by
  obtain ⟨k, b⟩ := l
  obtain rfl : k = key := hl
  rcases LayerBody.set_cases h with ⟨text, text', s, rfl, rfl, hs, hw⟩ |
    ⟨image, image', s, rfl, rfl, hs, hw⟩
  · obtain ⟨x, -, hx⟩ := Slot.exists_put hw
    exact .text ⟨s, x, hs, hx.symm⟩
  · obtain ⟨x, -, hx⟩ := Slot.exists_put hw
    exact .image ⟨s, x, hs, hx.symm⟩

theorem forall₂_replaceBody {l : Layer} {body : LayerBody} {ls : List Layer}
    (hl : findLayer? key ls = some l) (h : l.body.set key p v = .ok body) :
    List.Forall₂ (Layer.Rewritten key p) ls (replaceBody key body ls) := by
  induction ls with
  | nil => exact .nil
  | cons m ls ih =>
      rw [findLayer?] at hl
      rw [replaceBody]
      split at hl
      · next hm =>
          cases hl
          rw [if_pos hm]
          exact .cons (.of_set hm h) (List.forall₂_same.mpr fun l _ => .kept l)
      · next hm =>
          rw [if_neg hm]
          exact .cons (.kept m) (ih hl)

theorem Template.forall₂_of_set {t t' : Template} (h : t.set key p v = .ok t') :
    List.Forall₂ (Layer.Rewritten key p) t.layers t'.layers := by
  rcases set_cases h with ⟨-, s, hs, hw⟩ | ⟨-, l, body, hl, hbody, rfl⟩
  · rw [(of_write_slot hs hw).2]
    exact List.forall₂_same.mpr fun l _ => .kept l
  · exact forall₂_replaceBody hl hbody

end Writing

/-! ## Writing a property of the looks -/

/-- What of a text is not its looks is the same. -/
structure TextLayer.SameContent (text text' : TextLayer) : Prop extends
    TextLayer.SameSource text text' where
  lead : text'.lead = text.lead
  trail : text'.trail = text.trail
  order : text'.order = text.order

namespace TextLayer.Rewritten

variable {p : Property} {text text' : TextLayer}

theorem sameContent (h : text.Rewritten p text') (hp : p.isLook = true) :
    text.SameContent text' := by
  obtain ⟨s, x, hs, rfl⟩ := h
  cases p with
  | order | fieldName | metadataKey | defaultValue | lead | trail => cases hp
  | _ => cases hs <;> exact ⟨⟨⟨rfl, rfl, rfl⟩, rfl⟩, rfl, rfl, rfl⟩

theorem fontSize_eq (h : text.Rewritten p text') (hp : p ≠ .fontSize) :
    text'.fontSize = text.fontSize := by
  obtain ⟨s, x, hs, rfl⟩ := h
  cases p with
  | fontSize => exact absurd rfl hp
  | _ => cases hs <;> rfl

theorem textParameters_eq (h : text.Rewritten p text') (base : Float)
    (payload : String) :
    Plan.textParameters text' base payload =
      Plan.textParameters text base payload ∨
      p.shownIn? = some .textContent := by
  obtain ⟨s, x, hs, rfl⟩ := h
  cases p with
  | fontSize | color | font | wrap | wrapWidth | noOverflow
  | disallowOverflow =>
      exact Or.inr rfl
  | _ => cases hs <;> exact Or.inl rfl

theorem placement_eq (h : text.Rewritten p text') (ratio : Float) :
    Placement.compute text'.x text'.y text'.gravity ratio =
        Placement.compute text.x text.y text.gravity ratio ∨
      p.shownIn? = some .apply := by
  obtain ⟨s, x, hs, rfl⟩ := h
  cases p with
  | x | y | gravity => exact Or.inr rfl
  | _ => cases hs <;> exact Or.inl rfl

end TextLayer.Rewritten

theorem ImageLayer.Rewritten.order_eq {p : Property}
    {image image' : ImageLayer} (h : image.Rewritten p image')
    (hp : p.isLook = true) : image'.order = image.order := by
  obtain ⟨s, x, hs, rfl⟩ := h
  cases p with
  | order => cases hp
  | _ => cases hs <;> rfl

theorem Layer.Rewritten.matches {key : String} {p : Property} {l l' : Layer}
    (h : l.Rewritten key p l') (hp : p.isLook = true) :
    l.Matches TextLayer.SameSource l' := by
  cases h with
  | kept =>
      exact ⟨rfl, rfl, optionRel_same (fun _ => ⟨⟨rfl, rfl, rfl⟩, rfl⟩) _⟩
  | text h =>
      exact ⟨rfl, (h.sameContent hp).order,
        .some (h.sameContent hp).toSameSource⟩
  | image h => exact ⟨rfl, h.order_eq hp, .none⟩

namespace Template

variable {t t' : Template} {key : String} {p : Property} {v : Value}

theorem matches_of_set (h : t.set key p v = .ok t') (hp : p.isLook = true) :
    t.Matches TextLayer.SameSource t' :=
  List.Forall₂.imp (fun _ _ hl => hl.matches hp) (forall₂_of_set h)

theorem background_of_set_look (h : t.set key p v = .ok t')
    (hp : p.isLook = true) : t'.background = t.background := by
  by_cases hkey : key = canvasKey
  · subst hkey
    rcases (set_canvas_cases h).2 with ⟨rfl, -⟩ | ⟨-, hcolor⟩
    · cases hp
    · exact hcolor
  · exact background_of_set h hkey

/-- The base size is another one only if the size of the first text is
written. -/
theorem baseFontSize?_of_set (h : t.set key p v = .ok t') :
    t'.baseFontSize? = t.baseFontSize? ∨ p = .fontSize ∧ t.BaseText key := by
  have htexts : List.Forall₂
      (fun e e' => e' = e ∨ e.1 = key ∧ TextLayer.Rewritten p e.2 e'.2)
      t.textLayers t'.textLayers := by
    refine List.rel_filterMap (fun l l' hl => ?_) (forall₂_of_set h)
    cases hl with
    | kept =>
        refine optionRel_same ?_ _
        exact fun _ => Or.inl rfl
    | text h => exact .some (Or.inr ⟨rfl, h⟩)
    | image h => exact .none
  rw [baseFontSize?, baseFontSize?, BaseText]
  revert htexts
  generalize t.textLayers = es, t'.textLayers = es'
  rintro (_ | ⟨rfl | ⟨hkey, htext⟩, -⟩)
  · exact Or.inl rfl
  · exact Or.inl rfl
  · by_cases hp : p = .fontSize
    · exact Or.inr ⟨hp, congrArg some hkey⟩
    · exact Or.inl (by simp only [htext.fontSize_eq hp])

end Template

/-! ## What is emitted -/

namespace Plan

theorem textParameters_of_base {text : TextLayer} (base base' : Float)
    (payload : String) :
    textParameters text base' payload = textParameters text base payload ∨
      ∃ share, text.fontSize = .percent share := by
  cases hsize : text.fontSize with
  | px size =>
      exact Or.inl (by simp only [textParameters, hsize, FontSize.resolve])
  | percent share => exact Or.inr ⟨share, rfl⟩

open Template

variable {t t' : Template} {key : String} {p : Property}
  {shows : String → SegmentKind → Prop}

theorem emitText?_sameBut {k literal : String} {defined? : Option Variable}
    {text text' : TextLayer} {base base' ratio : Float}
    (hlead : text'.lead = text.lead) (htrail : text'.trail = text.trail)
    (hcontent : ∀ payload,
      textParameters text' base' payload =
        textParameters text base payload ∨ shows k .textContent)
    (hplace : Placement.compute text'.x text'.y text'.gravity ratio =
      Placement.compute text.x text.y text.gravity ratio ∨ shows k .apply) :
    Option.Rel (Emission.SameBut shows)
      (emitText? k text literal defined? base ratio)
      (emitText? k text' literal defined? base' ratio) := by
  have hpayload :
      payload text' literal defined? = payload text literal defined? := by
    simp only [payload, hlead, htrail]
  simp only [emitText?, hpayload]
  split
  · exact .none
  · exact .some {
      key := rfl
      kind := rfl
      content := (hcontent _).imp_left (congrArg (",".intercalate ·))
      apply := hplace.imp_left (congrArg Placement.command) }

theorem emitImage?_rewritten {image image' : ImageLayer}
    (h : image.Rewritten p image') (hp : p.isLook = true) (ratio : Float) :
    Option.Rel (Emission.SameBut (t.ShowsAt key p)) (emitImage? key image ratio)
      (emitImage? key image' ratio) := by
  obtain ⟨s, x, hs, rfl⟩ := h
  unfold emitImage?
  cases p with
  | order | shown => cases hp
  | x | y | gravity =>
      cases hs
      split
      · exact .none
      · exact .some ⟨rfl, rfl, Or.inl rfl, Or.inr ⟨rfl, Or.inl rfl⟩⟩
  | width | height | assetId =>
      cases hs
      split
      · exact .none
      · exact .some ⟨rfl, rfl, Or.inr ⟨rfl, Or.inl rfl⟩, Or.inl rfl⟩
  | displayName | isMainSubject =>
      cases hs
      split
      · exact .none
      · exact .some ⟨rfl, rfl, Or.inl rfl, Or.inl rfl⟩
  | _ => cases hs

theorem emit?_rewritten {l l' : Layer} {bs : Bindings} {defined : List String}
    {base base' ratio : Float} (h : l.Rewritten key p l') (hp : p.isLook = true)
    (hmem : l ∈ t.layers) (hvars : t'.variables = t.variables)
    (hbase : base' = base ∨ p = .fontSize ∧ t.BaseText key) :
    Option.Rel (Emission.SameBut (t.ShowsAt key p))
      (emit? t bs defined base ratio l)
      (emit? t' bs defined base' ratio l') := by
  cases h with
  | kept =>
      obtain ⟨k, body⟩ := l
      cases body with
      | image image => exact optionRel_same .refl _
      | text text =>
          simp only [emit?, hvars]
          refine emitText?_sameBut rfl rfl (fun payload => ?_) (Or.inl rfl)
          rcases hbase with rfl | ⟨rfl, hkey⟩
          · exact Or.inl rfl
          · refine (textParameters_of_base base base' payload).imp_right ?_
            rintro ⟨share, hshare⟩
            exact ⟨rfl, Or.inr ⟨rfl, hkey, text, share,
              mem_textLayers.mpr ⟨_, hmem, rfl, rfl⟩, hshare⟩⟩
  | @text text text' h =>
      have hcontent := h.sameContent hp
      simp only [emit?, hvars, hcontent.field_eq, hcontent.resolve_eq]
      refine emitText?_sameBut hcontent.lead hcontent.trail
        (fun payload => ?_) ?_
      · rcases hbase with rfl | ⟨rfl, -⟩
        · exact (h.textParameters_eq base' payload).imp_right fun hp =>
            ⟨hp, Or.inl rfl⟩
        · exact Or.inr ⟨rfl, Or.inl rfl⟩
      · exact (h.placement_eq ratio).imp_right fun hp => ⟨hp, Or.inl rfl⟩
  | image h => exact emitImage?_rewritten h hp ratio

/-! ## The whole -/

/-- Writing a property of the looks of a layer changes no more than what it
shows in: as many commands are compiled as before, and each is the same or
another one for a layer and of a kind that the property shows at. -/
theorem compile_set_look {v : Value} (hp : p.isLook = true)
    (h : t.set key p v = .ok t') (settings : CompilerSettings) (bs : Bindings)
    (canvas : Size) (asset : String) :
    List.Forall₂ (Segment.SameBut (t.ShowsAt key p))
      (compile settings t bs canvas asset).segments
      (compile settings t' bs canvas asset).segments := by
  have hmatches := matches_of_set h hp
  have hdefinitions :=
    hmatches.sameOrigin.definitions_eq (hmatches.sameField.sameContent bs)
  have hvars := hmatches.sameField.sameName.variables_eq
  have hbase : baseFontSize t' settings = baseFontSize t settings ∨
      p = .fontSize ∧ t.BaseText key :=
    (baseFontSize?_of_set h).imp_left
      (congrArg (Option.getD · settings.defaultBaseFontSize))
  have hdrawn : List.Forall₂ (fun l l' => l ∈ t.layers ∧ l.Rewritten key p l')
      t.drawOrder t'.drawOrder := by
    refine forall₂_drawOrder
      ((List.forall₂_and_left _ _).mpr ⟨fun _ => id, forall₂_of_set h⟩) ?_
    exact fun l l' hl => (hl.2.matches hp).order
  have hbindings : (compile settings t' bs canvas asset).bindings =
      (compile settings t bs canvas asset).bindings := by
    simp only [compile, hdefinitions]
  have hcanvas : (compile settings t' bs canvas asset).canvas =
      (compile settings t bs canvas asset).canvas := by
    simp only [compile, background_of_set_look h hp]
  have hlayers : List.Forall₂ (Emission.SameBut (t.ShowsAt key p))
      (compile settings t bs canvas asset).layers
      (compile settings t' bs canvas asset).layers := by
    simp only [compile, hdefinitions]
    refine List.rel_filterMap (fun l l' hl => ?_) hdrawn
    exact emit?_rewritten hl.2 hp hl.1 hvars hbase
  rw [segments, segments, hbindings, hcanvas]
  have hshown := List.rel_flatMap hlayers fun _ _ he => he.segments
  exact .cons (.same _)
    (List.rel_append (List.forall₂_same.mpr fun s _ => .same s)
      (.cons (.same _) hshown))

/-- A title of a size, and a caption at half of it. -/
def captioned (size : FontSize) : Template :=
  { Template.ofCanvas "banner" 1200 628 with
    layers := [
      ⟨"title", .text { TextLayer.ofField "Title" size with
        defaultValue := "Sale" }⟩,
      ⟨"caption", .text { TextLayer.ofField "Caption" (.percent 50) with
        defaultValue := "today" }⟩] }

/-- A larger title shows in the caption as well. -/
theorem compile_set_look_captioned :
    Property.fontSize.isLook = true ∧
      (captioned (.px 40)).set "title" .fontSize (.number 60) =
        .ok (captioned (.px 60)) ∧
      (captioned (.px 40)).ShowsAt "title" .fontSize "caption" .textContent ∧
      List.Forall₂ (Segment.SameBut
        ((captioned (.px 40)).ShowsAt "title" .fontSize))
        (compile ⟨1080, 48⟩ (captioned (.px 40)) Table.empty ⟨1080, 1080⟩
          "shop/shoe").segments
        (compile ⟨1080, 48⟩ (captioned (.px 60)) Table.empty ⟨1080, 1080⟩
          "shop/shoe").segments := by
  have hset : (captioned (.px 40)).set "title" .fontSize (.number 60) =
      .ok (captioned (.px 60)) := rfl
  have hcaption : (captioned (.px 40)).HasShare "caption" :=
    ⟨_, 50, List.mem_cons_of_mem _ (List.mem_singleton_self _), rfl⟩
  exact ⟨rfl, hset, ⟨rfl, Or.inr ⟨rfl, rfl, hcaption⟩⟩,
    compile_set_look rfl hset _ _ _ _⟩

end Plan

end Placard
