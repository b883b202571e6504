import Placard.Overlay
import Placard.Proofs.Session.Background
import Placard.Proofs.Wire.Arrangement
import Placard.Proofs.Wire.Forms
import Placard.Proofs.Wire.Meaning

/-!
# Overlays lie over what is rendered

Whether a layer shows anything is decided twice: for the plan by what stands in
its command, and for the overlays by its preview. A text without a calculation
is left out of a plan if it is empty with its literal and its field has no
variable, and it has no overlay if its preview is known and empty. The field has
a variable just if it is looked up, and the preview is unknown just if the layer
is. That these are the same takes that the content of the field is given and not
left to the layers, which could say different things of it. Fields that start
from a template are given, and remain so when they are edited one by one.
-/

namespace Placard

open Text Decimal

/-! ## A placement is known from its command -/

theorem Gravity.token_injective {g g' : Gravity} (h : g.token = g'.token) :
    g = g' := by
  have hfind (g : Gravity) :
      all.find? (fun g' => g'.token == g.token) = some g := by
    cases g <;> rfl
  exact Option.some.inj ((hfind g).symm.trans (h ▸ hfind g'))

theorem Decimal.toList_intText (n : Int) :
    (intText n).toList = if n < 0 then '-' :: natChars n.natAbs else
      natChars n.natAbs := by
  unfold intText
  split
  · simp only [String.toList_append, String.reduceToList, String.toList_ofList,
      List.singleton_append]
  · rw [String.toList_ofList]

theorem Decimal.intText_injective {m n : Int} (h : intText m = intText n) :
    m = n := by
  have hminus (k : Nat) (cs : List Char) : natChars k ≠ '-' :: cs := by
    intro hk
    have := Variable.named_natChars k '-' (hk ▸ List.mem_cons_self)
    revert this
    decide
  have hlist := congrArg String.toList h
  rw [toList_intText, toList_intText] at hlist
  split at hlist <;> split at hlist
  · have := Variable.natChars_injective (List.cons.inj hlist).2
    omega
  · exact absurd hlist.symm (hminus _ _)
  · exact absurd hlist (hminus _ _)
  · have := Variable.natChars_injective hlist
    omega

theorem Placement.command_injective {p q : Placement}
    (h : p.command = q.command) : p = q := by
  have hsplit := Fragment.split_placement p
  rw [h, Fragment.split_placement q] at hsplit
  simp only [List.cons.injEq, String.toList_inj, String.append_right_inj,
    true_and, and_true] at hsplit
  obtain ⟨hgravity, hx, hy⟩ := hsplit
  obtain ⟨gravity, x, y⟩ := p
  obtain ⟨gravity', x', y'⟩ := q
  cases Gravity.token_injective hgravity
  cases intText_injective hx
  cases intText_injective hy
  rfl

/-- The corner of a box on a canvas. Along each side of the canvas the gravity
puts it at the start, in the middle or at the end. From either end the offset
moves it inwards, and from the middle to the right or down. -/
structure Placement.Puts (p : Placement) (canvas : Size)
    (width height left top : Float) : Prop where
  west : p.gravity ∈ [.northWest, .west, .southWest] → left = Float.ofInt p.x
  middle : p.gravity ∈ [.north, .center, .south] →
    left = (Float.ofNat canvas.width.toNat - width) / 2.0 + Float.ofInt p.x
  east : p.gravity ∈ [.northEast, .east, .southEast] →
    left = Float.ofNat canvas.width.toNat - width - Float.ofInt p.x
  north : p.gravity ∈ [.northWest, .north, .northEast] → top = Float.ofInt p.y
  centre : p.gravity ∈ [.west, .center, .east] →
    top = (Float.ofNat canvas.height.toNat - height) / 2.0 + Float.ofInt p.y
  south : p.gravity ∈ [.southWest, .south, .southEast] →
    top = Float.ofNat canvas.height.toNat - height - Float.ofInt p.y

theorem Placement.puts (p : Placement) (canvas : Size) (width height : Float) :
    p.Puts canvas width height (p.left canvas width) (p.top canvas height) := by
  obtain ⟨gravity, x, y⟩ := p
  -- A gravity is one of three on each side of the canvas.
  constructor
  all_goals
    intro h
    simp only [List.mem_cons, List.not_mem_nil, or_false] at h
    rcases h with rfl | rfl | rfl <;> rfl

/-! ## What is shown, and what is looked up -/

namespace Template

/-- No text is calculated from another one. -/
def NoCalculations (t : Template) : Prop :=
  ∀ e ∈ t.textLayers, e.2.calculation = none

instance (t : Template) : Decidable t.NoCalculations :=
  inferInstanceAs (Decidable (∀ e ∈ t.textLayers, e.2.calculation = none))

end Template

/-- Every text layer has a field whose content is given. -/
def Bindings.Given (t : Template) (bs : Bindings) : Prop :=
  ∀ e ∈ t.textLayers, (bs.get? (e.2.field e.1)).isSome = true

section Shown

variable {t : Template} {bs : Bindings} {key : String} {text : TextLayer}

theorem Template.NoCalculations.not_kept (h : t.NoCalculations) (key : String) :
    (t.keptDerivations bs).get? key = none := by
  refine Option.eq_none_iff_forall_not_mem.mpr fun d hd => ?_
  obtain ⟨text, c, _, _, _, _, hder, rfl⟩ := derives_of_kept hd
  have hnone := h (key, text) hder.declared
  rw [hder.calculates] at hnone
  cases hnone

/-- Nothing is derived, so no variable is needed for what is not looked up. -/
theorem Template.NoCalculations.looksUp (h : t.NoCalculations)
    (hd : t.DistinctKeys) {b : Block} (hb : Plan.IsBlock t bs b) :
    (bs.resolve b.layer b.text).looksUp = true := by
  cases hb.form hd with
  | derived hkept =>
      rw [h.not_kept] at hkept
      cases hkept
  | lookedUp _ hlooks => exact hlooks
  | assigned hkept hlooks =>
      have hsource :
          b.layer ∉ (t.keptDerivations bs).values.map Derivation.source := by
        intro hmem
        obtain ⟨d, hd, -⟩ := List.mem_map.mp hmem
        obtain ⟨key, hget⟩ := Table.exists_get?_of_mem_values hd
        rw [h.not_kept] at hget
        cases hget
      have htarget := hb.targeted
      rw [hb.expressed, Plan.expressionOf_of_not_kept hkept,
        Expression.ofBinding, hlooks, decide_eq_false hsource] at htarget
      cases htarget

theorem Bindings.Given.resolve_eq (h : bs.Given t) {key' : String}
    {text' : TextLayer} (hmem : (key, text) ∈ t.textLayers)
    (hfield : text'.field key' = text.field key) :
    bs.resolve key' text' = bs.resolve key text := by
  obtain ⟨b, hb⟩ := Option.isSome_iff_exists.mp (h _ hmem)
  rw [resolve, resolve, hfield, hb]
  rfl

/-- A field has a variable just if it is looked up. -/
theorem Plan.definedFor_eq_none_iff (hd : t.DistinctKeys)
    (hplain : t.NoCalculations) (hgiven : bs.Given t)
    (hmem : (key, text) ∈ t.textLayers) :
    definedFor t bs key text = none ↔
      (bs.resolve key text).looksUp = false := by
  obtain ⟨blocks, hdefs, hwell, hcomplete⟩ := exists_blocks hd bs
  constructor
  · intro hnone
    exact (not_kept_of_not_defined hdefs hwell hcomplete hmem hnone).2
  · intro hlooks
    refine Option.eq_none_iff_forall_not_mem.mpr fun v hv => ?_
    obtain ⟨b, hb, hfield, -⟩ := (definedFor_eq_some_iff hdefs hwell).mp hv
    have := hplain.looksUp hd (hwell.isBlock b hb)
    rw [hgiven.resolve_eq hmem hfield, hlooks] at this
    cases this

theorem Plan.payload_none_eq_empty_iff (literal : String) :
    payload text literal none = "" ↔
      text.lead ++ literal ++ text.trail = "" := by
  have hescape (s : String) : escape s = "" ↔ s = "" := by
    rw [← String.toList_inj, toList_escape, ← String.toList_inj]
    exact ⟨fun h => escapeChars_injective h, fun h => congrArg escapeChars h⟩
  simp only [payload, String.append_eq_empty_iff, hescape]

/-- The preview of a text is all that it shows, unless that is looked up. -/
theorem Bindings.previewText?_of_not_calculated
    (htext : t.textLayer? key = some text) (hplain : text.calculation = none) :
    bs.previewText? t key =
      if (bs.resolve key text).looksUp then none
      else
        some (text.lead ++ (bs.resolve key text).currentLiteral ++
          text.trail) := by
  have hvalue :
      bs.previewValue? t previewDepth key = literal? (bs.resolve key text) := by
    rw [previewDepth, previewValue?, htext]
    simp only [usableCalculation?, hplain, Option.bind_eq_bind,
      Option.bind_some, Option.bind_none]
  rw [previewText?, htext, Option.bind_eq_bind, Option.bind_some, hvalue,
    literal?]
  split <;> rfl

end Shown

namespace Overlay

section Boxes

variable {g : GeometrySettings} {t : Template} {bs : Bindings}
  {base ratio : Float} {canvas : Size} {v : Viewport} {l : Layer}

/-- The width and height of what a layer shows, if it shows anything. -/
def box? (g : GeometrySettings) (t : Template) (bs : Bindings)
    (base ratio : Float) (l : Layer) : Option (Float × Float) :=
  match l.body with
  | .text text =>
    textBox? g text (text.fontSize.resolve base) (bs.previewText? t l.key)
  | .image image =>
    if !image.shown then none
    else
      some (Float.ofInt (scaled image.width ratio),
        Float.ofInt (scaled image.height ratio))

theorem project?_eq :
    project? g t bs base ratio canvas v l =
      (box? g t bs base ratio l).map fun (width, height) =>
        ⟨l.key, v.place (l.placement ratio) canvas width height⟩ := by
  obtain ⟨key, body⟩ := l
  cases body with
  | text text =>
      rw [project?, box?]
      dsimp only
      cases textBox? g text (text.fontSize.resolve base)
        (bs.previewText? t key) <;> rfl
  | image image =>
      rw [project?, box?]
      dsimp only
      split <;> rfl

theorem isSome_textBox? (g : GeometrySettings) (text : TextLayer) (size : Float)
    (content? : Option String) :
    (textBox? g text size content?).isSome = decide (content? ≠ some "") := by
  cases content? with
  | none => rfl
  | some content =>
      rw [textBox?]
      dsimp only
      split
      · next hempty =>
          rw [String.isEmpty_iff.mp hempty]
          rfl
      · next hne =>
          have hne' : some content ≠ some "" :=
            fun h => hne (String.isEmpty_iff.mpr (Option.some.inj h))
          rw [decide_eq_true hne']
          rfl

/-- A layer has an overlay just if it is in the plan. -/
theorem isSome_box? (hd : t.DistinctKeys) (hplain : t.NoCalculations)
    (hgiven : bs.Given t) (hl : l ∈ t.layers) :
    (box? g t bs base ratio l).isSome = Plan.shows t bs l := by
  obtain ⟨key, body⟩ := l
  cases body with
  | text text =>
      have hmem : (key, text) ∈ t.textLayers :=
        Template.mem_textLayers.mpr ⟨_, hl, rfl, rfl⟩
      have hiff := Plan.definedFor_eq_none_iff hd hplain hgiven hmem
      rw [box?, Plan.shows]
      dsimp only
      rw [isSome_textBox?, Bindings.previewText?_of_not_calculated
        (Template.textLayer?_of_mem hd hmem) (hplain _ hmem)]
      cases hlooks : (bs.resolve key text).looksUp with
      | true =>
          obtain ⟨w, hw⟩ := Option.ne_none_iff_exists'.mp
            fun hnone => Bool.eq_false_iff.mp (hiff.mp hnone) hlooks
          rw [hw, decide_eq_true (Plan.payload_ne_empty text _ w)]
          rfl
      | false =>
          rw [hiff.mpr hlooks, if_neg Bool.false_ne_true]
          simp only [ne_eq, Option.some.injEq, Plan.payload_none_eq_empty_iff]
  | image image =>
      rw [box?, Plan.shows]
      dsimp only
      cases image.shown <;> rfl

end Boxes

/-! ## Overlays and commands in turn -/

/-- The rectangle is that of a box of the canvas on the screen: drawn at the
scale of the viewport, and moved by its offset. -/
structure Draws (o : Overlay) (v : Viewport) (left top width height : Float) :
    Prop where
  left : o.rect.left = v.offsetX + left * v.scale
  top : o.rect.top = v.offsetY + top * v.scale
  width : o.rect.width = width * v.scale
  height : o.rect.height = height * v.scale

/-- The overlay of a layer is its box, where the layer is put. -/
structure Covers (g : GeometrySettings) (t : Template) (bs : Bindings)
    (base ratio : Float) (canvas : Size) (v : Viewport) (l : Layer)
    (o : Overlay) : Prop where
  key : o.layerKey = l.key
  placed : ∃ width height, box? g t bs base ratio l = some (width, height) ∧
    o.Draws v ((l.placement ratio).left canvas width)
      ((l.placement ratio).top canvas height) width height

/-- The overlay is for the layer of the commands: it is the box of that layer as
it is drawn on the screen, with the corner where the one placement puts it that
prints as the command which applies the layer. -/
structure LiesOver (g : GeometrySettings) (settings : CompilerSettings)
    (t : Template) (bs : Bindings) (canvas : Size) (v : Viewport)
    (o : Overlay) (e : Emission) : Prop where
  key : o.layerKey = e.key
  placed : ∃ l ∈ t.layers, l.key = e.key ∧ ∃ width height,
    box? g t bs (Plan.baseFontSize t settings)
      (scaleRatio canvas settings.baseWidth) l = some (width, height) ∧
      ∃ p : Placement, (∀ q : Placement, q.command = e.apply ↔ q = p) ∧
        p.Puts canvas width height (p.left canvas width) (p.top canvas height) ∧
        o.Draws v (p.left canvas width) (p.top canvas height) width height

theorem Covers.liesOver {g : GeometrySettings} {settings : CompilerSettings}
    {t : Template} {bs : Bindings} {canvas : Size} {v : Viewport} {l : Layer}
    {o : Overlay} {e : Emission}
    (h : Covers g t bs (Plan.baseFontSize t settings)
      (scaleRatio canvas settings.baseWidth) canvas v l o) (hl : l ∈ t.layers)
    (hrenders : Plan.Renders (scaleRatio canvas settings.baseWidth) l e) :
    LiesOver g settings t bs canvas v o e where
  key := h.key.trans hrenders.key.symm
  placed := by
    obtain ⟨width, height, hbox, hdraws⟩ := h.placed
    refine ⟨l, hl, hrenders.key.symm, width, height, hbox, _, fun q => ?_,
      Placement.puts _ canvas width height, hdraws⟩
    rw [hrenders.apply]
    exact ⟨Placement.command_injective, congrArg Placement.command⟩

/-- What two lists each match one by one is in between them. -/
theorem forall₂_of_common {α β γ : Type} {R : α → β → Prop} {S : α → γ → Prop}
    {as : List α} {bs : List β} {cs : List γ} (h : List.Forall₂ R as bs)
    (h' : List.Forall₂ S as cs) :
    List.Forall₂ (fun b c => ∃ a ∈ as, R a b ∧ S a c) bs cs := by
  induction h generalizing cs with
  | nil =>
      cases h'
      exact .nil
  | cons hab _ ih =>
      cases h' with
      | cons hac h' =>
          refine .cons ⟨_, List.mem_cons_self, hab, hac⟩ ((ih h').imp ?_)
          rintro b c ⟨a, ha, hrel⟩
          exact ⟨a, List.mem_cons_of_mem _ ha, hrel⟩

section Projected

variable {t : Template} {bs : Bindings} (g : GeometrySettings)
  (settings : CompilerSettings) (canvas : Size) (v : Viewport)

theorem projectAll_self (t : Template) (bs : Bindings) :
    projectAll g settings t bs canvas canvas v =
      t.drawOrder.filterMap (project? g t bs (Plan.baseFontSize t settings)
        (scaleRatio canvas settings.baseWidth) canvas v) :=
  if_neg (not_not.mpr rfl)

/-- The layers in the plan have overlays, in the order in which they are
drawn. -/
theorem forall₂_projectAll (hd : t.DistinctKeys) (hplain : t.NoCalculations)
    (hgiven : bs.Given t) :
    List.Forall₂
      (Covers g t bs (Plan.baseFontSize t settings)
        (scaleRatio canvas settings.baseWidth) canvas v)
      (t.drawOrder.filter (Plan.shows t bs))
        (projectAll g settings t bs canvas canvas v) := by
  have hbox {l : Layer} (hl : l ∈ t.drawOrder) :=
    @isSome_box? g t bs (Plan.baseFontSize t settings)
      (scaleRatio canvas settings.baseWidth) l
      hd hplain hgiven (Template.mem_drawOrder.mp hl)
  rw [projectAll_self]
  refine forall₂_filter_filterMap (fun l hl hshows => ?_) fun l hl hshows => ?_
  · rw [← hbox hl] at hshows
    obtain ⟨⟨width, height⟩, hsize⟩ := Option.isSome_iff_exists.mp hshows
    rw [project?_eq, hsize]
    exact ⟨_, rfl, rfl, width, height, hsize, rfl, rfl, rfl, rfl⟩
  · rw [← hbox hl, Option.isSome_eq_false_iff, Option.isNone_iff_eq_none]
      at hshows
    rw [project?_eq, hshows, Option.map_none]

theorem forall₂_liesOver (hd : t.DistinctKeys) (hplain : t.NoCalculations)
    (hgiven : bs.Given t) (asset : String) :
    List.Forall₂ (LiesOver g settings t bs canvas v)
      (projectAll g settings t bs canvas canvas v)
      (Plan.compile settings t bs canvas asset).layers := by
  refine (forall₂_of_common
    (forall₂_projectAll g settings canvas v hd hplain hgiven)
    (Plan.forall₂_layers settings t bs canvas asset)).imp ?_
  rintro o e ⟨l, hl, hcovers, hrenders⟩
  exact hcovers.liesOver (Template.mem_drawOrder.mp (List.mem_of_mem_filter hl))
    hrenders

end Projected

end Overlay

/-- The fields that a template starts with are given, and remain so when they
are edited one by one. -/
theorem Bindings.given_run {t : Template} {edits : List FieldEdit}
    (hedits : ∀ e ∈ edits, e.field?.isSome = true) :
    ((Bindings.ofCatalog (.ofTemplate t)).run edits).Given t := by
  rintro ⟨key, text⟩ hmem
  obtain ⟨b, hb⟩ := Template.exists_seed hmem
  refine isSome_run ?_ fun c hc => ?_
  · rw [Template.get?_seeded, hb]
    rfl
  · cases hedits _ hc

namespace Overlay

/-- In a template without calculations, whose fields start from what it says of
them and have been edited one by one since, the overlays are those of the layers
in the plan, in the same order, and lie where the plan puts these. -/
theorem projectAll_run_liesOver {t : Template} (hd : t.DistinctKeys)
    (hplain : t.NoCalculations) {edits : List FieldEdit}
    (hedits : ∀ e ∈ edits, e.field?.isSome = true) (g : GeometrySettings)
    (settings : CompilerSettings) (canvas : Size) (v : Viewport)
    (asset : String) :
    let bs := (Bindings.ofCatalog (.ofTemplate t)).run edits
    let overlays := projectAll g settings t bs canvas canvas v
    let plan := Plan.compile settings t bs canvas asset
    overlays.map Overlay.layerKey = plan.layers.map Emission.key ∧
      List.Forall₂ (LiesOver g settings t bs canvas v) overlays
        plan.layers := by
  intro bs overlays plan
  have h :
      List.Forall₂ (LiesOver g settings t bs canvas v) overlays plan.layers :=
    forall₂_liesOver g settings canvas v hd hplain
      (Bindings.given_run hedits) asset
  exact ⟨(map_eq_of_forall₂ h fun _ _ hlies => hlies.key.symm).symm, h⟩

/-- A price that two layers show, a note without content, a badge and a
picture. -/
def tagged : Template :=
  { Template.ofCanvas "tag" 1080 1080 with
    layers := [
      ⟨"price", .text { TextLayer.ofField "Price" (.px 48) with
        defaultValue := "10" }⟩,
      ⟨"again", .text { TextLayer.ofField "Price" (.px 24) with
        gravity := .southEast }⟩,
      ⟨"note", .text (TextLayer.ofField "Note" (.px 24))⟩,
      ⟨"badge", .text { TextLayer.ofField "Badge" (.px 24) with
        defaultValue := "new" }⟩,
      ⟨"logo", .image (ImageLayer.ofSize 64 64)⟩] }

/-- The note is looked up, the badge is emptied, and the price is bound and
released. -/
def retagging : List FieldEdit :=
  [.bind "Note" "shop/note", .setLiteral "Badge" "", .bind "Price" "shop/price",
    .setLiteral "Price" "n/a", .release "Price" (.ofTemplate tagged)]

theorem projectAll_retagging_liesOver :
    tagged.DistinctKeys ∧ tagged.NoCalculations ∧
      (∀ e ∈ retagging, e.field?.isSome = true) ∧
      let bs := (Bindings.ofCatalog (.ofTemplate tagged)).run retagging
      let overlays :=
        projectAll ⟨0.6, 1.2, 100, 40⟩ ⟨1080, 48⟩ tagged bs ⟨540, 540⟩
          ⟨540, 540⟩ ⟨0.5, 8, 8⟩
      overlays.map Overlay.layerKey = ["price", "again", "note", "logo"] ∧
        List.Forall₂ (LiesOver ⟨0.6, 1.2, 100, 40⟩ ⟨1080, 48⟩ tagged bs
          ⟨540, 540⟩ ⟨0.5, 8, 8⟩)
          overlays (Plan.compile ⟨1080, 48⟩ tagged bs ⟨540, 540⟩
            "shop/shoe").layers := by
  have hd : tagged.DistinctKeys := by decide
  have hplain : tagged.NoCalculations := by decide
  have hedits : ∀ e ∈ retagging, e.field?.isSome = true := by decide
  have hdrawn : tagged.drawOrder = tagged.layers :=
    List.mergeSort_of_pairwise (by decide)
  obtain ⟨hkeys, hlies⟩ :=
    projectAll_run_liesOver hd hplain hedits ⟨0.6, 1.2, 100, 40⟩
      ⟨1080, 48⟩ ⟨540, 540⟩ ⟨0.5, 8, 8⟩ "shop/shoe"
  refine ⟨hd, hplain, hedits, hkeys.trans ?_, hlies⟩
  rw [Plan.keys_layers, hdrawn]
  decide +kernel

end Overlay

end Placard
