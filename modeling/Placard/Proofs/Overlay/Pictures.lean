import Placard.Proofs.Decimal.Rounded
import Placard.Proofs.Overlay.Boxes
import Placard.Proofs.Template.Validity

/-!
# The size of a picture on the screen

A picture is scaled twice, for its command and for its overlay. Both round a
side to whole pixels, and the plan then asks for one pixel at least. So they
agree on every side that does not come to nothing, and the overlay of one that
does has no width or no height. An overlay holds its sides as doubles. Up to the
largest integer of 64 bits, which stands for all that are larger, these are the
integers of the command without loss.
-/

namespace Placard

open Decimal

/-! ## Sides in pixels -/

theorem unsigned_scaleRatio (canvas : Size) (baseWidth : UInt32) :
    Unsigned (scaleRatio canvas baseWidth).toModel.unpack := by
  have hside (n : UInt32) : Unsigned (Float.ofNat n.toNat).toModel.unpack :=
    unsigned_ofNat (n.toNat_lt.trans (by decide))
  unfold scaleRatio
  split
  · rfl
  · exact ((hside _).div (hside _)).pack

theorem scaled_nonneg {side ratio : Float} (hside : 0 < side)
    (hratio : Unsigned ratio.toModel.unpack) : 0 ≤ scaled side ratio :=
  toInt64_nonneg ((unsigned_of_pos hside).mul hratio).pack

/-- The side of a picture is as many pixels on the screen as in its command,
unless it is less than half of one. -/
structure SameSide (side ratio : Float) (rendered : Int) (drawn : Float) :
    Prop where
  same : scaled side ratio ≠ 0 → drawn = Float.ofInt rendered
  exact : scaled side ratio ≠ 0 → rendered < Int64.maxValue.toInt →
    isWhole drawn = true ∧ nearestInt drawn = rendered
  vanished : scaled side ratio = 0 → rendered = 1 ∧ drawn = 0

theorem sameSide {side ratio : Float} (h : 0 ≤ scaled side ratio) :
    SameSide side ratio (Plan.imageSide side ratio)
      (Float.ofInt (scaled side ratio)) := by
  have hside (hne : scaled side ratio ≠ 0) :
      Plan.imageSide side ratio = scaled side ratio := by
    unfold Plan.imageSide
    omega
  refine ⟨fun hne => ?_, fun hne hmax => ?_, fun hzero => ?_⟩
  · rw [hside hne]
  · rw [hside hne] at hmax ⊢
    exact exact_ofInt_toInt64 (show 0 < scaled side ratio by omega) hmax
  · rw [Plan.imageSide, hzero]
    exact ⟨rfl, rfl⟩

/-! ## The overlay and the commands of a picture -/

/-- Of what the layers of a template give, one belongs to each layer that gives
anything. -/
theorem Template.mem_filterMap_drawOrder_iff {β : Type} {t : Template}
    (hd : t.DistinctKeys) {f : Layer → Option β} {key : β → String}
    (hkey : ∀ l b, f l = some b → key b = l.key) {l : Layer}
    (hl : l ∈ t.layers) {b : β} (hb : f l = some b) (b' : β) :
    b' ∈ t.drawOrder.filterMap f ∧ key b' = l.key ↔ b' = b := by
  constructor
  · rintro ⟨hmem, hsame⟩
    obtain ⟨l', hl', hb'⟩ := List.mem_filterMap.mp hmem
    have heq : l' = l := List.inj_on_of_nodup_map hd (mem_drawOrder.mp hl') hl
      ((hkey l' b' hb').symm.trans hsame)
    rw [heq, hb] at hb'
    exact (Option.some.inj hb').symm
  · rintro rfl
    exact ⟨List.mem_filterMap.mpr ⟨l, mem_drawOrder.mpr hl, hb⟩, hkey l b' hb⟩

theorem Plan.key_of_emit? {t : Template} {bs : Bindings} {base ratio : Float}
    {l : Layer} {e : Emission}
    (h : emit? t bs (definitions t bs).fields base ratio l = some e) :
    e.key = l.key := by
  cases hshows : shows t bs l with
  | true =>
      obtain ⟨e', he', hrenders⟩ := exists_emit?_of_shows hshows
      rw [h, Option.some.injEq] at he'
      exact he' ▸ hrenders.key
  | false =>
      rw [emit?_of_not_shows hshows] at h
      cases h

theorem Viewport.place_identity (p : Placement) (canvas : Size)
    (width height : Float) :
    identity.place p canvas width height =
      ⟨0 + p.left canvas width, 0 + p.top canvas height, width, height⟩ := by
  simp only [place, identity, float_mul_one]

namespace Overlay

theorem key_of_project? {g : GeometrySettings} {t : Template} {bs : Bindings}
    {base ratio : Float} {canvas : Size} {v : Viewport} {l : Layer}
    {o : Overlay} (h : project? g t bs base ratio canvas v l = some o) :
    o.layerKey = l.key := by
  rw [project?_eq] at h
  obtain ⟨_, -, rfl⟩ := Option.map_eq_some_iff.mp h
  rfl

/-- A picture that is shown has one overlay and one emission in a plan for the
same canvas. Drawn to scale, the overlay has the size in pixels that the command
asks for, except for sides of less than half a pixel, and lies where a box of
its size is put. -/
theorem image_sameSide {t : Template} (hcheck : t.check.valid = true)
    {l : Layer} (hl : l ∈ t.layers) {image : ImageLayer}
    (hbody : l.body = .image image) (hshown : image.shown = true)
    (g : GeometrySettings) (settings : CompilerSettings) (bs : Bindings)
    (canvas : Size) (asset : String) :
    let ratio := scaleRatio canvas settings.baseWidth
    let overlays := projectAll g settings t bs canvas canvas .identity
    let plan := Plan.compile settings t bs canvas asset
    ∃ o e width height, ∃ p : Placement,
      (∀ o', o' ∈ overlays ∧ o'.layerKey = l.key ↔ o' = o) ∧
      (∀ e', e' ∈ plan.layers ∧ e'.key = l.key ↔ e' = e) ∧
      Plan.EmitsImage t e image width height ∧ e.apply = p.command ∧
      SameSide image.width ratio width o.rect.width ∧
      SameSide image.height ratio height o.rect.height ∧
      o.rect.left = 0 + p.left canvas o.rect.width ∧
      o.rect.top = 0 + p.top canvas o.rect.height := by
  intro ratio overlays plan
  have hvalid := Template.check_valid_iff.mp hcheck
  obtain ⟨key, body⟩ := l
  obtain rfl : body = .image image := hbody
  have hvalues := (hvalid.layers _ hl).values
  have hwidth : 0 < image.width := hvalues .width _ rfl
  have hheight : 0 < image.height := hvalues .height _ rfl
  have hside {side : Float} (h : 0 < side) : 0 ≤ scaled side ratio :=
    scaled_nonneg h (unsigned_scaleRatio _ _)
  have ho :
      project? g t bs (Plan.baseFontSize t settings) ratio canvas .identity
        ⟨key, .image image⟩ = some ⟨key, Viewport.identity.place
          (.compute image.x image.y image.gravity ratio) canvas
          (Float.ofInt (scaled image.width ratio))
          (Float.ofInt (scaled image.height ratio))⟩ := by
      rw [project?_eq, box?]
      dsimp only
      rw [hshown]
      rfl
  rw [Viewport.place_identity] at ho
  obtain ⟨e, he, hrenders⟩ :=
    @Plan.exists_emit?_of_shows t bs (Plan.baseFontSize t settings)
      ratio ⟨key, .image image⟩ hshown
  have honly := Template.mem_filterMap_drawOrder_iff hvalid.sound.keys
    (fun _ _ => key_of_project?) hl ho
  have heonly := Template.mem_filterMap_drawOrder_iff hvalid.sound.keys
    (fun _ _ => Plan.key_of_emit?) hl he
  rw [← projectAll_self g settings canvas .identity t bs] at honly
  exact ⟨_, e, _, _, _, honly, heonly, Plan.emitsImage_of_emit? hl he,
    hrenders.apply, sameSide (hside hwidth), sameSide (hside hheight), rfl, rfl⟩

/-- The logo of a shelf, on a canvas of half the width. -/
theorem shelf_image_sameSide :
    Plan.shelf.check.valid = true ∧
      ⟨"logo", .image { ImageLayer.ofSize 64 64 with order := some (-1) }⟩ ∈
        Plan.shelf.layers ∧
      ∃ o ∈
          projectAll ⟨0.6, 1.2, 100, 40⟩ ⟨1080, 48⟩ Plan.shelf Table.empty
            ⟨540, 540⟩ ⟨540, 540⟩ .identity,
        ∃ e ∈
          (Plan.compile ⟨1080, 48⟩ Plan.shelf Table.empty ⟨540, 540⟩
            "shop/shoe").layers,
          o.layerKey = "logo" ∧ e.key = "logo" ∧ ∃ width height,
            Plan.EmitsImage Plan.shelf e { ImageLayer.ofSize 64 64 with
              order := some (-1) }
              width height ∧
            o.rect.width = Float.ofInt width ∧
              o.rect.height = Float.ofInt height := by
  have hcheck : Plan.shelf.check.valid = true := by decide +kernel
  have hl :
      ⟨"logo", .image { ImageLayer.ofSize 64 64 with order := some (-1) }⟩ ∈
        Plan.shelf.layers := by
      decide
  have hscaled : scaled 64 (scaleRatio ⟨540, 540⟩ 1080) ≠ 0 := by decide +kernel
  obtain ⟨o, e, width, height, p, ho, he, hemits, -, hwidth, hheight, -⟩ :=
    image_sameSide hcheck hl rfl rfl ⟨0.6, 1.2, 100, 40⟩ ⟨1080, 48⟩ Table.empty
      ⟨540, 540⟩ "shop/shoe"
  obtain ⟨homem, hokey⟩ := (ho o).mpr rfl
  obtain ⟨hemem, hekey⟩ := (he e).mpr rfl
  exact ⟨hcheck, hl, o, homem, e, hemem, hokey, hekey, width, height, hemits,
    hwidth.same hscaled, hheight.same hscaled⟩

/-- A picture that is less than half a pixel wide. -/
def dot : ImageLayer := ImageLayer.ofSize 0.3 64

/-- A template with nothing but such a picture. -/
def speck : Template :=
  { Template.ofCanvas "speck" 500 500 with layers := [⟨"dot", .image dot⟩] }

/-- The command of the dot asks for one pixel, and its overlay has no width. -/
theorem speck_not_sameSide :
    ¬ ∀ (g : GeometrySettings) (settings : CompilerSettings) (t : Template)
      (bs : Bindings) (canvas : Size) (asset : String), t.check.valid = true →
      ∀ o ∈ projectAll g settings t bs canvas canvas .identity,
      ∀ e ∈ (Plan.compile settings t bs canvas asset).layers,
      o.layerKey = e.key →
      ∀ image width height, Plan.EmitsImage t e image width height →
        o.rect.width = Float.ofInt width ∧
          o.rect.height = Float.ofInt height := by
  intro hall
  have hcheck : speck.check.valid = true := by decide +kernel
  obtain ⟨o, ho, hokey, hwidth⟩ :
      ∃ o ∈
          projectAll ⟨0.6, 1.2, 100, 40⟩ ⟨500, 48⟩ speck Table.empty ⟨500, 500⟩
            ⟨500, 500⟩ .identity,
        o.layerKey = "dot" ∧ o.rect.width = 0 := by
    decide +kernel
  have hl : ⟨"dot", .image dot⟩ ∈ speck.layers := List.mem_singleton_self _
  obtain ⟨e, he, hrenders⟩ := @Plan.exists_emit?_of_shows speck Table.empty
    (Plan.baseFontSize speck ⟨500, 48⟩) (scaleRatio ⟨500, 500⟩ 500)
    ⟨"dot", .image dot⟩ rfl
  have hside : Plan.imageSide dot.width (scaleRatio ⟨500, 500⟩ 500) = 1 := by
    decide +kernel
  have hemits := Plan.emitsImage_of_emit? hl he
  rw [hside] at hemits
  have hsame :=
    hall ⟨0.6, 1.2, 100, 40⟩ ⟨500, 48⟩ speck Table.empty ⟨500, 500⟩ "shop/shoe"
      hcheck o ho e (Plan.mem_layers.mpr ⟨_, hl, he⟩)
      (hokey.trans hrenders.key.symm) _ _ _ hemits
  rw [hwidth] at hsame
  exact absurd hsame.1 (by decide +kernel)

end Overlay

end Placard
