import Placard.Proofs.Template.Drawing
import Placard.Proofs.Wire.Contents
import Placard.Proofs.Wire.Likeness

/-!
# How a plan is arranged

The commands of a plan come in a fixed order: the asset, what is defined, the
canvas, and then for every layer that shows something what it shows and where
that goes. The layers are those that the template draws, in the order in which
it draws them, without the hidden pictures and the texts that come to nothing.
Whether a text comes to nothing is settled only once its field has a variable or
has none, so what is shown is said here of a layer and of the content of the
fields together.
-/

namespace Placard

/-! ## Layers that show something -/

/-- Where a layer is put. -/
def Layer.placement (l : Layer) (ratio : Float) : Placement :=
  match l.body with
  | .text text => .compute text.x text.y text.gravity ratio
  | .image image => .compute image.x image.y image.gravity ratio

/-- The kind of the command for what a layer shows. -/
def Layer.contentKind (l : Layer) : SegmentKind :=
  match l.body with
  | .text _ => .textContent
  | .image _ => .imageContent

/-- What a list keeps and what it gives go together, if each that is kept gives
something and the others give nothing. -/
theorem forall₂_filter_filterMap {α β : Type} {R : α → β → Prop} {p : α → Bool}
    {f : α → Option β} {as : List α}
    (hsome : ∀ a ∈ as, p a = true → ∃ b, f a = some b ∧ R a b)
    (hnone : ∀ a ∈ as, p a = false → f a = none) :
    List.Forall₂ R (as.filter p) (as.filterMap f) := by
  induction as with
  | nil => exact .nil
  | cons a as ih =>
      obtain ⟨hsome, hsomes⟩ := List.forall_mem_cons.mp hsome
      obtain ⟨hnone, hnones⟩ := List.forall_mem_cons.mp hnone
      cases hp : p a with
      | true =>
          obtain ⟨b, hb, hab⟩ := hsome hp
          rw [List.filter_cons_of_pos hp, List.filterMap_cons_some hb]
          exact .cons hab (ih hsomes hnones)
      | false =>
          rw [List.filter_cons_of_neg (Bool.eq_false_iff.mp hp),
            List.filterMap_cons_none (hnone hp)]
          exact ih hsomes hnones

namespace Plan

/-- Whether a layer shows something: a picture that is not hidden, or a text
that is not empty with its lead, its trail and the content of its field. -/
def shows (t : Template) (bs : Bindings) (l : Layer) : Bool :=
  match l.body with
  | .text text =>
    payload text (bs.resolve l.key text).currentLiteral
      (definedFor t bs l.key text) ≠ ""
  | .image image => image.shown

/-- The commands of a layer. -/
structure Renders (ratio : Float) (l : Layer) (e : Emission) : Prop where
  key : e.key = l.key
  kind : e.kind = l.contentKind
  apply : e.apply = (l.placement ratio).command

section Emissions

variable {t : Template} {bs : Bindings} {base ratio : Float} {l : Layer}

theorem exists_emit?_of_shows (h : shows t bs l = true) :
    ∃ e, emit? t bs (definitions t bs).fields base ratio l = some e ∧
      Renders ratio l e := by
  obtain ⟨key, body⟩ := l
  cases body with
  | text text =>
      have hne := of_decide_eq_true h
      rw [emit?_text t bs rfl, emitText?_of_ne hne]
      exact ⟨_, rfl, rfl, rfl, rfl⟩
  | image image =>
      have hshown : ¬ (!image.shown) = true := by
        rw [show image.shown = true from h]
        exact Bool.false_ne_true
      rw [emit?_image rfl, emitImage?, if_neg hshown]
      exact ⟨_, rfl, rfl, rfl, rfl⟩

theorem emit?_of_not_shows (h : shows t bs l = false) :
    emit? t bs (definitions t bs).fields base ratio l = none := by
  obtain ⟨key, body⟩ := l
  cases body with
  | text text =>
      have hempty : payload text (bs.resolve key text).currentLiteral
          (definedFor t bs key text) = "" :=
        not_not.mp (of_decide_eq_false h)
      rw [emit?_text t bs rfl, emitText?, hempty]
      rfl
  | image image =>
      rw [emit?_image rfl, emitImage?, show image.shown = false from h]
      rfl

end Emissions

/-- A plan renders the layers that show something, in the order in which they
are drawn. -/
theorem forall₂_layers (settings : CompilerSettings) (t : Template)
    (bs : Bindings) (canvas : Size) (asset : String) :
    List.Forall₂ (Renders (scaleRatio canvas settings.baseWidth))
      (t.drawOrder.filter (shows t bs))
      (compile settings t bs canvas asset).layers :=
  forall₂_filter_filterMap (fun _ _ => exists_emit?_of_shows) fun _ _ =>
    emit?_of_not_shows

theorem keys_layers (settings : CompilerSettings) (t : Template) (bs : Bindings)
    (canvas : Size) (asset : String) :
    (compile settings t bs canvas asset).layers.map Emission.key =
      (t.drawOrder.filter (shows t bs)).map Layer.key :=
  map_eq_of_forall₂ (forall₂_layers settings t bs canvas asset)
    fun _ _ h => h.key

/-! ## The commands in turn -/

/-- Two commands for the layer under a key: what it shows, and where that
goes. -/
inductive LayerCommands : String → List Segment → Prop where
  | intro {kind : SegmentKind} (key content apply : String)
      (hkind : kind = .textContent ∨ kind = .imageContent) :
      LayerCommands key [⟨content, some key, kind⟩, ⟨apply, some key, .apply⟩]

/-- The asset, then definitions only, then the canvas, and then the commands of
the layers under the given keys, two for each. -/
inductive Arranged : List String → List Segment → Prop where
  | intro {keys : List String} {asset canvas : Segment}
      {bindings : List Segment} {pairs : List (List Segment)}
      (hasset : asset.kind = .assetBinding)
      (hbindings : ∀ s ∈ bindings, s.kind = .definition)
      (hcanvas : canvas.kind = .canvas)
      (hpairs : List.Forall₂ LayerCommands keys pairs) :
      Arranged keys (asset :: bindings ++ canvas :: pairs.flatten)

theorem Renders.layerCommands {ratio : Float} {l : Layer} {e : Emission}
    (h : Renders ratio l e) : LayerCommands l.key e.segments := by
  rw [Emission.segments, h.key]
  refine .intro l.key e.content e.apply ?_
  rw [h.kind, Layer.contentKind]
  cases l.body with
  | text => exact Or.inl rfl
  | image => exact Or.inr rfl

/-- A plan is arranged by the layers that show something, each once. They are
drawn by their places, those without a place last, and by the order of
declaration where the places do not decide. -/
theorem compile_arranged {t : Template} (hd : t.DistinctKeys)
    (settings : CompilerSettings) (bs : Bindings) (canvas : Size)
    (asset : String) :
    Arranged ((t.drawOrder.filter (shows t bs)).map Layer.key)
        (compile settings t bs canvas asset).segments ∧
      ((t.drawOrder.filter (shows t bs)).map Layer.key).Nodup ∧
      Drawn t.layers t.drawOrder := by
  refine ⟨?_, ?_, t.drawn_drawOrder⟩
  · have hpairs :
        List.Forall₂ LayerCommands
          ((t.drawOrder.filter (shows t bs)).map Layer.key)
          ((compile settings t bs canvas asset).layers.map
            Emission.segments) := by
        rw [List.forall₂_map_left_iff, List.forall₂_map_right_iff]
        exact (forall₂_layers settings t bs canvas asset).imp fun _ _ h =>
          h.layerCommands
    rw [segments, List.flatMap_def]
    refine .intro rfl (fun s hs => ?_) rfl hpairs
    obtain ⟨_, -, rfl⟩ := List.mem_map.mp hs
    rfl
  · exact (Template.nodup_keys_drawOrder hd).sublist
      (List.filter_sublist.map Layer.key)

/-- A title without a place, two badges of one place and a note without content
before them, a picture before all of these, and one that is hidden. -/
def shelf : Template :=
  { Template.ofCanvas "shelf" 1080 1080 with
    layers := [
      ⟨"title", .text { TextLayer.ofField "Title" (.px 48) with
        defaultValue := "Sale" }⟩,
      ⟨"new", .text { TextLayer.ofField "New" (.px 24) with
        defaultValue := "new", order := some 2 }⟩,
      ⟨"note", .text { TextLayer.ofField "Note" (.px 24) with
        order := some 1 }⟩,
      ⟨"off", .text { TextLayer.ofField "Off" (.px 24) with
        trail := "%", order := some 2 }⟩,
      ⟨"logo", .image { ImageLayer.ofSize 64 64 with order := some (-1) }⟩,
      ⟨"frame", .image { ImageLayer.ofSize 64 64 with shown := false }⟩] }

theorem shelf_arranged :
    shelf.DistinctKeys ∧
      Arranged ["logo", "new", "off", "title"]
        (compile ⟨1080, 48⟩ shelf Table.empty ⟨1080, 1080⟩
          "shop/shoe").segments ∧
      Drawn shelf.layers shelf.drawOrder := by
  have hd : shelf.DistinctKeys := by decide
  have hdrawn :
      shelf.drawOrder = [4, 2, 1, 3, 0, 5].filterMap (shelf.layers[·]?) := by
    simp [Template.drawOrder, shelf, List.mergeSort,
      List.MergeSort.Internal.splitInTwo, List.merge, Template.drawnBefore,
      Layer.order, TextLayer.ofField, ImageLayer.ofSize]
  have hkeys :
      (shelf.drawOrder.filter (shows shelf Table.empty)).map Layer.key =
        ["logo", "new", "off", "title"] := by
      rw [hdrawn]
      decide +kernel
  obtain ⟨harranged, -, hd'⟩ :=
    compile_arranged hd ⟨1080, 48⟩ Table.empty ⟨1080, 1080⟩ "shop/shoe"
  exact ⟨hd, hkeys ▸ harranged, hd'⟩

end Plan

end Placard
