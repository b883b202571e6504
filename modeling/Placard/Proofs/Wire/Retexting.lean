import Placard.Proofs.Wire.Likeness

/-!
# Other texts in the same layers

To say of a template what it amounts to, the texts of its layers are often
replaced by others: by ones that calculate less, or that say of their field what
another says. The layers keep their keys and their places, pictures stay what
they are, and the text under a key is the one that was under it, replaced.
-/

namespace Placard

/-- The layer with another text, if it is a text. -/
def Layer.mapText (f : String → TextLayer → TextLayer) (l : Layer) : Layer :=
  match l.body with
  | .text text => { l with body := .text (f l.key text) }
  | .image _ => l

/-- The template with another text in every layer that is one. -/
def Template.mapTexts (f : String → TextLayer → TextLayer) (t : Template) :
    Template :=
  { t with layers := t.layers.map (Layer.mapText f) }

variable (f : String → TextLayer → TextLayer)

namespace Layer

variable (l : Layer)

@[simp] theorem key_mapText : (l.mapText f).key = l.key := by
  obtain ⟨key, body⟩ := l
  cases body <;> rfl

theorem text?_mapText : (l.mapText f).text? = l.text?.map (f l.key) := by
  obtain ⟨key, body⟩ := l
  cases body <;> rfl

end Layer

theorem findLayer?_mapText (key : String) (ls : List Layer) :
    findLayer? key (ls.map (Layer.mapText f)) =
      (findLayer? key ls).map (Layer.mapText f) := by
  induction ls with
  | nil => rfl
  | cons l rest ih =>
      rw [List.map_cons, findLayer?, findLayer?, Layer.key_mapText]
      split
      · rfl
      · exact ih

namespace Template

variable (t : Template)

theorem textLayers_mapTexts :
    (t.mapTexts f).textLayers = t.textLayers.map fun (key, text) =>
      (key, f key text) := by
  simp only [textLayers, mapTexts, List.filterMap_map, List.map_filterMap]
  refine List.filterMap_congr fun l _ => ?_
  simp only [Function.comp_apply, Layer.text?_mapText, Layer.key_mapText,
    Option.map_map, Function.comp_def]

theorem textLayer?_mapTexts (key : String) :
    (t.mapTexts f).textLayer? key = (t.textLayer? key).map (f key) := by
  rw [textLayer?, textLayer?, layer?, layer?, mapTexts, findLayer?_mapText]
  cases hl : findLayer? key t.layers with
  | none => rfl
  | some l =>
      rw [Option.map_some, Option.bind_some, Option.bind_some,
        Layer.text?_mapText, (mem_of_findLayer? hl).2]

theorem keys_mapTexts : (t.mapTexts f).keys = t.keys := by
  rw [keys, keys, mapTexts, List.map_map]
  exact List.map_congr_left fun l _ => l.key_mapText f

/-- Percentages refer to the same size if no text becomes larger or smaller. -/
theorem baseFontSize?_mapTexts {f : String → TextLayer → TextLayer}
    (hsize : ∀ key text, (f key text).fontSize = text.fontSize) :
    (t.mapTexts f).baseFontSize? = t.baseFontSize? := by
  rw [baseFontSize?, baseFontSize?, textLayers_mapTexts]
  cases t.textLayers with
  | nil => rfl
  | cons e rest => simp only [List.map_cons, hsize]

end Template

/-! ## Texts that keep their places -/

section Places

variable {f} (horder : ∀ key text, (f key text).order = text.order)

include horder

theorem Layer.order_mapText (l : Layer) : (l.mapText f).order = l.order := by
  obtain ⟨key, body⟩ := l
  cases body with
  | text text => exact horder key text
  | image image => rfl

namespace Template

theorem drawOrder_mapTexts (t : Template) :
    (t.mapTexts f).drawOrder = t.drawOrder.map (Layer.mapText f) := by
  refine (List.map_mergeSort fun a _ b _ => ?_).symm
  simp only [drawnBefore, Layer.order_mapText horder]

variable {R : TextLayer → TextLayer → Prop}
  (hR : ∀ key text, R text (f key text))

include hR

theorem matches_mapText (l : Layer) : l.Matches R (l.mapText f) where
  key := l.key_mapText f
  order := l.order_mapText horder
  text? := by
    rw [Layer.text?_mapText]
    cases l.text? with
    | none => exact .none
    | some text => exact .some (hR l.key text)

theorem matches_mapTexts (t : Template) : t.Matches R (t.mapTexts f) :=
  List.forall₂_map_right_iff.mpr (List.forall₂_same.mpr fun l _ =>
    matches_mapText horder hR l)

end Template

end Places

end Placard
