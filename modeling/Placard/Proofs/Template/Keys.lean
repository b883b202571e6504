import Placard.Proofs.Field.Naming

/-!
# Layers with keys of their own

A template that has been checked has no two layers under one key. Then a key
finds the very layer that has it, and what is said of the layers in turn can be
said of the keys. Without that, a key finds the first of its layers and the
others are drawn but never found.
-/

namespace Placard

theorem mem_of_findLayer? {key : String} {ls : List Layer} {l : Layer}
    (h : findLayer? key ls = some l) : l ∈ ls ∧ l.key = key := by
  induction ls with
  | nil => cases h
  | cons m rest ih =>
      rw [findLayer?] at h
      split at h
      · next hm =>
          cases h
          exact ⟨List.mem_cons_self, hm⟩
      · obtain ⟨hl, hk⟩ := ih h
        exact ⟨List.mem_cons_of_mem _ hl, hk⟩

theorem findLayer?_of_mem {ls : List Layer} {l : Layer}
    (hn : (ls.map Layer.key).Nodup) (h : l ∈ ls) :
    findLayer? l.key ls = some l := by
  induction ls with
  | nil => cases h
  | cons m rest ih =>
      rw [List.map_cons, List.nodup_cons] at hn
      rcases List.mem_cons.mp h with rfl | h
      · rw [findLayer?, if_pos rfl]
      · have hne : m.key ≠ l.key := fun heq =>
          hn.1 (heq ▸ List.mem_map_of_mem h)
        rw [findLayer?, if_neg hne]
        exact ih hn.2 h

namespace Template

/-- The keys of the layers in their order. -/
def keys (t : Template) : List String :=
  t.layers.map Layer.key

/-- No two layers have one key. -/
def DistinctKeys (t : Template) : Prop := t.keys.Nodup

/-- No two text layers take their content from one field. -/
def DistinctFields (t : Template) : Prop :=
  (t.textLayers.map fun (key, text) => text.field key).Nodup

instance (t : Template) : Decidable t.DistinctKeys :=
  inferInstanceAs (Decidable t.keys.Nodup)

instance (t : Template) : Decidable t.DistinctFields :=
  inferInstanceAs (Decidable (t.textLayers.map fun (key, text) => text.field
    key).Nodup)

variable {t : Template} {key : String} {text : TextLayer}

theorem mem_textLayers :
    (key, text) ∈ t.textLayers ↔
      ∃ l ∈ t.layers, l.key = key ∧ l.text? = some text := by
  simp only [textLayers, List.mem_filterMap, Option.map_eq_some_iff,
    Prod.mk.injEq]
  constructor
  · rintro ⟨l, hl, x, hx, hk, rfl⟩
    exact ⟨l, hl, hk, hx⟩
  · rintro ⟨l, hl, hk, hx⟩
    exact ⟨l, hl, text, hx, hk, rfl⟩

theorem mem_textLayers_of_textLayer? (h : t.textLayer? key = some text) :
    (key, text) ∈ t.textLayers := by
  obtain ⟨l, hl, ht⟩ := Option.bind_eq_some_iff.mp h
  obtain ⟨hmem, hk⟩ := mem_of_findLayer? hl
  exact mem_textLayers.mpr ⟨l, hmem, hk, ht⟩

theorem textLayer?_of_mem (hd : t.DistinctKeys)
    (h : (key, text) ∈ t.textLayers) : t.textLayer? key = some text := by
  obtain ⟨l, hl, rfl, ht⟩ := mem_textLayers.mp h
  rw [textLayer?, layer?, findLayer?_of_mem hd hl]
  exact ht

theorem textLayer?_of_layer (hd : t.DistinctKeys) {l : Layer}
    (hl : l ∈ t.layers) : t.textLayer? l.key = l.text? := by
  rw [textLayer?, layer?, findLayer?_of_mem hd hl]
  rfl

theorem mem_keys_of_textLayer? (h : t.textLayer? key = some text) :
    key ∈ t.keys := by
  obtain ⟨l, hl, rfl, -⟩ := mem_textLayers.mp (mem_textLayers_of_textLayer? h)
  exact List.mem_map_of_mem hl

theorem exists_variable (h : (key, text) ∈ t.textLayers) :
    ∃ v, t.variables.get? (text.field key) = some v :=
  variables_isSome (mem_distinct.mpr (List.mem_map.mpr ⟨(key, text), h, rfl⟩))

theorem eq_of_field_eq (hf : t.DistinctFields) {other : String}
    {text' : TextLayer} (h : (key, text) ∈ t.textLayers)
    (ho : (other, text') ∈ t.textLayers)
    (heq : text.field key = text'.field other) : key = other :=
  congrArg Prod.fst (List.inj_on_of_nodup_map hf h ho heq)

/-- A price from metadata, what it is reduced to, a note, and a picture: a
template that what is said of compiling can be tried on. -/
def priceTag : Template :=
  { ofCanvas "tag" 1080 1080 with
    layers := [
      ⟨"price", .text { TextLayer.ofField "Price!" (.px 48) with
        metadataKey := some "shop/price", defaultValue := "10", lead := "$" }⟩,
      ⟨"reduced", .text { TextLayer.ofField "Reduced" (.px 48) with
        calculation := some ⟨"* 0.8", "price"⟩, trail := ",-" }⟩,
      ⟨"note", .text { TextLayer.ofField "Note" (.px 32) with
        defaultValue := "now: 20% off!" }⟩,
      ⟨"logo", .image { ImageLayer.ofSize 64 64 with
        assetId := some "brand/logo" }⟩] }

end Template

end Placard
