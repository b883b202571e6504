import Placard.Proofs.Wire.Retexting

/-!
# Seeding the fields changes nothing

What is compiled can take the content of the fields from two places: from the
fields, once these have been seeded from the catalog of the template, or from
each text layer, as long as nothing has been said of its field. The catalog
keeps what the first layer of a field says, so for a template whose text layers
all have fields of their own it is the same from either. Where layers share a
field the catalog speaks for all of them, and the plan is that of the template
in which each says what the first says, with nothing said of the fields.
-/

namespace Placard

/-! ## Layers that say what the first says -/

/-- The text with what another says of their field. -/
def TextLayer.saying (text first : TextLayer) : TextLayer :=
  { text with
    defaultValue := first.defaultValue
    metadataKey := first.metadataKey }

namespace Template

/-- The first text layer that has the field. -/
def declaring? (t : Template) (field : String) : Option TextLayer :=
  (t.textLayers.find? fun e => e.2.field e.1 = field).map fun e => e.2

/-- A text layer with what the first layer of its field says of it. -/
def agreed (t : Template) (key : String) (text : TextLayer) : TextLayer :=
  text.saying ((t.declaring? (text.field key)).getD text)

/-- The template with all text layers of a field saying of it what the first
says. -/
def unified (t : Template) : Template :=
  t.mapTexts t.agreed

variable {t : Template} {key field : String} {text : TextLayer}

theorem order_agreed (t : Template) (key : String) (text : TextLayer) :
    (t.agreed key text).order = text.order :=
  rfl

/-- All texts have the fields and the calculations that they had. -/
theorem sameOrigin_agreed (t : Template) (key : String) (text : TextLayer) :
    text.SameOrigin (t.agreed key text) :=
  ⟨⟨rfl⟩, rfl⟩

/-! ## What the layers are given -/

theorem seed?_eq_declaring (t : Template) (field : String) :
    t.seed? field = (t.declaring? field).map (Binding.ofLayer field) := by
  rw [seed?_eq, declaring?, Option.map_map]
  rfl

/-- A text layer that says what the first says gives itself what the seeded
fields give it. -/
theorem resolve_agreed (h : (key, text) ∈ t.textLayers) :
    Bindings.resolve ∅ key (t.agreed key text) =
      (Bindings.ofCatalog (.ofTemplate t)).resolve key text := by
  have hseed := resolve_seeded h
  rw [seed?_eq_declaring] at hseed
  obtain ⟨first, hfirst, hsays⟩ := Option.map_eq_some_iff.mp hseed
  rw [← hsays, agreed, hfirst]
  rfl

theorem sameContent_unified (t : Template) :
    t.SameContent t.unified (.ofCatalog (.ofTemplate t)) ∅ := by
  intro key
  rw [unified, textLayer?_mapTexts]
  cases htext : t.textLayer? key with
  | none => exact .none
  | some text =>
      exact .some (resolve_agreed (mem_textLayers_of_textLayer? htext))

theorem emit?_unified {l : Layer} (hl : l ∈ t.layers) (defined : List String)
    (base ratio : Float) :
    Plan.emit? t.unified ∅ defined base ratio (l.mapText t.agreed) =
      Plan.emit? t (.ofCatalog (.ofTemplate t)) defined base ratio l := by
  have hvariables : t.unified.variables = t.variables :=
    (matches_mapTexts t.order_agreed t.sameOrigin_agreed
      t).sameName_of_origin.variables_eq
  obtain ⟨key, body⟩ := l
  cases body with
  | image image => rfl
  | text text =>
      have hmem : (key, text) ∈ t.textLayers :=
        mem_textLayers.mpr ⟨_, hl, rfl, rfl⟩
      simp only [Layer.mapText, Plan.emit?, hvariables, resolve_agreed hmem]
      rfl

/-- In a template whose text layers have fields of their own each of them is the
first. -/
theorem declaring?_of_distinctFields (h : t.DistinctFields)
    (hmem : (key, text) ∈ t.textLayers) :
    t.declaring? (text.field key) = some text := by
  cases hfind : t.textLayers.find? fun e => e.2.field e.1 = text.field key with
  | none =>
      exact absurd (decide_eq_true rfl) (List.find?_eq_none.mp hfind _ hmem)
  | some e =>
      have hfield : e.2.field e.1 = text.field key := by
        simpa using List.find?_some hfind
      have heq : e = (key, text) :=
        List.inj_on_of_nodup_map h (List.mem_of_find?_eq_some hfind) hmem hfield
      rw [declaring?, hfind, heq]
      rfl

theorem unified_of_distinctFields (h : t.DistinctFields) : t.unified = t := by
  have hself : ∀ l ∈ t.layers, l.mapText t.agreed = l := by
    rintro ⟨key, body⟩ hl
    cases body with
    | image image => rfl
    | text text =>
        have hagreed : t.agreed key text = text := by
          rw [agreed, declaring?_of_distinctFields h
            (mem_textLayers.mpr ⟨_, hl, rfl, rfl⟩)]
          rfl
        exact congrArg (fun text => (⟨key, .text text⟩ : Layer)) hagreed
  rw [unified, mapTexts, List.map_congr_left hself, List.map_id']

end Template

/-! ## The whole -/

namespace Plan

open Template

/-- With fields seeded from its own catalog a template is compiled as it is with
nothing said of the fields once all layers of a field say what the first says;
and so, if no two layers share a field, as it is itself. -/
theorem compile_seeded (settings : CompilerSettings) (t : Template)
    (canvas : Size) (asset : String) :
    compile settings t (.ofCatalog (.ofTemplate t)) canvas asset =
        compile settings t.unified ∅ canvas asset ∧
      (t.DistinctFields →
        compile settings t (.ofCatalog (.ofTemplate t)) canvas asset =
        compile settings t ∅ canvas asset) := by
  have hunified : compile settings t (.ofCatalog (.ofTemplate t)) canvas asset =
      compile settings t.unified ∅ canvas asset := by
    have hbase : t.unified.baseFontSize? = t.baseFontSize? :=
      t.baseFontSize?_mapTexts fun _ _ => rfl
    refine (compile_eq_of_forall₂ ?_ t.sameContent_unified hbase rfl settings
      canvas asset).symm
    exact List.forall₂_map_right_iff.mpr (List.forall₂_same.mpr fun l hl =>
      ⟨matches_mapText t.order_agreed t.sameOrigin_agreed l, emit?_unified hl⟩)
  refine ⟨hunified, fun hfields => ?_⟩
  rw [hunified, unified_of_distinctFields hfields]

/-- A title, and a text that has the field of the background to itself. -/
def shaded : Template :=
  { Template.ofCanvas "shaded" 500 500 with
    layers := [
      ⟨"title", .text { TextLayer.ofField "Title" (.px 32) with
        defaultValue := "Sale", metadataKey := some "shop/title" }⟩,
      ⟨"shade", .text { TextLayer.ofField "backgroundColor" (.px 16) with
        defaultValue := "#336699" }⟩] }

theorem shaded_compile_seeded :
    shaded.DistinctFields ∧
      compile ⟨500, 32⟩ shaded (.ofCatalog (.ofTemplate shaded)) ⟨1080, 1080⟩
        "shop/shoe" = compile ⟨500, 32⟩ shaded ∅ ⟨1080, 1080⟩ "shop/shoe" := by
  have hfields : shaded.DistinctFields := by decide +kernel
  exact ⟨hfields, (compile_seeded ⟨500, 32⟩ shaded ⟨1080, 1080⟩ "shop/shoe").2
    hfields⟩

end Plan

end Placard
