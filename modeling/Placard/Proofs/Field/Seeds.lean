import Placard.Proofs.Template.Keys
import Placard.Wire.Plan

/-!
# What a template says of its fields

The content that fields start with comes from the text layers of a template.
Each says something of its field, and where layers share a field it is the first
of them that counts. The background of the canvas has a field as well, unless a
layer has one of its name.
-/

namespace Placard

/-! ## From the layers to the catalog, and from there to the fields -/

namespace Catalog

theorem get?_declare (c : Catalog) (field field' : String) (info : FieldMeta) :
    (c.declare field info).get? field' =
      (c.get? field').or (if field = field' then some info else none) := by
  unfold declare
  split
  · next hold =>
      split
      · next heq =>
          obtain ⟨info', hinfo⟩ := Option.isSome_iff_exists.mp hold
          rw [← heq, hinfo, Option.some_or]
      · rw [Option.or_none]
  · next hnew =>
      rw [Table.get?_insert]
      split
      · next heq =>
          rw [Table.contains, Option.not_isSome_iff_eq_none] at hnew
          rw [← heq, hnew, Option.none_or]
      · rw [Option.or_none]

theorem get?_foldl_declare (layers : List (String × TextLayer)) (c : Catalog)
    (field : String) :
    (layers.foldl (fun c (key, text) => declare c (text.field key)
      (metaOf key text)) c).get? field =
      (c.get? field).or ((layers.find? fun e => e.2.field e.1 = field).map
        fun e => metaOf e.1 e.2) := by
  induction layers generalizing c with
  | nil => rw [List.foldl_nil, List.find?_nil, Option.map_none, Option.or_none]
  | cons e rest ih =>
      rw [List.foldl_cons, ih, get?_declare, Option.or_assoc, List.find?_cons]
      congr 1
      by_cases heq : e.2.field e.1 = field
      · rw [if_pos heq, decide_eq_true heq, Option.some_or, Option.map_some]
      · rw [if_neg heq, decide_eq_false heq, Option.none_or]

end Catalog

theorem Bindings.get?_ofCatalog (c : Catalog) (field : String) :
    (ofCatalog c).get? field = (c.get? field).map fun info =>
      Binding.ofDefault field info.defaultValue info.metadataKey := by
  cases h : c.get? field with
  | some info =>
      refine Table.get?_ofList_of_mem ?_ (List.mem_map.mpr
        ⟨(field, info), Table.mem_of_lookup h, rfl⟩)
      rw [List.map_map]
      exact c.nodup_keys
  | none =>
      rw [Option.map_none]
      refine Option.eq_none_iff_forall_not_mem.mpr fun b hb => ?_
      obtain ⟨⟨field', info⟩, hmem, heq⟩ :=
        List.mem_map.mp (Table.mem_of_get?_ofList hb)
      obtain ⟨rfl, -⟩ := Prod.mk.inj heq
      rw [Table.get?, Table.lookup_of_mem c.nodup_keys hmem] at h
      cases h

theorem Binding.fieldName_ofLayer (field : String) (text : TextLayer) :
    (Binding.ofLayer field text).fieldName = field := by
  unfold ofLayer ofDefault
  split <;> rfl

namespace Template

variable {t t' : Template} {key field : String} {text : TextLayer}

/-- What the text layers say of their fields, each under its key. -/
def seeds (t : Template) : List (String × Binding) :=
  t.textLayers.map fun (key, text) =>
    (key, Binding.ofLayer (text.field key) text)

/-- What the first layer of a field says of it. -/
def seed? (t : Template) (field : String) : Option Binding :=
  (t.seeds.find? fun e => e.2.fieldName = field).map fun e => e.2

theorem seed?_eq (t : Template) (field : String) :
    t.seed? field = (t.textLayers.find? fun e => e.2.field e.1 = field).map
      fun e => Binding.ofLayer field e.2 := by
  rw [seed?, seeds, List.find?_map, Option.map_map]
  simp only [Function.comp_def, Binding.fieldName_ofLayer]
  cases h : t.textLayers.find? fun e => e.2.field e.1 = field with
  | none => rfl
  | some e =>
      have heq := List.find?_some h
      simp only [decide_eq_true_eq] at heq
      rw [Option.map_some, Option.map_some, heq]

/-- What a template starts the fields with. -/
theorem get?_seeded (t : Template) (field : String) :
    (Bindings.ofCatalog (.ofTemplate t)).get? field =
      (t.seed? field).or (if backgroundField = field
        then some (Binding.ofLiteral field t.background.text) else none) := by
  rw [Bindings.get?_ofCatalog, Catalog.ofTemplate, Catalog.get?_declare,
    Catalog.get?_foldl_declare, Table.get?_empty, Option.none_or, Option.map_or,
    Option.map_map, seed?_eq]
  congr 1
  split <;> rfl

theorem exists_seed (h : (key, text) ∈ t.textLayers) :
    ∃ b, t.seed? (text.field key) = some b := by
  rw [seed?_eq]
  cases hfind : t.textLayers.find? fun e => e.2.field e.1 = text.field key with
  | some e => exact ⟨_, rfl⟩
  | none =>
      exact absurd (decide_eq_true rfl)
        (List.find?_eq_none.mp hfind (key, text) h)

/-- A text layer starts with what the first layer of its field says. -/
theorem resolve_seeded (h : (key, text) ∈ t.textLayers) :
    t.seed? (text.field key) =
      some ((Bindings.ofCatalog (.ofTemplate t)).resolve key text) := by
  obtain ⟨b, hb⟩ := exists_seed h
  simp only [Bindings.resolve, get?_seeded, hb, Option.some_or,
    Option.getD_some]

end Template

/-- Every text layer of the template has the same content in both. -/
def Bindings.Alike (t : Template) (bs bs' : Bindings) : Prop :=
  ∀ key text, (key, text) ∈ t.textLayers →
    bs.resolve key text = bs'.resolve key text

end Placard
