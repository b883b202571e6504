import Placard.Proofs.Field.Seeds
import Placard.Proofs.Template.Others
import Placard.Proofs.Template.Writing
import Placard.Session.Basic

/-!
# Fields that are up to date

The content of the fields is up to date with a template if every text layer is
given what the template says of its field. It is kept by the names of fields,
while edits are addressed to layers. So an edit leaves it up to date only where
the layer has its field to itself, before and after: then no other layer is
given anything else, and what is to be seen to is the field that the layer has
afterwards. Either it is seeded anew, or nothing has been said of it yet, or the
layer has had it all along.
-/

namespace Placard

namespace Template

variable {t t' : Template} {key field : String} {text : TextLayer}

/-! ## The other text layers -/

/-- The text layers under other keys. -/
def otherTexts (t : Template) (key : String) : List (String × TextLayer) :=
  t.textLayers.filter fun e => e.1 ≠ key

theorem otherTexts_eq (h : t'.otherLayers key = t.otherLayers key) :
    t'.otherTexts key = t.otherTexts key := by
  have hfilter (t : Template) : t.otherTexts key =
      (t.otherLayers key).filterMap fun l => l.text?.map fun text =>
        (l.key, text) := by
    rw [otherTexts, textLayers, List.filter_filterMap, otherLayers,
      List.filterMap_filter]
    refine List.filterMap_congr fun l _ => ?_
    cases l.text? with
    | none => simp
    | some text => by_cases hkey : l.key = key <;> simp [hkey]
  rw [hfilter, hfilter, h]

theorem mem_otherTexts {e : String × TextLayer} :
    e ∈ t.otherTexts key ↔ e ∈ t.textLayers ∧ e.1 ≠ key := by
  rw [otherTexts, List.mem_filter, decide_eq_true_eq]

/-! ## Layers that have a field to themselves -/

/-- No other text layer has the field of this one. -/
def OwnsField (t : Template) (key : String) : Prop :=
  ∀ text ∈ t.textLayer? key, ∀ e ∈ t.otherTexts key,
    e.2.field e.1 ≠ text.field key

instance (t : Template) (key : String) : Decidable (t.OwnsField key) :=
  inferInstanceAs (Decidable (∀ text ∈ t.textLayer? key, _))

/-- A field that a layer does not have is one that the other layers say
everything of. -/
theorem seed?_of_other (hd : t.DistinctKeys)
    (hne : ∀ text ∈ t.textLayer? key, text.field key ≠ field) :
    t.seed? field =
      ((t.otherTexts key).find? fun e => e.2.field e.1 = field).map
        fun e => Binding.ofLayer field e.2 := by
  rw [seed?_eq, otherTexts, List.find?_filter]
  congr 1
  refine List.find?_congr fun e he => ?_
  by_cases hkey : e.1 = key
  · have htext := textLayer?_of_mem hd he
    rw [hkey] at htext
    simp [hkey, hne _ htext]
  · simp [hkey]

/-- A field that a layer has to itself is one that the layer says everything
of. -/
theorem OwnsField.seed?_eq (h : t.OwnsField key) (hd : t.DistinctKeys)
    (htext : t.textLayer? key = some text) :
    t.seed? (text.field key) =
      some (Binding.ofLayer (text.field key) text) := by
  obtain ⟨⟨other, text'⟩, hfind⟩ : ∃ e, (t.textLayers.find? fun e =>
      e.2.field e.1 = text.field key) = some e := by
    refine Option.isSome_iff_exists.mp
      (List.find?_isSome.mpr ⟨(key, text), ?_, ?_⟩)
    · exact mem_textLayers_of_textLayer? htext
    · exact decide_eq_true rfl
  have hmem := List.mem_of_find?_eq_some hfind
  have hfield := List.find?_some hfind
  have hkey : other = key := by
    by_contra hne
    exact h text htext _ (mem_otherTexts.mpr ⟨hmem, hne⟩)
      (of_decide_eq_true hfield)
  subst hkey
  rw [textLayer?_of_mem hd hmem, Option.some.injEq] at htext
  subst htext
  rw [Template.seed?_eq, hfind]
  rfl

end Template

/-! ## Writing that says nothing of a field -/

/-- What a text says of its field depends on three of its properties. -/
theorem TextLayer.seed_of_write {text text' : TextLayer} {s : Slot TextLayer}
    {p : Property} {v : Value} (hs : slot? p = some s)
    (h : s.write p v text = .ok text') (hname : p ≠ .fieldName)
    (hfield : p.isOfField = false) (key : String) :
    Binding.ofLayer (text'.field key) text' =
      Binding.ofLayer (text.field key) text := by
  obtain ⟨x, -, rfl⟩ := Slot.exists_put h
  cases p with
  | fieldName => exact absurd rfl hname
  | defaultValue | metadataKey => cases hfield
  | _ => cases hs <;> rfl

/-- What a layer says of its field, under its key, if it is a text. -/
def Layer.seed? (l : Layer) : Option (String × Binding) :=
  l.text?.map fun text => (l.key, Binding.ofLayer (text.field l.key) text)

theorem Template.seeds_eq (t : Template) :
    t.seeds = t.layers.filterMap Layer.seed? := by
  rw [seeds, textLayers, List.map_filterMap]
  refine List.filterMap_congr fun l _ => ?_
  rw [Option.map_map]
  rfl

theorem Layer.seed?_set {l : Layer} {key : String} {p : Property} {v : Value}
    {body : LayerBody} (h : l.body.set key p v = .ok body)
    (hname : p ≠ .fieldName) (hfield : p.isOfField = false) :
    ({ l with body := body } : Layer).seed? = l.seed? := by
  rcases LayerBody.set_cases h with ⟨text, text', s, hbody, rfl, hs, hwrite⟩ |
    ⟨i, i', s, hbody, rfl, -, -⟩
  · simp only [seed?, text?, hbody, Option.map_some,
      TextLayer.seed_of_write hs hwrite hname hfield]
  · simp only [seed?, text?, hbody, Option.map_none]

theorem filterMap_replaceBody {β : Type} {f : Layer → Option β} {key : String}
    {body : LayerBody} {l : Layer} {ls : List Layer}
    (hl : findLayer? key ls = some l)
    (hbody : f { l with body := body } = f l) :
    (replaceBody key body ls).filterMap f = ls.filterMap f := by
  induction ls with
  | nil => rfl
  | cons m rest ih =>
      rw [findLayer?] at hl
      rw [replaceBody]
      split at hl
      · next hm =>
          cases hl
          rw [if_pos hm, List.filterMap_cons, hbody, List.filterMap_cons]
      · next hm =>
          rw [if_neg hm, List.filterMap_cons, ih hl, List.filterMap_cons]

theorem Template.seeds_of_set {t t' : Template} {key : String} {p : Property}
    {v : Placard.Value} (h : t.set key p v = .ok t')
    (hp : key = canvasKey ∨ p ≠ .fieldName ∧ p.isOfField = false) :
    t'.seeds = t.seeds := by
  rw [seeds_eq, seeds_eq]
  rcases set_cases h with ⟨-, s, hs, hwrite⟩ | ⟨hkey, l, body, hl, hbody, rfl⟩
  · rw [(of_write_slot hs hwrite).2]
  · obtain ⟨hname, hfield⟩ := hp.resolve_left hkey
    exact filterMap_replaceBody hl (Layer.seed?_set hbody hname hfield)

/-! ## Being up to date -/

/-- Every text layer is given what the template starts the fields with. -/
def Bindings.UpToDate (bs : Bindings) (t : Template) : Prop :=
  Alike t bs (.ofCatalog (.ofTemplate t))

namespace Bindings.UpToDate

open Template

variable {t t' : Template} {key : String} {bs bs' : Bindings}

theorem seeded (t : Template) : (ofCatalog (.ofTemplate t)).UpToDate t :=
  fun _ _ _ => rfl

/-- The first layer of each field is what all of its layers are given. -/
theorem iff_resolve : bs.UpToDate t ↔
    ∀ e ∈ t.textLayers,
      t.seed? (e.2.field e.1) = some (bs.resolve e.1 e.2) := by
  constructor
  · intro h e he
    rw [resolve_seeded he, h e.1 e.2 he]
  · intro h key text hmem
    have hsame := h (key, text) hmem
    rw [resolve_seeded hmem, Option.some.injEq] at hsame
    exact hsame.symm

theorem iff_seeds : bs.UpToDate t ↔
    ∀ e ∈ t.seeds,
      t.seed? e.2.fieldName = some ((bs.get? e.2.fieldName).getD e.2) := by
  rw [iff_resolve, seeds, List.forall_mem_map]
  simp only [Binding.fieldName_ofLayer]
  rfl

theorem congr (h : bs.UpToDate t) (hseeds : t'.seeds = t.seeds) :
    bs.UpToDate t' := by
  rw [iff_seeds] at h ⊢
  simp only [seed?, hseeds] at h ⊢
  exact h

/-- An edit of a layer that has its field to itself, before and after, is
followed by seeing to that field. -/
theorem edit (h : bs.UpToDate t) (hd : t.DistinctKeys) (hd' : t'.DistinctKeys)
    (hothers : t'.otherLayers key = t.otherLayers key)
    (hown : t.OwnsField key) (hown' : t'.OwnsField key)
    (hrest : ∀ e ∈ t.otherTexts key,
      bs'.get? (e.2.field e.1) = bs.get? (e.2.field e.1))
    (hkey : ∀ text ∈ t'.textLayer? key,
      bs'.resolve key text = Binding.ofLayer (text.field key) text) :
    bs'.UpToDate t' := by
  have htexts := otherTexts_eq hothers
  refine iff_resolve.mpr fun ⟨other, text⟩ hmem => ?_
  by_cases heq : other = key
  · subst heq
    have htext := textLayer?_of_mem hd' hmem
    rw [hown'.seed?_eq hd' htext, hkey text htext]
  · have hother : (other, text) ∈ t.otherTexts key :=
      htexts ▸ mem_otherTexts.mpr ⟨hmem, heq⟩
    have hne : ∀ own ∈ t.textLayer? key, own.field key ≠ text.field other :=
      fun own hmem => (hown own hmem _ hother).symm
    have hne' : ∀ own ∈ t'.textLayer? key, own.field key ≠ text.field other :=
      fun own hmem => (hown' own hmem _ (htexts ▸ hother)).symm
    have hsame : t'.seed? (text.field other) = t.seed? (text.field other) := by
      rw [seed?_of_other hd' hne', seed?_of_other hd hne, htexts]
    have hfollows := iff_resolve.mp h _ (mem_otherTexts.mp hother).1
    rw [hsame, hfollows, resolve, resolve, hrest _ hother]

/-- The field is seeded anew. -/
theorem reseed (h : bs.UpToDate t) (hd : t.DistinctKeys)
    (hd' : t'.DistinctKeys) (hothers : t'.otherLayers key = t.otherLayers key)
    (hown : t.OwnsField key) (hown' : t'.OwnsField key) {text : TextLayer}
    (htext : t'.textLayer? key = some text) :
    (bs.reseed key text).UpToDate t' := by
  refine h.edit hd hd' hothers hown hown' (fun e he => ?_) fun text' htext' =>
    ?_
  · have hne := hown' text htext e (otherTexts_eq hothers ▸ he)
    rw [Bindings.reseed, Table.get?_insert, if_neg hne.symm]
  · rw [htext, Option.mem_some_iff] at htext'
    subst htext'
    rw [resolve, Bindings.reseed, Table.get?_insert, if_pos rfl,
      Option.getD_some]

/-- Nothing has been said of the field, or the layer says of it what it said
before. -/
theorem keep (h : bs.UpToDate t) (hd : t.DistinctKeys) (hd' : t'.DistinctKeys)
    (hothers : t'.otherLayers key = t.otherLayers key)
    (hown : t.OwnsField key) (hown' : t'.OwnsField key)
    (hnew : ∀ text ∈ t'.textLayer? key, bs.get? (text.field key) = none ∨
      ∃ old ∈ t.textLayer? key,
        Binding.ofLayer (text.field key) text =
          Binding.ofLayer (old.field key) old) :
    bs.UpToDate t' := by
  refine h.edit hd hd' hothers hown hown' (fun e he => rfl) fun text htext => ?_
  rcases hnew text htext with hunsaid | ⟨old, hold, hsame⟩
  · rw [resolve, hunsaid, Option.getD_none]
  · have hfield : text.field key = old.field key := by
      have hname := congrArg Binding.fieldName hsame
      rwa [Binding.fieldName_ofLayer, Binding.fieldName_ofLayer] at hname
    have hgiven :=
      iff_resolve.mp h (key, old) (mem_textLayers_of_textLayer? hold)
    rw [hown.seed?_eq hd hold, Option.some.injEq] at hgiven
    rw [resolve, hsame, hfield, ← resolve, ← hgiven]

/-- A literal for a field that no text layer has. -/
theorem setLiteral (h : bs.UpToDate t) {field : String}
    (hfield : field ∉ t.fields) (value : String) :
    (bs.setLiteral field value).UpToDate t := by
  refine iff_resolve.mpr fun e he => ?_
  have hne : field ≠ e.2.field e.1 := fun heq =>
    hfield (mem_distinct.mpr (List.mem_map.mpr ⟨e, he, heq.symm⟩))
  rw [iff_resolve.mp h e he, resolve, resolve, Bindings.setLiteral,
    Table.get?_insert, if_neg hne]

end Bindings.UpToDate

end Placard
