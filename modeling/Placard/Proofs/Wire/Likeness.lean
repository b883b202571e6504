import Mathlib.Data.List.Forall2
import Placard.Proofs.Field.Seeds

/-!
# What the definitions depend on

Of a layer only so much has a part in the definitions: its key, its place in the
drawing order, and of a text its field, what it calculates and the content that
it is given. Two templates whose layers match in this one by one have the same
variables and the same calculations, and these are kept and defined in the same
order. Each stage of compiling is a function of the stage before it and of the
text layers by their keys, so the argument is one lemma for each of them, and
each asks only for what it depends on.

The content may come from the layers or from the bindings, and for both
templates from different ones. What the layers say of their fields counts no
further than that.
-/

namespace Placard

/-! ## Lists that match -/

section Lists

variable {α β γ : Type} {R : α → β → Prop} {as : List α} {bs : List β}

theorem map_eq_of_forall₂ {f : α → γ} {g : β → γ} (h : List.Forall₂ R as bs)
    (hfg : ∀ a b, R a b → g b = f a) : bs.map g = as.map f := by
  induction h with
  | nil => rfl
  | cons hab _ ih => rw [List.map_cons, List.map_cons, hfg _ _ hab, ih]

theorem filterMap_eq_of_forall₂ {f : α → Option γ} {g : β → Option γ}
    (h : List.Forall₂ R as bs) (hfg : ∀ a b, R a b → g b = f a) :
    bs.filterMap g = as.filterMap f := by
  induction h with
  | nil => rfl
  | cons hab _ ih =>
      rw [List.filterMap_cons, List.filterMap_cons, hfg _ _ hab, ih]

/-- Lists that match are sorted alike if what matches is compared alike. Both
are images of the list of the pairs, which is sorted by either. -/
theorem forall₂_mergeSort {R : α → α → Prop} {as bs : List α}
    {le : α → α → Bool}
    (hle : ∀ a b a' b', R a b → R a' b' → le b b' = le a a')
    (h : List.Forall₂ R as bs) :
    List.Forall₂ R (as.mergeSort le) (bs.mergeSort le) := by
  have hlen := h.length_eq
  have hpairs : ∀ z ∈ as.zip bs, R z.1 z.2 := fun z hz => List.forall₂_zip h hz
  have hfst : ∀ y ∈ as.zip bs, ∀ z ∈ as.zip bs, le y.1 z.1 = le y.1 z.1 :=
    fun _ _ _ _ => rfl
  have hsnd : ∀ y ∈ as.zip bs, ∀ z ∈ as.zip bs, le y.1 z.1 = le y.2 z.2 :=
    fun y hy z hz => (hle _ _ _ _ (hpairs y hy) (hpairs z hz)).symm
  have has := List.map_mergeSort hfst
  have hbs := List.map_mergeSort hsnd
  rw [List.map_fst_zip (Nat.le_of_eq hlen)] at has
  rw [List.map_snd_zip (Nat.le_of_eq hlen.symm)] at hbs
  rw [← has, ← hbs, List.forall₂_map_left_iff, List.forall₂_map_right_iff,
    List.forall₂_same]
  exact fun z hz => hpairs z (List.mem_mergeSort.mp hz)

theorem optionRel_same {R : α → α → Prop} (h : ∀ a, R a a) :
    (a? : Option α) → Option.Rel R a? a?
  | none => .none
  | some a => .some (h a)

theorem optionRel_bind {δ : Type} {S : γ → δ → Prop} {a? : Option α}
    {b? : Option β} {f : α → Option γ} {g : β → Option δ}
    (h : Option.Rel R a? b?) (hfg : ∀ a b, R a b → Option.Rel S (f a) (g b)) :
    Option.Rel S (a?.bind f) (b?.bind g) := by
  cases h with
  | none => exact .none
  | some hab => exact hfg _ _ hab

end Lists

/-! ## Layers that match -/

/-- Both texts have the same field. -/
structure TextLayer.SameName (text text' : TextLayer) : Prop where
  fieldName : text'.fieldName = text.fieldName

/-- Both texts have the same field and calculate the same. -/
structure TextLayer.SameOrigin (text text' : TextLayer) : Prop extends
    TextLayer.SameName text text' where
  calculation : text'.calculation = text.calculation

/-- Both texts have the same field and say the same of it. -/
structure TextLayer.SameField (text text' : TextLayer) : Prop where
  fieldName : text'.fieldName = text.fieldName
  metadataKey : text'.metadataKey = text.metadataKey
  defaultValue : text'.defaultValue = text.defaultValue

/-- Both texts have the same field, and their content comes from the same. -/
structure TextLayer.SameSource (text text' : TextLayer) : Prop extends
    TextLayer.SameField text text' where
  calculation : text'.calculation = text.calculation

/-- Both layers have the same key and place, and are related if they are
texts. -/
structure Layer.Matches (R : TextLayer → TextLayer → Prop) (l l' : Layer) :
    Prop where
  key : l'.key = l.key
  order : l'.order = l.order
  text? : Option.Rel R l.text? l'.text?

/-- The layers of both templates match one by one. -/
def Template.Matches (R : TextLayer → TextLayer → Prop) (t t' : Template) :
    Prop :=
  List.Forall₂ (Layer.Matches R) t.layers t'.layers

/-- Under every key both templates have a text layer with the same content, or
none. -/
def Template.SameContent (t t' : Template) (bs bs' : Bindings) : Prop :=
  ∀ key,
    Option.Rel (fun text text' => bs'.resolve key text' = bs.resolve key text)
      (t.textLayer? key) (t'.textLayer? key)

theorem TextLayer.SameName.field_eq {text text' : TextLayer}
    (h : text.SameName text') (key : String) :
    text'.field key = text.field key := by
  rw [field, field, h.fieldName]

theorem TextLayer.SameField.field_eq {text text' : TextLayer}
    (h : text.SameField text') (key : String) :
    text'.field key = text.field key :=
  SameName.field_eq ⟨h.fieldName⟩ key

theorem TextLayer.SameField.resolve_eq {text text' : TextLayer}
    (h : text.SameField text') (bs : Bindings) (key : String) :
    bs.resolve key text' = bs.resolve key text := by
  simp only [Bindings.resolve, h.field_eq, Binding.ofLayer, h.metadataKey,
    h.defaultValue]

theorem Layer.Matches.mono {R S : TextLayer → TextLayer → Prop} {l l' : Layer}
    (h : l.Matches R l') (hRS : ∀ text text', R text text' → S text text') :
    l.Matches S l' where
  key := h.key
  order := h.order
  text? :=
    match l.text?, l'.text?, h.text? with
    | _, _, .none => .none
    | _, _, .some htext => .some (hRS _ _ htext)

theorem Layer.Matches.refl (l : Layer) : l.Matches TextLayer.SameOrigin l :=
  ⟨rfl, rfl, optionRel_same (fun _ => ⟨⟨rfl⟩, rfl⟩) _⟩

/-- Layers that keep their places are drawn in the same order. -/
theorem Template.forall₂_drawOrder {R : Layer → Layer → Prop}
    {t t' : Template} (h : List.Forall₂ R t.layers t'.layers)
    (hR : ∀ l l', R l l' → l'.order = l.order) :
    List.Forall₂ R t.drawOrder t'.drawOrder := by
  refine forall₂_mergeSort (fun a b a' b' hab hab' => ?_) h
  simp only [drawnBefore, hR _ _ hab, hR _ _ hab']

namespace Template

namespace Matches

variable {R S : TextLayer → TextLayer → Prop} {t t' : Template}

theorem mono (h : t.Matches R t')
    (hRS : ∀ text text', R text text' → S text text') : t.Matches S t' :=
  List.Forall₂.imp (fun _ _ hl => hl.mono hRS) h

theorem length_eq (h : t.Matches R t') : t'.layers.length = t.layers.length :=
  (List.Forall₂.length_eq h).symm

theorem textLayers (h : t.Matches R t') :
    List.Forall₂ (fun e e' => e'.1 = e.1 ∧
      R e.2 e'.2) t.textLayers t'.textLayers := by
  refine List.rel_filterMap (fun l l' hl => ?_) h
  match l.text?, l'.text?, hl.text? with
  | _, _, .none => exact .none
  | _, _, .some htext => exact .some ⟨hl.key, htext⟩

theorem textKeys (h : t.Matches R t') :
    t'.textLayers.map (·.1) = t.textLayers.map (·.1) :=
  map_eq_of_forall₂ h.textLayers fun _ _ he => he.1

theorem findLayer? (key : String) {ls ls' : List Layer}
    (h : List.Forall₂ (Layer.Matches R) ls ls') :
    Option.Rel (Layer.Matches R) (findLayer? key ls) (findLayer? key ls') := by
  induction h with
  | nil => exact .none
  | cons hl _ ih =>
      rw [Placard.findLayer?, Placard.findLayer?, hl.key]
      split
      · exact .some hl
      · exact ih

theorem textLayer? (h : t.Matches R t') (key : String) :
    Option.Rel R (t.textLayer? key) (t'.textLayer? key) := by
  rw [Template.textLayer?, Template.textLayer?, layer?, layer?]
  exact optionRel_bind (findLayer? key h) fun _ _ hl => hl.text?

theorem isSome_textLayer? (h : t.Matches R t') (key : String) :
    (t'.textLayer? key).isSome = (t.textLayer? key).isSome := by
  match t.textLayer? key, t'.textLayer? key, h.textLayer? key with
  | _, _, .none => rfl
  | _, _, .some _ => rfl

theorem sameName (h : t.Matches TextLayer.SameField t') :
    t.Matches TextLayer.SameName t' :=
  h.mono fun _ _ htext => ⟨htext.fieldName⟩

theorem sameField (h : t.Matches TextLayer.SameSource t') :
    t.Matches TextLayer.SameField t' :=
  h.mono fun _ _ htext => htext.toSameField

theorem sameOrigin (h : t.Matches TextLayer.SameSource t') :
    t.Matches TextLayer.SameOrigin t' :=
  h.mono fun _ _ htext => ⟨⟨htext.fieldName⟩, htext.calculation⟩

/-- Texts that say the same of their fields are given the same by the same
bindings. -/
theorem sameContent (h : t.Matches TextLayer.SameField t') (bs : Bindings) :
    t.SameContent t' bs bs := by
  intro key
  match t.textLayer? key, t'.textLayer? key, h.textLayer? key with
  | _, _, .none => exact .none
  | _, _, .some htext => exact .some (htext.resolve_eq bs key)

/-! ## The order of the definitions -/

section Order

variable (h : t.Matches R t')

include h

theorem dependents_eq (kept : Derivations) (key : String) :
    t'.dependents kept key = t.dependents kept key := by
  rw [dependents, dependents, h.textKeys]

theorem visit_eq (kept : Derivations) (fuel : Nat) :
    t'.visit kept fuel = t.visit kept fuel := by
  induction fuel with
  | zero => rfl
  | succ fuel ih =>
      funext seen key
      rw [visit, visit, ih, h.dependents_eq]
      match t.textLayer? key, t'.textLayer? key, h.textLayer? key with
      | _, _, .none => rfl
      | _, _, .some _ => rfl

theorem definitionOrder_eq (kept : Derivations) :
    t'.definitionOrder kept = t.definitionOrder kept := by
  rw [definitionOrder, definitionOrder, h.textKeys, h.visit_eq, h.length_eq]

end Order

/-! ## The variables -/

theorem variables_eq (h : t.Matches TextLayer.SameName t') :
    t'.variables = t.variables := by
  have hfields : t'.fields = t.fields := by
    refine congrArg distinct (map_eq_of_forall₂ h.textLayers ?_)
    rintro ⟨_, text⟩ ⟨key, text'⟩ ⟨rfl, htext⟩
    exact htext.field_eq key
  rw [«variables», «variables», hfields]

end Matches

/-! ## What is kept -/

namespace SameContent

variable {t t' : Template} {bs bs' : Bindings}

theorem startsEmpty_eq (h : t.SameContent t' bs bs') (kept : Derivations)
    (d : Derivation) : t'.startsEmpty bs' kept d = t.startsEmpty bs kept d := by
  rw [startsEmpty, startsEmpty]
  match t.textLayer? d.source, t'.textLayer? d.source, h d.source with
  | _, _, .none => rfl
  | _, _, .some hsame => simp only [hsame]

theorem dropEmpty_eq (h : t.SameContent t' bs bs') (kept : Derivations) :
    t'.dropEmpty bs' kept = t.dropEmpty bs kept := by
  simp only [dropEmpty, h.startsEmpty_eq]

/-- What is dropped in the end depends on nothing but what starts empty. -/
theorem settle_eq (h : t.SameContent t' bs bs') (kept : Derivations) :
    t'.settle bs' kept = t.settle bs kept := by
  fun_induction settle t bs kept with
  | case1 kept rest hlt ih =>
      rw [settle.eq_1 t' bs' kept]
      simp only [h.dropEmpty_eq]
      rw [if_pos hlt, ih]
  | case2 kept rest hge =>
      rw [settle.eq_1 t' bs' kept]
      simp only [h.dropEmpty_eq]
      rw [if_neg hge]

/-- A layer adds the same to the definitions if it has the same field as
well. -/
theorem add_eq (h : t.SameContent t' bs bs')
    (hname : t.Matches TextLayer.SameName t') (kept : Derivations)
    (sources : List String) :
    Plan.Definitions.add t' bs' kept sources =
      Plan.Definitions.add t bs kept sources := by
  funext ds key
  rw [Plan.Definitions.add, Plan.Definitions.add, hname.variables_eq]
  match t.textLayer? key, t'.textLayer? key, hname.textLayer? key, h key with
  | _, _, .none, _ => rfl
  | _, _, .some htext, .some hsame =>
      simp only [htext.field_eq, Plan.expressionFor, hsame]

end SameContent

/-! ## The calculations -/

namespace Matches

variable {t t' : Template} {bs bs' : Bindings}
  (h : t.Matches TextLayer.SameOrigin t')

include h

theorem calculation?_eq (key : String) :
    t'.calculation? key = t.calculation? key := by
  rw [calculation?, calculation?]
  match t.textLayer? key, t'.textLayer? key, h.textLayer? key with
  | _, _, .none => rfl
  | _, _, .some htext => exact htext.calculation

theorem chainEnds_eq (fuel : Nat) (visited : List String) (key : String) :
    t'.chainEnds fuel visited key = t.chainEnds fuel visited key := by
  induction fuel generalizing visited key with
  | zero => rfl
  | succ fuel ih =>
      rw [chainEnds, chainEnds, h.calculation?_eq]
      cases t.calculation? key with
      | none => rfl
      | some c => simp only [ih]

theorem canFollow_eq (key : String) : t'.canFollow key = t.canFollow key := by
  simp only [canFollow, h.calculation?_eq, h.isSome_textLayer?, h.chainEnds_eq,
    h.length_eq]

theorem sameName_of_origin : t.Matches TextLayer.SameName t' :=
  h.mono fun _ _ htext => htext.toSameName

theorem derivation?_eq (key : String) {text text' : TextLayer}
    (htext : text.SameOrigin text') :
    t'.derivation? key text' = t.derivation? key text := by
  rw [derivation?, derivation?, htext.calculation]
  cases text.calculation with
  | none => rfl
  | some c =>
      simp only [Option.bind_eq_bind, Option.bind_some, h.canFollow_eq,
        h.sameName_of_origin.variables_eq, htext.field_eq]
      match t.textLayer? c.dependsOn, t'.textLayer? c.dependsOn,
        h.textLayer? c.dependsOn with
      | _, _, .none => rfl
      | _, _, .some hsource =>
          rw [Option.bind_some, Option.bind_some, hsource.field_eq]

theorem derivations_eq : t'.derivations = t.derivations := by
  refine congrArg Table.ofList (filterMap_eq_of_forall₂ h.textLayers ?_)
  rintro ⟨_, text⟩ ⟨key, text'⟩ ⟨rfl, htext⟩
  exact congrArg (Option.map _) (h.derivation?_eq key htext)

theorem definitions_eq (hcontent : t.SameContent t' bs bs') :
    Plan.definitions t' bs' = Plan.definitions t bs := by
  have hkept : t'.keptDerivations bs' = t.keptDerivations bs := by
    rw [keptDerivations, keptDerivations, h.derivations_eq, hcontent.settle_eq]
  rw [Plan.definitions, Plan.definitions, hkept, h.definitionOrder_eq,
    hcontent.add_eq h.sameName_of_origin]

end Matches

/-! ## The whole -/

/-- Templates whose layers match, and are emitted alike, have the same plan. -/
theorem compile_eq_of_forall₂ {t t' : Template} {bs bs' : Bindings}
    (hlayers : List.Forall₂ (fun l l' => l.Matches TextLayer.SameOrigin l' ∧
      ∀ defined base ratio,
        Plan.emit? t' bs' defined base ratio l' =
          Plan.emit? t bs defined base ratio l)
      t.layers t'.layers) (hcontent : t.SameContent t' bs bs')
    (hbase : t'.baseFontSize? = t.baseFontSize?)
    (hbackground : t'.background = t.background) (settings : CompilerSettings)
    (canvas : Size) (asset : String) :
    Plan.compile settings t' bs' canvas asset =
      Plan.compile settings t bs canvas asset := by
  have hmatches : t.Matches TextLayer.SameOrigin t' :=
    hlayers.imp fun _ _ h => h.1
  have hemitted (defined : List String) (base ratio : Float) :
      t'.drawOrder.filterMap (Plan.emit? t' bs' defined base ratio) =
        t.drawOrder.filterMap (Plan.emit? t bs defined base ratio) :=
    filterMap_eq_of_forall₂ (forall₂_drawOrder hlayers fun _ _ h => h.1.order)
      fun _ _ h => h.2 defined base ratio
  simp only [Plan.compile, Plan.baseFontSize, hmatches.definitions_eq hcontent,
    hemitted, hbase, hbackground]

end Template

namespace Bindings.Alike

variable {t : Template} {bs bs' : Bindings}

theorem sameContent (h : Alike t bs bs') : t.SameContent t bs bs' := by
  intro key
  cases htext : t.textLayer? key with
  | none => exact .none
  | some text =>
      exact .some (h _ _ (Template.mem_textLayers_of_textLayer? htext)).symm

theorem emit?_eq (h : Alike t bs bs') {l : Layer} (hl : l ∈ t.layers)
    (defined : List String) (base ratio : Float) :
    Plan.emit? t bs' defined base ratio l =
      Plan.emit? t bs defined base ratio l := by
  unfold Plan.emit?
  split
  · next text hbody =>
      have hmem : (l.key, text) ∈ t.textLayers :=
        Template.mem_textLayers.mpr ⟨l, hl, rfl, by rw [Layer.text?, hbody]⟩
      rw [h _ _ hmem]
  · rfl

/-- A plan looks fields up only for the text layers that it is the plan of, and
each of these looks up its own. -/
theorem compile_eq (h : Alike t bs bs') (settings : CompilerSettings)
    (canvas : Size) (asset : String) :
    Plan.compile settings t bs canvas asset =
      Plan.compile settings t bs' canvas asset := by
  refine (Template.compile_eq_of_forall₂ (List.forall₂_same.mpr fun l hl =>
    ⟨.refl l, h.emit?_eq hl⟩) h.sameContent rfl rfl settings canvas asset).symm

end Bindings.Alike

end Placard
