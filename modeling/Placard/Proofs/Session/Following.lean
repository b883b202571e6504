import Placard.Proofs.Field.UpToDate
import Placard.Proofs.Session.Rendering

/-!
# Fields that follow the edits

While a template is edited its fields are not started afresh. An edit of a
property that says something of a field seeds the field of that one layer, and
other edits seed none. That is enough where each layer that is edited has its
field to itself and gets no field that something has been said of before: then
the fields are at any time what making the template active again would make of
them, and so is what is compiled. Where layers share a field, or a layer takes
over the field of one that is gone, what was said of the field before is what is
still shown.
-/

namespace Placard

namespace Session

variable {s s' : Session}

/-- The fields are up to date with the active template. -/
def UpToDate (s : Session) : Prop :=
  ∀ t, s.activeTemplate = .ok t → s.fields.UpToDate t

theorem UpToDate.of_active {t : Template} (ht : s.activeTemplate = .ok t)
    (h : s.fields.UpToDate t) : s.UpToDate := by
  intro u hu
  rw [ht, Except.ok.injEq] at hu
  exact hu ▸ h

theorem Seeded.upToDate (h : s.Seeded) : s.UpToDate := by
  obtain ⟨t, ht, hfields⟩ := h
  exact .of_active ht (hfields ▸ .seeded t)

theorem UpToDate.congr (h : s.UpToDate)
    (hactive : s'.activeTemplate = s.activeTemplate)
    (hfields : s'.fields = s.fields) : s'.UpToDate := by
  intro t ht
  rw [hfields]
  exact h t (hactive ▸ ht)

theorem WellFormed.distinctKeys (hs : s.WellFormed) {t : Template}
    (ht : s.activeTemplate = .ok t) : t.DistinctKeys := by
  unfold activeTemplate at ht
  split at ht
  · cases ht
  · split at ht
    · next id _ _ hu =>
        cases ht
        exact (hs.workspace.sound _ t hu).keys
    · cases ht

/-! ## Edits of one layer -/

/-- The layer has its field to itself in the active template, before and
after. -/
structure KeepsApart (s : Session) (key : String) (s' : Session) : Prop where
  before : ∀ t, s.activeTemplate = .ok t → t.OwnsField key
  after : ∀ t, s'.activeTemplate = .ok t → t.OwnsField key

/-- Nothing has been said of the field that the layer has afterwards, unless the
layer says of it what it said before. -/
def NamesAnew (s : Session) (key : String) (s' : Session) : Prop :=
  ∀ t, s.activeTemplate = .ok t → ∀ t', s'.activeTemplate = .ok t' →
    ∀ text ∈ t'.textLayer? key,
      s.fields.get? (text.field key) = none ∨ ∃ old ∈ t.textLayer? key,
        Binding.ofLayer (text.field key) text =
          Binding.ofLayer (old.field key) old

/-- What is said of an answer can be tried where there is one. -/
instance decidableForallOk {ε α : Type} (r : Except ε α) (P : α → Prop)
    [DecidablePred P] : Decidable (∀ a, r = .ok a → P a) :=
  match r with
  | .ok a => decidable_of_iff (P a)
      ⟨fun h _ heq => Except.ok.inj heq ▸ h, fun h => h a rfl⟩
  | .error _ => .isTrue fun _ heq => nomatch heq

instance (s : Session) (key : String) (s' : Session) :
    Decidable (s.KeepsApart key s') :=
  decidable_of_iff ((∀ t, s.activeTemplate = .ok t → t.OwnsField key) ∧
      ∀ t, s'.activeTemplate = .ok t → t.OwnsField key)
    ⟨fun h => ⟨h.1, h.2⟩, fun h => ⟨h.before, h.after⟩⟩

instance (s : Session) (key : String) (s' : Session) :
    Decidable (s.NamesAnew key s') :=
  inferInstanceAs (Decidable (∀ t, s.activeTemplate = .ok t →
    ∀ t', s'.activeTemplate = .ok t' → _))

namespace Edits

variable {op : Operation} {layer? : Option String} {key : String}

theorem upToDate (h : s.Edits op layer? s') (hs : s.WellFormed)
    (hop : op.key? = some key) (hdate : s.UpToDate)
    (hapart : s.KeepsApart key s')
    (hseen : layer? = some key ∨ layer? = none ∧ s.NamesAnew key s') :
    s'.UpToDate := by
  obtain ⟨t, t', ht, ht', hrewrites, hfields⟩ := h.rewrites
  have hd := hs.distinctKeys ht
  have hd' := h.keeps.wellFormed.distinctKeys ht'
  have hothers := hrewrites.otherLayers_eq hop
  have hown := hapart.before t ht
  have hown' := hapart.after t' ht'
  refine .of_active ht' (hfields ▸ ?_)
  rcases hseen with rfl | ⟨rfl, hnew⟩
  · cases htext : t'.textLayer? key with
    | some text =>
        rw [reseeded, htext]
        exact (hdate t ht).reseed hd hd' hothers hown hown' htext
    | none =>
        -- A picture has no field to be seen to.
        rw [reseeded, htext]
        refine (hdate t ht).keep hd hd' hothers hown hown' fun text htext' => ?_
        rw [htext] at htext'
        cases htext'
  · exact (hdate t ht).keep hd hd' hothers hown hown' (hnew t ht t' ht')

theorem upToDate_of_seeds (h : s.Edits op none s') (hdate : s.UpToDate)
    (hseeds : ∀ t t', op.Rewrites t t' → t'.seeds = t.seeds) : s'.UpToDate := by
  obtain ⟨t, t', ht, ht', hrewrites, hfields⟩ := h.rewrites
  exact .of_active ht' (hfields ▸ (hdate t ht).congr (hseeds t t' hrewrites))

/-- A layer that is deleted has no field afterwards. -/
theorem namesAnew_of_delete {id : String}
    (h : s.Edits (.deleteLayer id key) layer? s') (hs : s.WellFormed) :
    s.NamesAnew key s' := by
  intro u hu u' hu' text htext
  obtain ⟨t, t', ht, ht', hrewrites, -⟩ := h.rewrites
  rw [ht', Except.ok.injEq] at hu'
  subst hu'
  cases hrewrites with
  | deleteLayer =>
      have hgone := Template.hasLayer_dropLayer (hs.distinctKeys ht) key
      rw [Template.textLayer?, Template.layer?_eq_none_iff.mpr hgone] at htext
      cases htext

end Edits

/-! ## Requests and runs -/

/-- The request does not set the field of a text layer. -/
def Request.SparesFields (s : Session) : Request → Prop
  | setField field _ => ∀ t, s.activeTemplate = .ok t → field ∉ t.fields
  | bindField _ _ | unbindField _ => False
  | setActive _ | createChild _ _ _ | removeChild _ | setProperty _ _ _
  | resetProperty _ _ | addLayer _ | deleteLayer _ | resetLayer _ | setToggles _
  | poll _ _ | clock _ => True

/-- The request changes what is said of a field only through a layer that has it
to itself. Where nothing is seeded anew, the layer must not get a field that
something has been said of. -/
def Request.EditsApart (s s' : Session) : Request → Prop
  | setProperty layer p _ | resetProperty layer p =>
    (p = .fieldName ∨ p.isOfField = true → s.KeepsApart layer s') ∧
      (p = .fieldName → s.NamesAnew layer s')
  | addLayer l => s.KeepsApart l.key s' ∧ s.NamesAnew l.key s'
  | deleteLayer key | resetLayer key => s.KeepsApart key s'
  | setActive _ | createChild _ _ _ | removeChild _ | setField _ _
  | bindField _ _ | unbindField _ | setToggles _ | poll _ _ | clock _ => True

/-- The request is one that the fields follow. -/
def Request.FollowsRules (s s' : Session) (req : Request) : Prop :=
  req.SparesFields s ∧ req.EditsApart s s'

instance (s : Session) : (req : Request) → Decidable (req.SparesFields s)
  | .setField field _ =>
    inferInstanceAs (Decidable (∀ t, s.activeTemplate = .ok t →
      field ∉ t.fields))
  | .bindField _ _ | .unbindField _ => .isFalse id
  | .setActive _ | .createChild _ _ _ | .removeChild _ | .setProperty _ _ _
  | .resetProperty _ _ | .addLayer _ | .deleteLayer _ | .resetLayer _
  | .setToggles _ | .poll _ _ | .clock _ => .isTrue trivial

instance (s s' : Session) : (req : Request) → Decidable (req.EditsApart s s')
  | .setProperty layer p _ | .resetProperty layer p =>
    inferInstanceAs (Decidable ((p = .fieldName ∨ p.isOfField = true →
      s.KeepsApart layer s') ∧
      (p = .fieldName → s.NamesAnew layer s')))
  | .addLayer l =>
    inferInstanceAs (Decidable (s.KeepsApart l.key s' ∧ s.NamesAnew l.key s'))
  | .deleteLayer key | .resetLayer key =>
    inferInstanceAs (Decidable (s.KeepsApart key s'))
  | .setActive _ | .createChild _ _ _ | .removeChild _ | .setField _ _
  | .bindField _ _ | .unbindField _ | .setToggles _ | .poll _ _ | .clock _ =>
    .isTrue trivial

instance (s s' : Session) (req : Request) : Decidable (req.FollowsRules s s') :=
  inferInstanceAs (Decidable (req.SparesFields s ∧ req.EditsApart s s'))

/-- A property is written, and its field seeded if it says something of it. -/
theorem Edits.upToDate_of_set {op : Operation} {layer : String} {p : Property}
    (h : s.Edits op (seededBy layer p) s') (hs : s.WellFormed)
    (hdate : s.UpToDate) (hop : op.key? = some layer)
    (hset : ∀ t t', op.Rewrites t t' → ∃ v, t.set layer p v = .ok t')
    (hapart : p = .fieldName ∨ p.isOfField = true → s.KeepsApart layer s')
    (hnew : p = .fieldName → s.NamesAnew layer s') : s'.UpToDate := by
  by_cases hfield : p.isOfField = true
  · refine h.upToDate hs hop hdate (hapart (Or.inr hfield)) (Or.inl ?_)
    rw [seededBy, if_pos hfield]
  · rw [seededBy, if_neg hfield] at h
    by_cases hname : p = .fieldName
    · exact h.upToDate hs hop hdate (hapart (Or.inl hname))
        (Or.inr ⟨rfl, hnew hname⟩)
    · refine h.upToDate_of_seeds hdate fun t t' hrewrites => ?_
      obtain ⟨v, hv⟩ := hset t t' hrewrites
      exact Template.seeds_of_set hv
        (Or.inr ⟨hname, Bool.not_eq_true _ ▸ hfield⟩)

theorem SetsField.upToDate {field value : String}
    (h : s.SetsField field value s') (hdate : s.UpToDate)
    (hfield : ∀ t, s.activeTemplate = .ok t → field ∉ t.fields) :
    s'.UpToDate := by
  have hset (t : Template) (ht : s.activeTemplate = .ok t) :
      s'.fields.UpToDate t :=
    h.fields ▸ (hdate t ht).setLiteral (hfield t ht) value
  rcases h.rewrites with hsame | ⟨id, p, v, toggles, t, t', ht, ht', hrewrites⟩
  · exact fun t ht => hset t (hsame ▸ ht)
  · cases hrewrites with
    | setProperty hwrite =>
        exact .of_active ht'
          ((hset t ht).congr (Template.seeds_of_set hwrite (Or.inl rfl)))

theorem Answers.upToDate {req : Request} (h : s.Answers req s')
    (hs : s.WellFormed) (hdate : s.UpToDate)
    (hfollows : req.FollowsRules s s') : s'.UpToDate := by
  cases h with
  | setActive h => exact h.isSeeded.upToDate
  | createChild _ hseeded | removeActive _ hseeded => exact hseeded.upToDate
  | removeOther _ hactive hfields => exact hdate.congr hactive hfields
  | setProperty h =>
      refine h.upToDate_of_set hs hdate rfl (fun t t' hrewrites => ?_)
        hfollows.2.1 hfollows.2.2
      cases hrewrites with
      | setProperty hset => exact ⟨_, hset⟩
  | resetProperty h =>
      refine h.upToDate_of_set hs hdate rfl (fun t t' hrewrites => ?_)
        hfollows.2.1 hfollows.2.2
      cases hrewrites with
      | resetProperty hset => exact ⟨_, hset⟩
  | addLayer h =>
      exact h.upToDate hs rfl hdate hfollows.2.1 (Or.inr ⟨rfl, hfollows.2.2⟩)
  | deleteLayer h =>
      exact h.upToDate hs rfl hdate hfollows.2
        (Or.inr ⟨rfl, h.namesAnew_of_delete hs⟩)
  | resetLayer h => exact h.upToDate hs rfl hdate hfollows.2 (Or.inl rfl)
  | setField h => exact h.upToDate hdate hfollows.1
  | bindField | unbindField => exact hfollows.1.elim
  | setToggles | poll | clock => exact hdate

theorem UpToDate.run (hdate : s.UpToDate) (hs : s.WellFormed)
    {reqs : List Request} (hreqs : Each Request.FollowsRules s reqs) :
    (s.run reqs).UpToDate :=
  hreqs.run_induct
    (fun hs hdone hfollows hdate => (answers_of_perform hs hdone).upToDate hs
      hdate hfollows)
    hs hdate

/-- Fields that are up to date are what making the template active again would
make of them, as far as anything is compiled from them. -/
theorem UpToDate.compile_eq (hdate : s.UpToDate) {active : String}
    {t : Template} (hactive : s.active = some active)
    (ht : s.workspace.library.get? active = some t)
    (h : s.Activates active s') (canvas? : Option Size) (asset : String) :
    s.compile canvas? asset = s'.compile canvas? asset := by
  have hfound := activeTemplate_eq hactive ht
  rw [h.compile_eq ht, compile, plan, hfound, ← (hdate t hfound).compile_eq]
  rfl

/-- A template that is active can be made active again, and if the fields are up
to date nothing that is compiled changes by it. -/
theorem UpToDate.exists_reactivated (hdate : s.UpToDate) (hs : s.WellFormed)
    (hset : s.active.isSome = true) :
    ∃ active s', s.active = some active ∧
      (Request.setActive active).perform s = (.ok (), s') ∧
      ∀ canvas? asset, ∃ text,
        s.compile canvas? asset = .ok text ∧
          s'.compile canvas? asset = .ok text := by
  obtain ⟨active, hactive⟩ := Option.isSome_iff_exists.mp hset
  have hcontains := hs.active active hactive
  obtain ⟨t, ht⟩ := Library.exists_get? hcontains
  obtain ⟨s', hagain, hactivates⟩ :=
    Request.exists_setActive hs.workspace.linked hcontains
  refine ⟨active, s', hactive, hagain, fun canvas? asset => ?_⟩
  obtain ⟨text, htext⟩ := hs.exists_compile hactive canvas? asset
  exact ⟨text, htext, hdate.compile_eq hactive ht hactivates canvas?
    asset ▸ htext⟩

/-- What is compiled is what the rules of the active template say: the same as
after making the template active again. It is so after every run of requests
from one that makes a template active, if they do not set fields and edit only
layers that have their fields to themselves. -/
theorem compile_eq_reactivated (settings : Settings) (ops : List Operation)
    (reqs more : List Request) {id : String}
    (hid : (reached settings ops reqs).workspace.library.contains id = true)
    (hmore : Each Request.FollowsRules
      (reached settings ops (reqs ++ [.setActive id])) more) :
    ∃ active s',
      (reached settings ops (reqs ++ .setActive id :: more)).active =
        some active ∧
        (Request.setActive active).perform
          (reached settings ops (reqs ++ .setActive id :: more)) =
            (.ok (), s') ∧
        ∀ canvas? asset, ∃ text,
          (reached settings ops (reqs ++ .setActive id :: more)).compile
            canvas? asset = .ok text ∧ s'.compile canvas? asset = .ok text := by
  obtain ⟨s, hset, hactivates⟩ :=
    Request.exists_setActive
      (wellFormed_reached settings ops reqs).workspace.linked hid
  have hs := wellFormed_reached settings ops (reqs ++ [.setActive id])
  have hfirst : reached settings ops (reqs ++ [.setActive id]) = s := by
    rw [reached_append]
    exact congrArg Prod.snd hset
  rw [hfirst] at hs hmore
  have hkeeps := hs.keeps_run more
  have hdate := hactivates.isSeeded.upToDate.run hs hmore
  rw [List.append_cons, reached_append, hfirst]
  refine hdate.exists_reactivated hkeeps.wellFormed (hkeeps.active ?_)
  rw [hactivates.active]
  rfl

/-- A note beside the title that comes and goes again, while the title
changes. -/
def announcing : List Request :=
  [.addLayer ⟨"note", .text { TextLayer.ofField "" (.px 32) with
    defaultValue := "Today" }⟩,
    .setProperty "title" .fieldName (.text "Headline"),
    .setProperty "title" .defaultValue (.text "Now"), .deleteLayer "note"]

theorem announcing_compile_eq_reactivated :
    (reached .default saleRun []).workspace.library.contains "tall" = true ∧
      Each Request.FollowsRules (reached .default saleRun [.setActive "tall"])
        announcing ∧
      ∃ active s',
        (reached .default saleRun (.setActive "tall" :: announcing)).active =
          some active ∧
          (Request.setActive active).perform
            (reached .default saleRun (.setActive "tall" :: announcing)) =
              (.ok (), s') ∧
          ∀ canvas? asset, ∃ text,
            (reached .default saleRun (.setActive "tall" :: announcing)).compile
              canvas? asset =
              .ok text ∧ s'.compile canvas? asset = .ok text := by
  have hid : (reached .default saleRun []).workspace.library.contains "tall" =
      true := by
    decide +kernel
  have hmore : Each Request.FollowsRules
      (reached .default saleRun [.setActive "tall"]) announcing := by
    decide +kernel
  exact ⟨hid, hmore, compile_eq_reactivated .default saleRun [] announcing
    hid hmore⟩

/-- The title goes, and another one comes. -/
def retitling : List Request :=
  [.deleteLayer "title", .addLayer (title "Now")]

/-- A title that takes the place of another is shown as the one that is gone. -/
theorem not_compile_eq_reactivated :
    ¬ ∀ (settings : Settings) (ops : List Operation) (reqs more : List Request)
      (id : String),
      (reached settings ops reqs).workspace.library.contains id = true →
      Each (fun s _ req => req.SparesFields s)
        (reached settings ops (reqs ++ [.setActive id])) more →
      ∃ active s',
        (reached settings ops (reqs ++ .setActive id :: more)).active =
          some active ∧
          (Request.setActive active).perform
            (reached settings ops (reqs ++ .setActive id :: more)) =
              (.ok (), s') ∧
          ∀ canvas? asset,
            (reached settings ops (reqs ++ .setActive id :: more)).compile
              canvas? asset = s'.compile canvas? asset := by
  intro h
  obtain ⟨active, s', hactive, hset, hsame⟩ :=
    h .default saleRun [] retitling "wide" (by decide +kernel)
      (by decide +kernel)
  replace hsame := hsame none "shop/shoe"
  rw [List.nil_append] at hactive hset hsame
  have hlinked := (wellFormed_reached .default saleRun
    (.setActive "wide" :: retitling)).workspace.linked
  have hwide :
      (reached .default saleRun (.setActive "wide" :: retitling)).active =
        some "wide" := by
      decide +kernel
  have ht : (reached .default saleRun
      (.setActive "wide" :: retitling)).workspace.library.get? "wide" =
        some (poster "wide" "Now") := by
    decide +kernel
  have hfields :
      (reached .default saleRun (.setActive "wide" :: retitling)).fields =
        .ofCatalog (.ofTemplate (poster "wide" "Sale")) := by
      decide +kernel
  have hsettings :
      (reached .default saleRun (.setActive "wide" :: retitling)).settings =
        .default := by
      decide +kernel
  rw [hwide, Option.some.injEq] at hactive
  subst hactive
  obtain ⟨s₁, hagain, hactivates⟩ :=
    Request.exists_setActive hlinked (Library.contains_of_get? ht)
  rw [hset, Prod.mk.injEq] at hagain
  rw [hagain.2, hactivates.compile_eq ht, compile, plan,
    activeTemplate_eq hwide ht, hfields, hsettings] at hsame
  replace hsame := Except.ok.inj hsame
  unfold Plan.compile at hsame
  rw [drawOrder_poster] at hsame
  revert hsame
  decide +kernel

end Session

end Placard
