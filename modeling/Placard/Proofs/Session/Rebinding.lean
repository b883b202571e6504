import Placard.Proofs.Session.FieldEdits
import Placard.Proofs.Session.Following

/-!
# Binding a field and releasing it again

To bind a field and release it right away gives its entry back as it was, so
nothing that is compiled changes. That is so where there is an entry. A field of
which nothing has been said has none, and what a text layer shows is what it
says itself; to bind the field makes an entry for it, with an empty literal, and
after its release that is what every layer of the field shows. So what is
compiled stays as it is exactly where something has been said of the field, or
its layers say nothing either.
-/

namespace Placard

namespace Bindings

variable {bs bs' : Bindings} {t : Template} {field : String}

/-- Something has been said of the field, or the text layers that have it say
nothing. -/
def Knows (bs : Bindings) (t : Template) (field : String) : Prop :=
  bs.contains field = true ∨ ∀ e ∈ t.textLayers, e.2.field e.1 = field →
    Binding.ofLayer field e.2 = Binding.ofLiteral field ""

instance (bs : Bindings) (t : Template) (field : String) :
    Decidable (bs.Knows t field) :=
  inferInstanceAs (Decidable (_ ∨ _))

theorem loose_of_resolve {key : String} {text : TextLayer}
    (h : (bs.resolve key text).isMetadataBound = false) :
    (bs.getOrEmpty (text.field key)).isMetadataBound = false := by
  rw [resolve] at h
  rw [getOrEmpty]
  cases hget : bs.get? (text.field key) with
  | none => rfl
  | some b =>
      rw [hget] at h
      exact h

/-- The text layers are given what they were before the field became the literal
that it was already, if the field is known. -/
theorem alike_of_literal (h : bs.Sound)
    (hloose : (bs.getOrEmpty field).isMetadataBound = false)
    (hshows : bs'.get? field =
      some (Binding.ofLiteral field (bs.getOrEmpty field).currentLiteral))
    (hothers : ∀ other, other ≠ field → bs'.get? other = bs.get? other) :
    Alike t bs bs' ↔ bs.Knows t field := by
  have hresolve (key : String) (text : TextLayer)
      (hne : text.field key ≠ field) :
      bs.resolve key text = bs'.resolve key text := by
    rw [resolve, resolve, hothers _ hne]
  rw [getOrEmpty] at hloose hshows
  cases hget : bs.get? field with
  | some b =>
      rw [hget, Option.getD_some] at hloose hshows
      refine iff_of_true (fun key text _ => ?_)
        (Or.inl (by rw [Table.contains, hget]; rfl))
      by_cases hfield : text.field key = field
      · rw [resolve, resolve, hfield, hshows, hget,
          ← (h field b hget).eq_ofLiteral hloose]
      · exact hresolve key text hfield
  | none =>
      rw [hget, Option.getD_none] at hshows
      have hunsaid : ¬ bs.contains field = true := by
        rw [Table.contains, hget]
        exact Bool.false_ne_true
      rw [Knows, or_iff_right hunsaid]
      constructor
      · rintro halike ⟨key, text⟩ hmem rfl
        have hsame := halike key text hmem
        rwa [resolve, resolve, hget, hshows] at hsame
      · intro hsilent key text hmem
        by_cases hfield : text.field key = field
        · rw [resolve, resolve, hfield, hget, hshows]
          exact hsilent (key, text) hmem hfield
        · exact hresolve key text hfield

end Bindings

namespace Session

variable {s : Session} {t : Template} {field : String}

theorem compile_of_active (ht : s.activeTemplate = .ok t)
    (canvas? : Option Size) (asset : String) :
    s.compile canvas? asset = .ok (Plan.compile s.settings.compiler t s.fields
      (canvas?.getD t.canvas) asset).transformation := by
  rw [compile, plan, ht]
  rfl

theorem activeTemplate_rebound (ht : s.activeTemplate = .ok t)
    (bound fields : Bindings) :
    ((s.rebound bound).rebound fields).activeTemplate = .ok t :=
  ht

/-- A field that is not bound can be bound and released again; it then has an
entry with the literal that it had, or with none. -/
theorem exists_rebound (hsound : s.fields.Sound)
    (hfield : field ≠ backgroundField) (key : String)
    (hloose : (s.fields.getOrEmpty field).isMetadataBound = false) :
    ∃ s₁ s₂, (Request.bindField field key).perform s = (.ok (), s₁) ∧
      (Request.unbindField field).perform s₁ = (.ok (), s₂) ∧
      s₂.activeTemplate = s.activeTemplate ∧ s₂.settings = s.settings ∧
      s₂.fields.get? field =
        some (Binding.ofLiteral field
          (s.fields.getOrEmpty field).currentLiteral) ∧
      ∀ other, other ≠ field → s₂.fields.get? other = s.fields.get? other := by
  obtain ⟨bound, hbind, hsound', hremembers, hothers⟩ :=
    hsound.exists_bind hfield key hloose
  obtain ⟨fields, hreleases⟩ := hsound'.exists_releases hremembers s.catalog
  refine ⟨s.rebound bound, (s.rebound bound).rebound fields, ?_, ?_, rfl, rfl,
    hreleases.shows, fun other hne => ?_⟩
  · exact (perform_bindField s field key).trans (congrArg s.changed hbind)
  · exact (perform_unbindField (s.rebound bound) field).trans
      (congrArg (s.rebound bound).changed hreleases.released)
  · exact (hreleases.others other hne).trans (hothers other hne)

/-- The field of a text layer that is not bound can be bound to any key and
released again. Every text layer is then given what it was given before exactly
if something has been said of the field or its layers say nothing of it; and
then everything that is compiled is as before. -/
theorem compile_eq_rebound (settings : Settings) (ops : List Operation)
    (reqs : List Request) {t : Template} {layer : String} {text : TextLayer}
    (ht : (reached settings ops reqs).activeTemplate = .ok t)
    (hfield : text.field layer ≠ backgroundField)
    (hloose : ((reached settings ops reqs).fields.resolve layer
      text).isMetadataBound = false)
    (key : String) :
    ∃ s₁ s₂,
      (Request.bindField (text.field layer) key).perform
        (reached settings ops reqs) = (.ok (), s₁) ∧
        (Request.unbindField (text.field layer)).perform s₁ = (.ok (), s₂) ∧
        (Bindings.Alike t (reached settings ops reqs).fields s₂.fields ↔
          (reached settings ops reqs).fields.Knows t (text.field layer)) ∧
        ((reached settings ops reqs).fields.Knows t (text.field layer) →
          ∀ canvas? asset, ∃ out, (reached settings ops reqs).compile canvas?
            asset = .ok out ∧
            s₂.compile canvas? asset = .ok out) := by
  have hsound := (reachable_fields settings ops reqs).sound
  have hloose := Bindings.loose_of_resolve hloose
  obtain ⟨s₁, s₂, hbind, hrelease, hactive, hsettings, hshows, hothers⟩ :=
    exists_rebound hsound hfield key hloose
  have halike : Bindings.Alike t (reached settings ops reqs).fields s₂.fields ↔
      _ :=
    Bindings.alike_of_literal hsound hloose hshows hothers
  refine ⟨s₁, s₂, hbind, hrelease, halike, fun hknows canvas? asset => ?_⟩
  rw [compile_of_active ht, compile_of_active (hactive.trans ht), hsettings,
    (halike.mpr hknows).compile_eq]
  exact ⟨_, rfl, rfl⟩

/-- The text layer of a poster. -/
def headline (literal : String) : TextLayer :=
  { TextLayer.ofField "Title" (.px 32) with defaultValue := literal }

/-- A poster is given another title. -/
def retold : List Request := [.setActive "tall", .setField "Title" "Now"]

theorem retold_compile_eq_rebound :
    (reached .default saleRun retold).activeTemplate =
      .ok (poster "tall" "Sale") ∧
      ((reached .default saleRun retold).fields.resolve "title"
        (headline "Sale")).isMetadataBound = false ∧
      ∃ s₁ s₂,
        (Request.bindField "Title" "shop/title").perform
          (reached .default saleRun retold) = (.ok (), s₁) ∧
        (Request.unbindField "Title").perform s₁ = (.ok (), s₂) ∧
        ∀ canvas? asset, ∃ out,
          (reached .default saleRun retold).compile canvas? asset = .ok out ∧
            s₂.compile canvas? asset = .ok out := by
  have ht : (reached .default saleRun retold).activeTemplate =
    .ok (poster "tall" "Sale") := rfl
  have hfield : (headline "Sale").field "title" = "Title" := by decide +kernel
  have hloose : ((reached .default saleRun retold).fields.resolve "title"
      (headline "Sale")).isMetadataBound = false := by
    decide +kernel
  have hknows :
      (reached .default saleRun retold).fields.Knows (poster "tall" "Sale")
        "Title" := by
      decide +kernel
  obtain ⟨s₁, s₂, hbind, hrelease, -, hsame⟩ :=
    compile_eq_rebound .default saleRun retold ht (by decide +kernel) hloose
      "shop/title"
  rw [hfield] at hbind hrelease hsame
  exact ⟨ht, hloose, s₁, s₂, hbind, hrelease, hsame hknows⟩

/-- A poster gets its title while it is active. -/
def titled : List Request := [.setActive "wide", .addLayer (title "Sale")]

/-- A title that is added to a template that is active loses its text when its
field is bound and released. -/
theorem titled_compile_ne_rebound :
    ¬ ∀ (settings : Settings) (ops : List Operation) (reqs : List Request)
      (t : Template) (layer : String) (text : TextLayer) (key : String),
      (reached settings ops reqs).activeTemplate = .ok t →
        (layer, text) ∈ t.textLayers →
      text.field layer ≠ backgroundField →
      ((reached settings ops reqs).fields.resolve layer text).isMetadataBound =
        false →
      ∃ s₁ s₂,
        (Request.bindField (text.field layer) key).perform
          (reached settings ops reqs) = (.ok (), s₁) ∧
          (Request.unbindField (text.field layer)).perform s₁ = (.ok (), s₂) ∧
          ∀ canvas? asset,
            (reached settings ops reqs).compile canvas? asset =
              s₂.compile canvas? asset := by
  intro h
  obtain ⟨s, hs⟩ : ∃ s,
      s = reached .default [.register (.ofCanvas "wide" 500 500)] titled :=
    ⟨_, rfl⟩
  have ht : s.activeTemplate = .ok (poster "wide" "Sale") := hs ▸ rfl
  have hfield : (headline "Sale").field "title" = "Title" := by decide +kernel
  have hloose : (s.fields.resolve "title" (headline "Sale")).isMetadataBound =
      false := by
    subst hs
    decide +kernel
  have hne : ∀ bound, s.fields.bindMetadata "Title" "shop/title" = .ok bound →
      ∀ fields, bound.unbind "Title" s.catalog = .ok fields →
        (Plan.compile s.settings.compiler (poster "wide" "Sale") s.fields
            (poster "wide" "Sale").canvas "bag").transformation ≠
          (Plan.compile s.settings.compiler (poster "wide" "Sale") fields
            (poster "wide" "Sale").canvas "bag").transformation := by
    unfold Plan.compile
    rw [drawOrder_poster, hs]
    decide +kernel
  obtain ⟨s₁, s₂, hbind, hrelease, hsame⟩ :=
    h .default [.register (.ofCanvas "wide" 500 500)] titled
      (poster "wide" "Sale") "title"
      (headline "Sale") "shop/title" (hs ▸ ht) (by decide +kernel)
      (by decide +kernel)
      (hs ▸ hloose)
  rw [← hs, hfield] at hbind
  rw [hfield] at hrelease
  obtain ⟨bound, hbound, rfl⟩ := rebound_of_bindField hbind
  obtain ⟨fields, hfields, rfl⟩ := rebound_of_unbindField hrelease
  replace hsame := hsame none "bag"
  rw [← hs, compile_of_active ht,
    compile_of_active (activeTemplate_rebound ht bound fields),
    Option.getD_none] at hsame
  exact hne bound hbound fields hfields (Except.ok.inj hsame)

end Session

end Placard
