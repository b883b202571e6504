import Placard.Proofs.Session.FieldEdits
import Placard.Proofs.Session.Following
import Placard.Proofs.Wire.LookUps

/-!
# The field of the background

The background cannot be bound to metadata, and a request to bind it is refused.
But its name is a name like any other, and a text layer may have a field of that
name. Where fields start again from what layers say, nobody asks for names, so a
layer that has the field of the background and a key of its own gets the
background bound. There is no other way. As long as no field starts again from
such a layer, the background is a literal in every session, and no plan of a
session looks it up.
-/

namespace Placard

/-! ## What binds the background -/

namespace FieldEdit

/-- The field starts again, and is bound from the start. -/
def SeedsBound (field : String) : FieldEdit → Prop
  | restart c =>
    ∃ b ∈ (Bindings.ofCatalog c).get? field, b.isMetadataBound = true
  | reseed key text =>
    text.field key = field ∧ (Binding.ofLayer field text).isMetadataBound = true
  | setLiteral _ _ | bind _ _ | release _ _ => False

instance (field : String) : (e : FieldEdit) → Decidable (e.SeedsBound field)
  | restart c => inferInstanceAs
      (Decidable (∃ b ∈ (Bindings.ofCatalog c).get? field,
        b.isMetadataBound = true))
  | reseed key text => inferInstanceAs
      (Decidable (text.field key = field ∧
        (Binding.ofLayer field text).isMetadataBound = true))
  | setLiteral _ _ | bind _ _ | release _ _ => .isFalse id

/-- The background is bound if it starts so, or has been and stays so. -/
theorem background_bound_iff (e : FieldEdit) (b? : Option Binding) :
    (∃ b ∈ e.on backgroundField b?, b.isMetadataBound = true) ↔
      e.SeedsBound backgroundField ∨
        e.Spares backgroundField ∧ ∃ b ∈ b?, b.isMetadataBound = true := by
  cases e with
  | setLiteral other value =>
      simp only [on, SeedsBound, Spares, false_or, true_and]
      split
      · cases b? with
        | none => simp [Binding.ofLiteral]
        | some b => simp
      · exact Iff.rfl
  | bind other key =>
      simp only [on, SeedsBound, Spares, false_or, true_and, ne_eq,
        not_true_eq_false, and_false, if_false]
  | release other c =>
      simp only [on, SeedsBound, Spares, false_or]
      split
      · next h => simp [h, Binding.isMetadataBound_released]
      · next h => simp [h]
  | restart c => simp only [on, SeedsBound, Spares, false_and, or_false]
  | reseed key text =>
      simp only [on, SeedsBound, Spares]
      split
      · next h => simp [h]
      · next h => simp [h]

/-- An edit takes no field away, unless all start again. -/
theorem isSome_on {field : String} {b? : Option Binding} {e : FieldEdit}
    (h : b?.isSome = true)
    (hrestart : ∀ c, e = restart c →
      ((Bindings.ofCatalog c).get? field).isSome = true) :
    (e.on field b?).isSome = true := by
  cases e with
  | restart c => exact hrestart c rfl
  | setLiteral _ _ | bind _ _ | reseed _ _ =>
      rw [on]
      split
      · rfl
      · exact h
  | release _ _ =>
      rw [on]
      split
      · rwa [Option.isSome_map]
      · exact h

end FieldEdit

theorem Bindings.background_run {bs : Bindings} {edits : List FieldEdit}
    (h : ∀ b ∈ bs.get? backgroundField, b.isMetadataBound = false)
    (hedits : ∀ e ∈ edits, ¬ e.SeedsBound backgroundField) :
    ∀ b ∈ (bs.run edits).get? backgroundField, b.isMetadataBound = false := by
  induction edits generalizing bs with
  | nil => exact h
  | cons e rest ih =>
      obtain ⟨hfirst, hrest⟩ := List.forall_mem_cons.mp hedits
      refine ih (fun b hb => Bool.eq_false_iff.mpr fun hbound => ?_) hrest
      rw [get?_edit] at hb
      obtain ⟨-, b₀, hb₀, hbound₀⟩ :=
        ((FieldEdit.background_bound_iff e _).mp ⟨b, hb, hbound⟩).resolve_left
          hfirst
      rw [h b₀ hb₀] at hbound₀
      cases hbound₀

theorem Bindings.isSome_run {bs : Bindings} {field : String}
    {edits : List FieldEdit} (h : (bs.get? field).isSome = true)
    (hedits : ∀ c, .restart c ∈ edits →
      ((ofCatalog c).get? field).isSome = true) :
    ((bs.run edits).get? field).isSome = true := by
  induction edits generalizing bs with
  | nil => exact h
  | cons e rest ih =>
      refine ih ?_ fun c hc => hedits c (List.mem_cons_of_mem _ hc)
      rw [get?_edit]
      exact FieldEdit.isSome_on h fun c hc => hedits c (hc ▸ List.mem_cons_self)

/-- Every template has a background, so what it says of the fields says
something of that one. -/
theorem Template.isSome_background (t : Template) :
    ((Bindings.ofCatalog (.ofTemplate t)).get? backgroundField).isSome =
      true := by
  rw [get?_seeded, if_pos rfl]
  cases t.seed? backgroundField <;> rfl

/-! ## Sessions -/

namespace Session

variable {s s' : Session} {req : Request}

/-- The field of the background does not start again with the request, or it is
not bound from the start. -/
def Request.SparesBackground (s s' : Session) (req : Request) : Prop :=
  ∀ e ∈ req.fieldEdits s s', ¬ e.SeedsBound backgroundField

instance (s s' : Session) (req : Request) :
    Decidable (req.SparesBackground s s') :=
  inferInstanceAs (Decidable (∀ e ∈ req.fieldEdits s s', _))

theorem mem_restarts {e : FieldEdit} (h : e ∈ s.restarts) :
    ∃ t, e = .restart (.ofTemplate t) := by
  unfold restarts at h
  split at h
  · exact ⟨_, List.mem_singleton.mp h⟩
  · cases h

theorem not_mem_reseeds {c : Catalog} {layer? : Option String} :
    .restart c ∉ s.reseeds layer? := by
  intro h
  unfold reseeds at h
  split at h
  · cases h
  · split at h
    · obtain ⟨text, -, heq⟩ :=
        Option.map_eq_some_iff.mp (Option.mem_toList.mp h)
      cases heq
    · cases h

theorem restart_of_fieldEdits {c : Catalog}
    (h : .restart c ∈ req.fieldEdits s s') : ∃ t, c = .ofTemplate t := by
  have hrestarts (h : .restart c ∈ s'.restarts) : ∃ t, c = .ofTemplate t := by
    obtain ⟨t, ht⟩ := mem_restarts h
    exact ⟨t, FieldEdit.restart.inj ht⟩
  cases req with
  | setActive id => exact hrestarts h
  | createChild id? generated canvas? => exact hrestarts h
  | removeChild id =>
      rw [Request.fieldEdits] at h
      split at h
      · exact hrestarts h
      · cases h
  | setProperty layer p v => exact absurd h not_mem_reseeds
  | resetProperty layer p => exact absurd h not_mem_reseeds
  | resetLayer key =>
      have hreseeds : .restart c ∈ s'.reseeds (some key) := h
      exact absurd hreseeds not_mem_reseeds
  | setField field value => cases List.mem_singleton.mp h
  | bindField field key => cases List.mem_singleton.mp h
  | unbindField field => cases List.mem_singleton.mp h
  | addLayer l | deleteLayer key | setToggles toggles | poll time asset
  | clock time => cases h

/-- A template is active before a request if one is afterwards, or all fields
have started again. -/
theorem active_of_perform (hs : s.WellFormed)
    (hdone : req.perform s = (.ok (), s')) {t' : Template}
    (ht' : s'.activeTemplate = .ok t') :
    s'.Seeded ∨ ∃ t, s.activeTemplate = .ok t := by
  have hedits {op : Operation} {layer? : Option String}
      (h : s.Edits op layer? s') : ∃ t, s.activeTemplate = .ok t := by
    obtain ⟨t, _, ht, -⟩ := h.rewrites
    exact ⟨t, ht⟩
  cases answers_of_perform hs hdone with
  | setActive h => exact Or.inl h.isSeeded
  | createChild _ hseeded | removeActive _ hseeded => exact Or.inl hseeded
  | removeOther _ hactive => exact Or.inr ⟨t', hactive ▸ ht'⟩
  | setProperty h | resetProperty h | addLayer h | deleteLayer h
  | resetLayer h =>
      exact Or.inr (hedits h)
  | setField h =>
      rcases h.rewrites with hsame | ⟨_, _, _, _, t, _, ht, -⟩
      · exact Or.inr ⟨t', hsame ▸ ht'⟩
      · exact Or.inr ⟨t, ht⟩
  | bindField =>
      obtain ⟨fields, -, rfl⟩ := rebound_of_bindField hdone
      exact Or.inr ⟨t', ht'⟩
  | unbindField =>
      obtain ⟨fields, -, rfl⟩ := rebound_of_unbindField hdone
      exact Or.inr ⟨t', ht'⟩
  | setToggles | poll | clock => exact Or.inr ⟨t', ht'⟩

/-- The field of the background is not bound, and while a template is active it
is there. -/
structure PlainBackground (s : Session) : Prop where
  loose : ∀ b ∈ s.fields.get? backgroundField, b.isMetadataBound = false
  known : ∀ t, s.activeTemplate = .ok t →
    (s.fields.get? backgroundField).isSome = true

theorem PlainBackground.answered (h : s.PlainBackground) (hs : s.WellFormed)
    (hdone : req.perform s = (.ok (), s')) (hreq : req.SparesBackground s s') :
    s'.PlainBackground := by
  have hfields := fields_perform hs hdone
  refine ⟨hfields ▸ Bindings.background_run h.loose hreq, fun t' ht' => ?_⟩
  rcases active_of_perform hs hdone ht' with ⟨t, -, hseeded⟩ | ⟨t, ht⟩
  · exact hseeded ▸ t.isSome_background
  · rw [hfields]
    refine Bindings.isSome_run (h.known t ht) fun c hc => ?_
    obtain ⟨u, rfl⟩ := restart_of_fieldEdits hc
    exact u.isSome_background

theorem PlainBackground.run (h : s.PlainBackground) (hs : s.WellFormed)
    {reqs : List Request} (hreqs : Each Request.SparesBackground s reqs) :
    (s.run reqs).PlainBackground :=
  hreqs.run_induct (fun hs hdone hreq h => h.answered hs hdone hreq) hs h

theorem plainBackground_start (settings : Settings) (lib : Library) :
    (start settings lib).PlainBackground where
  loose := fun _ h => by cases h
  known := fun _ h => by cases h

/-- The plan of such a session looks the background up nowhere. -/
theorem PlainBackground.not_looked_up (h : s.PlainBackground)
    (hs : s.WellFormed) {t : Template} (ht : s.activeTemplate = .ok t)
    {v : Variable} (hv : t.variables.get? backgroundField = some v)
    {canvas : Size} {asset : String} :
    ∀ seg ∈ (Plan.compile s.settings.compiler t s.fields canvas asset).segments,
      seg.kind = .definition → ∀ key,
        seg.instruction? ≠ some (.lookUp v.scratchRegister key) := by
  intro seg hseg hkind key hread
  obtain ⟨layer, text, -, hfield, hlooks, -⟩ :=
    Plan.exists_looksUp (hs.distinctKeys ht) hseg hkind hread hv
  obtain ⟨b, hb⟩ := Option.isSome_iff_exists.mp (h.known t ht)
  rw [Bindings.resolve, hfield, hb, Option.getD_some, Binding.looksUp,
    h.loose b hb, Bool.false_and] at hlooks
  cases hlooks

/-- The background is never bound, and never looked up by a plan of the session,
unless a field of its name starts again from a text layer that has a key. -/
theorem background_not_bound (settings : Settings) (ops : List Operation)
    (reqs : List Request)
    (hreqs : Each Request.SparesBackground
      (start settings (Workspace.empty.run ops).library) reqs) :
    (∀ b ∈ (reached settings ops reqs).fields.get? backgroundField,
        b.isMetadataBound = false) ∧
      ∀ canvas? asset t p v,
        (reached settings ops reqs).activeTemplate = .ok t →
        (reached settings ops reqs).plan canvas? asset = .ok p →
        t.variables.get? backgroundField = some v →
        ∀ seg ∈ p.segments, seg.kind = .definition → ∀ key,
          seg.instruction? ≠ some (.lookUp v.scratchRegister key) := by
  have hs := wellFormed_start (Workspace.wellFormed_empty.run ops) settings
  have hplain := (plainBackground_start settings _).run hs hreqs
  refine ⟨hplain.loose, fun canvas? asset t p v ht hp hv => ?_⟩
  rw [plan, ht] at hp
  cases hp
  exact hplain.not_looked_up (wellFormed_reached settings ops reqs) ht hv

/-- A text that has the field of the background. -/
def backdrop (key? : Option String) : Layer :=
  ⟨"backdrop", .text { TextLayer.ofField backgroundField (.px 32) with
    metadataKey := key? }⟩

/-- A text gets the field of the background, and the background is given a
colour and a key, which is refused. -/
def backdropRun : List Request :=
  [.setActive "wide", .addLayer (backdrop none),
    .bindField "Title" "shop/title", .setField backgroundField "#336699",
    .bindField backgroundField "shop/sky"]

theorem backdropRun_background_not_bound :
    Each Request.SparesBackground
      (start .default (Workspace.empty.run saleRun).library) backdropRun ∧
      (∀ b ∈ (reached .default saleRun backdropRun).fields.get? backgroundField,
        b.isMetadataBound = false) ∧
      ∀ canvas? asset t p v,
        (reached .default saleRun backdropRun).activeTemplate = .ok t →
        (reached .default saleRun backdropRun).plan canvas? asset = .ok p →
        t.variables.get? backgroundField = some v →
        ∀ seg ∈ p.segments, seg.kind = .definition → ∀ key,
          seg.instruction? ≠ some (.lookUp v.scratchRegister key) := by
  have hreqs : Each Request.SparesBackground
      (start .default (Workspace.empty.run saleRun).library) backdropRun := by
    decide +kernel
  exact ⟨hreqs, background_not_bound .default saleRun backdropRun hreqs⟩

/-- A template whose background has a key, since a text has its field. -/
def skyline : Template :=
  { Template.ofCanvas "wide" 500 500 with
    layers := [backdrop (some "shop/sky")] }

/-- Where the text that has the field of the background has a key, the
background is bound as soon as the template is active. -/
theorem backdrop_bound :
    ¬ ∀ (settings : Settings) (ops : List Operation) (reqs : List Request),
      ∀ b ∈ (reached settings ops reqs).fields.get? backgroundField,
        b.isMetadataBound = false := by
  intro h
  have hbound :
      (reached .default [.register skyline] [.setActive "wide"]).fields.get?
        backgroundField = some ⟨backgroundField, "", true, "shop/sky",
          none⟩ := by
      decide +kernel
  cases h .default [.register skyline] [.setActive "wide"] _ hbound

end Session

end Placard
