import Placard.Proofs.Family.Rewriting
import Placard.Proofs.Family.WellFormed
import Placard.Session.Basic

/-!
# What a session is asked, and that it does it or nothing

A request to a session may come down to several acts: a child is made and then
made active, a property is written and then the field that it belongs to seeded
anew. The later acts can fail as well, and nothing takes back what the earlier
ones did. That they do not fail is due to two things: the workspace is
well-formed, and the template that is active is in it. Both are so in a new
session, and every request keeps them.
-/

namespace Placard

namespace Session

/-! ## Steps of acts -/

section Acts

variable {α : Type} {s : Session} {good : α → Session → Prop}
  {bad : SessionError → Session → Prop}

theorem ends_edit {e : Edit α} :
    Ends (edit e) s good bad ↔
      Ends e s.workspace (fun a w => good a { s with workspace := w })
        fun err w => bad (.edit err) { s with workspace := w } := by
  have hrun : (e.run.run s.workspace : Except EditError α × Workspace) =
      outcome e s.workspace := rfl
  unfold edit
  rw [ends_bind, ends_get, hrun]
  unfold Ends
  generalize outcome e s.workspace = ended
  obtain ⟨_ | _, w⟩ := ended <;> exact Iff.rfl

theorem ends_activeId {good : String → Session → Prop} :
    Ends activeId s good bad ↔
      (∀ id, s.active = some id → good id s) ∧
        (s.active = none → bad .noActiveTemplate s) := by
  unfold activeId
  rw [ends_bind, ends_get]
  cases hid : s.active with
  | some id => simp [ends_pure]
  | none => simp [ends_throw]

theorem ends_setFields {fields : Bindings} {good : Unit → Session → Prop} :
    Ends (setFields fields) s good bad ↔ good () { s with fields := fields } :=
  Iff.rfl

theorem ends_setCatalog {catalog : Catalog} {good : Unit → Session → Prop} :
    Ends (setCatalog catalog) s good bad ↔
      good () { s with catalog := catalog } :=
  Iff.rfl

end Acts

/-! ## Sessions as they should be -/

/-- The workspace is well-formed, and what is active is in its library. -/
structure WellFormed (s : Session) : Prop where
  workspace : s.workspace.WellFormed
  active : ∀ id, s.active = some id → s.workspace.library.contains id = true

variable {s s' : Session}

/-- What every request keeps that succeeds. -/
structure Keeps (s s' : Session) : Prop where
  wellFormed : s'.WellFormed
  active : s.active.isSome → s'.active.isSome
  settings : s'.settings = s.settings

theorem Keeps.congr {s₁ : Session} (h : s.Keeps s₁)
    (hworkspace : s'.workspace = s₁.workspace)
    (hactive : s'.active = s₁.active) (hsettings : s'.settings = s₁.settings) :
    s.Keeps s' where
  wellFormed := {
    workspace := hworkspace ▸ h.wellFormed.workspace
    active :=
      fun id hid => hworkspace ▸ h.wellFormed.active id (hactive ▸ hid) }
  active := fun hset => hactive ▸ h.active hset
  settings := hsettings.trans h.settings

theorem WellFormed.keeps_of_same (hs : s.WellFormed)
    (hworkspace : s'.workspace = s.workspace) (hactive : s'.active = s.active)
    (hsettings : s'.settings = s.settings) : s.Keeps s' :=
  Keeps.congr ⟨hs, fun h => h, rfl⟩ hworkspace hactive hsettings

/-! ## What is done to the active template and its fields -/

/-- The fields with that of a layer of the template seeded anew, if it is a
text. -/
def reseeded (t : Template) (fields : Bindings) : Option String → Bindings
  | none => fields
  | some layer =>
    match t.textLayer? layer with
    | some text => fields.reseed layer text
    | none => fields

/-- The template is active, and its fields start from what it says itself. -/
structure Activates (s : Session) (id : String) (s' : Session) : Prop where
  seeded : ∃ t, s.workspace.library.get? id = some t ∧
    s'.fields = .ofCatalog (.ofTemplate t)
  workspace : s'.workspace = s.workspace
  active : s'.active = some id
  settings : s'.settings = s.settings
  toggles : s'.toggles = s.toggles

/-- The templates are as they were, and the field of a layer of the active one
is seeded anew, or none. -/
structure Seeds (s : Session) (layer? : Option String) (s' : Session) :
    Prop where
  workspace : s'.workspace = s.workspace
  active : s'.active = s.active
  settings : s'.settings = s.settings
  fields : ∀ t, s.activeTemplate = .ok t →
    s'.fields = reseeded t s.fields layer?

/-- The active template is rewritten as by the operation, and then the field of
a layer of it is seeded anew, or none. -/
structure Edits (s : Session) (op : Operation) (layer? : Option String)
    (s' : Session) : Prop where
  keeps : s.Keeps s'
  active : s'.active = s.active
  effect : Effect s.workspace op s'.workspace
  rewrites : ∃ t t', s.activeTemplate = .ok t ∧ s'.activeTemplate = .ok t' ∧
    op.Rewrites t t' ∧ s'.fields = reseeded t' s.fields layer?

theorem activeTemplate_eq {id : String} {t : Template}
    (hid : s.active = some id) (ht : s.workspace.library.get? id = some t) :
    s.activeTemplate = .ok t := by
  simp only [activeTemplate, hid, ht]

theorem activeTemplate_congr (hworkspace : s'.workspace = s.workspace)
    (hactive : s'.active = s.active) :
    s'.activeTemplate = s.activeTemplate := by
  rw [activeTemplate, hworkspace, hactive, activeTemplate]

theorem Activates.contains {id : String} (h : s.Activates id s') :
    s'.workspace.library.contains id = true := by
  obtain ⟨t, ht, -⟩ := h.seeded
  exact h.workspace ▸ Library.contains_of_get? ht

theorem Edits.seed {s₁ : Session} {op : Operation} {layer? : Option String}
    (h : s.Edits op none s₁) (h' : s₁.Seeds layer? s') :
    s.Edits op layer? s' where
  keeps := h.keeps.congr h'.workspace h'.active h'.settings
  active := h'.active.trans h.active
  effect := h'.workspace ▸ h.effect
  rewrites := by
    obtain ⟨t, t', ht, ht', hrewrites, hfields⟩ := h.rewrites
    refine ⟨t, t', ht, ?_, hrewrites, ?_⟩
    · rw [activeTemplate_congr h'.workspace h'.active, ht']
    · rw [h'.fields t' ht', hfields, reseeded]

theorem Seeds.congr {s₁ : Session} {layer? : Option String}
    (h : s.Seeds layer? s₁) (hworkspace : s'.workspace = s₁.workspace)
    (hactive : s'.active = s₁.active) (hsettings : s'.settings = s₁.settings)
    (hfields : s'.fields = s₁.fields) : s.Seeds layer? s' where
  workspace := hworkspace.trans h.workspace
  active := hactive.trans h.active
  settings := hsettings.trans h.settings
  fields := fun t ht => hfields.trans (h.fields t ht)

/-- An edit of the active template that does not remove it. -/
theorem WellFormed.ends_edit {α : Type} (hs : s.WellFormed) {e : Edit α}
    {op : Operation} {active : String}
    (he : Ends e s.workspace (fun _ w' => Effect s.workspace op w') fun _ w' =>
      w' = s.workspace)
    (hactive : s.active = some active) (hop : op.edits? = some active)
    (hstays : ∀ id, op ≠ .removeChild id) :
    Ends (edit e) s (fun _ s' => s.Edits op none s') fun _ s' => s' = s := by
  have hlinked := hs.workspace.linked
  rw [Session.ends_edit]
  refine he.mono (fun _ w' heffect => ?_) fun _ w' h => by rw [h]
  obtain ⟨t, t', ht, ht', hrewrites⟩ :=
    heffect.rewrites hlinked hop (hstays active)
  refine ⟨⟨⟨hs.workspace.effect heffect, fun id hid => ?_⟩, fun h => h, rfl⟩,
    rfl, heffect, t, t',
    activeTemplate_eq hactive ht, activeTemplate_eq hactive ht', hrewrites, rfl⟩
  exact heffect.contains hlinked (hs.active id hid) (hstays id)

/-! ## Requests that make another template active -/

theorem ends_setActive (hlinked : s.workspace.library.Linked) (id : String) :
    Ends (setActive id) s (fun _ s' => s.Activates id s')
      fun _ s' => s.workspace.library.contains id = false ∧ s' = s := by
  unfold setActive
  rw [ends_bind, ends_edit, Edit.ends_template]
  refine ⟨fun t ht => ?_, fun hnone => ⟨Library.get?_eq_none_iff.mp hnone, rfl⟩⟩
  rw [ends_bind, ends_setFields, ends_bind, ends_get]
  dsimp only
  rw [ends_bind, ends_edit, Edit.ends_template]
  refine ⟨fun parent _ => ⟨⟨t, ht, rfl⟩, rfl, rfl, rfl, rfl⟩, fun hnone => ?_⟩
  have hfamily := hlinked.contains_familyOf (Library.contains_of_get? ht)
  rw [Library.get?_eq_none_iff.mp hnone] at hfamily
  cases hfamily

theorem exists_setActive {id : String} (hlinked : s.workspace.library.Linked)
    (hid : s.workspace.library.contains id = true) :
    ∃ s', outcome (setActive id) s = (.ok (), s') ∧ s.Activates id s' := by
  rcases (ends_setActive hlinked id).cases with
    ⟨_, _, _, hnone, -⟩ | ⟨_, s', hdone, h⟩
  · rw [hid] at hnone
    cases hnone
  · exact ⟨s', hdone, h⟩

theorem Activates.keeps {s₁ : Session} {id : String} (h : s₁.Activates id s')
    (hw : s₁.workspace.WellFormed) (hsettings : s₁.settings = s.settings) :
    s.Keeps s' where
  wellFormed := {
    workspace := h.workspace ▸ hw
    active := fun d hd => by
      rw [h.active, Option.some.injEq] at hd
      exact hd ▸ h.contains }
  active := fun _ => by
    rw [h.active]
    rfl
  settings := h.settings.trans hsettings

/-- The fields are what the active template starts them with. -/
def Seeded (s : Session) : Prop :=
  ∃ t, s.activeTemplate = .ok t ∧ s.fields = .ofCatalog (.ofTemplate t)

theorem Activates.isSeeded {id : String} (h : s.Activates id s') :
    s'.Seeded := by
  obtain ⟨t, ht, hfields⟩ := h.seeded
  exact ⟨t, activeTemplate_eq h.active (h.workspace ▸ ht), hfields⟩

theorem ends_createChild (hs : s.WellFormed) (id? : Option String)
    (generated : String) (canvas? : Option Size) :
    Ends (createChild id? generated canvas?) s
      (fun _ s' => s.Keeps s' ∧ s'.Seeded ∧
        ∃ parent, Effect s.workspace (.createChild parent id? generated canvas?)
          s'.workspace)
      fun _ s' => s' = s := by
  unfold createChild
  rw [ends_bind, ends_activeId]
  refine ⟨fun active hactive => ?_, fun _ => rfl⟩
  rw [ends_bind, ends_get]
  dsimp only
  rw [ends_bind, ends_edit]
  refine (Placard.ends_createChild _ id? generated canvas?).mono
    (fun id w' h => ?_) fun e w' h => by rw [h]
  obtain ⟨heffect, t, ht, -⟩ := h
  have hw' := hs.workspace.effect heffect
  rw [ends_bind]
  refine (ends_setActive hw'.linked id).mono
    (fun _ s' h => ⟨h.keeps hw' rfl, h.isSeeded, _,
      by rw [h.workspace]; exact heffect⟩)
    fun _ s' h => ?_
  -- The child that has just been made is there to be made active.
  have hid := h.1
  rw [Library.contains_of_get? ht] at hid
  cases hid

/-- What is removed is not what is active. -/
theorem activeTemplate_of_removed {id : String} {w' : Workspace}
    (h : Effect s.workspace (.removeChild id) w') (hid : s.active ≠ some id) :
    ({ s with workspace := w' } : Session).activeTemplate =
      s.activeTemplate := by
  cases h with
  | removeChild =>
      unfold activeTemplate
      cases hactive : s.active with
      | none => rfl
      | some d =>
          have hne : id ≠ d := fun heq => hid (heq ▸ hactive)
          dsimp only
          rw [Library.get?_detach, if_neg hne]

theorem ends_removeChild (hs : s.WellFormed) (id : String) :
    Ends (removeChild id) s
      (fun _ s' => s.Keeps s' ∧
        Effect s.workspace (.removeChild id) s'.workspace ∧
        (s'.Seeded ∨ s'.activeTemplate = s.activeTemplate ∧
          s'.fields = s.fields))
      fun _ s' => s' = s := by
  unfold removeChild
  rw [ends_bind, ends_edit, Edit.ends_parentOf]
  refine ⟨fun parent hparent => ?_, fun _ => rfl⟩
  rw [ends_bind, ends_edit]
  have hlinked := hs.workspace.linked
  refine (Placard.ends_removeChild hlinked id).mono (fun t w' heffect => ?_)
    fun e w' h => by rw [h]
  have hw' := hs.workspace.effect heffect
  rw [ends_bind, ends_get]
  refine ends_ite.mpr ⟨fun hactive => ?_, fun hactive => ?_⟩
  · rw [ends_bind]
    refine (ends_setActive hw'.linked parent).mono
      (fun _ s' h => ⟨h.keeps hw' rfl, by rw [h.workspace]; exact heffect,
        Or.inl h.isSeeded⟩)
      fun _ s' h => ?_
    -- The parent is still there to be made active.
    obtain ⟨u, hu⟩ := hlinked.exists_parent hparent
    have hid : w'.library.contains parent = true :=
      heffect.contains hlinked (Library.contains_of_get? hu)
        (by simpa using hlinked.ne_parent hparent)
    rw [h.1] at hid
    cases hid
  · refine ends_pure.mpr ⟨⟨⟨hw', fun d hd => ?_⟩, fun h => h, rfl⟩, heffect,
      Or.inr ⟨activeTemplate_of_removed heffect hactive, rfl⟩⟩
    refine heffect.contains hlinked (hs.active d hd) fun heq => hactive ?_
    rw [Operation.removeChild.inj heq]
    exact hd

/-! ## Properties, layers and fields -/

/-- The field of a layer is seeded without fail where a template is active. -/
theorem ends_reseed {active : String} (hs : s.WellFormed)
    (hactive : s.active = some active) (layer : String) :
    Ends (reseed layer) s (fun _ s' => s.Seeds (some layer) s') fun _ _ =>
      False := by
  obtain ⟨t, ht⟩ := Library.exists_get? (hs.active active hactive)
  have hseeds {s' : Session} (hworkspace : s'.workspace = s.workspace)
      (hsame : s'.active = s.active) (hsettings : s'.settings = s.settings)
      (hfields : s'.fields = reseeded t s.fields (some layer)) :
      s.Seeds (some layer) s' := by
    refine ⟨hworkspace, hsame, hsettings, fun u hu => ?_⟩
    rw [activeTemplate_eq hactive ht, Except.ok.injEq] at hu
    exact hu ▸ hfields
  unfold reseed
  rw [ends_bind, ends_activeId]
  refine ⟨fun found hfound => ?_, fun hnone => ?_⟩
  · rw [hactive, Option.some.injEq] at hfound
    subst hfound
    rw [ends_bind, ends_edit, Edit.ends_template]
    refine ⟨fun u hu => ?_, fun hnone => ?_⟩
    · rw [ht, Option.some.injEq] at hu
      subst hu
      rw [ends_bind, ends_get]
      refine ends_ite.mpr ⟨fun _ => ?_, fun _ => ?_⟩
      · rw [ends_bind, ends_setCatalog]
        dsimp only
        split
        · next text htext => exact hseeds rfl rfl rfl (by rw [reseeded, htext])
        · next htext => exact hseeds rfl rfl rfl (by rw [reseeded, htext])
      · dsimp only
        split
        · next text htext => exact hseeds rfl rfl rfl (by rw [reseeded, htext])
        · next htext => exact hseeds rfl rfl rfl (by rw [reseeded, htext])
    · rw [ht] at hnone
      cases hnone
  · rw [hactive] at hnone
    cases hnone

/-- The layer whose field is seeded anew when a property of it is written. -/
def seededBy (layer : String) (p : Property) : Option String :=
  if p.isOfField then some layer else none

theorem ends_reseedFor {active : String} (hs : s.WellFormed)
    (hactive : s.active = some active) (p : Property) (layer : String) :
    Ends (reseedFor p layer) s (fun _ s' => s.Seeds (seededBy layer p) s')
      fun _ _ => False := by
  unfold reseedFor seededBy
  refine ends_ite.mpr ⟨fun h => ?_, fun h => ?_⟩
  · rw [if_pos h]
    exact ends_reseed hs hactive layer
  · rw [if_neg h]
    exact ⟨rfl, rfl, rfl, fun _ _ => rfl⟩

/-- What a request comes to that edits the active template and then may seed a
field. -/
theorem WellFormed.ends_edit_bind {α β : Type} (hs : s.WellFormed)
    {e : Edit α} {op : Operation} {active : String} {layer? : Option String}
    {next : α → Act β}
    (he : Ends e s.workspace (fun _ w' => Effect s.workspace op w') fun _ w' =>
      w' = s.workspace)
    (hactive : s.active = some active) (hop : op.edits? = some active)
    (hstays : ∀ id, op ≠ .removeChild id)
    (hnext : ∀ a {s₁ : Session}, s₁.WellFormed → s₁.active = some active →
      Ends (next a) s₁ (fun _ s' => s₁.Seeds layer? s') fun _ _ => False) :
    Ends (edit e >>= next) s (fun _ s' =>
      s.Edits op layer? s') fun _ s' => s' = s := by
  rw [ends_bind]
  refine (hs.ends_edit he hactive hop hstays).mono (fun a s₁ h => ?_)
    fun _ _ h => h
  exact (hnext a h.keeps.wellFormed (h.active.trans hactive)).mono
    (fun _ _ h' => h.seed h') fun _ _ h => h.elim

theorem ends_setProperty (hs : s.WellFormed) (layer : String) (p : Property)
    (v : Value) :
    Ends (setProperty layer p v) s
      (fun _ s' => ∃ id, s.Edits (.setProperty id layer p v s.toggles)
        (seededBy layer p) s')
      fun _ s' => s' = s := by
  unfold setProperty
  rw [ends_bind, ends_activeId]
  refine ⟨fun active hactive => ?_, fun _ => rfl⟩
  rw [ends_bind, ends_get]
  refine (hs.ends_edit_bind
    (Placard.ends_setProperty active layer p v s.toggles) hactive rfl
    (by simp) fun _ s₁ hs₁ hactive => ?_).mono (fun _ _ h => ⟨active, h⟩)
      fun _ _ h => h
  rw [ends_bind]
  exact (ends_reseedFor hs₁ hactive p layer).mono
    (fun _ _ h => h.congr rfl rfl rfl rfl) fun _ _ h => h

theorem ends_resetProperty (hs : s.WellFormed) (layer : String) (p : Property) :
    Ends (resetProperty layer p) s
      (fun _ s' => ∃ id, s.Edits (.resetProperty id layer p)
        (seededBy layer p) s')
      fun _ s' => s' = s := by
  unfold resetProperty
  rw [ends_bind, ends_activeId]
  refine ⟨fun active hactive => ?_, fun _ => rfl⟩
  refine (hs.ends_edit_bind (Placard.ends_resetProperty active layer p)
    hactive rfl
    (by simp) fun _ s₁ hs₁ hactive => ?_).mono (fun _ _ h => ⟨active, h⟩)
      fun _ _ h => h
  rw [ends_bind]
  exact (ends_reseedFor hs₁ hactive p layer).mono
    (fun _ _ h => h.congr rfl rfl rfl rfl) fun _ _ h => h

theorem ends_addLayer (hs : s.WellFormed) (l : Layer) :
    Ends (addLayer l) s (fun _ s' => ∃ id, s.Edits (.addLayer id l) none s')
      fun _ s' => s' = s := by
  unfold addLayer
  rw [ends_bind, ends_activeId]
  refine ⟨fun active hactive => ?_, fun _ => rfl⟩
  refine (hs.ends_edit_bind (Placard.ends_addLayer hs.workspace.linked active l)
    hactive rfl
    (by simp) fun _ _ _ _ => ?_).mono (fun _ _ h => ⟨active, h⟩) fun _ _ h => h
  exact ⟨rfl, rfl, rfl, fun _ _ => rfl⟩

theorem ends_deleteLayer (hs : s.WellFormed) (key : String) :
    Ends (deleteLayer key) s (fun _ s' => ∃ id,
      s.Edits (.deleteLayer id key) none s')
      fun _ s' => s' = s := by
  unfold deleteLayer
  rw [ends_bind, ends_activeId]
  refine ⟨fun active hactive => ?_, fun _ => rfl⟩
  refine (hs.ends_edit_bind (Placard.ends_deleteLayer hs.workspace.linked active
    key) hactive rfl
    (by simp) fun _ _ _ _ => ?_).mono (fun _ _ h => ⟨active, h⟩) fun _ _ h => h
  exact ⟨rfl, rfl, rfl, fun _ _ => rfl⟩

theorem ends_resetLayer (hs : s.WellFormed) (key : String) :
    Ends (resetLayer key) s (fun _ s' => ∃ id,
      s.Edits (.resetLayer id key) (some key) s')
      fun _ s' => s' = s := by
  unfold resetLayer
  rw [ends_bind, ends_activeId]
  refine ⟨fun active hactive => ?_, fun _ => rfl⟩
  refine (hs.ends_edit_bind (Placard.ends_resetLayer active key) hactive rfl
    (by simp) fun _ s₁ hs₁ hactive => ?_).mono (fun _ _ h => ⟨active, h⟩)
      fun _ _ h => h
  rw [ends_bind]
  exact (ends_reseed hs₁ hactive key).mono
    (fun _ _ h => h.congr rfl rfl rfl rfl) fun _ _ h => h

/-- A literal for a field, and for that of the background the colour that it
names. -/
structure SetsField (s : Session) (field value : String) (s' : Session) :
    Prop where
  keeps : s.Keeps s'
  fields : s'.fields = s.fields.setLiteral field value
  effect : s'.workspace = s.workspace ∨ ∃ id p c toggles,
    Effect s.workspace (.setProperty id canvasKey p (.color c) toggles)
      s'.workspace
  rewrites : s'.activeTemplate = s.activeTemplate ∨ ∃ id p v toggles t t',
    s.activeTemplate = .ok t ∧ s'.activeTemplate = .ok t' ∧
      (Operation.setProperty id canvasKey p v toggles).Rewrites t t'

theorem ends_setField (hs : s.WellFormed) (field value : String) :
    Ends (setField field value) s (fun _ s' => s.SetsField field value s')
      fun _ s' => s' = s := by
  unfold setField
  refine ends_ite.mpr ⟨fun _ => ?_, fun _ => ?_⟩
  · split
    · exact ends_throw.mpr rfl
    · next c _ =>
        rw [ends_bind]
        refine (ends_setProperty hs canvasKey .backgroundColor (.color c)).mono
          (fun _ s₁ h => ?_) fun _ _ h => h
        obtain ⟨id, h⟩ := h
        obtain ⟨t, t', ht, ht', hrewrites, hfields⟩ := h.rewrites
        exact ⟨h.keeps.congr rfl rfl rfl,
          congrArg (Bindings.setLiteral · field value) hfields,
          Or.inr ⟨id, _, _, _, h.effect⟩,
          Or.inr ⟨id, _, _, _, t, t', ht, ht', hrewrites⟩⟩
  · exact ⟨hs.keeps_of_same rfl rfl rfl, rfl, Or.inl rfl, Or.inl rfl⟩

theorem ends_rebind {r : Except BindError Bindings} :
    Ends (rebind r) s
      (fun _ s' => s'.workspace = s.workspace ∧ s'.active = s.active ∧
        s'.settings = s.settings)
      fun _ s' => s' = s := by
  unfold rebind
  cases r with
  | ok fields => exact ⟨rfl, rfl, rfl⟩
  | error e => exact ends_throw.mpr rfl

theorem ends_bindField (hs : s.WellFormed) (field key : String) :
    Ends (bindField field key) s (fun _ s' => s.Keeps s' ∧
      s'.workspace = s.workspace)
      fun _ s' => s' = s := by
  unfold bindField
  rw [ends_bind, ends_get, ends_bind]
  exact ends_rebind.mono (fun _ s' h => ⟨hs.keeps_of_same h.1 h.2.1 h.2.2, h.1⟩)
    fun _ _ h => h

theorem ends_unbindField (hs : s.WellFormed) (field : String) :
    Ends (unbindField field) s (fun _ s' => s.Keeps s' ∧
      s'.workspace = s.workspace)
      fun _ s' => s' = s := by
  unfold unbindField
  rw [ends_bind, ends_get, ends_bind]
  exact ends_rebind.mono (fun _ s' h => ⟨hs.keeps_of_same h.1 h.2.1 h.2.2, h.1⟩)
    fun _ _ h => h

end Session

end Placard
