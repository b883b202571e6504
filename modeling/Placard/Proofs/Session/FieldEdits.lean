import Placard.Proofs.Field.History
import Placard.Proofs.Session.Runs

/-!
# What requests do to the fields

A request that is answered changes the content of the fields by edits that can
be told from the request and the session after it. All fields start again where
a template is made active, one does where a layer says something new of it, and
the requests that are about a field are edits of that field. So what edits keep
of the fields, a session keeps: they are sound in every session, and the
background, which every template has, is among them as long as a template is
active.
-/

namespace Placard

namespace Session

variable {s s' : Session}

/-- All fields start again from the active template. -/
def restarts (s : Session) : List FieldEdit :=
  match s.activeTemplate with
  | .ok t => [.restart (.ofTemplate t)]
  | .error _ => []

/-- The field of a layer of the active template starts again, if it is a
text. -/
def reseeds (s : Session) : Option String → List FieldEdit
  | none => []
  | some layer =>
    match s.activeTemplate with
    | .ok t => ((t.textLayer? layer).map (FieldEdit.reseed layer)).toList
    | .error _ => []

/-- The edits of the fields that a request comes to if it is answered, and the
session after it is `s'`. -/
def Request.fieldEdits (s s' : Session) : Request → List FieldEdit
  | setActive _ | createChild _ _ _ => s'.restarts
  | removeChild id => if s.active = some id then s'.restarts else []
  | setProperty layer p _ | resetProperty layer p =>
    s'.reseeds (seededBy layer p)
  | resetLayer key => s'.reseeds (some key)
  | setField field value => [.setLiteral field value]
  | bindField field key => [.bind field key]
  | unbindField field => [.release field s.catalog]
  | addLayer _ | deleteLayer _ | setToggles _ | poll _ _ | clock _ => []

/-! ## Fields after a request -/

/-- The session with fields that have just been changed. -/
def rebound (s : Session) (fields : Bindings) : Session :=
  { s with fields := fields, debounce := s.debounce.note s.now }

/-- What a change of the fields comes to, if it can be made. -/
def changed (s : Session) (r : Except BindError Bindings) :
    Except SessionError Unit × Session :=
  match r with
  | .ok fields => (.ok (), s.rebound fields)
  | .error e => (.error (.bind e), s)

theorem rebound_of_changed {r : Except BindError Bindings}
    (h : s.changed r = (.ok (), s')) :
    ∃ fields, r = .ok fields ∧ s' = s.rebound fields := by
  cases r with
  | ok fields => exact ⟨fields, rfl, (congrArg Prod.snd h).symm⟩
  | error e => cases h

theorem perform_bindField (s : Session) (field key : String) :
    (Request.bindField field key).perform s =
      s.changed (s.fields.bindMetadata field key) := by
  show answered (outcome (bindField field key) s) = _
  unfold bindField rebind
  rw [outcome_bind]
  show answered (outcome _ s) = _
  rw [outcome_bind]
  cases s.fields.bindMetadata field key <;> rfl

theorem perform_unbindField (s : Session) (field : String) :
    (Request.unbindField field).perform s =
      s.changed (s.fields.unbind field s.catalog) := by
  show answered (outcome (unbindField field) s) = _
  unfold unbindField rebind
  rw [outcome_bind]
  show answered (outcome _ s) = _
  rw [outcome_bind]
  cases s.fields.unbind field s.catalog <;> rfl

theorem rebound_of_bindField {field key : String}
    (hdone : (Request.bindField field key).perform s = (.ok (), s')) :
    ∃ fields, s.fields.bindMetadata field key = .ok fields ∧
      s' = s.rebound fields :=
  rebound_of_changed (perform_bindField s field key ▸ hdone)

theorem rebound_of_unbindField {field : String}
    (hdone : (Request.unbindField field).perform s = (.ok (), s')) :
    ∃ fields, s.fields.unbind field s.catalog = .ok fields ∧
      s' = s.rebound fields :=
  rebound_of_changed (perform_unbindField s field ▸ hdone)

theorem Seeded.fields_eq (h : s'.Seeded) (bs : Bindings) :
    s'.fields = bs.run s'.restarts := by
  obtain ⟨t, ht, hfields⟩ := h
  rw [restarts, ht, hfields]
  rfl

theorem reseeded_eq {t : Template} (ht : s'.activeTemplate = .ok t)
    (bs : Bindings) (layer? : Option String) :
    reseeded t bs layer? = bs.run (s'.reseeds layer?) := by
  cases layer? with
  | none => rfl
  | some layer =>
      rw [reseeds, ht, reseeded]
      dsimp only
      cases t.textLayer? layer <;> rfl

theorem Edits.fields_eq {op : Operation} {layer? : Option String}
    (h : s.Edits op layer? s') :
    s'.fields = s.fields.run (s'.reseeds layer?) := by
  obtain ⟨t, t', -, ht', -, hfields⟩ := h.rewrites
  rw [hfields, reseeded_eq ht']

/-- A child that is active is removed from under its fields, and any other is no
matter to them. -/
theorem ends_removeChild_fields (hs : s.WellFormed) (id : String) :
    Ends (removeChild id) s
      (fun _ s' => (s.active = some id → s'.Seeded) ∧
        (s.active ≠ some id → s'.fields = s.fields))
      fun _ _ => True := by
  unfold removeChild
  rw [ends_bind, ends_edit, Edit.ends_parentOf]
  refine ⟨fun parent _ => ?_, fun _ => trivial⟩
  rw [ends_bind, ends_edit]
  refine (Placard.ends_removeChild hs.workspace.linked id).mono
    (fun t w' heffect => ?_) fun _ _ _ => trivial
  rw [ends_bind, ends_get]
  refine ends_ite.mpr ⟨fun hactive => ?_, fun hactive => ?_⟩
  · rw [ends_bind]
    exact (ends_setActive (hs.workspace.effect heffect).linked parent).mono
      (fun _ _ h => ⟨fun _ => h.isSeeded, fun hne => absurd hactive hne⟩)
      fun _ _ _ => trivial
  · exact ⟨fun h => absurd h hactive, fun _ => rfl⟩

theorem ends_of_answered {α : Type} {x : Act α} {good : α → Session → Prop}
    {bad : SessionError → Session → Prop} (h : Ends x s good bad)
    (hx : answered (outcome x s) = (.ok (), s')) : ∃ a, good a s' := by
  rcases h.cases with ⟨_, _, hfail, -⟩ | ⟨a, s₁, hdone, h⟩
  · rw [hfail] at hx
    cases hx
  · rw [hdone] at hx
    cases hx
    exact ⟨a, h⟩

/-- The fields after a request that is answered. -/
theorem fields_perform (hs : s.WellFormed) {req : Request}
    (hdone : req.perform s = (.ok (), s')) :
    s'.fields = s.fields.run (req.fieldEdits s s') := by
  have hanswers := answers_of_perform hs hdone
  cases req with
  | setActive id => cases hanswers with
    | setActive h => exact h.isSeeded.fields_eq _
  | createChild id? generated canvas? => cases hanswers with
    | createChild _ hseeded => exact hseeded.fields_eq _
  | removeChild id =>
      obtain ⟨_, hseeded, hsame⟩ :=
        ends_of_answered (ends_removeChild_fields hs id) hdone
      rw [Request.fieldEdits]
      split
      · next hactive => exact (hseeded hactive).fields_eq _
      · next hactive => exact hsame hactive
  | setProperty layer p v => cases hanswers with
    | setProperty h => exact h.fields_eq
  | resetProperty layer p => cases hanswers with
    | resetProperty h => exact h.fields_eq
  | addLayer l => cases hanswers with
    | addLayer h => exact h.fields_eq
  | deleteLayer key => cases hanswers with
    | deleteLayer h => exact h.fields_eq
  | resetLayer key => cases hanswers with
    | resetLayer h => exact h.fields_eq
  | setField field value => cases hanswers with
    | setField h => exact h.fields
  | bindField field key =>
      obtain ⟨fields, hbind, rfl⟩ := rebound_of_bindField hdone
      show fields = s.fields.edit (.bind field key)
      rw [Bindings.edit, FieldEdit.perform, hbind]
      rfl
  | unbindField field =>
      obtain ⟨fields, hunbind, rfl⟩ := rebound_of_unbindField hdone
      show fields = s.fields.edit (.release field s.catalog)
      rw [Bindings.edit, FieldEdit.perform, hunbind]
      rfl
  | setToggles toggles | poll time asset | clock time =>
      cases hanswers
      rfl

/-! ## Fields of every session -/

theorem reachable_run (hs : s.WellFormed) (h : s.fields.Reachable)
    (reqs : List Request) : (s.run reqs).fields.Reachable :=
  hs.run_induct (P := fun s => s.fields.Reachable)
    (fun hs hdone h => fields_perform hs hdone ▸ h.run _) h reqs

/-- The fields of a session are made by edits of nothing. -/
theorem reachable_fields (settings : Settings) (ops : List Operation)
    (reqs : List Request) : (reached settings ops reqs).fields.Reachable :=
  reachable_run (wellFormed_start (Workspace.wellFormed_empty.run ops) settings)
    .empty reqs

end Session

end Placard
