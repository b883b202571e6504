import Placard.Proofs.Session.Requests

/-!
# Sessions from the first request on

A session is started on a library that operations have built, with no flags and
nothing active, and is then asked one thing after another. Each request is
answered, and keeps the session well-formed, or is refused, and leaves the
session as it was. So what is well-formed at the start is so for good, and once
a template is active there is always one to compile.
-/

namespace Placard

namespace Session

/-- What a session can be asked that may change it; the clock runs on its
own. -/
inductive Request where
  | setActive (id : String)
  | createChild (id? : Option String) (generated : String)
      (canvas? : Option Size)
  | removeChild (id : String)
  | setProperty (layer : String) (p : Property) (v : Value)
  | resetProperty (layer : String) (p : Property)
  | addLayer (l : Layer)
  | deleteLayer (key : String)
  | resetLayer (key : String)
  | setField (field value : String)
  | bindField (field key : String)
  | unbindField (field : String)
  | setToggles (toggles : Toggles)
  | poll (time : Nat) (asset : String)
  | clock (time : Nat)

/-- The outcome of an act, without what it answers. -/
def answered {α : Type} (ended : Except SessionError α × Session) :
    Except SessionError Unit × Session :=
  match ended with
  | (.ok _, s) => (.ok (), s)
  | (.error e, s) => (.error e, s)

/-- What a request comes to in a session. -/
def Request.perform (s : Session) : Request → Except SessionError Unit × Session
  | setActive id => answered (outcome (Session.setActive id) s)
  | createChild id? generated canvas? =>
    answered (outcome (Session.createChild id? generated canvas?) s)
  | removeChild id => answered (outcome (Session.removeChild id) s)
  | setProperty layer p v =>
    answered (outcome (Session.setProperty layer p v) s)
  | resetProperty layer p =>
    answered (outcome (Session.resetProperty layer p) s)
  | addLayer l => answered (outcome (Session.addLayer l) s)
  | deleteLayer key => answered (outcome (Session.deleteLayer key) s)
  | resetLayer key => answered (outcome (Session.resetLayer key) s)
  | setField field value => answered (outcome (Session.setField field value) s)
  | bindField field key => answered (outcome (Session.bindField field key) s)
  | unbindField field => answered (outcome (Session.unbindField field) s)
  | setToggles toggles => answered (outcome (Session.setToggles toggles) s)
  | poll time asset => (.ok (), (s.poll time asset).2)
  | clock time => (.ok (), { s with now := time })

variable {s s' : Session}

theorem Request.exists_setActive {id : String}
    (hlinked : s.workspace.library.Linked)
    (hid : s.workspace.library.contains id = true) :
    ∃ s', (setActive id).perform s = (.ok (), s') ∧ s.Activates id s' := by
  obtain ⟨s', hset, h⟩ := Session.exists_setActive hlinked hid
  refine ⟨s', ?_, h⟩
  rw [perform, hset, answered]

/-- What a request does that is answered. -/
inductive Answers (s : Session) : Request → Session → Prop where
  | setActive {id : String} {s' : Session} (h : s.Activates id s') :
      Answers s (.setActive id) s'
  | createChild {id? : Option String} {generated : String}
      {canvas? : Option Size} {parent : String} {s' : Session}
      (h : s.Keeps s') (hseeded : s'.Seeded)
      (heffect : Effect s.workspace (.createChild parent id? generated canvas?)
        s'.workspace) :
      Answers s (.createChild id? generated canvas?) s'
  | removeActive {id : String} {s' : Session} (h : s.Keeps s')
      (hseeded : s'.Seeded)
      (heffect : Effect s.workspace (.removeChild id) s'.workspace) :
      Answers s (.removeChild id) s'
  | removeOther {id : String} {s' : Session} (h : s.Keeps s')
      (hactive : s'.activeTemplate = s.activeTemplate)
      (hfields : s'.fields = s.fields)
      (heffect : Effect s.workspace (.removeChild id) s'.workspace) :
      Answers s (.removeChild id) s'
  | setProperty {id layer : String} {p : Property} {v : Value} {s' : Session}
      (h : s.Edits (.setProperty id layer p v s.toggles)
        (seededBy layer p) s') :
      Answers s (.setProperty layer p v) s'
  | resetProperty {id layer : String} {p : Property} {s' : Session}
      (h : s.Edits (.resetProperty id layer p) (seededBy layer p) s') :
      Answers s (.resetProperty layer p) s'
  | addLayer {id : String} {l : Layer} {s' : Session}
      (h : s.Edits (.addLayer id l) none s') :
      Answers s (.addLayer l) s'
  | deleteLayer {id key : String} {s' : Session}
      (h : s.Edits (.deleteLayer id key) none s') :
      Answers s (.deleteLayer key) s'
  | resetLayer {id key : String} {s' : Session}
      (h : s.Edits (.resetLayer id key) (some key) s') :
      Answers s (.resetLayer key) s'
  | setField {field value : String} {s' : Session}
      (h : s.SetsField field value s') :
      Answers s (.setField field value) s'
  | bindField {field key : String} {s' : Session} (h : s.Keeps s')
      (hworkspace : s'.workspace = s.workspace) :
      Answers s (.bindField field key) s'
  | unbindField {field : String} {s' : Session} (h : s.Keeps s')
      (hworkspace : s'.workspace = s.workspace) :
      Answers s (.unbindField field) s'
  | setToggles (toggles : Toggles) :
      Answers s (.setToggles toggles) { s with toggles := toggles }
  | poll (time : Nat) (asset : String) :
      Answers s (.poll time asset) (s.poll time asset).2
  | clock (time : Nat) : Answers s (.clock time) { s with now := time }

theorem answered_cases {α : Type} {x : Act α} {req : Request}
    (h : Ends x s (fun _ s' => s.Answers req s') fun _ s' => s' = s) :
    (∃ e, answered (outcome x s) = (.error e, s)) ∨
      ∃ s', answered (outcome x s) = (.ok (), s') ∧ s.Answers req s' := by
  rcases h.cases with ⟨e, s', hx, rfl⟩ | ⟨_, s', hx, h⟩
  · exact Or.inl ⟨e, by rw [hx, answered]⟩
  · exact Or.inr ⟨s', by rw [hx, answered], h⟩

/-- A request is refused and leaves the session as it was, or it is answered. -/
theorem Request.perform_cases (hs : s.WellFormed) (req : Request) :
    (∃ e, req.perform s = (.error e, s)) ∨
      ∃ s', req.perform s = (.ok (), s') ∧ s.Answers req s' := by
  cases req with
  | setActive id =>
      exact answered_cases ((ends_setActive hs.workspace.linked id).mono
        (fun _ _ h => .setActive h) fun _ _ h => h.2)
  | createChild id? generated canvas? =>
      exact answered_cases ((ends_createChild hs id? generated canvas?).mono
        (fun _ _ ⟨h, hseeded, _, heffect⟩ => .createChild h hseeded heffect)
        fun _ _ h => h)
  | removeChild id =>
      refine answered_cases ((ends_removeChild hs id).mono (fun _ _ h => ?_)
        fun _ _ h => h)
      rcases h with ⟨h, heffect, hseeded | ⟨hactive, hfields⟩⟩
      · exact .removeActive h hseeded heffect
      · exact .removeOther h hactive hfields heffect
  | setProperty layer p v =>
      exact answered_cases ((ends_setProperty hs layer p v).mono
        (fun _ _ ⟨_, h⟩ => .setProperty h) fun _ _ h => h)
  | resetProperty layer p =>
      exact answered_cases ((ends_resetProperty hs layer p).mono
        (fun _ _ ⟨_, h⟩ => .resetProperty h) fun _ _ h => h)
  | addLayer l =>
      exact answered_cases
        ((ends_addLayer hs l).mono (fun _ _ ⟨_, h⟩ => .addLayer h)
          fun _ _ h => h)
  | deleteLayer key =>
      exact answered_cases
        ((ends_deleteLayer hs key).mono (fun _ _ ⟨_, h⟩ => .deleteLayer h)
          fun _ _ h => h)
  | resetLayer key =>
      exact answered_cases
        ((ends_resetLayer hs key).mono (fun _ _ ⟨_, h⟩ => .resetLayer h)
          fun _ _ h => h)
  | setField field value =>
      exact answered_cases
        ((ends_setField hs field value).mono (fun _ _ h => .setField h)
          fun _ _ h => h)
  | bindField field key =>
      exact answered_cases
        ((ends_bindField hs field key).mono (fun _ _ h => .bindField h.1 h.2)
          fun _ _ h => h)
  | unbindField field =>
      exact answered_cases
        ((ends_unbindField hs field).mono (fun _ _ h => .unbindField h.1 h.2)
          fun _ _ h => h)
  | setToggles toggles => exact Or.inr ⟨_, rfl, .setToggles toggles⟩
  | poll time asset => exact Or.inr ⟨_, rfl, .poll time asset⟩
  | clock time => exact Or.inr ⟨_, rfl, .clock time⟩

theorem answers_of_perform (hs : s.WellFormed) {req : Request}
    (hdone : req.perform s = (.ok (), s')) : s.Answers req s' := by
  rcases req.perform_cases hs with ⟨e, hfail⟩ | ⟨s₁, hdone', hanswers⟩
  · rw [hdone] at hfail
    cases hfail
  · rw [hdone, Prod.mk.injEq] at hdone'
    exact hdone'.2 ▸ hanswers

/-- A request that is answered keeps the session well-formed, with a template
active if there was one. -/
theorem Answers.keeps {req : Request} (h : s.Answers req s')
    (hs : s.WellFormed) : s.Keeps s' := by
  cases h with
  | setActive h => exact h.keeps hs.workspace rfl
  | createChild h | removeActive h | removeOther h | bindField h
  | unbindField h => exact h
  | setProperty h | resetProperty h | addLayer h | deleteLayer h
  | resetLayer h => exact h.keeps
  | setField h => exact h.keeps
  | setToggles | poll | clock => exact hs.keeps_of_same rfl rfl rfl

/-- The session after requests have been made in turn, whether they are refused
or not. -/
def run (s : Session) (reqs : List Request) : Session :=
  reqs.foldl (fun s req => (req.perform s).2) s

/-- Every request of a run that is answered is one that is `good`. -/
def Each (good : Session → Session → Request → Prop) :
    Session → List Request → Prop
  | _, [] => True
  | s, req :: rest =>
    ((req.perform s).1 = .ok () → good s (req.perform s).2 req) ∧
      Each good (req.perform s).2 rest

instance decidableEach (good : Session → Session → Request → Prop)
    [∀ s s' req, Decidable (good s s' req)] :
    (s : Session) → (reqs : List Request) → Decidable (Each good s reqs)
  | _, [] => .isTrue trivial
  | s, req :: rest =>
    have := decidableEach good (req.perform s).2 rest
    inferInstanceAs (Decidable (((req.perform s).1 = .ok () →
      good s (req.perform s).2 req) ∧ Each good (req.perform s).2 rest))

theorem Keeps.trans {s₁ s₂ s₃ : Session} (h : s₁.Keeps s₂) (h' : s₂.Keeps s₃) :
    s₁.Keeps s₃ where
  wellFormed := h'.wellFormed
  active := fun hset => h'.active (h.active hset)
  settings := h'.settings.trans h.settings

theorem WellFormed.keeps_perform (hs : s.WellFormed) (req : Request) :
    s.Keeps (req.perform s).2 := by
  rcases req.perform_cases hs with ⟨e, he⟩ | ⟨s', hs', hanswers⟩
  · rw [he]
    exact hs.keeps_of_same rfl rfl rfl
  · rw [hs']
    exact hanswers.keeps hs

/-- What every answered request keeps that is `good` holds after a run of such
requests. -/
theorem Each.run_induct {P : Session → Prop}
    {good : Session → Session → Request → Prop} {reqs : List Request}
    (hreqs : Each good s reqs)
    (hperform : ∀ {s s' : Session} {req : Request}, s.WellFormed →
      req.perform s = (.ok (), s') → good s s' req → P s → P s')
    (hs : s.WellFormed) (h : P s) : P (s.run reqs) := by
  induction reqs generalizing s with
  | nil => exact h
  | cons req rest ih =>
      obtain ⟨hreq, hrest⟩ := hreqs
      have hnext : P (req.perform s).2 := by
        rcases req.perform_cases hs with ⟨e, hfail⟩ | ⟨s', hdone, -⟩
        · rw [hfail]
          exact h
        · rw [hdone] at hreq ⊢
          exact hperform hs hdone (hreq rfl) h
      exact ih hrest (hs.keeps_perform req).wellFormed hnext

theorem each_of_forall {good : Request → Prop} {reqs : List Request}
    (h : ∀ req ∈ reqs, good req) (s : Session) :
    Each (fun _ _ req => good req) s reqs := by
  induction reqs generalizing s with
  | nil => trivial
  | cons req rest ih =>
      obtain ⟨hreq, hrest⟩ := List.forall_mem_cons.mp h
      exact ⟨fun _ => hreq, ih hrest _⟩

/-- What every answered request keeps holds after a run. -/
theorem WellFormed.run_induct {P : Session → Prop}
    (hperform : ∀ {s s' : Session} {req : Request}, s.WellFormed →
      req.perform s = (.ok (), s') → P s → P s')
    (hs : s.WellFormed) (h : P s) (reqs : List Request) : P (s.run reqs) :=
  have hreqs : Each (fun _ _ _ => True) s reqs :=
    each_of_forall (fun _ _ => trivial) s
  hreqs.run_induct (fun hs hdone _ => hperform hs hdone) hs h

theorem WellFormed.keeps_run (hs : s.WellFormed) (reqs : List Request) :
    s.Keeps (s.run reqs) :=
  hs.run_induct (fun hs hdone h => h.trans
    ((answers_of_perform hs hdone).keeps hs))
    (hs.keeps_of_same rfl rfl rfl) reqs

/-- A template that is active compiles. -/
theorem WellFormed.exists_compile (hs : s.WellFormed) {id : String}
    (hactive : s.active = some id) (canvas? : Option Size) (asset : String) :
    ∃ text, s.compile canvas? asset = .ok text := by
  obtain ⟨t, ht⟩ := Library.exists_get? (hs.active id hactive)
  have hfound : s.activeTemplate = .ok t := by
    unfold activeTemplate
    simp only [hactive, ht]
  rw [compile, plan, hfound]
  exact ⟨_, rfl⟩

theorem Activates.compile_eq {id : String} {t : Template}
    (h : s.Activates id s') (ht : s.workspace.library.get? id = some t)
    (canvas? : Option Size) (asset : String) :
    s'.compile canvas? asset = .ok (Plan.compile s.settings.compiler t
      (.ofCatalog (.ofTemplate t)) (canvas?.getD t.canvas)
      asset).transformation := by
  obtain ⟨u, hu, hfields⟩ := h.seeded
  rw [ht, Option.some.injEq] at hu
  subst hu
  have hactive := activeTemplate_eq h.active (h.workspace ▸ ht)
  rw [compile, plan, hactive, hfields, h.settings]
  rfl

theorem wellFormed_start {w : Workspace} (hw : w.WellFormed)
    (settings : Settings) : (start settings w.library).WellFormed where
  workspace := {
    linked := hw.linked
    sound := hw.sound
    children := fun _ h => by cases h
    pairs := fun _ _ x hx key => by
      refine .of_empty ?_
      rw [← hx.flags]
      rfl }
  active := fun _ h => by cases h

/-- A session on a library that operations have built, after requests. -/
def reached (settings : Settings) (ops : List Operation) (reqs : List Request) :
    Session :=
  (start settings (Workspace.empty.run ops).library).run reqs

theorem wellFormed_reached (settings : Settings) (ops : List Operation)
    (reqs : List Request) : (reached settings ops reqs).WellFormed :=
  ((wellFormed_start (Workspace.wellFormed_empty.run ops) settings).keeps_run
    reqs).wellFormed

theorem reached_append (settings : Settings) (ops : List Operation)
    (reqs more : List Request) :
    reached settings ops (reqs ++ more) =
      (reached settings ops reqs).run more :=
  List.foldl_append

/-- Every workspace that operations build is well-formed, and so is every
session on its library; and once a template is active, one that is there always
is, and it compiles. -/
theorem always_wellFormed (settings : Settings) (ops : List Operation)
    (reqs more : List Request) :
    (Workspace.empty.run ops).WellFormed ∧
      (reached settings ops reqs).WellFormed ∧
      ((reached settings ops reqs).active.isSome = true →
        ∃ id, (reached settings ops (reqs ++ more)).active = some id ∧
          (reached settings ops (reqs ++ more)).workspace.library.contains
            id = true ∧
          ∀ canvas? asset, ∃ text,
            (reached settings ops (reqs ++ more)).compile canvas? asset =
              .ok text) := by
  have hs := wellFormed_reached settings ops reqs
  refine ⟨Workspace.wellFormed_empty.run ops, hs, fun hset => ?_⟩
  have hkeeps := hs.keeps_run more
  rw [← reached_append] at hkeeps
  obtain ⟨id, hid⟩ := Option.isSome_iff_exists.mp (hkeeps.active hset)
  exact ⟨id, hid, hkeeps.wellFormed.active id hid,
    hkeeps.wellFormed.exists_compile hid⟩

theorem titleRun_always_wellFormed :
    (reached .default titleRun [.setActive "tall"]).active.isSome = true ∧
      ∃ id,
        (reached .default titleRun [.setActive "tall",
          .removeChild "tall"]).active = some id ∧
        (reached .default titleRun
          [.setActive "tall", .removeChild "tall"]).workspace.library.contains
          id = true ∧
        ∀ canvas? asset, ∃ text,
          (reached .default titleRun
            [.setActive "tall", .removeChild "tall"]).compile canvas? asset =
              .ok text := by
  have hset : (reached .default titleRun [.setActive "tall"]).active.isSome =
      true := by
    decide +kernel
  exact ⟨hset, (always_wellFormed .default titleRun [.setActive "tall"]
    [.removeChild "tall"]).2.2 hset⟩

/-- What fails changes nothing: neither an operation on a workspace that
operations have built, nor a request to a session on its library. -/
theorem failed_unchanged (settings : Settings) (ops : List Operation)
    (reqs : List Request) :
    (∀ (op : Operation) (e : Refusal),
      (op.perform (Workspace.empty.run ops)).1 = .error e →
        (op.perform (Workspace.empty.run ops)).2 = Workspace.empty.run ops) ∧
      ∀ (req : Request) (e : SessionError),
        (req.perform (reached settings ops reqs)).1 = .error e →
          (req.perform (reached settings ops reqs)).2 =
            reached settings ops reqs := by
  constructor
  · intro op e he
    rcases op.perform_cases (Workspace.wellFormed_empty.run ops).linked with
      ⟨_, hfail⟩ | ⟨w', hdone, -⟩
    · rw [hfail]
    · rw [hdone] at he
      cases he
  · intro req e he
    rcases req.perform_cases (wellFormed_reached settings ops reqs) with
      ⟨_, hfail⟩ | ⟨s', hdone, -⟩
    · rw [hfail]
    · rw [hdone] at he
      cases he

theorem titleRun_failed_unchanged :
    (Operation.deleteLayer "tall" "note").perform
      (Workspace.empty.run titleRun) =
        (.error (.notEdited (.layerNotFound "tall" "note")),
          Workspace.empty.run titleRun) ∧
      (Request.createChild (some "wide") "fresh" none).perform
          (reached .default titleRun [.setActive "tall"]) =
        (.error (.edit (.duplicateTemplate "wide")),
          reached .default titleRun [.setActive "tall"]) := by
  obtain ⟨hop, hreq⟩ := failed_unchanged .default titleRun [.setActive "tall"]
  have hdeleted : ((Operation.deleteLayer "tall" "note").perform
      (Workspace.empty.run titleRun)).1 =
        .error (.notEdited (.layerNotFound "tall" "note")) := by
    rfl
  have htaken : ((Request.createChild (some "wide") "fresh" none).perform
      (reached .default titleRun [.setActive "tall"])).1 =
        .error (.edit (.duplicateTemplate "wide")) := by
    rfl
  exact ⟨Prod.ext hdeleted (hop _ _ hdeleted),
    Prod.ext htaken (hreq _ _ htaken)⟩

end Session

end Placard
