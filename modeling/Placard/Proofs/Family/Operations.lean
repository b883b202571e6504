import Placard.Proofs.Family.Loops
import Placard.Proofs.Steps

/-!
# What an operation does, and that it does it or nothing

The operations on families are programs over a workspace. Here each of them is
opened once. What comes out is `Effect`: for every operation, and for either
side of a family that it can be addressed to, what must be so for it to succeed
and what the workspace is afterwards. Everything else that is said of operations
is said of their effects.

An operation that fails leaves the workspace as it was. For most of them there
is nothing in this, as they look before they write. Two look again after they
have written: a child is taken out of the links before the template is fetched,
and a layer is given to the children before it is given to the parent. Both
would stop half way in a library whose links do not match its templates.
-/

namespace Placard

/-! ## Steps of edits -/

namespace Edit

variable {w : Workspace} {bad : EditError → Workspace → Prop}

theorem ends_library {good : Library → Workspace → Prop} :
    Ends library w good bad ↔ good w.library w :=
  Iff.rfl

theorem ends_overrides {good : Overrides → Workspace → Prop} :
    Ends overrides w good bad ↔ good w.overrides w :=
  Iff.rfl

theorem ends_setLibrary {lib : Library} {good : Unit → Workspace → Prop} :
    Ends (setLibrary lib) w good bad ↔ good () { w with library := lib } :=
  Iff.rfl

theorem ends_modifyOverrides {f : Overrides → Overrides}
    {good : Unit → Workspace → Prop} :
    Ends (modifyOverrides f) w good bad ↔
      good () { w with overrides := f w.overrides } :=
  Iff.rfl

theorem ends_put {id : String} {t : Template} {good : Unit → Workspace → Prop} :
    Ends (put id t) w good bad ↔
      good () { w with library := w.library.put id t } :=
  Iff.rfl

theorem ends_template {id : String} {good : Template → Workspace → Prop} :
    Ends (template id) w good bad ↔
      (∀ t, w.library.get? id = some t → good t w) ∧
        (w.library.get? id = none → bad (.templateNotFound id) w) := by
  unfold template
  rw [ends_bind, ends_library]
  cases ht : w.library.get? id with
  | some t => simp [ends_pure]
  | none => simp [ends_throw]

theorem ends_parentOf {id : String} {e : EditError}
    {good : String → Workspace → Prop} :
    Ends (parentOf id e) w good bad ↔
      (∀ p, w.library.parentOf? id = some p → good p w) ∧
        (w.library.parentOf? id = none → bad e w) := by
  unfold parentOf
  rw [ends_bind, ends_library]
  cases hp : w.library.parentOf? id with
  | some p => simp [ends_pure]
  | none => simp [ends_throw]

theorem ends_write {id layer : String} {p : Property} {v : Value}
    {good : Unit → Workspace → Prop} :
    Ends (write id layer p v) w good bad ↔
      (∀ t, w.library.get? id = some t →
        (∀ t', t.set layer p v = .ok t' →
          good () { w with library := w.library.put id t' }) ∧
        ∀ e, t.set layer p v = .error e → bad (.notWritten e) w) ∧
      (w.library.get? id = none → bad (.templateNotFound id) w) := by
  unfold write
  rw [ends_bind, ends_template]
  cases ht : w.library.get? id with
  | none => simp
  | some t =>
      cases hset : t.set layer p v with
      | ok t' => simp [hset, ends_put]
      | error e => simp [hset, ends_throw]

theorem ends_parentHasLayer {parent layer : String}
    {good : Bool → Workspace → Prop} :
    Ends (parentHasLayer parent layer) w good bad ↔
      good ((w.library.get? parent).any fun t => t.hasLayer layer) w :=
  Iff.rfl

theorem ends_takeLayer {id key : String} {good : Unit → Workspace → Prop} :
    Ends (takeLayer id key) w good bad ↔
      (∀ t, w.library.get? id = some t → t.hasLayer key = true →
        good () { w with library := w.library.put id (t.dropLayer key) }) ∧
      (∀ t, w.library.get? id = some t → t.hasLayer key = false →
        bad (.layerNotFound id key) w) ∧
      (w.library.get? id = none → bad (.templateNotFound id) w) := by
  unfold takeLayer
  rw [ends_bind, ends_template]
  cases ht : w.library.get? id with
  | none => simp
  | some t =>
      cases hkey : t.hasLayer key with
      | true => simp [hkey, ends_put]
      | false => simp [hkey, ends_throw]

end Edit

/-! ## Operations -/

/-- An operation on a workspace, with its arguments. -/
inductive Operation where
  | register (t : Template)
  | createChild (parent : String) (id? : Option String) (generated : String)
    (canvas? : Option Size)
  | removeChild (id : String)
  | setProperty (id layer : String) (p : Property) (v : Value)
      (toggles : Toggles)
  | resetProperty (id layer : String) (p : Property)
  | resyncChild (id : String) (toggles : Toggles)
  | resetLayer (id key : String)
  | deleteLayer (id key : String)
  | addLayer (id : String) (l : Layer)
  | replaceChildLayer (id : String) (l : Layer)

/-- Why an operation is refused. -/
inductive Refusal where
  | notTaken (e : ImportError)
  | notEdited (e : EditError)

/-- The outcome of an edit, without what it answers. -/
def Workspace.edited {α : Type} (ended : Except EditError α × Workspace) :
    Except Refusal Unit × Workspace :=
  match ended with
  | (.ok _, w) => (.ok (), w)
  | (.error e, w) => (.error (.notEdited e), w)

open Workspace in
/-- What an operation comes to on a workspace. -/
def Operation.perform (w : Workspace) :
    Operation → Except Refusal Unit × Workspace
  | register t =>
    match w.library.register t with
    | .ok lib => (.ok (), { w with library := lib })
    | .error e => (.error (.notTaken e), w)
  | createChild parent id? generated canvas? =>
    edited (outcome (Edit.createChild parent id? generated canvas?) w)
  | removeChild id => edited (outcome (Edit.removeChild id) w)
  | setProperty id layer p v toggles =>
    edited (outcome (Edit.setProperty id layer p v toggles) w)
  | resetProperty id layer p =>
    edited (outcome (Edit.resetProperty id layer p) w)
  | resyncChild id toggles => edited (outcome (Edit.resyncChild id toggles) w)
  | resetLayer id key => edited (outcome (Edit.resetLayer id key) w)
  | deleteLayer id key => edited (outcome (Edit.deleteLayer id key) w)
  | addLayer id l => edited (outcome (Edit.addLayer id l) w)
  | replaceChildLayer id l => edited (outcome (Edit.replaceChildLayer id l) w)

/-- Whether a template has a layer. -/
def Library.hasLayer (lib : Library) (id layer : String) : Bool :=
  (lib.get? id).any fun t => t.hasLayer layer

/-- Why a value is not written to a template, if it is not. -/
def Library.refusal? (lib : Library) (id layer : String) (p : Property)
    (v : Value) : Option EditError :=
  match lib.get? id with
  | none => some (.templateNotFound id)
  | some t =>
    match t.set layer p v with
    | .error e => some (.notWritten e)
    | .ok _ => none

/-- What an operation that succeeds does. -/
inductive Effect (w : Workspace) : Operation → Workspace → Prop where
  | register {t : Template} {lib : Library} (hvalid : t.check.valid = true)
      (hlib : w.library.AddsParent t lib) :
      Effect w (.register t) { w with library := lib }
  | createChild {parent id generated : String} {id? : Option String}
      {canvas? : Option Size} {t : Template} {lib : Library}
      (hlib : w.library.AddsChild parent id t
        (Library.childTemplate t id canvas?) lib) :
      Effect w (.createChild parent id? generated canvas?) { w with
        library := lib }
  | removeChild {id parent : String}
      (hparent : w.library.parentOf? id = some parent) :
      Effect w (.removeChild id)
        ⟨(w.library.detach id parent).discard id, w.overrides.clearChild id⟩
  | setOfParent {id layer : String} {p : Property} {v : Value}
      {toggles : Toggles} {t t' : Template}
      (hid : w.library.isParent id = true) (ht : w.library.get? id = some t)
      (hset : t.set layer p v = .ok t') :
      Effect w (.setProperty id layer p v toggles) { w with
        library := ((w.library.put id t').writeAll layer p v
          (propagationTargets layer p (w.library.childrenOf id)
            w.overrides toggles
            fun child => (w.library.put id t').holds child layer)).1 }
  | setOfChild {id parent layer : String} {p : Property} {v : Value}
      {toggles : Toggles} {t t' : Template}
      (hparent : w.library.parentOf? id = some parent)
      (ht : w.library.get? id = some t) (hset : t.set layer p v = .ok t') :
      Effect w (.setProperty id layer p v toggles) {
        library := w.library.put id t'
        overrides :=
          if w.library.holds parent layer && !w.overrides.isLayerOverridden id
            layer then
              w.overrides.mark id layer p
          else w.overrides }
  | resetProperty {id parent layer : String} {p : Property} {v : Value}
      {u t t' : Template} (hparent : w.library.parentOf? id = some parent)
      (hwhole : w.overrides.isLayerOverridden id layer = false)
      (hu : w.library.get? parent = some u) (hv : u.get? layer p = some v)
      (ht : w.library.get? id = some t) (hset : t.set layer p v = .ok t') :
      Effect w (.resetProperty id layer p)
        ⟨w.library.put id t', w.overrides.unmark id layer p⟩
  | resyncChild {id parent : String} {toggles : Toggles} {u t : Template}
      (hparent : w.library.parentOf? id = some parent)
      (hu : w.library.get? parent = some u) (ht : w.library.get? id = some t) :
      Effect w (.resyncChild id toggles) { w with
        library := w.library.put id
          (t.takeValues (inheritedValues u w.overrides id toggles)).1 }
  | resetLayer {id parent key : String} {l : Layer} {u t : Template}
      (hparent : w.library.parentOf? id = some parent)
      (hu : w.library.get? parent = some u) (hl : u.layer? key = some l)
      (ht : w.library.get? id = some t) :
      Effect w (.resetLayer id key) {
        library := w.library.put id
          (t.placeLayer l ((u.layerIndex? key).getD t.layers.length))
        overrides := w.overrides.clearLayer id key }
  | deleteOfParent {id key : String} {t : Template}
      (hid : w.library.isParent id = true) (ht : w.library.get? id = some t)
      (hkey : t.hasLayer key = true) :
      Effect w (.deleteLayer id key)
        (({ w with library := w.library.put id (t.dropLayer key) } :
          Workspace).dropFromChildren key (w.library.childrenOf id))
  | deleteOfChild {id parent key : String} {t : Template}
      (hparent : w.library.parentOf? id = some parent)
      (ht : w.library.get? id = some t) (hkey : t.hasLayer key = true) :
      Effect w (.deleteLayer id key) {
        library := w.library.put id (t.dropLayer key)
        overrides :=
          if w.library.hasLayer parent key then
            (w.overrides.clearLayer id key).markLayer id key
          else w.overrides.clearLayer id key }
  | addToParent {id : String} {l : Layer} {t : Template}
      (hid : w.library.isParent id = true) (ht : w.library.get? id = some t)
      (hkey : l.key ≠ canvasKey) (hnew : t.hasLayer l.key = false) :
      Effect w (.addLayer id l) { w with
        library :=
          (w.library.pushAll l (w.library.childrenOf id)).1.put id
            (t.pushLayer l) }
  | addToChild {id parent : String} {l : Layer} {t : Template}
      (hparent : w.library.parentOf? id = some parent)
      (ht : w.library.get? id = some t) (hkey : l.key ≠ canvasKey)
      (hnew : t.hasLayer l.key = false) :
      Effect w (.addLayer id l) { w with
        library := w.library.put id (t.pushLayer l) }
  | replaceChildLayer {id parent : String} {l : Layer} {t : Template}
      (hparent : w.library.parentOf? id = some parent)
      (ht : w.library.get? id = some t) :
      Effect w (.replaceChildLayer id l) {
        library := w.library.put id (t.placeLayer l t.layers.length)
        overrides :=
          if w.library.hasLayer parent l.key then
            (w.overrides.clearLayer id l.key).markLayer id l.key
          else w.overrides }

/-- Seen from the library, an operation edits templates, or makes or removes
one. -/
theorem Effect.library_cases {w w' : Workspace} {op : Operation}
    (h : Effect w op w') (hlinked : w.library.Linked) :
    w.library.Edits w'.library ∨
      (∃ t, t.check.valid = true ∧ w.library.AddsParent t w'.library ∧
        w'.overrides = w.overrides) ∨
      (∃ p id canvas? t,
        w.library.AddsChild p id t (Library.childTemplate t id canvas?)
          w'.library ∧
        w'.overrides = w.overrides) ∨
      ∃ id p, op = .removeChild id ∧ w.library.parentOf? id = some p ∧
        w' = ⟨(w.library.detach id p).discard id,
          w.overrides.clearChild id⟩ := by
  cases h with
  | register hvalid hlib => exact Or.inr (Or.inl ⟨_, hvalid, hlib, rfl⟩)
  | createChild hlib => exact Or.inr (Or.inr (Or.inl ⟨_, _, _, _, hlib, rfl⟩))
  | removeChild hid => exact Or.inr (Or.inr (Or.inr ⟨_, _, rfl, hid, rfl⟩))
  | setOfParent _ ht hset =>
      exact Or.inl (.trans (.put ht (.set hset))
        (Library.edits_writeAll _ _ _ _ _))
  | setOfChild _ ht hset => exact Or.inl (.put ht (.set hset))
  | resetProperty _ _ _ _ ht hset => exact Or.inl (.put ht (.set hset))
  | resyncChild _ _ ht => exact Or.inl (.put ht (Template.edits_takeValues _ _))
  | resetLayer _ _ _ ht => exact Or.inl (.put ht (.place _ _ _))
  | @deleteOfParent id key t _ ht _ =>
      exact Or.inl (.trans (.put ht (.drop t key))
        (Library.edits_dropFromChildren key
          { w with library := w.library.put id (t.dropLayer key) } _))
  | deleteOfChild _ ht _ => exact Or.inl (.put ht (.drop _ _))
  | @addToParent id l t _ ht _ hnew =>
      refine Or.inl (.trans (Library.edits_pushAll l _ _)
        (.put ?_ (.push hnew)))
      rw [get?_pushAll l (hlinked.nodup_childrenOf id),
        if_neg (hlinked.not_mem_own_children id), ht]
  | addToChild _ ht _ hnew => exact Or.inl (.put ht (.push hnew))
  | replaceChildLayer _ ht => exact Or.inl (.put ht (.place _ _ _))

/-- No template goes but by being removed. -/
theorem Effect.contains {w w' : Workspace} {op : Operation} {id : String}
    (h : Effect w op w') (hlinked : w.library.Linked)
    (hid : w.library.contains id = true) (hop : op ≠ .removeChild id) :
    w'.library.contains id = true := by
  obtain ⟨t, ht⟩ := Library.exists_get? hid
  rcases h.library_cases hlinked with
    hedits | ⟨u, -, hadds, -⟩ | ⟨p, c, canvas?, u, hadds, -⟩ | ⟨c, p,
      rfl, -, rfl⟩
  · exact (hedits.contains_eq id).trans hid
  · exact Library.contains_of_get? (hadds.get?_eq_some ht)
  · exact Library.contains_of_get? (hadds.get?_eq_some ht)
  · rw [Library.contains_detach_of_ne fun heq => hop (by rw [heq])]
    exact hid

/-! ## Every operation has its effect or none -/

section Edits

variable {w : Workspace}

theorem ends_createChild (parent : String) (id? : Option String)
    (generated : String) (canvas? : Option Size) :
    Ends (Edit.createChild parent id? generated canvas?) w
      (fun id w' => Effect w (.createChild parent id? generated canvas?) w' ∧
        ∃ t, w'.library.get? id = some t ∧
        w'.library.parentOf? id = some parent)
      fun _ w' => w' = w := by
  unfold Edit.createChild
  rw [ends_bind, Edit.ends_library]
  dsimp only
  split
  · next lib hlib =>
      obtain ⟨t, hadds⟩ := Library.exists_addsChild hlib
      rw [ends_bind, Edit.ends_setLibrary, ends_pure]
      refine ⟨.createChild hadds, _, (hadds.get? _).trans (if_pos rfl), ?_⟩
      exact (hadds.parentOf? _).trans (if_pos rfl)
  · exact ends_throw.mpr rfl

theorem ends_removeChild (hlinked : w.library.Linked) (id : String) :
    Ends (Edit.removeChild id) w (fun _ w' => Effect w (.removeChild id) w')
      fun _ w' => w' = w := by
  unfold Edit.removeChild
  rw [ends_bind, Edit.ends_parentOf]
  refine ⟨fun parent hparent => ?_, fun _ => rfl⟩
  rw [ends_bind, Edit.ends_library, ends_bind, Edit.ends_setLibrary, ends_bind,
    Edit.ends_template]
  obtain ⟨t, ht⟩ := hlinked.exists_child hparent
  refine ⟨fun _ _ => ?_, fun hnone => ?_⟩
  · rw [ends_bind, Edit.ends_library, ends_bind, Edit.ends_setLibrary,
      ends_bind, Edit.ends_modifyOverrides, ends_pure]
    exact .removeChild hparent
  · -- Detaching has left the templates alone, and the child is among them.
    rw [show (w.library.detach id parent).get? id = w.library.get? id from rfl,
      ht] at hnone
    cases hnone

theorem ends_setProperty_refusal (id layer : String) (p : Property) (v : Value)
    (toggles : Toggles) :
    Ends (Edit.setProperty id layer p v toggles) w
      (fun _ w' => Effect w (.setProperty id layer p v toggles) w')
      fun e w' => w' = w ∧ w.library.refusal? id layer p v = some e := by
  have hmissing (hnone : w.library.get? id = none) :
      w.library.refusal? id layer p v = some (.templateNotFound id) := by
    simp only [Library.refusal?, hnone]
  have hrefused {t : Template} {e : WriteError}
      (ht : w.library.get? id = some t) (hset : t.set layer p v = .error e) :
      w.library.refusal? id layer p v = some (.notWritten e) := by
    simp only [Library.refusal?, ht, hset]
  unfold Edit.setProperty
  rw [ends_bind, Edit.ends_library, ends_ite]
  refine ⟨fun hid => ?_, fun hid => ?_⟩
  · rw [ends_bind, Edit.ends_write]
    refine ⟨fun t ht => ⟨fun t' hset => ?_,
      fun e hset => ⟨rfl, hrefused ht hset⟩⟩,
      fun hnone => ⟨rfl, hmissing hnone⟩⟩
    rw [ends_bind, ends_get, ends_bind, Edit.ends_setLibrary, ends_pure]
    exact .setOfParent hid ht hset
  · rw [Bool.not_eq_true] at hid
    rw [ends_bind, Edit.ends_parentOf]
    refine ⟨fun parent hparent => ?_, fun horphan => ⟨rfl, hmissing ?_⟩⟩
    · rw [ends_bind, ends_get, ends_bind, Edit.ends_write]
      refine ⟨fun t ht => ⟨fun t' hset => ?_,
        fun e hset => ⟨rfl, hrefused ht hset⟩⟩,
        fun hnone => ⟨rfl, hmissing hnone⟩⟩
      have heffect : Effect w (.setProperty id layer p v toggles) _ :=
        .setOfChild hparent ht hset
      refine ends_ite.mpr ⟨fun htracked => ?_, fun hnot => ?_⟩
      · rw [if_pos htracked] at heffect
        exact heffect
      · rw [if_neg hnot] at heffect
        exact heffect
    · -- A template that is no parent and has none is not there.
      by_contra hthere
      obtain ⟨t, ht⟩ := Option.ne_none_iff_exists'.mp hthere
      obtain ⟨parent, hparent⟩ :=
        Library.parentOf?_of_not_isParent (Library.contains_of_get? ht) hid
      rw [horphan] at hparent
      cases hparent

theorem ends_setProperty (id layer : String) (p : Property) (v : Value)
    (toggles : Toggles) :
    Ends (Edit.setProperty id layer p v toggles) w
      (fun _ w' => Effect w (.setProperty id layer p v toggles) w') fun _ w' =>
        w' = w :=
  (ends_setProperty_refusal id layer p v toggles).mono (fun _ _ h => h)
    fun _ _ h => h.1

theorem ends_resetProperty (id layer : String) (p : Property) :
    Ends (Edit.resetProperty id layer p) w
      (fun _ w' => Effect w (.resetProperty id layer p) w') fun _ w' =>
        w' = w := by
  unfold Edit.resetProperty
  rw [ends_bind, Edit.ends_parentOf]
  refine ⟨fun parent hparent => ?_, fun _ => rfl⟩
  rw [ends_bind, Edit.ends_overrides]
  refine ends_ite.mpr ⟨fun _ => rfl, fun hwhole => ?_⟩
  rw [Bool.not_eq_true] at hwhole
  rw [ends_bind, Edit.ends_template]
  refine ⟨fun u hu => ?_, fun _ => rfl⟩
  split
  · exact ends_throw.mpr rfl
  · next v hv =>
      rw [ends_bind, Edit.ends_write]
      refine ⟨fun t ht => ⟨fun t' hset => ?_, fun _ _ => rfl⟩, fun _ => rfl⟩
      rw [ends_bind, Edit.ends_modifyOverrides, ends_pure]
      exact .resetProperty hparent hwhole hu hv ht hset

theorem ends_resyncChild (id : String) (toggles : Toggles) :
    Ends (Edit.resyncChild id toggles) w
      (fun _ w' => Effect w (.resyncChild id toggles) w') fun _ w' =>
        w' = w := by
  unfold Edit.resyncChild
  rw [ends_bind, Edit.ends_parentOf]
  refine ⟨fun parent hparent => ?_, fun _ => rfl⟩
  rw [ends_bind, Edit.ends_template]
  refine ⟨fun u hu => ?_, fun _ => rfl⟩
  rw [ends_bind, Edit.ends_overrides, ends_bind, Edit.ends_template]
  refine ⟨fun t ht => ?_, fun _ => rfl⟩
  rw [ends_bind, Edit.ends_put, ends_pure]
  exact .resyncChild hparent hu ht

theorem ends_resetLayer (id key : String) :
    Ends (Edit.resetLayer id key) w
      (fun _ w' => Effect w (.resetLayer id key) w') fun _ w' => w' = w := by
  unfold Edit.resetLayer
  rw [ends_bind, Edit.ends_parentOf]
  refine ⟨fun parent hparent => ?_, fun _ => rfl⟩
  rw [ends_bind, Edit.ends_template]
  refine ⟨fun u hu => ?_, fun _ => rfl⟩
  split
  · exact ends_throw.mpr rfl
  · next l hl =>
      rw [ends_bind, Edit.ends_template]
      refine ⟨fun t ht => ?_, fun _ => rfl⟩
      rw [ends_bind, Edit.ends_put, Edit.ends_modifyOverrides]
      exact .resetLayer hparent hu hl ht

theorem ends_deleteLayer (hlinked : w.library.Linked) (id key : String) :
    Ends (Edit.deleteLayer id key) w
      (fun _ w' => Effect w (.deleteLayer id key) w') fun _ w' => w' = w := by
  unfold Edit.deleteLayer
  rw [ends_bind, Edit.ends_library, ends_ite]
  refine ⟨fun hid => ?_, fun _ => ?_⟩
  · rw [ends_bind, Edit.ends_takeLayer]
    refine ⟨fun t ht hkey => ?_, fun _ _ _ => rfl, fun _ => rfl⟩
    exact ends_modify.mpr (.deleteOfParent hid ht hkey)
  · rw [ends_bind, Edit.ends_parentOf]
    refine ⟨fun parent hparent => ?_, fun _ => rfl⟩
    rw [ends_bind, Edit.ends_takeLayer]
    refine ⟨fun t ht hkey => ?_, fun _ _ _ => rfl, fun _ => rfl⟩
    have heffect := Effect.deleteOfChild hparent ht hkey
    have hsame : ((w.library.put id (t.dropLayer key)).get? parent).any
        (fun u => u.hasLayer key) = w.library.hasLayer parent key := by
      rw [Library.get?_put_of_ne (Ne.symm (hlinked.ne_parent hparent)),
        Library.hasLayer]
    rw [ends_bind, Edit.ends_modifyOverrides, ends_bind,
      Edit.ends_parentHasLayer, hsame, ends_ite]
    refine ⟨fun hhas => ?_, fun hnot => ?_⟩
    · rw [if_pos hhas] at heffect
      exact heffect
    · rw [if_neg hnot] at heffect
      exact heffect

theorem ends_addLayer (hlinked : w.library.Linked) (id : String) (l : Layer) :
    Ends (Edit.addLayer id l) w (fun _ w' => Effect w (.addLayer id l) w')
      fun _ w' => w' = w := by
  unfold Edit.addLayer
  rw [ends_bind, Edit.ends_template]
  refine ⟨fun t ht => ?_, fun _ => rfl⟩
  refine ends_ite.mpr ⟨fun _ => rfl, fun hkey => ?_⟩
  obtain ⟨hne, hnew⟩ := not_or.mp hkey
  rw [Bool.not_eq_true] at hnew
  rw [ends_bind, Edit.ends_library, ends_ite]
  refine ⟨fun hid => ?_, fun hid => ?_⟩
  · rw [ends_bind, Edit.ends_setLibrary, ends_bind, Edit.ends_template,
      get?_pushAll l (hlinked.nodup_childrenOf id),
      if_neg (hlinked.not_mem_own_children id)]
    refine ⟨fun t' ht' => ?_, fun hnone => ?_⟩
    · rw [ht, Option.some.injEq] at ht'
      subst ht'
      exact Effect.addToParent hid ht hne hnew
    · rw [ht] at hnone
      cases hnone
  · rw [Bool.not_eq_true] at hid
    obtain ⟨parent, hparent⟩ :=
      Library.parentOf?_of_not_isParent (Library.contains_of_get? ht) hid
    exact Effect.addToChild hparent ht hne hnew

theorem ends_replaceChildLayer (id : String) (l : Layer) :
    Ends (Edit.replaceChildLayer id l) w
      (fun _ w' => Effect w (.replaceChildLayer id l) w') fun _ w' =>
        w' = w := by
  unfold Edit.replaceChildLayer
  rw [ends_bind, Edit.ends_parentOf]
  refine ⟨fun parent hparent => ?_, fun _ => rfl⟩
  rw [ends_bind, Edit.ends_parentHasLayer, ends_bind, Edit.ends_template]
  refine ⟨fun t ht => ?_, fun _ => rfl⟩
  have heffect := Effect.replaceChildLayer (l := l) hparent ht
  rw [ends_bind, Edit.ends_put, ends_ite]
  refine ⟨fun hhas => ?_, fun hnot => ?_⟩
  · rw [Library.hasLayer, if_pos hhas] at heffect
    exact heffect
  · rw [Library.hasLayer, if_neg hnot] at heffect
    exact heffect

end Edits

theorem register_cases (w : Workspace) (t : Template) :
    (∃ e, w.library.register t = .error e) ∨
      ∃ lib, w.library.register t = .ok lib ∧ t.check.valid = true ∧
        w.library.AddsParent t lib := by
  unfold Library.register Template.accept
  cases hvalid : t.check.valid with
  | false => exact Or.inl ⟨_, rfl⟩
  | true =>
      show (∃ e, w.library.addParent t = .error e) ∨
        ∃ lib, w.library.addParent t = .ok lib ∧ _
      cases hlib : w.library.addParent t with
      | error e => exact Or.inl ⟨e, rfl⟩
      | ok lib => exact Or.inr ⟨lib, rfl, rfl, Library.addsParent hlib⟩

theorem Workspace.edited_cases {α : Type} {w : Workspace} {x : Edit α}
    {good : Workspace → Prop}
    (h : Ends x w (fun _ w' => good w') fun _ w' => w' = w) :
    (∃ e, edited (outcome x w) = (.error e, w)) ∨
      ∃ w', edited (outcome x w) = (.ok (), w') ∧ good w' := by
  rcases h.cases with ⟨e, w', hx, rfl⟩ | ⟨_, w', hx, h⟩
  · exact Or.inl ⟨.notEdited e, by rw [hx, edited]⟩
  · exact Or.inr ⟨w', by rw [hx, edited], h⟩

/-- An operation either fails and leaves the workspace as it was, or succeeds
and has its effect. -/
theorem Operation.perform_cases {w : Workspace} (hlinked : w.library.Linked)
    (op : Operation) :
    (∃ e, op.perform w = (.error e, w)) ∨
      ∃ w', op.perform w = (.ok (), w') ∧ Effect w op w' := by
  cases op with
  | register t =>
      rcases register_cases w t with ⟨e, he⟩ | ⟨lib, hlib, hvalid, hadds⟩
      · exact Or.inl ⟨.notTaken e, by rw [perform, he]⟩
      · exact Or.inr ⟨_, by rw [perform, hlib], .register hvalid hadds⟩
  | createChild parent id? generated canvas? =>
      exact Workspace.edited_cases
        ((ends_createChild parent id? generated canvas?).mono
          (fun _ _ h => h.1) fun _ _ h => h)
  | removeChild id => exact Workspace.edited_cases (ends_removeChild hlinked id)
  | setProperty id layer p v toggles =>
      exact Workspace.edited_cases (ends_setProperty id layer p v toggles)
  | resetProperty id layer p =>
      exact Workspace.edited_cases (ends_resetProperty id layer p)
  | resyncChild id toggles =>
      exact Workspace.edited_cases (ends_resyncChild id toggles)
  | resetLayer id key => exact Workspace.edited_cases (ends_resetLayer id key)
  | deleteLayer id key =>
      exact Workspace.edited_cases (ends_deleteLayer hlinked id key)
  | addLayer id l => exact Workspace.edited_cases (ends_addLayer hlinked id l)
  | replaceChildLayer id l =>
      exact Workspace.edited_cases (ends_replaceChildLayer id l)

/-- What holds of a workspace and of what an operation makes of it holds whether
the operation succeeds or not. -/
theorem Operation.perform_induct {P : Workspace → Prop} {w : Workspace}
    {op : Operation} (hlinked : w.library.Linked) (h : P w)
    (heffect : ∀ w', Effect w op w' → P w') : P (op.perform w).2 := by
  rcases op.perform_cases hlinked with ⟨e, he⟩ | ⟨w', hw', hdone⟩
  · rw [he]
    exact h
  · rw [hw']
    exact heffect w' hdone

/-! ## Runs -/

/-- The workspace after operations have been performed in turn, whether they
succeed or not. -/
def Workspace.run (w : Workspace) (ops : List Operation) : Workspace :=
  ops.foldl (fun w op => (op.perform w).2) w

/-- Every operation of a run is as asked, on the workspace that it meets. -/
def Workspace.Each (asked : Workspace → Operation → Prop) :
    Workspace → List Operation → Prop
  | _, [] => True
  | w, op :: ops => asked w op ∧ Each asked (op.perform w).2 ops

theorem Workspace.Each.mono {asked asked' : Workspace → Operation → Prop}
    (h : ∀ w op, asked w op → asked' w op) {w : Workspace}
    {ops : List Operation} (hops : w.Each asked ops) : w.Each asked' ops := by
  induction ops generalizing w with
  | nil => trivial
  | cons op rest ih => exact ⟨h w op hops.1, ih hops.2⟩

theorem Workspace.each_of_forall {asked : Operation → Prop}
    {ops : List Operation} (h : ∀ op ∈ ops, asked op) (w : Workspace) :
    w.Each (fun _ op => asked op) ops := by
  induction ops generalizing w with
  | nil => trivial
  | cons op rest ih =>
      obtain ⟨hop, hrest⟩ := List.forall_mem_cons.mp h
      exact ⟨hop, ih hrest _⟩

/-- A child with a layer of its parent and, for a while, one of its own: a run
that what is said of runs can be tried on. -/
def titleRun : List Operation :=
  [.register (.ofCanvas "wide" 1200 628), .createChild "wide" (some "tall")
    "fresh" (some ⟨628, 1200⟩),
      .addLayer "wide" ⟨"title", .text (.ofField "title" (.px 32))⟩,
      .setProperty "tall" canvasKey .backgroundColor (.color .black) .all,
    .addLayer "tall" ⟨"note", .text (.ofField "note" (.px 32))⟩,
    .setProperty "wide" "title" .color (.color .white) .all,
    .deleteLayer "tall" "note"]

end Placard
