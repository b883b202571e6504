import Placard.Proofs.Field.Seeds

/-!
# What a field shows once it is released

A field that is bound remembers the literal it had, and shows it again once it
is released. Whatever is done to the fields acts on each of them by itself, so a
history of edits is one of transitions of a single field, and two facts about
these carry all the rest. A field that is not bound has neither a key nor
anything that it remembers. And one that is bound goes on remembering what it
does until it is released or starts again: a literal that is set meanwhile is
what the look-up falls back on, and another key puts nothing new in the place of
what is remembered. A field that was bound from the start remembers nothing, and
shows the default of the catalog.
-/

namespace Placard

/-! ## Edits of fields -/

/-- What is done to the content of fields. -/
inductive FieldEdit where
  | setLiteral (field value : String)
  | bind (field key : String)
  /-- The field becomes a literal again; the catalog has the defaults. -/
  | release (field : String) (catalog : Catalog)
  /-- All fields start again from what a catalog says of them. -/
  | restart (catalog : Catalog)
  /-- The field of a text layer starts again from what the layer says. -/
  | reseed (key : String) (text : TextLayer)

namespace FieldEdit

/-- The field that an edit is addressed to, if it is to one. -/
def field? : FieldEdit → Option String
  | setLiteral field _ | bind field _ | release field _ => some field
  | restart _ => none
  | reseed key text => some (text.field key)

/-- What an edit comes to on the fields. -/
def perform (bs : Bindings) : FieldEdit → Except BindError Bindings
  | setLiteral field value => .ok (bs.setLiteral field value)
  | bind field key => bs.bindMetadata field key
  | release field c => bs.unbind field c
  | restart c => .ok (.ofCatalog c)
  | reseed key text => .ok (bs.reseed key text)

/-- The field is not released by the edit, and does not start again. -/
def Spares (field : String) : FieldEdit → Prop
  | setLiteral _ _ | bind _ _ => True
  | release other _ => other ≠ field
  | restart _ => False
  | reseed key text => text.field key ≠ field

instance (field : String) : (e : FieldEdit) → Decidable (e.Spares field)
  | setLiteral _ _ | bind _ _ => .isTrue trivial
  | release other _ => inferInstanceAs (Decidable (other ≠ field))
  | restart _ => .isFalse id
  | reseed key text => inferInstanceAs (Decidable (text.field key ≠ field))

/-- What becomes of one field. -/
def on (field : String) (b? : Option Binding) : FieldEdit → Option Binding
  | setLiteral other value =>
    if other = field then
      some { b?.getD (Binding.ofLiteral field "") with currentLiteral := value }
    else b?
  | bind other key =>
    if other = field ∧ field ≠ backgroundField then
      let b := b?.getD (Binding.ofLiteral field "")
      some { b with
        isMetadataBound := true, metadataKey := key,
        savedLiteral :=
          if b.isMetadataBound then b.savedLiteral else some b.currentLiteral }
    else b?
  | release other c =>
    if other = field then b?.map fun b => b.released field c else b?
  | restart c => (Bindings.ofCatalog c).get? field
  | reseed key text =>
    if text.field key = field then some (Binding.ofLayer field text) else b?

end FieldEdit

namespace Bindings

/-- The fields after an edit; one that is refused leaves them as they are. -/
def edit (bs : Bindings) (e : FieldEdit) : Bindings :=
  (e.perform bs).toOption.getD bs

/-- The fields after edits in turn, whether they are refused or not. -/
def run (bs : Bindings) (edits : List FieldEdit) : Bindings :=
  edits.foldl edit bs

/-- The fields are made by edits, of nothing or of what a catalog says. -/
inductive Reachable : Bindings → Prop where
  | empty : Reachable ∅
  | seeded (c : Catalog) : Reachable (.ofCatalog c)
  | edit {bs : Bindings} (h : Reachable bs) (e : FieldEdit) :
      Reachable (bs.edit e)

variable {bs bs' : Bindings} {field : String} {e : FieldEdit}

/-- An edit acts on each field by itself. -/
theorem get?_edit (bs : Bindings) (e : FieldEdit) (field : String) :
    (bs.edit e).get? field = e.on field (bs.get? field) := by
  cases e with
  | setLiteral other value =>
      show (bs.setLiteral other value).get? field = _
      rw [setLiteral, Table.get?_insert, FieldEdit.on]
      split
      · next h => rw [← h, getOrEmpty]
      · rfl
  | bind other key =>
      rw [FieldEdit.on, edit, FieldEdit.perform, bindMetadata]
      by_cases hback : other = backgroundField
      · rw [if_pos hback, if_neg fun h => h.2 (h.1 ▸ hback)]
        rfl
      · rw [if_neg hback]
        show Table.get? (Table.insert bs other _) field = _
        rw [Table.get?_insert]
        split
        · next h =>
            subst h
            exact (if_pos ⟨rfl, hback⟩).symm
        · next h => exact (if_neg fun h' => h h'.1).symm
  | release other c =>
      rw [FieldEdit.on, edit, FieldEdit.perform, unbind]
      cases hget : bs.get? other with
      | none =>
          show bs.get? field = _
          split
          · next h => rw [← h, hget, Option.map_none]
          · rfl
      | some b =>
          show Table.get? (Table.insert bs other _) field = _
          rw [Table.get?_insert]
          split
          · next h => rw [← h, hget, Option.map_some]
          · rfl
  | restart c => rfl
  | reseed key text =>
      show (bs.reseed key text).get? field = _
      rw [reseed, Table.get?_insert, FieldEdit.on]
      split
      · next h => rw [h]
      · rfl

/-- An edit of one field leaves the others as they are. -/
theorem get?_edit_of_ne {other : String} (he : e.field? = some field)
    (hne : other ≠ field) : (bs.edit e).get? other = bs.get? other := by
  rw [get?_edit]
  cases e with
  | restart c => cases he
  | setLiteral _ _ | release _ _ | reseed _ _ =>
      cases he
      exact if_neg hne.symm
  | bind _ _ =>
      cases he
      exact if_neg fun h => hne h.1.symm

end Bindings

/-! ## What edits keep of a field -/

namespace Binding

/-- The content is that of the field and, where it is a literal, nothing
else. -/
structure Sound (field : String) (b : Binding) : Prop where
  name : b.fieldName = field
  loose : b.isMetadataBound = false → b.metadataKey = "" ∧ b.savedLiteral = none

variable {field : String} {b : Binding}

theorem sound_ofLiteral (field literal : String) :
    (ofLiteral field literal).Sound field :=
  ⟨rfl, fun _ => ⟨rfl, rfl⟩⟩

theorem sound_ofDefault (field literal : String) (key : Option String) :
    (ofDefault field literal key).Sound field := by
  unfold ofDefault
  split
  · exact ⟨rfl, fun h => by cases h⟩
  · exact sound_ofLiteral field literal

/-- A literal is all that is said of a field that is not bound. -/
theorem Sound.eq_ofLiteral (h : b.Sound field)
    (hloose : b.isMetadataBound = false) :
    b = ofLiteral field b.currentLiteral := by
  obtain ⟨name, literal, bound, key, saved⟩ := b
  obtain ⟨rfl, hfree⟩ := h
  obtain ⟨rfl, rfl⟩ := hfree hloose
  obtain rfl : bound = false := hloose
  rfl

/-- The literal that a field shows that is released while it is bound. -/
theorem Sound.released_of_bound (h : b.Sound field)
    (hbound : b.isMetadataBound = true) (c : Catalog) :
    b.released field c =
      ofLiteral field ((b.savedLiteral.or (c.defaultFor? field)).getD "") := by
  obtain ⟨rfl, -⟩ := h
  rw [released, if_pos hbound]
  rfl

theorem released_of_loose (hloose : b.isMetadataBound = false) (c : Catalog) :
    b.released field c = b := by
  rw [released, if_neg (by rw [hloose]; exact Bool.false_ne_true)]

theorem isMetadataBound_released (b : Binding) (field : String) (c : Catalog) :
    (b.released field c).isMetadataBound = false := by
  unfold released
  split
  · rfl
  · next h => exact Bool.not_eq_true _ ▸ h

theorem Sound.released (h : b.Sound field) (c : Catalog) :
    (b.released field c).Sound field := by
  cases hbound : b.isMetadataBound with
  | true => exact h.released_of_bound hbound c ▸ sound_ofLiteral field _
  | false => rwa [released_of_loose hbound]

/-- The field is bound, and this is the literal that it remembers, if it
remembers one. -/
def Remembers (saved : Option String) (b : Binding) : Prop :=
  b.isMetadataBound = true ∧ b.savedLiteral = saved

end Binding

namespace FieldEdit

variable {field : String} {b? : Option Binding} {e : FieldEdit}

theorem sound_getD (h : ∀ b ∈ b?, b.Sound field) :
    (b?.getD (Binding.ofLiteral field "")).Sound field := by
  cases b? with
  | none => exact Binding.sound_ofLiteral field ""
  | some b => exact h b rfl

theorem sound_on (h : ∀ b ∈ b?, b.Sound field) (e : FieldEdit) :
    ∀ b ∈ e.on field b?, b.Sound field := by
  have hd := sound_getD h
  intro b hb
  cases e with
  | setLiteral other value =>
      rw [on] at hb
      split at hb
      · cases hb
        exact ⟨hd.name, hd.loose⟩
      · exact h b hb
  | bind other key =>
      rw [on] at hb
      split at hb
      · cases hb
        exact ⟨hd.name, fun hloose => by cases hloose⟩
      · exact h b hb
  | release other c =>
      rw [on] at hb
      split at hb
      · obtain ⟨b₀, hb₀, rfl⟩ := Option.map_eq_some_iff.mp hb
        exact (h b₀ hb₀).released c
      · exact h b hb
  | restart c =>
      rw [on, Bindings.get?_ofCatalog] at hb
      obtain ⟨info, -, rfl⟩ := Option.map_eq_some_iff.mp hb
      exact Binding.sound_ofDefault field _ _
  | reseed key text =>
      rw [on] at hb
      split at hb
      · cases hb
        exact Binding.sound_ofDefault field _ _
      · exact h b hb

/-- What is remembered when a field is bound that was not bound before. -/
theorem remembers_bind (hfield : field ≠ backgroundField) (key : String)
    (hloose : (b?.getD (Binding.ofLiteral field "")).isMetadataBound = false) :
    ∃ b ∈ (bind field key).on field b?,
      b.Remembers
        (some (b?.getD (Binding.ofLiteral field "")).currentLiteral) := by
  rw [on, if_pos ⟨rfl, hfield⟩]
  refine ⟨_, rfl, rfl, ?_⟩
  simp only [hloose, Bool.false_eq_true, if_false]

/-- A field that is neither released nor starts again remembers what it did. -/
theorem remembers_on {saved : Option String} (hspares : e.Spares field)
    (h : ∃ b ∈ b?, b.Remembers saved) :
    ∃ b ∈ e.on field b?, b.Remembers saved := by
  obtain ⟨b, rfl, hbound, hsaved⟩ := h
  cases e with
  | setLiteral other value =>
      rw [on]
      split
      · exact ⟨_, rfl, hbound, hsaved⟩
      · exact ⟨b, rfl, hbound, hsaved⟩
  | bind other key =>
      rw [on]
      split
      · refine ⟨_, rfl, rfl, ?_⟩
        simp only [Option.getD_some, hbound, if_true, hsaved]
      · exact ⟨b, rfl, hbound, hsaved⟩
  | release other c => exact ⟨b, if_neg hspares, hbound, hsaved⟩
  | restart c => exact hspares.elim
  | reseed key text => exact ⟨b, if_neg hspares, hbound, hsaved⟩

end FieldEdit

/-! ## Histories -/

namespace Bindings

variable {bs bs' : Bindings} {field : String} {saved : Option String}
  {edits : List FieldEdit}

/-- The content of every field is sound. -/
def Sound (bs : Bindings) : Prop :=
  ∀ field, ∀ b ∈ bs.get? field, b.Sound field

theorem Sound.edit (h : bs.Sound) (e : FieldEdit) : (bs.edit e).Sound := by
  intro field
  rw [get?_edit]
  exact FieldEdit.sound_on (h field) e

theorem Sound.run (h : bs.Sound) (edits : List FieldEdit) :
    (bs.run edits).Sound := by
  induction edits generalizing bs with
  | nil => exact h
  | cons e rest ih => exact ih (h.edit e)

theorem sound_empty : Sound ∅ :=
  fun _ _ h => by cases h

theorem Reachable.sound (h : Reachable bs) : bs.Sound := by
  induction h with
  | empty => exact sound_empty
  | seeded c => exact sound_empty.edit (.restart c)
  | edit _ e ih => exact ih.edit e

theorem Reachable.run (h : Reachable bs) (edits : List FieldEdit) :
    Reachable (bs.run edits) := by
  induction edits generalizing bs with
  | nil => exact h
  | cons e rest ih => exact ih (h.edit e)

theorem remembers_run (hspares : ∀ e ∈ edits, e.Spares field)
    (h : ∃ b ∈ bs.get? field, b.Remembers saved) :
    ∃ b ∈ (bs.run edits).get? field, b.Remembers saved := by
  induction edits generalizing bs with
  | nil => exact h
  | cons e rest ih =>
      obtain ⟨hfirst, hrest⟩ := List.forall_mem_cons.mp hspares
      refine ih hrest ?_
      rw [get?_edit]
      exact FieldEdit.remembers_on hfirst h

/-- The field is released to a literal. To release it again changes nothing, and
the other fields are as they were. -/
structure Releases (bs : Bindings) (field : String) (c : Catalog)
    (literal : String) (bs' : Bindings) : Prop where
  released : bs.unbind field c = .ok bs'
  shows : bs'.get? field = some (Binding.ofLiteral field literal)
  again : ∀ c', bs'.unbind field c' = .ok bs'
  others : ∀ other, other ≠ field → bs'.get? other = bs.get? other

/-- What has been released stays as it is when it is released again. -/
theorem unbind_unbind {c : Catalog} (h : bs.unbind field c = .ok bs')
    (c' : Catalog) : bs'.unbind field c' = .ok bs' := by
  rw [unbind] at h
  split at h
  · cases h
  · next b _ =>
      cases h
      rw [unbind, Table.get?_insert, if_pos rfl]
      dsimp only
      rw [Binding.released_of_loose (b.isMetadataBound_released field c)]
      refine congrArg Except.ok (Table.ext fun other => ?_)
      rw [Table.get?_insert, Table.get?_insert]
      split <;> rfl

/-- A field that is not bound can be bound, and remembers the literal that it
had. -/
theorem Sound.exists_bind (h : bs.Sound) (hfield : field ≠ backgroundField)
    (key : String) (hloose : (bs.getOrEmpty field).isMetadataBound = false) :
    ∃ bound, bs.bindMetadata field key = .ok bound ∧ bound.Sound ∧
      (∃ b ∈ bound.get? field,
        b.Remembers (some (bs.getOrEmpty field).currentLiteral)) ∧
      ∀ other, other ≠ field → bound.get? other = bs.get? other := by
  obtain ⟨bound, hbind⟩ : ∃ bound, bs.bindMetadata field key = .ok bound :=
    ⟨_, if_neg hfield⟩
  have hedit : bs.edit (.bind field key) = bound := by
    rw [Bindings.edit, FieldEdit.perform, hbind]
    rfl
  refine ⟨bound, hbind, hedit ▸ h.edit _, ?_, fun other hne => ?_⟩
  · rw [← hedit, get?_edit]
    exact FieldEdit.remembers_bind hfield key hloose
  · rw [← hedit]
    exact get?_edit_of_ne rfl hne

/-- A field that is bound is released to what it remembers or, if it remembers
nothing, to the default of the catalog. -/
theorem Sound.exists_releases (h : bs.Sound)
    (hbound : ∃ b ∈ bs.get? field, b.Remembers saved) (c : Catalog) :
    ∃ bs', bs.Releases field c ((saved.or (c.defaultFor? field)).getD "")
      bs' := by
  obtain ⟨b, hb, hbound, rfl⟩ := hbound
  have hreleased :
      bs.unbind field c = .ok (bs.insert field (b.released field c)) := by
    rw [unbind, hb]
  refine ⟨_, hreleased, ?_, unbind_unbind hreleased, fun other hne => ?_⟩
  · rw [Table.get?_insert, if_pos rfl, (h field b hb).released_of_bound hbound]
  · rw [Table.get?_insert, if_neg hne.symm]

/-- A field that is not bound has no key and remembers nothing, however it came
about. A field that is bound and not released goes back to the literal that it
showed before it was first bound, whatever literals it is given meanwhile and
whatever keys it is bound to; where it was bound without remembering anything,
to the default of the catalog. To release it again changes nothing, and no edit
of a field changes another one. -/
theorem unbind_gives_back (h : Reachable bs) {more : List FieldEdit}
    (hfield : field ≠ backgroundField) (hmore : ∀ e ∈ more, e.Spares field)
    (c : Catalog) :
    (∀ other, ∀ b ∈ bs.get? other, b.isMetadataBound = false →
        b.metadataKey = "" ∧ b.savedLiteral = none) ∧
      (∀ key, (bs.getOrEmpty field).isMetadataBound = false →
        ∃ bound bs', bs.bindMetadata field key = .ok bound ∧
          (bound.run more).Releases field c
            (bs.getOrEmpty field).currentLiteral bs') ∧
      (∀ b ∈ bs.get? field, b.isMetadataBound = true → b.savedLiteral = none →
        ∃ bs', (bs.run more).Releases field c
          ((c.defaultFor? field).getD "") bs') ∧
      (∀ other c bs', bs.unbind other c = .ok bs' →
        ∀ c', bs'.unbind other c' = .ok bs') ∧
      ∀ e other, e.field? = some other → ∀ third, third ≠ other →
        (bs.edit e).get? third = bs.get? third := by
  have hsound := h.sound
  refine ⟨fun other b hb => (hsound other b hb).loose, fun key hloose => ?_,
    fun b hb hbound hsaved => ?_, fun other c bs' => unbind_unbind,
    fun e other he third => get?_edit_of_ne he⟩
  · obtain ⟨bound, hbind, hsound', hremembers, -⟩ :=
      hsound.exists_bind hfield key hloose
    obtain ⟨bs', hreleases⟩ :=
      (hsound'.run more).exists_releases (remembers_run hmore hremembers) c
    exact ⟨bound, bs', hbind, hreleases⟩
  · exact (hsound.run more).exists_releases
      (remembers_run hmore ⟨b, hb, hbound, hsaved⟩) c

/-- A price that is bound twice while what it falls back on changes, and a
note. -/
def repricing : List FieldEdit :=
  [.setLiteral "Price" "n/a", .bind "Price" "", .bind "Note" "shop/note",
    .release "Note" ∅, .bind "Price" "shop/sale"]

theorem repricing_unbind_gives_back :
    Reachable (edit ∅ (.setLiteral "Price" "10")) ∧ "Price" ≠ backgroundField ∧
      (∀ e ∈ repricing, e.Spares "Price") ∧
      ((edit ∅ (.setLiteral "Price" "10")).getOrEmpty "Price").isMetadataBound =
        false ∧
      ∃ bound bs', (edit ∅ (.setLiteral "Price" "10")).bindMetadata "Price"
        "shop/price" = .ok bound ∧
        (bound.run repricing).Releases "Price" ∅ "10" bs' := by
  have h : Reachable (edit ∅ (.setLiteral "Price" "10")) := .edit .empty _
  have hfield : "Price" ≠ backgroundField := by decide
  have hmore : ∀ e ∈ repricing, e.Spares "Price" := by decide
  have hloose :
      ((edit ∅ (.setLiteral "Price" "10")).getOrEmpty "Price").isMetadataBound =
        false := by
      decide +kernel
  exact ⟨h, hfield, hmore, hloose, (unbind_gives_back h hfield hmore ∅).2.1
    "shop/price" hloose⟩

end Bindings

end Placard
