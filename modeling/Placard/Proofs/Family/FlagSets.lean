import Mathlib.Data.Finset.Card
import Mathlib.Data.Finset.Filter
import Mathlib.Data.List.Nodup
import Placard.Proofs.Family.Pruned

/-!
# The tables are a set of flags

A flag is set for one property of a layer of a child, or for the layer as a
whole. The tables keep the flags child by child and layer by layer, and yet they
are nothing but the finite set of them: every edit of the tables is the obvious
one of the set, every answer is read off the set, and since no entry is without
a flag, tables with the same flags are the same tables.

An edit rewrites the flags of one layer, or takes a child away. So all that is
to be shown of it is what the layer has afterwards; the number of flags is the
only answer that needs the tables as they are listed.
-/

namespace Placard

/-! ## Flags -/

/-- A flag of a layer of a child: for a property of it, or for all of it. -/
structure Flag where
  child : String
  layer : String
  /-- Nothing if the flag is for the layer as a whole. -/
  property? : Option Property
deriving DecidableEq

namespace LayerFlags

/-- Whether there is a flag for a property, or for the layer as a whole. -/
def has (g : LayerFlags) : Option Property → Bool
  | none => g.whole
  | some p => g.properties.contains p

/-- What there are flags for. -/
def marks (g : LayerFlags) : List (Option Property) :=
  (if g.whole then [none] else []) ++ g.properties.members.map some

variable {g g' : LayerFlags}

theorem eq_of_has (h : ∀ q, g.has q = g'.has q) : g = g' := by
  obtain ⟨whole, properties⟩ := g
  obtain ⟨whole', properties'⟩ := g'
  obtain rfl : whole = whole' := h none
  obtain rfl : properties = properties' := PropertySet.ext fun p => h (some p)
  rfl

@[simp] theorem has_empty (q : Option Property) : empty.has q = false := by
  cases q with
  | none => rfl
  | some p => exact PropertySet.contains_empty p

theorem mem_marks {q : Option Property} : q ∈ g.marks ↔ g.has q = true := by
  cases q with
  | none => cases hw : g.whole <;> simp [marks, has, hw]
  | some p => cases hw : g.whole <;> simp [marks, has, hw, PropertySet.contains]

theorem nodup_members (s : PropertySet) : s.members.Nodup := by
  rw [← s.canonical]
  exact Property.nodup_all.filter _

theorem nodup_marks : g.marks.Nodup := by
  have hmembers :=
    (nodup_members g.properties).map (Option.some_injective Property)
  cases hw : g.whole <;> simp [marks, hw, hmembers]

theorem length_marks : g.marks.length = g.count := by
  cases hw : g.whole <;> simp [marks, count, hw, PropertySet.size]

end LayerFlags

/-! ## Edits -/

/-- What is done to the flags. -/
inductive FlagEdit where
  | mark (child layer : String) (p : Property)
  | markLayer (child layer : String)
  | clear (child layer : String) (p : Property)
  | clearLayer (child layer : String)
  | clearChild (child : String)

namespace FlagEdit

/-- The tables after an edit. -/
def perform (o : Overrides) : FlagEdit → Overrides
  | mark c l p => o.mark c l p
  | markLayer c l => o.markLayer c l
  | clear c l p => (o.clear c l p).2
  | clearLayer c l => o.clearLayer c l
  | clearChild c => o.clearChild c

/-- The set of flags after an edit. -/
def apply (flags : Finset Flag) : FlagEdit → Finset Flag
  | mark c l p => insert ⟨c, l, some p⟩ flags
  | markLayer c l => insert ⟨c, l, none⟩ flags
  | clear c l p => flags.erase ⟨c, l, some p⟩
  | clearLayer c l => flags.filter fun f => ¬ (f.child = c ∧ f.layer = l)
  | clearChild c => flags.filter fun f => f.child ≠ c

end FlagEdit

namespace Overrides

/-- The tables that edits make of empty ones. -/
def ofEdits (edits : List FlagEdit) : Overrides :=
  edits.foldl FlagEdit.perform ∅

/-- The flags that edits make of none. -/
def flagsOfEdits (edits : List FlagEdit) : Finset Flag :=
  edits.foldl FlagEdit.apply ∅

/-- Whether a flag is set. -/
def has (o : Overrides) (f : Flag) : Bool :=
  (o.flags f.child f.layer).has f.property?

variable {o o' : Overrides} {c l : String} {p : Property} {flags : Finset Flag}

theorem has_clearChild (o : Overrides) (c : String) (f : Flag) :
    (o.clearChild c).has f = if f.child = c then false else o.has f := by
  obtain ⟨c', l', q⟩ := f
  by_cases hc : c' = c
  · subst hc
    have hnone : (o.clearChild c').get? c' = none := by
      rw [clearChild, Table.get?_erase, if_pos rfl]
    rw [if_pos rfl, has, flags_of_get?_eq_none hnone, LayerFlags.has_empty]
  · rw [if_neg hc, has, flags_of_get? (get?_clearChild_of_ne hc)]
    rfl

/-- The set is that of the flags in the tables. -/
def Represents (o : Overrides) (flags : Finset Flag) : Prop :=
  ∀ f, o.has f = true ↔ f ∈ flags

theorem represents_empty : Represents ∅ ∅ := by
  intro f
  have hnone : (∅ : Overrides).flags f.child = fun _ => .empty :=
    flags_of_get?_eq_none rfl
  rw [has, hnone, LayerFlags.has_empty]
  exact ⟨nofun, fun h => absurd h (Finset.notMem_empty f)⟩

/-- The flags of one layer are rewritten, and all others are left alone. -/
theorem Represents.update (h : o.Represents flags) {g : LayerFlags}
    {flags' : Finset Flag}
    (hlayer : o'.flags c = Function.update (o.flags c) l g)
    (hothers : ∀ c', c' ≠ c → o'.get? c' = o.get? c')
    (hsame : ∀ q, g.has q = true ↔ ⟨c, l, q⟩ ∈ flags')
    (hrest : ∀ f, ¬ (f.child = c ∧ f.layer = l) → (f ∈ flags' ↔ f ∈ flags)) :
    o'.Represents flags' := by
  intro f
  by_cases hf : f.child = c ∧ f.layer = l
  · obtain ⟨c', l', q⟩ := f
    obtain ⟨rfl, rfl⟩ := hf
    rw [has, hlayer, Function.update_self]
    exact hsame q
  · rw [hrest f hf, ← h f, has, has]
    by_cases hc : f.child = c
    · rw [hc, hlayer, Function.update_of_ne fun hl => hf ⟨hc, hl⟩]
    · rw [flags_of_get? (hothers f.child hc)]

theorem ne_of_outside {f : Flag} (hf : ¬ (f.child = c ∧ f.layer = l))
    (q : Option Property) : f ≠ ⟨c, l, q⟩ :=
  fun heq => hf (heq ▸ ⟨rfl, rfl⟩)

/-- What an edit does to the tables it does to the set. -/
theorem Represents.perform (h : o.Represents flags) (e : FlagEdit) :
    (e.perform o).Represents (e.apply flags) := by
  cases e with
  | mark c l p =>
      refine h.update (o.flags_mark c l p) (fun _ hc => get?_mark_of_ne hc p)
        (fun q => ?_) fun f hf => ?_
      · rw [FlagEdit.apply, Finset.mem_insert, ← h ⟨c, l, q⟩]
        cases q <;> simp [LayerFlags.has, has]
      · rw [FlagEdit.apply, Finset.mem_insert,
          or_iff_right (ne_of_outside hf _)]
  | markLayer c l =>
      refine h.update (o.flags_markLayer c l)
        (fun _ hc => get?_markLayer_of_ne hc) (fun q => ?_) fun f hf => ?_
      · rw [FlagEdit.apply, Finset.mem_insert, ← h ⟨c, l, q⟩]
        cases q <;> simp [LayerFlags.has, has]
      · rw [FlagEdit.apply, Finset.mem_insert,
          or_iff_right (ne_of_outside hf _)]
  | clear c l p =>
      refine h.update (o.flags_unmark c l p)
        (fun _ hc => get?_unmark_of_ne hc p) (fun q => ?_) fun f hf => ?_
      · rw [FlagEdit.apply, Finset.mem_erase, ← h ⟨c, l, q⟩]
        cases q <;> simp [LayerFlags.has, has]
      · rw [FlagEdit.apply, Finset.mem_erase,
          and_iff_right (ne_of_outside hf _)]
  | clearLayer c l =>
      refine h.update (o.flags_clearLayer c l)
        (fun _ hc => get?_clearLayer_of_ne hc) (fun q => ?_) fun f hf => ?_
      · simp [FlagEdit.apply]
      · rw [FlagEdit.apply, Finset.mem_filter, and_iff_left hf]
  | clearChild c =>
      intro f
      rw [FlagEdit.perform, FlagEdit.apply, Finset.mem_filter, ← h f,
        has_clearChild]
      split
      · next heq => simp [heq]
      · next hne => simp [hne]

theorem Pruned.perform (h : o.Pruned) (e : FlagEdit) :
    (e.perform o).Pruned := by
  cases e with
  | mark c l p => exact h.mark c l p
  | markLayer c l => exact h.markLayer c l
  | clear c l p => exact h.unmark c l p
  | clearLayer c l => exact h.clearLayer c l
  | clearChild c => exact h.clearChild c

/-- What the edits leave in the tables is what they leave in the set, and
nothing else. -/
theorem represents_edits (edits : List FlagEdit) :
    (ofEdits edits).Represents (flagsOfEdits edits) ∧
      (ofEdits edits).Pruned := by
  induction edits using List.reverseRecOn with
  | nil => exact ⟨represents_empty, pruned_empty⟩
  | append_singleton edits e ih =>
      rw [ofEdits, flagsOfEdits, List.foldl_concat, List.foldl_concat]
      exact ⟨ih.1.perform e, ih.2.perform e⟩

/-! ## Answers -/

/-- The flags of a child as its table lists them. -/
def flagList (o : Overrides) (c : String) : List Flag :=
  (o.layersOf c).entries.flatMap fun e => e.2.marks.map fun q => ⟨c, e.1, q⟩

theorem mem_flagList {f : Flag} :
    f ∈ o.flagList c ↔ f.child = c ∧ o.has f = true := by
  obtain ⟨c', l, q⟩ := f
  simp only [flagList, List.mem_flatMap, List.mem_map, Flag.mk.injEq]
  constructor
  · rintro ⟨⟨l', g⟩, hmem, q', hq, rfl, rfl, rfl⟩
    have hget : (o.layersOf c).get? l' = some g :=
      Table.lookup_of_mem (o.layersOf c).nodup_keys hmem
    refine ⟨rfl, ?_⟩
    rw [has, Overrides.flags, hget]
    exact LayerFlags.mem_marks.mp hq
  · rintro ⟨rfl, hhas⟩
    rw [has, Overrides.flags] at hhas
    cases hget : (o.layersOf c').get? l with
    | none =>
        rw [hget, Option.getD_none, LayerFlags.has_empty] at hhas
        cases hhas
    | some g =>
        rw [hget, Option.getD_some] at hhas
        exact ⟨(l, g), Table.mem_of_lookup hget, q,
          LayerFlags.mem_marks.mpr hhas, rfl, rfl, rfl⟩

theorem nodup_flagList (o : Overrides) (c : String) : (o.flagList c).Nodup := by
  refine List.nodup_flatMap.mpr ⟨fun e _ => ?_, (o.layersOf c).ascending.imp ?_⟩
  · exact LayerFlags.nodup_marks.map fun q q' heq => (Flag.mk.inj heq).2.2
  · intro e e' hlt f hmem hmem'
    obtain ⟨q, -, rfl⟩ := List.mem_map.mp hmem
    obtain ⟨q', -, heq⟩ := List.mem_map.mp hmem'
    exact String.lt_irrefl e.1 ((Flag.mk.inj heq).2.1 ▸ hlt)

theorem length_flagList (o : Overrides) (c : String) :
    (o.flagList c).length = o.entryCount c := by
  rw [flagList, List.length_flatMap, entryCount, Table.values, List.map_map,
    List.sum_eq_foldr]
  simp only [List.length_map, LayerFlags.length_marks, Function.comp_def]

/-- The answers are those of a set of flags. -/
structure Tells (o : Overrides) (flags : Finset Flag) : Prop where
  overridden : ∀ c l p, o.isOverridden c l p = true ↔
    ⟨c, l, some p⟩ ∈ flags ∨ ⟨c, l, none⟩ ∈ flags
  layerOverridden : ∀ c l, o.isLayerOverridden c l = true ↔ ⟨c, l, none⟩ ∈ flags
  /-- The flags of properties are listed in the order of declaration, each
  once. -/
  listed : ∀ c l, (o.overriddenProperties c l).Nodup ∧
    o.overriddenProperties c l = Property.all.filter fun p =>
      ⟨c, l, some p⟩ ∈ flags
  counted : ∀ c, o.entryCount c = (flags.filter fun f => f.child = c).card
  /-- A flag that is cleared has been there exactly if the answer says so. -/
  cleared : ∀ c l p, (o.clear c l p).1 = true ↔ ⟨c, l, some p⟩ ∈ flags

theorem Represents.tells (h : o.Represents flags) : o.Tells flags where
  overridden c l p := by
    rw [isOverridden, Bool.or_eq_true, or_comm]
    exact or_congr (h ⟨c, l, some p⟩) (h ⟨c, l, none⟩)
  layerOverridden c l := h ⟨c, l, none⟩
  listed c l := by
    refine ⟨LayerFlags.nodup_members _, ?_⟩
    rw [overriddenProperties, ← (o.flags c l).properties.canonical]
    refine List.filter_congr fun p _ => decide_eq_decide.mpr ?_
    rw [← h ⟨c, l, some p⟩]
    exact decide_eq_true_iff.symm
  counted c := by
    have hset : (o.flagList c).toFinset = flags.filter fun f =>
        f.child = c := by
      ext f
      rw [List.mem_toFinset, mem_flagList, Finset.mem_filter, h f, and_comm]
    rw [← hset, List.toFinset_card_of_nodup (o.nodup_flagList c),
      length_flagList]
  cleared c l p := h ⟨c, l, some p⟩

/-- Tables without an empty entry are determined by the set of their flags. -/
theorem Pruned.eq_of_represents (ho : o.Pruned) (ho' : o'.Pruned)
    (h : o.Represents flags) (h' : o'.Represents flags) : o = o' := by
  refine ho.ext ho' fun c => funext fun l => LayerFlags.eq_of_has fun q => ?_
  exact Bool.eq_iff_iff.mpr ((h ⟨c, l, q⟩).trans (h' ⟨c, l, q⟩).symm)

/-- Through all edits the tables answer as the set of flags does that the same
edits make, there is no entry without a flag, and what is flagged is all that
they depend on. -/
theorem edits_tell_flags (edits : List FlagEdit) :
    (ofEdits edits).Tells (flagsOfEdits edits) ∧ (ofEdits edits).Pruned ∧
      ∀ edits', ofEdits edits' = ofEdits edits ↔
        flagsOfEdits edits' = flagsOfEdits edits := by
  obtain ⟨hflags, hpruned⟩ := represents_edits edits
  refine ⟨hflags.tells, hpruned, fun edits' => ?_⟩
  obtain ⟨hflags', hpruned'⟩ := represents_edits edits'
  constructor
  · intro heq
    ext f
    rw [← hflags' f, ← hflags f, heq]
  · intro heq
    rw [heq] at hflags'
    exact hpruned'.eq_of_represents hpruned hflags' hflags

end Overrides

end Placard
