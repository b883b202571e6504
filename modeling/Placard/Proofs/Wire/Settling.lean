import Mathlib.Logic.Relation
import Mathlib.Order.Bounds.Basic
import Placard.Proofs.Wire.Derivations

/-!
# The derivations that are left

A derivation that starts empty may be dropped, and dropping it may make others
start empty. How many are dropped at a time, and which of them first, does not
matter. A set of layers is supported if each of them has a derivation whose
source is in the set or holds a value. Nothing that starts empty is in a
supported set, so no dropping takes anything away from one; and where nothing is
left to drop, what is left is supported itself. It is therefore the largest
supported set, whichever way it was come to.

What one step keeps is that a set is supported. The rest is induction on the
steps, and there are no more of them than derivations.
-/

namespace Placard

open Relation (ReflTransGen)

theorem Table.mem_keys_iff {α : Type} {a : Table α} {key : String} :
    key ∈ a.keys ↔ ∃ v, a.get? key = some v := by
  constructor
  · intro h
    obtain ⟨⟨_, v⟩, hmem, rfl⟩ := List.mem_map.mp h
    exact ⟨v, Table.lookup_of_mem a.nodup_keys hmem⟩
  · rintro ⟨v, hv⟩
    exact List.mem_map.mpr ⟨(key, v), Table.mem_of_lookup hv, rfl⟩

/-- What a table lacks of a larger one makes it smaller. -/
theorem Table.size_lt_of_lacks {α : Type} {a b : Table α} {key : String}
    (hsub : ∀ k v, a.get? k = some v → b.get? k = some v)
    (hb : key ∈ b.keys) (ha : a.get? key = none) : a.size < b.size := by
  have hnew : key ∉ a.keys := by
    intro hmem
    obtain ⟨v, hv⟩ := mem_keys_iff.mp hmem
    rw [ha] at hv
    cases hv
  have hkeys : a.keys ⊆ b.keys := by
    intro k hk
    obtain ⟨v, hv⟩ := mem_keys_iff.mp hk
    exact mem_keys_iff.mpr ⟨v, hsub k v hv⟩
  have hle := (List.nodup_cons.mpr ⟨hnew, a.nodup_keys⟩).length_le_of_subset
    (List.cons_subset.mpr ⟨hb, hkeys⟩)
  rw [List.length_cons, keys, keys, List.length_map, List.length_map] at hle
  exact hle

namespace Template

variable {t : Template} {bs : Bindings} {kept rest : Derivations} {key : String}
  {d : Derivation}

/-! ## Steps -/

/-- Every derivation of one table is in the other. -/
def Within (rest kept : Derivations) : Prop :=
  ∀ key d, rest.get? key = some d → kept.get? key = some d

/-- One way of dropping: some of the derivations that start empty are taken
away, one at least and perhaps all of them. -/
structure Drops (t : Template) (bs : Bindings) (kept rest : Derivations) :
    Prop where
  within : Within rest kept
  drops : ∃ key ∈ kept.keys, rest.get? key = none
  empty : ∀ key d, kept.get? key = some d → rest.get? key = none →
    t.startsEmpty bs kept d = true

theorem Drops.size_lt (h : t.Drops bs kept rest) : rest.size < kept.size := by
  obtain ⟨key, hkey, hgone⟩ := h.drops
  exact Table.size_lt_of_lacks h.within hkey hgone

/-- There is no dropping without end. -/
theorem drops_wellFounded (t : Template) (bs : Bindings) :
    WellFounded fun rest kept => t.Drops bs kept rest :=
  Subrelation.wf Drops.size_lt (measure Table.size).wf

theorem drops_erase (h : kept.get? key = some d)
    (hempty : t.startsEmpty bs kept d = true) :
    t.Drops bs kept (kept.erase key) where
  within := by
    intro key' d' h'
    rw [Table.get?_erase] at h'
    split at h'
    · cases h'
    · exact h'
  drops :=
    ⟨key, Table.mem_keys_iff.mpr ⟨d, h⟩, by rw [Table.get?_erase, if_pos rfl]⟩
  empty := by
    intro key' d' h' hgone
    rw [Table.get?_erase] at hgone
    split at hgone
    · next heq =>
        rw [← heq, h, Option.some.injEq] at h'
        exact h' ▸ hempty
    · rw [h'] at hgone
      cases hgone

theorem drops_dropEmpty (h : (t.dropEmpty bs kept).size < kept.size) :
    t.Drops bs kept (t.dropEmpty bs kept) where
  within _ _ := get?_of_dropEmpty
  drops := by
    obtain ⟨⟨key, d⟩, hmem, hnot⟩ :=
      List.length_filter_lt_length_iff_exists.mp h
    have hget : kept.get? key = some d :=
      Table.lookup_of_mem kept.nodup_keys hmem
    refine ⟨key, Table.mem_keys_iff.mpr ⟨d, hget⟩, ?_⟩
    exact (get?_dropEmpty_eq_none_iff hget).mpr (by simpa using hnot)
  empty _ _ hget := (get?_dropEmpty_eq_none_iff hget).mp

/-- Nothing can be dropped where no derivation starts empty. -/
theorem not_drops_iff :
    (∀ rest, ¬ t.Drops bs kept rest) ↔
      ∀ key d, kept.get? key = some d → t.startsEmpty bs kept d = false := by
  constructor
  · intro hstuck key d h
    refine Bool.eq_false_iff.mpr fun hempty => ?_
    exact hstuck _ (drops_erase h hempty)
  · intro hfull rest hdrop
    obtain ⟨key, hkey, hgone⟩ := hdrop.drops
    obtain ⟨d, h⟩ := Table.mem_keys_iff.mp hkey
    have hempty := hdrop.empty key d h hgone
    rw [hfull key d h] at hempty
    cases hempty

/-- Settling is dropping until nothing can be dropped. -/
theorem settle_reached (t : Template) (bs : Bindings) (kept : Derivations) :
    ReflTransGen (t.Drops bs) kept (t.settle bs kept) := by
  fun_induction settle t bs kept with
  | case1 kept rest hlt ih => exact .head (drops_dropEmpty hlt) ih
  | case2 kept rest hge => exact .refl

theorem not_drops_settle (t : Template) (bs : Bindings) (kept : Derivations) :
    ∀ rest, ¬ t.Drops bs (t.settle bs kept) rest := by
  fun_induction settle t bs kept with
  | case1 kept rest hlt ih => exact ih
  | case2 kept rest hge =>
      -- One that starts empty would have gone in this round.
      refine not_drops_iff.mpr fun key d h =>
        Bool.eq_false_iff.mpr fun hempty => hge ?_
      exact Table.size_lt_of_lacks (fun _ _ => get?_of_dropEmpty)
        (Table.mem_keys_iff.mpr ⟨d, h⟩)
        ((get?_dropEmpty_eq_none_iff h).mpr hempty)

/-! ## What the steps keep -/

/-- The layer under the key is a text whose content is sure not to be empty. -/
def HoldsValue (t : Template) (bs : Bindings) (key : String) : Prop :=
  ∃ text, t.textLayer? key = some text ∧ (bs.resolve key text).holdsValue = true

/-- Each layer of the set has a derivation, and that starts from a layer of the
set or from one that holds a value. -/
def Supported (t : Template) (bs : Bindings) (kept : Derivations)
    (S : Set String) : Prop :=
  ∀ key ∈ S, ∃ d, kept.get? key = some d ∧
    (d.source ∈ S ∨ t.HoldsValue bs d.source)

theorem startsEmpty_eq_false
    (h : kept.contains d.source = true ∨ t.HoldsValue bs d.source) :
    t.startsEmpty bs kept d = false := by
  rcases h with hkept | ⟨text, htext, hholds⟩
  · simp only [startsEmpty, hkept, Bool.not_true, Bool.false_and]
  · simp only [startsEmpty, htext, hholds, Bool.not_true, Bool.and_false]

theorem Supported.contains {S : Set String} (h : t.Supported bs kept S)
    (hkey : key ∈ S) : kept.contains key = true := by
  obtain ⟨d, hget, -⟩ := h key hkey
  rw [Table.contains, hget, Option.isSome_some]

theorem Supported.mono {S : Set String} (h : t.Supported bs rest S)
    (hwithin : Within rest kept) : t.Supported bs kept S := by
  intro key hkey
  obtain ⟨d, hget, hsource⟩ := h key hkey
  exact ⟨d, hwithin key d hget, hsource⟩

theorem Supported.drop {S : Set String} (h : t.Supported bs kept S)
    (hdrop : t.Drops bs kept rest) : t.Supported bs rest S := by
  intro key hkey
  obtain ⟨d, hget, hsource⟩ := h key hkey
  cases hrest : rest.get? key with
  | some d' =>
      have hsame := hdrop.within key d' hrest
      rw [hget, Option.some.injEq] at hsame
      exact ⟨d', rfl, hsame ▸ hsource⟩
  | none =>
      have hempty := hdrop.empty key d hget hrest
      rw [startsEmpty_eq_false (hsource.imp_left h.contains)] at hempty
      cases hempty

/-- What is left at the end is supported. -/
theorem supported_of_not_drops (hstuck : ∀ rest, ¬ t.Drops bs kept rest)
    (hsources : ∀ key d, kept.get? key = some d →
      ∃ text, t.textLayer? d.source = some text) :
    t.Supported bs kept {key | kept.contains key = true} := by
  intro key hkey
  obtain ⟨d, hget⟩ := Option.isSome_iff_exists.mp hkey
  obtain ⟨text, htext⟩ := hsources key d hget
  refine ⟨d, hget, ?_⟩
  have hfull := not_drops_iff.mp hstuck key d hget
  simp only [startsEmpty, htext, Bool.and_eq_false_iff, Bool.not_eq_false']
    at hfull
  exact hfull.imp_right fun hholds => ⟨text, htext, hholds⟩

theorem within_of_drops (h : ReflTransGen (t.Drops bs) kept rest) :
    Within rest kept := by
  induction h with
  | refl => exact fun _ _ hget => hget
  | tail _ hdrop ih =>
      exact fun key d hget => ih key d (hdrop.within key d hget)

theorem Supported.drop_all {S : Set String} (h : t.Supported bs kept S)
    (hrun : ReflTransGen (t.Drops bs) kept rest) : t.Supported bs rest S := by
  induction hrun with
  | refl => exact h
  | tail _ hdrop ih => exact ih.drop hdrop

/-! ## The end is the same, whichever way it is come to -/

/-- What is left of the derivations when nothing more can be dropped is the
largest supported set. -/
theorem isGreatest_of_not_drops
    (hrun : ReflTransGen (t.Drops bs) t.derivations rest)
    (hstuck : ∀ next, ¬ t.Drops bs rest next) :
    IsGreatest {S | t.Supported bs t.derivations S}
      {key | rest.contains key = true} := by
  have hwithin := within_of_drops hrun
  constructor
  · refine (supported_of_not_drops hstuck fun key d hget => ?_).mono hwithin
    obtain ⟨_, _, dependency, _, _, _, hder, rfl⟩ :=
      derives_of_derivations (hwithin key d hget)
    exact ⟨dependency, hder.depends⟩
  · exact fun S hS key hkey => (hS.drop_all hrun).contains hkey

theorem eq_of_within {a b : Derivations} (ha : Within a kept)
    (hb : Within b kept)
    (hkeys : ∀ key, a.contains key = true ↔ b.contains key = true) : a = b := by
  refine Table.ext fun key => ?_
  cases hget : a.get? key with
  | some d =>
      have hcontains :=
        (hkeys key).mp (by rw [Table.contains, hget, Option.isSome_some])
      obtain ⟨d', hget'⟩ := Option.isSome_iff_exists.mp hcontains
      rw [hget', ← ha key d hget, hb key d' hget']
  | none =>
      refine (Option.not_isSome_iff_eq_none.mp fun hcontains => ?_).symm
      have hin := (hkeys key).mpr hcontains
      rw [Table.contains, hget] at hin
      cases hin

/-- However the derivations that start empty are dropped, those that are kept
are left. -/
theorem eq_keptDerivations
    (hrun : ReflTransGen (t.Drops bs) t.derivations rest)
    (hstuck : ∀ next, ¬ t.Drops bs rest next) :
    rest = t.keptDerivations bs := by
  have hkept := settle_reached t bs t.derivations
  have hsame := (isGreatest_of_not_drops hrun hstuck).unique
    (isGreatest_of_not_drops hkept (not_drops_settle t bs t.derivations))
  exact eq_of_within (within_of_drops hrun) (within_of_drops hkept)
    fun key => Set.ext_iff.mp hsame key

end Template

end Placard
