import Placard.Proofs.Template.Keys
import Placard.Wire.Derivation

/-!
# What the derivations that stay are, and where they end

A derivation that reaches the wire is the one that the calculation of its layer
gives: dropping those that start empty takes some away and changes none. And it
leads somewhere. Going back from a layer to the one it is derived from comes to
one that is not derived, after no more steps than there are layers, because
following a calculation was allowed only where the chain does not come back to
itself.
-/

namespace Placard

namespace Template

/-! ## Dropping takes away and changes nothing -/

theorem get?_of_dropEmpty {t : Template} {bs : Bindings} {kept : Derivations}
    {key : String} {d : Derivation}
    (h : (t.dropEmpty bs kept).get? key = some d) : kept.get? key = some d := by
  rw [dropEmpty, Table.get?_filter] at h
  exact (Option.filter_eq_some_iff.mp h).1

theorem get?_dropEmpty_eq_none_iff {t : Template} {bs : Bindings}
    {kept : Derivations} {key : String} {d : Derivation}
    (h : kept.get? key = some d) :
    (t.dropEmpty bs kept).get? key = none ↔ t.startsEmpty bs kept d = true := by
  rw [dropEmpty, Table.get?_filter, h]
  simp [Option.filter]

theorem get?_of_settle {t : Template} {bs : Bindings} {kept : Derivations}
    {key : String} {d : Derivation} (h : (t.settle bs kept).get? key = some d) :
    kept.get? key = some d := by
  fun_induction settle t bs kept with
  | case1 kept rest hlt ih => exact get?_of_dropEmpty (ih h)
  | case2 kept rest hge => exact h

/-- What makes a derivation of a layer: its calculation, followed to a text
layer, from the variable of that one's field to a different one. -/
structure Derives (t : Template) (key : String) (text : TextLayer)
    (c : Calculation) (dependency : TextLayer) (target source : Variable)
    (steps : List Step) : Prop where
  declared : (key, text) ∈ t.textLayers
  calculates : text.calculation = some c
  follows : t.canFollow key = true
  depends : t.textLayer? c.dependsOn = some dependency
  hasTarget : t.variables.get? (text.field key) = some target
  hasSource : t.variables.get? (dependency.field c.dependsOn) = some source
  hasSteps : c.steps? = some steps

theorem derives_of_derivation? {t : Template} {key : String} {text : TextLayer}
    {d : Derivation} (hmem : (key, text) ∈ t.textLayers)
    (h : t.derivation? key text = some d) :
    ∃ c dependency target source steps,
      t.Derives key text c dependency target source steps ∧
        d = ⟨c.dependsOn, .derived target source steps⟩ := by
  simp only [derivation?, Option.bind_eq_bind, Option.bind_eq_some_iff] at h
  obtain ⟨c, hc, h⟩ := h
  split at h
  · cases h
  · next hfollow =>
      simp only [Option.bind_eq_some_iff] at h
      obtain ⟨dependency, hdep, target, htarget, source, hsource, h⟩ := h
      split at h
      · cases h
      · simp only [Option.bind_eq_some_iff] at h
        obtain ⟨e, he, h⟩ := h
        cases h
        unfold Expression.ofCalculation at he
        cases hsteps : c.steps? with
        | none =>
            rw [hsteps] at he
            cases he
        | some steps =>
            rw [hsteps] at he
            cases he
            exact ⟨c, dependency, target, source, steps,
              ⟨hmem, hc, by simpa using hfollow, hdep, htarget, hsource,
                hsteps⟩, rfl⟩

/-- A calculation that can be followed gives a derivation if it does not lead
back to its own field. -/
theorem Derives.derivation?_eq {t : Template} {key : String}
    {text : TextLayer} {c : Calculation} {dependency : TextLayer}
    {target source : Variable} {steps : List Step}
    (h : t.Derives key text c dependency target source steps) :
    t.derivation? key text =
      if target = source then none
      else some ⟨c.dependsOn, .derived target source steps⟩ := by
  simp [derivation?, h.calculates, h.follows, h.depends, h.hasTarget,
    h.hasSource, h.hasSteps, Expression.ofCalculation, Except.toOption]

theorem derivation?_of_derivations {t : Template} {key : String}
    {d : Derivation} (h : t.derivations.get? key = some d) :
    ∃ text, (key, text) ∈ t.textLayers ∧ t.derivation? key text = some d := by
  have hmem := Table.mem_of_get?_ofList h
  simp only [List.mem_filterMap, Option.map_eq_some_iff, Prod.mk.injEq] at hmem
  obtain ⟨⟨key', text⟩, ht, d', hd, rfl, rfl⟩ := hmem
  exact ⟨text, ht, hd⟩

theorem derives_of_derivations {t : Template} {key : String} {d : Derivation}
    (h : t.derivations.get? key = some d) :
    ∃ text c dependency target source steps,
      t.Derives key text c dependency target source steps ∧
        d = ⟨c.dependsOn, .derived target source steps⟩ := by
  obtain ⟨text, ht, hd⟩ := derivation?_of_derivations h
  exact ⟨text, derives_of_derivation? ht hd⟩

theorem get?_derivations {t : Template} (hd : t.DistinctKeys) {key : String}
    {text : TextLayer} (htext : t.textLayer? key = some text) {d : Derivation}
    (hder : t.derivation? key text = some d) :
    t.derivations.get? key = some d := by
  obtain ⟨d', hget⟩ : ∃ d', t.derivations.get? key = some d' := by
    refine Table.exists_get?_ofList_of_mem (v := d) (List.mem_filterMap.mpr ?_)
    refine ⟨(key, text), mem_textLayers_of_textLayer? htext, ?_⟩
    simp only [hder, Option.map_some]
  obtain ⟨text', ht, hder'⟩ := derivation?_of_derivations hget
  have hsame := textLayer?_of_mem hd ht
  rw [htext, Option.some.injEq] at hsame
  subst hsame
  exact hget.trans (hder'.symm.trans hder)

/-- A derivation that reaches the wire is made by the calculation of its
layer. -/
theorem derives_of_kept {t : Template} {bs : Bindings} {key : String}
    {d : Derivation} (h : (t.keptDerivations bs).get? key = some d) :
    ∃ text c dependency target source steps,
      t.Derives key text c dependency target source steps ∧
        d = ⟨c.dependsOn, .derived target source steps⟩ :=
  derives_of_derivations (get?_of_settle h)

/-! ## Every chain ends

The keys that a chain has been through are different layers of the template, so
their number and the number of steps that are left are at most the number of
layers. -/

/-- Going back from a layer to the one it is derived from comes, after so many
steps, to one that is not derived. -/
inductive Depth (kept : Derivations) : String → Nat → Prop where
  | root {key : String} (h : kept.get? key = none) : Depth kept key 0
  | step {key : String} {d : Derivation} {n : Nat} (h : kept.get? key = some d)
      (hd : Depth kept d.source n) : Depth kept key (n + 1)

theorem Depth.unique {kept : Derivations} {key : String} {m n : Nat}
    (hm : Depth kept key m) (hn : Depth kept key n) : m = n := by
  induction hm generalizing n with
  | root h =>
      cases hn with
      | root _ => rfl
      | step h' _ =>
          rw [h] at h'
          cases h'
  | step h _ ih =>
      cases hn with
      | root h' =>
          rw [h] at h'
          cases h'
      | step h' hd' =>
          rw [h] at h'
          cases h'
          rw [ih hd']

/-- The derivations follow the calculations of their layers. -/
def FollowCalculations (t : Template) (kept : Derivations) : Prop :=
  ∀ key d, kept.get? key = some d →
    ∃ c, t.calculation? key = some c ∧ c.dependsOn = d.source

theorem mem_keys_of_calculation? {t : Template} {key : String} {c : Calculation}
    (h : t.calculation? key = some c) : key ∈ t.keys := by
  obtain ⟨text, htext, -⟩ := Option.bind_eq_some_iff.mp h
  exact mem_keys_of_textLayer? htext

theorem length_le_of_nodup {t : Template} {visited : List String}
    (hnodup : visited.Nodup) (hsub : visited ⊆ t.keys) :
    visited.length ≤ t.layers.length := by
  have hle := hnodup.length_le_of_subset hsub
  rwa [keys, List.length_map] at hle

theorem exists_depth_of_chainEnds {t : Template} {kept : Derivations}
    (hkept : t.FollowCalculations kept) {fuel : Nat} {visited : List String}
    {key : String} (hends : t.chainEnds fuel visited key = true)
    (hnodup : (key :: visited).Nodup) (hsub : visited ⊆ t.keys) :
    ∃ n, Depth kept key n ∧ visited.length + n ≤ t.layers.length := by
  induction fuel generalizing visited key with
  | zero =>
      rw [chainEnds] at hends
      cases hends
  | succ fuel ih =>
      have hroot (h : kept.get? key = none) :
          ∃ n, Depth kept key n ∧ visited.length + n ≤ t.layers.length :=
        ⟨0, .root h, length_le_of_nodup (List.nodup_cons.mp hnodup).2 hsub⟩
      cases hk : kept.get? key with
      | none => exact hroot hk
      | some d =>
          obtain ⟨c, hc, hsource⟩ := hkept key d hk
          rw [chainEnds, hc] at hends
          simp only [Bool.and_eq_true, decide_eq_true_eq] at hends
          have hsub' : key :: visited ⊆ t.keys :=
            List.cons_subset.mpr ⟨mem_keys_of_calculation? hc, hsub⟩
          obtain ⟨n, hn, hle⟩ :=
            ih hends.2 (List.nodup_cons.mpr ⟨hends.1, hnodup⟩) hsub'
          rw [List.length_cons] at hle
          exact ⟨n + 1, .step hk (hsource ▸ hn), by omega⟩

theorem calculation?_of_mem {t : Template} (hd : t.DistinctKeys) {key : String}
    {text : TextLayer} (hmem : (key, text) ∈ t.textLayers) :
    t.calculation? key = text.calculation := by
  rw [calculation?, textLayer?_of_mem hd hmem, Option.bind_some]

theorem kept_followCalculations {t : Template} (hd : t.DistinctKeys)
    (bs : Bindings) : t.FollowCalculations (t.keptDerivations bs) := by
  intro key d h
  obtain ⟨text, c, _, _, _, _, hder, rfl⟩ := derives_of_kept h
  exact ⟨c, (calculation?_of_mem hd hder.declared).trans hder.calculates, rfl⟩

theorem exists_depth {t : Template} (hd : t.DistinctKeys) (bs : Bindings)
    (key : String) :
    ∃ n, Depth (t.keptDerivations bs) key n ∧ n ≤ t.layers.length := by
  have hkept := kept_followCalculations hd bs
  cases hk : (t.keptDerivations bs).get? key with
  | none => exact ⟨0, .root hk, Nat.zero_le _⟩
  | some d =>
      obtain ⟨text, c, _, _, _, _, hder, rfl⟩ := derives_of_kept hk
      have hfollow := hder.follows
      obtain ⟨c', hc, hsource⟩ := hkept key _ hk
      rw [canFollow, hc] at hfollow
      simp only [Bool.and_eq_true, decide_eq_true_eq] at hfollow
      obtain ⟨⟨⟨-, hne⟩, -⟩, hends⟩ := hfollow
      have hkey : [key] ⊆ t.keys :=
        List.cons_subset.mpr ⟨mem_keys_of_calculation? hc, List.nil_subset _⟩
      obtain ⟨n, hn, hle⟩ :=
        exists_depth_of_chainEnds hkept hends (by simpa using hne) hkey
      rw [List.length_singleton] at hle
      exact ⟨n + 1, .step hk (hsource ▸ hn), by omega⟩

end Template

end Placard
