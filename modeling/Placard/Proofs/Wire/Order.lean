import Placard.Proofs.Wire.Derivations

/-!
# The order of definitions

The walk over the derivations writes each text layer down once, and what it is
derived from before it. This half needs nothing but the shape of the walk: a
layer that is derived is only ever come to from the one it is derived from, and
that one has been written down by then.

The other half is that no layer is left out. The walk is given steps as it goes
down, and a layer is always come to with the same number of them left, because
there is only one way back from it: the number at the root less its depth.
Depths are bounded by the number of layers, so the steps never run out.
-/

namespace Placard

namespace Template

/-! ## Sources come first -/

/-- Keys in an order in which none stands twice and each stands behind the one
it is derived from. -/
inductive SourceFirst (kept : Derivations) : List String → Prop where
  | nil : SourceFirst kept []
  | snoc {order : List String} {key : String} (h : SourceFirst kept order)
      (hnew : key ∉ order)
      (hsource : ∀ d, kept.get? key = some d → d.source ∈ order) :
      SourceFirst kept (order ++ [key])

theorem subset_foldl_visit {t : Template} {kept : Derivations} {fuel : Nat}
    (hvisit : ∀ seen key, seen ⊆ t.visit kept fuel seen key)
    (ks seen : List String) : seen ⊆ ks.foldl (t.visit kept fuel) seen := by
  induction ks generalizing seen with
  | nil => exact List.Subset.refl _
  | cons k ks ih => exact List.Subset.trans (hvisit seen k) (ih _)

theorem subset_visit (t : Template) (kept : Derivations) (fuel : Nat)
    (seen : List String) (key : String) :
    seen ⊆ t.visit kept fuel seen key := by
  induction fuel generalizing seen key with
  | zero => exact List.Subset.refl _
  | succ fuel ih =>
      rw [visit]
      split
      · exact List.Subset.refl _
      · split
        · exact List.subset_append_left _ _
        · exact List.Subset.trans (List.subset_append_left _ _)
            (subset_foldl_visit ih _ _)

theorem source_of_mem_dependents {t : Template} {kept : Derivations}
    {key k : String} (h : k ∈ t.dependents kept key) :
    ∃ d, kept.get? k = some d ∧ d.source = key := by
  have hany := (List.mem_filter.mp h).2
  rw [Option.any_eq_true] at hany
  obtain ⟨d, hd, hs⟩ := hany
  exact ⟨d, hd, of_decide_eq_true hs⟩

/-- A walk from a layer whose source has been written down keeps the order. -/
theorem visit_sourceFirst {t : Template} {kept : Derivations} {fuel : Nat}
    {seen : List String} {key : String} (hseen : SourceFirst kept seen)
    (hsource : ∀ d, kept.get? key = some d → d.source ∈ seen) :
    SourceFirst kept (t.visit kept fuel seen key) := by
  induction fuel generalizing seen key with
  | zero => exact hseen
  | succ fuel ih =>
      rw [visit]
      split
      · exact hseen
      · next hnew =>
          have hsnoc := hseen.snoc hnew hsource
          split
          · exact hsnoc
          · -- The layer itself is what each of its dependents waits for.
            have hfold :
                ∀ ks : List String, (∀ k ∈ ks, k ∈ t.dependents kept key) →
                  ∀ order, SourceFirst kept order → key ∈ order →
                    SourceFirst kept (ks.foldl (t.visit kept fuel) order) := by
                intro ks
                induction ks with
                | nil => exact fun _ order h _ => h
                | cons k ks ihk =>
                    intro hks order horder hkey
                    obtain ⟨d, hd, hs⟩ := source_of_mem_dependents
                      (hks k List.mem_cons_self)
                    refine ihk (fun x hx => hks x (List.mem_cons_of_mem _ hx)) _
                      (ih horder ?_) (subset_visit t kept fuel order k hkey)
                    intro d' hd'
                    rw [hd] at hd'
                    cases hd'
                    exact hs ▸ hkey
            exact hfold _ (fun _ h => h) _ hsnoc (by simp)

/-- The layers that are not derived, where the walk starts. -/
def roots (t : Template) (kept : Derivations) : List String :=
  (t.textLayers.map (·.1)).filter fun k => !kept.contains k

theorem mem_roots {t : Template} {kept : Derivations} {key : String} :
    key ∈ t.roots kept ↔
      key ∈ t.textLayers.map (·.1) ∧ kept.get? key = none := by
  simp only [roots, List.mem_filter, Table.contains, Bool.not_eq_true',
    Option.isSome_eq_false_iff, Option.isNone_iff_eq_none]

theorem definitionOrder_eq (t : Template) (kept : Derivations) :
    t.definitionOrder kept =
      (t.roots kept).foldl (t.visit kept (t.layers.length + 1)) [] := rfl

theorem definitionOrder_sourceFirst (t : Template) (kept : Derivations) :
    SourceFirst kept (t.definitionOrder kept) := by
  have hfold : ∀ ks : List String, (∀ k ∈ ks, kept.get? k = none) →
      ∀ order, SourceFirst kept order →
        SourceFirst kept (ks.foldl (t.visit kept (t.layers.length + 1))
          order) := by
    intro ks
    induction ks with
    | nil => exact fun _ order h => h
    | cons k ks ih =>
        intro hks order horder
        refine ih (fun x hx => hks x (List.mem_cons_of_mem _ hx)) _
          (visit_sourceFirst horder ?_)
        intro d hd
        rw [hks k List.mem_cons_self] at hd
        cases hd
  rw [definitionOrder_eq]
  exact hfold _ (fun k hk => (mem_roots.mp hk).2) _ .nil

/-! ## No layer is left out -/

/-- What a walk has added is followed by all that depends on it, as far as
chains of fewer than `limit` steps go. -/
def Closed (t : Template) (kept : Derivations) (limit : Nat)
    (seen order : List String) : Prop :=
  ∀ x ∈ order, x ∉ seen → ∀ n, Depth kept x n → n + 1 < limit →
    ∀ k ∈ t.dependents kept x, k ∈ order

theorem Closed.trans {t : Template} {kept : Derivations} {limit : Nat}
    {a b c : List String} (hab : t.Closed kept limit a b)
    (hbc : t.Closed kept limit b c) (hsub : b ⊆ c) :
    t.Closed kept limit a c := by
  intro x hx hxa n hn hlt k hk
  by_cases hxb : x ∈ b
  · exact hsub (hab x hxb hxa n hn hlt k hk)
  · exact hbc x hx hxb n hn hlt k hk

/-- What a walk with so many steps does: with at least one it writes the layer
down, and whatever it writes down is closed. -/
structure Walks (t : Template) (kept : Derivations) (limit fuel : Nat)
    (key : String) : Prop where
  reaches : ∀ seen, 0 < fuel → key ∈ t.visit kept fuel seen key
  closes : ∀ seen, t.Closed kept limit seen (t.visit kept fuel seen key)

theorem foldl_visit_walks {t : Template} {kept : Derivations}
    {limit fuel : Nat} :
    ∀ ks : List String, (∀ k ∈ ks, t.Walks kept limit fuel k) → ∀ seen,
      (0 < fuel → ∀ k ∈ ks, k ∈ ks.foldl (t.visit kept fuel) seen) ∧
        t.Closed kept limit seen (ks.foldl (t.visit kept fuel) seen) := by
  intro ks
  induction ks with
  | nil =>
      intro _ seen
      exact ⟨fun _ k hk => absurd hk List.not_mem_nil,
        fun x hx hnx => absurd hx hnx⟩
  | cons k ks ih =>
      intro hks seen
      have hk := hks k List.mem_cons_self
      have hmono := subset_foldl_visit (subset_visit t kept fuel) ks
        (t.visit kept fuel seen k)
      obtain ⟨hreach, hclosed⟩ :=
        ih (fun x hx => hks x (List.mem_cons_of_mem _ hx))
          (t.visit kept fuel seen k)
      constructor
      · intro hfuel x hx
        rcases List.mem_cons.mp hx with rfl | hx
        · exact hmono (hk.reaches seen hfuel)
        · exact hreach hfuel x hx
      · exact (hk.closes seen).trans hclosed hmono

theorem visit_walks {t : Template} (hd : t.DistinctKeys) {kept : Derivations}
    {limit fuel depth : Nat} {key : String}
    (htext : key ∈ t.textLayers.map (·.1)) (hdepth : Depth kept key depth)
    (hfuel : fuel + depth = limit) : t.Walks kept limit fuel key := by
  induction fuel generalizing key depth with
  | zero =>
      exact ⟨fun _ h => absurd h (Nat.lt_irrefl 0),
        fun _ x hx hnx => absurd hx hnx⟩
  | succ fuel ih =>
      have hsome : ¬ (t.textLayer? key).isNone = true := by
        obtain ⟨e, hmem, rfl⟩ := List.mem_map.mp htext
        rw [textLayer?_of_mem hd hmem]
        exact Bool.noConfusion
      have hdependents :
          ∀ k ∈ t.dependents kept key, t.Walks kept limit fuel k := by
        intro k hk
        obtain ⟨d, hkd, rfl⟩ := source_of_mem_dependents hk
        exact ih (List.mem_filter.mp hk).1 (.step hkd hdepth) (by omega)
      constructor
      · intro seen _
        rw [visit, if_neg hsome]
        split
        · next h => exact h
        · exact subset_foldl_visit (subset_visit t kept fuel) _ _ (by simp)
      · intro seen
        rw [visit, if_neg hsome]
        split
        · exact fun x hx hnx => absurd hx hnx
        · obtain ⟨hreach, hclosed⟩ :=
            foldl_visit_walks _ hdependents (seen ++ [key])
          intro x hx hnx n hn hlt k hk
          by_cases hxk : x = key
          · subst hxk
            rw [hn.unique hdepth] at hlt
            exact hreach (by omega) k hk
          · exact hclosed x hx (by simp [hnx, hxk]) n hn hlt k hk

/-- Every text layer is in the order of definitions. -/
theorem mem_definitionOrder {t : Template} (hd : t.DistinctKeys) (bs : Bindings)
    {key : String} {text : TextLayer} (h : (key, text) ∈ t.textLayers) :
    key ∈ t.definitionOrder (t.keptDerivations bs) := by
  generalize hkept : t.keptDerivations bs = kept
  rw [definitionOrder_eq]
  have hroots : ∀ k ∈ t.roots kept,
      t.Walks kept (t.layers.length + 1) (t.layers.length + 1) k := by
    intro k hk
    obtain ⟨htext, hroot⟩ := mem_roots.mp hk
    exact visit_walks hd htext (.root hroot) (Nat.add_zero _)
  obtain ⟨hreach, hclosed⟩ := foldl_visit_walks _ hroots []
  -- Down the chain of each layer, from its root.
  have hdown : ∀ key n, Depth kept key n → n ≤ t.layers.length →
      key ∈ t.textLayers.map (·.1) →
        key ∈ (t.roots kept).foldl (t.visit kept (t.layers.length + 1)) [] := by
    intro key n hdepth
    induction hdepth with
    | root hnone =>
        intro _ htext
        exact hreach (Nat.succ_pos _) _ (mem_roots.mpr ⟨htext, hnone⟩)
    | step hk hdepth ih =>
        intro hle htext
        rename_i key d n
        obtain ⟨_, c, dependency, _, _, _, hder, rfl⟩ :=
          derives_of_kept (hkept ▸ hk)
        have hsource : c.dependsOn ∈ t.textLayers.map (·.1) :=
          List.mem_map.mpr ⟨_, mem_textLayers_of_textLayer? hder.depends, rfl⟩
        refine hclosed _ (ih (by omega) hsource) List.not_mem_nil n hdepth
          (by omega) key ?_
        refine List.mem_filter.mpr ⟨htext, ?_⟩
        rw [hk]
        exact decide_eq_true rfl
  obtain ⟨n, hdepth, hle⟩ := exists_depth hd bs key
  exact hdown key n (hkept ▸ hdepth) hle (List.mem_map.mpr ⟨_, h, rfl⟩)

end Template

end Placard
