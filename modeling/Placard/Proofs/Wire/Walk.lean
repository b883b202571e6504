import Placard.Proofs.Wire.Chains
import Placard.Proofs.Wire.Order

/-!
# The walk without its bound

The walk over the derivations goes down from a layer to those that depend on it
and does nothing where it has been before. `Walk` says this of a list of keys
that are still to be visited, with no bound on how far down it goes. Each key of
a text layer is gone down from once, so what bounds the walk is the number of
layers that have not been seen; a key that is written down takes one away before
the walk goes on. The steps that `definitionOrder` starts with are one more than
there are layers, so they are never used up. Nothing is asked of the derivations
for this: layers that are derived from each other are gone around once.
-/

namespace Placard

namespace Template

variable {t : Template} {kept : Derivations}

/-- What the keys to visit add to those that have been seen. -/
inductive Walk (t : Template) (kept : Derivations) :
    (seen keys order : List String) → Prop where
  | done {seen : List String} : Walk t kept seen [] seen
  | seen {seen keys order : List String} {key : String} (h : key ∈ seen)
      (hrest : Walk t kept seen keys order) :
      Walk t kept seen (key :: keys) order
  | other {seen keys order : List String} {key : String} (h : key ∉ seen)
      (hnone : t.textLayer? key = none)
      (hrest : Walk t kept (seen ++ [key]) keys order) :
      Walk t kept seen (key :: keys) order
  | down {seen keys below order : List String} {key : String}
      {text : TextLayer} (h : key ∉ seen)
      (htext : t.textLayer? key = some text)
      (hbelow : Walk t kept (seen ++ [key]) (t.dependents kept key) below)
      (hrest : Walk t kept below keys order) :
      Walk t kept seen (key :: keys) order

theorem Walk.unique {seen keys a b : List String} (ha : t.Walk kept seen keys a)
    (hb : t.Walk kept seen keys b) : a = b := by
  induction ha generalizing b with
  | done =>
      cases hb with
      | done => rfl
  | seen h _ ih =>
      cases hb with
      | seen _ hrest => exact ih hrest
      | other h' _ _ | down h' _ _ _ => exact absurd h h'
  | other h hnone _ ih =>
      cases hb with
      | seen h' _ => exact absurd h' h
      | other _ _ hrest => exact ih hrest
      | down _ htext _ _ =>
          rw [hnone] at htext
          cases htext
  | down h htext _ _ ihbelow ih =>
      cases hb with
      | seen h' _ => exact absurd h' h
      | other _ hnone _ =>
          rw [htext] at hnone
          cases hnone
      | down _ _ hbelow hrest => exact ih (ihbelow hbelow ▸ hrest)

/-- The layers that have not been seen. -/
def unseen (t : Template) (seen : List String) : List Layer :=
  t.layers.filter fun l => l.key ∉ seen

theorem length_unseen_le {seen seen' : List String} (h : seen ⊆ seen') :
    (t.unseen seen').length ≤ (t.unseen seen).length := by
  refine (List.monotone_filter_right t.layers fun l hl => ?_).length_le
  simp only [decide_eq_true_eq] at hl ⊢
  exact fun hmem => hl (h hmem)

/-- A text layer that is written down has been among those not seen. -/
theorem length_unseen_lt {seen : List String} {key : String} {text : TextLayer}
    (h : key ∉ seen) (htext : t.textLayer? key = some text) :
    (t.unseen (seen ++ [key])).length < (t.unseen seen).length := by
  obtain ⟨l, hl, hkey⟩ := List.mem_map.mp (mem_keys_of_textLayer? htext)
  have hsplit : t.unseen (seen ++ [key]) =
      (t.unseen seen).filter fun l => l.key ≠ key := by
    rw [unseen, unseen, List.filter_filter]
    refine List.filter_congr fun l _ => ?_
    simp [and_comm]
  rw [hsplit]
  refine List.length_filter_lt_length_iff_exists.mpr ⟨l, ?_, by simp [hkey]⟩
  exact List.mem_filter.mpr ⟨hl, by simpa [hkey] using h⟩

section Visit

variable {fuel : Nat} {seen : List String} {key : String}

theorem visit_of_mem (h : key ∈ seen) :
    t.visit kept (fuel + 1) seen key = seen := by
  rw [visit, if_pos h]

theorem visit_of_none (h : key ∉ seen) (hnone : t.textLayer? key = none) :
    t.visit kept (fuel + 1) seen key = seen ++ [key] := by
  rw [visit, if_neg h, hnone, Option.isNone_none, if_pos rfl]

theorem visit_of_some (h : key ∉ seen) {text : TextLayer}
    (htext : t.textLayer? key = some text) :
    t.visit kept (fuel + 1) seen key =
      (t.dependents kept key).foldl (t.visit kept fuel) (seen ++ [key]) := by
  rw [visit, if_neg h, htext, Option.isNone_some, if_neg Bool.false_ne_true]

end Visit

/-- With more steps than there are layers not seen, the bounded walk is the
walk. -/
theorem walk_foldl_visit {fuel : Nat} : ∀ {keys seen : List String},
    (t.unseen seen).length < fuel →
      t.Walk kept seen keys (keys.foldl (t.visit kept fuel) seen) := by
  induction fuel with
  | zero => exact fun h => absurd h (Nat.not_lt_zero _)
  | succ fuel ih =>
      intro keys
      induction keys with
      | nil => exact fun _ => .done
      | cons key keys ihkeys =>
          intro seen hfuel
          -- Whatever the first key adds, no more layers are unseen behind it.
          have hrest := ihkeys (Nat.lt_of_le_of_lt
            (length_unseen_le (subset_visit t kept (fuel + 1) seen key)) hfuel)
          rw [List.foldl_cons]
          by_cases h : key ∈ seen
          · rw [visit_of_mem h] at hrest ⊢
            exact .seen h hrest
          · cases htext : t.textLayer? key with
            | none =>
                rw [visit_of_none h htext] at hrest ⊢
                exact .other h htext hrest
            | some text =>
                rw [visit_of_some h htext] at hrest ⊢
                have hless := length_unseen_lt h htext
                exact .down h htext (ih (by omega)) hrest

/-- The walk from the roots comes to an end, and to one only: the order in which
the definitions are written. -/
theorem walk_roots_iff {order : List String} :
    t.Walk kept [] (t.roots kept) order ↔ t.definitionOrder kept = order := by
  have hrun : t.Walk kept [] (t.roots kept) (t.definitionOrder kept) := by
    refine walk_foldl_visit (Nat.lt_succ_of_le ?_)
    exact List.length_filter_le _ _
  exact ⟨hrun.unique, fun h => h ▸ hrun⟩

end Template

end Placard
