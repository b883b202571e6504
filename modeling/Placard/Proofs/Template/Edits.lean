import Placard.Proofs.Template.Parts
import Placard.Template.Check

/-!
# Edits keep templates sound

All that happens to a template once it is in a library is that values are
written to it and layers are added, replaced and removed, in any order. `Edits`
is the closure of these, so what each of them preserves is preserved by every
operation on libraries, whatever it does to how many templates.

What they preserve is that the canvas has no side of zero and that no two layers
have one key.
-/

namespace Placard

namespace Template

/-- What edits can make of a template. -/
inductive Edits : Template → Template → Prop where
  | refl (t : Template) : Edits t t
  | trans {t u v : Template} (h : Edits t u) (h' : Edits u v) : Edits t v
  | set {t t' : Template} {key : String} {p : Property} {v : Value}
      (h : t.set key p v = .ok t') : Edits t t'
  | push {t : Template} {l : Layer} (hnew : t.hasLayer l.key = false) :
      Edits t (t.pushLayer l)
  | place (t : Template) (l : Layer) (place : Nat) :
      Edits t (t.placeLayer l place)
  | drop (t : Template) (key : String) : Edits t (t.dropLayer key)

variable {t t' : Template} {key : String} {p : Property} {v : Value}

theorem edits_takeValues (t : Template)
    (values : List (String × Property × Value)) :
    t.Edits (t.takeValues values).1 :=
  takeValues_induct (fun _ hset h => .trans h (.set hset)) (.refl t)

theorem Edits.id_eq (h : t.Edits t') : t'.id = t.id := by
  induction h with
  | refl => rfl
  | trans _ _ ih ih' => rw [ih', ih]
  | set h => exact id_of_set h
  | push _ => rfl
  | place t l place =>
      unfold placeLayer
      split <;> rfl
  | drop => rfl

/-! ## Soundness -/

/-- The canvas is not empty, and no two layers have one key. -/
structure Sound (t : Template) : Prop where
  width : 1 ≤ t.width
  height : 1 ≤ t.height
  keys : t.DistinctKeys

theorem one_le_side {n : UInt32} (h : Kind.store? .side p v = .ok n) :
    1 ≤ n := by
  replace h : (Kind.finite? p v).bind (Kind.side? p) = .ok n := h
  cases hx : Kind.finite? p v with
  | error e =>
      rw [hx] at h
      cases h
  | ok x =>
      rw [hx, Except.bind, Kind.side?] at h
      split at h
      · next hrange =>
          have hn := Except.ok.inj h
          rw [← hn, UInt32.le_iff_toNat_le,
            UInt32.toNat_ofNat_of_lt' (by omega)]
          show 1 ≤ (Decimal.nearestInt x).toNat
          omega
      · cases h

theorem sides_of_set (h : t.set key p v = .ok t') (hwidth : 1 ≤ t.width)
    (hheight : 1 ≤ t.height) : 1 ≤ t'.width ∧ 1 ≤ t'.height := by
  rcases set_cases h with ⟨-, s, hs, hwrite⟩ | ⟨-, l, body, -, -, rfl⟩
  · obtain ⟨x, hx, rfl⟩ := Slot.exists_put hwrite
    cases p with
    | width =>
        cases hs
        exact ⟨one_le_side hx, hheight⟩
    | height =>
        cases hs
        exact ⟨hwidth, one_le_side hx⟩
    | backgroundColor =>
        cases hs
        exact ⟨hwidth, hheight⟩
    | _ => cases hs
  · exact ⟨hwidth, hheight⟩

theorem Sound.edits (hsound : t.Sound) (h : t.Edits t') : t'.Sound := by
  induction h with
  | refl => exact hsound
  | trans _ _ ih ih' => exact ih' (ih hsound)
  | set h =>
      obtain ⟨hwidth, hheight⟩ := sides_of_set h hsound.width hsound.height
      refine ⟨hwidth, hheight, ?_⟩
      rw [DistinctKeys, keys_of_set h]
      exact hsound.keys
  | push hnew =>
      exact ⟨hsound.width, hsound.height,
        distinctKeys_pushLayer hsound.keys hnew⟩
  | place t l place =>
      refine ⟨?_, ?_, distinctKeys_placeLayer hsound.keys l place⟩
      · unfold placeLayer
        split <;> exact hsound.width
      · unfold placeLayer
        split <;> exact hsound.height
  | drop t key =>
      exact ⟨hsound.width, hsound.height,
        distinctKeys_dropLayer hsound.keys key⟩

end Template

end Placard
