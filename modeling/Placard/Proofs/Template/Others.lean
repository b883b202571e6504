import Placard.Proofs.Template.Parts

/-!
# The layers that an edit leaves alone

Whatever is done under one key, the layers under other keys are the same
afterwards and stand in the same order among themselves. So what an edit changes
about a list of layers is what the one layer is and where it stands.
-/

namespace Placard

theorem filter_replaceBody (key : String) (body : LayerBody) (ls : List Layer) :
    (replaceBody key body ls).filter (fun l => l.key ≠ key) =
      ls.filter fun l => l.key ≠ key := by
  induction ls with
  | nil => rfl
  | cons l rest ih =>
      rw [replaceBody]
      by_cases hl : l.key = key
      · rw [if_pos hl, List.filter_cons_of_neg (by simp [hl]),
          List.filter_cons_of_neg (by simp [hl])]
      · rw [if_neg hl, List.filter_cons_of_pos (by simp [hl]),
          List.filter_cons_of_pos (by simp [hl]), ih]

theorem filter_removeLayer (key : String) (ls : List Layer) :
    (removeLayer key ls).filter (fun l => l.key ≠ key) =
      ls.filter fun l => l.key ≠ key := by
  induction ls with
  | nil => rfl
  | cons l rest ih =>
      rw [removeLayer]
      by_cases hl : l.key = key
      · rw [if_pos hl, List.filter_cons_of_neg (by simp [hl])]
      · rw [if_neg hl, List.filter_cons_of_pos (by simp [hl]),
          List.filter_cons_of_pos (by simp [hl]), ih]

theorem insertIdx_min_length {α : Type} (a : α) (as : List α) (place : Nat) :
    as.insertIdx (min place as.length) a =
      as.take place ++ a :: as.drop place := by
  induction as generalizing place with
  | nil => simp
  | cons b rest ih =>
      cases place with
      | zero => simp
      | succ place =>
          rw [List.length_cons, Nat.succ_min_succ, List.insertIdx_succ_cons, ih,
            List.take_succ_cons, List.drop_succ_cons, List.cons_append]

namespace Template

variable {t t' : Template} {key : String} {l : Layer} {p : Property} {v : Value}

/-- The layers under other keys. -/
def otherLayers (t : Template) (key : String) : List Layer :=
  t.layers.filter fun l => l.key ≠ key

theorem otherLayers_set (h : t.set key p v = .ok t') :
    t'.otherLayers key = t.otherLayers key := by
  rcases set_cases h with ⟨rfl, s, hs, hwrite⟩ | ⟨-, l, body, -, -, rfl⟩
  · rw [otherLayers, (of_write_slot hs hwrite).2, otherLayers]
  · exact filter_replaceBody key body t.layers

theorem otherLayers_getD_set (t : Template) (key : String) (p : Property)
    (v : Value) :
    ((t.set key p v).toOption.getD t).otherLayers key = t.otherLayers key := by
  cases h : t.set key p v with
  | error e => rfl
  | ok t' => exact otherLayers_set h

theorem otherLayers_pushLayer (t : Template) (l : Layer) :
    (t.pushLayer l).otherLayers l.key = t.otherLayers l.key := by
  rw [otherLayers, pushLayer, List.filter_append,
    List.filter_cons_of_neg (by simp), List.filter_nil, List.append_nil,
    otherLayers]

theorem otherLayers_placeLayer (t : Template) (l : Layer) (place : Nat) :
    (t.placeLayer l place).otherLayers l.key = t.otherLayers l.key := by
  unfold placeLayer
  split
  · exact filter_replaceBody l.key l.body t.layers
  · rw [otherLayers, insertIdx_min_length, List.filter_append,
      List.filter_cons_of_neg (by simp), ← List.filter_append,
      List.take_append_drop, otherLayers]

theorem otherLayers_dropLayer (t : Template) (key : String) :
    (t.dropLayer key).otherLayers key = t.otherLayers key :=
  filter_removeLayer key t.layers

end Template

end Placard
