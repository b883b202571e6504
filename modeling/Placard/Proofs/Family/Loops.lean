import Placard.Proofs.Family.Flags
import Placard.Proofs.Family.Links

/-!
# What a loop over children does to each

An edit of a parent ends in a loop over some of its children, one after the
other on the same library. No child is there twice, so each is met once, and is
met as it was before the loop: what the loop does to a template depends on
whether that is one of the children, and on nothing that the loop has done
before.
-/

namespace Placard

variable {lib : Library} {id : String} {ids : List String}

theorem get?_reviseAll (f : Template → Template) (hn : ids.Nodup)
    (lib : Library) (id : String) :
    (lib.reviseAll f ids).get? id =
      if id ∈ ids then (lib.get? id).map f else lib.get? id := by
  induction ids generalizing lib with
  | nil => rfl
  | cons c rest ih =>
      obtain ⟨hc, hrest⟩ := List.nodup_cons.mp hn
      rw [Library.reviseAll_cons, ih hrest]
      by_cases hid : id = c
      · subst hid
        rw [if_neg hc, if_pos List.mem_cons_self, Library.get?_revise_self]
      · have hmem : id ∈ c :: rest ↔ id ∈ rest := by simp [hid]
        simp only [hmem, Library.get?_revise_of_ne hid]

theorem get?_writeAll (layer : String) (p : Property) (v : Value)
    (hn : ids.Nodup) (lib : Library) (id : String) :
    (lib.writeAll layer p v ids).1.get? id =
      if id ∈ ids then (lib.get? id).map fun t =>
        (t.set layer p v).toOption.getD t
      else lib.get? id := by
  rw [Library.fst_writeAll, get?_reviseAll _ hn]

theorem get?_pushAll (l : Layer) (hn : ids.Nodup) (lib : Library)
    (id : String) :
    (lib.pushAll l ids).1.get? id =
      if id ∈ ids then
        (lib.get? id).map fun t => if t.hasLayer l.key then t else t.pushLayer l
      else lib.get? id := by
  rw [Library.fst_pushAll, get?_reviseAll _ hn]

theorem get?_dropFromChild_self (key : String) (w : Workspace) (c : String) :
    (w.dropFromChild key c).library.get? c =
      (w.library.get? c).map fun t =>
        if w.overrides.isLayerOverridden c key then t else t.dropLayer key := by
  rw [Library.library_dropFromChild, Library.get?_revise_self]

theorem get?_dropFromChild_of_ne {key : String} {w : Workspace} {c : String}
    (h : id ≠ c) :
    (w.dropFromChild key c).library.get? id = w.library.get? id := by
  rw [Library.library_dropFromChild, Library.get?_revise_of_ne h]

theorem flags_dropFromChild_of_ne {key : String} {w : Workspace} {c : String}
    (h : id ≠ c) :
    (w.dropFromChild key c).overrides.flags id = w.overrides.flags id :=
  Overrides.flags_of_get? (Overrides.get?_clearLayer_of_ne h)

theorem get?_dropFromChildren (key : String) (hn : ids.Nodup) (w : Workspace)
    (id : String) :
    (w.dropFromChildren key ids).library.get? id =
      if id ∈ ids then
        (w.library.get? id).map fun t =>
          if w.overrides.isLayerOverridden id key then t else t.dropLayer key
      else w.library.get? id := by
  induction ids generalizing w with
  | nil => rfl
  | cons c rest ih =>
      obtain ⟨hc, hrest⟩ := List.nodup_cons.mp hn
      rw [Workspace.dropFromChildren_cons, ih hrest]
      by_cases hid : id = c
      · subst hid
        rw [if_neg hc, if_pos List.mem_cons_self, get?_dropFromChild_self]
      · have hmem : id ∈ c :: rest ↔ id ∈ rest := by simp [hid]
        have hwhole :
            (w.dropFromChild key c).overrides.isLayerOverridden id key =
              w.overrides.isLayerOverridden id key := by
            rw [Overrides.isLayerOverridden, flags_dropFromChild_of_ne hid,
              Overrides.isLayerOverridden]
        simp only [hmem, get?_dropFromChild_of_ne hid, hwhole]

theorem flags_dropFromChildren (key : String) (hn : ids.Nodup) (w : Workspace)
    (id : String) :
    (w.dropFromChildren key ids).overrides.flags id =
      if id ∈ ids then Function.update (w.overrides.flags id) key .empty
      else w.overrides.flags id := by
  induction ids generalizing w with
  | nil => rfl
  | cons c rest ih =>
      obtain ⟨hc, hrest⟩ := List.nodup_cons.mp hn
      rw [Workspace.dropFromChildren_cons, ih hrest]
      by_cases hid : id = c
      · subst hid
        rw [if_neg hc, if_pos List.mem_cons_self]
        exact w.overrides.flags_clearLayer id key
      · have hmem : id ∈ c :: rest ↔ id ∈ rest := by simp [hid]
        simp only [hmem, flags_dropFromChild_of_ne hid]

theorem contains_of_dropFromChildren {key : String} {w : Workspace}
    (h : (w.dropFromChildren key ids).overrides.contains id = true) :
    w.overrides.contains id = true := by
  induction ids generalizing w with
  | nil => exact h
  | cons c rest ih =>
      rw [Workspace.dropFromChildren_cons] at h
      exact Overrides.contains_of_alter (ih h)

end Placard
