import Placard.Proofs.Family.Pairs
import Placard.Proofs.Template.Others

/-!
# What an operation does to the template that it is addressed to

An edit of a parent reaches its children as well, and one of a child leaves
flags behind. For the template that is addressed neither matters: its parent or
its children are other templates, and the same is done to it in either case.
-/

namespace Placard

/-- What an operation makes of the template that it edits. -/
inductive Operation.Rewrites : Operation → Template → Template → Prop where
  | setProperty {id layer : String} {p : Property} {v : Value}
      {toggles : Toggles} {t t' : Template} (hset : t.set layer p v = .ok t') :
      Rewrites (.setProperty id layer p v toggles) t t'
  | resetProperty {id layer : String} {p : Property} {v : Value}
      {t t' : Template} (hset : t.set layer p v = .ok t') :
      Rewrites (.resetProperty id layer p) t t'
  | resyncChild {id : String} {toggles : Toggles} (t : Template)
      (values : List (String × Property × Value)) :
      Rewrites (.resyncChild id toggles) t (t.takeValues values).1
  | resetLayer {id key : String} {l : Layer} (hkey : l.key = key) (t : Template)
      (place : Nat) : Rewrites (.resetLayer id key) t (t.placeLayer l place)
  | deleteLayer {id key : String} (t : Template) :
      Rewrites (.deleteLayer id key) t (t.dropLayer key)
  | addLayer {id : String} {l : Layer} {t : Template}
      (hnew : t.hasLayer l.key = false) :
      Rewrites (.addLayer id l) t (t.pushLayer l)
  | replaceChildLayer {id : String} (l : Layer) (t : Template) (place : Nat) :
      Rewrites (.replaceChildLayer id l) t (t.placeLayer l place)

variable {w w' : Workspace} {op : Operation} {id key : String} {t t' : Template}

theorem Operation.Rewrites.otherLayers_eq (h : op.Rewrites t t')
    (hop : op.key? = some key) : t'.otherLayers key = t.otherLayers key := by
  cases h with
  | setProperty hset | resetProperty hset =>
      cases hop
      exact Template.otherLayers_set hset
  | resyncChild => cases hop
  | resetLayer hkey =>
      cases hop
      exact hkey ▸ Template.otherLayers_placeLayer _ _ _
  | deleteLayer =>
      cases hop
      exact Template.otherLayers_dropLayer t key
  | addLayer =>
      cases hop
      exact Template.otherLayers_pushLayer _ _
  | replaceChildLayer =>
      cases hop
      exact Template.otherLayers_placeLayer _ _ _

/-- An operation that succeeds has rewritten the template that it edits, or
removed it. -/
theorem Effect.rewrites (hlinked : w.library.Linked) (h : Effect w op w')
    (hop : op.edits? = some id) (hstays : op ≠ .removeChild id) :
    ∃ t t', w.library.get? id = some t ∧ w'.library.get? id = some t' ∧
      op.Rewrites t t' := by
  have hunlisted := hlinked.not_mem_own_children id
  have hnodup := hlinked.nodup_childrenOf id
  cases h with
  | register | createChild => cases hop
  | removeChild =>
      cases hop
      exact absurd rfl hstays
  | setOfParent _ ht hset =>
      cases hop
      refine ⟨_, _, ht, ?_, .setProperty hset⟩
      rw [get?_writeAll _ _ _ (nodup_propagationTargets hnodup _ _ _ _ _),
        if_neg fun hmem => hunlisted (mem_propagationTargets.mp hmem).1,
        Library.get?_put_self]
  | setOfChild _ ht hset =>
      cases hop
      exact ⟨_, _, ht, Library.get?_put_self _ _ _, .setProperty hset⟩
  | resetProperty _ _ _ _ ht hset =>
      cases hop
      exact ⟨_, _, ht, Library.get?_put_self _ _ _, .resetProperty hset⟩
  | resyncChild _ _ ht =>
      cases hop
      exact ⟨_, _, ht, Library.get?_put_self _ _ _, .resyncChild _ _⟩
  | resetLayer _ _ hl ht =>
      cases hop
      exact ⟨_, _, ht, Library.get?_put_self _ _ _,
        .resetLayer (mem_of_findLayer? hl).2 _ _⟩
  | @deleteOfParent _ key t _ ht =>
      cases hop
      refine ⟨_, _, ht, ?_, .deleteLayer _⟩
      have hget := get?_dropFromChildren key hnodup
        { w with library := w.library.put id (t.dropLayer key) } id
      rw [if_neg hunlisted, Library.get?_put_self] at hget
      exact hget
  | deleteOfChild _ ht =>
      cases hop
      exact ⟨_, _, ht, Library.get?_put_self _ _ _, .deleteLayer _⟩
  | addToParent _ ht _ hnew =>
      cases hop
      exact ⟨_, _, ht, Library.get?_put_self _ _ _, .addLayer hnew⟩
  | addToChild _ ht _ hnew =>
      cases hop
      exact ⟨_, _, ht, Library.get?_put_self _ _ _, .addLayer hnew⟩
  | replaceChildLayer _ ht =>
      cases hop
      exact ⟨_, _, ht, Library.get?_put_self _ _ _, .replaceChildLayer _ _ _⟩

end Placard
