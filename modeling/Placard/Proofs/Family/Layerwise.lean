import Placard.Proofs.Family.WellFormed
import Placard.Proofs.Template.Layerwise

/-!
# What holds of every layer in a library

What an operation writes to a template it has from another template of the
library, or it brings it in. So a property of layers that goes with the values
written holds of every layer of every template for as long as it holds of what
operations bring in: the templates, the layers and the values they are given.
-/

namespace Placard

variable {P : Layer → Prop} {Q : Property → Value → Prop}

/-- Every layer of every template has the property. -/
def Library.All (P : Layer → Prop) (lib : Library) : Prop :=
  ∀ id t, lib.get? id = some t → t.All P

theorem Template.All.childTemplate {parent : Template} (h : parent.All P)
    (id : String) (canvas? : Option Size) :
    (Library.childTemplate parent id canvas?).All P := by
  unfold Template.All
  rw [Library.layers_childTemplate]
  exact h

namespace Library.All

variable {lib : Library} {ids : List String} {t : Template}

theorem put (h : lib.All P) (ht : t.All P) (id : String) :
    (lib.put id t).All P := by
  intro q u hu
  by_cases hq : q = id
  · subst hq
    rw [Library.get?_put_self, Option.some.injEq] at hu
    exact hu ▸ ht
  · rw [Library.get?_put_of_ne hq] at hu
    exact h q u hu

theorem writeAll {layer : String} {p : Property} {v : Value}
    (hP : Layerwise P Q) (h : lib.All P) (hn : ids.Nodup)
    (hv : layer ≠ canvasKey → Q p v) :
    (lib.writeAll layer p v ids).1.All P := by
  intro id t ht
  rw [get?_writeAll layer p v hn] at ht
  split at ht
  · obtain ⟨u, hu, rfl⟩ := Option.map_eq_some_iff.mp ht
    exact (h id u hu).getD_set hP hv
  · exact h id t ht

theorem pushAll {l : Layer} (h : lib.All P) (hn : ids.Nodup) (hl : P l) :
    (lib.pushAll l ids).1.All P := by
  intro id t ht
  rw [get?_pushAll l hn] at ht
  split at ht
  · obtain ⟨u, hu, rfl⟩ := Option.map_eq_some_iff.mp ht
    split
    · exact h id u hu
    · exact (h id u hu).pushLayer hl
  · exact h id t ht

theorem dropFromChildren {key : String} {w : Workspace} (h : w.library.All P)
    (hn : ids.Nodup) : (w.dropFromChildren key ids).library.All P := by
  intro id t ht
  rw [get?_dropFromChildren key hn] at ht
  split at ht
  · obtain ⟨u, hu, rfl⟩ := Option.map_eq_some_iff.mp ht
    split
    · exact h id u hu
    · exact (h id u hu).dropLayer key
  · exact h id t ht

end Library.All

/-- What the operation brings in has the properties. -/
def Operation.Brings (P : Layer → Prop) (Q : Property → Value → Prop) :
    Operation → Prop
  | register t => t.All P
  | setProperty _ layer p v _ => layer ≠ canvasKey → Q p v
  | addLayer _ l => P l
  | replaceChildLayer _ l => P l
  | _ => True

variable {w w' : Workspace} {op : Operation}

theorem Effect.library_all (hP : Layerwise P Q)
    (hlinked : w.library.Linked) (h : Effect w op w') (hop : op.Brings P Q)
    (hall : w.library.All P) : w'.library.All P := by
  cases h with
  | register _ hadds =>
      intro id u hu
      rcases hadds.get?_cases hu with rfl | hu
      · exact hop
      · exact hall id u hu
  | createChild hadds =>
      intro id u hu
      rcases hadds.get?_cases hu with rfl | hu
      · exact (hall _ _ hadds.parent).childTemplate _ _
      · exact hall id u hu
  | removeChild hid =>
      exact fun id u hu => hall id u (Library.get?_of_detach hu)
  | @setOfParent id layer p v toggles t t' hid ht hset =>
      exact (hall.put ((hall id t ht).set hP hop hset) id).writeAll hP
        (nodup_propagationTargets (hlinked.nodup_childrenOf id) _ _ _ _ _) hop
  | setOfChild _ ht hset => exact hall.put ((hall _ _ ht).set hP hop hset) _
  | resetProperty _ _ hu hv ht hset =>
      exact hall.put ((hall _ _ ht).set hP ((hall _ _ hu).of_get? hP hv) hset) _
  | resyncChild _ hu ht =>
      refine hall.put ((hall _ _ ht).takeValues hP fun key p v hmem => ?_) _
      obtain ⟨-, -, hv⟩ := mem_inheritedValues.mp hmem
      exact (hall _ _ hu).of_get? hP hv
  | resetLayer _ hu hl ht =>
      exact hall.put ((hall _ _ ht).placeLayer ((hall _ _ hu).layer? hl) _) _
  | @deleteOfParent id key t hid ht _ =>
      exact Library.All.dropFromChildren
        (w := { w with library := w.library.put id (t.dropLayer key) })
        (hall.put ((hall id t ht).dropLayer key) id)
        (hlinked.nodup_childrenOf id)
  | deleteOfChild _ ht _ => exact hall.put ((hall _ _ ht).dropLayer _) _
  | @addToParent id l t _ ht _ _ =>
      exact (hall.pushAll (hlinked.nodup_childrenOf id) hop).put
        ((hall id t ht).pushLayer hop) id
  | addToChild _ ht _ _ => exact hall.put ((hall _ _ ht).pushLayer hop) _
  | replaceChildLayer _ ht => exact hall.put ((hall _ _ ht).placeLayer hop _) _

theorem Operation.perform_all (hP : Layerwise P Q)
    (hlinked : w.library.Linked) (hop : op.Brings P Q)
    (hall : w.library.All P) : (op.perform w).2.library.All P :=
  op.perform_induct hlinked hall fun _ h => h.library_all hP hlinked hop hall

theorem Workspace.WellFormed.run_all {ops : List Operation}
    (hP : Layerwise P Q) (hw : w.WellFormed)
    (hops : ∀ op ∈ ops, op.Brings P Q) (hall : w.library.All P) :
    (w.run ops).library.All P :=
  (Workspace.each_of_forall hops w).run_induct (P := fun w => w.library.All P)
    (fun {_ op} hw hop hall => op.perform_all hP hw.linked hop hall) hw hall

end Placard
