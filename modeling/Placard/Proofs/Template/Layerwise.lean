import Placard.Proofs.Template.Edits

/-!
# What holds of every layer

A template is built layer by layer, and much that is said of it is said of each
of its layers. That it stays so is a matter of the layers that are put into it
and of the values that are written to those it has. So it is enough to know of a
property of layers which values keep it, and that no others are read from a
layer that has it: then what is taken from one template keeps it in every other.
-/

namespace Placard

/-- A property that a layer keeps as `Q` values are written to it, and such are
the values that are read from it. -/
structure Layerwise (P : Layer → Prop) (Q : Property → Value → Prop) :
    Prop where
  get : ∀ {l : Layer} {p : Property} {v : Value}, P l →
    l.body.get? p = some v → Q p v
  set :
      ∀ {l : Layer} {key : String} {p : Property} {v : Value}
        {body : LayerBody},
        P l → Q p v → l.body.set key p v = .ok body → P { l with body := body }

/-- Every layer of the template has the property. -/
def Template.All (P : Layer → Prop) (t : Template) : Prop :=
  ∀ l ∈ t.layers, P l

namespace Template.All

variable {P : Layer → Prop} {Q : Property → Value → Prop} {t t' : Template}
  {key : String} {p : Property} {v : Value} {l : Layer}

theorem set (hP : Layerwise P Q) (ht : t.All P) (hv : key ≠ canvasKey → Q p v)
    (h : t.set key p v = .ok t') : t'.All P := by
  rcases set_cases h with ⟨-, s, hs, hwrite⟩ | ⟨hkey, l, body, hl, hbody, rfl⟩
  · intro l hl
    rw [(of_write_slot hs hwrite).2] at hl
    exact ht l hl
  · intro m hm
    rcases mem_replaceBody hm with hm | ⟨l', hl', rfl⟩
    · exact ht m hm
    · obtain rfl : l = l' := Option.some.inj (hl.symm.trans hl')
      exact hP.set (ht l (mem_of_findLayer? hl).1) (hv hkey) hbody

theorem getD_set (hP : Layerwise P Q) (ht : t.All P)
    (hv : key ≠ canvasKey → Q p v) :
    ((t.set key p v).toOption.getD t).All P := by
  cases h : t.set key p v with
  | error e => exact ht
  | ok t' => exact ht.set hP hv h

theorem pushLayer (ht : t.All P) (hl : P l) : (t.pushLayer l).All P := by
  intro m hm
  rcases List.mem_append.mp hm with hm | hm
  · exact ht m hm
  · exact List.mem_singleton.mp hm ▸ hl

theorem placeLayer (ht : t.All P) (hl : P l) (place : Nat) :
    (t.placeLayer l place).All P := by
  intro m hm
  unfold Template.placeLayer at hm
  split at hm
  · rcases mem_replaceBody hm with hm | ⟨l', hl', rfl⟩
    · exact ht m hm
    · obtain ⟨-, hkey⟩ := mem_of_findLayer? hl'
      rw [show ({ l' with body := l.body } : Layer) = l by rw [hkey]]
      exact hl
  · rcases List.eq_or_mem_of_mem_insertIdx hm with rfl | hm
    · exact hl
    · exact ht m hm

theorem dropLayer (ht : t.All P) (key : String) : (t.dropLayer key).All P :=
  fun l hl => ht l ((removeLayer_sublist key t.layers).subset hl)

theorem layer? (ht : t.All P) (hl : t.layer? key = some l) : P l :=
  ht l (mem_of_findLayer? hl).1

/-- What is read from a layer may be written to another. -/
theorem of_get? (hP : Layerwise P Q) (ht : t.All P) (hv : t.get? key p = some v)
    (hkey : key ≠ canvasKey) : Q p v := by
  rw [get?, if_neg hkey] at hv
  obtain ⟨l, hl, hread⟩ := Option.bind_eq_some_iff.mp hv
  exact hP.get (ht.layer? hl) hread

theorem takeValues (hP : Layerwise P Q)
    {values : List (String × Property × Value)} (ht : t.All P)
    (h : ∀ key p v, (key, p, v) ∈ values → key ≠ canvasKey → Q p v) :
    (t.takeValues values).1.All P :=
  Template.takeValues_induct
    (fun hmem hset ht => ht.set hP (h _ _ _ hmem) hset) ht

end Template.All

end Placard
