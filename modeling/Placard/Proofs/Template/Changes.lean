import Placard.Proofs.Template.Others
import Placard.Proofs.Template.Writing

/-!
# What a write changes, and what it does not

A property is stored in a place of its own, and what is read from it determines
what is stored there. So of a template with a value written to it everything is
as before except what is read from that property, and if that is as before as
well, it is the same template.
-/

namespace Placard

/-! ## Slots -/

theorem Value.ofNumber?_injective : Function.Injective Value.ofNumber? := by
  intro x y h
  cases x <;> cases y
  · rfl
  · cases h
  · cases h
  · exact congrArg some (Value.number.inj h)

theorem Value.ofText?_injective : Function.Injective Value.ofText? := by
  intro x y h
  cases x <;> cases y
  · rfl
  · cases h
  · cases h
  · exact congrArg some (Value.text.inj h)

/-- A place in the drawing order is a double, and no two are the same one. -/
theorem float_ofInt_injective :
    Function.Injective fun n : Int32 => Float.ofInt n.toInt := by
  intro m n h
  rw [← Decimal.toInt32_ofInt m, ← Decimal.toInt32_ofInt n]
  exact congrArg (fun x => Int32.ofInt (Decimal.toInt32 x)) h

theorem float_ofNat_injective :
    Function.Injective fun n : UInt32 => Float.ofNat n.toNat := by
  intro m n h
  have hnearest (n : UInt32) :
      Decimal.nearestInt (Float.ofNat n.toNat) = n.toNat := by
    have := n.toNat_lt
    exact Decimal.nearestInt_ofInt (z := n.toNat) (by omega)
  have hsame :=
    (hnearest m).symm.trans ((congrArg Decimal.nearestInt h).trans (hnearest n))
  exact UInt32.toNat_inj.mp (Int.ofNat.inj hsame)

/-- What is stored is determined by how it reads. -/
theorem Kind.read_injective (k : Kind) : Function.Injective k.read := by
  intro x y h
  cases k with
  | optionalNumber => exact Value.ofNumber?_injective h
  | optionalText => exact Value.ofText?_injective h
  | rank =>
      exact Option.map_injective float_ofInt_injective
        (Value.ofNumber?_injective h)
  | side => exact float_ofNat_injective (Value.number.inj h)
  | number => exact Value.number.inj h
  | text => exact Value.text.inj h
  | flag => exact Value.flag.inj h
  | fontSize => exact Value.fontSize.inj h
  | gravity => exact Value.gravity.inj h
  | color => exact Value.color.inj h

theorem TextLayer.put_get {p : Property} {s : Slot TextLayer}
    (hs : slot? p = some s) (t : TextLayer) : s.put (s.get t) t = t := by
  cases p <;> cases hs <;> rfl

theorem ImageLayer.put_get {p : Property} {s : Slot ImageLayer}
    (hs : slot? p = some s) (i : ImageLayer) : s.put (s.get i) i = i := by
  cases p <;> cases hs <;> rfl

theorem Template.put_get {p : Property} {s : Slot Template}
    (hs : slot? p = some s) (t : Template) : s.put (s.get t) t = t := by
  cases p <;> cases hs <;> rfl

/-- What reads as before after a write is as it was. -/
theorem StoredApart.eq_of_write {α : Type}
    {slot? : Property → Option (Slot α)} {p : Property} {s : Slot α}
    {v : Value} {a a' : α} (hapart : StoredApart slot?)
    (hs : slot? p = some s) (hback : s.put (s.get a) a = a)
    (h : s.write p v a = .ok a') (hread : s.read a' = s.read a) : a' = a := by
  obtain ⟨x, -, rfl⟩ := Slot.exists_put h
  have hsame : s.get (s.put x a) = s.get a := s.kind.read_injective hread
  rw [hapart.get_put hs] at hsame
  rw [hsame, hback]

/-! ## Bodies of layers -/

namespace LayerBody

open Template

variable {b b' : LayerBody} {key : String} {p : Property} {v : Value}

/-- What no property stores: the kind of a layer, its calculation and its
role. -/
def fixed : LayerBody → PartKind × Option Calculation × Option Role
  | .text t => (.text, t.calculation, t.role)
  | .image i => (.image, none, i.role)

theorem fixed_of_set (h : b.set key p v = .ok b') : b'.fixed = b.fixed := by
  rcases set_cases h with ⟨t, t', s, rfl, rfl, hs, hw⟩
    | ⟨i, i', s, rfl, rfl, hs, hw⟩
  · obtain ⟨x, -, rfl⟩ := Slot.exists_put hw
    cases p <;> cases hs <;> rfl
  · obtain ⟨x, -, rfl⟩ := Slot.exists_put hw
    cases p <;> cases hs <;> rfl

theorem eq_of_set (h : b.set key p v = .ok b') (hread : b'.get? p = b.get? p) :
    b' = b := by
  rcases set_cases h with ⟨t, t', s, rfl, rfl, hs, hw⟩
    | ⟨i, i', s, rfl, rfl, hs, hw⟩
  · simp only [get?, hs, Option.map_some, Option.some.injEq] at hread
    rw [TextLayer.storedApart.eq_of_write hs (TextLayer.put_get hs t) hw hread]
  · simp only [get?, hs, Option.map_some, Option.some.injEq] at hread
    rw [ImageLayer.storedApart.eq_of_write hs (ImageLayer.put_get hs i)
      hw hread]

end LayerBody

theorem map_fixed_replaceBody {key : String} {body : LayerBody}
    {ls : List Layer} {l : Layer} (hl : findLayer? key ls = some l)
    (h : body.fixed = l.body.fixed) :
    (replaceBody key body ls).map (fun l => l.body.fixed) = ls.map fun l =>
      l.body.fixed := by
  induction ls with
  | nil => rfl
  | cons m ls ih =>
      rw [findLayer?] at hl
      rw [replaceBody]
      split
      · next hm =>
          rw [if_pos hm, Option.some.injEq] at hl
          rw [List.map_cons, List.map_cons, h, hl]
      · next hm =>
          rw [if_neg hm] at hl
          rw [List.map_cons, List.map_cons, ih hl]

theorem replaceBody_self {key : String} {ls : List Layer} {l : Layer}
    (hl : findLayer? key ls = some l) : replaceBody key l.body ls = ls := by
  induction ls with
  | nil => rfl
  | cons m ls ih =>
      rw [findLayer?] at hl
      rw [replaceBody]
      split
      · next hm =>
          rw [if_pos hm, Option.some.injEq] at hl
          rw [hl]
      · next hm =>
          rw [if_neg hm] at hl
          rw [ih hl]

/-! ## Templates -/

namespace Template

/-- Two templates that differ in nothing but what is read from one property of
one layer, or of the canvas. -/
structure DifferAt (t t' : Template) (key : String) (p : Property) : Prop where
  id : t'.id = t.id
  keys : t'.keys = t.keys
  otherLayers : t'.otherLayers key = t.otherLayers key
  /-- What is of the canvas is of no layer, also if one has its name. -/
  layers : key = canvasKey → t'.layers = t.layers
  /-- The kind, the calculation and the role of every layer. -/
  fixed : t'.layers.map (fun l => l.body.fixed) = t.layers.map fun l =>
    l.body.fixed
  reads : ∀ key' q, (key', q) ≠ (key, p) → t'.get? key' q = t.get? key' q
  eq : t'.get? key p = t.get? key p → t' = t

theorem differAt_of_set {t t' : Template} {key : String} {p : Property}
    {v : Value} (h : t.set key p v = .ok t') : t.DifferAt t' key p where
  id := id_of_set h
  keys := keys_of_set h
  otherLayers := otherLayers_set h
  layers := fun hkey => by
    rcases set_cases h with ⟨-, s, hs, hw⟩ | ⟨hne, -⟩
    · exact (of_write_slot hs hw).2
    · exact absurd hkey hne
  fixed := by
    rcases set_cases h with ⟨-, s, hs, hw⟩ | ⟨-, l, body, hl, hbody, rfl⟩
    · rw [(of_write_slot hs hw).2]
    · exact map_fixed_replaceBody hl (LayerBody.fixed_of_set hbody)
  reads := fun key' q hne => by
    by_cases hkey : key' = key
    · subst hkey
      exact (of_set h).2.2 q fun hq => hne (by rw [hq])
    · exact get?_of_part? (part?_of_set h hkey) q
  eq := fun hread => by
    rcases set_cases h with ⟨rfl, s, hs, hw⟩ | ⟨hkey, l, body, hl, hbody, rfl⟩
    · simp only [get?, hs, if_true, Option.map_some, Option.some.injEq] at hread
      exact storedApart.eq_of_write hs (put_get hs t) hw hread
    · rw [get?, if_neg hkey, get?, if_neg hkey, layer?_replaceBody hl, hl,
        Option.bind_some, Option.bind_some] at hread
      rw [LayerBody.eq_of_set hbody hread, replaceBody_self hl]

end Template

end Placard
