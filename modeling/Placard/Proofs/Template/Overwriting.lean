import Placard.Proofs.Template.Writing

/-!
# Two values written to one template

Where two values are written to different properties, or under different keys,
the order does not matter: each is stored in a place of its own. Where they are
written to the same property, the later counts, and of the earlier nothing is
left. Whether a value is taken, and why it is not, is the same in any case, as
it depends on the kind of the part alone, and no write changes that.
-/

namespace Placard

/-- Whether a value is taken, and if not, why. -/
def verdict {α : Type} (r : Except WriteError α) : Except WriteError Unit :=
  r.map fun _ => ()

theorem verdict_map {α β : Type} (f : α → β) (r : Except WriteError α) :
    verdict (r.map f) = verdict r := by
  cases r <;> rfl

/-! ## Slots -/

/-- What is put into a slot replaces what was there, and what is put into two
slots may be put in either order. -/
structure PutApart {α : Type} (slot? : Property → Option (Slot α)) : Prop where
  put_put : ∀ {p : Property} {s : Slot α}, slot? p = some s →
    ∀ x y a, s.put x (s.put y a) = s.put x a
  put_comm : ∀ {p q : Property} {s s' : Slot α}, slot? p = some s →
    slot? q = some s' →
    p ≠ q → ∀ x y a, s.put x (s'.put y a) = s'.put y (s.put x a)

theorem TextLayer.putApart : PutApart TextLayer.slot? := by
  constructor
  · intro p s h x y t
    cases p <;> cases h <;> rfl
  · intro p q s s' h h' hne x y t
    cases p <;> cases h <;> cases q <;> cases h' <;>
      first | rfl | exact absurd rfl hne

theorem ImageLayer.putApart : PutApart ImageLayer.slot? := by
  constructor
  · intro p s h x y i
    cases p <;> cases h <;> rfl
  · intro p q s s' h h' hne x y i
    cases p <;> cases h <;> cases q <;> cases h' <;>
      first | rfl | exact absurd rfl hne

theorem Template.putApart : PutApart Template.slot? := by
  constructor
  · intro p s h x y t
    cases p <;> cases h <;> rfl
  · intro p q s s' h h' hne x y t
    cases p <;> cases h <;> cases q <;> cases h' <;>
      first | rfl | exact absurd rfl hne

theorem Slot.verdict_write {α : Type} (s : Slot α) (p : Property) (v : Value)
    (a b : α) : verdict (s.write p v a) = verdict (s.write p v b) := by
  rw [Slot.write, verdict_map, Slot.write, verdict_map]

namespace PutApart

variable {α : Type} {slot? : Property → Option (Slot α)} {p q : Property}
  {s s' : Slot α} {v v' : Value} {a a₁ a₂ : α}

theorem write_write (hapart : PutApart slot?) (hs : slot? p = some s)
    (h : s.write p v a = .ok a₁) (v' : Value) :
    s.write p v' a₁ = s.write p v' a := by
  obtain ⟨x, -, rfl⟩ := Slot.exists_put h
  rw [Slot.write, Slot.write]
  cases s.kind.store? p v' with
  | error e => rfl
  | ok y => exact congrArg Except.ok (hapart.put_put hs y x a)

theorem write_comm (hapart : PutApart slot?) (hs : slot? p = some s)
    (hs' : slot? q = some s') (hne : p ≠ q) (h : s.write p v a = .ok a₁)
    (h' : s'.write q v' a = .ok a₂) : s'.write q v' a₁ = s.write p v a₂ := by
  obtain ⟨x, hx, rfl⟩ := Slot.exists_put h
  obtain ⟨y, hy, rfl⟩ := Slot.exists_put h'
  rw [Slot.write, hy, Slot.write, hx]
  exact congrArg Except.ok (hapart.put_comm hs hs' hne x y a).symm

end PutApart

/-! ## Bodies of layers -/

namespace LayerBody

open Template

variable {b b' b₁ b₂ : LayerBody} {key : String} {p q : Property} {v v' : Value}

theorem text_set {t : TextLayer} {s : Slot TextLayer}
    (hs : TextLayer.slot? p = some s) :
    set (.text t) key p v = (s.write p v t).map .text := by
  simp only [set, hs]

theorem image_set {i : ImageLayer} {s : Slot ImageLayer}
    (hs : ImageLayer.slot? p = some s) :
    set (.image i) key p v = (s.write p v i).map .image := by
  simp only [set, hs]

theorem set_set (h : b.set key p v = .ok b') (v' : Value) :
    b'.set key p v' = b.set key p v' := by
  rcases set_cases h with ⟨t, t', s, rfl, rfl, hs, hw⟩
    | ⟨i, i', s, rfl, rfl, hs, hw⟩
  · rw [text_set hs, text_set hs, TextLayer.putApart.write_write hs hw]
  · rw [image_set hs, image_set hs, ImageLayer.putApart.write_write hs hw]

theorem set_comm (hne : p ≠ q) (h : b.set key p v = .ok b₁)
    (h' : b.set key q v' = .ok b₂) : b₁.set key q v' = b₂.set key p v := by
  rcases set_cases h with ⟨t, t₁, s, rfl, rfl, hs, hw⟩
    | ⟨i, i₁, s, rfl, rfl, hs, hw⟩ <;>
    rcases set_cases h' with ⟨u, t₂, s', heq, rfl, hs', hw'⟩
      | ⟨u, i₂, s', heq, rfl, hs', hw'⟩ <;>
    cases heq
  · rw [text_set hs', text_set hs,
      TextLayer.putApart.write_comm hs hs' hne hw hw']
  · rw [image_set hs', image_set hs,
      ImageLayer.putApart.write_comm hs hs' hne hw hw']

theorem verdict_set (hkind : (Part.layer b').kind = (Part.layer b).kind)
    (key : String) (p : Property) (v : Value) :
    verdict (b'.set key p v) = verdict (b.set key p v) := by
  cases b with
  | text t =>
      cases b' with
      | text t' =>
          cases hs : TextLayer.slot? p with
          | none => simp only [set, hs]
          | some s =>
              rw [text_set hs, text_set hs, verdict_map, verdict_map,
                s.verdict_write]
      | image i => cases hkind
  | image i =>
      cases b' with
      | text t => cases hkind
      | image i' =>
          cases hs : ImageLayer.slot? p with
          | none => simp only [set, hs]
          | some s =>
              rw [image_set hs, image_set hs, verdict_map, verdict_map,
                s.verdict_write]

end LayerBody

/-! ## Lists of layers -/

theorem replaceBody_replaceBody (key : String) (b b' : LayerBody)
    (ls : List Layer) :
    replaceBody key b (replaceBody key b' ls) = replaceBody key b ls := by
  induction ls with
  | nil => rfl
  | cons l ls ih =>
      rw [replaceBody, replaceBody]
      split
      · next hl => rw [replaceBody, if_pos hl]
      · next hl => rw [replaceBody, if_neg hl, ih]

theorem replaceBody_comm {key key' : String} (h : key ≠ key') (b b' : LayerBody)
    (ls : List Layer) :
    replaceBody key b (replaceBody key' b' ls) =
      replaceBody key' b' (replaceBody key b ls) := by
  induction ls with
  | nil => rfl
  | cons l ls ih =>
      by_cases hl : l.key = key
      · have hl' : l.key ≠ key' := hl ▸ h
        simp only [replaceBody, if_pos hl, if_neg hl']
      · by_cases hl' : l.key = key'
        · simp only [replaceBody, if_neg hl, if_pos hl']
        · simp only [replaceBody, if_neg hl, if_neg hl', ih]

/-! ## Templates -/

namespace Template

variable {t t₁ t₂ u : Template} {key key' : String} {p q : Property}
  {v v' : Value} {l : Layer}

theorem set_canvas {s : Slot Template} (hs : slot? p = some s) :
    t.set canvasKey p v = s.write p v t := by
  simp only [set, if_pos, hs]

theorem set_layer (hkey : key ≠ canvasKey) (hl : t.layer? key = some l) :
    t.set key p v =
      (l.body.set key p v).map fun b => { t with
        layers := replaceBody key b t.layers } := by
  simp only [set, if_neg hkey, hl]
  cases l.body.set key p v <;> rfl

/-- The later of two values that are written to one property is what counts. -/
theorem set_set (h : t.set key p v = .ok t₁) (v' : Value) :
    t₁.set key p v' = t.set key p v' := by
  rcases set_cases h with ⟨rfl, s, hs, hw⟩ | ⟨hkey, l, body, hl, hbody, rfl⟩
  · rw [set_canvas hs, set_canvas hs, putApart.write_write hs hw]
  · rw [set_layer hkey (layer?_replaceBody hl body), set_layer hkey hl,
      LayerBody.set_set hbody]
    simp only [replaceBody_replaceBody]

/-- The canvas and a layer may be written to in either order. -/
theorem set_comm_canvas (hkey : key ≠ canvasKey)
    (h : t.set canvasKey p v = .ok t₁) (h' : t.set key q v' = .ok t₂) :
    t₁.set key q v' = t₂.set canvasKey p v := by
  obtain ⟨s, hs, hw⟩ := exists_slot_of_set h
  obtain ⟨l, body, -, -, ht₂⟩ := exists_layer_of_set h' hkey
  rw [set_of_layers hkey (of_write_slot hs hw).2, h', set_canvas hs, ht₂]
  obtain ⟨x, hx, rfl⟩ := Slot.exists_put hw
  rw [Slot.write, hx]
  refine congrArg Except.ok ?_
  cases p <;> cases hs <;> rfl

/-- Two layers may be written to in either order. -/
theorem set_comm_layers (hkey : key ≠ canvasKey) (hkey' : key' ≠ canvasKey)
    (hne : key ≠ key') (h : t.set key p v = .ok t₁)
    (h' : t.set key' q v' = .ok t₂) : t₁.set key' q v' = t₂.set key p v := by
  obtain ⟨l, body, hl, hbody, ht₁⟩ := exists_layer_of_set h hkey
  obtain ⟨l', body', hl', hbody', ht₂⟩ := exists_layer_of_set h' hkey'
  rw [set_layer hkey' ((layer?_of_set h (Or.inl hne.symm)).trans hl'), hbody',
    set_layer hkey ((layer?_of_set h' (Or.inl hne)).trans hl), hbody, ht₁, ht₂]
  simp only [Except.map, replaceBody_comm hne]

/-- Two properties of a layer may be written to in either order. -/
theorem set_comm_layer (hkey : key ≠ canvasKey) (hne : p ≠ q)
    (h : t.set key p v = .ok t₁) (h' : t.set key q v' = .ok t₂) :
    t₁.set key q v' = t₂.set key p v := by
  obtain ⟨l, body, hl, hbody, rfl⟩ := exists_layer_of_set h hkey
  obtain ⟨l', body', hl', hbody', rfl⟩ := exists_layer_of_set h' hkey
  obtain rfl : l = l' := Option.some.inj (hl.symm.trans hl')
  rw [set_layer hkey (layer?_replaceBody hl body),
    set_layer hkey (layer?_replaceBody hl body'),
    LayerBody.set_comm hne hbody hbody']
  simp only [replaceBody_replaceBody]

/-- Two properties of the canvas may be written to in either order. -/
theorem set_comm_sides (hne : p ≠ q) (h : t.set canvasKey p v = .ok t₁)
    (h' : t.set canvasKey q v' = .ok t₂) :
    t₁.set canvasKey q v' = t₂.set canvasKey p v := by
  obtain ⟨s, hs, hw⟩ := exists_slot_of_set h
  obtain ⟨s', hs', hw'⟩ := exists_slot_of_set h'
  rw [set_canvas hs', set_canvas hs, putApart.write_comm hs hs' hne hw hw']

/-- Values that are written to different places may be written in either
order. -/
theorem set_comm (hne : (key, p) ≠ (key', q)) (h : t.set key p v = .ok t₁)
    (h' : t.set key' q v' = .ok t₂) : t₁.set key' q v' = t₂.set key p v := by
  by_cases heq : key = key'
  · subst heq
    have hpq : p ≠ q := fun heq => hne (by rw [heq])
    by_cases hkey : key = canvasKey
    · subst hkey
      exact set_comm_sides hpq h h'
    · exact set_comm_layer hkey hpq h h'
  · by_cases hkey : key = canvasKey
    · subst hkey
      exact set_comm_canvas (Ne.symm heq) h h'
    · by_cases hkey' : key' = canvasKey
      · subst hkey'
        exact (set_comm_canvas hkey h' h).symm
      · exact set_comm_layers hkey hkey' heq h h'

/-- Whether a value is taken depends on the kind of the part. -/
theorem verdict_set (hkind : u.kind? key = t.kind? key) (p : Property)
    (v : Value) : verdict (u.set key p v) = verdict (t.set key p v) := by
  by_cases hkey : key = canvasKey
  · subst hkey
    cases hs : slot? p with
    | none => simp only [set, if_pos, hs]
    | some s => rw [set_canvas hs, set_canvas hs, s.verdict_write]
  · rw [kind?, part?_of_ne u hkey, kind?, part?_of_ne t hkey] at hkind
    cases hl : t.layer? key with
    | none =>
        rw [hl, Option.map_none, Option.map_none, Option.map_eq_none_iff,
          Option.map_eq_none_iff] at hkind
        simp only [set, if_neg hkey, hl, hkind]
    | some l =>
        cases hl' : u.layer? key with
        | none =>
            rw [hl, hl'] at hkind
            cases hkind
        | some l' =>
            rw [hl, hl'] at hkind
            rw [set_layer hkey hl, set_layer hkey hl', verdict_map, verdict_map,
              LayerBody.verdict_set (Option.some.inj hkind)]

/-! ## Values that a template may refuse -/

/-- The template with a value written to it, if it takes the value. -/
def trySet (t : Template) (key : String) (p : Property) (v : Value) :
    Template :=
  (t.set key p v).toOption.getD t

theorem trySet_of_ok (h : t.set key p v = .ok u) : t.trySet key p v = u := by
  rw [trySet, h]
  rfl

theorem trySet_of_error {e : WriteError} (h : t.set key p v = .error e) :
    t.trySet key p v = t := by
  rw [trySet, h]
  rfl

theorem kind?_trySet (t : Template) (key : String) (p : Property) (v : Value)
    (key' : String) : (t.trySet key p v).kind? key' = t.kind? key' := by
  cases h : t.set key p v with
  | error e => rw [trySet_of_error h]
  | ok u => rw [trySet_of_ok h, kind?_of_set h]

/-- No value changes what is said of another. -/
theorem verdict_set_trySet (t : Template) (key : String) (p : Property)
    (v : Value) (key' : String) (q : Property) (v' : Value) :
    verdict ((t.trySet key p v).set key' q v') = verdict (t.set key' q v') :=
  verdict_set (kind?_trySet t key p v key') q v'

theorem eq_error_of_verdict {r : Except WriteError Template} {e : WriteError}
    (h : verdict r = .error e) : r = .error e := by
  cases r with
  | error e' => exact congrArg Except.error (Except.error.inj h)
  | ok t => cases h

theorem trySet_trySet (h : t.set key p v' = .ok u) (v : Value) :
    (t.trySet key p v).trySet key p v' = u := by
  cases hv : t.set key p v with
  | error e => rw [trySet_of_error hv, trySet_of_ok h]
  | ok t₁ =>
      rw [trySet_of_ok hv]
      exact trySet_of_ok ((set_set hv v').trans h)

theorem trySet_comm (hne : (key, p) ≠ (key', q)) (t : Template) (v v' : Value) :
    (t.trySet key p v).trySet key' q v' =
      (t.trySet key' q v').trySet key p v := by
  have hsame := verdict_set_trySet t key p v key' q v'
  have hsame' := verdict_set_trySet t key' q v' key p v
  cases h : t.set key p v with
  | error e =>
      rw [h] at hsame'
      rw [trySet_of_error h, trySet_of_error (eq_error_of_verdict hsame')]
  | ok t₁ =>
      cases h' : t.set key' q v' with
      | error e =>
          rw [h'] at hsame
          rw [trySet_of_error h', trySet_of_error (eq_error_of_verdict hsame)]
      | ok t₂ =>
          have hcomm := set_comm hne h h'
          rw [trySet_of_ok h'] at hsame' ⊢
          rw [trySet_of_ok h]
          rw [h] at hsame'
          cases h'' : t₂.set key p v with
          | error e =>
              rw [h''] at hsame'
              cases hsame'
          | ok t₃ => rw [trySet_of_ok h'', trySet_of_ok (hcomm.trans h'')]

end Template

end Placard
