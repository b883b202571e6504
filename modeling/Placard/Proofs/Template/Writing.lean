import Placard.Proofs.Decimal.Whole
import Placard.Proofs.Template.Parts

/-!
# What is read after a value has been written

Whether a property takes a value depends on the value and on what kind of part
has the property, and so does what is read from it afterwards; what the part
held before does not matter. So a value that is written to a layer of the parent
can be written to a layer of the same kind in a child, and reads the same there.

A value that has been read can be written back, and then reads the same again.
There is one exception: the key of the metadata, or the asset of a picture, may
be stored as an empty text, and is stored as none where an empty text is
written.
-/

namespace Placard

/-! ## Slots -/

/-- Properties that are stored each in a place of its own. -/
structure StoredApart {α : Type} (slot? : Property → Option (Slot α)) :
    Prop where
  get_put : ∀ {p : Property} {s : Slot α}, slot? p = some s →
    ∀ x a, s.get (s.put x a) = x
  get_put_of_ne : ∀ {p q : Property} {s s' : Slot α}, slot? p = some s →
    slot? q = some s' → q ≠ p → ∀ x a, s'.get (s.put x a) = s'.get a

theorem TextLayer.storedApart : StoredApart TextLayer.slot? := by
  constructor
  · intro p s h x t
    cases p <;> cases h <;> rfl
  · intro p q s s' h h' hne x t
    cases p <;> cases h <;> cases q <;> cases h' <;>
      first | rfl | exact absurd rfl hne

theorem ImageLayer.storedApart : StoredApart ImageLayer.slot? := by
  constructor
  · intro p s h x i
    cases p <;> cases h <;> rfl
  · intro p q s s' h h' hne x i
    cases p <;> cases h <;> cases q <;> cases h' <;>
      first | rfl | exact absurd rfl hne

theorem Template.storedApart : StoredApart Template.slot? := by
  constructor
  · intro p s h x t
    cases p <;> cases h <;> rfl
  · intro p q s s' h h' hne x t
    cases p <;> cases h <;> cases q <;> cases h' <;>
      first | rfl | exact absurd rfl hne

/-- What a value reads as once it has been written to a property of this
kind. -/
def Kind.written? (k : Kind) (p : Property) (v : Value) : Option Value :=
  (k.store? p v).toOption.map k.read

theorem Slot.exists_write {α : Type} {s : Slot α} {p : Property}
    {v v' : Value} (h : s.kind.written? p v = some v') (a : α) :
    ∃ a', s.write p v a = .ok a' := by
  unfold Kind.written? at h
  unfold Slot.write
  cases hx : s.kind.store? p v with
  | error e =>
      rw [hx] at h
      cases h
  | ok x => exact ⟨_, rfl⟩

namespace StoredApart

variable {α : Type} {slot? : Property → Option (Slot α)} {p q : Property}
  {s : Slot α} {v : Value} {a a' : α}

/-- A property that has been written reads as the value does, and the others
read as before. -/
theorem of_write (hapart : StoredApart slot?) (hs : slot? p = some s)
    (h : s.write p v a = .ok a') :
    ((slot? p).map Slot.kind).bind (fun k => k.written? p v) =
        (slot? p).map (fun s => s.read a') ∧
      ((slot? p).map fun s => s.read a').isSome ∧
      ∀ q, q ≠ p → (slot? q).map (fun s => s.read a') = (slot? q).map fun s =>
        s.read a := by
  obtain ⟨x, hx, rfl⟩ := Slot.exists_put h
  refine ⟨?_, ?_, fun q hq => ?_⟩
  · simp only [hs, Option.map_some, Option.bind_some, Kind.written?, hx,
      Except.toOption, Slot.read, hapart.get_put hs]
  · rw [hs]
    rfl
  · cases hs' : slot? q with
    | none => rfl
    | some s' =>
        simp only [Option.map_some, Slot.read, hapart.get_put_of_ne hs hs' hq]

end StoredApart

/-! ## Parts by their kinds -/

namespace Template

/-- What has properties: the canvas, or a layer of either kind. -/
inductive PartKind where
  | canvas
  | text
  | image
deriving DecidableEq

/-- What a part is. -/
def Part.kind : Part → PartKind
  | .canvas _ _ => .canvas
  | .layer (.text _) => .text
  | .layer (.image _) => .image

/-- The kind of what a key addresses. -/
def kind? (t : Template) (key : String) : Option PartKind :=
  (t.part? key).map Part.kind

/-- How a part of this kind stores a property. -/
def PartKind.stores? : PartKind → Property → Option Kind
  | .canvas, p => (slot? p).map Slot.kind
  | .text, p => (TextLayer.slot? p).map Slot.kind
  | .image, p => (ImageLayer.slot? p).map Slot.kind

/-- What a value reads as once it has been written to a part of this kind. -/
def PartKind.written? (k : PartKind) (p : Property) (v : Value) :
    Option Value :=
  (k.stores? p).bind fun stored => stored.written? p v

variable {t t' : Template} {key : String} {p q : Property} {v v' : Value}
  {k : PartKind}

theorem kind?_congr (h : t'.part? key = t.part? key) :
    t'.kind? key = t.kind? key := by
  rw [kind?, kind?, h]

theorem isSome_kind? : (t.kind? key).isSome = (t.part? key).isSome := by
  rw [kind?, Option.isSome_map]

theorem kind?_canvas (t : Template) : t.kind? canvasKey = some .canvas := by
  rw [kind?, part?_canvas]
  rfl

theorem kind?_of_layer? {l : Layer} (hkey : key ≠ canvasKey)
    (h : t.layer? key = some l) :
    t.kind? key = some (Part.layer l.body).kind := by
  rw [kind?, part?_of_ne t hkey, h]
  rfl

end Template

namespace LayerBody

open Template

variable {b b' : LayerBody} {key : String} {p q : Property} {v v' : Value}

/-- A value is written to a slot of the text or of the image. -/
theorem set_cases (h : b.set key p v = .ok b') :
    (∃ t t' s, b = .text t ∧ b' = .text t' ∧ TextLayer.slot? p = some s ∧
      s.write p v t = .ok t') ∨
    ∃ i i' s, b = .image i ∧ b' = .image i' ∧ ImageLayer.slot? p = some s ∧
      s.write p v i = .ok i' := by
  unfold LayerBody.set at h
  split at h
  · next t =>
      split at h
      · next s hs =>
          cases hw : s.write p v t with
          | error e =>
              rw [hw] at h
              cases h
          | ok t' =>
              rw [hw] at h
              cases h
              exact Or.inl ⟨t, t', s, rfl, rfl, hs, hw⟩
      · cases h
  · next i =>
      split at h
      · next s hs =>
          cases hw : s.write p v i with
          | error e =>
              rw [hw] at h
              cases h
          | ok i' =>
              rw [hw] at h
              cases h
              exact Or.inr ⟨i, i', s, rfl, rfl, hs, hw⟩
      · cases h

theorem of_set (h : b.set key p v = .ok b') :
    (Part.layer b').kind = (Part.layer b).kind ∧
      (Part.layer b).kind.written? p v = b'.get? p ∧ (b'.get? p).isSome ∧
      ∀ q, q ≠ p → b'.get? q = b.get? q := by
  rcases set_cases h with ⟨t, t', s, rfl, rfl, hs, hw⟩
    | ⟨i, i', s, rfl, rfl, hs, hw⟩
  · exact ⟨rfl, TextLayer.storedApart.of_write hs hw⟩
  · exact ⟨rfl, ImageLayer.storedApart.of_write hs hw⟩

theorem exists_set (h : (Part.layer b).kind.written? p v = some v')
    (key : String) : ∃ b', b.set key p v = .ok b' := by
  obtain ⟨stored, hs, hw⟩ := Option.bind_eq_some_iff.mp h
  cases b with
  | text t =>
      obtain ⟨s, hslot, rfl⟩ := Option.map_eq_some_iff.mp hs
      obtain ⟨t', ht⟩ := s.exists_write hw t
      exact ⟨.text t', by simp only [LayerBody.set, hslot, ht]; rfl⟩
  | image i =>
      obtain ⟨s, hslot, rfl⟩ := Option.map_eq_some_iff.mp hs
      obtain ⟨i', hi⟩ := s.exists_write hw i
      exact ⟨.image i', by simp only [LayerBody.set, hslot, hi]; rfl⟩

end LayerBody

namespace Template

variable {t t' u : Template} {key : String} {p q : Property} {v v' : Value}
  {k : PartKind}

theorem layer?_replaceBody {l : Layer} (hl : t.layer? key = some l)
    (body : LayerBody) :
    ({ t with layers := replaceBody key body t.layers } : Template).layer? key =
      some { l with body := body } := by
  rw [layer?, findLayer?_replaceBody, ← layer?, hl, Option.map_some]

/-- What writing does to the part that it is addressed to: it keeps its kind,
the property reads as the value does, and all other properties as before. -/
theorem of_set (h : t.set key p v = .ok t') :
    (∃ k, t.kind? key = some k ∧ t'.kind? key = some k ∧
      k.written? p v = t'.get? key p) ∧
      (t'.get? key p).isSome ∧ ∀ q, q ≠ p → t'.get? key q = t.get? key q := by
  rcases set_cases h with ⟨rfl, s, hs, hwrite⟩ | ⟨hkey, l, body, hl, hbody, rfl⟩
  · have hread (t : Template) (q : Property) :
        t.get? canvasKey q = (slot? q).map fun s => s.read t := if_pos rfl
    obtain ⟨hwritten, hsome, hother⟩ := storedApart.of_write hs hwrite
    simp only [← hread] at hwritten hsome hother
    exact ⟨⟨.canvas, kind?_canvas t, kind?_canvas t', hwritten⟩, hsome, hother⟩
  · obtain ⟨hkind, hwritten, hsome, hother⟩ := LayerBody.of_set hbody
    have hl' := layer?_replaceBody hl body
    have hread (q : Property) :
        ({ t with layers := replaceBody key body t.layers } : Template).get? key
          q = body.get? q := by
      rw [get?, if_neg hkey, hl', Option.bind_some]
    have hold (q : Property) : t.get? key q = l.body.get? q := by
      rw [get?, if_neg hkey, hl, Option.bind_some]
    refine ⟨⟨_, kind?_of_layer? hkey hl, ?_, ?_⟩, ?_, fun q hq => ?_⟩
    · rw [kind?_of_layer? hkey hl', hkind]
    · rw [hread, hwritten]
    · rw [hread]
      exact hsome
    · rw [hread, hold, hother q hq]

theorem exists_set (hk : t.kind? key = some k) (hw : k.written? p v = some v') :
    ∃ t', t.set key p v = .ok t' := by
  by_cases hkey : key = canvasKey
  · subst hkey
    rw [kind?_canvas, Option.some.injEq] at hk
    subst hk
    obtain ⟨stored, hs, hw⟩ := Option.bind_eq_some_iff.mp hw
    obtain ⟨s, hslot, rfl⟩ := Option.map_eq_some_iff.mp hs
    obtain ⟨t', ht⟩ := s.exists_write hw t
    exact ⟨t', by rw [set, if_pos rfl, hslot]; exact ht⟩
  · rw [kind?, part?_of_ne t hkey, Option.map_map, Option.map_eq_some_iff] at hk
    obtain ⟨l, hl, rfl⟩ := hk
    obtain ⟨body, hbody⟩ := LayerBody.exists_set hw key
    exact ⟨{ t with layers := replaceBody key body t.layers }, by
      simp only [set, if_neg hkey, hl, hbody]
      rfl⟩

theorem kind?_of_set (h : t.set key p v = .ok t') (key' : String) :
    t'.kind? key' = t.kind? key' := by
  by_cases hkey : key' = key
  · subst hkey
    obtain ⟨⟨k, hk, hk', -⟩, -⟩ := of_set h
    rw [hk, hk']
  · exact kind?_congr (part?_of_set h hkey)

theorem isSome_part?_self_of_set (h : t.set key p v = .ok t') :
    (t'.part? key).isSome := by
  obtain ⟨⟨k, -, hk, -⟩, -⟩ := of_set h
  rw [← isSome_kind?, hk]
  rfl

/-- A value that has been written to a part can be written to another of the
same kind, and reads the same there. -/
theorem exists_set_same (h : t.set key p v = .ok t')
    (hkind : u.kind? key = t.kind? key) :
    ∃ u', u.set key p v = .ok u' ∧ u'.get? key p = t'.get? key p := by
  obtain ⟨⟨k, hk, -, hw⟩, hsome, -⟩ := of_set h
  obtain ⟨v', hv'⟩ := Option.isSome_iff_exists.mp hsome
  rw [hv'] at hw
  obtain ⟨u', hu⟩ := exists_set (hkind.trans hk) hw
  obtain ⟨⟨k', hk', -, hw'⟩, -⟩ := of_set hu
  rw [hkind, hk, Option.some.injEq] at hk'
  subst hk'
  exact ⟨u', hu, by rw [hv', ← hw', hw]⟩

end Template

/-! ## Writing back what has been read -/

/-- A value up to whether the key of the metadata, or the asset of a picture, is
an empty text or none. -/
def Value.normal (p : Property) (v : Value) : Value :=
  if (p = .metadataKey ∨ p = .assetId) ∧ v = .text "" then .unset else v

theorem Kind.finite?_ok {p : Property} {v : Value} {x : Float}
    (h : Kind.finite? p v = .ok x) : v = .number x := by
  unfold Kind.finite? at h
  split at h
  · split at h
    · cases h
      rfl
    · cases h
  · cases h

namespace Kind

/-- A place in the drawing order is read as a double, which loses nothing. -/
theorem written?_rank {p : Property} {v : Value} (n? : Option Int32)
    (h : written? rank p (read rank n?) = some v) : v = read rank n? := by
  cases n? with
  | none => exact (Option.some.inj h).symm
  | some n =>
      replace h : (((finite? p (.number (Float.ofInt n.toInt))).map some).map
        fun x? =>
          x?.map fun x => Int32.ofInt (Decimal.toInt32 x)).toOption.map
            (read rank) = some v := h
      cases hx : finite? p (.number (Float.ofInt n.toInt)) with
      | error e =>
          rw [hx] at h
          cases h
      | ok x =>
          obtain rfl : Float.ofInt n.toInt = x :=
            Value.number.inj (finite?_ok hx)
          rw [hx] at h
          rw [← Option.some.inj h]
          exact congrArg (fun n => read rank (some n)) (Decimal.toInt32_ofInt n)

theorem written?_side {p : Property} {v : Value} (n : UInt32)
    (h : written? side p (read side n) = some v) : v = read side n := by
  have hlt := n.toNat_lt
  have hnearest : Decimal.nearestInt (Float.ofNat n.toNat) = n.toNat :=
    Decimal.nearestInt_ofInt (z := n.toNat) (by omega)
  replace h : ((finite? p (.number (Float.ofNat n.toNat))).bind
    (side? p)).toOption.map (read side) = some v := h
  cases hx : finite? p (.number (Float.ofNat n.toNat)) with
  | error e =>
      rw [hx] at h
      cases h
  | ok x =>
      obtain rfl : Float.ofNat n.toNat = x := Value.number.inj (finite?_ok hx)
      rw [hx, Except.bind, side?, hnearest] at h
      split at h
      · simpa [Except.toOption] using h.symm
      · cases h

/-- A value that has been read and is written back reads the same, but for an
empty text where there need be none. -/
theorem written?_read {p : Property} {v : Value} (k : Kind) (x : k.Stored)
    (h : k.written? p (k.read x) = some v) :
    v = k.read x ∨ (k = .optionalText ∧ k.read x = .text "" ∧ v = .unset) := by
  cases k with
  | number =>
      replace h : (finite? p (.number x)).toOption.map (read number) = some v :=
        h
      cases hx : finite? p (.number x) with
      | error e =>
          rw [hx] at h
          cases h
      | ok y =>
          rw [hx] at h
          exact Or.inl ((Option.some.inj h).symm.trans (finite?_ok hx).symm)
  | optionalNumber =>
      cases x with
      | none => exact Or.inl (Option.some.inj h).symm
      | some x =>
          replace h : ((finite? p (.number x)).map some).toOption.map
            (read optionalNumber) = some v := h
          cases hx : finite? p (.number x) with
          | error e =>
              rw [hx] at h
              cases h
          | ok y =>
              rw [hx] at h
              exact Or.inl ((Option.some.inj h).symm.trans (finite?_ok hx).symm)
  | rank => exact Or.inl (written?_rank x h)
  | optionalText =>
      cases x with
      | none => exact Or.inl (Option.some.inj h).symm
      | some s =>
          replace h : some (read optionalText
            (if s.isEmpty then none else some s)) = some v := h
          by_cases hempty : s.isEmpty
          · rw [if_pos hempty] at h
            obtain rfl : s = "" := String.isEmpty_iff.mp hempty
            exact Or.inr ⟨rfl, rfl, (Option.some.inj h).symm⟩
          · rw [if_neg hempty] at h
            exact Or.inl (Option.some.inj h).symm
  | side => exact Or.inl (written?_side x h)
  | text | flag | fontSize | gravity | color =>
      exact Or.inl (Option.some.inj h).symm

end Kind

namespace Template

variable {t : Template} {key : String} {p : Property} {v v' : Value}
  {k : PartKind}

/-- Only the key of the metadata and the asset of a picture need not be there
and are texts. -/
theorem PartKind.of_stores_optionalText (h : k.stores? p = some .optionalText) :
    p = .metadataKey ∨ p = .assetId := by
  cases k <;> cases p <;> first | exact Or.inl rfl | exact Or.inr rfl | cases h

theorem exists_stored_of_get? (h : t.get? key p = some v) :
    ∃ k stored x, t.kind? key = some k ∧ k.stores? p = some stored ∧
      v = stored.read x := by
  unfold get? at h
  split at h
  · next hkey =>
      obtain ⟨s, hs, rfl⟩ := Option.map_eq_some_iff.mp h
      refine ⟨.canvas, s.kind, s.get t, hkey ▸ kind?_canvas t, ?_, rfl⟩
      rw [PartKind.stores?, hs, Option.map_some]
  · next hkey =>
      obtain ⟨l, hl, hread⟩ := Option.bind_eq_some_iff.mp h
      have hkind := kind?_of_layer? hkey hl
      cases hbody : l.body with
      | text text =>
          rw [hbody] at hread hkind
          obtain ⟨s, hs, rfl⟩ := Option.map_eq_some_iff.mp hread
          refine ⟨.text, s.kind, s.get text, hkind, ?_, rfl⟩
          rw [PartKind.stores?, hs, Option.map_some]
      | image image =>
          rw [hbody] at hread hkind
          obtain ⟨s, hs, rfl⟩ := Option.map_eq_some_iff.mp hread
          refine ⟨.image, s.kind, s.get image, hkind, ?_, rfl⟩
          rw [PartKind.stores?, hs, Option.map_some]

theorem isSome_part?_of_get? (h : t.get? key p = some v) :
    (t.part? key).isSome := by
  obtain ⟨k, -, -, hk, -⟩ := exists_stored_of_get? h
  rw [← isSome_kind?, hk]
  rfl

/-- What has been read of a part and is written to one of the same kind reads
the same there. -/
theorem normal_written? (hk : t.kind? key = some k) (hv : t.get? key p = some v)
    (hw : k.written? p v = some v') : v'.normal p = v.normal p := by
  obtain ⟨k', stored, x, hk', hstored, rfl⟩ := exists_stored_of_get? hv
  rw [hk, Option.some.injEq] at hk'
  subst hk'
  rw [PartKind.written?, hstored, Option.bind_some] at hw
  rcases stored.written?_read x hw with rfl | ⟨rfl, htext, rfl⟩
  · rfl
  · have hp := PartKind.of_stores_optionalText hstored
    rw [htext]
    exact (if_neg fun h => by cases h.2).trans (if_pos ⟨hp, rfl⟩).symm

end Template

end Placard
