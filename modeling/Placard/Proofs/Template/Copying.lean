import Placard.Proofs.Decimal.Magnitude
import Placard.Proofs.Template.Changes
import Placard.Proofs.Template.Measures
import Placard.Proofs.Template.Overwriting

/-!
# Copying what is read

What is read from a part can be written to every part that has the property, and
reads the same there: the parts that one key can address in two templates store
a property in the same way, if both have it, even where one is a text and the
other a picture. Written back to the part that it comes from it changes nothing.

Two things stand in the way. A number that is not finite is stored wherever it
comes from, and is refused when it is written. And an empty text may be stored
where there need be none, and is none once it has been written.
-/

namespace Placard

open Decimal

/-! ## Values -/

theorem Decimal.beq_self_of_isFinite {x : Float} (h : x.isFinite = true) :
    (x == x) = true := by
  show (x.toModel.unpack.compare x.toModel.unpack == some Ordering.eq) = true
  replace h : x.toModel.unpack.isFinite = true := h
  generalize x.toModel.unpack = u at h ⊢
  cases u with
  | finite s m e hm => cases s <;> simp [Float.Model.UnpackedFloat.compare]
  | zero => rfl
  | infinity | notANumber => cases h

namespace Value

/-- A value that is stored as it is when it is written to the property. -/
structure Copyable (p : Property) (v : Value) : Prop where
  finite : ∀ x, v = .number x → x.isFinite = true
  nonempty : p = .metadataKey ∨ p = .assetId → v ≠ .text ""

/-- Every number in the value is finite. -/
def Finite : Value → Prop
  | number x => x.isFinite = true
  | fontSize size => size.value.isFinite = true
  | text _ | flag _ | gravity _ | color _ | unset => True

theorem Finite.same_self {v : Value} (h : v.Finite) : v.same v = true := by
  cases v with
  | number x => exact beq_self_of_isFinite h
  | fontSize size => cases size <;> exact beq_self_of_isFinite h
  | text | flag | gravity | color => exact beq_self_eq_true _
  | unset => rfl

theorem Finite.copyable {p : Property} {v : Value} (h : v.Finite)
    (hnonempty : p = .metadataKey ∨ p = .assetId → v ≠ .text "") :
    v.Copyable p where
  finite := by
    rintro x rfl
    exact h
  nonempty := hnonempty

end Value

/-! ## Kinds of properties -/

namespace Kind

variable {p : Property}

theorem finite?_of_isFinite {x : Float} (h : x.isFinite = true) (p : Property) :
    finite? p (.number x) = .ok x :=
  if_pos h

theorem finiteOrUnset?_read {x? : Option Float}
    (h : ∀ x, Value.ofNumber? x? = .number x → x.isFinite = true) :
    finiteOrUnset? p (.ofNumber? x?) = .ok x? := by
  cases x? with
  | none => rfl
  | some x => exact congrArg (Except.map some) (finite?_of_isFinite (h x rfl) p)

theorem store?_rank (n? : Option Int32) :
    store? rank p (read rank n?) = .ok n? := by
  cases n? with
  | none => rfl
  | some n =>
      have hfinite := finite?_of_isFinite (isFinite_ofInt32 n) p
      show Except.map _ (Except.map some
        (finite? p (.number (Float.ofInt n.toInt)))) = _
      rw [hfinite]
      exact congrArg (fun n => Except.ok (some n)) (toInt32_ofInt n)

theorem store?_side {n : UInt32} (h : 1 ≤ n) :
    store? side p (read side n) = .ok n := by
  have hlt := n.toNat_lt
  have hpos : 1 ≤ n.toNat := UInt32.le_iff_toNat_le.mp h
  have hfinite :=
    finite?_of_isFinite
      (isFinite_of_under (under_ofNat (n := n.toNat) (by omega))) p
  have hnearest : nearestInt (Float.ofNat n.toNat) = n.toNat :=
    nearestInt_ofInt (z := n.toNat) (by omega)
  have hrange : (1 : Int) ≤ n.toNat ∧ (n.toNat : Int) < UInt32.size :=
    ⟨by omega, by rw [UInt32.size]; omega⟩
  show Except.bind (finite? p (.number (Float.ofNat n.toNat))) (side? p) = _
  rw [hfinite, Except.bind, side?, hnearest, if_pos hrange, Int.toNat_natCast,
    UInt32.ofNat_toNat]

/-- What is stored is stored again when what it reads as is written. The sides
of the canvas are left out, as they have a condition of their own. -/
theorem store?_read {k : Kind} (hk : k ≠ side) {x : k.Stored}
    (h : (k.read x).Copyable p)
    (hp : k = optionalText → p = .metadataKey ∨ p = .assetId) :
    k.store? p (k.read x) = .ok x := by
  cases k with
  | side => exact absurd rfl hk
  | number => exact finite?_of_isFinite (h.finite x rfl) p
  | optionalNumber => exact finiteOrUnset?_read h.finite
  | rank => exact store?_rank x
  | optionalText =>
      cases x with
      | none => rfl
      | some s =>
          have hs : s.isEmpty = false := by
            rw [Bool.eq_false_iff, ne_eq, String.isEmpty_iff]
            rintro rfl
            exact h.nonempty (hp rfl) rfl
          show Except.ok (if s.isEmpty then none else some s) = _
          rw [hs, if_neg Bool.false_ne_true]
  | text | flag | fontSize | gravity | color => rfl

theorem written?_of_store? {k : Kind} {x : k.Stored}
    (h : k.store? p (k.read x) = .ok x) :
    k.written? p (k.read x) = some (k.read x) := by
  rw [written?, h]
  rfl

end Kind

/-! ## Parts -/

namespace Template

variable {t t' u : Template} {key : String} {p : Property} {v v' : Value}
  {k k' : PartKind}

theorem kind?_eq_canvas_iff : t.kind? key = some .canvas ↔ key = canvasKey := by
  constructor
  · intro h
    by_contra hkey
    rw [kind?, part?_of_ne t hkey, Option.map_map, Option.map_eq_some_iff] at h
    obtain ⟨l, -, hl⟩ := h
    change (Part.layer l.body).kind = .canvas at hl
    cases hbody : l.body with
    | text | image =>
        rw [hbody] at hl
        cases hl
  · rintro rfl
    exact kind?_canvas t

/-- Only the sides of the canvas are stored as sides. -/
theorem PartKind.of_stores_side (h : k.stores? p = some .side) :
    k = .canvas ∧ (p = .width ∨ p = .height) := by
  cases k <;> cases p <;>
    first | exact ⟨rfl, Or.inl rfl⟩ | exact ⟨rfl, Or.inr rfl⟩ | cases h

/-- A property that texts and pictures have is stored by both in the same
way. -/
theorem PartKind.stores?_eq {stored stored' : Kind}
    (h : k.stores? p = some stored) (h' : k'.stores? p = some stored')
    (hcanvas : k = .canvas ↔ k' = .canvas) : stored = stored' := by
  -- the sides of the canvas and those of a picture are stored in two ways, and
  -- only there do two kinds of parts disagree
  cases k <;> cases k' <;>
    simp only [reduceCtorEq, true_iff, iff_true, iff_self] at hcanvas <;>
    cases p <;> cases h <;> cases h' <;> rfl

theorem isSome_get?_iff : (t.get? key p).isSome ↔
    ∃ k stored, t.kind? key = some k ∧ k.stores? p = some stored := by
  constructor
  · intro h
    obtain ⟨v, hv⟩ := Option.isSome_iff_exists.mp h
    obtain ⟨k, stored, -, hk, hstored, -⟩ := exists_stored_of_get? hv
    exact ⟨k, stored, hk, hstored⟩
  · rintro ⟨k, stored, hk, hstored⟩
    unfold get?
    split
    · next hkey =>
        obtain rfl : k = .canvas := by
          rw [kind?_eq_canvas_iff.mpr hkey] at hk
          exact (Option.some.inj hk).symm
        rw [Option.isSome_map]
        exact (Option.isSome_map ..).symm.trans
          (Option.isSome_of_eq_some hstored)
    · next hkey =>
        rw [kind?, part?_of_ne t hkey, Option.map_map, Option.map_eq_some_iff]
          at hk
        obtain ⟨l, hl, rfl⟩ := hk
        rw [hl, Option.bind_some]
        cases hbody : l.body with
        | text | image =>
            rw [Function.comp_apply, hbody] at hstored
            exact (Option.isSome_map ..).trans
              ((Option.isSome_map ..).symm.trans
                (Option.isSome_of_eq_some hstored))

theorem isSome_get?_congr (h : t'.kind? key = t.kind? key) (p : Property) :
    (t'.get? key p).isSome = (t.get? key p).isSome := by
  rw [Bool.eq_iff_iff, isSome_get?_iff, isSome_get?_iff, h]

/-- A value is written only where there is one already. -/
theorem isSome_get?_of_set (h : t.set key p v = .ok t') :
    (t.get? key p).isSome := by
  rw [← isSome_get?_congr (kind?_of_set h key)]
  exact (of_set h).2.1

/-- What one key addresses in two templates stores a property in the same
way. -/
theorem stored_eq {stored stored' : Kind} (hk : t.kind? key = some k)
    (hk' : u.kind? key = some k') (h : k.stores? p = some stored)
    (h' : k'.stores? p = some stored') : stored = stored' := by
  have hiff : t.kind? key = some .canvas ↔ u.kind? key = some .canvas :=
    kind?_eq_canvas_iff.trans kind?_eq_canvas_iff.symm
  rw [hk, hk', Option.some.injEq, Option.some.injEq] at hiff
  exact PartKind.stores?_eq h h' hiff

/-- What has been written to one template can be written to another that has the
property, and reads the same there. -/
theorem exists_set_of_set (h : t.set key p v = .ok t')
    (hu : (u.get? key p).isSome) :
    ∃ u', u.set key p v = .ok u' ∧ u'.get? key p = t'.get? key p := by
  obtain ⟨⟨k, hk, -, hread⟩, hsome, -⟩ := of_set h
  obtain ⟨k', stored', hk', hstored'⟩ := isSome_get?_iff.mp hu
  obtain ⟨v', hv'⟩ := Option.isSome_iff_exists.mp hsome
  have hwritten : k'.written? p v = some v' := by
    rw [hv'] at hread
    obtain ⟨stored, hstored, hwritten⟩ := Option.bind_eq_some_iff.mp hread
    obtain rfl := stored_eq hk hk' hstored hstored'
    rw [PartKind.written?, hstored', Option.bind_some, hwritten]
  obtain ⟨u', hset⟩ := exists_set hk' hwritten
  obtain ⟨⟨k'', hk'', -, hread'⟩, -⟩ := of_set hset
  obtain rfl : k' = k'' := Option.some.inj (hk'.symm.trans hk'')
  exact ⟨u', hset, by rw [← hread', hwritten, hv']⟩

/-- What is read from a part is stored by another that has the property, if it
is not a side of the canvas. -/
theorem written?_of_get? (hv : t.get? key p = some v) (hcopy : v.Copyable p)
    (hside : ¬ (key = canvasKey ∧ (p = .width ∨ p = .height)))
    (hk : u.kind? key = some k) (hu : (u.get? key p).isSome) :
    k.written? p v = some v := by
  obtain ⟨k₀, stored, x, hk₀, hstored, rfl⟩ := exists_stored_of_get? hv
  obtain ⟨k₁, stored', hk₁, hstored'⟩ := isSome_get?_iff.mp hu
  obtain rfl : k₁ = k := Option.some.inj (hk₁.symm.trans hk)
  obtain rfl := stored_eq hk₀ hk₁ hstored hstored'
  have hnot : stored ≠ .side := by
    rintro rfl
    obtain ⟨rfl, hp⟩ := PartKind.of_stores_side hstored
    exact hside ⟨kind?_eq_canvas_iff.mp hk₀, hp⟩
  rw [PartKind.written?, hstored', Option.bind_some]
  refine Kind.written?_of_store? (Kind.store?_read hnot hcopy ?_)
  rintro rfl
  exact PartKind.of_stores_optionalText hstored

/-- What is read from one template can be written to another that has the
property, and reads the same there. -/
theorem exists_set_of_get? (hv : t.get? key p = some v) (hcopy : v.Copyable p)
    (hside : ¬ (key = canvasKey ∧ (p = .width ∨ p = .height)))
    (hu : (u.get? key p).isSome) :
    ∃ u', u.set key p v = .ok u' ∧ u'.get? key p = some v := by
  obtain ⟨k, stored, hk, -⟩ := isSome_get?_iff.mp hu
  have hwritten := written?_of_get? hv hcopy hside hk hu
  obtain ⟨u', hset⟩ := exists_set hk hwritten
  obtain ⟨⟨k', hk', -, hread⟩, -⟩ := of_set hset
  obtain rfl : k = k' := Option.some.inj (hk.symm.trans hk')
  exact ⟨u', hset, hread.symm.trans hwritten⟩

theorem set_width (h : 1 ≤ t.width) (hv : t.get? canvasKey .width = some v) :
    t.set canvasKey .width v = .ok t := by
  obtain rfl := Option.some.inj hv
  exact congrArg (Except.map fun n => { t with width := n })
    (Kind.store?_side h)

theorem set_height (h : 1 ≤ t.height) (hv : t.get? canvasKey .height = some v) :
    t.set canvasKey .height v = .ok t := by
  obtain rfl := Option.some.inj hv
  exact congrArg (Except.map fun n => { t with height := n })
    (Kind.store?_side h)

/-- What is read and written back changes nothing. -/
theorem set_get? (ht : t.Sound) (hv : t.get? key p = some v)
    (hcopy : v.Copyable p) : t.set key p v = .ok t := by
  by_cases hside : key = canvasKey ∧ (p = .width ∨ p = .height)
  · obtain ⟨rfl, rfl | rfl⟩ := hside
    · exact set_width ht.width hv
    · exact set_height ht.height hv
  · obtain ⟨t', hset, hread⟩ :=
      exists_set_of_get? hv hcopy hside (Option.isSome_of_eq_some hv)
    rw [hset, (differAt_of_set hset).eq (hread.trans hv.symm)]

end Template

/-! ## Templates whose numbers are finite -/

theorem Value.Measured.finite {v : Value} (h : v.Measured) : v.Finite := by
  cases v with
  | number => exact h
  | fontSize => exact FontSize.Measured.finite h
  | text | flag | gravity | color | unset => trivial

theorem Layer.finite_of_get? {l : Layer} {p : Property} {v : Value}
    (h : ∀ x ∈ l.floats, x.isFinite = true) (hv : l.body.get? p = some v) :
    v.Finite := by
  obtain ⟨key, t | i⟩ := l
  · simp only [floats, TextLayer.floats, List.forall_mem_cons,
      List.forall_mem_append, Option.mem_toList] at h
    obtain ⟨hx, hy, hsize, hwrap, hmultiplier⟩ := h
    cases p <;> cases hv <;> first
      | exact hx
      | exact hy
      | exact hsize
      | exact (Value.measured_ofNumber?.mpr hwrap).finite
      | exact (Value.measured_ofNumber?.mpr hmultiplier).finite
      | exact (Value.measured_rank t.order).finite
      | exact (Value.measured_ofText? t.metadataKey).finite
      | trivial
  · simp only [floats, ImageLayer.floats, List.forall_mem_cons] at h
    obtain ⟨hx, hy, hwidth, hheight, -⟩ := h
    cases p <;> cases hv <;> first
      | exact hx
      | exact hy
      | exact hwidth
      | exact hheight
      | exact (Value.measured_rank i.order).finite
      | exact (Value.measured_ofText? i.assetId).finite
      | trivial

theorem Template.finite_of_get? {t : Template} {key : String} {p : Property}
    {v : Value} (h : ∀ x ∈ t.floats, x.isFinite = true)
    (hv : t.get? key p = some v) : v.Finite := by
  unfold get? at hv
  split at hv
  · cases p <;> cases hv <;> first
      | trivial
      | exact isFinite_of_under (under_ofNat (UInt32.toNat_lt _
        |>.trans (by decide)))
  · obtain ⟨l, hl, hread⟩ := Option.bind_eq_some_iff.mp hv
    refine Layer.finite_of_get? (fun x hx => h x ?_) hread
    exact List.mem_flatMap.mpr ⟨l, (mem_of_findLayer? hl).1, hx⟩

end Placard
