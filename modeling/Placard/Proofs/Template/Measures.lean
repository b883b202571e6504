import Placard.Proofs.Decimal.Magnitude
import Placard.Proofs.Template.Layerwise
import Placard.Proofs.Template.RoundTrip
import Placard.Proofs.Template.Writing

/-!
# Measures that can be written down

A template can be written and read again if its numbers are finite and the sizes
of its fonts positive. A number that is written to a property is looked at, and
so is a size that comes as a number or as a text. A size that comes as a size is
not: it is stored as it is, and what is then read from the layer is no size that
could be read from a text.
-/

namespace Placard

open Decimal

/-- A size that a font can be given by a text. -/
structure FontSize.Measured (size : FontSize) : Prop where
  finite : size.value.isFinite = true
  positive : 0 < size.value

theorem FontSize.measured_iff {size : FontSize} :
    size.Measured ↔
      (size.value.isFinite && decide (0 < size.value)) = true := by
  rw [Bool.and_eq_true, decide_eq_true_eq]
  exact ⟨fun ⟨h, h'⟩ => ⟨h, h'⟩, fun ⟨h, h'⟩ => ⟨h, h'⟩⟩

instance (size : FontSize) : Decidable size.Measured :=
  decidable_of_iff _ FontSize.measured_iff.symm

namespace Value

/-- A number is finite, and the size of a font also positive. -/
def Measured : Value → Prop
  | number x => x.isFinite = true
  | fontSize size => size.Measured
  | text _ | flag _ | gravity _ | color _ | unset => True

/-- If it is the size of a font, it is one that a font can be given. -/
def Sized : Value → Prop
  | fontSize size => size.Measured
  | number _ | text _ | flag _ | gravity _ | color _ | unset => True

instance : (v : Value) → Decidable v.Sized
  | fontSize size => inferInstanceAs (Decidable size.Measured)
  | number _ | text _ | flag _ | gravity _ | color _ | unset => .isTrue trivial

theorem Measured.sized {v : Value} (h : v.Measured) : v.Sized := by
  cases v with
  | fontSize => exact h
  | _ => trivial

end Value

/-- The numbers of the layer are finite, and the size of its font is
positive. -/
structure Layer.Measured (l : Layer) : Prop where
  finite : ∀ x ∈ l.floats, x.isFinite = true
  positive : ∀ size ∈ l.fontSize?, 0 < size.value

instance (l : Layer) : Decidable l.Measured :=
  decidable_of_iff ((∀ x ∈ l.floats, x.isFinite = true) ∧
    ∀ size ∈ l.fontSize?, 0 < size.value)
    ⟨fun ⟨h, h'⟩ => ⟨h, h'⟩, fun ⟨h, h'⟩ => ⟨h, h'⟩⟩

namespace Template.All

variable {t : Template}

theorem finite (h : t.All Layer.Measured) :
    ∀ x ∈ t.floats, x.isFinite = true := by
  intro x hx
  obtain ⟨l, hl, hx⟩ := List.mem_flatMap.mp hx
  exact (h l hl).finite x hx

theorem positive (h : t.All Layer.Measured) :
    ∀ size ∈ t.fontSizes, 0 < size.value := by
  intro size hsize
  obtain ⟨l, hl, hsize⟩ := List.mem_filterMap.mp hsize
  exact (h l hl).positive size hsize

end Template.All

/-! ## What is written is measured -/

theorem isFinite_ofInt32 (n : Int32) :
    (Float.ofInt n.toInt).isFinite = true := by
  have hlow := n.le_toInt
  have hhigh := n.toInt_lt
  exact isFinite_of_under (under_ofInt (by omega))

namespace Value

theorem measured_ofNumber? {x? : Option Float} :
    (ofNumber? x?).Measured ↔ ∀ x ∈ x?, x.isFinite = true := by
  cases x? with
  | none => exact iff_of_true trivial nofun
  | some x => exact ⟨fun h y hy => Option.some.inj hy ▸ h, fun h => h x rfl⟩

theorem measured_ofText? (t? : Option String) : (ofText? t?).Measured := by
  cases t? <;> trivial

theorem measured_rank (n? : Option Int32) :
    (ofNumber? (n?.map fun n => Float.ofInt n.toInt)).Measured := by
  refine measured_ofNumber?.mpr fun x hx => ?_
  obtain ⟨n, -, rfl⟩ := Option.map_eq_some_iff.mp hx
  exact isFinite_ofInt32 n

end Value

theorem FontSize.measured_of_positive? {s : List Char} {size : FontSize}
    (h : FontSize.positive? s = some size.value) : size.Measured :=
  measured_iff.mpr (Option.filter_eq_some_iff.mp h).2

theorem FontSize.measured_of_ofText? {s : String} {size : FontSize}
    (h : FontSize.ofText? s = .ok size) : size.Measured := by
  unfold FontSize.ofText? at h
  dsimp only at h
  split at h
  · next hsize =>
      cases h
      split at hsize
      · obtain ⟨x, hx, rfl⟩ := Option.map_eq_some_iff.mp hsize
        exact measured_of_positive? hx
      · obtain ⟨x, hx, rfl⟩ := Option.map_eq_some_iff.mp hsize
        exact measured_of_positive? hx
  · cases h

namespace Kind

variable {p : Property} {v : Value}

theorem isFinite_of_finite? {x : Float} (h : finite? p v = .ok x) :
    x.isFinite = true := by
  unfold finite? at h
  split at h
  · split at h
    · next hx =>
        cases h
        exact hx
    · cases h
  · cases h

theorem isFinite_of_finiteOrUnset? {x? : Option Float}
    (h : finiteOrUnset? p v = .ok x?) : ∀ x ∈ x?, x.isFinite = true := by
  unfold finiteOrUnset? at h
  split at h
  · cases h
    nofun
  · obtain ⟨x, hx, rfl⟩ := map_eq_ok.mp h
    intro y hy
    obtain rfl := Option.some.inj hy
    exact isFinite_of_finite? hx

theorem measured_of_fontSize {size : FontSize} (hv : v.Sized)
    (h : store? fontSize p v = .ok size) : size.Measured := by
  cases v with
  | fontSize => cases h; exact hv
  | number x =>
      simp only [store?] at h
      split at h
      · next hx =>
          cases h
          exact FontSize.measured_iff.mpr hx
      · cases h
  | text s => exact FontSize.measured_of_ofText? (mapError_eq_ok.mp h)
  | flag | gravity | color | unset => cases h

/-- What is stored reads as something that is measured. -/
theorem measured_read {k : Kind} {stored : k.Stored} (hv : v.Sized)
    (h : k.store? p v = .ok stored) : (k.read stored).Measured := by
  cases k with
  | number => exact isFinite_of_finite? h
  | optionalNumber =>
      exact Value.measured_ofNumber?.mpr (isFinite_of_finiteOrUnset? h)
  | rank => exact Value.measured_rank stored
  | text | flag | gravity | color => trivial
  | optionalText => exact Value.measured_ofText? stored
  | fontSize => exact measured_of_fontSize hv h
  | side =>
      have hlt := stored.toNat_lt
      exact isFinite_of_under (under_ofNat (by omega))

theorem measured_of_written? {k : Kind} {v' : Value} (hv : v.Sized)
    (h : k.written? p v = some v') : v'.Measured := by
  unfold written? at h
  cases hx : k.store? p v with
  | error e =>
      rw [hx] at h
      cases h
  | ok stored =>
      rw [hx] at h
      cases h
      exact measured_read hv hx

end Kind

/-! ## Layers by what is read from them -/

theorem TextLayer.measured_iff {key : String} {t : TextLayer} :
    Layer.Measured ⟨key, .text t⟩ ↔ t.x.isFinite = true ∧ t.y.isFinite = true ∧
      t.fontSize.Measured ∧ (∀ x ∈ t.wrapWidth, x.isFinite = true) ∧
      ∀ x ∈ t.widthMultiplier, x.isFinite = true := by
  constructor
  · rintro ⟨hfinite, hpositive⟩
    simp only [Layer.floats, TextLayer.floats, List.forall_mem_cons,
      List.forall_mem_append, Option.mem_toList] at hfinite
    obtain ⟨hx, hy, hsize, hwrap, hmultiplier⟩ := hfinite
    exact ⟨hx, hy, ⟨hsize, hpositive _ rfl⟩, hwrap, hmultiplier⟩
  · rintro ⟨hx, hy, hsize, hwrap, hmultiplier⟩
    refine ⟨?_, fun size h => Option.some.inj h ▸ hsize.positive⟩
    simp only [Layer.floats, TextLayer.floats, List.forall_mem_cons,
      List.forall_mem_append, Option.mem_toList]
    exact ⟨hx, hy, hsize.finite, hwrap, hmultiplier⟩

theorem ImageLayer.measured_iff {key : String} {i : ImageLayer} :
    Layer.Measured ⟨key, .image i⟩ ↔ i.x.isFinite = true ∧ i.y.isFinite = true ∧
      i.width.isFinite = true ∧ i.height.isFinite = true := by
  constructor
  · rintro ⟨hfinite, -⟩
    simp only [Layer.floats, ImageLayer.floats, List.forall_mem_cons] at hfinite
    obtain ⟨hx, hy, hwidth, hheight, -⟩ := hfinite
    exact ⟨hx, hy, hwidth, hheight⟩
  · rintro ⟨hx, hy, hwidth, hheight⟩
    refine ⟨?_, fun size h => by cases h⟩
    simp only [Layer.floats, ImageLayer.floats, List.forall_mem_cons]
    exact ⟨hx, hy, hwidth, hheight, List.forall_mem_nil _⟩

/-- A layer is measured if all that is read from it is. -/
theorem Layer.measured_iff {l : Layer} :
    l.Measured ↔ ∀ p v, l.body.get? p = some v → v.Measured := by
  obtain ⟨key, t | i⟩ := l
  · rw [TextLayer.measured_iff]
    constructor
    · rintro ⟨hx, hy, hsize, hwrap, hmultiplier⟩ p v hv
      cases p <;> cases hv <;> first
        | exact hx
        | exact hy
        | exact hsize
        | exact Value.measured_ofNumber?.mpr hwrap
        | exact Value.measured_ofNumber?.mpr hmultiplier
        | exact Value.measured_rank t.order
        | exact Value.measured_ofText? t.metadataKey
        | trivial
    · intro h
      exact ⟨h .x _ rfl, h .y _ rfl, h .fontSize _ rfl,
        Value.measured_ofNumber?.mp (h .wrapWidth _ rfl),
        Value.measured_ofNumber?.mp (h .widthMultiplier _ rfl)⟩
  · rw [ImageLayer.measured_iff]
    constructor
    · rintro ⟨hx, hy, hwidth, hheight⟩ p v hv
      cases p <;> cases hv <;> first
        | exact hx
        | exact hy
        | exact hwidth
        | exact hheight
        | exact Value.measured_rank i.order
        | exact Value.measured_ofText? i.assetId
        | trivial
    · intro h
      exact ⟨h .x _ rfl, h .y _ rfl, h .width _ rfl, h .height _ rfl⟩

/-- A layer stays measured as values are written to it, unless one of them is a
size that no font can be given. -/
theorem Layer.layerwise_measured :
    Layerwise Layer.Measured fun _ v => v.Sized where
  get hl hv := (measured_iff.mp hl _ _ hv).sized
  set {l key p v body} hl hv h := by
    obtain ⟨-, hwritten, -, hother⟩ := LayerBody.of_set h
    refine measured_iff.mpr fun q w hw => ?_
    by_cases hq : q = p
    · subst hq
      obtain ⟨k, -, hk⟩ := Option.bind_eq_some_iff.mp (hwritten.trans hw)
      exact Kind.measured_of_written? hv hk
    · exact measured_iff.mp hl q w ((hother q hq).symm.trans hw)

end Placard
