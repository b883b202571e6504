import Placard.Proofs.Decimal.Rounded
import Placard.Proofs.Template.Copying

/-!
# What a property makes of a value

A property of a layer, or of the canvas, is written if it is there to be read.
Whether it takes a value, and what the value reads as then, is a matter of the
property and of the value alone. That is said here without the way in which it
is stored: which values a property is given, which of them it refuses and why,
and what becomes of the others. What has been read is such as it would be read
again, so to write it back changes nothing, and nothing else is changed by
writing it.
-/

namespace Placard

open Decimal

/-! ## What there is to say of a value -/

/-- What a property of a layer is. -/
def Property.kind : Property → Kind
  | x | y | width | height => .number
  | wrapWidth | widthMultiplier => .optionalNumber
  | order => .rank
  | displayName | font | fieldName | defaultValue | lead | trail => .text
  | metadataKey | assetId => .optionalText
  | wrap | noOverflow | disallowOverflow | shown | isMainSubject => .flag
  | fontSize => .fontSize
  | gravity => .gravity
  | color | backgroundColor => .color

/-- What a property is under a key: the canvas has sides of whole pixels. -/
def Property.kindAt (key : String) (p : Property) : Kind :=
  if key = canvasKey ∧ (p = .width ∨ p = .height) then .side else p.kind

namespace Kind

/-- The value is of a kind that a property of this kind may be given. -/
def Takes : Kind → Value → Prop
  | number, .number x | optionalNumber, .number x | rank, .number x
  | side, .number x =>
    x.isFinite = true
  | fontSize, .number x => x.isFinite = true ∧ 0 < x
  | optionalNumber, .unset | rank, .unset | optionalText, .unset => True
  | text, .text _ | optionalText, .text _ | fontSize, .text _ | gravity, .text _
  | color, .text _ => True
  | flag, .flag _ | fontSize, .fontSize _ | gravity, .gravity _
  | color, .color _ => True
  | _, _ => False

/-- What a message says that a property takes. -/
def expected : Kind → String
  | number | optionalNumber | rank | side => "number"
  | text | optionalText => "text"
  | flag => "boolean"
  | fontSize => "font size"
  | gravity => "gravity"
  | color => "color"

/-- What a value reads as once it has been written. -/
inductive Normalises : Kind → Value → Value → Prop where
  | number {x : Float} (h : x.isFinite = true) :
      Normalises number (.number x) (.number x)
  | optionalNumber {x : Float} (h : x.isFinite = true) :
      Normalises optionalNumber (.number x) (.number x)
  | noNumber : Normalises optionalNumber .unset .unset
  /-- A place is rounded, and moved to the nearer end of 32 bits if it is
  beyond. -/
  | rank {x : Float} (h : x.isFinite = true) :
      Normalises rank (.number x)
        (.number (Float.ofInt
          (max (-2 ^ 31) (min (2 ^ 31 - 1) (nearestInt x)))))
  | noRank : Normalises rank .unset .unset
  | text (s : String) : Normalises text (.text s) (.text s)
  | optionalText {s : String} (h : s ≠ "") :
      Normalises optionalText (.text s) (.text s)
  | emptyText : Normalises optionalText (.text "") .unset
  | noText : Normalises optionalText .unset .unset
  | flag (b : Bool) : Normalises flag (.flag b) (.flag b)
  | fontSize (size : FontSize) :
      Normalises fontSize (.fontSize size) (.fontSize size)
  | pixels {x : Float} (h : x.isFinite = true) (hpos : 0 < x) :
      Normalises fontSize (.number x) (.fontSize (.px x))
  | namedSize {s : String} {size : FontSize}
      (h : FontSize.ofText? s = .ok size) :
      Normalises fontSize (.text s) (.fontSize size)
  | gravity (g : Gravity) : Normalises gravity (.gravity g) (.gravity g)
  | namedGravity {s : String} {g : Gravity} (h : Gravity.ofText? s = .ok g) :
      Normalises gravity (.text s) (.gravity g)
  | color (c : Color) : Normalises color (.color c) (.color c)
  | namedColor {s : String} {c : Color} (h : Color.ofText? s = .ok c) :
      Normalises color (.text s) (.color c)
  | side {x : Float} (h : x.isFinite = true) (hmin : 1 ≤ nearestInt x)
      (hmax : nearestInt x ≤ 2 ^ 32 - 1) :
      Normalises side (.number x) (.number (Float.ofInt (nearestInt x)))

/-- Why a value is not written to a property that is there: it is of another
kind, it names nothing, or it is no side. -/
inductive Refuses (p : Property) : Kind → Value → WriteError → Prop where
  | mismatch {k : Kind} {v : Value} (h : ¬ k.Takes v) :
      Refuses p k v (.mismatch p k.expected)
  | noSize {s : String} {e : BadValue} (h : FontSize.ofText? s = .error e) :
      Refuses p fontSize (.text s) (.invalid p e.message)
  | noGravity {s : String} {e : BadValue} (h : Gravity.ofText? s = .error e) :
      Refuses p gravity (.text s) (.invalid p e.message)
  | noColor {s : String} {e : BadValue} (h : Color.ofText? s = .error e) :
      Refuses p color (.text s) (.invalid p e.message)
  | noSide {x : Float} (h : x.isFinite = true)
      (hrange : ¬ (1 ≤ nearestInt x ∧ nearestInt x ≤ 2 ^ 32 - 1)) :
      Refuses p side (.number x)
        (.invalid p "canvas dimensions must be positive")

/-! ## What is stored -/

variable {p : Property} {v : Value}

theorem finite?_of_not_isFinite {x : Float} (h : ¬ x.isFinite = true)
    (p : Property) : finite? p (.number x) = .error (.mismatch p "number") :=
  if_neg h

theorem toInt_ofInt_toInt32 {x : Float} (h : x.isFinite = true) :
    (Int32.ofInt (toInt32 x)).toInt =
      max (-2 ^ 31) (min (2 ^ 31 - 1) (nearestInt x)) := by
  have hmin : Int32.minValue.toInt = -2 ^ 31 := rfl
  have hmax : Int32.maxValue.toInt = 2 ^ 31 - 1 := rfl
  rw [toInt32, toRange_of_isFinite h, hmin, hmax]
  exact Int32.toInt_ofInt_of_le (by omega) (by omega)

theorem pixels_iff {x : Float} :
    (x.isFinite && decide (0 < x)) = true ↔ x.isFinite = true ∧ 0 < x := by
  rw [Bool.and_eq_true, decide_eq_true_iff]

theorem named?_cases {α : Type} (p : Property) (r : Except BadValue α) :
    (∃ a, r = .ok a ∧ named? p r = .ok a) ∨
      ∃ e, r = .error e ∧ named? p r = .error (.invalid p e.message) := by
  cases r with
  | ok a => exact Or.inl ⟨a, rfl, rfl⟩
  | error e => exact Or.inr ⟨e, rfl, rfl⟩

theorem store?_side_cases {x : Float} (h : x.isFinite = true) (p : Property) :
    (∃ n, store? side p (.number x) = .ok n ∧
      Normalises side (.number x) (side.read n)) ∨
      ∃ e, store? side p (.number x) = .error e ∧
        Refuses p side (.number x) e := by
  have hstore : store? side p (.number x) = side? p x :=
    congrArg (fun r => Except.bind r (side? p)) (finite?_of_isFinite h p)
  have hsize : ((UInt32.size : Nat) : Int) = 2 ^ 32 := rfl
  rw [hstore, side?]
  by_cases hrange : 1 ≤ nearestInt x ∧ nearestInt x ≤ 2 ^ 32 - 1
  · refine Or.inl ⟨.ofNat (nearestInt x).toNat, if_pos (by omega), ?_⟩
    have hread : read side (.ofNat (nearestInt x).toNat) =
        .number (Float.ofInt (nearestInt x)) := by
      obtain ⟨n, hn⟩ := Int.eq_ofNat_of_zero_le (show 0 ≤ nearestInt x by omega)
      have hlt : n < UInt32.size := by omega
      rw [hn, Int.toNat_natCast, read, UInt32.toNat_ofNat_of_lt' hlt]
      rfl
    rw [hread]
    exact .side h hrange.1 hrange.2
  · exact Or.inr ⟨_, if_neg (by omega), .noSide h hrange⟩

/-- A value is stored as one that it normalises to, or it is refused. -/
theorem store?_cases (k : Kind) (p : Property) (v : Value) :
    (∃ x, k.store? p v = .ok x ∧ k.Normalises v (k.read x)) ∨
      ∃ e, k.store? p v = .error e ∧ Refuses p k v e := by
  cases k with
  | number =>
      cases v with
      | number x =>
          by_cases hx : x.isFinite = true
          · exact Or.inl ⟨x, finite?_of_isFinite hx p, .number hx⟩
          · exact Or.inr ⟨_, finite?_of_not_isFinite hx p, .mismatch hx⟩
      | text | flag | fontSize | gravity | color | unset =>
          exact Or.inr ⟨_, rfl, .mismatch id⟩
  | optionalNumber =>
      cases v with
      | number x =>
          by_cases hx : x.isFinite = true
          · exact Or.inl ⟨some x,
              congrArg (Except.map some) (finite?_of_isFinite hx p),
              .optionalNumber hx⟩
          · exact Or.inr ⟨_, congrArg (Except.map some)
              (finite?_of_not_isFinite hx p), .mismatch hx⟩
      | unset => exact Or.inl ⟨none, rfl, .noNumber⟩
      | text | flag | fontSize | gravity | color =>
          exact Or.inr ⟨_, rfl, .mismatch id⟩
  | rank =>
      cases v with
      | number x =>
          by_cases hx : x.isFinite = true
          · refine Or.inl ⟨some (Int32.ofInt (toInt32 x)), ?_, ?_⟩
            · show Except.map _ (Except.map some (finite? p (.number x))) = _
              rw [finite?_of_isFinite hx]
              rfl
            · show Normalises rank _
                (.number (Float.ofInt (Int32.ofInt (toInt32 x)).toInt))
              rw [toInt_ofInt_toInt32 hx]
              exact .rank hx
          · refine Or.inr ⟨.mismatch p "number", ?_, .mismatch hx⟩
            show Except.map _ (Except.map some (finite? p (.number x))) = _
            rw [finite?_of_not_isFinite hx]
            rfl
      | unset => exact Or.inl ⟨none, rfl, .noRank⟩
      | text | flag | fontSize | gravity | color =>
          exact Or.inr ⟨_, rfl, .mismatch id⟩
  | side =>
      cases v with
      | number x =>
          by_cases hx : x.isFinite = true
          · exact store?_side_cases hx p
          · exact Or.inr ⟨_, congrArg (fun r => Except.bind r (side? p))
              (finite?_of_not_isFinite hx p), .mismatch hx⟩
      | text | flag | fontSize | gravity | color | unset =>
          exact Or.inr ⟨_, rfl, .mismatch id⟩
  | text =>
      cases v with
      | text s => exact Or.inl ⟨s, rfl, .text s⟩
      | number | flag | fontSize | gravity | color | unset =>
          exact Or.inr ⟨_, rfl, .mismatch id⟩
  | optionalText =>
      cases v with
      | text s =>
          by_cases hs : s = ""
          · subst hs
            exact Or.inl ⟨none, rfl, .emptyText⟩
          · have hempty : ¬ s.isEmpty = true :=
              fun h => hs (String.isEmpty_iff.mp h)
            exact Or.inl ⟨some s, congrArg Except.ok (if_neg hempty),
              .optionalText hs⟩
      | unset => exact Or.inl ⟨none, rfl, .noText⟩
      | number | flag | fontSize | gravity | color =>
          exact Or.inr ⟨_, rfl, .mismatch id⟩
  | flag =>
      cases v with
      | flag b => exact Or.inl ⟨b, rfl, .flag b⟩
      | number | text | fontSize | gravity | color | unset =>
          exact Or.inr ⟨_, rfl, .mismatch id⟩
  | fontSize =>
      cases v with
      | fontSize size => exact Or.inl ⟨size, rfl, .fontSize size⟩
      | number x =>
          by_cases hx : x.isFinite = true ∧ 0 < x
          · exact Or.inl ⟨.px x, if_pos (pixels_iff.mpr hx), .pixels hx.1 hx.2⟩
          · exact Or.inr ⟨_, if_neg fun h => hx (pixels_iff.mp h), .mismatch hx⟩
      | text s =>
          rcases named?_cases p (FontSize.ofText? s) with
            ⟨size, hs, hok⟩ | ⟨e, hs, herror⟩
          · exact Or.inl ⟨size, hok, .namedSize hs⟩
          · exact Or.inr ⟨_, herror, .noSize hs⟩
      | flag | gravity | color | unset => exact Or.inr ⟨_, rfl, .mismatch id⟩
  | gravity =>
      cases v with
      | gravity g => exact Or.inl ⟨g, rfl, .gravity g⟩
      | text s =>
          rcases named?_cases p (Gravity.ofText? s) with
            ⟨g, hs, hok⟩ | ⟨e, hs, herror⟩
          · exact Or.inl ⟨g, hok, .namedGravity hs⟩
          · exact Or.inr ⟨_, herror, .noGravity hs⟩
      | number | flag | fontSize | color | unset =>
          exact Or.inr ⟨_, rfl, .mismatch id⟩
  | color =>
      cases v with
      | color c => exact Or.inl ⟨c, rfl, .color c⟩
      | text s =>
          rcases named?_cases p (Color.ofText? s) with
            ⟨c, hs, hok⟩ | ⟨e, hs, herror⟩
          · exact Or.inl ⟨c, hok, .namedColor hs⟩
          · exact Or.inr ⟨_, herror, .noColor hs⟩
      | number | flag | fontSize | gravity | unset =>
          exact Or.inr ⟨_, rfl, .mismatch id⟩

/-! ## What is said of a value is said once -/

theorem Normalises.takes {k : Kind} {w : Value} (h : k.Normalises v w) :
    k.Takes v := by
  cases h with
  | number h | optionalNumber h | rank h | side h => exact h
  | pixels h hpos => exact ⟨h, hpos⟩
  | _ => trivial

/-- What is written is not refused. -/
theorem Refuses.not_normalises {k : Kind} {e : WriteError} {w : Value}
    (h : Refuses p k v e) : ¬ k.Normalises v w := by
  intro hw
  cases h with
  | mismatch h => exact h hw.takes
  | noSize h =>
      cases hw with
      | namedSize h' => cases h.symm.trans h'
  | noGravity h =>
      cases hw with
      | namedGravity h' => cases h.symm.trans h'
  | noColor h =>
      cases hw with
      | namedColor h' => cases h.symm.trans h'
  | noSide h hrange =>
      cases hw with
      | side _ hmin hmax => exact hrange ⟨hmin, hmax⟩

/-- There is one reason for which a value is refused. -/
theorem Refuses.unique {k : Kind} {e e' : WriteError} (h : Refuses p k v e)
    (h' : Refuses p k v e') : e = e' := by
  cases h with
  | mismatch h =>
      cases h' with
      | mismatch => rfl
      | noSize | noGravity | noColor => exact absurd trivial h
      | noSide hx => exact absurd hx h
  | noSize h =>
      cases h' with
      | mismatch h' => exact absurd trivial h'
      | noSize h' => rw [Except.error.inj (h.symm.trans h')]
  | noGravity h =>
      cases h' with
      | mismatch h' => exact absurd trivial h'
      | noGravity h' => rw [Except.error.inj (h.symm.trans h')]
  | noColor h =>
      cases h' with
      | mismatch h' => exact absurd trivial h'
      | noColor h' => rw [Except.error.inj (h.symm.trans h')]
  | noSide h =>
      cases h' with
      | mismatch h' => exact absurd h h'
      | noSide => rfl

theorem Refuses.not_unknown {k : Kind} {key : String} {q : Property} :
    ¬ Refuses p k v (.unknown key q) :=
  fun h => by cases h

theorem finiteOrUnset?_ok {x? : Option Float}
    (h : finiteOrUnset? p v = .ok x?) : v = .ofNumber? x? := by
  cases v with
  | unset =>
      cases h
      rfl
  | number x =>
      replace h : (finite? p (.number x)).map some = .ok x? := h
      cases hx : finite? p (.number x) with
      | error e =>
          rw [hx] at h
          cases h
      | ok y =>
          rw [hx] at h
          cases h
          exact finite?_ok hx
  | text | flag | fontSize | gravity | color => cases h

/-- What has been stored is stored again when what it reads as is written. -/
theorem store?_again {k : Kind} {x : k.Stored} (h : k.store? p v = .ok x) :
    k.store? p (k.read x) = .ok x := by
  cases k with
  | number =>
      obtain rfl : v = .number x := finite?_ok h
      exact h
  | optionalNumber =>
      obtain rfl : v = .ofNumber? x := finiteOrUnset?_ok h
      exact h
  | rank => exact store?_rank x
  | side => exact store?_side (Template.one_le_side h)
  | optionalText =>
      cases v with
      | text s =>
          replace h : Except.ok (if s.isEmpty then none else some s) =
            Except.ok x := h
          split at h
          · cases h
            rfl
          · next hs =>
              cases h
              exact congrArg Except.ok (if_neg hs)
      | unset =>
          cases h
          rfl
      | number | flag | fontSize | gravity | color => cases h
  | text | flag | fontSize | gravity | color => rfl

end Kind

/-! ## Templates -/

namespace Template

variable {t t' : Template} {key : String} {p : Property} {v : Value}
  {k : PartKind} {stored : Kind}

theorem kindAt_of_stores? (hk : t.kind? key = some k)
    (hs : k.stores? p = some stored) : p.kindAt key = stored := by
  have hcanvas : key = canvasKey ↔ k = .canvas := by
    rw [← kind?_eq_canvas_iff, hk, Option.some.injEq]
  unfold Property.kindAt
  split
  · next h =>
      obtain rfl := hcanvas.mp h.1
      rcases h.2 with rfl | rfl <;> exact Option.some.inj hs
  · next h =>
      rw [hcanvas] at h
      cases k <;> cases p <;> cases hs <;>
        first
          | rfl
          | exact absurd ⟨rfl, Or.inl rfl⟩ h
          | exact absurd ⟨rfl, Or.inr rfl⟩ h

theorem set_of_get?_eq_none (h : t.get? key p = none) :
    t.set key p v = .error (.unknown key p) := by
  by_cases hkey : key = canvasKey
  · subst hkey
    rw [get?, if_pos rfl, Option.map_eq_none_iff] at h
    rw [set, if_pos rfl, h]
  · rw [get?, if_neg hkey] at h
    cases hl : t.layer? key with
    | none => simp only [set, if_neg hkey, hl]
    | some l =>
        rw [hl, Option.bind_some] at h
        rw [set_layer hkey hl]
        cases hbody : l.body with
        | text | image =>
            rw [hbody, LayerBody.get?, Option.map_eq_none_iff] at h
            simp only [LayerBody.set, h]
            rfl

/-- To write a value is to store it, and to put what is stored where it
belongs. -/
theorem exists_set_eq_map (hk : t.kind? key = some k)
    (hs : k.stores? p = some stored) :
    ∃ put : stored.Stored → Template, ∀ v,
      t.set key p v = (stored.store? p v).map put := by
  by_cases hkey : key = canvasKey
  · subst hkey
    obtain rfl : .canvas = k := Option.some.inj ((kind?_canvas t).symm.trans hk)
    obtain ⟨s, hslot, rfl⟩ := Option.map_eq_some_iff.mp hs
    exact ⟨fun x => s.put x t, fun v => set_canvas hslot⟩
  · rw [kind?, part?_of_ne t hkey, Option.map_map, Option.map_eq_some_iff] at hk
    obtain ⟨l, hl, rfl⟩ := hk
    cases hbody : l.body with
    | text i =>
        rw [Function.comp_apply, hbody] at hs
        obtain ⟨s, hslot, rfl⟩ := Option.map_eq_some_iff.mp hs
        refine ⟨fun x => { t with
          layers := replaceBody key (.text (s.put x i)) t.layers },
          fun v => ?_⟩
        rw [set_layer hkey hl, hbody, LayerBody.text_set hslot, Slot.write]
        cases s.kind.store? p v <;> rfl
    | image i =>
        rw [Function.comp_apply, hbody] at hs
        obtain ⟨s, hslot, rfl⟩ := Option.map_eq_some_iff.mp hs
        refine ⟨fun x => { t with
          layers := replaceBody key (.image (s.put x i)) t.layers },
          fun v => ?_⟩
        rw [set_layer hkey hl, hbody, LayerBody.image_set hslot, Slot.write]
        cases s.kind.store? p v <;> rfl

theorem exists_set_of_store? {x : stored.Stored} (hk : t.kind? key = some k)
    (hs : k.stores? p = some stored) (h : stored.store? p v = .ok x) :
    ∃ t', t.set key p v = .ok t' ∧ t'.kind? key = some k ∧
      t'.get? key p = some (stored.read x) := by
  obtain ⟨put, hput⟩ := exists_set_eq_map hk hs
  have hset : t.set key p v = .ok (put x) := by
    rw [hput, h]
    rfl
  obtain ⟨⟨k', hk₀, hk', hread⟩, -⟩ := of_set hset
  obtain rfl : k = k' := Option.some.inj (hk.symm.trans hk₀)
  refine ⟨put x, hset, hk', ?_⟩
  rw [← hread, PartKind.written?, hs, Option.bind_some, Kind.written?, h]
  rfl

/-- A property that is there takes what it normalises, and refuses the rest. -/
theorem set_cases_of_isSome (h : (t.get? key p).isSome) (v : Value) :
    (∃ w t', (p.kindAt key).Normalises v w ∧ t.set key p v = .ok t' ∧
        t'.get? key p = some w ∧ t'.set key p w = .ok t') ∨
      ∃ e, t.set key p v = .error e ∧ Kind.Refuses p (p.kindAt key) v e := by
  obtain ⟨k, stored, hk, hs⟩ := isSome_get?_iff.mp h
  obtain ⟨put, hput⟩ := exists_set_eq_map hk hs
  rw [kindAt_of_stores? hk hs]
  rcases stored.store?_cases p v with ⟨x, hx, hnormal⟩ | ⟨e, he, hrefuses⟩
  · obtain ⟨t', hset, hk', hread⟩ := exists_set_of_store? hk hs hx
    obtain ⟨t'', hset', -, hread'⟩ :=
      exists_set_of_store? hk' hs (Kind.store?_again hx)
    -- the second time the same is read as the first time, so nothing has
    -- changed
    obtain rfl : t'' = t' :=
      (differAt_of_set hset').eq (hread'.trans hread.symm)
    exact Or.inl ⟨_, t'', hnormal, hset, hread, hset'⟩
  · exact Or.inr ⟨e, by rw [hput, he]; rfl, hrefuses⟩

theorem set_eq_error_iff {e : WriteError} : t.set key p v = .error e ↔
    t.get? key p = none ∧ e = .unknown key p ∨
      (t.get? key p).isSome ∧ Kind.Refuses p (p.kindAt key) v e := by
  cases hget : t.get? key p with
  | none =>
      rw [set_of_get?_eq_none hget, Except.error.injEq]
      simp [eq_comm]
  | some r =>
      have hsome : (t.get? key p).isSome := Option.isSome_of_eq_some hget
      simp only [reduceCtorEq, false_and, false_or, Option.isSome_some,
        true_and]
      rcases set_cases_of_isSome hsome v with
        ⟨w, t', hw, hset, -⟩ | ⟨e', hset, he⟩
      · rw [hset]
        exact iff_of_false (fun h => by cases h) fun h => h.not_normalises hw
      · rw [hset, Except.error.injEq]
        exact ⟨fun heq => heq ▸ he, he.unique⟩

theorem set_unknown_iff :
    (∃ l q, t.set key p v = .error (.unknown l q)) ↔ t.get? key p = none := by
  constructor
  · rintro ⟨l, q, h⟩
    rcases set_eq_error_iff.mp h with ⟨hget, -⟩ | ⟨-, hrefuses⟩
    · exact hget
    · exact absurd hrefuses Kind.Refuses.not_unknown
  · exact fun h => ⟨key, p, set_of_get?_eq_none h⟩

theorem exists_set_iff : (∃ t', t.set key p v = .ok t') ↔
    (t.get? key p).isSome ∧ ∃ w, (p.kindAt key).Normalises v w := by
  constructor
  · rintro ⟨t', h⟩
    have hsome := isSome_get?_of_set h
    refine ⟨hsome, ?_⟩
    rcases set_cases_of_isSome hsome v with ⟨w, -, hw, -⟩ | ⟨e, hset, -⟩
    · exact ⟨w, hw⟩
    · cases hset.symm.trans h
  · rintro ⟨hsome, w, hw⟩
    rcases set_cases_of_isSome hsome v with ⟨-, t', -, hset, -⟩ | ⟨e, -, he⟩
    · exact ⟨t', hset⟩
    · exact absurd hw he.not_normalises

theorem reads_of_set (h : t.set key p v = .ok t') :
    ∃ w, (p.kindAt key).Normalises v w ∧ t'.get? key p = some w ∧
      t'.set key p w = .ok t' := by
  rcases set_cases_of_isSome (isSome_get?_of_set h) v with
    ⟨w, t'', hw, hset, hread, hagain⟩ | ⟨e, hset, -⟩
  · obtain rfl := Except.ok.inj (hset.symm.trans h)
    exact ⟨w, hw, hread, hagain⟩
  · cases hset.symm.trans h

/-! ## Reading and writing -/

/-- What is to be had of a value: it is written to the property that it is read
from, and to no other. -/
structure Lawful (t : Template) (key : String) (p : Property) (v : Value) :
    Prop where
  /-- What cannot be read is all that is unknown. -/
  unknown : (∃ l q, t.set key p v = .error (.unknown l q)) ↔ t.get? key p = none
  /-- If a property that is there refuses a value, then for the value. -/
  error : ∀ e, t.set key p v = .error e ↔
    t.get? key p = none ∧ e = .unknown key p ∨
      (t.get? key p).isSome ∧ Kind.Refuses p (p.kindAt key) v e
  unchanged : ∀ e, t.set key p v = .error e → t.trySet key p v = t
  ok : (∃ t', t.set key p v = .ok t') ↔
    (t.get? key p).isSome ∧ ∃ w, (p.kindAt key).Normalises v w
  /-- A value that has been written is read normalised, and may be written
  again. -/
  reads : ∀ t', t.set key p v = .ok t' →
    ∃ w, (p.kindAt key).Normalises v w ∧ t'.get? key p = some w ∧
      t'.set key p w = .ok t'
  others : ∀ t', t.set key p v = .ok t' →
    ∀ key' q, (key', q) ≠ (key, p) → t'.get? key' q = t.get? key' q

/-- Whatever is written, and to whatever property, is what is read there, and
only there. -/
theorem set_lawful (t : Template) (key : String) (p : Property) (v : Value) :
    t.Lawful key p v where
  unknown := set_unknown_iff
  error _ := set_eq_error_iff
  unchanged _ := trySet_of_error
  ok := exists_set_iff
  reads _ := reads_of_set
  others _ h := (differAt_of_set h).reads

end Template

end Placard
