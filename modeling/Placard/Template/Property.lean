import Placard.Template.Scalars

/-!
# Properties

The names under which parts of a layer, or of the canvas, are read, written and
inherited. A set of properties is kept as the sublist of all of them that
belong to it, so it has one form and is listed in the order of declaration.
-/

namespace Placard

/-- A part of a layer or of the canvas that has a name. -/
inductive Property where
  | x
  | y
  | gravity
  | order
  | displayName
  | fontSize
  | color
  | font
  | wrap
  | wrapWidth
  | noOverflow
  | disallowOverflow
  | fieldName
  | metadataKey
  | defaultValue
  | lead
  | trail
  | widthMultiplier
  | width
  | height
  | assetId
  | shown
  | isMainSubject
  | backgroundColor
deriving DecidableEq

namespace Property

/-- The properties in the order of declaration. -/
def all : List Property :=
  [x, y, gravity, order, displayName, fontSize, color, font, wrap, wrapWidth,
   noOverflow, disallowOverflow, fieldName, metadataKey, defaultValue, lead,
   trail, widthMultiplier, width, height, assetId, shown, isMainSubject,
   backgroundColor]

/-- The name of a property in JSON. -/
def name : Property → String
  | x => "x"
  | y => "y"
  | gravity => "gravity"
  | order => "order"
  | displayName => "displayName"
  | fontSize => "fontSize"
  | color => "color"
  | font => "font"
  | wrap => "wrap"
  | wrapWidth => "wrapWidth"
  | noOverflow => "noOverflow"
  | disallowOverflow => "disallowOverflow"
  | fieldName => "fieldName"
  | metadataKey => "metadataKey"
  | defaultValue => "defaultValue"
  | lead => "prefix"
  | trail => "suffix"
  | widthMultiplier => "widthMultiplier"
  | width => "width"
  | height => "height"
  | assetId => "assetId"
  | shown => "show"
  | isMainSubject => "isMainSubject"
  | backgroundColor => "backgroundColor"

/-- The property of a name, which is written just so. -/
def ofName? (s : String) : Except BadValue Property :=
  match all.find? fun p => p.name == s with
  | some p => .ok p
  | none => .error (.property s)

theorem mem_all (p : Property) : p ∈ all := by
  cases p <;> decide

theorem nodup_all : all.Nodup := by decide

end Property

/-- A set of properties, as the sublist of `Property.all` that it is. -/
structure PropertySet where
  members : List Property
  canonical : Property.all.filter (fun p => p ∈ members) = members
deriving DecidableEq

namespace PropertySet

/-- The properties that satisfy `f`. -/
def ofPred (f : Property → Bool) : PropertySet where
  members := Property.all.filter f
  canonical := by
    apply List.filter_congr
    intro p hp
    simp [hp]

/-- No property. -/
def empty : PropertySet := ofPred fun _ => false

instance : EmptyCollection PropertySet := ⟨empty⟩

instance : Inhabited PropertySet := ⟨empty⟩

/-- Whether a property belongs to the set. -/
def contains (s : PropertySet) (p : Property) : Bool :=
  p ∈ s.members

/-- The set with a property. -/
def insert (s : PropertySet) (p : Property) : PropertySet :=
  ofPred fun q => q = p || s.contains q

/-- The set without a property. -/
def erase (s : PropertySet) (p : Property) : PropertySet :=
  ofPred fun q => q ≠ p && s.contains q

/-- Whether no property belongs to the set. -/
def isEmpty (s : PropertySet) : Bool :=
  s.members.isEmpty

/-- How many properties belong to the set. -/
def size (s : PropertySet) : Nat :=
  s.members.length

@[simp] theorem contains_ofPred (f : Property → Bool) (p : Property) :
    (ofPred f).contains p = f p := by
  simp [contains, ofPred, Property.mem_all]

@[simp] theorem contains_empty (p : Property) :
    (empty : PropertySet).contains p = false := by
  simp [empty]

@[simp] theorem contains_insert (s : PropertySet) (p q : Property) :
    (s.insert p).contains q = (q = p || s.contains q) := by
  simp [insert]

@[simp] theorem contains_erase (s : PropertySet) (p q : Property) :
    (s.erase p).contains q = (q ≠ p && s.contains q) := by
  simp [erase]

@[ext] theorem ext {s t : PropertySet}
    (h : ∀ p, s.contains p = t.contains p) : s = t := by
  obtain ⟨ms, hs⟩ := s
  obtain ⟨ns, ht⟩ := t
  obtain rfl : ms = ns := by
    rw [← hs, ← ht]
    exact List.filter_congr fun p _ => h p
  rfl

end PropertySet

end Placard
