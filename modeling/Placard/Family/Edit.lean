import Placard.Family.Library
import Placard.Family.Overrides

/-!
# Editing families

A write to a parent goes on at once to every child that has no value of its own
in that place. A write to a child stays there and is flagged, if the parent has
the place too, until it is reset. An edit may fail after some of its steps, and
then what these did stays done; for the libraries that edits themselves build,
no edit fails so late.
-/

namespace Placard

/-- The templates and the flags of the children, which edits change. -/
structure Workspace where
  library : Library
  overrides : Overrides
deriving DecidableEq

/-- A step that may change a workspace, or fail. -/
abbrev Edit := ExceptT EditError (StateM Workspace)

/-- What an edit did besides changing the template it was addressed to. -/
structure EditReport where
  updatedChildren : List String
  overrideRecorded : Bool
deriving DecidableEq

/-- Where the value of a property comes from. -/
inductive PropertyStatus where
  /-- The template is no child. -/
  | source
  | inherited
  | overridden
  /-- The child has the layer for itself. -/
  | own
deriving DecidableEq

/-- The name of a status, as it is answered with. -/
def PropertyStatus.token : PropertyStatus → String
  | source => "source"
  | inherited => "inherited"
  | overridden => "overridden"
  | own => "local"

/-- No template and no flag. -/
def Workspace.empty : Workspace := ⟨∅, ∅⟩

/-- The children that a write to their parent reaches: those that have the layer
and no value of their own, if the property is inherited. -/
def propagationTargets (layer : String) (p : Property)
    (children : List String) (o : Overrides) (toggles : Toggles)
    (hasLayer : String → Bool) : List String :=
  if toggles.inherits layer p then
    children.filter fun c => hasLayer c && !o.isOverridden c layer p
  else []

/-- The library with a value written to the property in each of the templates
that take it, and these. -/
def Library.writeAll (layer : String) (p : Property) (v : Value)
    (lib : Library) :
    List String → Library × List String
  | [] => (lib, [])
  | id :: rest =>
    match lib.get? id with
    | none => writeAll layer p v lib rest
    | some t =>
      match t.set layer p v with
      | .error _ => writeAll layer p v lib rest
      | .ok t =>
        let (lib, updated) := writeAll layer p v (lib.put id t) rest
        (lib, id :: updated)

/-- The template with a layer in place of the one with its key, or else inserted
at the given place. -/
def Template.placeLayer (t : Template) (l : Layer) (place : Nat) : Template :=
  if t.hasLayer l.key then
    { t with layers := replaceBody l.key l.body t.layers }
  else { t with layers := t.layers.insertIdx (min place t.layers.length) l }

/-- The template with a layer behind the others. -/
def Template.pushLayer (t : Template) (l : Layer) : Template :=
  { t with layers := t.layers ++ [l] }

/-- The template without the layer of a key. -/
def Template.dropLayer (t : Template) (key : String) : Template :=
  { t with layers := removeLayer key t.layers }

/-- The library with a layer behind those of each of the templates that have
none of its key, and these. -/
def Library.pushAll (l : Layer) (lib : Library) :
    List String → Library × List String
  | [] => (lib, [])
  | id :: rest =>
    match lib.get? id with
    | none => pushAll l lib rest
    | some t =>
      if t.hasLayer l.key then pushAll l lib rest
      else
        let (lib, updated) := pushAll l (lib.put id (t.pushLayer l)) rest
        (lib, id :: updated)

/-- The workspace after a parent lost a layer: each of the children loses it too
unless it is the child's own, and the flags of the layer go in any case, as what
is left is the child's own. -/
def Workspace.dropFromChildren (key : String) (w : Workspace)
    (children : List String) : Workspace :=
  children.foldl
    (fun w child =>
      let library := match w.library.get? child with
        | some t =>
          if w.overrides.isLayerOverridden child key then w.library
          else w.library.put child (t.dropLayer key)
        | none => w.library
      ⟨library, w.overrides.clearLayer child key⟩)
    w

/-- What a child takes from its parent: for the canvas and every layer of the
parent the properties that are inherited and not the child's own. -/
def inheritedValues (parent : Template) (o : Overrides) (child : String)
    (toggles : Toggles) : List (String × Property × Value) :=
  (canvasKey :: parent.layers.map Layer.key).flatMap fun layer =>
    Property.all.filterMap fun p =>
      if toggles.inherits layer p && !o.isOverridden child layer p then
        (parent.get? layer p).map fun v => (layer, p, v)
      else none

/-- The template with values written to it where they differ, and how many
were. -/
def Template.takeValues (t : Template) : List (String × Property × Value) →
    Template × Nat
  | [] => (t, 0)
  | (layer, p, v) :: rest =>
    if layer ≠ canvasKey ∧ !t.hasLayer layer then t.takeValues rest
    else if (t.get? layer p).any fun old => old.same v then t.takeValues rest
    else match t.set layer p v with
      | .error _ => t.takeValues rest
      | .ok t =>
        let (t, written) := t.takeValues rest
        (t, written + 1)

namespace Edit

/-! ## Steps -/

/-- The library as it is at this point of an edit. -/
def library : Edit Library := do
  return (← get).library

/-- The flags as they are at this point of an edit. -/
def overrides : Edit Overrides := do
  return (← get).overrides

/-- Goes on with another library. -/
def setLibrary (lib : Library) : Edit Unit :=
  modify fun w => { w with library := lib }

/-- Goes on with changed flags. -/
def modifyOverrides (f : Overrides → Overrides) : Edit Unit :=
  modify fun w => { w with overrides := f w.overrides }

/-- The template of an id, which has to be there. -/
def template (id : String) : Edit Template := do
  match (← library).get? id with
  | some t => return t
  | none => throw (.templateNotFound id)

/-- Stores a template under an id. -/
def put (id : String) (t : Template) : Edit Unit := do
  setLibrary ((← library).put id t)

/-- The parent of a child; for any other template the given error. -/
def parentOf (id : String) (e : EditError) : Edit String := do
  match (← library).parentOf? id with
  | some parent => return parent
  | none => throw e

/-- Writes a property of one template, and stores it if the value is taken. -/
def write (id layer : String) (p : Property) (v : Value) : Edit Unit := do
  let t ← template id
  match t.set layer p v with
  | .ok t => put id t
  | .error e => throw (.notWritten e)

/-- Whether the parent has the layer. The canvas is none. -/
def parentHasLayer (parent layer : String) : Edit Bool := do
  return ((← library).get? parent).any fun t => t.hasLayer layer

/-! ## Templates -/

/-- Makes a child of a parent, under the id that has been generated for it if
none is given. -/
def createChild (parent : String) (id? : Option String) (generated : String)
    (canvas? : Option Size) : Edit String := do
  let lib ← library
  let id := id?.getD generated
  match lib.createChild parent id canvas? with
  | .ok lib => do
    setLibrary lib
    return id
  | .error e => throw e

/-- Removes a child, and with it its flags. Only what is a child is removed
so. -/
def removeChild (id : String) : Edit Template := do
  let parent ← parentOf id (.notAChild id)
  setLibrary ((← library).detach id parent)
  let t ← template id
  setLibrary ((← library).discard id)
  modifyOverrides fun o => o.clearChild id
  return t

/-! ## Properties -/

/-- Writes a property of a parent, and of the children that take it from there;
or of a child, and flags it if the parent has the place. -/
def setProperty (id layer : String) (p : Property) (v : Value)
    (toggles : Toggles) :
    Edit EditReport := do
  if (← library).isParent id then
    write id layer p v
    let w ← get
    let targets :=
      propagationTargets layer p (w.library.childrenOf id) w.overrides
        toggles fun child => w.library.holds child layer
    let (lib, updated) := w.library.writeAll layer p v targets
    setLibrary lib
    return ⟨updated, false⟩
  else
    let parent ← parentOf id (.templateNotFound id)
    let w ← get
    let tracked :=
      w.library.holds parent layer && !w.overrides.isLayerOverridden id layer
    write id layer p v
    if tracked then
      modifyOverrides fun o => o.mark id layer p
    return ⟨[], tracked⟩

/-- Gives a property of a child the value of its parent again. -/
def resetProperty (id layer : String) (p : Property) : Edit Value := do
  let parent ← parentOf id (.notAChild id)
  if (← overrides).isLayerOverridden id layer then
    throw (.notInherited layer p)
  match (← template parent).get? layer p with
  | none => throw (.notInherited layer p)
  | some v =>
    write id layer p v
    modifyOverrides fun o => o.unmark id layer p
    return v

/-- Gives a child every value of its parent that it inherits; the answer is how
many differed. -/
def resyncChild (id : String) (toggles : Toggles) : Edit Nat := do
  let parent ← template (← parentOf id (.notAChild id))
  let values := inheritedValues parent (← overrides) id toggles
  let (t, written) := (← template id).takeValues values
  put id t
  return written

/-- Where the value of a property comes from. A template without a parent is the
source of all that it has. -/
def propertyStatus (id layer : String) (p : Property) :
    Edit PropertyStatus := do
  let _ ← template id
  match (← library).parentOf? id with
  | none => return .source
  | some parent =>
    let _ ← template parent
    let w ← get
    if !w.library.holds parent layer || w.overrides.isLayerOverridden id
      layer then
        return .own
    else if w.overrides.isOverridden id layer p then return .overridden
    else return .inherited

/-! ## Layers -/

/-- Gives a child a layer of its parent again, without flags. -/
def resetLayer (id key : String) : Edit Unit := do
  let parentId ← parentOf id (.notAChild id)
  let parent ← template parentId
  match parent.layer? key with
  | none => throw (.layerNotFound parentId key)
  | some l =>
    let t ← template id
    put id (t.placeLayer l ((parent.layerIndex? key).getD t.layers.length))
    modifyOverrides fun o => o.clearLayer id key

/-- Takes a layer out of a template, which has to have it. -/
def takeLayer (id key : String) : Edit Unit := do
  let t ← template id
  if t.hasLayer key then put id (t.dropLayer key)
  else throw (.layerNotFound id key)

/-- Deletes a layer of a parent, and of the children that do not have it for
themselves; or of a child, which is flagged so that the parent's does not come
back. -/
def deleteLayer (id key : String) : Edit Unit := do
  if (← library).isParent id then
    takeLayer id key
    modify fun w => w.dropFromChildren key (w.library.childrenOf id)
  else
    let parent ← parentOf id (.templateNotFound id)
    takeLayer id key
    modifyOverrides fun o => o.clearLayer id key
    if ← parentHasLayer parent key then
      modifyOverrides fun o => o.markLayer id key

/-- Adds a layer behind the others; one of a parent goes to every child that has
none of its key. -/
def addLayer (id : String) (l : Layer) : Edit EditReport := do
  let t ← template id
  if l.key = canvasKey ∨ t.hasLayer l.key then
    throw (.duplicateLayer id l.key)
  let lib ← library
  if lib.isParent id then
    let (lib, updated) := lib.pushAll l (lib.childrenOf id)
    setLibrary lib
    let t ← template id
    put id (t.pushLayer l)
    return ⟨updated, false⟩
  else
    put id (t.pushLayer l)
    return ⟨[], false⟩

/-- Gives a child a layer of its own, in place of the one with its key. -/
def replaceChildLayer (id : String) (l : Layer) : Edit Unit := do
  let parent ← parentOf id (.notAChild id)
  let inherited ← parentHasLayer parent l.key
  let t ← template id
  put id (t.placeLayer l t.layers.length)
  if inherited then
    modifyOverrides fun o => (o.clearLayer id l.key).markLayer id l.key

end Edit

end Placard
