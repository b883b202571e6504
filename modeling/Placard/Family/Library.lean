import Placard.Decimal.Layout
import Placard.Template.Import
import Placard.Template.Value

/-!
# Libraries

A library holds templates by their ids. A template is registered as a parent, or
made from a parent as one of its children; there are no children of children.
Which template is whose child is kept both ways: every parent has a list of its
children in the order in which they were made, and every child has its parent.

An edit of a library is refused if what it is addressed to is not there, if what
it would make is there already, or if the value is not one of the property.
-/

namespace Placard

/-- Why an edit of a library is refused. -/
inductive EditError where
  | templateNotFound (id : String)
  | duplicateTemplate (id : String)
  | layerNotFound (template layer : String)
  | duplicateLayer (template layer : String)
  | notAChild (id : String)
  /-- A child is asked for children of its own. -/
  | notDerivable (id : String)
  /-- The child does not take the property from its parent. -/
  | notInherited (layer : String) (property : Property)
  | notWritten (e : WriteError)
deriving DecidableEq

/-- The message of an error, as it is answered with. -/
def EditError.message : EditError → String
  | templateNotFound id => "Template not found: " ++ id
  | duplicateTemplate id => "Template already exists: " ++ id
  | layerNotFound template layer =>
    "Layer " ++ layer ++ " not found in " ++ template
  | duplicateLayer template layer =>
    "Layer " ++ layer ++ " already exists in " ++ template
  | notAChild id => "Template " ++ id ++ " is not a child template"
  | notDerivable id =>
    "Template " ++ id ++
      " is itself a child and cannot be derived from is not a child template"
  | notInherited layer property =>
    "Property " ++ property.name ++ " of " ++ layer ++
      " is not inherited from a parent"
  | notWritten e => e.message

/-- Templates by their ids, with the parent of every child and the children of
every parent. -/
structure Library where
  templates : Table Template
  children : Table (List String)
  parents : Table String
deriving DecidableEq

namespace Library

/-- No template at all. -/
def empty : Library := ⟨∅, ∅, ∅⟩

instance : EmptyCollection Library := ⟨empty⟩

instance : Inhabited Library := ⟨empty⟩

/-- The template of an id, if there is one. -/
def get? (lib : Library) (id : String) : Option Template :=
  lib.templates.get? id

/-- Whether there is a template of an id. -/
def contains (lib : Library) (id : String) : Bool :=
  lib.templates.contains id

/-- The library with a template stored under an id, in the place of the one
there. -/
def put (lib : Library) (id : String) (t : Template) : Library :=
  { lib with templates := lib.templates.insert id t }

/-- The parent of a child; no other template has one. -/
def parentOf? (lib : Library) (id : String) : Option String :=
  lib.parents.get? id

/-- The parent of a child, and for any other template its own id. -/
def familyOf (lib : Library) (id : String) : String :=
  (lib.parentOf? id).getD id

/-- Whether a template is there and is no child. -/
def isParent (lib : Library) (id : String) : Bool :=
  lib.contains id && !lib.parents.contains id

/-- The children of a parent in the order in which they were made. -/
def childrenOf (lib : Library) (id : String) : List String :=
  (lib.children.get? id).getD []

/-- Whether a template has a layer; every template has its canvas. -/
def holds (lib : Library) (id layer : String) : Bool :=
  (lib.get? id).any fun t => layer = canvasKey || t.hasLayer layer

/-! ## Parents -/

/-- The library with a new parent, unless its id is taken. -/
def addParent (lib : Library) (t : Template) : Except ImportError Library :=
  if lib.contains t.id then .error (.duplicate t.id)
  else .ok { lib with
    templates := lib.templates.insert t.id t
    children := lib.children.insert t.id [] }

/-- The library with a new parent, which must be valid. -/
def register (lib : Library) (t : Template) : Except ImportError Library := do
  let t ← t.accept.mapError .rejected
  lib.addParent t

/-- The library with the template of a text as a parent, if there is one in it
and its id is not taken. -/
def registerText (lib : Library) (text : String) : Library :=
  ((Template.import? text).bind lib.addParent).toOption.getD lib

/-- Whether a file may hold a template: something stands before `.json`. -/
def isTemplateFile (name : String) : Bool :=
  match Text.before? ".json".toList name.toList with
  | some stem => !stem.isEmpty
  | none => false

/-- The library of the templates in the files of a folder, in the order of their
names; or why a file that may hold a template cannot be read. Files that hold
none are passed over. -/
def ofFolder (files : Table (Except String String)) : Except String Library :=
  files.entries.foldlM
    (fun lib (name, text) =>
      if isTemplateFile name then text.map lib.registerText else .ok lib)
    empty

/-! ## Children -/

/-- The copy of a template under a new id, on another canvas if one is given. -/
def childTemplate (parent : Template) (id : String) (canvas? : Option Size) :
    Template :=
  let child := { parent with id := id }
  match canvas? with
  | some size =>
    { child with width := max 1 size.width, height := max 1 size.height }
  | none => child

/-- The library with a child of a parent, a copy of it under an id that is not
taken. -/
def createChild (lib : Library) (parentId id : String) (canvas? : Option Size) :
    Except EditError Library :=
  if lib.parents.contains parentId then .error (.notDerivable parentId)
  else match lib.get? parentId with
    | none => .error (.templateNotFound parentId)
    | some parent =>
      if lib.contains id then .error (.duplicateTemplate id)
      else .ok {
        templates := lib.templates.insert id (childTemplate parent id canvas?)
        children :=
          lib.children.insert parentId (lib.childrenOf parentId ++ [id])
        parents := lib.parents.insert id parentId }

/-- The library in which a template is no longer a child of its parent. -/
def detach (lib : Library) (id parentId : String) : Library :=
  { lib with
    parents := lib.parents.erase id
    children := lib.children.alter parentId fun siblings? =>
      siblings?.map fun siblings => siblings.filter fun s => s ≠ id }

/-- The library without the template of an id. -/
def discard (lib : Library) (id : String) : Library :=
  { lib with templates := lib.templates.erase id }

end Library

/-! ## JSON -/

open Json in
/-- A library in JSON: its templates, and who is whose child both ways. -/
def Library.toJson (lib : Library) : Json :=
  .object [("rule_sets", .ofTable Template.toJson lib.templates),
    ("children", .ofTable (fun ids => .array (ids.map .string)) lib.children),
    ("parents", .ofTable .string lib.parents)]

open Json in
/-- A library as it is written. That what it says of children and of parents
agrees is not looked at. -/
def Library.decode : Decoder Library :=
  Fields.decode <|
    Library.mk <$> .required "rule_sets" (decodeTable Template.decode)
      <*> .required "children" (decodeTable (decodeArray decodeString))
      <*> .required "parents" (decodeTable decodeString)

end Placard
