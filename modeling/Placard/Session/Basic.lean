import Placard.Debounce
import Placard.Session.Snapshot
import Placard.Overlay
import Placard.Settings
import Placard.Wire.Fragment

/-!
# Editing sessions

A session is what an editor works against: the templates, the flags of the
children, and for the template that is active the content of its fields. Edits
go to the active template and are compiled once they have settled. When a
template becomes active its fields start from what it says itself; what fields
there are, and what they say when a binding is released, comes from the family's
parent.
-/

namespace Placard

/-- An editor's state. -/
structure Session where
  settings : Settings
  workspace : Workspace
  toggles : Toggles
  /-- The fields of the parent of the active template's family. -/
  catalog : Catalog
  fields : Bindings
  active : Option String
  debounce : Debounce
  /-- The time of the clock, in milliseconds. -/
  now : Nat
deriving DecidableEq

/-- Why a session refuses what it is asked. -/
inductive SessionError where
  | noActiveTemplate
  | edit (e : EditError)
  | bind (e : BindError)
  | invalidValue (field : String) (reason : BadValue)
  /-- The token holds no snapshot. -/
  | snapshot
deriving DecidableEq

/-- The message of an error, as it is answered with. -/
def SessionError.message : SessionError → String
  | noActiveTemplate => "No active template"
  | edit e => e.message
  | bind e => e.message
  | invalidValue field reason =>
    "Invalid value for " ++ field ++ ": " ++ reason.message
  | snapshot => "Invalid snapshot"

/-- A step that may change a session, or fail. -/
abbrev Act := ExceptT SessionError (StateM Session)

/-- The properties that the fields of a template are derived from. -/
def Property.isOfField : Property → Bool
  | .defaultValue | .metadataKey => true
  | _ => false

namespace Session

/-- A session on a library, nothing of it active. -/
def start (settings : Settings) (library : Library) : Session where
  settings := settings
  workspace := ⟨library, ∅⟩
  toggles := .all
  catalog := ∅
  fields := ∅
  active := none
  debounce := .start settings.debounceMs
  now := 0

/-! ## Steps -/

/-- An edit of the templates as a step of a session. -/
def edit {α : Type} (e : Edit α) : Act α := do
  let s ← get
  let (result, workspace) :=
    (e.run.run s.workspace : Except EditError α × Workspace)
  set { s with workspace := workspace }
  match result with
  | .ok a => return a
  | .error e => throw (.edit e)

/-- Takes note of an edit at the present time. -/
def noteEdit : Act Unit :=
  modify fun s => { s with debounce := s.debounce.note s.now }

/-- Goes on with other fields. -/
def setFields (fields : Bindings) : Act Unit :=
  modify fun s => { s with fields := fields }

/-- Goes on with another catalog. -/
def setCatalog (catalog : Catalog) : Act Unit :=
  modify fun s => { s with catalog := catalog }

/-- Has other classes of properties inherited from now on. -/
def setToggles (toggles : Toggles) : Act Unit :=
  modify fun s => { s with toggles := toggles }

/-- The id of the active template, if there is one. -/
def activeId : Act String := do
  match (← get).active with
  | some id => return id
  | none => throw .noActiveTemplate

/-! ## Templates -/

/-- Makes a template active. Its fields start anew from what its layers say, and
are catalogued as its parent has them. -/
def setActive (id : String) : Act Unit := do
  let t ← edit (Edit.template id)
  setFields (.ofCatalog (.ofTemplate t))
  let family := (← get).workspace.library.familyOf id
  let parent ← edit (Edit.template family)
  setCatalog (.ofTemplate parent)
  modify fun s => { s with active := some id }
  noteEdit

/-- Makes a child in the family of the active template, and makes it active. -/
def createChild (id? : Option String) (generated : String)
    (canvas? : Option Size) :
    Act String := do
  let active ← activeId
  let family := (← get).workspace.library.familyOf active
  let id ← edit (Edit.createChild family id? generated canvas?)
  setActive id
  return id

/-- Removes a child; its parent becomes active if the child was. -/
def removeChild (id : String) : Act Template := do
  let parent ← edit (Edit.parentOf id (.notAChild id))
  let t ← edit (Edit.removeChild id)
  if (← get).active = some id then
    setActive parent
  return t

/-! ## Properties and layers -/

/-- Gives the field of a layer the content that the layer says, after that has
changed. -/
def reseed (layer : String) : Act Unit := do
  let active ← activeId
  let t ← edit (Edit.template active)
  if (← get).workspace.library.isParent active then
    setCatalog (.ofTemplate t)
  match t.textLayer? layer with
  | some text => setFields ((← get).fields.reseed layer text)
  | none => return ()

/-- Gives the field of a layer its content if a property it depends on has
changed. -/
def reseedFor (p : Property) (layer : String) : Act Unit := do
  if p.isOfField then
    reseed layer

/-- Writes a property of the active template, and gives a field the content that
it now has. -/
def setProperty (layer : String) (p : Property) (v : Value) :
    Act EditReport := do
  let active ← activeId
  let report ← edit (Edit.setProperty active layer p v (← get).toggles)
  reseedFor p layer
  noteEdit
  return report

/-- Takes a property of the active template from its parent again, and gives a
field the content that it now has. -/
def resetProperty (layer : String) (p : Property) : Act Value := do
  let active ← activeId
  let v ← edit (Edit.resetProperty active layer p)
  reseedFor p layer
  noteEdit
  return v

/-- Adds a layer to the active template. The fields stay as they are. -/
def addLayer (l : Layer) : Act EditReport := do
  let active ← activeId
  let report ← edit (Edit.addLayer active l)
  noteEdit
  return report

/-- Deletes a layer of the active template. The fields stay as they are. -/
def deleteLayer (key : String) : Act Unit := do
  let active ← activeId
  edit (Edit.deleteLayer active key)
  noteEdit

/-- Takes a layer of the active template from its parent again, and gives its
field the content that it now has. -/
def resetLayer (key : String) : Act Unit := do
  let active ← activeId
  edit (Edit.resetLayer active key)
  reseed key
  noteEdit

/-- Where the value of a property of the active template comes from. -/
def badge (layer : String) (p : Property) : Act PropertyStatus := do
  let active ← activeId
  edit (Edit.propertyStatus active layer p)

/-! ## Fields -/

/-- Gives a field a literal. That of the background is the colour of the
canvas. -/
def setField (field value : String) : Act Unit := do
  if field = backgroundField then
    match Color.ofText? value with
    | .error e => throw (.invalidValue field e)
    | .ok c =>
      let _ ← setProperty canvasKey .backgroundColor (.color c)
  else
    noteEdit
  setFields ((← get).fields.setLiteral field value)

/-- The fields that a change of bindings gives, if it can be made. -/
def rebind (r : Except BindError Bindings) : Act Unit := do
  match r with
  | .ok fields => setFields fields
  | .error e => throw (.bind e)

/-- Binds a field to a key of the metadata. -/
def bindField (field key : String) : Act Unit := do
  rebind ((← get).fields.bindMetadata field key)
  noteEdit

/-- Releases a field; the answer is what it is now. -/
def unbindField (field : String) : Act Binding := do
  let s ← get
  rebind (s.fields.unbind field s.catalog)
  noteEdit
  return (← get).fields.getOrEmpty field

/-! ## What a session shows -/

/-- The active template, if there is one. -/
def activeTemplate (s : Session) : Except SessionError Template :=
  match s.active with
  | none => .error .noActiveTemplate
  | some id =>
    match s.workspace.library.get? id with
    | some t => .ok t
    | none => .error (.edit (.templateNotFound id))

/-- The plan of the active template, on its own canvas if none is given. -/
def plan (s : Session) (canvas? : Option Size) (asset : String) :
    Except SessionError Plan := do
  let t ← s.activeTemplate
  pure (.compile s.settings.compiler t s.fields (canvas?.getD t.canvas) asset)

/-- The string that the active template compiles to, on its own canvas if no
other is given. -/
def compile (s : Session) (canvas? : Option Size) (asset : String) :
    Except SessionError String := do
  let p ← s.plan canvas? asset
  pure p.transformation

/-- The commands of the active template read back, each with its layer. -/
def fragments (s : Session) (canvas? : Option Size) (asset : String) :
    Except SessionError (List Fragment) := do
  let p ← s.plan canvas? asset
  pure (Fragment.parse (.ofPlan p) p.transformation)

/-- The overlays of the active template in a picture that was rendered for a
canvas. -/
def overlays (s : Session) (rendered : Size) (v : Viewport) :
    Except SessionError (List Overlay) := do
  let t ← s.activeTemplate
  pure (Overlay.projectAll s.settings.geometry s.settings.compiler t s.fields
    t.canvas rendered v)

/-- Whether an edit waits for its compile. -/
def isPending (s : Session) : Bool :=
  s.debounce.isPending

/-- Compiles the active template at a time if edits have settled by then. -/
def poll (s : Session) (time : Nat) (asset : String) :
    Option (Except SessionError String) × Session :=
  let (due, debounce) := s.debounce.poll time
  (if due then some (s.compile none asset) else none, { s with
    debounce := debounce })

/-! ## Snapshots -/

/-- What is kept of a session when it is put aside. -/
def snapshot (s : Session) : Snapshot where
  library := s.workspace.library
  overrides := s.workspace.overrides
  toggles := s.toggles
  fields := s.fields
  active := s.active

/-- A session from what was kept of one. What was active has to be there, and
the fields are then those that were kept. -/
def ofSnapshot (settings : Settings) (p : Snapshot) :
    Except SessionError Session :=
  let s : Session :=
    { start settings p.library with
      workspace := ⟨p.library, p.overrides⟩
      toggles := p.toggles }
  match p.active with
  | none => .ok { s with fields := p.fields }
  | some id =>
    match ((setActive id).run.run s : Except SessionError Unit × Session) with
    | (.ok (), s) => .ok { s with fields := p.fields }
    | (.error e, _) => .error e

/-- A session from a token. -/
def restore (settings : Settings) (token : String) :
    Except SessionError Session :=
  match Snapshot.ofToken? token with
  | some p => ofSnapshot settings p
  | none => .error .snapshot

end Session

end Placard
