import Placard.Decimal.Layout
import Placard.Json.Value
import Placard.Template.Basic

/-!
# Checking templates

Five rules look a template over and report what they find, each in the order of
the layers. Errors keep a template out of every library: a canvas without area,
a key that is blank, reserved or taken, a position that is no number, a picture
without area. Warnings do not: a calculation that cannot be followed is dropped
when the template is compiled, and a logo without asset shows the subject.
-/

namespace Placard

open Text

/-- How bad a violation is: a template with an error is not taken, one with a
warning is. -/
inductive Severity where
  | error
  | warning
deriving DecidableEq

/-- One finding of one rule. -/
structure Violation where
  rule : String
  severity : Severity
  message : String
  layer : Option String
  remedy : String
deriving DecidableEq

/-- What all rules found in a template. -/
structure Report where
  valid : Bool
  violations : List Violation
  templateId : String
deriving DecidableEq

namespace Check

/-- Both sides of the canvas are positive. -/
def canvasViolations (t : Template) : List Violation :=
  if 0 < t.width ∧ 0 < t.height then []
  else [{
    rule := "canvas_dimensions"
    severity := .error
    message := "Canvas must be positive, got " ++ t.canvas.text
    layer := none
    remedy := "Set width and height to at least 1 pixel" }]

/-- A layer whose key is blank. -/
def blankKey : Violation where
  rule := "layer_keys"
  severity := .error
  message := "Layer key is empty"
  layer := none
  remedy := "Give every layer a unique key"

/-- A layer whose key stands for the canvas. -/
def reservedKey (key : String) : Violation where
  rule := "layer_keys"
  severity := .error
  message := "Layer key " ++ canvasKey ++ " is reserved for canvas properties"
  layer := some key
  remedy := "Rename the layer"

/-- A layer whose key an earlier one has. -/
def takenKey (key : String) : Violation where
  rule := "layer_keys"
  severity := .error
  message := "Duplicate layer key " ++ key
  layer := some key
  remedy := "Give every layer a unique key"

/-- Keys are not blank, not reserved, and each is there once; `seen` holds those
of the layers before. -/
def keyViolations (seen : List String) : List Layer → List Violation
  | [] => []
  | l :: rest =>
    if allBlank l.key then blankKey :: keyViolations seen rest
    else if l.key = canvasKey then reservedKey l.key :: keyViolations seen rest
    else if l.key ∈ seen then takenKey l.key :: keyViolations seen rest
    else keyViolations (l.key :: seen) rest

/-- Whether both coordinates of a layer are finite. -/
def finitePosition (l : Layer) : Bool :=
  match l.body with
  | .text t => t.x.isFinite && t.y.isFinite
  | .image i => i.x.isFinite && i.y.isFinite

/-- Positions are finite and pictures have an area. -/
def geometryViolations (l : Layer) : List Violation :=
  let position :=
    if finitePosition l then []
    else [{
      rule := "layer_geometry"
      severity := .error
      message := "Layer position is not a finite number"
      layer := some l.key
      remedy := "Provide numeric x and y" }]
  let area := match l.body with
    | .text _ => []
    | .image i =>
      if 0 < i.width && 0 < i.height then []
      else [{
        rule := "layer_geometry"
        severity := .error
        message := "Image size must be positive, got " ++
          Decimal.plain.render i.width ++ "x" ++ Decimal.plain.render i.height
        layer := some l.key
        remedy := "Set image width and height" }]
  position ++ area

/-- A calculation depends on another text layer and has a formula that can be
read. -/
def referenceViolations (t : Template) (key : String) (text : TextLayer) :
    List Violation :=
  match text.calculation with
  | none => []
  | some c =>
    let target :=
      if (t.textLayer? c.dependsOn).isSome ∧ c.dependsOn ≠ key then []
      else [{
        rule := "references"
        severity := .warning
        message := "Calculation depends on unknown text layer " ++ c.dependsOn
        layer := some key
        remedy := "Point dependsOn at an existing text layer" }]
    let formula :=
      if c.steps?.isSome then []
      else [{
        rule := "references"
        severity := .warning
        message := (BadValue.formula c.formula).message
        layer := some key
        remedy := "Use '<op> <number>' pairs such as '* 0.8'" }]
    target ++ formula

/-- A logo has an asset of its own. -/
def roleViolations (l : Layer) : List Violation :=
  match l.body with
  | .text _ => []
  | .image i =>
    if i.role = some .logo ∧ i.assetId = none then
      [{
        rule := "roles"
        severity := .warning
        message := "Logo layer has no fixed asset and will show the subject"
        layer := some l.key
        remedy := "Assign an assetId to the logo layer" }]
    else []

end Check

namespace Template

/-- All that is found on a template, rule by rule and within a rule layer by
layer. -/
def violations (t : Template) : List Violation :=
  Check.canvasViolations t ++ Check.keyViolations [] t.layers ++
    t.layers.flatMap Check.geometryViolations ++
    t.textLayers.flatMap (fun (key, text) => Check.referenceViolations t
      key text) ++
    t.layers.flatMap Check.roleViolations

/-- What keeps a template from being taken. -/
def errors (t : Template) : List Violation :=
  t.violations.filter fun v => v.severity = .error

/-- The report on a template; it is valid if no finding is an error. -/
def check (t : Template) : Report where
  valid := t.errors.isEmpty
  violations := t.violations
  templateId := t.id

/-- The template itself if it is valid, and otherwise its errors. -/
def accept (t : Template) : Except (List Violation) Template :=
  if t.check.valid then .ok t else .error t.errors

end Template

/-- The findings with their rules, on one line. -/
def violationsText (vs : List Violation) : String :=
  "; ".intercalate (vs.map fun v => v.rule ++ ": " ++ v.message)

/-- The name of a severity, as it is reported. -/
def Severity.token : Severity → String
  | error => "error"
  | warning => "warning"

open Json in
/-- A violation in JSON. -/
def Violation.toJson (v : Violation) : Json :=
  .object [("rule", .string v.rule), ("severity", .string v.severity.token),
    ("message", .string v.message), ("layer", .optional .string v.layer),
    ("remediation", .array [.string v.remedy])]

open Json in
/-- A report in JSON. -/
def Report.toJson (r : Report) : Json :=
  .object [("valid", .bool r.valid),
    ("violations", .array (r.violations.map Violation.toJson)),
    ("rule_set_id", .string r.templateId)]

end Placard
