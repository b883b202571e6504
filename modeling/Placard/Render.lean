import Placard.Digest.Sha256
import Placard.Family.Library
import Placard.Json.Printer
import Placard.Settings

/-!
# Rendering

To render a template is to compile it for an asset and to say where the renderer
will have the picture. Only valid templates are rendered. What was rendered is
identified by a digest of the template and the compiled commands.
-/

namespace Placard

/-- What is asked of a renderer. -/
structure RenderRequest where
  templateId : String
  /-- The path of the asset, without extension. -/
  assetId : String
  /-- The canvas, if it is not that of the template. -/
  canvas : Option Size
  /-- The content of the fields, if it is not what the family's parent says. -/
  fields : Option Bindings
deriving DecidableEq

/-- Why nothing is rendered. -/
inductive RenderError where
  | templateNotFound (id : String)
  | invalid (violations : List Violation)
  | missingAsset (id : String)
deriving DecidableEq

/-- The message of an error, as it is answered with. -/
def RenderError.message : RenderError → String
  | templateNotFound id => "Template not found: " ++ id
  | invalid violations => "Validation failed: " ++ violationsText violations
  | missingAsset id => "No asset given for template " ++ id

/-- What a template is rendered as, and all that this depends on. -/
structure Manifest where
  templateId : String
  engineVersion : String
  canvas : Size
  templateHash : String
  digest : String
  transformation : String
  url : String
  validation : Report
  segments : List Segment
deriving DecidableEq

/-! ## Digests -/

/-- The hash of a template: that of its canonical JSON text. -/
def Template.hash (t : Template) : String :=
  Digest.sha256 (Json.canonical t.toJson)

/-- What the digest of a rendering is taken of. -/
def renderKey (templateId templateHash transformation engineVersion : String) :
    String :=
  ":".intercalate [templateId, templateHash, transformation, engineVersion]

/-- The digest of what a picture depends on. -/
def renderDigest
    (templateId templateHash transformation engineVersion : String) : String :=
  Digest.sha256 (renderKey templateId templateHash transformation engineVersion)

/-! ## Addresses -/

/-- A text without the slashes at its end. -/
def dropTrailingSlashes (s : List Char) : List Char :=
  (s.reverse.dropWhile (· == '/')).reverse

/-- A text without the slashes at its ends. -/
def stripSlashes (s : List Char) : List Char :=
  dropTrailingSlashes (s.dropWhile (· == '/'))

/-- Where the renderer has a picture: the base, the commands, and the path of
the asset with its extension. -/
def RendererSettings.urlFor (r : RendererSettings)
    (transformation asset : String) : String :=
  String.ofList (dropTrailingSlashes r.baseUrl.toList) ++ "/" ++
    transformation ++
    "/" ++ String.ofList (stripSlashes asset.toList) ++ "." ++ r.extension

/-! ## Rendering -/

namespace Library

/-- What is found on the template of an id, which has to be there. -/
def check (lib : Library) (id : String) : Except RenderError Report :=
  match lib.get? id with
  | some t => .ok t.check
  | none => .error (.templateNotFound id)

/-- The content of the fields of a request: what it gives or, if it gives none,
what the parent of the template's family says. -/
def requestFields (lib : Library) (r : RenderRequest) :
    Except RenderError Bindings :=
  match r.fields with
  | some fields => .ok fields
  | none =>
    let family := lib.familyOf r.templateId
    match lib.get? family with
    | some parent => .ok (.ofCatalog (.ofTemplate parent))
    | none => .error (.templateNotFound family)

/-- The template of a request rendered. It has to be valid, and an asset has to
be named. -/
def render (lib : Library) (s : Settings) (r : RenderRequest) :
    Except RenderError Manifest :=
  match lib.get? r.templateId with
  | none => .error (.templateNotFound r.templateId)
  | some t =>
    if !t.check.valid then .error (.invalid t.violations)
    else if Text.allBlank r.assetId then .error (.missingAsset r.templateId)
    else do
      let fields ← lib.requestFields r
      let canvas := r.canvas.getD t.canvas
      let plan := Plan.compile s.compiler t fields canvas r.assetId
      let transformation := plan.transformation
      pure {
        templateId := r.templateId
        engineVersion := formatVersion
        canvas := canvas
        templateHash := t.hash
        digest := renderDigest r.templateId t.hash transformation formatVersion
        transformation := transformation
        url := s.renderer.urlFor transformation r.assetId
        validation := t.check
        segments := plan.segments }

/-- What is rendered is the plan of a valid template with the content of the
request, over an asset that has a name, and whatever has these is rendered. -/
theorem render_eq_ok_iff {lib : Library} {s : Settings} {r : RenderRequest}
    {m : Manifest} :
    lib.render s r = .ok m ↔
      ∃ t fields, lib.get? r.templateId = some t ∧ t.check.valid = true ∧
        Text.allBlank r.assetId = false ∧ lib.requestFields r = .ok fields ∧
        let canvas := r.canvas.getD t.canvas
        let plan := Plan.compile s.compiler t fields canvas r.assetId
        m = {
          templateId := r.templateId
          engineVersion := formatVersion
          canvas := canvas
          templateHash := t.hash
          digest :=
            renderDigest r.templateId t.hash plan.transformation formatVersion
          transformation := plan.transformation
          url := s.renderer.urlFor plan.transformation r.assetId
          validation := t.check
          segments := plan.segments } := by
  constructor
  · intro h
    unfold render at h
    split at h
    · cases h
    · next t ht =>
      split at h
      · cases h
      · next hvalid =>
        split at h
        · cases h
        · next hasset =>
          cases hfields : lib.requestFields r with
          | error e =>
            rw [hfields] at h
            cases h
          | ok fields =>
            rw [hfields] at h
            cases h
            exact ⟨t, fields, ht, by simpa using hvalid, by simpa using hasset,
              rfl, rfl⟩
  · rintro ⟨t, fields, ht, hvalid, hasset, hfields, rfl⟩
    simp only [render, ht, hvalid, hasset, hfields, Bool.not_true,
      Bool.false_eq_true, if_false]
    rfl

end Library

/-! ## JSON -/

open Json in
/-- A request as it is written; canvas and fields may be left out. -/
def RenderRequest.decode : Decoder RenderRequest :=
  Fields.decode <|
    RenderRequest.mk <$> .required "templateId" decodeString
      <*> .required "assetId" decodeString
      <*> .withDefault "canvas" none (decodeOptional Size.decode)
      <*> .withDefault "fields" none (decodeOptional Bindings.decode)

/-- A manifest in JSON. -/
def Manifest.toJson (m : Manifest) : Json :=
  .object [("templateId", .string m.templateId),
    ("engineVersion", .string m.engineVersion), ("canvas", m.canvas.toJson),
    ("ruleSetHash", .string m.templateHash), ("digest", .string m.digest),
    ("transformation", .string m.transformation), ("url", .string m.url),
    ("validation", m.validation.toJson),
    ("segments", .array (m.segments.map Segment.toJson))]

end Placard
