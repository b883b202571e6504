import Placard.Wire.Derivation
import Placard.Wire.Placement

/-!
# Plans

A template is compiled to a string of commands with a slash between every two of
them: the asset, the variables, the canvas, and then for every layer that shows
something what it shows and where that goes. A plan is that string in parts,
each with the layer it came from, so that the string can be read back.

An asset's path is one token: its parts are escaped and joined by colons. A
font's name is split into words; those that name a style are put behind the
size, in lower case and in their order, and the others, escaped, are the family.
-/

namespace Placard

open Text Decimal

/-! ## Tokens of assets and fonts -/

namespace Token

/-- The path of an asset as one token. -/
def assetChars (path : List Char) : List Char :=
  join ':' ((split '/' path).map escapeChars)

@[inherit_doc assetChars]
def asset (path : String) : String :=
  String.ofList (assetChars path.toList)

/-- The words that name a style of a font. -/
def styleWords : List String :=
  ["thin", "extralight", "light", "normal", "medium", "semibold", "bold",
   "extrabold", "black", "italic", "oblique", "underline"]

/-- The words of a font's name that name styles, in lower case. -/
def styles (words : List String) : List String :=
  (words.map lowercase).filter fun w => w ∈ styleWords

/-- The words of a font's name that name no style. -/
def family (words : List String) : List String :=
  words.filter fun w => lowercase w ∉ styleWords

/-- A font of a size, with its styles. -/
def font (name : String) (size : Float) : String :=
  let ws := (words name.toList).map String.ofList
  let family := match family ws with
    | [] => "Arial"
    | ws => escape (" ".intercalate ws)
  family ++ "_" ++ Decimal.wireNumber size ++
    String.join ((styles ws).map fun s => "_" ++ s)

end Token

/-! ## Plans -/

/-- What a command is for. -/
inductive SegmentKind where
  | assetBinding
  | definition
  | canvas
  | textContent
  | imageContent
  | apply
  | generic
deriving DecidableEq

/-- The name of what a command is for, as it is reported. -/
def SegmentKind.token : SegmentKind → String
  | assetBinding => "asset_binding"
  | definition => "variable"
  | canvas => "canvas"
  | textContent => "text_content"
  | imageContent => "image_content"
  | apply => "apply"
  | generic => "generic"

/-- One command, with the layer it came from. -/
structure Segment where
  tokens : String
  provenance : Option String
  kind : SegmentKind
deriving DecidableEq

/-- What a layer becomes: a command for what it shows, and one that applies
it. -/
structure Emission where
  key : String
  kind : SegmentKind
  content : String
  apply : String
  /-- The part of the content that tells layers apart: the text, or the
  asset. -/
  identifier : String
deriving DecidableEq

/-- The two commands of a layer, each with its key. -/
def Emission.segments (e : Emission) : List Segment :=
  [⟨e.content, some e.key, e.kind⟩, ⟨e.apply, some e.key, .apply⟩]

/-- A compiled template, part by part. -/
structure Plan where
  asset : Segment
  bindings : List Segment
  canvas : Segment
  layers : List Emission
  /-- The variables that are defined, each with the layer that defines it. -/
  «variables» : List (String × Variable)
deriving DecidableEq

/-- The variable that holds the asset. -/
def subjectVariable : String := "$subject"

/-- What compiling depends on besides the template. -/
structure CompilerSettings where
  /-- The width of the canvas that templates are written for. -/
  baseWidth : UInt32
  /-- The base font size where the first text layer gives none. -/
  defaultBaseFontSize : Float
deriving DecidableEq

/-- The width that a text is wrapped at, if it is. -/
def TextLayer.wrapLimit? (text : TextLayer) : Option Float :=
  if text.wrap then text.wrapWidth.filter fun w => 0 < w else none

namespace Plan

/-! ## Variables -/

/-- The variables defined so far: their commands with the layers they are for,
their names, and the fields they hold. -/
structure Definitions where
  commands : List (String × Command)
  «variables» : List (String × Variable)
  fields : List String

/-- The expression for the field of a text layer; `sources` are the layers that
others are derived from. -/
def expressionFor (bs : Bindings) (kept : Derivations) (sources : List String)
    (key : String) (text : TextLayer) (target : Variable) : Expression :=
  match kept.get? key with
  | some d => d.expression
  | none => Expression.ofBinding (bs.resolve key text) target (key ∈ sources)

/-- The definitions with that of the layer under a key behind them, unless its
field is inlined or has been defined by another layer. -/
def Definitions.add (t : Template) (bs : Bindings) (kept : Derivations)
    (sources : List String) (ds : Definitions) (key : String) : Definitions :=
  match t.textLayer? key with
  | none => ds
  | some text =>
    let field := text.field key
    match t.variables.get? field with
    | none => ds
    | some target =>
      let e := expressionFor bs kept sources key text target
      match e.target? with
      | none => ds
      | some v =>
        if field ∈ ds.fields then ds
        else
          { commands := ds.commands ++ e.commands.map fun c => (key, c)
            «variables» := ds.variables ++ [(key, v)]
            fields := field :: ds.fields }

/-- The definitions of all variables, in the order of the wire. -/
def definitions (t : Template) (bs : Bindings) : Definitions :=
  let kept := t.keptDerivations bs
  let sources := kept.values.map Derivation.source
  (t.definitionOrder kept).foldl (Definitions.add t bs kept sources)
  ⟨[], [], []⟩

/-! ## Layers -/

/-- What a text layer shows, escaped: its lead, the variable of its field or
else the literal, and its trail. -/
def payload (text : TextLayer) (literal : String) (defined? : Option Variable) :
    String :=
  let core := match defined? with
    | some v => v.reference
    | none => escape literal
  escape text.lead ++ core ++ escape text.trail

/-- The parameters of the command that shows a text. -/
def textParameters (text : TextLayer) (baseFontSize : Float)
    (payload : String) : List String :=
  let wrap := match text.wrapLimit? with
    | some width => ["c_fit", "w_" ++ intText (toInt64 width)]
    | none => []
  let flags :=
    (if text.flags.noOverflow then ["fl_no_overflow"] else []) ++
      (if text.flags.disallowOverflow then ["fl_text_disallow_overflow"] else
        [])
  let font := Token.font text.font (text.fontSize.resolve baseFontSize)
  wrap ++ ["co_rgb:" ++ text.color.hex] ++ flags ++
    ["l_text:" ++ font ++ ":" ++ payload]

/-- The commands of a text layer, unless it shows nothing. -/
def emitText? (key : String) (text : TextLayer) (literal : String)
    (defined? : Option Variable) (baseFontSize ratio : Float) :
    Option Emission :=
  let payload := payload text literal defined?
  if payload.isEmpty then none
  else some {
    key := key
    kind := .textContent
    content := ",".intercalate (textParameters text baseFontSize payload)
    apply := (Placement.compute text.x text.y text.gravity ratio).command
    identifier := payload }

/-- What an image layer shows: its own asset, or the one that is rendered. -/
def imageToken (image : ImageLayer) : String :=
  match image.assetId.filter fun a => !a.isEmpty with
  | some a => Token.asset a
  | none => subjectVariable

/-- A side of a picture on the canvas: at least one pixel. -/
def imageSide (side ratio : Float) : Int :=
  max 1 (scaled side ratio)

/-- The commands of an image layer, if it is shown. -/
def emitImage? (key : String) (image : ImageLayer) (ratio : Float) :
    Option Emission :=
  if !image.shown then none
  else some {
    key := key
    kind := .imageContent
    content := "l_" ++ imageToken image ++ ",c_fit,w_" ++
      intText (imageSide image.width ratio) ++ ",h_" ++
      intText (imageSide image.height ratio)
    apply := (Placement.compute image.x image.y image.gravity ratio).command
    identifier := imageToken image }

/-- The commands of a layer; `defined` are the fields that have a variable. -/
def emit? (t : Template) (bs : Bindings) (defined : List String)
    (baseFontSize ratio : Float) (l : Layer) : Option Emission :=
  match l.body with
  | .text text =>
    let field := text.field l.key
    let defined? := if field ∈ defined then t.variables.get? field else none
    emitText? l.key text (bs.resolve l.key text).currentLiteral defined?
      baseFontSize ratio
  | .image image => emitImage? l.key image ratio

/-! ## The whole -/

/-- The size that percentages refer to: the template's own, or the configured
one where it has none. -/
def baseFontSize (t : Template) (settings : CompilerSettings) : Float :=
  t.baseFontSize?.getD settings.defaultBaseFontSize

/-- The command that names the asset. -/
def assetSegment (asset : String) : Segment :=
  ⟨subjectVariable ++ "_!" ++ Token.asset asset ++ "!", none, .assetBinding⟩

/-- The command for the canvas: its colour and its sides. -/
def canvasSegment (background : Color) (canvas : Size) : Segment :=
  ⟨"b_rgb:" ++ background.hex ++ ",c_pad,w_" ++ Size.sideText canvas.width ++
    ",h_" ++ Size.sideText canvas.height, some canvasKey, .canvas⟩

/-- The plan of a template with the content of its fields, on a canvas, over an
asset. -/
def compile (settings : CompilerSettings) (t : Template) (bs : Bindings)
    (canvas : Size) (asset : String) : Plan :=
  let ds := definitions t bs
  let ratio := scaleRatio canvas settings.baseWidth
  { asset := assetSegment asset
    bindings := ds.commands.map fun (key, c) => ⟨c.text, some key, .definition⟩
    canvas := canvasSegment t.background canvas
    layers := t.drawOrder.filterMap
      (emit? t bs ds.fields (baseFontSize t settings) ratio)
    «variables» := ds.variables }

/-- The commands of a plan in their order. -/
def segments (p : Plan) : List Segment :=
  p.asset :: p.bindings ++ p.canvas :: p.layers.flatMap Emission.segments

/-- The compiled string. -/
def transformation (p : Plan) : String :=
  "/".intercalate (p.segments.map Segment.tokens)

end Plan

/-- A command in JSON. -/
def Segment.toJson (s : Segment) : Json :=
  .object [("tokens", .string s.tokens),
    ("provenanceKey", .optional .string s.provenance),
    ("kind", .string s.kind.token)]

end Placard
