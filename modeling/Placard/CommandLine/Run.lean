import Placard.CommandLine.Arguments
import Placard.Overlay
import Placard.Render
import Placard.Wire.Fragment

/-!
# Running jobs

A job reads one template, or a folder of them, and answers with JSON. What the
job needs of the file system is looked up before, so that running it is a
function. A job that cannot be done answers with an error and an exit code of
its own kind: two where the template itself is at fault, one where it could not
be read.
-/

namespace Placard.CommandLine

open Json

/-- What the file system has under a path. The reasons are its own words. -/
inductive Entry where
  | file (text : String)
  | folder (files : Table (Except String String))
  | missing (reason : String)
  | unreadable (reason : String)

/-- What is left of a run. -/
inductive Outcome where
  /-- The arguments are not proper. -/
  | misused
  | done (answer : Json)
  | failed (code : UInt32) (answer : Json)

namespace Outcome

/-- What the program tells the caller when it ends: zero only for a task that is
done. -/
def exitCode : Outcome → UInt32
  | misused => 2
  | done _ => 0
  | failed code _ => code

/-- What is printed. Errors take one line. -/
def text : Outcome → String
  | misused => ""
  | done v => pretty v ++ "\n"
  | failed _ v => canonical v ++ "\n"

end Outcome

/-- An error, under the name of what it denies. -/
def refusal (denied : String) (message : String) : Json :=
  .object [(denied, .bool false), ("error", .string message)]

/-- The outcome of a job that cannot be started. -/
def failure (message : String) : Outcome :=
  .failed 1 (refusal "success" message)

/-- The text under a path, or why there is none. -/
def Entry.text? : Entry → Except String String
  | file text => .ok text
  | folder _ => .error "Is a directory (os error 21)"
  | missing reason => .error reason
  | unreadable reason => .error reason

/-- The template in a file, or a message that says why there is none. -/
def loadTemplate (look : String → Entry) (path : String) :
    Except String Template := do
  let text ← (look path).text?.mapError fun reason =>
    "Failed to read " ++ path ++ ": " ++ reason
  (Template.import? text).mapError ImportError.message

/-- The library in a folder, empty if there is none. -/
def loadLibrary : Entry → Except String Library
  | .folder files => Library.ofFolder files
  | .missing _ => .ok ∅
  | .file _ => .error "Not a directory (os error 20)"
  | .unreadable reason => .error reason

/-- The settings in a file, and the default ones where no file is named. -/
def loadSettings (look : String → Entry) :
    Option String → Except String Settings
  | none => .ok .default
  | some path => do
    let text ← (look path).text?.mapError fun reason =>
      "Failed to read config: " ++ reason
    (Settings.ofText? text).mapError SettingsError.message

/-- Where in a text a part of it ends, as people count lines and bytes. -/
def placeText (part : List Char) : String :=
  let line := part.count '\n' + 1
  let column := Text.byteLength (part.reverse.takeWhile (· != '\n'))
  "line " ++ Decimal.intText line ++ " column " ++ Decimal.intText column

/-- What a person is told of a fault in a text that is decoded. A member is
missed at the end of the object that lacks it. -/
def faultText (text : String) (e : Json.DecodeError) : String :=
  match e with
  | .missing _ behind =>
    let s := text.toList
    e.message ++ " at " ++ placeText (s.take (s.length - behind.length))
  | _ => e.message

/-- The content of fields that a text gives. -/
def readFields (text : String) : Except String Bindings :=
  (decodeText Bindings.decode (Text.symbols text)).mapError (faultText text)

/-- What the list of templates says of each of them. -/
def listing (t : Template) : Json :=
  .object [("canvas", .string t.canvas.text), ("id", .string t.id),
    ("layers", .int t.layers.length)]

/-- The content that a template gives its own fields. -/
def ownFields (t : Template) : Bindings :=
  .ofCatalog (.ofTemplate t)

/-! ## The five jobs -/

/-- Lists the templates of a folder. -/
def runTemplates (e : Entry) : Outcome :=
  match loadLibrary e with
  | .ok lib => .done (.array (lib.templates.values.map listing))
  | .error reason => failure ("Failed to load rule sets: " ++ reason)

/-- Checks the template in a file. One that cannot be imported is reported as
not valid. -/
def runValidate (e : Entry) : Outcome :=
  match e.text? with
  | .error reason => failure reason
  | .ok text =>
    match Template.import? text with
    | .ok t => .done t.check.toJson
    | .error e => .failed 2 (refusal "valid" e.message)

/-- Renders a template on its own, as the one parent of a library. -/
def runCompile (settings : Settings) (t : Template) (asset : String)
    (canvas : Option Size) (fields : Option Bindings) : Outcome :=
  match (∅ : Library).register t with
  | .error e => failure e.message
  | .ok lib =>
    match lib.render settings ⟨t.id, asset, canvas, fields⟩ with
    | .ok m => .done (.object [("manifest", m.toJson), ("success", .bool true)])
    | .error e => .failed 2 (refusal "success" e.message)

/-- Compiles a template and takes the string apart again. -/
def runParse (settings : Settings) (t : Template) (asset : String)
    (canvas : Option Size) : Outcome :=
  let plan :=
    Plan.compile settings.compiler t (ownFields t) (canvas.getD t.canvas) asset
  let fragments := Fragment.parse (.ofPlan plan) plan.transformation
  .done (.array (fragments.map Fragment.toJson))

/-- Projects the overlays of a template on its own canvas. -/
def runProject (settings : Settings) (t : Template) (rendered : Size)
    (scale : Float) : Outcome :=
  let overlays := Overlay.projectAll settings.geometry settings.compiler t
    (ownFields t) t.canvas rendered ⟨scale, 0, 0⟩
  .done (.array (overlays.map Overlay.toJson))

/-! ## All together -/

namespace Job

/-- The file or folder that the job reads. -/
def path : Job → String
  | templates dir => dir
  | validate rules => rules
  | compile rules _ _ _ => rules
  | parse rules _ _ => rules
  | project rules _ _ => rules

/-- What the job comes to on the files that are looked at. -/
def run (settings : Settings) (look : String → Entry) (job : Job) : Outcome :=
  let withTemplate (path : String) (f : Template → Outcome) : Outcome :=
    match loadTemplate look path with
    | .ok t => f t
    | .error message => failure message
  match job with
  | templates dir => runTemplates (look dir)
  | validate rules => runValidate (look rules)
  | compile rules asset canvas fields =>
    withTemplate rules fun t =>
      match fields.mapM readFields with
      | .ok fields => runCompile settings t asset canvas fields
      | .error reason => failure ("Invalid fields: " ++ reason)
  | parse rules asset canvas =>
    withTemplate rules fun t => runParse settings t asset canvas
  | project rules rendered scale =>
    withTemplate rules fun t => runProject settings t rendered scale

end Job

namespace Invocation

/-- The files and folders that a run looks at. -/
def paths (i : Invocation) : List String :=
  i.config.toList ++ [i.job.path]

/-- Runs a job with the settings that are named for it. -/
def run (i : Invocation) (look : String → Entry) : Outcome :=
  match loadSettings look i.config with
  | .ok settings => i.job.run settings look
  | .error message => failure message

end Invocation

end Placard.CommandLine
