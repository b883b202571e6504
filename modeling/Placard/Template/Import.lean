import Placard.Json.Reader
import Placard.Template.Check
import Placard.Template.Codec
import Placard.Version

/-!
# Importing templates

A template arrives as JSON text, plain or in an envelope that states the version
of the format. What is read must also pass the check, so everything imported is
a valid template.
-/

namespace Placard

open Json

/-- The version of the format, and of the engine, that this library is. -/
def formatVersion : String := "1.0.0"

/-- Why a text, or a template, is not taken. -/
inductive ImportError where
  /-- It is not JSON, or an envelope that lacks a version. -/
  | notJson
  /-- The JSON value is no template. -/
  | malformed (e : DecodeError)
  /-- The template breaks rules. -/
  | rejected (violations : List Violation)
  /-- The envelope states a version that is not read. -/
  | unsupported (version : String)
  /-- There is a template of this name. -/
  | duplicate (id : String)
deriving DecidableEq

/-- The message of an error, as it is answered with. -/
def ImportError.message : ImportError → String
  | notJson => "Serialization error"
  | malformed e => "Malformed rule input: " ++ e.message
  | rejected violations => "Rule set rejected: " ++ violationsText violations
  | unsupported version =>
    "Unsupported format version " ++ version ++ ", engine reads " ++
      formatVersion
  | duplicate id => "Malformed rule input: Template already exists: " ++ id

/-- Whether templates of a format version are read: it is a semantic version of
the same major number. -/
def readsVersion (version : String) : Bool :=
  match Version.ofText? version, Version.ofText? formatVersion with
  | some theirs, some ours => theirs.major = ours.major
  | _, _ => false

/-- The value of the member of the given name in an object. -/
def memberOf? (name : String) : Json → Option Json
  | .object members => members.lookup name
  | _ => none

/-- The value that describes the template: what an envelope holds if there is
one, and otherwise the value itself. -/
def unwrap (v : Json) : Except ImportError Json :=
  match memberOf? "ruleSet" v with
  | none => .ok v
  | some body =>
    match memberOf? "formatVersion" v with
    | some (.string version) =>
      if readsVersion version then .ok body else .error (.unsupported version)
    | _ => .error .notJson

/-- The valid template that a text describes. -/
def Template.import? (text : String) : Except ImportError Template :=
  match ofText? text with
  | none => .error .notJson
  | some v => do
    let body ← unwrap v
    let t ← (Template.decode (.ofJson body)).mapError .malformed
    t.accept.mapError .rejected

end Placard
