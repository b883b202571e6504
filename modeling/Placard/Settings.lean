import Placard.Overlay
import Placard.Template.Codec

/-!
# Settings

The settings of the engine, read from JSON. Every one has a default, so a text
may state only some of them; the numbers that others are divided or multiplied
by must be positive.
-/

namespace Placard

open Json

/-- Where rendered pictures are found. -/
structure RendererSettings where
  baseUrl : String
  extension : String
deriving DecidableEq

/-- All that can be configured. -/
structure Settings where
  compiler : CompilerSettings
  geometry : GeometrySettings
  renderer : RendererSettings
  /-- How long edits rest before they are compiled, in milliseconds. -/
  debounceMs : Nat
deriving DecidableEq

/-- The compiler's settings where none are given. -/
def CompilerSettings.default : CompilerSettings := ⟨500, 32⟩

/-- The settings for overlays where none are given. -/
def GeometrySettings.default : GeometrySettings := ⟨0.6, 1.2, 120, 40⟩

/-- Where rendered pictures are found if it is not said. -/
def RendererSettings.default : RendererSettings :=
  ⟨"https://res.cloudinary.com/demo/image/upload", "jpg"⟩

/-- The settings where none are given. -/
def Settings.default : Settings :=
  ⟨.default, .default, .default, 300⟩

/-- Why settings are not taken. -/
inductive SettingsError where
  /-- The text is not JSON, or a setting is of the wrong kind. -/
  | unreadable
  /-- A setting has a value that it cannot have. -/
  | invalid (reason : String)
deriving DecidableEq

/-- The message of an error, without the place in the text. -/
def SettingsError.message : SettingsError → String
  | unreadable => "Failed to parse config"
  | invalid reason => "Invalid config: " ++ reason

/-- The compiler's settings in JSON. -/
def CompilerSettings.toJson (s : CompilerSettings) : Json :=
  .object [("baseWidth", .int s.baseWidth.toNat),
    ("defaultBaseFontSize", .real s.defaultBaseFontSize)]

/-- The compiler's settings as they are written; what is left out has its
default. -/
def CompilerSettings.decode : Decoder CompilerSettings :=
  Fields.decode <|
    CompilerSettings.mk
      <$> .withDefault "baseWidth" CompilerSettings.default.baseWidth
      decodeUInt32
      <*> .withDefault "defaultBaseFontSize"
        CompilerSettings.default.defaultBaseFontSize decodeFloat

/-- The settings for overlays in JSON. -/
def GeometrySettings.toJson (s : GeometrySettings) : Json :=
  .object [("widthMultiplier", .real s.widthMultiplier),
    ("lineHeight", .real s.lineHeight),
    ("placeholderWidth", .real s.placeholderWidth),
    ("placeholderHeight", .real s.placeholderHeight)]

/-- The settings for overlays as they are written; what is left out has its
default. -/
def GeometrySettings.decode : Decoder GeometrySettings :=
  let d := GeometrySettings.default
  Fields.decode <|
    GeometrySettings.mk <$> .withDefault "widthMultiplier" d.widthMultiplier
      decodeFloat <*> .withDefault "lineHeight" d.lineHeight decodeFloat
      <*> .withDefault "placeholderWidth" d.placeholderWidth decodeFloat
      <*> .withDefault "placeholderHeight" d.placeholderHeight decodeFloat

/-- Where rendered pictures are found, in JSON. -/
def RendererSettings.toJson (s : RendererSettings) : Json :=
  .object [("baseUrl", .string s.baseUrl), ("extension", .string s.extension)]

/-- Where rendered pictures are found, as it is written; what is left out has
its default. -/
def RendererSettings.decode : Decoder RendererSettings :=
  let d := RendererSettings.default
  Fields.decode <|
    RendererSettings.mk <$> .withDefault "baseUrl" d.baseUrl decodeString
      <*> .withDefault "extension" d.extension decodeString

namespace Settings

/-- The settings in JSON. -/
def toJson (s : Settings) : Json :=
  .object [("compiler", s.compiler.toJson), ("geometry", s.geometry.toJson),
    ("renderer", s.renderer.toJson), ("debounceMs", .int s.debounceMs)]

/-- The settings as they are written; what is left out has its default. -/
def decode : Decoder Settings :=
  Fields.decode <|
    Settings.mk <$> .withDefault "compiler" .default CompilerSettings.decode
      <*> .withDefault "geometry" .default GeometrySettings.decode
      <*> .withDefault "renderer" .default RendererSettings.decode
      <*> .withDefault "debounceMs" Settings.default.debounceMs decodeNat64

/-- The settings themselves if their numbers are positive. -/
def accept (s : Settings) : Except SettingsError Settings :=
  if s.compiler.baseWidth = 0 then
    .error (.invalid "compiler.baseWidth must be positive")
  else if !(0 < s.compiler.defaultBaseFontSize) then
    .error (.invalid "compiler.defaultBaseFontSize must be positive")
  else if !(0 < s.geometry.widthMultiplier && 0 < s.geometry.lineHeight) then
    .error (.invalid "geometry multipliers must be positive")
  else .ok s

/-- The settings in a text, if they can be read from it and are in range. -/
def ofText? (text : String) : Except SettingsError Settings :=
  match decodeText decode (Text.symbols text) with
  | .error _ => .error .unreadable
  | .ok s => s.accept

end Settings

end Placard
