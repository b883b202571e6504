import Placard.Digest.Base64
import Placard.Family.Edit
import Placard.Field.Binding
import Placard.Json.Printer

/-!
# Snapshots

What a session works on can be put aside as a token: JSON text in base 64, which
survives wherever plain text does. A token that is read gives the same content
back. The settings and the clock are no part of it.
-/

namespace Placard

open Json

/-- What is kept of a session. -/
structure Snapshot where
  library : Library
  overrides : Overrides
  toggles : Toggles
  fields : Bindings
  active : Option String
deriving DecidableEq

namespace Snapshot

/-- A snapshot in JSON. -/
def toJson (s : Snapshot) : Json :=
  .object [("store", s.library.toJson), ("overrides", s.overrides.toJson),
    ("toggles", s.toggles.toJson), ("fields", s.fields.toJson),
    ("active", .optional .string s.active)]

/-- A snapshot as it is written; there need be no active template. -/
def decode : Decoder Snapshot :=
  Fields.decode <|
    Snapshot.mk <$> .required "store" Library.decode
      <*> .required "overrides" Overrides.decode
      <*> .required "toggles" Toggles.decode
      <*> .required "fields" Bindings.decode
      <*> .optional "active" decodeString

/-- A snapshot as one text: its JSON without blanks in Base64. -/
def token (s : Snapshot) : String :=
  String.ofList (Digest.toBase64 (compact s.toJson).toUTF8.toList)

/-- The snapshot that a token holds. Blanks at its ends do not count. -/
def ofToken? (token : String) : Option Snapshot := do
  let bytes ← Digest.ofBase64? (Text.trimChars token.toList)
  (decodeText decode (Text.symbolsOfBytes ⟨bytes.toArray⟩)).toOption

end Snapshot

end Placard
