import Placard.Proofs.Digest.Base64
import Placard.Proofs.Template.RoundTrip
import Placard.Proofs.Text.ByteOrder
import Placard.Session.Snapshot

/-!
# Tokens read back

A token is JSON text as bytes in base 64. Each of the three is read back, so a
token gives the snapshot that it was made from, if all that is in the snapshot
is decoded as what it was written from. That is so of everything but the numbers
of the templates and the sizes of their fonts.
-/

namespace Placard

open Json

/-! ## What stands beside the templates -/

theorem Toggles.decodes (t : Toggles) : Decodes Toggles.decode t.toJson t :=
  Fields.Takes.decodes
    (((Fields.takes_required "styleProps" (decodes_bool t.style)).map
      Toggles.mk).seq
      (Fields.takes_required "positionProps" (decodes_bool t.position)))
    (by decide : ["styleProps", "positionProps"].Nodup)

theorem PropertySet.ofPred_mem (s : PropertySet) :
    ofPred (fun p => p ∈ s.members) = s := by
  ext p
  rw [contains_ofPred, contains]

theorem PropertySet.decodes (s : PropertySet) :
    Decodes PropertySet.decode s.toJson s := by
  intro source hs
  have hmembers :
      decodeArray (decodeNamed Property.all Property.name Source.isNull)
        source = .ok s.members :=
      decodes_array (fun p _ => decodes_named (by cases p <;> decide)) source hs
  simp only [PropertySet.decode, hmembers, bind, Except.bind, s.ofPred_mem]
  rfl

theorem LayerFlags.decodes (f : LayerFlags) :
    Decodes LayerFlags.decode f.toJson f :=
  Fields.Takes.decodes
    (((Fields.takes_withDefault "wholeLayer" false (decodes_bool f.whole)).map
      LayerFlags.mk).seq
      (Fields.takes_withDefault "properties" ∅ f.properties.decodes))
    (by decide : ["wholeLayer", "properties"].Nodup)

theorem Overrides.decodes (o : Overrides) :
    Decodes Overrides.decode o.toJson o :=
  Fields.Takes.decodes
    ((Fields.takes_required "entries"
      (decodes_table fun e _ => decodes_table fun f _ => f.2.decodes)).map id)
    (by decide : ["entries"].Nodup)

theorem Binding.decodes (b : Binding) : Decodes Binding.decode b.toJson b :=
  Fields.Takes.decodes
    (((Fields.takes_required "fieldName" (decodes_string b.fieldName)).map
      Binding.mk)
      |>.seq (Fields.takes_required "currentLiteral"
        (decodes_string b.currentLiteral))
      |>.seq (Fields.takes_required "isMetadataBound"
        (decodes_bool b.isMetadataBound))
      |>.seq (Fields.takes_required "metadataKey"
        (decodes_string b.metadataKey))
      |>.seq (Fields.takes_withDefault "savedLiteralBeforeBinding" none
        (string_decodes b.savedLiteral)))
    (show ["fieldName", "currentLiteral", "isMetadataBound", "metadataKey",
      "savedLiteralBeforeBinding"].Nodup by decide)

theorem Bindings.decodes (bs : Bindings) :
    Decodes Bindings.decode bs.toJson bs :=
  Fields.Takes.decodes
    ((Fields.takes_required "fields" (decodes_table fun e _ => e.2.decodes)).map
      id)
    (by decide : ["fields"].Nodup)

/-! ## Snapshots -/

/-- The numbers of the templates are read back, and so are the sizes of their
fonts. -/
structure Library.Readable (lib : Library) : Prop where
  floats : ∀ t ∈ lib.templates.values, ∀ x ∈ t.floats, Exact x
  fontSizes : ∀ t ∈ lib.templates.values, ∀ size ∈ t.fontSizes, size.Sound

theorem Library.decodes {lib : Library} (h : lib.Readable) :
    Decodes Library.decode lib.toJson lib :=
  Fields.Takes.decodes
    (((Fields.takes_required "rule_sets" (decodes_table fun e he =>
        Template.decodes (h.fontSizes e.2 (List.mem_map_of_mem he)))).map
          Library.mk)
      |>.seq (Fields.takes_required "children" (decodes_table fun e _ =>
        decodes_array fun id _ => decodes_string id))
      |>.seq (Fields.takes_required "parents"
        (decodes_table fun e _ => decodes_string e.2)))
    (by decide : ["rule_sets", "children", "parents"].Nodup)

namespace Snapshot

variable {p : Snapshot}

theorem decodes (h : p.library.Readable) : Decodes Snapshot.decode p.toJson p :=
  Fields.Takes.decodes
    (((Fields.takes_required "store" (Library.decodes h)).map Snapshot.mk)
      |>.seq (Fields.takes_required "overrides" p.overrides.decodes)
      |>.seq (Fields.takes_required "toggles" p.toggles.decodes)
      |>.seq (Fields.takes_required "fields" p.fields.decodes)
      |>.seq (Fields.takes_optional "active" (string_decodes p.active)))
    (by decide : ["store", "overrides", "toggles", "fields", "active"].Nodup)

/-- The deepest of it are the parts of a layer: a snapshot holds a library, that
a table of templates, and these a list of layers. -/
theorem faithful
    (h : ∀ t ∈ p.library.templates.values, ∀ x ∈ t.floats, Exact x) :
    p.toJson.Faithful 7 := by
  have htemplate (e : String × Template)
      (he : e ∈ p.library.templates.entries) : e.2.toJson.Faithful 4 :=
    Template.faithful (h e.2 (List.mem_map_of_mem he))
  rw [toJson, faithful_object]
  simp only [List.forall_mem_cons, Library.toJson, Overrides.toJson,
    Toggles.toJson, Bindings.toJson, LayerFlags.toJson, PropertySet.toJson,
    Binding.toJson, faithful_object, faithful_ofTable, faithful_array,
    faithful_optional, faithful_string, faithful_bool, List.forall_mem_map]
  refine ⟨⟨htemplate, ?_⟩, ?_⟩ <;> simp

/-- What a token gives is what is decoded from the text that it was made
from. -/
theorem ofToken?_token_eq (p : Snapshot) :
    ofToken? p.token =
      (decodeText decode (Text.symbols (compact p.toJson))).toOption := by
  have htrim (bytes : List UInt8) :
      Text.trimChars (Digest.toBase64 bytes) = Digest.toBase64 bytes :=
    trimChars_eq_self fun _ => Digest.not_isBlank_of_mem_toBase64
  rw [token, ofToken?, String.toList_ofList, htrim, Digest.ofBase64?_toBase64]
  simp only [Option.bind_eq_bind, Option.bind_some, Text.symbolsOfBytes_toUTF8]

/-- A token gives the snapshot that it was made from. -/
theorem ofToken?_token (h : p.library.Readable) :
    ofToken? p.token = some p := by
  have hfaithful := (faithful h.floats).mono (by decide : 7 ≤ maxDepth)
  rw [ofToken?_token_eq, decodeText_compact (decodes h) hfaithful]
  rfl

end Snapshot

end Placard
