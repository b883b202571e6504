import Placard.Proofs.Json.Refusing
import Placard.Proofs.Session.Tokens

/-!
# Tokens that are refused

The decoder of a font size refuses what is not positive, wherever it comes from.
So a token that has been made of a snapshot with such a size is not read back,
although all that is in it has been written down faithfully.
-/

namespace Placard

open Json Text Decimal

/-! ## Templates -/

theorem FontSize.refuses {size : FontSize} (hexact : Exact size.value)
    (hsize : ¬ 0 < size.value) : Refuses FontSize.decode size.toJson := by
  have htest : ¬ (size.value.isFinite && decide (0 < size.value)) = true := by
    rw [Bool.and_eq_true, decide_eq_true_eq]
    exact fun h => hsize h.2
  cases size with
  | px x =>
      rintro s rfl a h
      cases (if_neg htest).symm.trans h
  | percent share =>
      have htext : FontSize.ofText? (FontSize.percent share).text =
          .error (.fontSize (FontSize.percent share).text) :=
        (FontSize.ofText?_percent hexact).trans (if_neg htest)
      rintro s rfl a
      show BadValue.refuse (FontSize.ofText? (FontSize.percent share).text) ≠ _
      rw [htext]
      nofun

theorem Layer.refuses {l : Layer} {size : FontSize} (hl : size ∈ l.fontSize?)
    (h : Refuses FontSize.decode size.toJson) :
    Refuses Layer.decode l.toJson := by
  intro s hs m hm
  obtain ⟨ss, behind, hss, hdecode⟩ := decode_of_holds hs
  rw [hdecode] at hm
  obtain ⟨key, t | i⟩ := l
  · obtain rfl := Option.some.inj hl
    have hfields : TextLayer.fields.Has "fontSize" FontSize.decode :=
      ⟨false, rfl⟩
    have hmem : ("fontSize", t.fontSize.toJson) ∈ t.members := by
      simp [TextLayer.members]
    obtain ⟨u, hu, -⟩ := map_eq_ok.mp hm
    exact hfields.ofMembers_ne_ok hmem h hss (some behind) u hu
  · cases hl

theorem Template.refuses {t : Template} {size : FontSize}
    (ht : size ∈ t.fontSizes) (h : Refuses FontSize.decode size.toJson) :
    Refuses Template.decode t.toJson := by
  obtain ⟨l, hl, hsize⟩ := List.mem_filterMap.mp ht
  have hlayers :
      Refuses (decodeArray Layer.decode) (.array (t.layers.map Layer.toJson)) :=
    refuses_array (List.mem_map_of_mem hl) (Layer.refuses hsize h)
  exact Fields.Has.refuses ⟨true, rfl⟩
    (by decide : ["id", "width", "height", "backgroundColor", "layers"].Nodup)
    (show ("layers", Json.array (t.layers.map Layer.toJson)) ∈ _ by simp)
    hlayers

/-! ## Snapshots -/

theorem Library.refuses {lib : Library} {t : Template}
    (ht : t ∈ lib.templates.values) (h : Refuses Template.decode t.toJson) :
    Refuses Library.decode lib.toJson := by
  obtain ⟨e, he, rfl⟩ := List.mem_map.mp ht
  have htable :
      Refuses (decodeTable Template.decode)
        (.ofTable Template.toJson lib.templates) :=
    refuses_table he h
  exact Fields.Has.refuses ⟨false, rfl⟩
    (by decide : ["rule_sets", "children", "parents"].Nodup)
    List.mem_cons_self htable

namespace Snapshot

variable {p : Snapshot}

theorem refuses (h : Refuses Library.decode p.library.toJson) :
    Refuses Snapshot.decode p.toJson :=
  Fields.Has.refuses ⟨false, rfl⟩
    (by decide : ["store", "overrides", "toggles", "fields", "active"].Nodup)
    List.mem_cons_self h

/-- A token is refused where the size of a font is not positive. -/
theorem ofToken?_token_eq_none
    (hexact : ∀ t ∈ p.library.templates.values, ∀ x ∈ t.floats, Exact x)
    {t : Template} (ht : t ∈ p.library.templates.values) {size : FontSize}
    (hsize : size ∈ t.fontSizes) (hvalue : ¬ 0 < size.value) :
    ofToken? p.token = none := by
  have hsizes :=
    FontSize.refuses (hexact t ht _ (t.value_mem_floats hsize)) hvalue
  have hrefuses := refuses (Library.refuses ht (Template.refuses hsize hsizes))
  have hfaithful := (faithful hexact).mono (by decide : 7 ≤ maxDepth)
  rw [ofToken?_token_eq]
  cases h : decodeText decode (Text.symbols (compact p.toJson)) with
  | error e => rfl
  | ok q => exact absurd h (decodeText_compact_ne_ok hrefuses hfaithful q)

end Snapshot

end Placard
