import Placard.Proofs.Template.RoundTrip
import Placard.Proofs.Version
import Placard.Template.Import

/-!
# What is exported is imported

The text of a valid template is imported as that template, plain, in normal
form, or in an envelope that states a version of the format with the major
number of this library. An envelope that states anything else is refused for
that, whatever is in it. A template cannot be taken for an envelope, as it has
no member of that name.
-/

namespace Placard

open Json

/-! ## Members of a normal form -/

theorem lookup_eq_tableLookup {α : Type} (k : String) (es : List (String × α)) :
    es.lookup k = Table.lookup k es := by
  induction es with
  | nil => rfl
  | cons e es ih =>
      obtain ⟨k', v⟩ := e
      rw [List.lookup_cons, Table.lookup, ih]
      by_cases h : k' = k
      · rw [if_pos h, beq_iff_eq.mpr h.symm]
      · rw [if_neg h, beq_eq_false_iff_ne.mpr (Ne.symm h)]

section Members

variable {ms : List (String × Json)} {name : String}

theorem memberOf?_normal {v : Json} (hn : (ms.map (·.1)).Nodup)
    (h : (name, v) ∈ ms) :
    memberOf? name (Json.object ms).normal = some v.normal := by
  have hmem : (name, v.normal) ∈ normalMembers ms := by
    rw [normalMembers_eq_map]
    exact List.mem_map_of_mem (f := fun m => (m.1, m.2.normal)) h
  show List.lookup name (Table.ofList (normalMembers ms)).entries = _
  rw [lookup_eq_tableLookup]
  exact Table.get?_ofList_of_mem (names_normalMembers ms ▸ hn) hmem

theorem memberOf?_normal_eq_none (h : name ∉ ms.map (·.1)) :
    memberOf? name (Json.object ms).normal = none := by
  show List.lookup name (Table.ofList (normalMembers ms)).entries = _
  rw [lookup_eq_tableLookup]
  refine Table.lookup_eq_none fun e he heq => h ?_
  rw [← names_normalMembers]
  exact heq ▸ List.mem_map_of_mem (Table.mem_of_mem_ofList he)

end Members

/-! ## Envelopes -/

/-- A template in an envelope that states a version. -/
def envelope (version : String) (body : Json) : Json :=
  .object [("formatVersion", .string version), ("ruleSet", body)]

theorem envelope_faithful {levels : Nat} {body : Json}
    (h : body.Faithful levels) (version : String) :
    (envelope version body).Faithful (levels + 1) := by
  rw [envelope, faithful_object]
  simp only [List.forall_mem_cons]
  exact ⟨faithful_string version, h, by simp⟩

theorem unwrap_envelope (version : String) (body : Json) :
    unwrap (envelope version body).normal =
      if readsVersion version then .ok body.normal
      else .error (.unsupported version) := by
  have hnames : ([("formatVersion", .string version), ("ruleSet", body)].map
      (fun m : String × Json => m.1)).Nodup :=
      (by decide : ["formatVersion", "ruleSet"].Nodup)
  have hbody : memberOf? "ruleSet" (envelope version body).normal =
      some body.normal :=
    memberOf?_normal hnames (List.mem_cons_of_mem _ List.mem_cons_self)
  have hversion : memberOf? "formatVersion" (envelope version body).normal =
      some (.string version) := memberOf?_normal hnames List.mem_cons_self
  rw [unwrap, hbody]
  simp only [hversion]

theorem unwrap_template (t : Template) :
    unwrap t.toJson.normal = .ok t.toJson.normal := by
  have hnone : memberOf? "ruleSet" t.toJson.normal = none :=
    memberOf?_normal_eq_none
      (show "ruleSet" ∉ ["id", "width", "height", "backgroundColor", "layers"]
        by decide)
  rw [unwrap, hnone]

/-- The versions that are read are those with the major number of this
library. -/
theorem readsVersion_iff {s : String} :
    readsVersion s = true ↔ ∃ v : Version, v.Valid ∧ v.major = 1 ∧
      s = v.text := by
  have hours : Version.ofText? formatVersion = some ⟨1, 0, 0, [], []⟩ := by
    decide +kernel
  unfold readsVersion
  rw [hours]
  cases h : Version.ofText? s with
  | none =>
      refine ⟨nofun, ?_⟩
      rintro ⟨v, hv, -, rfl⟩
      rw [Version.ofText?_eq_some.mpr ⟨hv, rfl⟩] at h
      cases h
  | some v =>
      obtain ⟨hv, hs⟩ := Version.ofText?_eq_some.mp h
      simp only [decide_eq_true_eq]
      constructor
      · exact fun hmajor => ⟨v, hv, hmajor, hs⟩
      · rintro ⟨v', hv', hmajor, hs'⟩
        have hsame := Version.ofText?_eq_some.mpr ⟨hv', hs'⟩
        rw [h] at hsame
        cases hsame
        exact hmajor

/-! ## Import -/

theorem Template.import?_of_unwrap {t : Template}
    (hsound : ∀ size ∈ t.fontSizes, size.Sound) (haccept : t.accept = .ok t)
    {text : String} {v : Json} (htext : ofText? text = some v)
    (hunwrap : unwrap v = .ok t.toJson.normal) : import? text = .ok t := by
  have hdecode := Template.decodes hsound _ (holds_normal t.toJson)
  unfold import?
  simp only [htext, hunwrap, hdecode, haccept, bind, Except.bind,
    Except.mapError]

theorem Template.import?_compact {t : Template}
    (hfloats : ∀ x ∈ t.floats, Exact x)
    (hsound : ∀ size ∈ t.fontSizes, size.Sound) (haccept : t.accept = .ok t) :
    Template.import? (compact t.toJson) = .ok t := by
  have hplain : t.toJson.Faithful 4 := Template.faithful hfloats
  exact import?_of_unwrap hsound haccept
    (ofText?_compact hplain.readsBack (Nat.le_trans hplain.depth (by decide)))
    (unwrap_template t)

/-- A template of finite numbers and positive font sizes that is accepted is
imported from its text, if its numbers are read back from theirs. -/
theorem Template.import?_export {t : Template}
    (hfinite : ∀ x ∈ t.floats, x.isFinite = true)
    (hpositive : ∀ size ∈ t.fontSizes, 0 < size.value)
    (haccept : t.accept = .ok t)
    (hexact : ∀ x ∈ t.floats, x.isFinite = true → Exact x) :
    Template.import? (compact t.toJson) = .ok t ∧
      Template.import? (canonical t.toJson) = .ok t ∧
      (∀ v : Version, v.Valid → v.major = 1 →
        Template.import? (compact (envelope v.text t.toJson)) = .ok t) ∧
      ∀ s : String, (¬ ∃ v : Version, v.Valid ∧ v.major = 1 ∧ s = v.text) →
        Template.import? (compact (envelope s t.toJson)) =
          .error (.unsupported s) := by
  have hfloats : ∀ x ∈ t.floats, Exact x :=
    fun x hx => hexact x hx (hfinite x hx)
  have hsound : ∀ size ∈ t.fontSizes, size.Sound := fun size hsize =>
    have hmem := t.value_mem_floats hsize
    ⟨hfinite _ hmem, hpositive size hsize, hfloats _ hmem⟩
  have hplain : t.toJson.Faithful 4 := Template.faithful hfloats
  have htext :=
    ofText?_compact hplain.readsBack (Nat.le_trans hplain.depth (by decide))
  have henvelope (s : String) :=
    have h := envelope_faithful hplain s
    ofText?_compact h.readsBack (Nat.le_trans h.depth (by decide))
  have hcanonical := ofText?_canonical (hplain.mono (by decide : 4 ≤ maxDepth))
  refine ⟨import?_of_unwrap hsound haccept htext (unwrap_template t),
    Template.import?_of_unwrap hsound haccept hcanonical (unwrap_template t),
    fun v hv hmajor => ?_, fun s hs => ?_⟩
  · refine import?_of_unwrap hsound haccept (henvelope v.text) ?_
    rw [unwrap_envelope, if_pos (readsVersion_iff.mpr ⟨v, hv, hmajor, rfl⟩)]
  · have hunwrap :
        unwrap (envelope s t.toJson).normal = .error (.unsupported s) := by
      rw [unwrap_envelope, if_neg fun h => hs (readsVersion_iff.mp h)]
    unfold import?
    simp only [henvelope s, hunwrap, bind, Except.bind]

/-- A picture, a headline, and a second line at four fifths of its size. -/
def saleBanner : Template where
  id := "sale"
  width := 1200
  height := 628
  background := .white
  layers := [⟨"shoe", .image (.ofSize 340.5 280)⟩,
    ⟨"title", .text { TextLayer.ofField "headline" (.px 32) with
      x := 12.25, y := -4, wrapWidth := some 600, order := some 2, role :=
        some .headline }⟩,
    ⟨"price", .text { TextLayer.ofField "" (.percent 80) with
      calculation := some ⟨"* 0.8", "title"⟩ }⟩]

theorem Template.import?_export_saleBanner :
    Template.import? (compact saleBanner.toJson) = .ok saleBanner ∧
      Template.import? (canonical saleBanner.toJson) = .ok saleBanner ∧
      Template.import? (compact (envelope "1.4.0-rc.1" saleBanner.toJson)) =
        .ok saleBanner ∧
      Template.import? (compact (envelope "1.04.0" saleBanner.toJson)) =
        .error (.unsupported "1.04.0") := by
  have h := Template.import?_export (t := saleBanner) (by decide +kernel)
    (by decide +kernel) (by decide +kernel) (by decide +kernel)
  refine ⟨h.1, h.2.1, ?_, h.2.2.2 "1.04.0" fun hv => ?_⟩
  · refine h.2.2.1 ⟨1, 4, 0, [['r', 'c'], ['1']], []⟩ ?_ rfl
    exact (Version.ofText?_eq_some.mp
      (by decide +kernel : Version.ofText? "1.4.0-rc.1" = _)).1
  · exact absurd (readsVersion_iff.mpr hv) (by decide +kernel)

end Placard
