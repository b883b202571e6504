import Mathlib.Data.List.TakeWhile
import Placard.Proofs.Decimal.Digits
import Placard.Proofs.Json.Decoding
import Placard.Proofs.Text.Split
import Placard.Template.Codec

/-!
# Templates read back

Every part of a template is decoded as what it was written from. Only the size
of a font need not be: it is refused unless it is a positive number, and a
percentage is written as text, which has to give the number again.
-/

namespace Placard

open Json Text Decimal

/-! ## Numbers -/

/-- Both texts of a number give the number: its text in JSON, and that of a
percentage. -/
structure Exact (x : Float) : Prop where
  json : (Number.real x).ReadsBack
  text : readFloat? (wireNumber x) = some x

instance (x : Float) : Decidable (Exact x) :=
  decidable_of_iff ((Number.real x).ReadsBack ∧
    readFloat? (wireNumber x) = some x)
    ⟨fun ⟨h, h'⟩ => ⟨h, h'⟩, fun ⟨h, h'⟩ => ⟨h, h'⟩⟩

/-- The number of a font size, of pixels or of hundredths. -/
def FontSize.value : FontSize → Float
  | .px size => size
  | .percent share => share

/-- A font size that can be written and read. -/
structure FontSize.Sound (size : FontSize) : Prop where
  finite : size.value.isFinite = true
  positive : 0 < size.value
  exact : Exact size.value

/-! ## Scalars -/

theorem trimChars_eq_self {s : List Char} (h : ∀ c ∈ s, isBlank c = false) :
    trimChars s = s := by
  have hdrop {t : List Char} (ht : ∀ c ∈ t, isBlank c = false) :
      t.dropWhile isBlank = t :=
    List.dropWhile_eq_self_iff.mpr fun hlength => by
      simp [ht _ (List.getElem_mem hlength)]
  rw [trimChars, hdrop h, hdrop fun c hc => h c (List.mem_reverse.mp hc),
    List.reverse_reverse]

/-- A digit of a colour is no blank, no letter in upper case and no number
sign. -/
theorem isLowerHex_facts {c : Char} (h : isLowerHex c = true) :
    isBlank c = false ∧ c.toLower = c := by
  have hlt : c.toNat < 103 := by
    simp only [isLowerHex, Bool.or_eq_true, Bool.and_eq_true, decide_eq_true_eq]
      at h
    rcases h with h | h
    · exact Nat.lt_of_le_of_lt h.2 (by decide)
    · exact Nat.lt_of_le_of_lt h.2 (by decide)
  exact forall_toNat_lt (P := fun c => isLowerHex c = true → isBlank c = false ∧
    c.toLower = c)
    (by decide) hlt h

theorem Color.ofText?_text (c : Color) : Color.ofText? c.text = .ok c := by
  obtain ⟨ds, hvalid⟩ := c
  have hhex : ∀ d ∈ ds, isLowerHex d = true := by
    simp only [isHexColor, Bool.and_eq_true, List.all_eq_true] at hvalid
    exact hvalid.2
  have hlength : ds.length ≠ 3 := by
    simp only [isHexColor, Bool.and_eq_true, Bool.or_eq_true, beq_iff_eq]
      at hvalid
    omega
  have htext : (Color.text ⟨ds, hvalid⟩).toList = '#' :: ds := by
    show ("#" ++ String.ofList ds).toList = _
    rw [String.toList_append, String.toList_ofList, String.toList_ofList]
    rfl
  have htrim : trimChars ('#' :: ds) = '#' :: ds := by
    refine trimChars_eq_self fun d hd => ?_
    rcases List.mem_cons.mp hd with rfl | hd
    · decide
    · exact (isLowerHex_facts (hhex d hd)).1
  have hdigits : Color.digitsOf (Color.text ⟨ds, hvalid⟩).toList = ds := by
    rw [Color.digitsOf, htext, htrim]
    show (if ds.length = 3 then _ else ds).map Char.toLower = ds
    rw [if_neg hlength]
    exact (List.map_congr_left fun d hd =>
      (isLowerHex_facts (hhex d hd)).2).trans (List.map_id ds)
  rw [Color.ofText?]
  simp only [hdigits, hvalid, dite_true]

theorem Color.decodes (c : Color) : Decodes Color.decode c.toJson c := by
  intro s hs
  have htext : decodeString s = .ok c.text := decodes_string c.text s hs
  simp only [Color.decode, htext, bind, Except.bind, Color.ofText?_text]
  rfl

theorem not_isBlank_of_mem_numberChars {c : Char} (h : c ∈ numberChars) :
    isBlank c = false := by
  have hall : (numberChars.all fun c => !isBlank c) = true := by decide
  simpa using List.all_eq_true.mp hall c h

/-- The text of a percentage is taken apart into its number and the sign, and
whether it is a size is then up to the number. -/
theorem FontSize.ofText?_percent {share : Float} (h : Exact share) :
    FontSize.ofText? (FontSize.percent share).text =
      if share.isFinite && 0 < share then .ok (.percent share)
      else .error (.fontSize (FontSize.percent share).text) := by
  have hnumeric := numeric_wireNumber share
  have htext : (FontSize.percent share).text.toList =
      (wireNumber share).toList ++ ['%'] := by
    rw [FontSize.text, String.toList_append]
    rfl
  have htrim : trimChars ((wireNumber share).toList ++ ['%']) =
      (wireNumber share).toList ++ ['%'] := by
    refine trimChars_eq_self fun c hc => ?_
    rcases List.mem_append.mp hc with hc | hc
    · exact not_isBlank_of_mem_numberChars (hnumeric c hc)
    · rw [List.mem_singleton.mp hc]
      decide
  have hbefore : before? ['%'] ((wireNumber share).toList ++ ['%']) =
      some (wireNumber share).toList := by
    rw [before?, List.reverse_append]
    show (after? ['%'] (['%'] ++ (wireNumber share).toList.reverse)).map
      List.reverse = _
    rw [after?_append, Option.map_some, List.reverse_reverse]
  have hpositive : FontSize.positive? (wireNumber share).toList =
      if share.isFinite && 0 < share then some share else none := by
    rw [FontSize.positive?,
      trimChars_eq_self fun c hc =>
        not_isBlank_of_mem_numberChars (hnumeric c hc)]
    show (readFloat? (wireNumber share)).filter _ = _
    rw [h.text, Option.filter_some]
  rw [FontSize.ofText?, htext, htrim, hbefore]
  simp only [hpositive]
  cases share.isFinite && decide (0 < share) <;> rfl

theorem FontSize.decodes {size : FontSize} (h : size.Sound) :
    Decodes FontSize.decode size.toJson size := by
  have htest : (size.value.isFinite && decide (0 < size.value)) = true := by
    rw [Bool.and_eq_true, decide_eq_true_eq]
    exact ⟨h.finite, h.positive⟩
  cases size with
  | px x =>
      rintro s rfl
      exact if_pos htest
  | percent share =>
      rintro s rfl
      have htext : FontSize.ofText? (FontSize.percent share).text =
          .ok (.percent share) :=
        (FontSize.ofText?_percent h.exact).trans (if_pos htest)
      show BadValue.refuse (FontSize.ofText? (FontSize.percent share).text) = _
      rw [htext]
      rfl

theorem Gravity.decodes (g : Gravity) : Decodes Gravity.decode g.toJson g :=
  decodes_named (by cases g <;> decide)

theorem Role.decodes (r : Role) : Decodes Role.decode r.toJson r :=
  decodes_named (by cases r <;> decide)

theorem LayerKind.decodes (k : LayerKind) :
    Decodes LayerKind.decode (.string k.token) k := by
  rintro s rfl
  have h : Decodes (decodeNamed all token Source.isNull) (.string k.token) k :=
    decodes_named (by cases k <;> decide)
  exact h (.string k.token) rfl

theorem rank_decodes (n? : Option Int32) :
    Decodes (decodeOptional decodeInt32) (.optional rankToJson n?) n? :=
  decodes_optional fun n _ => ⟨nofun, decodes_int32 n⟩

theorem role_decodes (r? : Option Role) :
    Decodes (decodeOptional Role.decode) (.optional Role.toJson r?) r? :=
  decodes_optional fun r _ => ⟨nofun, r.decodes⟩

theorem float_decodes (x? : Option Float) :
    Decodes (decodeOptional decodeFloat) (.optional .real x?) x? :=
  decodes_optional fun x _ => ⟨nofun, decodes_float x⟩

theorem string_decodes (t? : Option String) :
    Decodes (decodeOptional decodeString) (.optional .string t?) t? :=
  decodes_optional fun t _ => ⟨nofun, decodes_string t⟩

/-! ## Layers -/

theorem OverflowFlags.decodes (f : OverflowFlags) :
    Decodes OverflowFlags.decode f.toJson f :=
  Fields.Takes.decodes
    (((Fields.takes_withDefault "noOverflow" false
      (decodes_bool f.noOverflow)).map OverflowFlags.mk).seq
      (Fields.takes_withDefault "disallowOverflow" false
        (decodes_bool f.disallowOverflow)))
    (by decide : ["noOverflow", "disallowOverflow"].Nodup)

theorem Calculation.decodes (c : Calculation) :
    Decodes Calculation.decode c.toJson c :=
  Fields.Takes.decodes
    (((Fields.takes_required "formula" (decodes_string c.formula)).map
      Calculation.mk).seq
      (Fields.takes_required "dependsOn" (decodes_string c.dependsOn)))
    (by decide : ["formula", "dependsOn"].Nodup)

theorem calculation_decodes (c? : Option Calculation) :
    Decodes (decodeOptional Calculation.decode)
      (.optional Calculation.toJson c?) c? :=
  decodes_optional fun c _ => ⟨nofun, c.decodes⟩

theorem TextLayer.takes {t : TextLayer} (h : t.fontSize.Sound) :
    TextLayer.fields.Takes t.members t := by
  have h :=
    ((Fields.takes_withDefault "x" 0 (decodes_float t.x)).map TextLayer.mk)
      |>.seq (Fields.takes_withDefault "y" 0 (decodes_float t.y))
      |>.seq (Fields.takes_withDefault "gravity" default t.gravity.decodes)
      |>.seq (Fields.takes_required "fontSize" (FontSize.decodes h))
      |>.seq (Fields.takes_withDefault "color" .black t.color.decodes)
      |>.seq (Fields.takes_withDefault "font" "Arial" (decodes_string t.font))
      |>.seq (Fields.takes_withDefault "wrap" false (decodes_bool t.wrap))
      |>.seq (Fields.takes_withDefault "wrapWidth" none
        (float_decodes t.wrapWidth))
      |>.seq (Fields.takes_withDefault "flags" ⟨false, false⟩ t.flags.decodes)
      |>.seq (Fields.takes_withDefault "fieldName" ""
        (decodes_string t.fieldName))
      |>.seq (Fields.takes_withDefault "metadataKey" none
        (string_decodes t.metadataKey))
      |>.seq (Fields.takes_withDefault "defaultValue" ""
        (decodes_string t.defaultValue))
      |>.seq (Fields.takes_withDefault "prefix" "" (decodes_string t.lead))
      |>.seq (Fields.takes_withDefault "suffix" "" (decodes_string t.trail))
      |>.seq (Fields.takes_withDefault "widthMultiplier" none
        (float_decodes t.widthMultiplier))
      |>.seq (Fields.takes_withDefault "calculation" none
        (calculation_decodes t.calculation))
      |>.seq (Fields.takes_withDefault "order" none (rank_decodes t.order))
      |>.seq (Fields.takes_withDefault "displayName" ""
        (decodes_string t.displayName))
      |>.seq (Fields.takes_withDefault "role" none (role_decodes t.role))
  simp only [List.cons_append, List.nil_append] at h
  exact h

theorem ImageLayer.takes (i : ImageLayer) :
    ImageLayer.fields.Takes i.members i :=
  ((Fields.takes_withDefault "x" 0 (decodes_float i.x)).map ImageLayer.mk)
    |>.seq (Fields.takes_withDefault "y" 0 (decodes_float i.y))
    |>.seq (Fields.takes_required "width" (decodes_float i.width))
    |>.seq (Fields.takes_required "height" (decodes_float i.height))
    |>.seq (Fields.takes_withDefault "gravity" default i.gravity.decodes)
    |>.seq (Fields.takes_withDefault "assetId" none (string_decodes i.assetId))
    |>.seq (Fields.takes_withDefault "show" true (decodes_bool i.shown))
    |>.seq (Fields.takes_withDefault "isMainSubject" false
      (decodes_bool i.isMainSubject))
    |>.seq (Fields.takes_withDefault "order" none (rank_decodes i.order))
    |>.seq (Fields.takes_withDefault "displayName" ""
      (decodes_string i.displayName))
    |>.seq (Fields.takes_withDefault "role" none (role_decodes i.role))

/-- What is in a layer, in JSON. -/
def LayerBody.members : LayerBody → List (String × Json)
  | .text t => t.members
  | .image i => i.members

theorem Layer.toJson_eq (l : Layer) :
    l.toJson = .object
      (("key", .string l.key) :: ("kind", .string l.body.kind.token) ::
        l.body.members) := by
  obtain ⟨key, t | i⟩ := l <;> rfl

/-- The members of a layer, its key and its kind among them, have different
names. -/
theorem LayerBody.nodup_names (b : LayerBody) :
    ("key" :: "kind" :: b.members.map (·.1)).Nodup := by
  cases b with
  | text t =>
      show ["key", "kind", "x", "y", "gravity", "fontSize", "color", "font",
        "wrap", "wrapWidth", "flags", "fieldName", "metadataKey",
        "defaultValue", "prefix", "suffix", "widthMultiplier", "calculation",
        "order", "displayName", "role"].Nodup
      decide
  | image i =>
      show ["key", "kind", "x", "y", "width", "height", "gravity", "assetId",
        "show", "isMainSubject", "order", "displayName", "role"].Nodup
      decide

/-- The font size of a layer, if it shows a text. -/
def Layer.fontSize? (l : Layer) : Option FontSize :=
  l.text?.map (·.fontSize)

theorem membersToJson?_filter {ss : List (Option String × Source)}
    (h : (Source.membersToJson? ss).isSome)
    (p : Option String × Source → Bool) :
    (Source.membersToJson? (ss.filter p)).isSome := by
  induction ss with
  | nil => exact h
  | cons m ss ih =>
      obtain ⟨k?, s⟩ := m
      obtain ⟨ms, hms⟩ := Option.isSome_iff_exists.mp h
      simp only [Source.membersToJson?, Option.bind_eq_bind,
        Option.bind_eq_some_iff] at hms
      obtain ⟨k, rfl, v, hv, ms', hms', -⟩ := hms
      have hrest := ih (Option.isSome_of_eq_some hms')
      rw [List.filter_cons]
      split
      · obtain ⟨ms'', hms''⟩ := Option.isSome_iff_exists.mp hrest
        simp only [Source.membersToJson?, Option.bind_eq_bind, Option.bind_some,
          hv, hms'', Option.isSome_some]
      · exact hrest

/-- What is left of the members of a layer once its key and its kind are known
is decoded as its kind has it. -/
theorem Layer.decode_of_holds {l : Layer} {s : Source} (hs : Holds l.toJson s) :
    ∃ ss behind, Offers ss l.body.members ∧
      Layer.decode s =
        match l.body.kind with
        | .text =>
          (TextLayer.fields.ofMembers ss (some behind)).map fun t =>
            ⟨l.key, .text t⟩
        | .image =>
          (ImageLayer.fields.ofMembers ss (some behind)).map fun i =>
            ⟨l.key, .image i⟩ := by
  rw [l.toJson_eq] at hs
  have hnames := l.body.nodup_names
  rw [List.nodup_cons, List.nodup_cons, List.mem_cons, not_or] at hnames
  obtain ⟨⟨hkeykind, hkey⟩, hkind, -⟩ := hnames
  obtain ⟨ss, behind, rfl, hjson, hss⟩ := offers_of_holds hs l.body.nodup_names
  have hne {m : String × Json} {name : String}
      (hname : name ∉ l.body.members.map (·.1)) (hm : m ∈ l.body.members) :
      m.1 ≠ name := fun heq =>
    hname (heq ▸ List.mem_map_of_mem hm)
  -- the key is taken from all members, the kind from those without the key
  have hss₁ : Offers (ss.filter fun m => m.1 != some "key")
      (("kind", .string l.body.kind.token) :: l.body.members) := by
    refine hss.without "key" fun m hm => ⟨List.mem_cons_of_mem _ hm, ?_⟩
    rcases List.mem_cons.mp hm with rfl | hm
    · exact Ne.symm hkeykind
    · exact hne hkey hm
  have hss₂ :
      Offers ((ss.filter fun m => m.1 != some "key").filter fun m => m.1 !=
        some "kind") l.body.members :=
      hss₁.without "kind" fun m hm => ⟨List.mem_cons_of_mem _ hm, hne hkind hm⟩
  have hk := (Fields.takes_required "key" (decodes_string l.key)).ofMembers
    (hss.mono fun m hm => List.mem_singleton.mp hm ▸ List.mem_cons_self) behind
  have hkind' := (Fields.takes_required "kind" l.body.kind.decodes).ofMembers
    (hss₁.mono fun m hm => List.mem_singleton.mp hm ▸ List.mem_cons_self) behind
  have hread :
      (Source.membersToJson? (ss.filter fun m => m.1 != some "key")).isNone =
        false := by
    rw [Option.isNone_eq_false_iff]
    exact membersToJson?_filter hjson _
  refine ⟨_, behind, hss₂, ?_⟩
  generalize l.body.kind = kind at hkind' ⊢
  cases kind <;>
    simp only [Layer.decode, hk, hread, hkind', bind, Except.bind,
      Bool.false_eq_true, if_false]

theorem Layer.decodes {l : Layer} (h : ∀ size ∈ l.fontSize?, size.Sound) :
    Decodes Layer.decode l.toJson l := by
  intro s hs
  obtain ⟨ss, behind, hss, hdecode⟩ := decode_of_holds hs
  rw [hdecode]
  obtain ⟨key, t | i⟩ := l
  · have ht := (TextLayer.takes (h t.fontSize rfl)).ofMembers hss behind
    simp only [LayerBody.kind, ht]
    rfl
  · have hi := (ImageLayer.takes i).ofMembers hss behind
    simp only [LayerBody.kind, hi]
    rfl

/-! ## Templates -/

/-- The font sizes of a template. -/
def Template.fontSizes (t : Template) : List FontSize :=
  t.layers.filterMap Layer.fontSize?

theorem Template.decodes {t : Template} (h : ∀ size ∈ t.fontSizes, size.Sound) :
    Decodes Template.decode t.toJson t :=
  Fields.Takes.decodes
    (((Fields.takes_required "id" (decodes_string t.id)).map Template.mk)
      |>.seq (Fields.takes_required "width" (decodes_uint32 t.width))
      |>.seq (Fields.takes_required "height" (decodes_uint32 t.height))
      |>.seq (Fields.takes_withDefault "backgroundColor" .white
        t.background.decodes)
      |>.seq (Fields.takes_withDefault "layers" [] (decodes_array fun l hl =>
        Layer.decodes fun size hsize =>
          h size (List.mem_filterMap.mpr ⟨l, hl, hsize⟩))))
    (by decide : ["id", "width", "height", "backgroundColor", "layers"].Nodup)

/-! ## The numbers of a template -/

/-- The numbers of a text layer that are doubles. -/
def TextLayer.floats (t : TextLayer) : List Float :=
  t.x :: t.y :: t.fontSize.value ::
    (t.wrapWidth.toList ++ t.widthMultiplier.toList)

/-- The numbers of an image layer that are doubles. -/
def ImageLayer.floats (i : ImageLayer) : List Float :=
  [i.x, i.y, i.width, i.height]

/-- The numbers of a layer that are doubles. -/
def Layer.floats (l : Layer) : List Float :=
  match l.body with
  | .text t => t.floats
  | .image i => i.floats

/-- The numbers of a template that are doubles. -/
def Template.floats (t : Template) : List Float :=
  t.layers.flatMap Layer.floats

theorem Template.value_mem_floats (t : Template) {size : FontSize}
    (h : size ∈ t.fontSizes) : size.value ∈ t.floats := by
  obtain ⟨l, hl, hsize⟩ := List.mem_filterMap.mp h
  refine List.mem_flatMap.mpr ⟨l, hl, ?_⟩
  obtain ⟨key, text | image⟩ := l
  · obtain rfl : text.fontSize = size := Option.some.inj hsize
    simp [Layer.floats, TextLayer.floats]
  · cases hsize

section Faithful

variable {levels : Nat}

theorem FontSize.faithful {size : FontSize} (h : Exact size.value) :
    size.toJson.Faithful levels := by
  cases size with
  | px x => exact faithful_number.mpr h.json
  | percent share => exact faithful_string _

theorem faithful_uint32 (n : UInt32) : (Json.int n.toNat).Faithful levels := by
  have hsize := n.toNat_lt_size
  have hvalue : UInt32.size = 2 ^ 32 := rfl
  exact faithful_number.mpr (readsBack_int (by omega) (by omega))

theorem faithful_rank (n : Int32) : (rankToJson n).Faithful levels := by
  have hlow : -2 ^ 31 ≤ n.toInt := n.le_toInt
  have hhigh : n.toInt < 2 ^ 31 := n.toInt_lt
  exact faithful_number.mpr (readsBack_int (by omega) (by omega))

theorem TextLayer.faithful {t : TextLayer} (h : ∀ x ∈ t.floats, Exact x) :
    ∀ m ∈ t.members, m.2.Faithful (levels + 1) := by
  simp only [TextLayer.floats, List.forall_mem_cons, List.forall_mem_append,
    Option.mem_toList] at h
  obtain ⟨hx, hy, hsize, hwrap, hmultiplier⟩ := h
  simp only [TextLayer.members, List.forall_mem_cons]
  refine ⟨faithful_number.mpr hx.json, faithful_number.mpr hy.json,
    faithful_string _,
    FontSize.faithful hsize, faithful_string _, faithful_string _,
    faithful_bool _,
    faithful_optional.mpr fun x hx => faithful_number.mpr (hwrap x hx).json,
    faithful_object.mpr (by simp), faithful_string _,
    faithful_optional.mpr (by simp),
    faithful_string _, faithful_string _, faithful_string _,
    faithful_optional.mpr fun x hx =>
      faithful_number.mpr (hmultiplier x hx).json,
    faithful_optional.mpr fun c _ => faithful_object.mpr (by simp),
    faithful_optional.mpr fun n _ => faithful_rank n, faithful_string _,
    faithful_optional.mpr fun r _ => faithful_string _, by simp⟩

theorem ImageLayer.faithful {i : ImageLayer} (h : ∀ x ∈ i.floats, Exact x) :
    ∀ m ∈ i.members, m.2.Faithful levels := by
  simp only [ImageLayer.floats, List.forall_mem_cons] at h
  obtain ⟨hx, hy, hwidth, hheight, -⟩ := h
  simp only [ImageLayer.members, List.forall_mem_cons]
  refine ⟨faithful_number.mpr hx.json, faithful_number.mpr hy.json,
    faithful_number.mpr hwidth.json,
    faithful_number.mpr hheight.json, faithful_string _,
    faithful_optional.mpr (by simp),
    faithful_bool _, faithful_bool _, faithful_optional.mpr fun n _ =>
      faithful_rank n,
    faithful_string _, faithful_optional.mpr fun r _ => faithful_string _, by
      simp⟩

theorem Layer.faithful {l : Layer} (h : ∀ x ∈ l.floats, Exact x) :
    l.toJson.Faithful (levels + 2) := by
  rw [l.toJson_eq, faithful_object, List.forall_mem_cons, List.forall_mem_cons]
  refine ⟨faithful_string _, faithful_string _, ?_⟩
  obtain ⟨key, t | i⟩ := l
  · exact TextLayer.faithful h
  · exact ImageLayer.faithful h

theorem Template.faithful {t : Template} (h : ∀ x ∈ t.floats, Exact x) :
    t.toJson.Faithful (levels + 4) := by
  rw [Template.toJson, faithful_object]
  simp only [List.forall_mem_cons, faithful_array, List.forall_mem_map]
  refine ⟨faithful_string _, faithful_uint32 t.width, faithful_uint32 t.height,
    faithful_string _,
    fun l hl => Layer.faithful fun x hx =>
      h x (List.mem_flatMap.mpr ⟨l, hl, hx⟩), by simp⟩

end Faithful

end Placard
