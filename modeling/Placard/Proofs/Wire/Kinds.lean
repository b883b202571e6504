import Placard.Proofs.Wire.ReadBack

/-!
# Which kind a command is read as

What a fragment is read as depends on its characters alone: neither the table
nor what has been read before it is asked. So the kinds that come out of a
string are those of its commands one by one, and every command has a form of its
own that no earlier test takes.

All but one. The path of a picture's asset is written with colons, behind the
same `l_` that a text has in front of its font, so the path `text/a/b` is
written like the text `b` in the font `a`. A picture of such a path is read as a
text, and searched for among what the texts show. No other path has that form: a
font is always named behind `text:`, and a second colon has to follow.
-/

namespace Placard

open Text

/-! ## The kind of a fragment -/

namespace Fragment

/-- The kind that a fragment is read as. -/
def kindOf (s : List Char) : SegmentKind :=
  (classify [] [] [] s).1

theorem classify_fst (table : Provenance) (before : List Fragment)
    (claimed : List Nat) (s : List Char) :
    (classify table before claimed s).1 = kindOf s := by
  unfold kindOf classify
  simp only []
  split
  · rfl
  · split
    · rfl
    · split
      · rfl
      · split
        · rfl
        · split
          · rfl
          · split
            · rfl
            · split <;> rfl

theorem parseFrom_map (table : Provenance) (before : List Fragment)
    (claimed : List Nat) (pieces : List (List Char)) :
    (parseFrom table before claimed pieces).map (fun f => (f.text, f.kind)) =
      before.reverse.map (fun f => (f.text, f.kind)) ++
        pieces.map fun s => (String.ofList s, kindOf s) := by
  induction pieces generalizing before claimed with
  | nil => rw [parseFrom, List.map_nil, List.append_nil]
  | cons s rest ih =>
      rw [parseFrom]
      simp only [ih, classify_fst, List.reverse_cons, List.map_append,
        List.map_cons, List.map_nil, List.append_assoc, List.singleton_append]

end Fragment

/-! ## Assets in a text folder -/

theorem Token.assetChars_append_cons {part : List Char} (h : '/' ∉ part)
    (path : List Char) :
    assetChars (part ++ '/' :: path) =
      escapeChars part ++ ':' :: assetChars path := by
  obtain ⟨q, qs, hsplit⟩ : ∃ q qs, split '/' path = q :: qs := by
    cases hsplit : split '/' path with
    | nil =>
        rw [split_eq_splitOn] at hsplit
        exact absurd hsplit (List.splitOnP_ne_nil _ _)
    | cons q qs => exact ⟨q, qs, rfl⟩
  rw [assetChars, assetChars, split_append_cons h, hsplit, List.map_cons,
    List.map_cons, join_cons_cons]

namespace Plan

section Images

variable {t : Template} {e : Emission} {image : ImageLayer} {width height : Int}

/-- What is taken for the text of a picture in a text folder stands behind the
second colon of its path. -/
theorem EmitsImage.exists_textPayload? (h : EmitsImage t e image width height)
    (hfolder : image.InTextFolder) :
    ∃ payload, Fragment.textPayload? e.content.toList = some payload := by
  obtain ⟨rest, hasset, hslash⟩ := hfolder
  obtain ⟨part, path, hrest, hpart⟩ := List.eq_append_cons_of_mem hslash
  have htoken : e.identifier.toList =
      "text:".toList ++ (escapeChars part ++ ':' :: Token.assetChars path) := by
    have hfull : ("text/" ++ rest).isEmpty = false := by
      rw [Bool.eq_false_iff, ne_eq, String.isEmpty_iff]
      intro hnil
      have hchars := congrArg String.toList hnil
      simp at hchars
    have hpath : ("text/" ++ rest).toList =
        ['t', 'e', 'x', 't'] ++ '/' :: (part ++ '/' :: path) := by
      rw [String.toList_append, hrest]
      rfl
    rw [h.identifier, imageToken, hasset,
      Option.filter_some_pos (by rw [hfull]; rfl)]
    simp only [Token.asset, String.toList_ofList]
    rw [hpath, Token.assetChars_append_cons (by decide),
      Token.assetChars_append_cons hpart]
    rfl
  have hafter : after? "l_text:".toList ("l_" ++ e.identifier).toList =
      some (escapeChars part ++ ':' :: Token.assetChars path) := by
    rw [after?_eq_some_iff, String.toList_append, htoken]
    rfl
  refine ⟨Token.assetChars path, ?_⟩
  rw [Fragment.textPayload?, h.split_content, List.findSome?_cons, hafter]
  simp only [Option.bind_eq_bind, Option.bind_some,
    cut?_append_cons ((plain_escapeChars part).not_mem (c := ':') (by decide))]

/-- A picture in a text folder is read as a text. -/
theorem EmitsImage.exists_classify (h : EmitsImage t e image width height)
    (hfolder : image.InTextFolder) :
    ∃ payload, ∀ table before claimed,
      Fragment.classify table before claimed e.content.toList =
        (.textContent, table.resolve .texts payload claimed) := by
  obtain ⟨payload, hpayload⟩ := h.exists_textPayload? hfolder
  exact ⟨payload, fun _ _ _ => Fragment.classify_text h.unmarked hpayload⟩

end Images

/-! ## The kinds of a plan -/

section Compile

variable {settings : CompilerSettings} {t : Template} {bs : Bindings}
  {canvas : Size} {asset : String}

/-- A command that is not a picture in a text folder is read as what it is. -/
theorem kindOf_tokens (hd : t.DistinctKeys) {s : Segment}
    (hs : s ∈ (compile settings t bs canvas asset).segments) :
    Fragment.kindOf s.tokens.toList = s.kind ∨
      s.kind = .imageContent ∧ Fragment.kindOf s.tokens.toList = .textContent ∧
        ∃ key image, s.provenance = some key ∧ ⟨key, .image image⟩ ∈ t.layers ∧
          image.shown = true ∧ image.InTextFolder := by
  obtain ⟨blocks, hdefs, -, -⟩ := exists_blocks hd bs
  rcases (mem_segments hdefs).mp hs with
    rfl | ⟨b, -, c, -, rfl⟩ | rfl | ⟨e, he, hs⟩
  · exact Or.inl (congrArg Prod.fst (Fragment.classify_asset asset))
  · left
    cases c with
    | endIf => exact congrArg Prod.fst Fragment.classify_endIf
    | assign _ _ | lookUp _ _ | ifFound _ | keep _ | derive _ _ _ =>
        exact congrArg Prod.fst (Fragment.classify_command rfl)
  · exact Or.inl (congrArg Prod.fst (Fragment.classify_canvas _ _))
  · simp only [Emission.segments, List.mem_cons, List.not_mem_nil, or_false]
      at hs
    rcases emits_of_mem he with ⟨text, h⟩ | ⟨image, width, height, h⟩
    · left
      rcases hs with rfl | rfl
      · exact (congrArg Prod.fst h.classify).trans h.kind.symm
      · obtain ⟨p, hp⟩ := h.placed
        simp only [hp]
        exact congrArg Prod.fst (Fragment.classify_apply p)
    · rcases hs with rfl | rfl
      · by_cases hfolder : image.InTextFolder
        · obtain ⟨payload, hclassify⟩ := h.exists_classify hfolder
          exact Or.inr ⟨h.kind, congrArg Prod.fst (hclassify [] [] []), e.key,
            image, rfl, h.declared, h.shown, hfolder⟩
        · exact Or.inl ((congrArg Prod.fst (h.classify hfolder)).trans
            h.kind.symm)
      · obtain ⟨p, hp⟩ := h.placed
        left
        simp only [hp]
        exact congrArg Prod.fst (Fragment.classify_apply p)

/-- The string of a plan is read as its commands, each of the kind that it has
by itself. -/
theorem parse_map (hd : t.DistinctKeys) (table : Provenance) :
    (Fragment.parse table
      (compile settings t bs canvas asset).transformation).map
        (fun f => (f.text, f.kind)) =
      (compile settings t bs canvas asset).segments.map
        fun s => (s.tokens, Fragment.kindOf s.tokens.toList) := by
  obtain ⟨blocks, hdefs, hwell, -⟩ := exists_blocks hd bs
  rw [Fragment.parse, split_transformation hd, filter_tokens hd hdefs hwell,
    Fragment.parseFrom_map, List.reverse_nil, List.map_nil, List.nil_append,
    List.map_map]
  simp only [Function.comp_def, String.ofList_toList]

theorem texts_parse (hd : t.DistinctKeys) (table : Provenance) :
    (Fragment.parse table
      (compile settings t bs canvas asset).transformation).map Fragment.text =
      (compile settings t bs canvas asset).segments.map Segment.tokens := by
  calc
    (Fragment.parse table
        (compile settings t bs canvas asset).transformation).map Fragment.text
    _ = ((Fragment.parse table
          (compile settings t bs canvas asset).transformation).map
          fun f => (f.text, f.kind)).map Prod.fst := by rw [List.map_map]; rfl
    _ = (compile settings t bs canvas asset).segments.map Segment.tokens := by
        rw [parse_map hd, List.map_map]; rfl

theorem kinds_parse (hd : t.DistinctKeys) (table : Provenance) :
    (Fragment.parse table
      (compile settings t bs canvas asset).transformation).map Fragment.kind =
      (compile settings t bs canvas asset).segments.map
        fun s => Fragment.kindOf s.tokens.toList := by
  calc
    (Fragment.parse table
        (compile settings t bs canvas asset).transformation).map Fragment.kind
    _ = ((Fragment.parse table
          (compile settings t bs canvas asset).transformation).map
          fun f => (f.text, f.kind)).map Prod.snd := by rw [List.map_map]; rfl
    _ = (compile settings t bs canvas asset).segments.map
          fun s => Fragment.kindOf s.tokens.toList := by
        rw [parse_map hd, List.map_map]; rfl

theorem exists_picture {key : String} {image : ImageLayer}
    (hmem : ⟨key, .image image⟩ ∈ t.layers) (hshown : image.shown = true) :
    ∃ e ∈ (compile settings t bs canvas asset).layers,
      e.key = key ∧ ∃ width height, EmitsImage t e image width height := by
  let l : Layer := ⟨key, .image image⟩
  have he : emit? t bs (definitions t bs).fields (baseFontSize t settings)
      (scaleRatio canvas settings.baseWidth) l = _ := emit?_image rfl _ _ _
  rw [emitImage?, hshown, Bool.not_true, if_neg Bool.false_ne_true] at he
  exact ⟨_, mem_layers.mpr ⟨_, hmem, he⟩, rfl, _, _, hmem, rfl, hshown, rfl,
    rfl, _, rfl⟩

/-- Every command is read as what it is exactly if no picture that is shown is
in a text folder. -/
theorem kindOf_tokens_iff (hd : t.DistinctKeys) :
    (∀ s ∈ (compile settings t bs canvas asset).segments,
      Fragment.kindOf s.tokens.toList = s.kind) ↔ t.NoTextAssets := by
  rw [Template.noTextAssets_iff]
  constructor
  · intro h key image hmem hshown hfolder
    obtain ⟨e, he, -, width, height, himage⟩ :
        ∃ e ∈ (compile settings t bs canvas asset).layers,
          e.key = key ∧ ∃ width height, EmitsImage t e image width height :=
      exists_picture hmem hshown
    obtain ⟨payload, hclassify⟩ := himage.exists_classify hfolder
    have hs : (⟨e.content, some e.key, e.kind⟩ : Segment) ∈
        (compile settings t bs canvas asset).segments := by
      refine List.mem_append_right _ (List.mem_cons_of_mem _ ?_)
      exact List.mem_flatMap.mpr ⟨e, he, List.mem_cons_self⟩
    have hkind := (congrArg Prod.fst (hclassify [] [] [])).symm.trans (h _ hs)
    rw [himage.kind] at hkind
    cases hkind
  · intro h s hs
    rcases kindOf_tokens hd hs with
      hkind | ⟨-, -, key, image, -, hmem, hshown, hfolder⟩
    · exact hkind
    · exact absurd hfolder (h key image hmem hshown)

theorem kinds_parse_iff (hd : t.DistinctKeys) (table : Provenance) :
    (Fragment.parse table
      (compile settings t bs canvas asset).transformation).map Fragment.kind =
      (compile settings t bs canvas asset).segments.map Segment.kind ↔
        t.NoTextAssets := by
  rw [kinds_parse hd, List.map_inj_left]
  exact kindOf_tokens_iff hd

end Compile

/-- How the commands of a plan are told apart when its string is read, with
whatever table. -/
structure ToldApart (t : Template) (p : Plan) : Prop where
  texts : ∀ table,
    (Fragment.parse table p.transformation).map Fragment.text =
      p.segments.map Segment.tokens
  /-- The kinds are those of the plan exactly if no picture that is shown is in
  a text folder. -/
  kinds : ∀ table,
    (Fragment.parse table p.transformation).map Fragment.kind =
      p.segments.map Segment.kind ↔ t.NoTextAssets
  /-- No kind is mistaken but that of a picture in a text folder, for a text. -/
  mistaken : ∀ table (i : Nat) (s : Segment) (f : Fragment),
    p.segments[i]? = some s →
    (Fragment.parse table p.transformation)[i]? = some f → f.kind ≠ s.kind →
    s.kind = .imageContent ∧ f.kind = .textContent ∧
      ∃ key image, s.provenance = some key ∧ ⟨key, .image image⟩ ∈ t.layers ∧
        image.shown = true ∧ image.InTextFolder
  /-- A picture is credited to what pictures show, or else, in a text folder, to
  what texts show. -/
  pictures : ∀ e ∈ p.layers, ∀ image, ⟨e.key, .image image⟩ ∈ t.layers →
    (¬ image.InTextFolder → ∀ table before claimed,
      Fragment.classify table before claimed e.content.toList =
        (.imageContent, table.resolve .images e.identifier.toList claimed)) ∧
    (image.InTextFolder → ∃ payload, ∀ table before claimed,
      Fragment.classify table before claimed e.content.toList =
        (.textContent, table.resolve .texts payload claimed))

theorem compile_toldApart (settings : CompilerSettings) {t : Template}
    (hd : t.DistinctKeys) (bs : Bindings) (canvas : Size) (asset : String) :
    ToldApart t (compile settings t bs canvas asset) := by
  constructor
  case texts => exact texts_parse hd
  case kinds => exact kinds_parse_iff hd
  case mistaken =>
    intro table i s f hs hf hne
    have hkinds : ((Fragment.parse table
        (compile settings t bs canvas asset).transformation).map
        Fragment.kind)[i]? = _ :=
      congrArg (fun kinds => kinds[i]?) (kinds_parse hd table)
    simp only [List.getElem?_map, hs, hf, Option.map_some, Option.some.injEq]
      at hkinds
    rcases kindOf_tokens hd (List.mem_of_getElem? hs) with
      hkind | ⟨himage, htext, hpicture⟩
    · exact absurd (hkinds.trans hkind) hne
    · exact ⟨himage, hkinds.trans htext, hpicture⟩
  case pictures =>
    intro e he image hmem
    have hlayer := Template.textLayer?_of_layer hd hmem
    rcases emits_of_mem he with ⟨text, h⟩ | ⟨image', width, height, h⟩
    · rw [Template.textLayer?_of_mem hd h.declared] at hlayer
      cases hlayer
    · have hsame : image' = image := by
        have hfind := findLayer?_of_mem hd h.declared
        rw [findLayer?_of_mem hd hmem, Option.some.injEq, Layer.mk.injEq]
          at hfind
        exact (LayerBody.image.inj hfind.2).symm
      subst hsame
      exact ⟨fun hfree _ _ _ => h.classify hfree, h.exists_classify⟩

/-- A picture of an asset in a text folder under a text of the same name. -/
def signpost : Template :=
  { Template.ofCanvas "sign" 500 500 with
    layers := [
      ⟨"logo", .image { ImageLayer.ofSize 64 64 with
        assetId := some "text/fonts/Sale" }⟩,
      ⟨"title", .text { TextLayer.ofField "Title" (.px 32) with
        defaultValue := "Sale" }⟩] }

theorem signpost_toldApart :
    signpost.DistinctKeys ∧
      ToldApart signpost (compile ⟨1080, 48⟩ signpost Table.empty ⟨500, 500⟩
        "bag") := by
  have hd : signpost.DistinctKeys := by decide
  exact ⟨hd, compile_toldApart _ hd _ _ _⟩

/-- The kinds of the commands do not survive for every picture. -/
theorem not_kinds_parse :
    ¬ ∀ (settings : CompilerSettings) (t : Template) (bs : Bindings)
      (canvas : Size) (asset : String), t.DistinctKeys →
      (Fragment.parse (Provenance.ofPlan (compile settings t bs canvas asset))
          (compile settings t bs canvas asset).transformation).map
          Fragment.kind =
        (compile settings t bs canvas asset).segments.map Segment.kind := by
  intro h
  have hd : signpost.DistinctKeys := by decide
  have hkinds := h ⟨1080, 48⟩ signpost Table.empty ⟨500, 500⟩ "bag" hd
  refine (kinds_parse_iff hd _).mp hkinds "logo" _ List.mem_cons_self rfl
    "fonts/Sale" rfl ?_
  decide

end Plan

end Placard
