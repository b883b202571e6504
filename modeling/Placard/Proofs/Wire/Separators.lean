import Placard.Proofs.Wire.Contents

/-!
# No text adds a command

Whatever stands in the names of fields, in literals, leads and trails, in the
names of fonts, the keys of metadata and the paths of assets: the string of
commands comes apart into the commands that were put into it, a text into its
parameters, a picture into its four. An exclamation mark is one of a pair that
a command put around quoted text, and a dollar sign begins the asset or a
variable that the plan defines.

The two last statements are about places in the whole string. They are proved
of each command, and a place in the string is a place in one of them, because
neither mark is the slash that the commands are joined with.
-/

namespace Placard

open Text Decimal

/-! ## Exclamation marks -/

/-- A command that quotes a text: what leads to it and what is quoted. -/
structure Quote where
  lead : List Char
  quoted : List Char

namespace Quote

/-- The text of a quote, with what stands before it. -/
def text (q : Quote) : List Char :=
  q.lead ++ '!' :: (q.quoted ++ ['!'])

/-- A command with no exclamation marks but its own two. -/
def Closed (q : Quote) : Prop :=
  '!' ∉ q.lead ∧ '!' ∉ q.quoted

/-- The first mark is behind the lead and the second behind what is quoted. -/
theorem mark_of_closed {q : Quote} (h : q.Closed) {l r : List Char}
    (heq : q.text = l ++ '!' :: r) :
    l = q.lead ∨ l = q.lead ++ '!' :: q.quoted := by
  rcases eq_or_behind h.1 heq with hl | ⟨m, rfl, hm⟩
  · exact Or.inl hl
  · rcases eq_or_behind h.2 hm with rfl | ⟨n, -, hn⟩
    · exact Or.inr rfl
    · cases n <;> cases hn

end Quote

/-- What a command quotes, if it does. -/
def Command.quote? : Command → Option Quote
  | .assign target (.text s) =>
    some ⟨(target.value ++ "_").toList, (escape s).toList⟩
  | .assign _ (.number _) => none
  | .lookUp target key =>
    some ⟨(target.scratch ++ "_md:").toList, (escape key).toList⟩
  | .ifFound target => some ⟨("if_" ++ target.scratch ++ "_ne_").toList, []⟩
  | .keep _ => none
  | .endIf => none
  | .derive _ _ _ => none

/-- A text with the two marks of a quote or without any. -/
def Marked (s : List Char) : Option Quote → Prop
  | some q => s = q.text ∧ q.Closed
  | none => '!' ∉ s

theorem Command.marked {c : Command} (h : c.WellFormed) :
    Marked c.text.toList c.quote? := by
  have hvalue {v : Variable} (hv : Variable.Named v.name.toList) :
      '!' ∉ v.value.toList :=
    (markedBy_value hv).not_mem (by decide) (by decide)
  have hscratch {v : Variable} (hv : Variable.Named v.name.toList) :
      '!' ∉ v.scratch.toList :=
    (markedBy_scratch hv).not_mem (by decide) (by decide)
  have hescape (s : String) : '!' ∉ (escape s).toList := by
    rw [toList_escape]
    exact (plain_escapeChars _).not_mem (by decide)
  cases c with
  | assign target literal =>
      cases literal with
      | number digits =>
          simp only [quote?, Marked, text, Literal.token, String.toList_append,
            List.mem_append, not_or]
          exact ⟨⟨hvalue h.1, by decide⟩,
            (numeric_of_isPlainNumber h.2).plain.not_mem (by decide)⟩
      | text s =>
          simp only [quote?, Marked, Quote.Closed, String.toList_append,
            List.mem_append, not_or]
          refine ⟨?_, ⟨hvalue h.1, by decide⟩, hescape s⟩
          simp only [text, Literal.token, Quote.text, String.toList_append,
            String.reduceToList, List.append_assoc, List.cons_append,
            List.nil_append]
  | lookUp target key =>
      simp only [quote?, Marked, Quote.Closed, String.toList_append,
        List.mem_append, not_or]
      refine ⟨?_, ⟨hscratch h, by decide⟩, hescape key⟩
      simp only [text, Quote.text, String.toList_append, String.reduceToList,
        List.append_assoc, List.cons_append, List.nil_append]
  | ifFound target =>
      simp only [quote?, Marked, Quote.Closed, String.toList_append,
        List.mem_append, not_or]
      refine ⟨?_, ⟨⟨by decide, hscratch h⟩, by decide⟩, List.not_mem_nil⟩
      simp only [text, Quote.text, String.toList_append, String.reduceToList,
        List.append_assoc, List.cons_append, List.nil_append]
  | keep target =>
      simp only [quote?, Marked, text, String.toList_append, List.mem_append,
        not_or]
      exact ⟨⟨hvalue h, by decide⟩, hscratch h⟩
  | endIf =>
      simp only [quote?, Marked, text]
      decide
  | derive target source steps =>
      simp only [quote?, Marked, text, String.toList_append, List.mem_append,
        not_or]
      exact ⟨⟨⟨hvalue h.1, by decide⟩, hvalue h.2⟩,
        (plain_steps _).not_mem (by decide)⟩

/-! ## Dollar signs -/

/-- No letter or digit comes next, so a name ends here. -/
def Stops (rest : List Char) : Prop :=
  ∀ c ∈ rest.head?, Variable.isNameChar c = false

/-- What a dollar sign can begin: the variable of the asset, or a variable, its
scratch variable, or a reference to it in a text. -/
inductive Begins (vs : List Variable) : List Char → Prop where
  | subject (rest : List Char) :
      Begins vs (['s', 'u', 'b', 'j', 'e', 'c', 't'] ++ rest)
  | value {v : Variable} (hv : v ∈ vs) {rest : List Char} (hrest : Stops rest) :
      Begins vs ('f' :: v.name.toList ++ rest)
  | scratch {v : Variable} (hv : v ∈ vs) {rest : List Char}
      (hrest : Stops rest) :
      Begins vs ('m' :: v.name.toList ++ rest)
  | reference {v : Variable} (hv : v ∈ vs) {rest : List Char}
      (hrest : Stops rest) :
      Begins vs ('(' :: 'f' :: v.name.toList ++ rest)

theorem stops_cons {c : Char} (h : Variable.isNameChar c = false)
    (rest : List Char) : Stops (c :: rest) := by
  intro d hd
  rw [List.head?_cons, Option.mem_some] at hd
  exact hd ▸ h

theorem Stops.append {rest after : List Char} (h : Stops rest)
    (hafter : Stops after) : Stops (rest ++ after) := by
  cases rest with
  | nil => exact hafter
  | cons c rest => exact h

/-- Nothing changes behind a separator that is not part of a name. -/
theorem Begins.append {vs : List Variable} {post after : List Char}
    (h : Begins vs post) (hafter : Stops after) :
    Begins vs (post ++ after) := by
  cases h with
  | subject rest => exact List.append_assoc _ _ _ ▸ .subject (rest ++ after)
  | value hv hrest =>
      exact List.append_assoc _ _ _ ▸ .value hv (hrest.append hafter)
  | scratch hv hrest =>
      exact List.append_assoc _ _ _ ▸ .scratch hv (hrest.append hafter)
  | reference hv hrest =>
      exact List.append_assoc _ _ _ ▸ .reference hv (hrest.append hafter)

section Dollars

variable {P : List Char → Prop} {v : Variable} {rest : List Char}

/-- A dollar sign before the name of a variable, with the letter between them
that says what is meant of it. -/
theorem follows_reference {c : Char} (hc : c ≠ '$')
    (hnamed : Variable.Named v.name.toList)
    (hreference : P (c :: v.name.toList ++ rest)) (h : Follows '$' P rest) :
    Follows '$' P ('$' :: c :: (v.name.toList ++ rest)) := by
  refine follows_cons.mpr ⟨fun _ => hreference, ?_⟩
  exact follows_cons.mpr ⟨fun heq => absurd heq hc,
    (follows_append (hnamed.not_mem rfl) rest).mpr h⟩

theorem follows_value (hnamed : Variable.Named v.name.toList)
    (hvalue : P ('f' :: v.name.toList ++ rest)) (h : Follows '$' P rest) :
    Follows '$' P (v.value.toList ++ rest) := by
  rw [Variable.value, String.toList_append, List.append_assoc]
  exact follows_reference (by decide) hnamed hvalue h

theorem follows_scratch (hnamed : Variable.Named v.name.toList)
    (hscratch : P ('m' :: v.name.toList ++ rest)) (h : Follows '$' P rest) :
    Follows '$' P (v.scratch.toList ++ rest) := by
  rw [Variable.scratch, String.toList_append, List.append_assoc]
  exact follows_reference (by decide) hnamed hscratch h

end Dollars

/-- The variables that a command names. -/
def Command.mentioned : Command → List Variable
  | .assign target _ => [target]
  | .lookUp target _ => [target]
  | .ifFound target => [target]
  | .keep target => [target]
  | .endIf => []
  | .derive target source _ => [target, source]

theorem stops_steps (steps : List Step) :
    Stops (String.join (steps.map Command.stepText)).toList := by
  cases steps with
  | nil => exact fun _ h => absurd h (Option.not_mem_none _)
  | cons s steps =>
      simp only [String.toList_join, List.map_cons, List.flatMap_cons,
        Command.stepText, String.toList_append, List.append_assoc]
      exact stops_cons rfl _

/-- A dollar sign in a command is followed by the name of a variable that the
command mentions, or of its scratch variable. -/
theorem Command.follows_names {P : List Char → Prop} {c : Command}
    (h : c.WellFormed)
    (hvalue : ∀ v ∈ c.mentioned, ∀ rest, Stops rest →
      P ('f' :: v.name.toList ++ rest))
    (hscratch : ∀ v ∈ c.mentioned, ∀ rest, Stops rest →
      P ('m' :: v.name.toList ++ rest)) : Follows '$' P c.text.toList := by
  have hquoted (key : String) : '$' ∉ (escape key).toList := by
    rw [toList_escape]
    exact (plain_escapeChars _).not_mem (by decide)
  cases c with
  | assign target literal =>
      have hliteral :=
        (Literal.markedBy_token h.2).not_mem (c := '$') (by decide) (by decide)
      simp only [text, String.toList_append, List.append_assoc]
      refine follows_value h.1
        (hvalue _ List.mem_cons_self _ (stops_cons rfl _)) ?_
      exact (follows_append (by decide) _).mpr (follows_of_not_mem hliteral)
  | lookUp target key =>
      simp only [text, String.toList_append, List.append_assoc]
      refine follows_scratch h
        (hscratch _ List.mem_cons_self _ (stops_cons rfl _)) ?_
      refine (follows_append (by decide) _).mpr (follows_of_not_mem ?_)
      simp only [List.mem_append, not_or]
      exact ⟨hquoted key, by decide⟩
  | ifFound target =>
      simp only [text, String.toList_append, List.append_assoc]
      refine (follows_append (by decide) _).mpr ?_
      exact follows_scratch h
        (hscratch _ List.mem_cons_self _ (stops_cons rfl _))
        (follows_of_not_mem (by decide))
  | keep target =>
      have hscratch := follows_scratch h (hscratch _ List.mem_cons_self []
        (fun _ h => absurd h (Option.not_mem_none _)))
        (follows_of_not_mem List.not_mem_nil)
      rw [List.append_nil] at hscratch
      simp only [text, String.toList_append, List.append_assoc]
      exact follows_value h (hvalue _ List.mem_cons_self _ (stops_cons rfl _))
        ((follows_append (by decide) _).mpr hscratch)
  | endIf => exact follows_of_not_mem (by decide)
  | derive target source steps =>
      have hsource := follows_value h.2
        (hvalue source (List.mem_cons_of_mem _ List.mem_cons_self) _
          (stops_steps steps))
        (follows_of_not_mem ((plain_steps steps).not_mem (by decide)))
      simp only [text, String.toList_append, List.append_assoc]
      exact follows_value h.1 (hvalue _ List.mem_cons_self _ (stops_cons rfl _))
        ((follows_append (by decide) _).mpr hsource)

theorem Command.follows {vs : List Variable} {c : Command} (h : c.WellFormed)
    (hvs : ∀ v ∈ c.mentioned, v ∈ vs) : Follows '$' (Begins vs) c.text.toList :=
  Command.follows_names h (fun v hv _ hrest => .value (hvs v hv) hrest)
    (fun v hv _ hrest => .scratch (hvs v hv) hrest)

/-! ## Segments -/

/-- A segment with no slash, no exclamation marks but those of one quote, and no
dollar sign that begins nothing. -/
structure Segment.Sound (quotes : List Quote) (vs : List Variable)
    (s : Segment) : Prop where
  slash : '/' ∉ s.tokens.toList
  nonempty : s.tokens.toList ≠ []
  marked : '!' ∉ s.tokens.toList ∨
    ∃ q ∈ quotes, s.tokens.toList = q.text ∧ q.Closed
  follows : Follows '$' (Begins vs) s.tokens.toList

namespace Plan

/-- What the command that names the asset quotes. -/
def assetQuote (asset : String) : Quote :=
  ⟨(subjectVariable ++ "_").toList, (Token.asset asset).toList⟩

/-- What is quoted in a compiled template: the asset, and what the commands on
variables quote. -/
def quotes (t : Template) (bs : Bindings) (asset : String) : List Quote :=
  assetQuote asset :: (definitions t bs).commands.filterMap
    fun (_, c) => c.quote?

theorem closed_assetQuote (asset : String) : (assetQuote asset).Closed := by
  have htoken :=
    (markedBy_asset asset).not_mem (c := '!') (by decide) (by decide)
  have hlead : '!' ∉ (subjectVariable ++ "_").toList := by
    simp only [subjectVariable, String.toList_append, String.reduceToList]
    decide
  simp only [Quote.Closed, assetQuote]
  exact ⟨hlead, htoken⟩

theorem text_assetQuote (asset : String) :
    (assetQuote asset).text =
      '$' :: (['s', 'u', 'b', 'j', 'e', 'c', 't'] ++
        '_' :: '!' :: ((Token.asset asset).toList ++ ['!'])) := by
  simp only [assetQuote, subjectVariable, Quote.text, String.toList_append,
    String.reduceToList, List.cons_append, List.nil_append]

theorem tokens_assetSegment (asset : String) :
    (assetSegment asset).tokens.toList = (assetQuote asset).text := by
  simp only [assetSegment, assetQuote, Quote.text, String.toList_append,
    String.reduceToList, List.append_assoc, List.cons_append, List.nil_append]

theorem sound_asset (t : Template) (bs : Bindings) (asset : String)
    (vs : List Variable) :
    (assetSegment asset).Sound (quotes t bs asset) vs := by
  have htoken {c : Char} (hc : c ∈ separators) (hne : c ∉ [':']) :
      c ∉ (Token.asset asset).toList :=
    (markedBy_asset asset).not_mem hc hne
  have heq := (tokens_assetSegment asset).trans (text_assetQuote asset)
  refine ⟨?_, ?_, Or.inr ⟨assetQuote asset, List.mem_cons_self,
    tokens_assetSegment asset, closed_assetQuote asset⟩, ?_⟩
  · simp only [heq, List.mem_append, List.mem_cons, not_or]
    exact ⟨by decide, by decide, by decide, by decide,
      htoken (by decide) (by decide), by decide, List.not_mem_nil⟩
  · rw [heq]
    exact List.cons_ne_nil _ _
  · have hfree : '$' ∉ ['s', 'u', 'b', 'j', 'e', 'c', 't'] ++
        '_' :: '!' :: ((Token.asset asset).toList ++ ['!']) := by
      simp only [List.mem_append, List.mem_cons, not_or]
      exact ⟨by decide, by decide, by decide, htoken (by decide) (by decide),
        by decide, List.not_mem_nil⟩
    rw [heq]
    exact follows_cons.mpr ⟨fun _ => .subject _, follows_of_not_mem hfree⟩

theorem sound_canvas (background : Color) (canvas : Size)
    (quotes : List Quote) (vs : List Variable) :
    (canvasSegment background canvas).Sound quotes vs := by
  have hmarks :
      MarkedBy [':', ','] (canvasSegment background canvas).tokens.toList := by
    simp only [canvasSegment, String.toList_append, markedBy_append]
    exact ⟨⟨⟨⟨⟨by decide, (plain_hex _).markedBy _⟩, by decide⟩,
      (plain_sideText _).markedBy _⟩, by decide⟩, (plain_sideText _).markedBy _⟩
  refine ⟨hmarks.not_mem (by decide) (by decide), ?_,
    Or.inl (hmarks.not_mem (by decide) (by decide)),
    follows_of_not_mem (hmarks.not_mem (by decide) (by decide))⟩
  simp only [canvasSegment, String.toList_append, List.append_assoc]
  exact List.append_ne_nil_of_left_ne_nil (by decide) _

theorem sound_apply (p : Placement) (provenance : Option String)
    (kind : SegmentKind) (quotes : List Quote) (vs : List Variable) :
    (Segment.mk p.command provenance kind).Sound quotes vs := by
  have hmarks := markedBy_placement p
  refine ⟨hmarks.not_mem (by decide) (by decide), ?_,
    Or.inl (hmarks.not_mem (by decide) (by decide)),
    follows_of_not_mem (hmarks.not_mem (by decide) (by decide))⟩
  unfold Placement.command
  simp only [String.toList_append, List.append_assoc]
  exact List.append_ne_nil_of_left_ne_nil (by decide) _

section Sound

variable {settings : CompilerSettings} {t : Template} {bs : Bindings}
  {canvas : Size} {asset : String} {blocks : List Block}

/-- The variables that the commands of a block name have blocks. -/
theorem mentioned_of_blocks (hd : t.DistinctKeys)
    (hwell : WellDefined t bs blocks) :
    ∀ b ∈ blocks, ∀ c ∈ b.expression.commands, ∀ v ∈ c.mentioned,
      v ∈ blocks.map Block.target := by
  induction hwell with
  | nil => exact List.forall_mem_nil _
  | @snoc blocks b hwell hb _ hsource ih =>
      have hown : b.target ∈ (blocks ++ [b]).map Block.target :=
        List.mem_map_of_mem
          (List.mem_append_right _ (List.mem_singleton.mpr rfl))
      refine List.forall_mem_append.mpr ⟨?_, List.forall_mem_singleton.mpr ?_⟩
      · intro b' hb' c hc v hv
        rw [List.map_append]
        exact List.mem_append_left _ (ih b' hb' c hc v hv)
      · have hself : ∀ v ∈ [b.target], v ∈ (blocks ++ [b]).map Block.target :=
          List.forall_mem_singleton.mpr hown
        intro c hc
        cases hb.form hd with
        | derived hkept hder he =>
            obtain ⟨b', hb', -, rfl⟩ := exists_source hwell hsource hkept hder
            rw [he] at hc
            rw [List.mem_singleton.mp hc]
            exact List.forall_mem_cons.mpr ⟨hown, List.forall_mem_singleton.mpr
              (List.mem_map_of_mem (List.mem_append_left _ hb'))⟩
        | lookedUp _ _ he =>
            rw [he] at hc
            simp only [Expression.commands, List.mem_cons, List.not_mem_nil,
              or_false] at hc
            rcases hc with rfl | rfl | rfl | rfl | rfl
            · exact hself
            · exact hself
            · exact hself
            · exact hself
            · exact List.forall_mem_nil _
        | assigned _ _ he =>
            rw [he] at hc
            rw [List.mem_singleton.mp hc]
            exact hself

theorem sound_command (hd : t.DistinctKeys)
    (hdefs : definitions t bs = Definitions.ofBlocks blocks)
    (hwell : WellDefined t bs blocks) {b : Block} (hb : b ∈ blocks)
    {c : Command} (hc : c ∈ b.expression.commands) :
    (Segment.mk c.text (some b.layer) .definition).Sound (quotes t bs asset)
      (blocks.map Block.target) := by
  have hform := (hwell.isBlock b hb).wellFormed c hc
  have hmarks := Command.markedBy_text hform
  have hmarked := Command.marked hform
  refine ⟨hmarks.not_mem (by decide) (by decide), Command.text_ne_nil c, ?_,
    Command.follows hform (mentioned_of_blocks hd hwell b hb c hc)⟩
  cases hq : c.quote? with
  | none =>
      rw [hq] at hmarked
      exact Or.inl hmarked
  | some q =>
      rw [hq] at hmarked
      refine Or.inr ⟨q, List.mem_cons_of_mem _ ?_, hmarked⟩
      rw [hdefs]
      exact List.mem_filterMap.mpr ⟨(b.layer, c),
        List.mem_flatMap.mpr ⟨b, hb, List.mem_map_of_mem hc⟩, hq⟩

theorem sound_text (hdefs : definitions t bs = Definitions.ofBlocks blocks)
    (hwell : WellDefined t bs blocks) {e : Emission} {text : TextLayer}
    (h : EmitsText settings t bs e text) (quotes : List Quote)
    (provenance : Option String) (kind : SegmentKind) :
    (Segment.mk e.content provenance kind).Sound quotes
      (blocks.map Block.target) := by
  have hmarks := h.markedBy_content
  refine ⟨hmarks.not_mem (by decide) (by decide), h.content_ne_nil,
    Or.inl (hmarks.not_mem (by decide) (by decide)), ?_⟩
  cases hdefined : definedFor t bs e.key text with
  | none => exact follows_of_not_mem (h.not_mem_dollar hdefined)
  | some v =>
      obtain ⟨b, hb, -, rfl⟩ := (definedFor_eq_some_iff hdefs hwell).mp hdefined
      refine (h.follows_dollar hdefined).mono ?_
      rintro _ ⟨trail, rfl⟩
      exact .reference (List.mem_map_of_mem hb) (stops_cons rfl trail)

theorem sound_image {e : Emission} {image : ImageLayer} {width height : Int}
    (h : EmitsImage t e image width height) (quotes : List Quote)
    (vs : List Variable) (provenance : Option String) (kind : SegmentKind) :
    (Segment.mk e.content provenance kind).Sound quotes vs := by
  have hmarks := h.markedBy_content
  refine ⟨hmarks.not_mem (by decide) (by decide), h.content_ne_nil,
    Or.inl (hmarks.not_mem (by decide) (by decide)), ?_⟩
  have hnumber (n : Int) : '$' ∉ (intText n).toList :=
    (numeric_intText n).plain.not_mem (by decide)
  have hrest : '$' ∉ ",c_fit,w_".toList ++ ((intText width).toList ++
      (",h_".toList ++ (intText height).toList)) := by
    simp only [List.mem_append, not_or]
    exact ⟨by decide, hnumber _, by decide, hnumber _⟩
  simp only [h.content, h.identifier, String.toList_append, List.append_assoc]
  refine (follows_append (by decide) _).mpr ?_
  unfold imageToken
  split
  · exact (follows_append
      ((markedBy_asset _).not_mem (by decide) (by decide)) _).mpr
      (follows_of_not_mem hrest)
  · simp only [subjectVariable, String.reduceToList, List.cons_append,
      List.nil_append] at hrest ⊢
    refine follows_cons.mpr ⟨fun _ => .subject _, ?_⟩
    exact (follows_append (a := ['s', 'u', 'b', 'j', 'e', 'c', 't'])
      (by decide) _).mpr (follows_of_not_mem hrest)

theorem sound_segments (hd : t.DistinctKeys)
    (hdefs : definitions t bs = Definitions.ofBlocks blocks)
    (hwell : WellDefined t bs blocks) :
    ∀ s ∈ (compile settings t bs canvas asset).segments,
      s.Sound (quotes t bs asset) (blocks.map Block.target) := by
  intro s hs
  rcases (mem_segments hdefs).mp hs with rfl | ⟨b, hb, c, hc, rfl⟩ | rfl
    | ⟨e, he, hs⟩
  · exact sound_asset t bs asset _
  · exact sound_command hd hdefs hwell hb hc
  · exact sound_canvas _ _ _ _
  · simp only [Emission.segments, List.mem_cons, List.not_mem_nil, or_false]
      at hs
    rcases emits_of_mem he with ⟨text, h⟩ | ⟨image, width, height, h⟩
    · rcases hs with rfl | rfl
      · exact sound_text hdefs hwell h _ _ _
      · obtain ⟨p, hp⟩ := h.placed
        exact hp ▸ sound_apply p _ _ _ _
    · rcases hs with rfl | rfl
      · exact sound_image h _ _ _ _
      · obtain ⟨p, hp⟩ := h.placed
        exact hp ▸ sound_apply p _ _ _ _

end Sound

/-! ## The whole string -/

/-- A string of commands in which every separator is one that was put there. -/
structure Separated (settings : CompilerSettings) (t : Template) (bs : Bindings)
    (asset : String) (p : Plan) : Prop where
  commands : split '/' p.transformation.toList = p.segments.map fun s =>
    s.tokens.toList
  nonempty : ∀ s ∈ p.segments, s.tokens ≠ ""
  /-- A text has its parameters, and the last of them its three parts. -/
  texts : ∀ e ∈ p.layers, e.kind = .textContent →
    ∃ text, EmitsText settings t bs e text ∧
      split ',' e.content.toList =
        (textParameters text (baseFontSize t settings) e.identifier).map
          String.toList ∧
      (split ',' e.content.toList).getLast?.map (split ':') =
        some ["l_text".toList,
          (Token.font text.font
            (text.fontSize.resolve (baseFontSize t settings))).toList,
          e.identifier.toList]
  images : ∀ e ∈ p.layers, e.kind = .imageContent →
    ∃ image width height, EmitsImage t e image width height ∧
      split ',' e.content.toList =
        [("l_" ++ e.identifier).toList, "c_fit".toList,
          ("w_" ++ intText width).toList, ("h_" ++ intText height).toList]
  /-- An exclamation mark is one of the two of a whole command that quotes. -/
  marks : ∀ pre post, p.transformation.toList = pre ++ '!' :: post →
    ∃ q ∈ quotes t bs asset, q.Closed ∧ ∃ before after,
      p.transformation.toList = before ++ q.text ++ after ∧
      (before = [] ∨ ∃ b, before = b ++ ['/']) ∧
      (after = [] ∨ ∃ a, after = '/' :: a) ∧
      (pre = before ++ q.lead ∨ pre = before ++ (q.lead ++ '!' :: q.quoted))
  dollars : ∀ pre post, p.transformation.toList = pre ++ '$' :: post →
    Begins (p.variables.map (·.2)) post

theorem toList_transformation (p : Plan) :
    p.transformation.toList =
      join '/' (p.segments.map fun s => s.tokens.toList) := by
  rw [transformation, toList_intercalate_eq_join rfl, List.map_map]
  rfl

theorem split_transformation {settings : CompilerSettings} {t : Template}
    (hd : t.DistinctKeys) (bs : Bindings) (canvas : Size) (asset : String) :
    split '/' (compile settings t bs canvas asset).transformation.toList =
      (compile settings t bs canvas asset).segments.map fun s =>
        s.tokens.toList := by
  obtain ⟨blocks, hdefs, hwell, -⟩ := exists_blocks hd bs
  rw [toList_transformation]
  refine split_join ?_ (List.cons_ne_nil _ _)
  intro piece hpiece
  obtain ⟨s, hs, rfl⟩ := List.mem_map.mp hpiece
  exact (sound_segments hd hdefs hwell s hs).slash

/-- A place in the string is one in a command, and the command is between
slashes or the ends of the string. -/
theorem exists_segment_of_place {p : Plan} {c : Char} (hc : c ≠ '/')
    {pre post : List Char} (h : p.transformation.toList = pre ++ c :: post) :
    ∃ s ∈ p.segments, ∃ before l r after, s.tokens.toList = l ++ c :: r ∧
      pre = before ++ l ∧ post = r ++ after ∧
      (before = [] ∨ ∃ b, before = b ++ ['/']) ∧
      (after = [] ∨ ∃ a, after = '/' :: a) := by
  rw [toList_transformation] at h
  obtain ⟨piece, hpiece, before, l, r, after, hlr, hpre, hpost, hbefore,
      hafter⟩ :=
    exists_piece_of_join hc h
  obtain ⟨s, hs, rfl⟩ := List.mem_map.mp hpiece
  exact ⟨s, hs, before, l, r, after, hlr, hpre, hpost, hbefore, hafter⟩

section Sound

variable {p : Plan} {quotes : List Quote} {vs : List Variable}

theorem quote_of_mark (hsound : ∀ s ∈ p.segments, s.Sound quotes vs)
    {pre post : List Char} (h : p.transformation.toList = pre ++ '!' :: post) :
    ∃ q ∈ quotes, q.Closed ∧ ∃ before after,
      p.transformation.toList = before ++ q.text ++ after ∧
      (before = [] ∨ ∃ b, before = b ++ ['/']) ∧
      (after = [] ∨ ∃ a, after = '/' :: a) ∧
      (pre = before ++ q.lead ∨
        pre = before ++ (q.lead ++ '!' :: q.quoted)) := by
  obtain ⟨s, hs, before, l, r, after, hlr, rfl, rfl, hbefore, hafter⟩ :=
    exists_segment_of_place (by decide) h
  rcases (hsound s hs).marked with hfree | ⟨q, hq, htext, hclosed⟩
  · exact absurd (hlr ▸ List.mem_append_right _ List.mem_cons_self) hfree
  · rw [htext] at hlr
    refine ⟨q, hq, hclosed, before, after, ?_, hbefore, hafter, ?_⟩
    · rw [h, hlr]
      simp only [List.append_assoc, List.cons_append]
    · exact (Quote.mark_of_closed hclosed hlr).imp (congrArg (before ++ ·))
        (congrArg (before ++ ·))

theorem begins_of_dollar (hsound : ∀ s ∈ p.segments, s.Sound quotes vs)
    {pre post : List Char} (h : p.transformation.toList = pre ++ '$' :: post) :
    Begins vs post := by
  obtain ⟨s, hs, before, l, r, after, hlr, rfl, rfl, -, hafter⟩ :=
    exists_segment_of_place (by decide) h
  have hstops : Stops after := by
    rcases hafter with rfl | ⟨a, rfl⟩
    · exact fun _ h => absurd h (Option.not_mem_none _)
    · exact stops_cons rfl a
  exact ((hsound s hs).follows l r hlr).append hstops

end Sound

/-- Compiling puts no separator into the string but its own, whatever the texts
are that it is given. -/
theorem compile_separated (settings : CompilerSettings) {t : Template}
    (hd : t.DistinctKeys) (bs : Bindings) (canvas : Size) (asset : String) :
    Separated settings t bs asset (compile settings t bs canvas asset) := by
  obtain ⟨blocks, hdefs, hwell, -⟩ := exists_blocks hd bs
  have hsound : ∀ s ∈ (compile settings t bs canvas asset).segments,
      s.Sound (quotes t bs asset) (blocks.map Block.target) :=
    sound_segments hd hdefs hwell
  constructor
  case commands => exact split_transformation hd bs canvas asset
  case nonempty =>
    intro s hs hempty
    exact (hsound s hs).nonempty (String.toList_eq_nil_iff.mpr hempty)
  case texts =>
    intro e he hkind
    rcases emits_of_mem he with ⟨text, h⟩ | ⟨image, width, height, h⟩
    · exact ⟨text, h, h.split_content, h.split_last⟩
    · rw [h.kind] at hkind
      cases hkind
  case images =>
    intro e he hkind
    rcases emits_of_mem he with ⟨text, h⟩ | ⟨image, width, height, h⟩
    · rw [h.kind] at hkind
      cases hkind
    · exact ⟨image, width, height, h, h.split_content⟩
  case marks => exact fun pre post hplace => quote_of_mark hsound hplace
  case dollars =>
    intro pre post hplace
    rw [targets_of_blocks hdefs]
    exact begins_of_dollar hsound hplace

theorem priceTag_separated :
    Template.priceTag.DistinctKeys ∧
      Separated ⟨1080, 48⟩ Template.priceTag Table.empty "a!b,c/$d"
        (compile ⟨1080, 48⟩ Template.priceTag Table.empty ⟨1080, 1080⟩
          "a!b,c/$d") := by
  have hd : Template.priceTag.DistinctKeys := by decide
  exact ⟨hd, compile_separated _ hd _ _ _⟩

end Plan

end Placard
