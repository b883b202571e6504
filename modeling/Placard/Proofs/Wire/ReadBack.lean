import Placard.Proofs.Wire.Credit
import Placard.Proofs.Wire.Forms
import Placard.Proofs.Wire.Separators

/-!
# A compiled template is read back as it was

The string of commands carries no keys, and still every fragment of it is given
back the layer it came from. The reading goes through the string once, so the
proof does too, with what the reader knows at each place: the fragments so far,
which are the segments so far, and the identifiers used so far, which are those
of all texts and pictures so far and nothing else.

Commands on variables use no identifier up, and it does not matter what has
been used. For texts and pictures nothing else matters: where several layers
show the same, only the count of those before tells them apart.
-/

namespace Placard

open Text

/-- A segment as it should be read back. -/
def Segment.fragment (s : Segment) : Fragment :=
  ⟨s.tokens, s.provenance, s.kind⟩

/-! ## The identifiers of a plan -/

/-- The identifiers of the variable of a block. -/
def Block.needles (b : Block) : Provenance :=
  [⟨b.target.value.toList, b.layer, .«variables»⟩,
    ⟨b.target.scratch.toList, b.layer, .«variables»⟩]

/-- The identifier of what a layer shows. -/
def Emission.needle (e : Emission) : Needle :=
  ⟨e.identifier.toList, e.key, if e.kind =
    .imageContent then .images else .texts⟩

theorem Emission.needle_category (e : Emission) :
    e.needle.category ≠ .«variables» := by
  unfold needle
  simp only []
  split <;> nofun

namespace Plan

/-- The identifiers of blocks, and those of what layers show behind them. -/
def needles (blocks : List Block) (es : List Emission) : Provenance :=
  blocks.flatMap Block.needles ++ es.map Emission.needle

theorem needles_append_cons (blocks : List Block) (front : List Emission)
    (e : Emission) (back : List Emission) :
    needles blocks (front ++ e :: back) =
      needles blocks front ++ e.needle :: back.map Emission.needle := by
  rw [needles, needles, List.map_append, List.map_cons, List.append_assoc]

section Identifiers

variable {settings : CompilerSettings} {t : Template} {bs : Bindings}
  {canvas : Size} {asset : String} {blocks : List Block}

theorem ofPlan_compile
    (hdefs : definitions t bs = Definitions.ofBlocks blocks) :
    Provenance.ofPlan (compile settings t bs canvas asset) =
      needles blocks (compile settings t bs canvas asset).layers := by
  unfold Provenance.ofPlan needles
  rw [variables_of_blocks hdefs, List.flatMap_map]
  refine congrArg₂ (· ++ ·) rfl ?_
  rw [← List.filterMap_eq_map]
  refine List.filterMap_congr fun e he => ?_
  rcases emits_of_mem he with ⟨text, h⟩ | ⟨image, width, height, h⟩
  · simp only [h.kind, Provenance.categoryOf?, Option.map_some, Function.comp,
      Emission.needle]
    rfl
  · simp only [h.kind, Provenance.categoryOf?, Option.map_some, Function.comp,
      Emission.needle]
    rfl

/-- An identifier of a variable is one of the two of a block. -/
theorem needle_of_variables {es : List Emission} {n : Needle}
    (hn : n ∈ needles blocks es)
    (hcat : n.category = .«variables») :
    ∃ b ∈ blocks, n.layer = b.layer ∧
      (n.value = '$' :: b.target.register ∨
        n.value = '$' :: b.target.scratchRegister) := by
  rcases List.mem_append.mp hn with hn | hn
  · obtain ⟨b, hb, hn⟩ := List.mem_flatMap.mp hn
    refine ⟨b, hb, ?_⟩
    simp only [Block.needles, List.mem_cons, List.not_mem_nil, or_false] at hn
    rcases hn with rfl | rfl
    · exact ⟨rfl, Or.inl b.target.toList_value⟩
    · exact ⟨rfl, Or.inr b.target.toList_scratch⟩
  · obtain ⟨e, -, rfl⟩ := List.mem_map.mp hn
    exact absurd hcat e.needle_category

theorem dollarNames (hwell : WellDefined t bs blocks) (es : List Emission) :
    Provenance.DollarNames (needles blocks es) := by
  intro n hn hcat
  obtain ⟨b, hb, -, hvalue⟩ := needle_of_variables hn hcat
  have hnamed := Template.named_variable (hwell.isBlock b hb).named
  have hfree := hnamed.not_mem_register (c := '_') rfl
  rcases hvalue with hvalue | hvalue
  · exact ⟨_, hvalue, hfree.1⟩
  · exact ⟨_, hvalue, hfree.2⟩

/-- A register is of one block only. -/
theorem eq_of_register (hwell : WellDefined t bs blocks) {b b' : Block}
    (hb : b ∈ blocks) (hb' : b' ∈ blocks) {r : List Char}
    (hr : r = b.target.register ∨ r = b.target.scratchRegister)
    (hr' : r = b'.target.register ∨ r = b'.target.scratchRegister) :
    b' = b := by
  have htarget : b'.target = b.target := by
    rcases hr with rfl | rfl
    · rcases hr' with heq | heq
      · exact (Variable.register_injective heq).symm
      · exact absurd heq (Variable.register_ne_scratchRegister _ _)
    · rcases hr' with heq | heq
      · exact absurd heq.symm (Variable.register_ne_scratchRegister _ _)
      · exact (Variable.scratchRegister_injective heq).symm
  exact List.inj_on_of_nodup_map hwell.nodup_targets hb' hb htarget

/-- A command of a block is credited to the layer of the block. -/
theorem resolve_command (hwell : WellDefined t bs blocks) {b : Block}
    (hb : b ∈ blocks) {c : Command} (hc : c.target? = some b.target)
    (es : List Emission) (claimed : List Nat) :
    (needles blocks es).resolve .«variables» c.text.toList claimed =
      (some b.layer, claimed) := by
  obtain ⟨pre, r, tail, htext, hpre, hr⟩ := Command.exists_first hc
  have hnamed := Template.named_variable (hwell.isBlock b hb).named
  have hlow : '_' ∉ r := by
    rcases hr with rfl | rfl
    · exact (hnamed.not_mem_register rfl).1
    · exact (hnamed.not_mem_register rfl).2
  have hdollar : '$' ∉ pre := by
    rcases hpre with rfl | rfl
    · exact List.not_mem_nil
    · decide
  have hown :
      (⟨'$' :: r, b.layer, .«variables»⟩ : Needle) ∈ needles blocks es := by
    refine List.mem_append_left _ (List.mem_flatMap.mpr ⟨b, hb, ?_⟩)
    rw [Block.needles, Variable.toList_value, Variable.toList_scratch]
    rcases hr with rfl | rfl
    · exact List.mem_cons_self
    · exact List.mem_cons_of_mem _ List.mem_cons_self
  rw [htext]
  refine Provenance.resolve_variable (dollarNames hwell es) hown rfl rfl hlow
    hdollar tail ?_ claimed
  intro n' hn' hcat hvalue
  obtain ⟨b', hb', hlayer, hvalue'⟩ := needle_of_variables hn' hcat
  rw [hvalue, List.cons.injEq, List.cons.injEq] at hvalue'
  rw [hlayer, eq_of_register hwell hb hb' hr (hvalue'.imp And.right And.right)]

end Identifiers

/-! ## Reading -/

theorem parseFrom_cons {table : Provenance} {before : List Fragment}
    {claimed claimed' : List Nat} {s : Segment}
    (h : Fragment.classify table before claimed s.tokens.toList =
      (s.kind, s.provenance, claimed')) (rest : List (List Char)) :
    Fragment.parseFrom table before claimed (s.tokens.toList :: rest) =
      Fragment.parseFrom table (s.fragment :: before) claimed' rest := by
  rw [Fragment.parseFrom, h]
  simp only [Segment.fragment, String.ofList_toList]

section Parse

variable {settings : CompilerSettings} {t : Template} {bs : Bindings}
  {canvas : Size} {asset : String} {blocks : List Block}

/-- The commands of a block are read one after the other; the end of a test is
credited to the layer of the command in front of it. -/
theorem parseFrom_block (hd : t.DistinctKeys) (hwell : WellDefined t bs blocks)
    {b : Block} (hb : b ∈ blocks) (es : List Emission) (before : List Fragment)
    (claimed : List Nat) (rest : List (List Char)) :
    Fragment.parseFrom (needles blocks es) before claimed
        ((b.segments.map fun s => s.tokens.toList) ++ rest) =
      Fragment.parseFrom (needles blocks es)
        ((b.segments.map Segment.fragment).reverse ++ before) claimed rest := by
  have hread {c : Command} (hc : c.target? = some b.target)
      (before : List Fragment) (rest : List (List Char)) :
      Fragment.parseFrom (needles blocks es) before claimed
        (c.text.toList :: rest) = Fragment.parseFrom (needles blocks es)
          ((Segment.mk c.text (some b.layer) .definition).fragment ::
            before) claimed
          rest := by
    refine parseFrom_cons (s := ⟨c.text, some b.layer, .definition⟩) ?_ rest
    rw [Fragment.classify_command hc, resolve_command hwell hb hc es claimed]
  cases (hwell.isBlock b hb).form hd with
  | derived _ _ he =>
      rw [Block.segments, he]
      exact hread rfl _ _
  | lookedUp _ _ he =>
      rw [Block.segments, he]
      simp only [Expression.commands, List.map_cons, List.map_nil,
        List.cons_append, List.nil_append]
      rw [hread rfl, hread rfl, hread rfl, hread rfl]
      refine parseFrom_cons
        (s := ⟨Command.endIf.text, some b.layer, .definition⟩) ?_ rest
      rw [Fragment.classify_endIf]
      rfl
  | assigned _ _ he =>
      rw [Block.segments, he]
      exact hread rfl _ _

theorem parseFrom_blocks (hd : t.DistinctKeys)
    (hwell : WellDefined t bs blocks) {bs' : List Block} (hsub : bs' ⊆ blocks)
    (es : List Emission) (before : List Fragment) (claimed : List Nat)
    (rest : List (List Char)) :
    Fragment.parseFrom (needles blocks es) before claimed
        (((bs'.flatMap Block.segments).map fun s => s.tokens.toList) ++ rest) =
      Fragment.parseFrom (needles blocks es)
        (((bs'.flatMap Block.segments).map Segment.fragment).reverse ++
          before) claimed
        rest := by
  induction bs' generalizing before with
  | nil => rfl
  | cons b bs' ih =>
      rw [List.cons_subset] at hsub
      rw [List.flatMap_cons, List.map_append, List.append_assoc,
        parseFrom_block hd hwell hsub.1, ih hsub.2, List.map_append,
        List.reverse_append, List.append_assoc]

/-- The identifier of a layer is taken, if of what layers show exactly the
identifiers before it have been used. -/
theorem resolve_emission {done : List Emission} (todo : List Emission)
    (e : Emission) {claimed : List Nat}
    (hfree : (needles blocks done).length ∉ claimed)
    (hused : ∀ i, (blocks.flatMap Block.needles).length ≤ i →
      i < (needles blocks done).length → i ∈ claimed) :
    (needles blocks (done ++ e :: todo)).resolve e.needle.category
      e.needle.value claimed =
      (some e.key, (needles blocks done).length :: claimed) := by
  rw [needles_append_cons]
  refine Provenance.resolve_whole e.needle_category hfree ?_
  intro i n hget hcat
  have hi := (List.getElem?_eq_some_iff.mp hget).1
  refine hused i (Nat.le_of_not_lt fun hlt => ?_) hi
  -- An identifier in front of them all is that of a variable.
  rw [needles, List.getElem?_append_left hlt] at hget
  obtain ⟨b, -, hn⟩ := List.mem_flatMap.mp (List.mem_of_getElem? hget)
  simp only [Block.needles, List.mem_cons, List.not_mem_nil, or_false] at hn
  rcases hn with rfl | rfl
  · exact e.needle_category hcat.symm
  · exact e.needle_category hcat.symm

/-- What a layer shows is read as that, and where it goes is credited to it. -/
theorem classify_emission (hassets : t.NoTextAssets) {e : Emission}
    (he : e ∈ (compile settings t bs canvas asset).layers) (table : Provenance)
    (before : List Fragment) (claimed : List Nat) :
    Fragment.classify table before claimed e.content.toList =
      (e.kind, table.resolve e.needle.category e.needle.value claimed) ∧
    Fragment.isContent ⟨e.content, some e.key, e.kind⟩ = true ∧
    ∃ p : Placement, e.apply = p.command := by
  rcases emits_of_mem he with ⟨text, h⟩ | ⟨image, width, height, h⟩
  · have hcat : e.needle.category = .texts := by
      rw [Emission.needle, h.kind]; rfl
    rw [hcat, h.kind]
    exact ⟨h.classify, rfl, h.placed⟩
  · have hcat : e.needle.category = .images := by
      rw [Emission.needle, h.kind]; rfl
    rw [hcat, h.kind]
    have hfree := Template.noTextAssets_iff.mp hassets _ _ h.declared h.shown
    exact ⟨h.classify hfree, rfl, h.placed⟩

/-- The two commands of a layer are read, and its identifier is used. -/
theorem parseFrom_emission (hassets : t.NoTextAssets) {done : List Emission}
    (todo : List Emission) {e : Emission}
    (he : e ∈ (compile settings t bs canvas asset).layers) {claimed : List Nat}
    (hfree : (needles blocks done).length ∉ claimed)
    (hused : ∀ i, (blocks.flatMap Block.needles).length ≤ i →
      i < (needles blocks done).length → i ∈ claimed)
    (before : List Fragment) (rest : List (List Char)) :
    Fragment.parseFrom (needles blocks (done ++ e :: todo)) before claimed
        ((e.segments.map fun s => s.tokens.toList) ++ rest) =
      Fragment.parseFrom (needles blocks (done ++ e :: todo))
        ((e.segments.map Segment.fragment).reverse ++ before)
        ((needles blocks done).length :: claimed) rest := by
  have hresolve := resolve_emission todo e hfree hused
  obtain ⟨hcontent, hshown, p, hp⟩ :=
    classify_emission hassets he (needles blocks (done ++ e :: todo))
      before claimed
  rw [hresolve] at hcontent
  simp only [Emission.segments, List.map_cons, List.map_nil, List.cons_append,
    List.nil_append, List.reverse_cons, List.reverse_nil]
  rw [parseFrom_cons (s := ⟨e.content, some e.key, e.kind⟩) hcontent]
  refine parseFrom_cons (s := ⟨e.apply, some e.key, .apply⟩) ?_ rest
  simp only [hp]
  rw [Fragment.classify_apply, Segment.fragment, Fragment.applied?_cons hshown]

/-- The invariant of the layers: what has been used are the identifiers of those
that have been read. -/
theorem parseFrom_layers (hassets : t.NoTextAssets)
    {done todo : List Emission}
    (hlayers : (compile settings t bs canvas asset).layers = done ++ todo)
    {claimed : List Nat}
    (hclaimed : ∀ i, i ∈ claimed ↔
      (blocks.flatMap Block.needles).length ≤ i ∧
        i < (needles blocks done).length)
    (before : List Fragment) :
    Fragment.parseFrom
      (needles blocks (compile settings t bs canvas asset).layers) before
        claimed ((todo.flatMap Emission.segments).map fun s =>
          s.tokens.toList) =
      before.reverse ++ (todo.flatMap Emission.segments).map
        Segment.fragment := by
  induction todo generalizing done claimed before with
  | nil =>
      rw [List.flatMap_nil, List.map_nil, List.map_nil, List.append_nil]
      rfl
  | cons e todo ih =>
      have he : e ∈ (compile settings t bs canvas asset).layers := by
        rw [hlayers]
        exact List.mem_append_right _ List.mem_cons_self
      have hfree : (needles blocks done).length ∉ claimed :=
        fun h => absurd ((hclaimed _).mp h).2 (Nat.lt_irrefl _)
      have hread := parseFrom_emission hassets todo he hfree
        (fun i hlo hhi => (hclaimed i).mpr ⟨hlo, hhi⟩) before
        ((todo.flatMap Emission.segments).map fun s => s.tokens.toList)
      rw [← hlayers] at hread
      have hlayers' : (compile settings t bs canvas asset).layers =
          (done ++ [e]) ++ todo := by
        rw [hlayers, List.append_assoc, List.singleton_append]
      have hclaimed' (i : Nat) : i ∈ (needles blocks done).length :: claimed ↔
          (blocks.flatMap Block.needles).length ≤ i ∧
            i < (needles blocks (done ++ [e])).length := by
        rw [List.mem_cons, hclaimed, needles_append_cons]
        simp only [needles, List.length_append, List.length_map,
          List.length_cons, List.length_nil]
        omega
      rw [List.flatMap_cons, List.map_append, hread, ih hlayers' hclaimed',
        List.map_append, List.reverse_append, List.reverse_reverse,
        List.append_assoc]

theorem filter_tokens (hd : t.DistinctKeys)
    (hdefs : definitions t bs = Definitions.ofBlocks blocks)
    (hwell : WellDefined t bs blocks) :
    (((compile settings t bs canvas asset).segments.map
        fun s => s.tokens.toList).filter fun s => !s.isEmpty) =
      (compile settings t bs canvas asset).segments.map fun s =>
        s.tokens.toList := by
  refine List.filter_eq_self.mpr fun piece hpiece => ?_
  obtain ⟨s, hs, rfl⟩ := List.mem_map.mp hpiece
  rw [Bool.not_eq_true', List.isEmpty_eq_false_iff]
  exact (sound_segments hd hdefs hwell s hs).nonempty

/-- The keys of the segments: none for the asset, for all commands of a block
the layer of the block, and for what is shown and for where it goes the layer
that shows it. -/
theorem provenance_segments
    (hdefs : definitions t bs = Definitions.ofBlocks blocks) :
    (compile settings t bs canvas asset).segments.map Segment.provenance =
      none :: blocks.flatMap (fun b => b.expression.commands.map fun _ => some
        b.layer) ++ some canvasKey ::
          (compile settings t bs canvas asset).layers.flatMap
            fun e => [some e.key, some e.key] := by
  rw [segments_of_blocks hdefs]
  simp only [List.map_append, List.map_cons, List.map_flatMap, Block.segments,
    Emission.segments, List.map_map, List.map_nil, List.cons_append]
  rfl

end Parse

/-- Reading the string of a plan back gives every command its text, its kind and
its layer. -/
theorem parse_transformation (settings : CompilerSettings) {t : Template}
    (hd : t.DistinctKeys) (hassets : t.NoTextAssets) (bs : Bindings)
    (canvas : Size) (asset : String) :
    Fragment.parse (Provenance.ofPlan (compile settings t bs canvas asset))
        (compile settings t bs canvas asset).transformation =
      (compile settings t bs canvas asset).segments.map
        (fun s => ⟨s.tokens, s.provenance, s.kind⟩) ∧
    ∃ blocks, WellDefined t bs blocks ∧
      (compile settings t bs canvas asset).variables =
        blocks.map (fun b => (b.layer, b.target)) ∧
      (compile settings t bs canvas asset).segments.map Segment.provenance =
        none :: blocks.flatMap (fun b => b.expression.commands.map fun _ => some
          b.layer) ++ some canvasKey ::
            (compile settings t bs canvas asset).layers.flatMap
              fun e => [some e.key, some e.key] := by
  obtain ⟨blocks, hdefs, hwell, -⟩ := exists_blocks hd bs
  refine ⟨?_, blocks, hwell, variables_of_blocks hdefs,
    provenance_segments hdefs⟩
  have hnone (i : Nat) : i ∈ ([] : List Nat) ↔
      (blocks.flatMap Block.needles).length ≤ i ∧
        i < (needles blocks []).length := by
    rw [needles, List.map_nil, List.append_nil]
    exact ⟨fun h => absurd h List.not_mem_nil,
      fun h => absurd h.2 (Nat.not_lt.mpr h.1)⟩
  rw [Fragment.parse, split_transformation hd, filter_tokens hd hdefs hwell,
    ofPlan_compile hdefs, segments_of_blocks hdefs]
  simp only [List.cons_append, List.map_cons, List.map_append]
  rw [parseFrom_cons (Fragment.classify_asset asset),
    parseFrom_blocks hd hwell (List.Subset.refl _),
    parseFrom_cons (Fragment.classify_canvas _ _),
    parseFrom_layers hassets (List.nil_append _).symm hnone]
  simp only [List.reverse_cons, List.reverse_append, List.reverse_reverse,
    List.reverse_nil, List.nil_append, List.append_assoc, List.cons_append]
  rfl

theorem parse_priceTag :
    Template.priceTag.DistinctKeys ∧ Template.priceTag.NoTextAssets ∧
      Fragment.parse (Provenance.ofPlan
          (compile ⟨1080, 48⟩ Template.priceTag Table.empty ⟨1080, 1080⟩
            "shop/shoe"))
          (compile ⟨1080, 48⟩ Template.priceTag Table.empty ⟨1080, 1080⟩
            "shop/shoe").transformation =
        (compile ⟨1080, 48⟩ Template.priceTag Table.empty ⟨1080, 1080⟩
          "shop/shoe").segments.map fun s =>
            ⟨s.tokens, s.provenance, s.kind⟩ := by
  have hd : Template.priceTag.DistinctKeys := by decide
  have hassets : Template.priceTag.NoTextAssets := by
    intro key image hmem _ rest hrest
    simp only [Template.priceTag, List.mem_cons, Layer.mk.injEq, reduceCtorEq,
      and_false, false_or, List.not_mem_nil, or_false, LayerBody.image.injEq]
      at hmem
    rw [hmem.2, Option.some.injEq] at hrest
    have hchars := congrArg String.toList hrest
    simp only [String.toList_append, String.reduceToList, List.cons_append,
      List.nil_append] at hchars
    exact absurd (List.cons.inj hchars).1 (by decide)
  exact ⟨hd, hassets, (parse_transformation _ hd hassets _ _ _).1⟩

end Plan

end Placard
