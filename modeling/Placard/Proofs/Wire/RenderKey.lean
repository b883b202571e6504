import Placard.Proofs.Wire.Separators
import Placard.Render

/-!
# A rendering is identified by its key

The parts of a render key are joined with colons, and none of them is escaped: a
colon may stand in the id of a template, and stands all through a string of
commands. The key can be taken apart all the same. Every string of commands
begins with the variable of the asset and its exclamation mark, and has that
nowhere else, so of two strings of commands that one text ends with neither is
longer. In front of it stands the hash, which has a fixed length.
-/

namespace Placard

open Text

namespace Plan

/-! ## The marker -/

/-- What a string of commands begins with, behind the dollar sign. -/
def marker : List Char := "subject_!".toList

/-- No dollar sign begins the marker. -/
def Unmarked (s : List Char) : Prop :=
  Follows '$' (fun post => ¬ marker <+: post) s

theorem unmarked_of_not_mem_mark {s : List Char} (h : '!' ∉ s) :
    Unmarked s := by
  rintro pre post rfl hpost
  exact h (List.mem_append_right _
    (List.mem_cons_of_mem _ (hpost.subset (by decide))))

theorem unmarked_command {c : Command} (h : c.WellFormed) :
    Unmarked c.text.toList := by
  refine Command.follows_names h ?_ ?_
  · rintro v - rest - ⟨r, hr⟩
    cases (List.cons.inj hr).1
  · rintro v - rest - ⟨r, hr⟩
    cases (List.cons.inj hr).1

/-- What stands at the front and has no slash stands before the first slash. -/
theorem prefix_of_prefix_append {p r after : List Char} (h : p <+: r ++ after)
    (hafter : after = [] ∨ ∃ a, after = '/' :: a) (hp : '/' ∉ p) : p <+: r := by
  rcases hafter with rfl | ⟨a, rfl⟩
  · rwa [List.append_nil] at h
  · rcases List.prefix_or_prefix_of_prefix h (List.prefix_append r _) with
      hr | ⟨q, rfl⟩
    · exact hr
    · have hq := (List.prefix_append_right_inj r).mp h
      cases q with
      | nil => exact (List.append_nil r).symm ▸ List.prefix_rfl
      | cons d q =>
          rw [(List.cons_prefix_cons.mp hq).1] at hp
          exact absurd (List.mem_append_right r List.mem_cons_self) hp

theorem unmarked_join {pieces : List (List Char)}
    (h : ∀ piece ∈ pieces, Unmarked piece) : Unmarked (join '/' pieces) := by
  intro pre post hjoin hpost
  obtain ⟨piece, hpiece, _, l, r, after, rfl, -, rfl, -, hafter⟩ :=
    exists_piece_of_join (by decide) hjoin
  exact h _ hpiece l r rfl (prefix_of_prefix_append hpost hafter (by decide))

/-! ## The commands -/

theorem wellFormed_add {t : Template} {bs : Bindings} {ds : Definitions}
    (h : ∀ x ∈ ds.commands, x.2.WellFormed) (key : String) :
    ∀ x ∈ (Definitions.add t bs (t.keptDerivations bs)
      ((t.keptDerivations bs).values.map Derivation.source) ds key).commands,
      x.2.WellFormed := by
  unfold Definitions.add
  split
  · exact h
  · next text _ =>
      simp only []
      split
      · exact h
      · next target htarget =>
          split
          · exact h
          · split
            · exact h
            · refine List.forall_mem_append.mpr ⟨h, List.forall_mem_map.mpr ?_⟩
              exact wellFormed_expressionOf t bs key text
                (Template.named_variable htarget)

/-- Also where two layers have one key, every command that is put out is well
formed. -/
theorem wellFormed_definitions (t : Template) (bs : Bindings) :
    ∀ x ∈ (definitions t bs).commands, x.2.WellFormed := by
  refine List.foldlRecOn
    (motive := fun ds : Definitions => ∀ x ∈ ds.commands, x.2.WellFormed)
    (t.definitionOrder (t.keptDerivations bs)) _
    (List.forall_mem_nil _) ?_
  intro ds h key _
  exact wellFormed_add h key

section Compile

variable {settings : CompilerSettings} {t : Template} {bs : Bindings}
  {canvas : Size} {asset : String}

theorem unmarked_emission {e : Emission}
    (he : e ∈ (compile settings t bs canvas asset).layers) :
    ∀ s ∈ e.segments, Unmarked s.tokens.toList := by
  have hfree {p : Placement} (h : e.apply = p.command) : '!' ∉ e.apply.toList :=
    h ▸ (markedBy_placement p).not_mem (by decide) (by decide)
  simp only [Emission.segments, List.forall_mem_cons]
  rcases emits_of_mem he with ⟨text, h⟩ | ⟨image, width, height, h⟩
  · obtain ⟨p, hp⟩ := h.placed
    exact ⟨unmarked_of_not_mem_mark
      (h.markedBy_content.not_mem (by decide) (by decide)),
      unmarked_of_not_mem_mark (hfree hp), fun _ hs =>
        absurd hs List.not_mem_nil⟩
  · obtain ⟨p, hp⟩ := h.placed
    exact ⟨unmarked_of_not_mem_mark
      (h.markedBy_content.not_mem (by decide) (by decide)),
      unmarked_of_not_mem_mark (hfree hp), fun _ hs =>
        absurd hs List.not_mem_nil⟩

/-- Behind the asset no segment has the marker. -/
theorem unmarked_segments :
    ∀ s ∈ (compile settings t bs canvas asset).segments.tail,
      Unmarked s.tokens.toList := by
  refine List.forall_mem_append.mpr ⟨List.forall_mem_map.mpr ?_,
    List.forall_mem_cons.mpr
    ⟨?_, ?_⟩⟩
  · intro x hx
    exact unmarked_command (wellFormed_definitions t bs x hx)
  · rcases (sound_canvas t.background canvas [] []).marked with
      hfree | ⟨q, hq, -⟩
    · exact unmarked_of_not_mem_mark hfree
    · exact absurd hq List.not_mem_nil
  · intro s hs
    obtain ⟨e, he, hs⟩ := List.mem_flatMap.mp hs
    exact unmarked_emission he s hs

end Compile

/-! ## Strings of commands -/

/-- What compiling some template gives. -/
def Compiled (x : String) : Prop :=
  ∃ settings t bs canvas asset,
    x = (compile settings t bs canvas asset).transformation

/-- A string of commands begins with the marker, and has it nowhere else. -/
theorem Compiled.begins {x : String} (h : Compiled x) :
    ∃ rest, x.toList = '$' :: rest ∧ marker <+: rest ∧ Unmarked rest := by
  obtain ⟨settings, t, bs, canvas, asset, rfl⟩ := h
  have htoken {c : Char} (hc : c ∈ separators) (hne : c ∉ [':']) :
      c ∉ (Token.asset asset).toList :=
    (markedBy_asset asset).not_mem hc hne
  have hhead : (assetSegment asset).tokens.toList =
      '$' :: (marker ++ ((Token.asset asset).toList ++ ['!'])) :=
    (tokens_assetSegment asset).trans (text_assetQuote asset)
  have hfree : '$' ∉ marker ++ ((Token.asset asset).toList ++ ['!']) := by
    simp only [List.mem_append, not_or]
    exact ⟨by decide, htoken (by decide) (by decide), by decide⟩
  let others := (compile settings t bs canvas asset).segments.tail.map
    fun s => s.tokens.toList
  refine ⟨join '/' ((marker ++ ((Token.asset asset).toList ++ ['!'])) ::
    others), ?_, ?_, ?_⟩
  · rw [toList_transformation, ← join_cons_head, ← hhead]
    rfl
  · cases hothers : others with
    | nil => exact List.prefix_append _ _
    | cons next rest =>
        rw [join_cons_cons, List.append_assoc]
        exact List.prefix_append _ _
  · exact unmarked_join (List.forall_mem_cons.mpr
      ⟨follows_of_not_mem hfree, List.forall_mem_map.mpr unmarked_segments⟩)

/-- No string of commands ends with another one. -/
theorem Compiled.eq_of_suffix {x y : String} (hx : Compiled x) (hy : Compiled y)
    (h : x.toList <:+ y.toList) : x = y := by
  obtain ⟨l, hl⟩ := h
  obtain ⟨rest, hrest, hmarker, -⟩ := hx.begins
  obtain ⟨rest', hrest', -, hunmarked⟩ := hy.begins
  rw [hrest, hrest'] at hl
  cases l with
  | nil => exact String.toList_inj.mp (hrest.trans (hl.trans hrest'.symm))
  | cons c l =>
      exact absurd hmarker (hunmarked l rest (List.cons.inj hl).2.symm)

end Plan

/-! ## Keys -/

theorem Digest.length_bigEndian (n x : Nat) :
    (Digest.bigEndian n x).length = n := by
  induction n with
  | zero => rfl
  | succ n ih => rw [bigEndian, List.length_cons, ih]

theorem Digest.length_sha256 (text : String) :
    (Digest.sha256 text).length = 64 := by
  have hbyte (b : UInt8) : (hexByte b).length = 2 := rfl
  simp only [sha256, String.length_ofList, List.length_flatMap, hbyte,
    List.map_cons, List.map_nil, List.sum_cons, List.sum_nil, length_bigEndian,
    List.map_const', List.sum_replicate_nat]
  rfl

theorem Template.length_hash (t : Template) : t.hash.length = 64 :=
  Digest.length_sha256 _

theorem toList_renderKey (id hash x version : String) :
    (renderKey id hash x version).toList =
      (id.toList ++ ':' :: (hash.toList ++ [':'])) ++ x.toList ++
        ':' :: version.toList := by
  have hjoin := Plan.toList_intercalate_eq_join (by rfl : ":".toList = [':'])
    [id, hash, x, version]
  rw [renderKey, hjoin]
  simp only [List.map_cons, List.map_nil, join, List.append_assoc,
    List.cons_append, List.nil_append]

/-- Two renderings by one version have one key only if they are of one template,
as it was, with one string of commands. -/
theorem renderKey_inj {id₁ id₂ hash₁ hash₂ x₁ x₂ : String}
    (hhash₁ : hash₁.length = 64) (hhash₂ : hash₂.length = 64)
    (hx₁ : Plan.Compiled x₁) (hx₂ : Plan.Compiled x₂) (version : String) :
    renderKey id₁ hash₁ x₁ version = renderKey id₂ hash₂ x₂ version ↔
      id₁ = id₂ ∧ hash₁ = hash₂ ∧ x₁ = x₂ := by
  refine ⟨fun h => ?_, by rintro ⟨rfl, rfl, rfl⟩; rfl⟩
  have hlists := congrArg String.toList h
  rw [toList_renderKey, toList_renderKey] at hlists
  have hfront := List.append_cancel_right hlists
  have hx : x₁ = x₂ := by
    have hsuffix₂ :
        x₂.toList <:+ (id₁.toList ++ ':' :: (hash₁.toList ++ [':'])) ++
          x₁.toList := hfront ▸ List.suffix_append _ _
    rcases List.suffix_or_suffix_of_suffix
      (List.suffix_append _ x₁.toList) hsuffix₂ with hsuffix | hsuffix
    · exact hx₁.eq_of_suffix hx₂ hsuffix
    · exact (hx₂.eq_of_suffix hx₁ hsuffix).symm
  subst hx
  have hlength : (':' :: (hash₁.toList ++ [':'])).length =
      (':' :: (hash₂.toList ++ [':'])).length := by
    simp only [List.length_cons, List.length_append, String.length_toList,
      hhash₁, hhash₂]
  obtain ⟨hid, hhash⟩ :=
    List.append_inj' (List.append_cancel_right hfront) hlength
  exact ⟨String.toList_inj.mp hid,
    String.toList_inj.mp (List.append_cancel_right (List.cons.inj hhash).2),
    rfl⟩

/-- An id that reads like the key of another rendering does not make the keys
equal. -/
theorem renderKey_ne_of_forged_id :
    Template.priceTag.hash.length = 64 ∧
      Plan.Compiled (Plan.compile ⟨1080, 48⟩ Template.priceTag Table.empty
        ⟨1080, 1080⟩ "shop/tag").transformation ∧
      let x :=
        (Plan.compile ⟨1080, 48⟩ Template.priceTag Table.empty ⟨1080, 1080⟩
          "shop/tag").transformation
      renderKey "tag" Template.priceTag.hash x "1.0" ≠
        renderKey ("tag:" ++ Template.priceTag.hash ++ ":$subject_!shop:tag!")
          Template.priceTag.hash x "1.0" := by
  have hhash := Template.length_hash Template.priceTag
  have hx : Plan.Compiled (Plan.compile ⟨1080, 48⟩ Template.priceTag Table.empty
      ⟨1080, 1080⟩ "shop/tag").transformation := ⟨_, _, _, _, _, rfl⟩
  refine ⟨hhash, hx, fun h => ?_⟩
  have hid := ((renderKey_inj hhash hhash hx hx "1.0").mp h).1
  have hlength := congrArg String.length hid
  simp only [String.length_append, hhash] at hlength
  exact absurd hlength (by decide)

/-! ## Renderings -/

/-- What a manifest says it was rendered from. -/
def Manifest.key (m : Manifest) : String :=
  renderKey m.templateId m.templateHash m.transformation m.engineVersion

/-- A rendering has the key that its digest is taken of. -/
theorem Library.render_ok {lib : Library} {settings : Settings}
    {r : RenderRequest} {m : Manifest} (h : lib.render settings r = .ok m) :
    Plan.Compiled m.transformation ∧ m.templateHash.length = 64 ∧
      m.engineVersion = formatVersion ∧ m.digest = Digest.sha256 m.key := by
  obtain ⟨t, fields, -, -, -, -, rfl⟩ := render_eq_ok_iff.mp h
  exact ⟨⟨_, _, _, _, _, rfl⟩, t.length_hash, rfl, rfl⟩

/-- Two renderings, of any libraries and under any settings, have one key only
if they are of one template, as it was, with one string of commands. -/
theorem Library.key_eq_iff {lib lib' : Library} {settings settings' : Settings}
    {r r' : RenderRequest} {m m' : Manifest} (h : lib.render settings r = .ok m)
    (h' : lib'.render settings' r' = .ok m') :
    m.key = m'.key ↔
      m.templateId = m'.templateId ∧ m.templateHash = m'.templateHash ∧
        m.transformation = m'.transformation := by
  obtain ⟨hx, hhash, hversion, -⟩ := render_ok h
  obtain ⟨hx', hhash', hversion', -⟩ := render_ok h'
  rw [Manifest.key, Manifest.key, hversion, hversion']
  exact renderKey_inj hhash hhash' hx hx' formatVersion

end Placard
