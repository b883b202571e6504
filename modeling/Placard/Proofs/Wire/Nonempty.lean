import Placard.Proofs.Wire.Discipline
import Placard.Proofs.Wire.Meaning

/-!
# Only what is derived can be empty

An empty literal has no use on the wire, and there is none. A look-up falls back
on a single space. A literal without a look-up is assigned only where another
field is derived from it, and a derivation stays only if what it starts from is
sure to have a value. That is where the dropping has come to its end: it goes on
for as long as something starts empty, so where it stops nothing does.

The argument is about layers and what is claimed is about variables. A field may
be that of several layers, and its variable may be defined by another layer than
the one that a derivation depends on; but whichever layer that is, it has no
derivation of its own and is the source of one, or it is looked up.
-/

namespace Placard

open Text

namespace Template

variable {t : Template} {bs : Bindings}

/-! ## Where the dropping stops -/

theorem startsEmpty_settle {kept : Derivations} {key : String} {d : Derivation}
    (h : (t.settle bs kept).get? key = some d) :
    t.startsEmpty bs (t.settle bs kept) d = false := by
  fun_induction settle t bs kept with
  | case1 kept rest hlt ih => exact ih h
  | case2 kept rest hge =>
      -- Nothing has been dropped, so all of them pass the test.
      have hle : rest.size ≤ kept.size := List.length_filter_le _ _
      have hall :=
        List.length_filter_eq_length_iff.mp (show rest.size =
          kept.size by omega)
      have hpass := hall (key, d) (Table.mem_of_lookup h)
      simpa using hpass

/-- What a derivation that reaches the wire starts from is sure to have a
value. -/
theorem holdsValue_of_source {key : String} {d : Derivation} {text : TextLayer}
    (h : (t.keptDerivations bs).get? key = some d)
    (hroot : (t.keptDerivations bs).get? d.source = none)
    (htext : t.textLayer? d.source = some text) :
    (bs.resolve d.source text).holdsValue = true := by
  have hstart := startsEmpty_settle h
  simp only [keptDerivations] at hroot
  simpa [startsEmpty, Table.contains, hroot, htext] using hstart

end Template

/-! ## Values of blocks -/

theorem Binding.value_ne_nil {w : World} {b : Binding}
    (h : b.holdsValue = true) : b.value w ≠ [] := by
  have hliteral : b.currentLiteral.isEmpty = false →
      b.currentLiteral.toList ≠ [] := by
    intro hne heq
    simp [String.toList_eq_nil_iff.mp heq] at hne
  unfold Binding.value
  simp only []
  split
  · split
    · split
      · simp
      · next hne => exact hliteral (Bool.eq_false_iff.mpr hne)
    · next hne =>
        intro heq
        rw [heq] at hne
        exact hne rfl
  · next hlooks =>
      rw [Bool.not_eq_true] at hlooks
      exact hliteral (by simpa [holdsValue, hlooks] using h)

namespace Plan

section Blocks

variable {t : Template} {bs : Bindings} {b : Block} {w : World}

/-- A block that is not derived is there because it has a value: it is looked
up, or something is derived from it. -/
theorem IsBlock.holdsValue (hb : IsBlock t bs b)
    (hkept : (t.keptDerivations bs).get? b.layer = none) :
    (bs.resolve b.layer b.text).holdsValue = true := by
  cases hlooks : (bs.resolve b.layer b.text).looksUp with
  | true => simp [Binding.holdsValue, hlooks]
  | false =>
      have htarget := hb.targeted
      rw [hb.expressed, expressionOf_of_not_kept hkept, Expression.ofBinding]
        at htarget
      simp only [hlooks, Bool.false_eq_true, if_false] at htarget
      split at htarget
      · next hneeded =>
          obtain ⟨d, hd, hsource⟩ := List.mem_map.mp (of_decide_eq_true hneeded)
          obtain ⟨key, hkey⟩ := Table.exists_get?_of_mem_values hd
          rw [← hsource] at hkept ⊢
          exact Template.holdsValue_of_source hkey hkept (hsource ▸ hb.declared)
      · cases htarget

theorem IsBlock.literal_ne_nil (hd : t.DistinctKeys) (hb : IsBlock t bs b)
    {target : Variable} {literal : Literal}
    (h : .assign target literal ∈ b.expression.commands) :
    literal.raw.toList ≠ [] := by
  cases hb.form hd with
  | derived _ _ he =>
      rw [he] at h
      cases List.mem_singleton.mp h
  | lookedUp _ _ he =>
      rw [he] at h
      simp only [Expression.commands, List.mem_cons, List.not_mem_nil, or_false,
        Command.assign.injEq, reduceCtorEq] at h
      rw [h.2, Literal.raw_fallback]
      split
      · simp
      · next hne =>
          intro heq
          simp [String.toList_eq_nil_iff.mp heq] at hne
  | assigned hkept hlooks he =>
      rw [he] at h
      cases List.mem_singleton.mp h
      rw [Literal.raw_ofText,
        ← Binding.value_of_not_looksUp (w := ⟨fun _ => none,
          fun _ _ value => value⟩) hlooks]
      exact Binding.value_ne_nil (hb.holdsValue hkept)

end Blocks

end Plan

/-! ## Derived registers -/

/-- A segment that derives a register from that of a variable. A copy of what a
look-up gave is none. -/
def Segment.Derives (s : Segment) (register source : List Char) : Prop :=
  ∃ (v : Variable) (steps : List (List Char × List Char)),
    source = v.register ∧ s.instruction? = some (.compute register source steps)

/-- Some command derives the register from another one. -/
def DerivedBy (ss : List Segment) (register : List Char) : Prop :=
  ∃ s ∈ ss, ∃ source, s.Derives register source

/-- A register that has been set, and is not empty unless it is derived. -/
def Filled (ss : List Segment) (m : Machine) (register : List Char) : Prop :=
  ∃ value, m.store register = some value ∧
    (¬ DerivedBy ss register → value ≠ [])

namespace Plan

section Blocks

variable {t : Template} {bs : Bindings} {b : Block} {w : World}

/-- A segment that derives is all of its block. -/
theorem IsBlock.derived (hd : t.DistinctKeys) (hb : IsBlock t bs b)
    {s : Segment} (hs : s ∈ b.segments) {register source : List Char}
    (h : s.Derives register source) :
    ∃ c dependency v steps, source = v.register ∧ b.segments = [s] ∧
      (t.keptDerivations bs).get? b.layer =
        some ⟨c.dependsOn, .derived b.target v steps⟩ ∧
      t.Derives b.layer b.text c dependency b.target v steps := by
  obtain ⟨v, parts, rfl, hi⟩ := h
  obtain ⟨c, hc, rfl⟩ := List.mem_map.mp hs
  rw [instruction?_of_wellFormed (hb.wellFormed c hc), Option.some.injEq] at hi
  cases hb.form hd with
  | @derived calculation dependency v' steps hkept hder he =>
      have hsingle : b.expression.commands = [.derive b.target v' steps] := by
        rw [he]; rfl
      rw [hsingle] at hc
      cases List.mem_singleton.mp hc
      simp only [Command.instruction, Instruction.compute.injEq] at hi
      exact ⟨calculation, dependency, v', steps, hi.2.1.symm,
        by rw [Block.segments, hsingle]; rfl, hkept, hder⟩
  | lookedUp _ _ he =>
      rw [he] at hc
      simp only [Expression.commands, List.mem_cons, List.not_mem_nil, or_false]
        at hc
      rcases hc with rfl | rfl | rfl | rfl | rfl
      · cases hi
      · cases hi
      · cases hi
      · simp only [Command.instruction, Instruction.compute.injEq] at hi
        exact absurd hi.2.1.symm (Variable.register_ne_scratchRegister _ _)
      · cases hi
  | assigned _ _ he =>
      rw [he] at hc
      cases List.mem_singleton.mp hc
      cases hi

theorem derivedBy_of_kept (hd : t.DistinctKeys) (hb : IsBlock t bs b)
    {d : Derivation} (hkept : (t.keptDerivations bs).get? b.layer = some d) :
    DerivedBy b.segments b.target.register := by
  have hwell := hb.wellFormed
  cases hb.form hd with
  | @derived c dependency v steps _ _ he =>
      rw [he] at hwell
      refine ⟨_, ?_, v.register, v, steps.map Step.parts, rfl,
        instruction?_of_wellFormed (hwell _ List.mem_cons_self) (some b.layer)
          .definition⟩
      rw [Block.segments, he]
      exact List.mem_cons_self
  | lookedUp hnone _ _ | assigned hnone _ _ =>
      rw [hkept] at hnone
      cases hnone

/-- The register of a block is filled by the block. -/
theorem filled_of_block {blocks : List Block} (hd : t.DistinctKeys)
    (hwell : WellDefined t bs blocks) (hb : b ∈ blocks) {m : Machine}
    {value : List Char} (hstore : m.store b.target.register = some value)
    (hvalue : BlockValue t bs w b value) :
    Filled (blocks.flatMap Block.segments) m b.target.register := by
  have hblock := hwell.isBlock b hb
  refine ⟨value, hstore, fun hnot => ?_⟩
  cases hvalue with
  | derived hkept =>
      obtain ⟨s, hs, hder⟩ := derivedBy_of_kept hd hblock hkept
      exact absurd ⟨s, List.mem_flatMap.mpr ⟨b, hb, hs⟩, hder⟩ hnot
  | bound hkept => exact Binding.value_ne_nil (hblock.holdsValue hkept)

/-- The run of the blocks fills every variable that they set. -/
theorem exists_run_filled {blocks : List Block} (hd : t.DistinctKeys)
    (hwell : WellDefined t bs blocks) :
    ∃ m, Machine.start.run w
        ((blocks.flatMap Block.segments).map fun s => s.tokens.toList) =
          some m ∧
      ∀ b ∈ blocks, Filled (blocks.flatMap Block.segments) m
        b.target.register := by
  obtain ⟨m, hm, -, hvalues⟩ := exists_run (w := w) hd hwell
  refine ⟨m, hm, fun b hb => ?_⟩
  obtain ⟨value, hstore, hvalue⟩ := hvalues b hb
  exact filled_of_block hd hwell hb hstore hvalue

/-- The blocks up to one of them are well defined, and it finds its source among
those in front of it. -/
theorem WellDefined.of_append {front back : List Block}
    (h : WellDefined t bs (front ++ b :: back)) :
    WellDefined t bs (front ++ [b]) := by
  generalize hall : front ++ b :: back = blocks at h
  induction h generalizing back with
  | nil => simp at hall
  | @snoc blocks b' h hb hnew hsource ih =>
      rcases List.eq_nil_or_concat back with rfl | ⟨back, b'', rfl⟩
      · rw [hall]
        exact h.snoc hb hnew hsource
      · rw [List.concat_eq_append, ← List.cons_append, ← List.append_assoc]
          at hall
        exact ih (List.append_inj_left' hall rfl)

/-- A place in the segments of blocks is a place in one of them. -/
theorem place_in_block {blocks : List Block} {before after : List Segment}
    {s : Segment} (h : blocks.flatMap Block.segments = before ++ s :: after) :
    ∃ front b back pre post, blocks = front ++ b :: back ∧
      b.segments = pre ++ s :: post ∧
      before = front.flatMap Block.segments ++ pre := by
  induction blocks generalizing before with
  | nil => simp at h
  | cons b rest ih =>
      rw [List.flatMap_cons] at h
      rcases List.append_eq_append_iff.mp h with
        ⟨before', rfl, hrest⟩ | ⟨inner, hb, hrest⟩
      · obtain ⟨front, b', back, pre, post, rfl, hb', rfl⟩ := ih hrest
        refine ⟨b :: front, b', back, pre, post, rfl, hb', ?_⟩
        rw [List.flatMap_cons, List.append_assoc]
      · cases inner with
        | nil =>
            have hrest' : rest.flatMap Block.segments = [] ++ s :: after :=
              hrest.symm
            obtain ⟨front, b', back, pre, post, rfl, hb', hpre⟩ := ih hrest'
            refine ⟨b :: front, b', back, pre, post, rfl, hb', ?_⟩
            rw [List.append_nil] at hb
            rw [List.flatMap_cons, List.append_assoc, ← hpre, List.append_nil,
              hb]
        | cons s' post =>
            obtain ⟨rfl, -⟩ := List.cons.inj hrest
            exact ⟨[], b, rest, before, post, rfl, hb, rfl⟩

/-- When a derivation is carried out, what it reads is filled. -/
theorem source_filled {blocks : List Block} (hd : t.DistinctKeys)
    (hwell : WellDefined t bs blocks) {before after : List Segment}
    {s : Segment}
    (hplace : blocks.flatMap Block.segments = before ++ s :: after)
    {register source : List Char} (h : s.Derives register source) :
    ∃ m, Machine.start.run w (before.map fun s => s.tokens.toList) = some m ∧
      Filled before m source := by
  obtain ⟨front, b, back, pre, post, rfl, hsegments, rfl⟩ :=
    place_in_block hplace
  have hfront := hwell.of_append
  generalize hall : front ++ [b] = blocks at hfront
  cases hfront with
  | nil => simp at hall
  | @snoc blocks b' hfront hb _ hsource =>
      obtain ⟨rfl, heq⟩ := List.append_inj' hall rfl
      cases heq
      have hs : s ∈ b.segments :=
        hsegments ▸ List.mem_append_right _ List.mem_cons_self
      obtain ⟨c, dependency, v, steps, rfl, hsingle, hkept, hder⟩ :=
        hb.derived hd hs h
      obtain ⟨b', hb', -, rfl⟩ := exists_source hfront hsource hkept hder
      have hpre : pre = [] := by
        rw [hsingle] at hsegments
        cases pre with
        | nil => rfl
        | cons x xs => simp at hsegments
      obtain ⟨m, hm, hfilled⟩ := exists_run_filled (w := w) hd hfront
      rw [hpre, List.append_nil]
      exact ⟨m, hm, hfilled b' hb'⟩

end Blocks

/-! ## The whole plan -/

/-- No empty literal is assigned, and when the commands on variables are carried
out, whatever is read or shown and is not derived is not empty. -/
structure NeverEmpty (w : World) (p : Plan) : Prop where
  assigns : ∀ s ∈ p.bindings, ∀ register,
    s.instruction? ≠ some (.assign register [])
  sources : ∀ before s after, p.bindings = before ++ s :: after →
    ∀ register source, s.Derives register source →
      ∃ m, Machine.start.run w (before.map fun s => s.tokens.toList) = some m ∧
        Filled before m source
  filled : ∃ m,
    Machine.start.run w (p.bindings.map fun s => s.tokens.toList) = some m ∧
    (∀ v : Variable, (∃ s ∈ p.bindings, s.Assigns v.register) →
      Filled p.bindings m v.register) ∧
    ∀ s ∈ p.segments, s.kind = .textContent → ∀ lead register trail,
      s.tokens.toList = lead ++ '$' :: '(' :: (register ++ ')' :: trail) →
      ')' ∉ register → Filled p.bindings m register

theorem compile_neverEmpty (settings : CompilerSettings) {t : Template}
    (hd : t.DistinctKeys) (bs : Bindings) (canvas : Size) (asset : String)
    (w : World) : NeverEmpty w (compile settings t bs canvas asset) := by
  obtain ⟨blocks, hdefs, hwell, -⟩ := exists_blocks hd bs
  have hbindings : (compile settings t bs canvas asset).bindings =
      blocks.flatMap Block.segments := bindings_of_blocks hdefs
  constructor
  case assigns =>
    rw [hbindings]
    intro s hs register hi
    obtain ⟨b, hb, hs⟩ := List.mem_flatMap.mp hs
    have hblock := hwell.isBlock b hb
    obtain ⟨c, hc, rfl⟩ := List.mem_map.mp hs
    rw [instruction?_of_wellFormed (hblock.wellFormed c hc), Option.some.injEq]
      at hi
    cases c with
    | assign target literal =>
        exact hblock.literal_ne_nil hd hc (Instruction.assign.inj hi).2
    | lookUp _ _ | ifFound _ | keep _ | endIf | derive _ _ _ => cases hi
  case sources =>
    rw [hbindings]
    intro before s after hplace register source h
    exact source_filled hd hwell hplace h
  case filled =>
    obtain ⟨m, hm, hfilled⟩ := exists_run_filled (w := w) hd hwell
    rw [hbindings]
    refine ⟨m, hm, ?_, ?_⟩
    · rintro v ⟨s, hs, hset⟩
      obtain ⟨b, hb, hsb⟩ := List.mem_flatMap.mp hs
      rw [hwell.target_of_assigns hb hsb hset]
      exact hfilled b hb
    · intro s hs hkind lead register trail hplace hparen
      obtain ⟨before, after, hsegments⟩ := List.append_of_mem hs
      obtain ⟨-, e, text, htext, htokens⟩ := text_of_segments hsegments hkind
      rw [htokens] at hplace
      cases hdefined : definedFor t bs e.key text with
      | none =>
          have hdollar := htext.not_mem_dollar hdefined
          rw [hplace] at hdollar
          exact absurd (List.mem_append_right _ List.mem_cons_self) hdollar
      | some v =>
          rw [register_of_reference htext hdefined hplace hparen]
          obtain ⟨b, hb, -, rfl⟩ :=
            (definedFor_eq_some_iff hdefs hwell).mp hdefined
          exact hfilled b hb

theorem priceTag_neverEmpty :
    Template.priceTag.DistinctKeys ∧
      NeverEmpty ⟨fun _ => none, fun _ _ value => value⟩
        (compile ⟨1080, 48⟩ Template.priceTag Table.empty ⟨1080, 1080⟩
          "shop/shoe") := by
  have hd : Template.priceTag.DistinctKeys := by decide
  exact ⟨hd, compile_neverEmpty _ hd _ _ _ _⟩

end Plan

end Placard
