import Placard.Proofs.Wire.Contents
import Placard.Proofs.Wire.Machine

/-!
# Every command has the form of its kind

A command is told by how it begins and by its parameters. A command on variables
begins with a dollar sign or a test, and nothing behind a name matters; the
canvas has padding; a text has a parameter that names a font, and neither a
picture nor a placement has one.

For a picture that takes a condition. The path of its asset is free, and a path
of three parts of which the first is `text` reads like a font and what is shown
in it.
-/

namespace Placard

open Text Decimal

/-- No picture that is shown has an asset in a folder of a folder `text`. -/
def Template.NoTextAssets (t : Template) : Prop :=
  ∀ key image, ⟨key, .image image⟩ ∈ t.layers → image.shown = true →
    ∀ rest, image.assetId = some ("text/" ++ rest) → '/' ∉ rest.toList

/-- The asset of a picture is in a folder of a folder `text`. -/
def ImageLayer.InTextFolder (image : ImageLayer) : Prop :=
  ∃ rest, image.assetId = some ("text/" ++ rest) ∧ '/' ∈ rest.toList

theorem Template.noTextAssets_iff {t : Template} :
    t.NoTextAssets ↔
      ∀ key image, ⟨key, .image image⟩ ∈ t.layers → image.shown = true →
        ¬ image.InTextFolder := by
  constructor
  · rintro h key image hmem hshown ⟨rest, hrest, hslash⟩
    exact h key image hmem hshown rest hrest hslash
  · intro h key image hmem hshown rest hrest hslash
    exact h key image hmem hshown ⟨rest, hrest, hslash⟩

/-! ## Commands on variables -/

/-- A command for a variable names it first, perhaps behind a test, and a low
line follows the name. -/
theorem Command.exists_first {c : Command} {v : Variable}
    (h : c.target? = some v) :
    ∃ pre r tail, c.text.toList = pre ++ ('$' :: r) ++ '_' :: tail ∧
      (pre = [] ∨ pre = ['i', 'f', '_']) ∧
      (r = v.register ∨ r = v.scratchRegister) := by
  cases c with
  | assign target literal =>
      cases h
      exact ⟨[], _, _, toList_assign v literal, Or.inl rfl, Or.inl rfl⟩
  | lookUp target key =>
      cases h
      exact ⟨[], _, _, toList_lookUp v key, Or.inl rfl, Or.inr rfl⟩
  | ifFound target =>
      cases h
      exact ⟨['i', 'f', '_'], _, _, toList_ifFound v, Or.inr rfl, Or.inr rfl⟩
  | keep target =>
      cases h
      exact ⟨[], _, _, toList_keep v, Or.inl rfl, Or.inl rfl⟩
  | endIf => cases h
  | derive target source steps =>
      cases h
      exact ⟨[], _, _, toList_derive v source steps, Or.inl rfl, Or.inl rfl⟩

namespace Fragment

variable {table : Provenance} {before : List Fragment} {claimed : List Nat}

theorem classify_asset (asset : String) :
    classify table before claimed (Plan.assetSegment asset).tokens.toList =
      (.assetBinding, none, claimed) := by
  have hsubject : (after? "$subject_".toList
      (Plan.assetSegment asset).tokens.toList).isSome = true := by
    simp only [Plan.assetSegment, subjectVariable, String.toList_append,
      String.reduceToList, List.cons_append, List.nil_append]
    rfl
  unfold classify
  simp only [hsubject, if_true]

theorem classify_variable {s : List Char}
    (hsubject : after? "$subject_".toList s = none)
    (hend : s ≠ "if_end".toList)
    (h : ((after? ['$'] s).isSome || (after? "if_".toList s).isSome) = true) :
    classify table before claimed s =
      (.definition, table.resolve .«variables» s claimed) := by
  unfold classify
  simp only [hsubject, Option.isSome_none, if_neg hend, h, if_true,
    Bool.false_eq_true, if_false]

theorem classify_command {c : Command} {v : Variable} (h : c.target? = some v) :
    classify table before claimed c.text.toList =
      (.definition, table.resolve .«variables» c.text.toList claimed) := by
  obtain ⟨pre, r, tail, htext, hpre, hr⟩ := Command.exists_first h
  have hname : ∃ x name, r = x :: name ∧ (x = 'f' ∨ x = 'm') := by
    rcases hr with rfl | rfl
    · exact ⟨_, _, rfl, Or.inl rfl⟩
    · exact ⟨_, _, rfl, Or.inr rfl⟩
  obtain ⟨x, name, rfl, hx⟩ := hname
  rw [htext]
  rcases hpre with rfl | rfl
  · rcases hx with rfl | rfl
    · exact classify_variable (by simp only [String.reduceToList]; rfl)
        (by simp) rfl
    · exact classify_variable (by simp only [String.reduceToList]; rfl)
        (by simp) rfl
  · exact classify_variable (by simp only [String.reduceToList]; rfl)
      (by simp) rfl

theorem classify_endIf :
    classify table before claimed Command.endIf.text.toList =
      (.definition, previousVariable? before, claimed) := by
  have hsubject : after? "$subject_".toList "if_end".toList = none := by
    simp only [String.reduceToList]
    rfl
  unfold classify Command.text
  simp only [hsubject, Option.isSome_none, Bool.false_eq_true, if_false,
    if_true]

theorem split_canvasSegment (background : Color) (canvas : Size) :
    split ',' (Plan.canvasSegment background canvas).tokens.toList =
      [("b_rgb:" ++ background.hex).toList, "c_pad".toList,
        ("w_" ++ Size.sideText canvas.width).toList,
        ("h_" ++ Size.sideText canvas.height).toList] := by
  have heq : (Plan.canvasSegment background canvas).tokens.toList =
      join ',' [("b_rgb:" ++ background.hex).toList, "c_pad".toList,
        ("w_" ++ Size.sideText canvas.width).toList,
        ("h_" ++ Size.sideText canvas.height).toList] := by
    simp only [Plan.canvasSegment, join, String.toList_append,
      String.reduceToList, List.append_assoc, List.cons_append, List.nil_append]
  rw [heq]
  refine split_join ?_ (List.cons_ne_nil _ _)
  simp only [List.forall_mem_cons, String.toList_append, List.mem_append,
    not_or]
  exact ⟨⟨by decide, (plain_hex _).not_mem (by decide)⟩, by decide,
    ⟨by decide, (plain_sideText _).not_mem (by decide)⟩,
    ⟨by decide, (plain_sideText _).not_mem (by decide)⟩, List.forall_mem_nil _⟩

theorem classify_canvas (background : Color) (canvas : Size) :
    classify table before claimed
      (Plan.canvasSegment background canvas).tokens.toList =
      (.canvas, some canvasKey, claimed) := by
  have hsplit := split_canvasSegment background canvas
  obtain ⟨s, hs⟩ : ∃ s,
      (Plan.canvasSegment background canvas).tokens.toList = 'b' :: s := by
    simp only [Plan.canvasSegment, String.toList_append, String.reduceToList,
      List.cons_append]
    exact ⟨_, rfl⟩
  rw [hs] at hsplit ⊢
  have hsubject : after? "$subject_".toList ('b' :: s) = none := by
    simp only [String.reduceToList]
    rfl
  have hdollar : after? ['$'] ('b' :: s) = none := rfl
  have hif : after? "if_".toList ('b' :: s) = none := by
    simp only [String.reduceToList]
    rfl
  have hend : 'b' :: s ≠ "if_end".toList := by
    simp only [String.reduceToList]
    exact fun h => absurd (List.cons.inj h).1 (by decide)
  have hbackground :
      (after? "b_".toList ("b_rgb:" ++ background.hex).toList).isSome =
        true := by
      simp only [String.toList_append, String.reduceToList]
      rfl
  unfold classify
  simp only [hsubject, hdollar, hif, if_neg hend, hsplit, List.headD_cons,
    hbackground, Option.isSome_none, Bool.false_eq_true, if_false, Bool.or_self,
    List.mem_cons, true_or, or_true, decide_true, Bool.and_self, if_true]

/-- A fragment that no test for the asset, a command on variables or the canvas
takes. -/
structure Unmarked (s : List Char) : Prop where
  subject : after? "$subject_".toList s = none
  dollar : after? ['$'] s = none
  test : after? "if_".toList s = none
  ending : s ≠ "if_end".toList
  background : after? "b_".toList ((split ',' s).headD []) = none

theorem unmarked_cons {x : Char} {s : List Char}
    (hx : x ∉ ['$', 'i', 'b', ',']) : Unmarked (x :: s) := by
  simp only [List.mem_cons, List.not_mem_nil, or_false, not_or] at hx
  obtain ⟨hdollar, hi, hb, hcomma⟩ := hx
  obtain ⟨piece, rest, hsplit⟩ := exists_split_cons hcomma s
  constructor
  case subject =>
    simp only [String.reduceToList]
    exact after?_cons_of_ne hdollar _ _
  case dollar => exact after?_cons_of_ne hdollar _ _
  case test =>
    simp only [String.reduceToList]
    exact after?_cons_of_ne hi _ _
  case ending =>
    simp only [String.reduceToList]
    exact fun h => absurd (List.cons.inj h).1 hi
  case background =>
    rw [hsplit, List.headD_cons]
    simp only [String.reduceToList]
    exact after?_cons_of_ne hb _ _

theorem classify_text {s payload : List Char} (h : Unmarked s)
    (htext : textPayload? s = some payload) :
    classify table before claimed s =
      (.textContent, table.resolve .texts payload claimed) := by
  unfold classify
  simp only [h.subject, h.dollar, h.test, if_neg h.ending, h.background, htext,
    Option.isSome_none, Bool.false_eq_true, if_false, Bool.or_self,
    Bool.false_and]

theorem classify_image {s token : List Char} (h : Unmarked s)
    (htext : textPayload? s = none) (himage : imageToken? s = some token) :
    classify table before claimed s =
      (.imageContent, table.resolve .images token claimed) := by
  unfold classify
  simp only [h.subject, h.dollar, h.test, if_neg h.ending, h.background, htext,
    himage, Option.isSome_none, Bool.false_eq_true, if_false, Bool.or_self,
    Bool.false_and]

theorem classify_placement {s : List Char} (h : Unmarked s)
    (htext : textPayload? s = none) (himage : imageToken? s = none)
    (hfirst : (split ',' s).headD [] = "fl_layer_apply".toList) :
    classify table before claimed s = (.apply, applied? before, claimed) := by
  have hbackground := h.background
  rw [hfirst] at hbackground
  unfold classify
  simp only [h.subject, h.dollar, h.test, if_neg h.ending, hfirst, hbackground,
    htext, himage, Option.isSome_none, Bool.false_eq_true, if_false,
    Bool.or_self, Bool.false_and, if_true]

theorem applied?_cons {f : Fragment} (h : f.isContent = true) :
    applied? (f :: before) = f.provenance := by
  have hkind : decide (f.kind ≠ .apply) = true := by
    refine decide_eq_true fun happly => ?_
    rw [isContent, happly] at h
    cases h
  simp only [applied?, List.take_succ_cons, List.takeWhile_cons, hkind, if_true,
    List.find?_cons, h, Option.bind_some]

theorem textPayload?_eq_none {s : List Char}
    (h : ∀ piece ∈ split ',' s, after? "l_text:".toList piece = none) :
    textPayload? s = none := by
  rw [textPayload?, List.findSome?_eq_none_iff.mpr h, Option.bind_eq_bind,
    Option.bind_none]

theorem split_placement (p : Placement) :
    split ',' p.command.toList =
      ["fl_layer_apply".toList, ("g_" ++ p.gravity.token).toList,
        ("x_" ++ intText p.x).toList, ("y_" ++ intText p.y).toList] := by
  have heq : p.command.toList =
      join ',' ["fl_layer_apply".toList, ("g_" ++ p.gravity.token).toList,
        ("x_" ++ intText p.x).toList, ("y_" ++ intText p.y).toList] := by
    unfold Placement.command
    simp only [join, String.toList_append, String.reduceToList,
      List.append_assoc, List.cons_append, List.nil_append]
  have hnumber (n : Int) : ',' ∉ (intText n).toList :=
    (numeric_intText n).plain.not_mem (by decide)
  rw [heq]
  refine split_join ?_ (List.cons_ne_nil _ _)
  simp only [List.forall_mem_cons, String.toList_append, List.mem_append,
    not_or]
  exact ⟨by decide, ⟨by decide, (plain_gravity _).not_mem (by decide)⟩,
    ⟨by decide, hnumber _⟩, ⟨by decide, hnumber _⟩, List.forall_mem_nil _⟩

theorem textPayload?_placement (p : Placement) :
    textPayload? p.command.toList = none := by
  refine textPayload?_eq_none ?_
  rw [split_placement]
  simp only [List.forall_mem_cons, String.toList_append, String.reduceToList]
  exact ⟨after?_cons_of_ne (by decide) _ _, after?_cons_of_ne (by decide) _ _,
    after?_cons_of_ne (by decide) _ _, after?_cons_of_ne (by decide) _ _,
    List.forall_mem_nil _⟩

theorem classify_apply (p : Placement) :
    classify table before claimed p.command.toList =
      (.apply, applied? before, claimed) := by
  have hsplit := split_placement p
  have htext := textPayload?_placement p
  obtain ⟨s, hs⟩ : ∃ s, p.command.toList = 'f' :: s := by
    unfold Placement.command
    simp only [String.toList_append, String.reduceToList, List.cons_append]
    exact ⟨_, rfl⟩
  rw [hs] at hsplit htext ⊢
  have himage : imageToken? ('f' :: s) = none := by
    rw [imageToken?, hsplit, List.head?_cons, Option.bind_some]
    simp only [String.reduceToList]
    exact after?_cons_of_ne (by decide) _ _
  exact classify_placement (unmarked_cons (by decide)) htext himage
    (by rw [hsplit, List.headD_cons])

end Fragment

/-! ## Texts and pictures -/

namespace Plan

section Texts

variable {settings : CompilerSettings} {t : Template} {bs : Bindings}
  {e : Emission} {text : TextLayer} {table : Provenance}
  {before : List Fragment} {claimed : List Nat}

theorem exists_textParameters_cons (text : TextLayer) (base : Float)
    (payload : String) :
    ∃ s rest,
      (textParameters text base payload).map String.toList =
        ('c' :: s) :: rest := by
  unfold textParameters
  cases text.wrapLimit? with
  | none =>
      simp only [List.nil_append, List.cons_append, List.map_cons,
        String.toList_append, String.reduceToList]
      exact ⟨_, _, rfl⟩
  | some width =>
      simp only [List.cons_append, List.map_cons, String.reduceToList]
      exact ⟨_, _, rfl⟩

theorem EmitsText.classify (h : EmitsText settings t bs e text) :
    Fragment.classify table before claimed e.content.toList =
      (.textContent, table.resolve .texts e.identifier.toList claimed) := by
  have hpayload := h.textPayload?_content
  obtain ⟨piece, rest, hcons⟩ :=
    exists_textParameters_cons text (baseFontSize t settings) e.identifier
  have hs := join_cons_head ',' 'c' piece rest
  rw [← hcons, ← h.split_content, join_split] at hs
  rw [hs] at hpayload ⊢
  exact Fragment.classify_text (Fragment.unmarked_cons (by decide)) hpayload

end Texts

section Images

variable {t : Template} {e : Emission} {image : ImageLayer} {width height : Int}
  {table : Provenance} {before : List Fragment} {claimed : List Nat}

/-- A path that reads like a font has no second part to show. -/
theorem not_mem_of_asset {asset : String} {rest : List Char}
    (h : (Token.asset asset).toList = ['t', 'e', 'x', 't'] ++ ':' :: rest)
    (hfree : ∀ r, asset = "text/" ++ r → '/' ∉ r.toList) : ':' ∉ rest := by
  rw [Token.asset, String.toList_ofList, Token.assetChars] at h
  have hjoin := join_split '/' asset.toList
  cases hsplit : split '/' asset.toList with
  | nil =>
      rw [hsplit] at h
      cases h
  | cons p ps =>
      rw [hsplit] at h hjoin
      have hp : ':' ∉ escapeChars p := (plain_escapeChars p).not_mem (by decide)
      cases ps with
      | nil =>
          rw [List.map_singleton, join] at h
          rw [h] at hp
          exact absurd (List.mem_append_right _ List.mem_cons_self) hp
      | cons q qs =>
          rw [List.map_cons, List.map_cons, join_cons_cons] at h
          have hcut := cut?_append_cons hp
            (join ':' (escapeChars q :: qs.map escapeChars))
          have htext : ':' ∉ ['t', 'e', 'x', 't'] := by decide
          rw [h, cut?_append_cons htext rest, Option.some.injEq, Prod.mk.injEq]
            at hcut
          have hpart : p = ['t', 'e', 'x', 't'] :=
            escapeChars_injective hcut.1.symm
          have hasset :
              asset = "text/" ++ String.ofList (join '/' (q :: qs)) := by
            refine String.toList_injective ?_
            rw [← hjoin, join_cons_cons, hpart]
            simp only [String.toList_append, String.reduceToList,
              String.toList_ofList, List.cons_append, List.nil_append]
          have hslash := hfree _ hasset
          rw [String.toList_ofList] at hslash
          rw [hcut.2]
          cases qs with
          | nil => exact (plain_escapeChars q).not_mem (by decide)
          | cons r rs =>
              rw [join_cons_cons] at hslash
              exact absurd (List.mem_append_right _ List.mem_cons_self) hslash

theorem EmitsImage.textPayload?_content (hfree : ¬ image.InTextFolder)
    (h : EmitsImage t e image width height) :
    Fragment.textPayload? e.content.toList = none := by
  have hothers : ["c_fit".toList, ("w_" ++ intText width).toList,
      ("h_" ++ intText height).toList].findSome? (after? "l_text:".toList) =
        none := by
    rw [List.findSome?_eq_none_iff]
    simp only [List.forall_mem_cons, String.toList_append, String.reduceToList]
    exact ⟨after?_cons_of_ne (by decide) _ _, after?_cons_of_ne (by decide) _ _,
      after?_cons_of_ne (by decide) _ _, List.forall_mem_nil _⟩
  rw [Fragment.textPayload?, h.split_content, List.findSome?_cons]
  cases htoken : after? "l_text:".toList ("l_" ++ e.identifier).toList with
  | none => simp only [hothers, Option.bind_eq_bind, Option.bind_none]
  | some rest =>
      have hcolon : ':' ∉ rest := by
        have heq := after?_eq_some_iff.mp htoken
        simp only [String.toList_append, String.reduceToList, List.cons_append,
          List.nil_append, List.cons.injEq, true_and] at heq
        rw [h.identifier, imageToken] at heq
        split at heq
        · next a ha =>
            have hasset := (Option.filter_eq_some_iff.mp ha).1
            refine not_mem_of_asset heq fun r hr => ?_
            exact fun hslash => hfree ⟨r, hr ▸ hasset, hslash⟩
        · simp only [subjectVariable, String.reduceToList] at heq
          exact absurd (List.cons.inj heq).1 (by decide)
      simp only [cut?_eq_none hcolon, Option.bind_eq_bind, Option.bind_some,
        Option.bind_none]

theorem EmitsImage.unmarked (h : EmitsImage t e image width height) :
    Fragment.Unmarked e.content.toList := by
  obtain ⟨s, hs⟩ : ∃ s, e.content.toList = 'l' :: s := by
    rw [h.content]
    simp only [String.toList_append, String.reduceToList, List.cons_append]
    exact ⟨_, rfl⟩
  rw [hs]
  exact Fragment.unmarked_cons (by decide)

theorem EmitsImage.classify (hfree : ¬ image.InTextFolder)
    (h : EmitsImage t e image width height) :
    Fragment.classify table before claimed e.content.toList =
      (.imageContent, table.resolve .images e.identifier.toList claimed) :=
  Fragment.classify_image h.unmarked (h.textPayload?_content hfree)
    h.imageToken?_content

end Images

end Plan

end Placard
