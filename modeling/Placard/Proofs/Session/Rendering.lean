import Placard.Proofs.Session.Runs
import Placard.Proofs.Wire.Likeness
import Placard.Render

/-!
# What is rendered and what an editor shows

A template is compiled in two places. To render it, the content of its fields is
taken from the parent of its family; an editor that has just made it active
takes it from the template itself. For a parent that is one and the same. For a
child it is where every text layer is given the same content by its parent as by
itself, because a plan depends on the fields no further than that. Where a child
has been given a default of its own the two differ, and each is as it is meant:
what is rendered shows what the family says.
-/

namespace Placard

/-! ## Rendering without fields -/

namespace Library

variable {lib : Library} {id asset : String} {t parent : Template}

theorem exists_render (settings : Settings) (ht : lib.get? id = some t)
    (hvalid : t.check.valid = true) (hasset : Text.allBlank asset = false)
    (hparent : lib.get? (lib.familyOf id) = some parent) :
    ∃ m, lib.render settings ⟨id, asset, none, none⟩ = .ok m ∧
      m.transformation = (Plan.compile settings.compiler t
        (.ofCatalog (.ofTemplate parent)) t.canvas asset).transformation := by
  have hfields : lib.requestFields ⟨id, asset, none, none⟩ =
      .ok (.ofCatalog (.ofTemplate parent)) := by
    simp only [requestFields, hparent]
  exact ⟨_, render_eq_ok_iff.mpr ⟨t, _, ht, hvalid, hasset, hfields, rfl⟩, rfl⟩

end Library

/-! ## Where the two agree -/

/-- Fields that start alike from both are given alike to every layer. -/
theorem Template.alike_of_seed? {t parent : Template}
    (h : ∀ key text, (key, text) ∈ t.textLayers →
      parent.seed? (text.field key) = t.seed? (text.field key)) :
    Bindings.Alike t (.ofCatalog (.ofTemplate parent))
      (.ofCatalog (.ofTemplate t)) := by
  intro key text hmem
  simp only [Bindings.resolve, get?_seeded]
  obtain ⟨b, hb⟩ := exists_seed hmem
  rw [h key text hmem, hb, Option.some_or, Option.some_or]

/-- A valid template is rendered, and an editor can be started on it. What is
rendered is compiled with what the parent of the family says of the fields, and
what the editor shows with what the template says. For a parent, and for a child
whose text layers are given the same by both, it is the same. -/
theorem render_eq_compile (settings : Settings) (ops : List Operation)
    (asset : String) {id : String} {t : Template}
    (ht : (Workspace.empty.run ops).library.get? id = some t)
    (hvalid : t.check.valid = true) (hasset : Text.allBlank asset = false) :
    ∃ parent m s,
      (Workspace.empty.run ops).library.get?
          ((Workspace.empty.run ops).library.familyOf id) = some parent ∧
        (Workspace.empty.run ops).library.render settings ⟨id, asset, none,
          none⟩ = .ok m ∧
        outcome (Session.setActive id)
          (Session.start settings (Workspace.empty.run ops).library) =
            (.ok (), s) ∧
        m.transformation = (Plan.compile settings.compiler t
          (.ofCatalog (.ofTemplate parent)) t.canvas asset).transformation ∧
        s.compile none asset = .ok (Plan.compile settings.compiler t
          (.ofCatalog (.ofTemplate t)) t.canvas asset).transformation ∧
        (Bindings.Alike t (.ofCatalog (.ofTemplate parent))
          (.ofCatalog (.ofTemplate t)) →
          s.compile none asset = .ok m.transformation) ∧
        ((Workspace.empty.run ops).library.parentOf? id = none →
          s.compile none asset = .ok m.transformation) := by
  have hlinked := (Workspace.wellFormed_empty.run ops).linked
  have hid := Library.contains_of_get? ht
  obtain ⟨parent, hparent⟩ :=
    Library.exists_get? (hlinked.contains_familyOf hid)
  obtain ⟨m, hrender, hrendered⟩ :=
    Library.exists_render settings ht hvalid hasset hparent
  obtain ⟨s, hset, hactivates⟩ :=
    Session.exists_setActive
      (s := .start settings (Workspace.empty.run ops).library) hlinked hid
  have hcompiled := hactivates.compile_eq ht none asset
  have hagree
      (h : Bindings.Alike t (.ofCatalog (.ofTemplate parent))
        (.ofCatalog (.ofTemplate t))) :
      s.compile none asset = .ok m.transformation := by
    rw [hcompiled, hrendered, h.compile_eq settings.compiler t.canvas asset]
    rfl
  refine ⟨parent, m, s, hparent, hrender, hset, hrendered, hcompiled, hagree,
    fun horphan => ?_⟩
  rw [Library.familyOf, horphan, Option.getD_none, ht, Option.some.injEq]
    at hparent
  subst hparent
  exact hagree fun _ _ _ => rfl

/-- A title that announces something. -/
def title (literal : String) : Layer :=
  ⟨"title", .text { TextLayer.ofField "Title" (.px 32) with
    defaultValue := literal }⟩

/-- A template that has a title and nothing else. -/
def poster (id literal : String) : Template :=
  { Template.ofCanvas id 500 500 with layers := [title literal] }

theorem drawOrder_poster (id literal : String) :
    (poster id literal).drawOrder = [title literal] :=
  List.mergeSort_singleton _

/-- A parent and a child that both announce a sale. -/
def saleRun : List Operation :=
  [.register (poster "wide" "Sale"), .createChild "wide" (some "tall")
    "fresh" none]

theorem saleRun_render_eq_compile :
    (Workspace.empty.run saleRun).library.get? "tall" =
        some (poster "tall" "Sale") ∧
      ∃ m s, (Workspace.empty.run saleRun).library.render .default
          ⟨"tall", "shop/shoe", none, none⟩ = .ok m ∧
        outcome (Session.setActive "tall")
          (Session.start .default (Workspace.empty.run saleRun).library) =
            (.ok (), s) ∧
        s.compile none "shop/shoe" = .ok m.transformation := by
  have ht : (Workspace.empty.run saleRun).library.get? "tall" =
      some (poster "tall" "Sale") := by
    decide +kernel
  have hwide : (Workspace.empty.run saleRun).library.get?
      ((Workspace.empty.run saleRun).library.familyOf "tall") =
        some (poster "wide" "Sale") := by
    decide +kernel
  obtain ⟨parent, m, s, hparent, hrender, hset, -, -, hagree, -⟩ :=
    render_eq_compile .default saleRun "shop/shoe" ht (by decide +kernel)
      (by decide +kernel)
  rw [hwide, Option.some.injEq] at hparent
  subst hparent
  exact ⟨ht, m, s, hrender, hset,
    hagree (Template.alike_of_seed? fun _ _ _ => rfl)⟩

/-- A child that announces something else is rendered with what its parent
says. -/
theorem saleRun_render_ne_compile :
    ¬ ∀ (settings : Settings) (ops : List Operation) (id asset : String)
      (t : Template),
      (Workspace.empty.run ops).library.get? id = some t →
        t.check.valid = true →
      Text.allBlank asset = false →
        ∃ m s, (Workspace.empty.run ops).library.render settings
            ⟨id, asset, none, none⟩ = .ok m ∧
          outcome (Session.setActive id)
            (Session.start settings (Workspace.empty.run ops).library) =
              (.ok (), s) ∧
          s.compile none asset = .ok m.transformation := by
  intro h
  let ops :=
    saleRun ++ [.setProperty "tall" "title" .defaultValue (.text "Now") .all]
  have ht : (Workspace.empty.run ops).library.get? "tall" =
      some (poster "tall" "Now") := by
    decide +kernel
  have hparent : (Workspace.empty.run ops).library.get?
      ((Workspace.empty.run ops).library.familyOf "tall") =
        some (poster "wide" "Sale") := by
    decide +kernel
  have hvalid : (poster "tall" "Now").check.valid = true := by decide +kernel
  have hasset : Text.allBlank "shop/shoe" = false := by decide +kernel
  obtain ⟨m, s, hrender, hset, hsame⟩ :=
    h .default ops "tall" "shop/shoe" _ ht hvalid hasset
  obtain ⟨m', hrender', hrendered⟩ :=
    Library.exists_render .default ht hvalid hasset hparent
  obtain ⟨s', hset', hactivates⟩ := Session.exists_setActive
    (s := .start .default (Workspace.empty.run ops).library)
    (Workspace.wellFormed_empty.run ops).linked (Library.contains_of_get? ht)
  rw [hrender, Except.ok.injEq] at hrender'
  rw [hset, Prod.mk.injEq] at hset'
  rw [hset'.2, hactivates.compile_eq ht, Except.ok.injEq, hrender', hrendered]
    at hsame
  unfold Plan.compile at hsame
  rw [drawOrder_poster] at hsame
  revert hsame
  decide +kernel

end Placard
