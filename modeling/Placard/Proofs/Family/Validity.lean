import Placard.Proofs.Family.Layerwise
import Placard.Proofs.Family.WellFormed

/-!
# Libraries of valid templates

A library takes a template in only if it passes the check. No check is made
after that, and yet every template passes it again, for as long as what edits
bring in would pass: the layers that are put into a template, and the sides that
are written to its pictures. Everything else that an edit writes it has from a
template in the library, or looks at before it writes.

Edits do not look at all that they bring in. A picture may be given a side of
zero, and a layer may come with a blank key, and in a child even with the key of
the canvas.
-/

namespace Placard

/-! ## Templates of a library -/

/-- Every template is valid. -/
def Library.Valid (lib : Library) : Prop :=
  ∀ id t, lib.get? id = some t → t.Valid

/-! ## Operations -/

/-- What the operation brings in would pass the check. -/
def Operation.BringsValid : Operation → Prop
  | setProperty _ layer p v _ => layer ≠ canvasKey → p.Permits v
  | addLayer _ l => l.Valid
  | replaceChildLayer _ l => l.Valid
  | _ => True

variable {w w' : Workspace} {op : Operation}

theorem Effect.library_valid (hlinked : w.library.Linked) (h : Effect w op w')
    (hop : op.BringsValid) (hvalid : w.library.Valid) : w'.library.Valid := by
  have hbrings : op.Brings Layer.Valid fun p v => p.Permits v := by
    cases h with
    | register ht => exact (Template.check_valid_iff.mp ht).layers
    | setOfParent | setOfChild | addToParent | addToChild | replaceChildLayer =>
        exact hop
    | createChild | removeChild | resetProperty | resyncChild | resetLayer
    | deleteOfParent | deleteOfChild => trivial
  have hlayers := h.library_all Layer.layerwise_valid hlinked hbrings
    fun id t ht => (hvalid id t ht).layers
  exact fun id t ht =>
    ⟨h.sound hlinked (fun id t ht => (hvalid id t ht).sound) id t ht,
      hlayers id t ht⟩

/-- What an operation brings in counts only if the operation succeeds. -/
theorem Operation.perform_valid (hlinked : w.library.Linked)
    (hvalid : w.library.Valid)
    (hop : (op.perform w).1 = .ok () → op.BringsValid) :
    (op.perform w).2.library.Valid := by
  rcases op.perform_cases hlinked with ⟨e, hfail⟩ | ⟨w', hdone, heffect⟩
  · rw [hfail]
    exact hvalid
  · rw [hdone] at hop ⊢
    exact heffect.library_valid hlinked (hop rfl) hvalid

theorem Workspace.WellFormed.run_valid {ops : List Operation}
    (hw : w.WellFormed) (hvalid : w.library.Valid)
    (hops : w.Each (fun w op => (op.perform w).1 = .ok () →
      op.BringsValid) ops) :
    (w.run ops).library.Valid :=
  hops.run_induct (P := fun w => w.library.Valid)
    (fun {_ op} hw hop hvalid => op.perform_valid hw.linked hvalid hop)
    hw hvalid

/-- Every template in every workspace that is built from the empty one passes
the check, if the layers that operations have put into templates, and the values
that they have written to them, are such as would pass. -/
theorem Workspace.run_check_valid {ops : List Operation}
    (hops : Workspace.empty.Each
      (fun w op => (op.perform w).1 = .ok () → op.BringsValid) ops) :
    ∀ id t, (Workspace.empty.run ops).library.get? id = some t →
      t.check.valid = true := by
  have hempty : Workspace.empty.library.Valid := fun id t ht => by cases ht
  intro id t ht
  exact Template.check_valid_iff.mpr
    (wellFormed_empty.run_valid hempty hops id t ht)

/-- A picture of the parent that becomes narrower, with its copy in the
child. -/
def logoRun : List Operation :=
  [.register (.ofCanvas "wide" 1200 628), .createChild "wide" (some "tall")
    "fresh" (some ⟨628, 1200⟩),
      .addLayer "wide" ⟨"logo", .image (.ofSize 64 64)⟩,
      .setProperty "wide" "logo" .width (.number 32) .all]

theorem logoRun_check_valid :
    Workspace.empty.Each (fun w op => (op.perform w).1 = .ok () →
      op.BringsValid) logoRun ∧
      ∀ id t, (Workspace.empty.run logoRun).library.get? id = some t →
        t.check.valid = true := by
  have hlogo : Layer.Valid ⟨"logo", .image (.ofSize 64 64)⟩ :=
    ⟨by decide, by decide, Check.geometryViolations_eq_nil_iff.mp
      (by decide +kernel)⟩
  have hwidth : Property.width.Permits (.number 32) := by
    show (0 : Float) < 32
    decide +kernel
  have hops : Workspace.empty.Each
      (fun w op => (op.perform w).1 = .ok () → op.BringsValid) logoRun :=
    ⟨fun _ => trivial, fun _ => trivial, fun _ => hlogo,
      fun _ _ => hwidth, trivial⟩
  exact ⟨hops, Workspace.run_check_valid hops⟩

/-- A picture is given no width, and the child a layer without a key and one
under the key of the canvas. All of this is done, and the check finds each of
the three. -/
theorem logoRun_check_fails :
    ((Workspace.empty.run (logoRun ++
        [.setProperty "wide" "logo" .width (.number 0) .all,
          .addLayer "tall" ⟨"", .text (.ofField "note" (.px 32))⟩,
          .replaceChildLayer "tall"
            ⟨canvasKey, .text (.ofField "note" (.px 32))⟩])).library.get?
        "tall").map (fun t =>
          (t.check.valid, t.errors.map fun v => (v.rule, v.layer))) =
      some (false, [("layer_keys", none), ("layer_keys", some canvasKey),
        ("layer_geometry", some "logo")]) := by
  decide +kernel

end Placard
