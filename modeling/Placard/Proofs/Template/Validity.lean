import Placard.Proofs.Template.Layerwise
import Placard.Proofs.Template.Writing

/-!
# Valid templates

What the check looks for is said here without its findings: a template is valid
if it is sound and each of its layers is valid by itself. A layer is so if its
key is one that can be told from others and from the canvas, and the numbers
that place it and give it its size are such as can be drawn.

The check is made when a template enters a library. What is done to it later is
not checked as a whole, and whether it stays valid is a matter of what is
written, and of the layers that are put into it. A number that has been written
to a coordinate is finite in any case. That the sides of a picture are positive
is up to the values: a value that is read from a valid template may be written
to any other.
-/

namespace Placard

open Text

/-! ## What the check asks for -/

/-- What the check allows a property of a layer to be. -/
def Property.Permits : Property → Value → Prop
  | .x, .number n | .y, .number n => n.isFinite = true
  | .width, .number n | .height, .number n => 0 < n
  | _, _ => True

/-- What the check asks of a layer by itself. -/
structure Layer.Valid (l : Layer) : Prop where
  key : allBlank l.key = false
  unreserved : l.key ≠ canvasKey
  values : ∀ p v, l.body.get? p = some v → p.Permits v

/-- What the check asks of a template. -/
structure Template.Valid (t : Template) : Prop where
  sound : t.Sound
  layers : ∀ l ∈ t.layers, l.Valid

namespace Check

/-- The check finds nothing wrong with the keys if each is there once, and is
neither blank nor reserved. -/
theorem keyViolations_eq_nil_iff {seen : List String} {ls : List Layer} :
    keyViolations seen ls = [] ↔ (ls.map Layer.key).Nodup ∧
      ∀ key ∈ ls.map Layer.key, allBlank key = false ∧ key ≠ canvasKey ∧
      key ∉ seen := by
  fun_induction keyViolations seen ls with
  | case1 => simp
  | case2 seen l ls hblank => simp [hblank]
  | case3 seen l ls hblank hcanvas => simp [hcanvas]
  | case4 seen l ls hblank hcanvas hseen => simp [hseen]
  | case5 seen l ls hblank hcanvas hseen ih =>
      rw [Bool.not_eq_true] at hblank
      rw [ih, List.map_cons, List.nodup_cons, List.forall_mem_cons]
      constructor
      · rintro ⟨hnodup, hrest⟩
        have hnew : l.key ∉ ls.map Layer.key := fun hmem =>
          (hrest l.key hmem).2.2 List.mem_cons_self
        exact ⟨⟨hnew, hnodup⟩, ⟨hblank, hcanvas, hseen⟩, fun key hmem =>
          ⟨(hrest key hmem).1, (hrest key hmem).2.1, fun hin =>
            (hrest key hmem).2.2 (List.mem_cons_of_mem _ hin)⟩⟩
      · rintro ⟨⟨hnew, hnodup⟩, -, hrest⟩
        refine ⟨hnodup, fun key hmem => ?_⟩
        obtain ⟨hkey, hne, hnot⟩ := hrest key hmem
        refine ⟨hkey, hne, fun hin => ?_⟩
        rcases List.mem_cons.mp hin with rfl | hin
        · exact hnew hmem
        · exact hnot hin

/-- The check finds nothing wrong with the numbers of a layer if each is one
that its property may be. -/
theorem geometryViolations_eq_nil_iff {l : Layer} :
    geometryViolations l = [] ↔ ∀ p v, l.body.get? p = some v →
      p.Permits v := by
  obtain ⟨key, body⟩ := l
  cases body with
  | text t =>
      have hnil : geometryViolations ⟨key, .text t⟩ = [] ↔
          t.x.isFinite = true ∧ t.y.isFinite = true := by
        simp [geometryViolations, finitePosition]
      rw [hnil]
      refine ⟨fun ⟨hx, hy⟩ p v hv => ?_, fun h => ⟨h .x _ rfl, h .y _ rfl⟩⟩
      cases p <;> cases hv <;> first | exact hx | exact hy | trivial
  | image i =>
      have hnil : geometryViolations ⟨key, .image i⟩ = [] ↔
          (i.x.isFinite = true ∧ i.y.isFinite = true) ∧ 0 < i.width ∧
            0 < i.height := by
        simp [geometryViolations, finitePosition]
      rw [hnil]
      refine ⟨fun ⟨⟨hx, hy⟩, hwidth, hheight⟩ p v hv => ?_, fun h =>
        ⟨⟨h .x _ rfl, h .y _ rfl⟩, h .width _ rfl, h .height _ rfl⟩⟩
      cases p <;> cases hv <;>
        first | exact hx | exact hy | exact hwidth | exact hheight | trivial

theorem canvasViolations_eq_nil_iff {t : Template} :
    canvasViolations t = [] ↔ 1 ≤ t.width ∧ 1 ≤ t.height := by
  have hpos (n : UInt32) : 0 < n ↔ 1 ≤ n := by
    rw [UInt32.lt_iff_toNat_lt, UInt32.le_iff_toNat_le]
    rfl
  unfold canvasViolations
  simp only [hpos]
  split
  · next h => exact iff_of_true rfl h
  · next h => exact iff_of_false (List.cons_ne_nil _ _) h

/-! ### Which rule finds what

A finding names the rule that it comes from, and is an error or a warning by
that rule. -/

variable {t : Template} {l : Layer} {violation : Violation}

theorem of_canvasViolations (h : violation ∈ canvasViolations t) :
    violation.rule = "canvas_dimensions" ∧ violation.severity = .error := by
  unfold canvasViolations at h
  split at h
  · cases h
  · obtain rfl := List.mem_singleton.mp h
    exact ⟨rfl, rfl⟩

theorem of_keyViolations {seen : List String} {ls : List Layer}
    (h : violation ∈ keyViolations seen ls) :
    violation.rule = "layer_keys" ∧ violation.severity = .error := by
  fun_induction keyViolations seen ls with
  | case1 => cases h
  | case2 _ _ _ _ ih | case3 _ _ _ _ _ ih | case4 _ _ _ _ _ _ ih =>
      rcases List.mem_cons.mp h with rfl | h
      · exact ⟨rfl, rfl⟩
      · exact ih h
  | case5 _ _ _ _ _ _ ih => exact ih h

theorem of_geometryViolations (h : violation ∈ geometryViolations l) :
    violation.rule = "layer_geometry" ∧ violation.severity = .error := by
  unfold geometryViolations at h
  rcases List.mem_append.mp h with h | h
  · split at h
    · cases h
    · obtain rfl := List.mem_singleton.mp h
      exact ⟨rfl, rfl⟩
  · split at h
    · cases h
    · split at h
      · cases h
      · obtain rfl := List.mem_singleton.mp h
        exact ⟨rfl, rfl⟩

/-- A warning about the calculation of a layer names the layer, and what it
warns of is that nothing can be made of its calculation. -/
theorem of_referenceViolations {key : String} {text : TextLayer}
    (h : violation ∈ referenceViolations t key text) :
    violation.severity = .warning ∧ violation.layer = some key ∧
      ∃ c, text.calculation = some c ∧
        ((t.textLayer? c.dependsOn = none ∨ c.dependsOn = key) ∨
          c.steps? = none) := by
  unfold referenceViolations at h
  split at h
  · cases h
  · next c hc =>
      rcases List.mem_append.mp h with h | h
      · split at h
        · cases h
        · next hbad =>
            obtain rfl := List.mem_singleton.mp h
            rw [not_and_or, Option.not_isSome_iff_eq_none, not_not] at hbad
            exact ⟨rfl, rfl, c, hc, Or.inl hbad⟩
      · split at h
        · cases h
        · next hbad =>
            obtain rfl := List.mem_singleton.mp h
            exact ⟨rfl, rfl, c, hc,
              Or.inr (Option.not_isSome_iff_eq_none.mp hbad)⟩

theorem of_roleViolations (h : violation ∈ roleViolations l) :
    violation.rule = "roles" ∧ violation.severity = .warning := by
  unfold roleViolations at h
  split at h
  · cases h
  · split at h
    · obtain rfl := List.mem_singleton.mp h
      exact ⟨rfl, rfl⟩
    · cases h

end Check

namespace Template

open Check

variable {t t' : Template} {key : String} {p : Property} {v : Value} {l : Layer}

/-- The errors are what the rules about the canvas, the keys and the numbers
find. -/
theorem errors_eq (t : Template) : t.errors =
    canvasViolations t ++ keyViolations [] t.layers ++ t.layers.flatMap
      geometryViolations := by
  have hkeep (vs : List Violation) (h : ∀ v ∈ vs, v.severity = .error) :
      vs.filter (fun v => v.severity = .error) = vs :=
    List.filter_eq_self.mpr fun v hv => decide_eq_true (h v hv)
  have hdrop (vs : List Violation) (h : ∀ v ∈ vs, v.severity = .warning) :
      vs.filter (fun v => v.severity = .error) = [] :=
    List.filter_eq_nil_iff.mpr fun v hv => by simp [h v hv]
  unfold errors violations
  rw [List.filter_append, List.filter_append, List.filter_append,
    List.filter_append, hkeep _ fun _ h => (of_canvasViolations h).2,
    hkeep _ fun _ h => (of_keyViolations h).2,
    hkeep (t.layers.flatMap geometryViolations) fun v hv => ?geometry,
    hdrop (t.textLayers.flatMap _) fun v hv => ?references,
    hdrop (t.layers.flatMap roleViolations) fun v hv => ?roles, List.append_nil,
    List.append_nil]
  case geometry =>
    obtain ⟨l, -, hl⟩ := List.mem_flatMap.mp hv
    exact (of_geometryViolations hl).2
  case references =>
    obtain ⟨_, -, hl⟩ := List.mem_flatMap.mp hv
    exact (of_referenceViolations hl).1
  case roles =>
    obtain ⟨l, -, hl⟩ := List.mem_flatMap.mp hv
    exact (of_roleViolations hl).2

theorem errors_eq_nil_iff : t.errors = [] ↔
    canvasViolations t = [] ∧ keyViolations [] t.layers = [] ∧
      ∀ l ∈ t.layers, geometryViolations l = [] := by
  rw [errors_eq]
  simp only [List.append_eq_nil_iff, List.flatMap_eq_nil_iff, and_assoc]

/-- The check accepts the valid templates. -/
theorem check_valid_iff : t.check.valid = true ↔ t.Valid := by
  rw [show t.check.valid = t.errors.isEmpty from rfl, List.isEmpty_iff,
    errors_eq_nil_iff, canvasViolations_eq_nil_iff, keyViolations_eq_nil_iff]
  constructor
  · rintro ⟨⟨hwidth, hheight⟩, ⟨hnodup, hkeys⟩, hnumbers⟩
    refine ⟨⟨hwidth, hheight, hnodup⟩, fun l hl => ?_⟩
    obtain ⟨hblank, hcanvas, -⟩ := hkeys l.key (List.mem_map_of_mem hl)
    exact ⟨hblank, hcanvas, geometryViolations_eq_nil_iff.mp (hnumbers l hl)⟩
  · rintro ⟨⟨hwidth, hheight, hnodup⟩, hlayers⟩
    refine ⟨⟨hwidth, hheight⟩, ⟨hnodup, fun key hkey => ?_⟩, fun l hl => ?_⟩
    · obtain ⟨l, hl, rfl⟩ := List.mem_map.mp hkey
      exact ⟨(hlayers l hl).key, (hlayers l hl).unreserved, List.not_mem_nil⟩
    · exact geometryViolations_eq_nil_iff.mpr (hlayers l hl).values

theorem Valid.hasLayer_canvas (h : t.Valid) : t.hasLayer canvasKey = false := by
  rw [Bool.eq_false_iff, ne_eq, hasLayer_iff]
  intro hmem
  obtain ⟨l, hl, hkey⟩ := List.mem_map.mp hmem
  exact (h.layers l hl).unreserved hkey

end Template

/-! ## What keeps a template valid -/

theorem Kind.eq_of_written?_number {p : Property} {v v' : Value}
    (h : Kind.number.written? p v = some v') : v' = v := by
  replace h : (finite? p v).toOption.map (read number) = some v' := h
  cases hx : finite? p v with
  | error e =>
      rw [hx] at h
      cases h
  | ok x =>
      rw [hx] at h
      exact (Option.some.inj h).symm.trans (finite?_ok hx).symm

/-- A value that a property of a layer may be reads as one once it has been
written. -/
theorem Property.Permits.of_written? {k : Template.PartKind} {p : Property}
    {v v' : Value} (hv : p.Permits v) (hk : k ≠ .canvas)
    (h : k.written? p v = some v') : p.Permits v' := by
  cases k with
  | canvas => exact absurd rfl hk
  | text | image =>
      cases p <;>
        first | trivial | cases h | exact Kind.eq_of_written?_number h ▸ hv

theorem Layer.layerwise_valid :
    Layerwise Layer.Valid fun p v => p.Permits v where
  get hl hv := hl.values _ _ hv
  set {l key p v body} hl hv h := {
    key := hl.key
    unreserved := hl.unreserved
    values := fun q w hw => by
      obtain ⟨-, hwritten, -, hother⟩ := LayerBody.of_set h
      by_cases hq : q = p
      · subst hq
        refine hv.of_written? (fun hk => ?_) (hwritten.trans hw)
        cases hbody : l.body <;> rw [hbody] at hk <;> cases hk
      · exact hl.values q w ((hother q hq).symm.trans hw) }

end Placard
