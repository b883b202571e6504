import Placard.Proofs.Session.Layerwise
import Placard.Proofs.Session.Refusing
import Placard.Proofs.Session.Rendering
import Placard.Proofs.Template.Export
import Placard.Proofs.Template.Imported
import Placard.Proofs.Template.Validity

/-!
# Sessions that are restored

A session that is put aside as a token is restored from it with all that the
token keeps: its library and the flags in it, its toggles and fields, and what
is active. Only the numbers in the templates can stand in the way. Finite ones
are read back, if their texts are exact, but the size of a font is taken only if
it is positive.

Those of an imported template are. An edit looks at the numbers that it writes,
with two exceptions: a size that is given as a size is stored as it is, and so
is all that is in a layer that is added. Both come to a session from a text, and
it is the decoder of this text that has looked at them.
-/

namespace Placard

open Json

namespace Session

variable {r s : Session}

/-! ## From a snapshot -/

/-- The session is as the other one, as far as a snapshot keeps it, and compiles
as it does. -/
structure Resumes (r s : Session) : Prop where
  workspace : r.workspace = s.workspace
  toggles : r.toggles = s.toggles
  fields : r.fields = s.fields
  active : r.active = s.active
  compile : ∀ canvas? asset, r.compile canvas? asset = s.compile canvas? asset

theorem Resumes.of_same (hsettings : r.settings = s.settings)
    (hworkspace : r.workspace = s.workspace)
    (htoggles : r.toggles = s.toggles) (hfields : r.fields = s.fields)
    (hactive : r.active = s.active) : r.Resumes s where
  workspace := hworkspace
  toggles := htoggles
  fields := hfields
  active := hactive
  compile canvas? asset := by
    rw [Session.compile, plan, activeTemplate_congr hworkspace hactive,
      hsettings, hfields]
    rfl

/-- A session is resumed from its snapshot: what was active can be made active
again, and the fields are those of the snapshot and not those that this
seeds. -/
theorem WellFormed.exists_ofSnapshot (hs : s.WellFormed) :
    ∃ r, ofSnapshot s.settings s.snapshot = .ok r ∧ r.Resumes s := by
  unfold ofSnapshot
  dsimp only [snapshot]
  split
  · next hactive => exact ⟨_, rfl, .of_same rfl rfl rfl rfl hactive.symm⟩
  · next id hactive =>
      obtain ⟨r, hset, hactivates⟩ := exists_setActive (s :=
        { start s.settings s.workspace.library with
          workspace := ⟨s.workspace.library, s.workspace.overrides⟩
          toggles := s.toggles }) hs.workspace.linked (hs.active id hactive)
      unfold outcome at hset
      rw [hset]
      exact ⟨_, rfl, .of_same hactivates.settings hactivates.workspace
        hactivates.toggles rfl (hactivates.active.trans hactive.symm)⟩

/-! ## From a token -/

/-- Where the numbers are read back, it is the sizes of the fonts that
decide. -/
theorem WellFormed.exists_restore_iff (hs : s.WellFormed)
    (hfinite : ∀ t ∈ s.workspace.library.templates.values, ∀ x ∈ t.floats,
      x.isFinite = true)
    (hexact : ∀ t ∈ s.workspace.library.templates.values, ∀ x ∈ t.floats,
      Exact x) :
    (∃ r, restore s.settings s.snapshot.token = .ok r ∧ r.Resumes s) ↔
      ∀ t ∈ s.workspace.library.templates.values, ∀ size ∈ t.fontSizes,
        0 < size.value := by
  unfold restore
  constructor
  · rintro ⟨r, hr, -⟩ t ht size hsize
    by_contra hvalue
    rw [Snapshot.ofToken?_token_eq_none hexact ht hsize hvalue] at hr
    cases hr
  · intro hpositive
    have hreadable : s.workspace.library.Readable := {
      floats := hexact
      fontSizes := fun t ht size hsize =>
        have hmem := t.value_mem_floats hsize
        ⟨hfinite t ht _ hmem, hpositive t ht size hsize, hexact t ht _ hmem⟩ }
    rw [Snapshot.ofToken?_token hreadable]
    exact hs.exists_ofSnapshot

theorem reached_settings (settings : Settings) (ops : List Operation)
    (reqs : List Request) : (reached settings ops reqs).settings = settings :=
  ((wellFormed_start (Workspace.wellFormed_empty.run ops) settings).keeps_run
    reqs).settings

/-- Every layer is measured in a session on imported templates, if those that
have been added are, and if every size that has been written is one. -/
theorem reached_all_measured (settings : Settings) {parents : List Template}
    {reqs : List Request}
    (hparents : ∀ t ∈ parents, ∃ text, Template.import? text = .ok t)
    (hreqs : Each (fun _ _ req => req.Brings Layer.Measured fun _ v => v.Sized)
      (reached settings (parents.map .register) []) reqs) :
    (reached settings (parents.map .register) reqs).workspace.library.All
      Layer.Measured := by
  have hempty : Workspace.empty.library.All Layer.Measured :=
    fun id t ht => by cases ht
  refine (wellFormed_reached settings (parents.map .register) []).run_all
    Layer.layerwise_measured hreqs ?_
  refine Workspace.wellFormed_empty.run_all Layer.layerwise_measured
    (fun op hop => ?_) hempty
  obtain ⟨t, ht, rfl⟩ := List.mem_map.mp hop
  obtain ⟨text, htext⟩ := hparents t ht
  exact Template.all_measured_of_import? htext

/-- A session on imported templates is restored from its token if what comes
into it is measured. That the texts of finite numbers are exact is supposed. -/
theorem exists_restore_of_brings (settings : Settings)
    {parents : List Template} {reqs : List Request}
    (hparents : ∀ t ∈ parents, ∃ text, Template.import? text = .ok t)
    (hreqs : Each (fun _ _ req => req.Brings Layer.Measured fun _ v => v.Sized)
      (reached settings (parents.map .register) []) reqs)
    (hexact : ∀ t ∈
      (reached settings (parents.map .register)
        reqs).workspace.library.templates.values,
        ∀ x ∈ t.floats, x.isFinite = true → Exact x) :
    ∃ r, restore settings
      (reached settings (parents.map .register) reqs).snapshot.token =
        .ok r ∧ r.Resumes (reached settings (parents.map .register) reqs) := by
  have hs := wellFormed_reached settings (parents.map .register) reqs
  have hsettings := reached_settings settings (parents.map .register) reqs
  have hall : ∀ t ∈
      (reached settings (parents.map .register)
        reqs).workspace.library.templates.values,
        t.All Layer.Measured := by
    intro t ht
    obtain ⟨id, hid⟩ := Table.exists_get?_of_mem_values ht
    exact reached_all_measured settings hparents hreqs id t hid
  have hrestore := hs.exists_restore_iff (fun t ht => (hall t ht).finite)
    (fun t ht x hx => hexact t ht x hx ((hall t ht).finite x hx))
  rw [hsettings] at hrestore
  exact hrestore.mpr fun t ht => (hall t ht).positive

/-! ## Requests that are received -/

/-- A size that is given as a size and a layer that is added have been decoded
from a text. Any number, text, name or other value may be in a request. -/
def Request.Received : Request → Prop
  | setProperty _ _ (.fontSize size) =>
    ∃ text, decodeText FontSize.decode text = .ok size
  | addLayer l => ∃ text, decodeText Layer.decode text = .ok l
  | _ => True

theorem Request.Received.brings {req : Request} (h : req.Received) :
    req.Brings Layer.Measured fun _ v => v.Sized := by
  cases req with
  | setProperty layer p v =>
      intro _
      cases v with
      | fontSize size =>
          obtain ⟨text, htext⟩ := h
          exact FontSize.yields.of_decodeText htext
      | _ => trivial
  | addLayer l =>
      obtain ⟨text, htext⟩ := h
      exact Layer.yields.of_decodeText htext
  | _ => trivial

theorem valid_poster (id literal : String) : (poster id literal).Valid where
  sound := ⟨(by decide : (1 : UInt32) ≤ 500), (by decide : (1 : UInt32) ≤ 500),
    List.nodup_singleton _⟩
  layers := by
    have hzero : (0 : Float).isFinite = true := by decide +kernel
    refine List.forall_mem_singleton.mpr
      ⟨(by decide : Text.allBlank "title" = false),
        (by decide : "title" ≠ canvasKey), fun p v hv => ?_⟩
    cases p <;> cases hv <;> first | exact hzero | trivial

theorem import?_poster (id literal : String) :
    Template.import? (compact (poster id literal).toJson) =
      .ok (poster id literal) := by
  have hzero : Exact 0 := by decide +kernel
  have hsize : (FontSize.px 32).Sound :=
    ⟨by decide +kernel, by decide +kernel, by decide +kernel⟩
  have hfloats : (poster id literal).floats = [0, 0, 32] := rfl
  have hsizes : (poster id literal).fontSizes = [.px 32] := rfl
  refine Template.import?_compact ?_ ?_
    (if_pos (Template.check_valid_iff.mpr (valid_poster id literal)))
  · rw [hfloats]
    simp only [List.forall_mem_cons]
    exact ⟨hzero, hzero, hsize.exact, List.forall_mem_nil _⟩
  · rw [hsizes]
    exact List.forall_mem_singleton.mpr hsize

/-- A child with a smaller title, moved a little, and a picture below it. -/
def shrinking : List Request :=
  [.setActive "wide", .createChild (some "tall") "fresh" (some ⟨628, 1200⟩),
    .setProperty "title" .fontSize (.fontSize (.percent 62.5)),
    .setProperty "title" .x (.number 12.25),
    .addLayer ⟨"shoe", .image (.ofSize 340.5 280)⟩,
    .bindField "Title" "headline"]

end Session

end Placard
