import Placard.Proofs.Json.Yielding
import Placard.Proofs.Template.Measures
import Placard.Template.Import

/-!
# What is imported is measured

The decoder of a layer asks less of it than the check does of some of its
properties, and of others more: the size of a font has to be positive, and the
numbers are all finite, as no others can be written in a text. So a template
that has been imported has only measures that can be written down again.
-/

namespace Placard

open Json

theorem FontSize.yields : Yields FontSize.decode FontSize.Measured := by
  intro s size _ h
  cases s with
  | number n =>
      simp only [FontSize.decode] at h
      split at h
      · next hsize =>
          cases h
          exact FontSize.measured_iff.mpr hsize
      · cases h
  | string t => exact FontSize.measured_of_ofText? (mapError_eq_ok.mp h)
  | _ => cases h

/-- The members are given from the last one back. -/
theorem TextLayer.yields (key : String) :
    TextLayer.fields.Yields fun t => Layer.Measured ⟨key, .text t⟩ := by
  have hcoordinate (name : String) :
      (Fields.withDefault name 0 decodeFloat).Yields
      fun x => x.isFinite = true :=
    Fields.yields_withDefault name yields_float (by decide +kernel)
  have hoptional (name : String) :
      (Fields.withDefault name none (decodeOptional decodeFloat)).Yields
        fun x? => ∀ x ∈ x?, x.isFinite = true :=
    Fields.yields_withDefault name (yields_optional yields_float) nofun
  refine Fields.yields_seq <| Fields.yields_seq <| Fields.yields_seq <|
    Fields.yields_seq <|
      (hoptional "widthMultiplier").seq <| Fields.yields_seq <|
        Fields.yields_seq <|
      Fields.yields_seq <| Fields.yields_seq <| Fields.yields_seq <|
        Fields.yields_seq <|
      (hoptional "wrapWidth").seq <| Fields.yields_seq <| Fields.yields_seq <|
      Fields.yields_seq <|
        (Fields.yields_required "fontSize" FontSize.yields).seq <|
      Fields.yields_seq <| (hcoordinate "y").seq <| (hcoordinate "x").map ?_
  intro x hx y hy _ size hsize _ _ _ wrap hwrap _ _ _ _ _ _ multiplier
    hmultiplier _ _ _ _
  exact TextLayer.measured_iff.mpr ⟨hx, hy, hsize, hwrap, hmultiplier⟩

theorem ImageLayer.yields (key : String) :
    ImageLayer.fields.Yields fun i => Layer.Measured ⟨key, .image i⟩ := by
  have hcoordinate (name : String) :
      (Fields.withDefault name 0 decodeFloat).Yields
      fun x => x.isFinite = true :=
    Fields.yields_withDefault name yields_float (by decide +kernel)
  have hside (name : String) : (Fields.required name decodeFloat).Yields
      fun x => x.isFinite = true :=
    Fields.yields_required name yields_float
  refine Fields.yields_seq <| Fields.yields_seq <| Fields.yields_seq <|
    Fields.yields_seq <|
      Fields.yields_seq <| Fields.yields_seq <| Fields.yields_seq <|
        (hside "height").seq <|
      (hside "width").seq <| (hcoordinate "y").seq <| (hcoordinate "x").map ?_
  intro x hx y hy width hwidth height hheight _ _ _ _ _ _ _
  exact ImageLayer.measured_iff.mpr ⟨hx, hy, hwidth, hheight⟩

theorem Layer.yields : Yields Layer.decode Layer.Measured := by
  intro s l hs h
  cases s with
  | object ms behind? =>
      have hms := Source.finite_object.mp hs
      have hrest : ∀ m ∈ (ms.filter fun m => m.1 != some "key").filter fun m =>
          m.1 != some "kind", m.2.Finite := fun m hm =>
        hms m (List.mem_of_mem_filter (List.mem_of_mem_filter hm))
      obtain ⟨key, -, h⟩ := bind_eq_ok.mp h
      dsimp only at h
      split at h
      · cases h
      · obtain ⟨kind, -, h⟩ := bind_eq_ok.mp h
        cases kind with
        | text =>
            obtain ⟨t, ht, rfl⟩ := map_eq_ok.mp h
            exact (TextLayer.yields key).ofMembers hrest ht
        | image =>
            obtain ⟨i, hi, rfl⟩ := map_eq_ok.mp h
            exact (ImageLayer.yields key).ofMembers hrest hi
  | _ => cases h

theorem Template.yields :
    Yields Template.decode (Template.All Layer.Measured) := by
  refine Fields.Yields.decode ?_
  refine (Fields.yields_withDefault "layers" (yields_array Layer.yields)
    (List.forall_mem_nil _)).seq <| Fields.yields_seq <| Fields.yields_seq <|
    Fields.yields_seq <| Fields.yields_map ?_
  intro id width height background layers hlayers
  exact hlayers

/-! ## Texts -/

theorem mem_of_lookup {α : Type} {k : String} {v : α} {es : List (String × α)}
    (h : es.lookup k = some v) : (k, v) ∈ es := by
  obtain ⟨before, behind, rfl, -⟩ := List.lookup_eq_some_iff.mp h
  exact List.mem_append_right _ List.mem_cons_self

theorem mem_numbers_of_memberOf? {name : String} {v body : Json}
    (h : memberOf? name v = some body) {n : Number} (hn : n ∈ body.numbers) :
    n ∈ v.numbers := by
  cases v with
  | object ms => exact mem_numbersOfMembers.mpr ⟨_, mem_of_lookup h, hn⟩
  | _ => cases h

/-- What is unwrapped is the value itself or a member of it. -/
theorem mem_numbers_of_unwrap {v body : Json} (h : unwrap v = .ok body)
    {n : Number} (hn : n ∈ body.numbers) : n ∈ v.numbers := by
  unfold unwrap at h
  split at h
  · cases h
    exact hn
  · next hbody =>
      split at h
      · split at h
        · cases h
          exact mem_numbers_of_memberOf? hbody hn
        · cases h
      · cases h

theorem Template.valid_of_accept {t t' : Template} (h : t.accept = .ok t') :
    t' = t ∧ t.check.valid = true := by
  unfold accept at h
  split at h
  · next hvalid => exact ⟨(Except.ok.inj h).symm, hvalid⟩
  · cases h

/-- What is imported has been read, unwrapped, decoded and accepted. -/
theorem Template.steps_of_import? {text : String} {t : Template}
    (h : import? text = .ok t) :
    ∃ v body, ofText? text = some v ∧ unwrap v = .ok body ∧
      decode (.ofJson body) = .ok t ∧ t.check.valid = true := by
  unfold Template.import? at h
  split at h
  · cases h
  · next v hv =>
      obtain ⟨body, hbody, h⟩ := bind_eq_ok.mp h
      obtain ⟨t', hdecode, haccept⟩ := bind_eq_ok.mp h
      obtain ⟨rfl, hvalid⟩ := valid_of_accept (mapError_eq_ok.mp haccept)
      exact ⟨v, body, hv, hbody, mapError_eq_ok.mp hdecode, hvalid⟩

theorem Template.all_measured_of_import? {text : String} {t : Template}
    (h : Template.import? text = .ok t) : t.All Layer.Measured := by
  obtain ⟨v, body, hv, hbody, hdecode, -⟩ := steps_of_import? h
  have hfinite : (Source.ofJson body).Finite := finite_ofJson body fun n hn =>
    finite_of_ofText? hv n (mem_numbers_of_unwrap hbody hn)
  exact Template.yields hfinite hdecode

end Placard
