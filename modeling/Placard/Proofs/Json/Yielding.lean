import Placard.Json.Decode
import Placard.Proofs.Json.Decoding
import Placard.Proofs.Json.Finite

/-!
# What a decoder can give

What is decoded from a text has what the decoder sees to, and its numbers are
finite because those of the text are. For a record this is said member by
member, from the last one back to the first: of each it is named what its
decoder gives, and what is left to show is that the record is as it should be if
all its members are.
-/

namespace Placard.Json

variable {α β : Type}

/-- From a source of finite numbers the decoder takes only what has the
property. -/
def Yields (d : Decoder α) (P : α → Prop) : Prop :=
  ∀ ⦃s a⦄, s.Finite → d s = .ok a → P a

/-! ## Scalars and containers -/

theorem yields_float : Yields decodeFloat fun x => x.isFinite = true := by
  intro s x hs h
  cases s with
  | number n => cases h; exact hs
  | _ => cases h

theorem yields_optional {d : Decoder α} {P : α → Prop} (hd : Yields d P) :
    Yields (decodeOptional d) fun a? => ∀ a ∈ a?, P a := by
  intro s a? hs h a ha
  obtain rfl := ha
  unfold decodeOptional at h
  split at h
  · cases h
  · obtain ⟨b, hb, hsome⟩ := map_eq_ok.mp h
    exact Option.some.inj hsome ▸ hd hs hb

theorem yields_mapM {d : Decoder α} {P : α → Prop} (hd : Yields d P)
    {ss : List Source} {as : List α} (hss : ∀ s ∈ ss, s.Finite)
    (h : ss.mapM d = .ok as) : ∀ a ∈ as, P a := by
  induction ss generalizing as with
  | nil =>
      cases h
      nofun
  | cons s ss ih =>
      obtain ⟨hs, hss⟩ := List.forall_mem_cons.mp hss
      obtain ⟨a, as, ha, has, rfl⟩ := mapM_cons_eq_ok.mp h
      exact List.forall_mem_cons.mpr ⟨hd hs ha, ih hss has⟩

theorem yields_array {d : Decoder α} {P : α → Prop} (hd : Yields d P) :
    Yields (decodeArray d) fun as => ∀ a ∈ as, P a := by
  intro s as hs h
  cases s with
  | array ss behind? =>
      rw [decodeArray, bind_eq_ok] at h
      obtain ⟨as', has, h⟩ := h
      split at h
      · cases h
        exact yields_mapM hd (Source.finite_array.mp hs) has
      · cases h
  | _ => cases h

/-! ## Records -/

namespace Fields

/-- From members of finite numbers the fields make only what has the
property. -/
def Yields (fields : Fields α) (P : α → Prop) : Prop :=
  ∀ ⦃behind ms a⦄, (∀ m ∈ ms, m.2.Finite) → fields.build behind ms = .ok a → P a

variable {P : α → Prop} {Q : β → Prop} {fields : Fields α}
  {ms : List (Option String × Source)} {a : α}

theorem finite_of_member? {name : String} {s : Source}
    (hms : ∀ m ∈ ms, m.2.Finite) (h : member? name ms = some s) : s.Finite := by
  obtain ⟨m, hm, rfl⟩ := Option.map_eq_some_iff.mp h
  exact hms m (List.mem_of_find?_eq_some hm)

theorem yields_required (name : String) {d : Decoder α} (hd : Json.Yields d P) :
    (required name d).Yields P := by
  intro behind ms a hms h
  simp only [required] at h
  split at h
  · next hs => exact hd (finite_of_member? hms hs) h
  · cases h

theorem yields_withDefault (name : String) {default : α} {d : Decoder α}
    (hd : Json.Yields d P) (hdefault : P default) :
    (withDefault name default d).Yields P := by
  intro behind ms a hms h
  simp only [withDefault] at h
  split at h
  · next hs => exact hd (finite_of_member? hms hs) h
  · cases h
    exact hdefault

theorem yields_pure {P : α → Prop} (h : P a) :
    (pure a : Fields α).Yields P := by
  intro behind ms b _ hb
  cases hb
  exact h

theorem Yields.seq {f : Fields (β → α)} {x : Fields β} (hx : x.Yields Q)
    (hf : f.Yields fun g => ∀ b, Q b → P (g b)) : (f <*> x).Yields P := by
  intro behind ms a hms h
  obtain ⟨g, hg, h⟩ := bind_eq_ok.mp h
  obtain ⟨b, hb, h⟩ := bind_eq_ok.mp h
  cases h
  exact hf hms hg b (hx hms hb)

/-- Any member of which nothing is asked. -/
theorem yields_seq {f : Fields (β → α)} {x : Fields β}
    (hf : f.Yields fun g => ∀ b, P (g b)) : (f <*> x).Yields P :=
  Yields.seq (Q := fun _ => True) (fun _ _ _ _ _ => trivial)
    fun _ _ _ hms hg b _ => hf hms hg b

theorem Yields.map {x : Fields β} {g : β → α} (hx : x.Yields Q)
    (h : ∀ b, Q b → P (g b)) : (g <$> x).Yields P := by
  have hg : (pure g : Fields (β → α)).Yields fun g => ∀ b, Q b → P (g b) :=
    yields_pure h
  exact hx.seq hg

theorem yields_map {x : Fields β} {g : β → α} (h : ∀ b, P (g b)) :
    (g <$> x).Yields P := by
  have hg : (pure g : Fields (β → α)).Yields fun g => ∀ b, P (g b) :=
    yields_pure h
  exact yields_seq hg

theorem Yields.ofMembers (h : fields.Yields P) (hms : ∀ m ∈ ms, m.2.Finite)
    {behind? : Option (List Text.Symbol)}
    (ha : fields.ofMembers ms behind? = .ok a) : P a := by
  obtain ⟨-, -, ha⟩ := bind_eq_ok.mp ha
  cases behind? with
  | none => cases ha
  | some behind => exact h hms ha

theorem Yields.ofElements (h : fields.Yields P) {ss : List Source}
    (hss : ∀ s ∈ ss, s.Finite) {behind? : Option (List Text.Symbol)}
    (ha : fields.ofElements ss behind? = .ok a) : P a := by
  have hms : ∀ m ∈ (fields.known.map fun f => some f.name).zip ss, m.2.Finite :=
    fun m hm =>
      hss _ (List.of_mem_zip hm).2
  obtain ⟨-, -, ha⟩ := bind_eq_ok.mp ha
  cases behind? with
  | none => cases ha
  | some behind =>
      dsimp only at ha
      split at ha
      · exact h hms ha
      · cases ha

theorem Yields.decode (h : fields.Yields P) : Json.Yields fields.decode P := by
  intro s a hs ha
  cases s with
  | object ms behind? => exact h.ofMembers (Source.finite_object.mp hs) ha
  | array ss behind? => exact h.ofElements (Source.finite_array.mp hs) ha
  | _ => cases ha

end Fields

/-- What a whole text is decoded as has what the decoder sees to. -/
theorem Yields.of_decodeText {d : Decoder α} {P : α → Prop} (hd : Yields d P)
    {text : List Text.Symbol} {a : α} (h : decodeText d text = .ok a) :
    P a := by
  unfold decodeText at h
  have hsource := finite_read text
  generalize read text = ended at h hsource
  obtain ⟨a', ha, h⟩ := bind_eq_ok.mp h
  split at h
  · cases h
    exact hd hsource ha
  · cases h

end Placard.Json
