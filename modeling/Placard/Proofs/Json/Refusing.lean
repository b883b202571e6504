import Placard.Proofs.Json.Decoding

/-!
# What a decoder refuses

A value is refused if no source that holds it is decoded. One part that is
refused is enough for the whole to be refused, wherever it stands: every element
of an array is looked at, every entry of a table, and every member that a record
has.
-/

namespace Placard.Json

variable {α β : Type} {d : Decoder α} {v : Json}

/-- The decoder takes nothing from what holds `v`. -/
def Refuses (d : Decoder α) (v : Json) : Prop :=
  ∀ ⦃s⦄, Holds v s → ∀ a, d s ≠ .ok a

/-! ## Containers -/

theorem mem_of_mapM_eq_ok {ε : Type} {f : α → Except ε β} {as : List α}
    {bs : List β} (h : as.mapM f = .ok bs) {a : α} (ha : a ∈ as) :
    ∃ b, f a = .ok b := by
  induction as generalizing bs with
  | nil => cases ha
  | cons a' as ih =>
      obtain ⟨b, bs', hb, hbs', -⟩ := mapM_cons_eq_ok.mp h
      rcases List.mem_cons.mp ha with rfl | ha
      · exact ⟨b, hb⟩
      · exact ih hbs' ha

theorem HoldsElements.exists_mem {vs : List Json} {ss : List Source}
    (h : HoldsElements vs ss) (hv : v ∈ vs) : ∃ s ∈ ss, Holds v s := by
  induction vs generalizing ss with
  | nil => cases hv
  | cons v' vs ih =>
      obtain ⟨s, ss', rfl, hs, hss'⟩ := h
      rcases List.mem_cons.mp hv with rfl | hv
      · exact ⟨s, List.mem_cons_self, hs⟩
      · obtain ⟨s', hmem, hs'⟩ := ih hss' hv
        exact ⟨s', List.mem_cons_of_mem _ hmem, hs'⟩

theorem refuses_array {vs : List Json} (hv : v ∈ vs) (h : Refuses d v) :
    Refuses (decodeArray d) (.array vs) := by
  rintro s ⟨ss, behind, rfl, hss⟩ as has
  obtain ⟨s, hmem, hs⟩ := hss.exists_mem hv
  rw [decodeArray, bind_eq_ok] at has
  obtain ⟨bs, hbs, -⟩ := has
  obtain ⟨b, hb⟩ := mem_of_mapM_eq_ok hbs hmem
  exact h hs b hb

theorem refuses_table {f : α → Json} {t : Table α} {e : String × α}
    (he : e ∈ t.entries) (h : Refuses d (f e.2)) :
    Refuses (decodeTable d) (.ofTable f t) := by
  rintro s ⟨ss, behind, rfl, -, hmembers⟩ u hu
  have hnames : ((t.entries.map fun e => (e.1, f e.2)).map (·.1)).Nodup := by
    rw [List.map_map]
    exact t.nodup_keys
  obtain ⟨ss', hperm, hss'⟩ := hmembers hnames
  obtain ⟨s, hmem, hs⟩ := hss'.exists_mem (List.mem_map_of_mem he)
  rw [decodeTable, bind_eq_ok] at hu
  obtain ⟨es, hes, -⟩ := hu
  obtain ⟨b, hb⟩ := mem_of_mapM_eq_ok hes (hperm.mem_iff.mp hmem)
  obtain ⟨a, ha, -⟩ := map_eq_ok.mp hb
  exact h hs a ha

/-! ## Records -/

namespace Fields

variable {fields : Fields α} {ms : List (String × Json)}
  {ss : List (Option String × Source)}

/-- The record has a member of the name, which the decoder takes. -/
def Has (fields : Fields α) (name : String) (d : Decoder β) : Prop :=
  ∃ hasDefault,
    fields.known.find? (fun f => f.name == name) =
      some ⟨name, fun s => (d s).map fun _ => (), hasDefault⟩

/-- Every member that the record has is looked at. -/
theorem check_of_mem {seen : List String} (h : fields.check seen ss = .ok ())
    {name : String} {f : Field}
    (hf : fields.known.find? (fun f => f.name == name) = some f) {s : Source}
    (hs : (some name, s) ∈ ss) : f.check s = .ok () := by
  induction ss generalizing seen with
  | nil => cases hs
  | cons m ss ih =>
      obtain ⟨k?, s'⟩ := m
      cases k? with
      | none => cases h
      | some k =>
          rw [Fields.check] at h
          rcases List.mem_cons.mp hs with heq | hs
          · cases heq
            rw [hf] at h
            dsimp only at h
            split at h
            · cases h
            · obtain ⟨_, hcheck, -⟩ := bind_eq_ok.mp h
              exact hcheck
          · split at h
            · exact ih h hs
            · split at h
              · cases h
              · obtain ⟨-, -, h⟩ := bind_eq_ok.mp h
                exact ih h hs

/-- A record is refused if one of its members is. -/
theorem Has.ofMembers_ne_ok {name : String} {d : Decoder β}
    (hf : fields.Has name d) (hm : (name, v) ∈ ms) (h : Refuses d v)
    (hss : Offers ss ms) (behind? : Option (List Text.Symbol)) (a : α) :
    fields.ofMembers ss behind? ≠ .ok a := by
  intro ha
  obtain ⟨hasDefault, hf⟩ := hf
  obtain ⟨s, hmem, hs⟩ := hss.held (name, v) hm
  obtain ⟨_, hcheck, -⟩ := bind_eq_ok.mp ha
  obtain ⟨b, hb, -⟩ := map_eq_ok.mp (check_of_mem hcheck hf hmem)
  exact h hs b hb

theorem Has.refuses {name : String} {d : Decoder β} (hf : fields.Has name d)
    (hn : (ms.map (·.1)).Nodup) (hm : (name, v) ∈ ms) (h : Refuses d v) :
    Refuses fields.decode (.object ms) := by
  intro s hs a
  obtain ⟨ss, behind, rfl, -, hss⟩ := offers_of_holds hs hn
  exact hf.ofMembers_ne_ok hm h hss (some behind) a

end Fields

/-! ## Texts -/

/-- What is refused is not decoded from its text. -/
theorem decodeText_compact_ne_ok {d : Decoder α} (h : Refuses d v)
    (hv : v.Faithful maxDepth) (a : α) :
    decodeText d (Text.symbols (compact v)) ≠ .ok a := by
  obtain ⟨s, hread, hjson⟩ := read_compact hv.readsBack hv.depth
  intro ha
  rw [decodeText, hread] at ha
  obtain ⟨b, hb, -⟩ := bind_eq_ok.mp ha
  exact h (holds_of_toJson? s hjson) b hb

end Placard.Json
