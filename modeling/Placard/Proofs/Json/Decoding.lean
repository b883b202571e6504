import Placard.Json.Decode
import Placard.Proofs.Json.Holding

/-!
# Decoding what has been written

A decoder takes a value of the library from a JSON value if it takes it from
every source that holds the JSON value, in whatever order the members stand. For
the decoders of scalars and of containers this is said once here. A record is
put together member by member: `Takes` says which members make which value, and
goes through the applicative by which records are built, so that a record
decodes what it is written as if each of its members does.
-/

namespace Placard

section Answers

variable {ε ε' α β : Type} {x : Except ε α}

theorem bind_eq_ok {f : α → Except ε β} {b : β} :
    x >>= f = .ok b ↔ ∃ a, x = .ok a ∧ f a = .ok b := by
  cases x with
  | error e => exact ⟨nofun, fun ⟨_, h, _⟩ => nomatch h⟩
  | ok a => exact ⟨fun h => ⟨a, rfl, h⟩, fun ⟨_, h, h'⟩ => Except.ok.inj h ▸ h'⟩

theorem map_eq_ok {f : α → β} {b : β} :
    x.map f = .ok b ↔ ∃ a, x = .ok a ∧ f a = b := by
  cases x with
  | error e => exact ⟨nofun, fun ⟨_, h, _⟩ => nomatch h⟩
  | ok a => simp [Except.map]

theorem mapError_eq_ok {f : ε → ε'} {a : α} :
    x.mapError f = .ok a ↔ x = .ok a := by
  cases x <;> simp [Except.mapError]

end Answers

namespace Json

variable {α β : Type}

/-- The decoder takes `a` from whatever holds `v`. -/
def Decodes (d : Decoder α) (v : Json) (a : α) : Prop :=
  ∀ s, Holds v s → d s = .ok a

/-! ## Scalars -/

theorem decodes_string (t : String) : Decodes decodeString (.string t) t := by
  rintro s rfl
  rfl

theorem decodes_bool (b : Bool) : Decodes decodeBool (.bool b) b := by
  rintro s rfl
  rfl

theorem decodes_float (x : Float) : Decodes decodeFloat (.real x) x := by
  rintro s rfl
  rfl

theorem decodes_uint32 (n : UInt32) :
    Decodes decodeUInt32 (.int n.toNat) n := by
  rintro s rfl
  have hsize := n.toNat_lt_size
  have hrange : (0 : Int) ≤ n.toNat ∧ (n.toNat : Int) ≤ UInt32.size - 1 := by
    omega
  rw [decodeUInt32, decodeInt, if_pos hrange]
  show Except.ok (UInt32.ofNat (Int.toNat n.toNat)) = Except.ok n
  rw [Int.toNat_natCast, UInt32.ofNat_toNat]

theorem decodes_int32 (n : Int32) : Decodes decodeInt32 (.int n.toInt) n := by
  rintro s rfl
  have hrange : Int32.minValue.toInt ≤ n.toInt ∧
      n.toInt ≤ Int32.maxValue.toInt :=
    ⟨n.minValue_le_toInt, n.toInt_le⟩
  rw [decodeInt32, decodeInt, if_pos hrange]
  show Except.ok (Int32.ofInt n.toInt) = Except.ok n
  rw [Int32.ofInt_toInt]

/-- A named value is decoded if no other is found first under its name. -/
theorem decodes_named {all : List α} {name : α → String}
    {isNothing : Source → Bool} {a : α}
    (h : all.find? (fun b => name b == name a) = some a) :
    Decodes (decodeNamed all name isNothing) (.string (name a)) a := by
  rintro s rfl
  simp only [decodeNamed, h]

/-! ## Containers -/

theorem eq_null_of_holds {v : Json} (h : Holds v .null) : v = .null := by
  cases v with
  | null => rfl
  | array vs => obtain ⟨_, _, heq, -⟩ := h; cases heq
  | object ms => obtain ⟨_, _, heq, -⟩ := h; cases heq
  | _ => cases h

theorem decodes_optional {d : Decoder α} {f : α → Json} {a? : Option α}
    (h : ∀ a ∈ a?, f a ≠ .null ∧ Decodes d (f a) a) :
    Decodes (decodeOptional d) (.optional f a?) a? := by
  intro s hs
  cases a? with
  | none =>
      obtain rfl := hs
      rfl
  | some a =>
      obtain ⟨hnull, hd⟩ := h a rfl
      unfold decodeOptional
      split
      · exact absurd (eq_null_of_holds hs) hnull
      · rw [hd s hs]
        rfl

theorem mapM_of_holdsElements {d : Decoder α} {f : α → Json} {as : List α}
    (h : ∀ a ∈ as, Decodes d (f a) a) {ss : List Source}
    (hss : HoldsElements (as.map f) ss) : ss.mapM d = .ok as := by
  induction as generalizing ss with
  | nil =>
      obtain rfl := hss
      rfl
  | cons a as ih =>
      obtain ⟨s, ss', rfl, hs, hss'⟩ := hss
      rw [List.mapM_cons, h a List.mem_cons_self s hs,
        ih (fun a ha => h a (List.mem_cons_of_mem _ ha)) hss']
      rfl

theorem decodes_array {d : Decoder α} {f : α → Json} {as : List α}
    (h : ∀ a ∈ as, Decodes d (f a) a) :
    Decodes (decodeArray d) (.array (as.map f)) as := by
  rintro s ⟨ss, behind, rfl, hss⟩
  rw [decodeArray, mapM_of_holdsElements h hss]
  rfl

theorem mapM_cons_eq_ok {ε : Type} {f : α → Except ε β} {a : α} {as : List α}
    {bs : List β} :
    (a :: as).mapM f = .ok bs ↔
      ∃ b bs', f a = .ok b ∧ as.mapM f = .ok bs' ∧ bs = b :: bs' := by
  rw [List.mapM_cons, bind_eq_ok]
  constructor
  · rintro ⟨b, hb, h⟩
    obtain ⟨bs', hbs', h⟩ := bind_eq_ok.mp h
    exact ⟨b, bs', hb, hbs', (Except.ok.inj h).symm⟩
  · rintro ⟨b, bs', hb, hbs', rfl⟩
    exact ⟨b, hb, bind_eq_ok.mpr ⟨bs', hbs', rfl⟩⟩

/-- Where every element is taken, their order does not matter for that. -/
theorem mapM_perm {ε : Type} {f : α → Except ε β} {as as' : List α}
    (h : as.Perm as') {bs : List β} (hf : as.mapM f = .ok bs) :
    ∃ bs', as'.mapM f = .ok bs' ∧ bs.Perm bs' := by
  induction h generalizing bs with
  | nil => exact ⟨bs, hf, List.Perm.refl bs⟩
  | cons a _ ih =>
      obtain ⟨b, bs, hb, hbs, rfl⟩ := mapM_cons_eq_ok.mp hf
      obtain ⟨bs', hbs', hperm⟩ := ih hbs
      exact ⟨b :: bs', mapM_cons_eq_ok.mpr ⟨b, bs', hb, hbs', rfl⟩,
        hperm.cons b⟩
  | swap a a' _ =>
      obtain ⟨b', bs₁, hb', hbs₁, rfl⟩ := mapM_cons_eq_ok.mp hf
      obtain ⟨b, bs, hb, hbs, rfl⟩ := mapM_cons_eq_ok.mp hbs₁
      have htail := mapM_cons_eq_ok.mpr ⟨b', bs, hb', hbs, rfl⟩
      exact ⟨b :: b' :: bs, mapM_cons_eq_ok.mpr ⟨b, b' :: bs, hb, htail, rfl⟩,
        List.Perm.swap b b' bs⟩
  | trans _ _ ih ih' =>
      obtain ⟨bs', hbs', hperm⟩ := ih hf
      obtain ⟨bs'', hbs'', hperm'⟩ := ih' hbs'
      exact ⟨bs'', hbs'', hperm.trans hperm'⟩

theorem mapM_of_holdsMembers {d : Decoder α} {f : α → Json}
    {es : List (String × α)} (h : ∀ e ∈ es, Decodes d (f e.2) e.2)
    {ss : List (Option String × Source)}
    (hss : HoldsMembers (es.map fun (k, a) => (k, f a)) ss) :
    ss.mapM (decodeEntry d) = .ok es := by
  induction es generalizing ss with
  | nil =>
      obtain rfl := hss
      rfl
  | cons e es ih =>
      obtain ⟨s, ss', rfl, hs, hss'⟩ := hss
      rw [List.mapM_cons, decodeEntry, h e List.mem_cons_self s hs,
        ih (fun e he => h e (List.mem_cons_of_mem _ he)) hss']
      rfl

theorem decodes_table {d : Decoder α} {f : α → Json} {t : Table α}
    (h : ∀ e ∈ t.entries, Decodes d (f e.2) e.2) :
    Decodes (decodeTable d) (.ofTable f t) t := by
  rintro s ⟨ss, behind, rfl, -, hmembers⟩
  have hnames : ((t.entries.map fun (k, a) => (k, f a)).map (·.1)).Nodup := by
    rw [List.map_map]
    exact t.nodup_keys
  obtain ⟨ss', hperm, hss'⟩ := hmembers hnames
  obtain ⟨es, hes, hperm'⟩ := mapM_perm hperm (mapM_of_holdsMembers h hss')
  rw [decodeTable, hes]
  show Except.ok (Table.ofList es) = Except.ok t
  rw [Table.ofList_of_perm hperm']

/-! ## Records -/

/-- Members of different names, among them those of an object. -/
structure Offers (ss : List (Option String × Source))
    (ms : List (String × Json)) : Prop where
  nodup : (ss.map (·.1)).Nodup
  named : ∀ m ∈ ss, m.1.isSome
  held : ∀ m ∈ ms, ∃ s, (some m.1, s) ∈ ss ∧ Holds m.2 s

namespace Offers

variable {ss : List (Option String × Source)} {ms ms' : List (String × Json)}

theorem mono (h : Offers ss ms) (hsub : ∀ m ∈ ms', m ∈ ms) : Offers ss ms' where
  nodup := h.nodup
  named := h.named
  held m hm := h.held m (hsub m hm)

/-- Without the member of one name. -/
theorem without (h : Offers ss ms) (name : String)
    (hsub : ∀ m ∈ ms', m ∈ ms ∧ m.1 ≠ name) :
    Offers (ss.filter fun m => m.1 != some name) ms' where
  nodup := h.nodup.sublist (List.filter_sublist.map _)
  named m hm := h.named m (List.mem_of_mem_filter hm)
  held m hm := by
    obtain ⟨hmem, hne⟩ := hsub m hm
    obtain ⟨s, hs, hholds⟩ := h.held m hmem
    exact ⟨s, List.mem_filter.mpr ⟨hs, by simpa using hne⟩, hholds⟩

theorem unique (h : Offers ss ms) {k? : Option String} {s s' : Source}
    (hs : (k?, s) ∈ ss) (hs' : (k?, s') ∈ ss) : s' = s :=
  congrArg Prod.snd (List.inj_on_of_nodup_map h.nodup hs' hs rfl)

theorem member? (h : Offers ss ms) {name : String} {s : Source}
    (hs : (some name, s) ∈ ss) : Json.member? name ss = some s := by
  unfold Json.member?
  cases hfind : ss.find? fun m => m.1 == some name with
  | none => exact absurd (List.find?_eq_none.mp hfind _ hs) (by simp)
  | some m =>
      obtain ⟨k?, s'⟩ := m
      obtain rfl : k? = some name := by simpa using List.find?_some hfind
      rw [Option.map_some, h.unique hs (List.mem_of_find?_eq_some hfind)]

end Offers

theorem offers_of_holds {s : Source} {ms : List (String × Json)}
    (h : Holds (.object ms) s) (hn : (ms.map (·.1)).Nodup) :
    ∃ ss behind, s = .object ss (some behind) ∧
      (Source.membersToJson? ss).isSome ∧ Offers ss ms := by
  obtain ⟨ss, behind, heq, hjson, hnodup, hheld⟩ := holds_object h hn
  exact ⟨ss, behind, heq, hjson, hnodup, named_of_membersToJson? hjson, hheld⟩

namespace Fields

/-- The fields make `a` of the members `ms`, and of whatever else stands beside
them. -/
structure Takes (fields : Fields α) (ms : List (String × Json)) (a : α) :
    Prop where
  check : ∀ {ss}, Offers ss ms →
    ∀ f ∈ fields.known, ∀ s, (some f.name, s) ∈ ss →
    f.check s = .ok ()
  build : ∀ {ss}, Offers ss ms → ∀ behind, fields.build behind ss = .ok a

theorem takes_single {fields : Fields α} {d : Decoder α} {name : String}
    {hasDefault : Bool} {v : Json} {a : α}
    (hknown : fields.known =
      [⟨name, fun s => (d s).map fun _ => (), hasDefault⟩])
    (hbuild : ∀ behind ss s, member? name ss = some s →
      fields.build behind ss = d s)
    (h : Decodes d v a) : fields.Takes [(name, v)] a where
  check hss f hf s hs := by
    rw [hknown] at hf
    obtain rfl := List.mem_singleton.mp hf
    obtain ⟨s', hs', hholds⟩ := hss.held (name, v) List.mem_cons_self
    obtain rfl := hss.unique hs' hs
    show (d s).map _ = _
    rw [h s hholds]
    rfl
  build hss behind := by
    obtain ⟨s, hs, hholds⟩ := hss.held (name, v) List.mem_cons_self
    rw [hbuild behind _ s (hss.member? hs), h s hholds]

theorem takes_required (name : String) {d : Decoder α} {v : Json} {a : α}
    (h : Decodes d v a) : (required name d).Takes [(name, v)] a :=
  takes_single rfl (fun _ _ _ hs => by simp only [required, hs]) h

theorem takes_withDefault (name : String) (default : α) {d : Decoder α}
    {v : Json} {a : α} (h : Decodes d v a) :
    (withDefault name default d).Takes [(name, v)] a :=
  takes_single rfl (fun _ _ _ hs => by simp only [withDefault, hs]) h

theorem takes_optional (name : String) {d : Decoder α} {v : Json}
    {a? : Option α} (h : Decodes (decodeOptional d) v a?) :
    (optional name d).Takes [(name, v)] a? :=
  takes_single rfl (fun _ _ _ hs => by simp only [optional, hs]) h

theorem takes_pure (a : α) : (pure a : Fields α).Takes [] a where
  check _ _ hf := nomatch hf
  build _ _ := rfl

theorem Takes.seq {f : Fields (α → β)} {x : Fields α}
    {ms ns : List (String × Json)} {g : α → β} {a : α} (hf : f.Takes ms g)
    (hx : x.Takes ns a) : (f <*> x).Takes (ms ++ ns) (g a) where
  check hss field hfield s hs := by
    rcases List.mem_append.mp hfield with hfield | hfield
    · exact hf.check (hss.mono fun m hm => List.mem_append_left _ hm) field
        hfield s hs
    · exact hx.check (hss.mono fun m hm => List.mem_append_right _ hm) field
        hfield s hs
  build {ss} hss behind := by
    have hg := hf.build (hss.mono fun m hm => List.mem_append_left _ hm) behind
    have ha := hx.build (hss.mono fun m hm => List.mem_append_right _ hm) behind
    show (do
      let g ← f.build behind ss
      let a ← x.build behind ss
      pure (g a)) = Except.ok (g a)
    rw [hg, ha]
    rfl

theorem Takes.map {x : Fields α} {ms : List (String × Json)} {a : α}
    (hx : x.Takes ms a) (g : α → β) : (g <$> x).Takes ms (g a) :=
  (takes_pure g).seq hx

theorem check_eq_ok {fields : Fields α} {ss : List (Option String × Source)}
    (hn : (ss.map (·.1)).Nodup) (hnamed : ∀ m ∈ ss, m.1.isSome)
    (h : ∀ f ∈ fields.known, ∀ s, (some f.name, s) ∈ ss → f.check s = .ok ())
    {seen : List String} (hseen : ∀ name ∈ seen, some name ∉ ss.map (·.1)) :
    fields.check seen ss = .ok () := by
  induction ss generalizing seen with
  | nil => rfl
  | cons m ss ih =>
      obtain ⟨k?, s⟩ := m
      obtain ⟨name, rfl⟩ :=
        Option.isSome_iff_exists.mp (hnamed (k?, s) List.mem_cons_self)
      rw [List.map_cons, List.nodup_cons] at hn
      have hrest {seen : List String}
          (hseen : ∀ name ∈ seen, some name ∉ ss.map (·.1)) :=
        ih hn.2 (fun m hm => hnamed m (List.mem_cons_of_mem _ hm))
          (fun f hf s hs => h f hf s (List.mem_cons_of_mem _ hs)) hseen
      have hseen' : ∀ name ∈ seen, some name ∉ ss.map (·.1) :=
        fun name hname hmem =>
          hseen name hname (List.mem_cons_of_mem _ hmem)
      rw [Fields.check]
      split
      · exact hrest hseen'
      · next f hfind =>
          have hname : f.name = name := by simpa using List.find?_some hfind
          have hcheck := h f (List.mem_of_find?_eq_some hfind) s
            (hname ▸ List.mem_cons_self)
          rw [if_neg fun hmem => hseen name hmem List.mem_cons_self, hcheck]
          refine hrest fun name' hname' => ?_
          rcases List.mem_cons.mp hname' with rfl | hname'
          · exact hn.1
          · exact hseen' name' hname'

theorem Takes.ofMembers {fields : Fields α} {ms : List (String × Json)}
    {a : α} (h : fields.Takes ms a) {ss : List (Option String × Source)}
    (hss : Offers ss ms) (behind : List Text.Symbol) :
    fields.ofMembers ss (some behind) = .ok a := by
  have hcheck : fields.check [] ss = .ok () :=
    check_eq_ok hss.nodup hss.named (h.check hss) (by simp)
  rw [Fields.ofMembers, hcheck]
  exact h.build hss behind

/-- A record is decoded from an object with the members that it takes. -/
theorem Takes.decodes {fields : Fields α} {ms : List (String × Json)} {a : α}
    (h : fields.Takes ms a) (hn : (ms.map (·.1)).Nodup) :
    Decodes fields.decode (.object ms) a := by
  intro s hs
  obtain ⟨ss, behind, rfl, -, hss⟩ := offers_of_holds hs hn
  exact h.ofMembers hss behind

end Fields

/-! ## Texts -/

/-- What has been written is decoded from its text. -/
theorem decodeText_compact {d : Decoder α} {v : Json} {a : α}
    (h : Decodes d v a) (hv : v.Faithful maxDepth) :
    decodeText d (Text.symbols (compact v)) = .ok a := by
  obtain ⟨s, hread, hjson⟩ := read_compact hv.readsBack hv.depth
  rw [decodeText, hread]
  show (do let a ← d s; _) = _
  rw [h s (holds_of_toJson? s hjson)]
  rfl

end Json

end Placard
