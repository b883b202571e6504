import Placard.Proofs.Field.Naming
import Mathlib.Order.Bounds.Basic

/-!
# Names given in turn

Fields get the names of their variables in the order in which the text layers
declare them. A field gets its base, unless an earlier field has that name
already: one with the same base, or one with a shorter base that got a number
put behind it, as `price2` is the second name for `price` and the first for the
field `price2`. It gets its base with a number then, the smallest from two on
that makes a name no earlier field has.

The search for that number has no bound of its own. It ends because the numbered
names are all different, so that one more of them than there are names taken
cannot all be taken. What it finds depends on the fields declared before and on
nothing else, which is why a layer added at the end changes no name.
-/

namespace Placard

open Text

namespace Variable

/-- The search as it goes, with no bound to it: a name that is taken gives way
to the base with the next number behind it. -/
inductive Search (base : String) (taken : Set String) :
    String → Nat → String → Prop
  | stop {name : String} {n : Nat} (hfree : name ∉ taken) :
      Search base taken name n name
  | next {name last : String} {n : Nat} (htaken : name ∈ taken)
      (hrest : Search base taken (base ++ toString n) (n + 1) last) :
      Search base taken name n last

/-- The numbers that make a name for the base that is not taken. -/
def freeNumbers (base : String) (taken : Set String) : Set Nat :=
  {n | 2 ≤ n ∧ base ++ toString n ∉ taken}

/-! ## The search for a free name -/

theorem candidate_succ (base : String) (n : Nat) :
    candidate base (n + 1) = base ++ toString (n + 2) := by
  apply String.toList_inj.mp
  rw [toList_candidate_succ, String.toList_append,
    Nat.toString_eq_ofList_toDigits, String.toList_ofList]
  rfl

/-- From every candidate up to the first free one the search goes on to that
one. -/
theorem search_candidate {base : String} {taken : Set String} {n : Nat}
    (hfree : candidate base n ∉ taken)
    (hbelow : ∀ m < n, candidate base m ∈ taken) {m : Nat} (hm : m ≤ n) :
    Search base taken (candidate base m) (m + 2) (candidate base n) := by
  induction hm using Nat.decreasingInduction with
  | self => exact .stop hfree
  | of_succ m hlt ih =>
      rw [candidate_succ] at ih
      exact .next (hbelow m hlt) ih

theorem search_freeName (base : String) (taken : List String) :
    Search base {name | name ∈ taken} base 2 (freeName base taken) := by
  obtain ⟨n, -, hname, hfree, hbelow⟩ := freeName_spec base taken
  rw [hname]
  exact search_candidate hfree hbelow (Nat.zero_le n)

theorem freeName_of_not_mem {base : String} {taken : List String}
    (h : base ∉ taken) : freeName base taken = base := by
  obtain ⟨n, -, hname, -, hbelow⟩ := freeName_spec base taken
  cases n with
  | zero => exact hname
  | succ n => exact absurd (hbelow 0 n.succ_pos) h

theorem freeName_of_mem {base : String} {taken : List String}
    (h : base ∈ taken) :
    ∃ n, IsLeast (freeNumbers base {name | name ∈ taken}) n ∧
      n ≤ taken.length + 1 ∧
      freeName base taken = base ++ toString n := by
  obtain ⟨n, hle, hname, hfree, hbelow⟩ := freeName_spec base taken
  cases n with
  | zero => exact absurd h hfree
  | succ n =>
      -- Candidates are counted from zero and have their numbers from two on.
      rw [candidate_succ] at hname hfree
      refine ⟨n + 2, ⟨⟨by omega, hfree⟩, ?_⟩, by omega, hname⟩
      rintro m ⟨hm, hmfree⟩
      obtain ⟨k, rfl⟩ := Nat.exists_eq_add_of_le' hm
      refine Decidable.byContradiction fun hlt => hmfree ?_
      rw [← candidate_succ]
      exact hbelow (k + 1) (by omega)

/-! ## What a name is made of -/

theorem isNameChar_eq (c : Char) : isNameChar c = c.isAlphanum := by
  have hdigit : c.isDigit = isDigit c := rfl
  have hupper : c.isUpper = (decide ('A' ≤ c) && decide (c ≤ 'Z')) :=
    Bool.decide_and _ _
  have hlower : c.isLower = (decide ('a' ≤ c) && decide (c ≤ 'z')) := rfl
  calc isNameChar c = (c.isDigit || c.isUpper || c.isLower) := by
        rw [hdigit, hupper, hlower, isNameChar]
    _ = (c.isUpper || c.isLower || c.isDigit) := by
      rw [Bool.or_assoc, Bool.or_comm]
    _ = c.isAlphanum := rfl

/-- The base of a field is what its name has of letters and digits, if it has
any. -/
theorem baseName_eq (field : String) :
    (field.toList.filter Char.isAlphanum ≠ [] ∧
        (baseName field).toList = field.toList.filter Char.isAlphanum) ∨
      (field.toList.filter Char.isAlphanum = [] ∧
        baseName field = "field") := by
  have hfilter :
      field.toList.filter isNameChar = field.toList.filter Char.isAlphanum :=
    List.filter_congr fun c _ => isNameChar_eq c
  unfold baseName
  simp only [hfilter]
  split
  · next h => exact .inr ⟨List.isEmpty_iff.mp h, rfl⟩
  · next h =>
      exact .inl ⟨fun heq => h (List.isEmpty_iff.mpr heq), String.toList_ofList⟩

theorem baseName_ne_empty (field : String) : baseName field ≠ "" := by
  intro h
  rcases baseName_eq field with ⟨hkept, heq⟩ | ⟨-, heq⟩
  · exact hkept (heq.symm.trans (congrArg String.toList h))
  · exact absurd (heq.symm.trans h) (by decide)

theorem freeName_ne_empty {base : String} (h : base ≠ "")
    (taken : List String) : freeName base taken ≠ "" := by
  by_cases hbase : base ∈ taken
  · obtain ⟨n, -, -, hname⟩ := freeName_of_mem hbase
    rw [hname]
    exact fun heq => h (String.append_eq_empty_iff.mp heq).1
  · rwa [freeName_of_not_mem hbase]

/-! ## The fields one after the other -/

theorem assign_append (taken before behind : List String) :
    assign taken (before ++ behind) =
      assign taken before ++
        assign (((assign taken before).map (·.2.name)).reverse ++ taken)
          behind := by
  induction before generalizing taken with
  | nil => rfl
  | cons field rest ih =>
      simp only [List.cons_append, assign, ih, List.map_cons, List.reverse_cons,
        List.append_assoc, List.nil_append]

end Variable

theorem distinct_append (as bs : List String) :
    distinct (as ++ bs) = distinct as ++ (distinct bs).filter fun b =>
      b ∉ as := by
  induction as with
  | nil => simp [distinct]
  | cons a rest ih =>
      simp only [List.cons_append, distinct, ih, List.filter_append,
        List.filter_filter]
      congr 3
      funext b
      simp

theorem distinct_sublist (as : List String) : (distinct as).Sublist as := by
  induction as with
  | nil => exact List.Sublist.slnil
  | cons a rest ih => exact (List.filter_sublist.trans ih).cons_cons a

namespace Template

open Variable

/-- The fields of the text layers in declaration order, each as often as it is
declared. -/
def declared (t : Template) : List String :=
  t.textLayers.map fun (key, text) => text.field key

/-- The name of the variable of a field. -/
def name? (t : Template) (field : String) : Option String :=
  (t.variables.get? field).map Variable.name

/-- The names of the variables of fields. -/
def namesOf (t : Template) (fields : List String) : Set String :=
  {name | ∃ field ∈ fields, t.name? field = some name}

/-- The field has the name by a number behind its base. -/
def Numbered (t : Template) (field name : String) : Prop :=
  t.name? field = some name ∧ ∃ n ≥ 2, name = baseName field ++ toString n

variable {t : Template} {before behind : List String} {field name : String}

theorem get?_variables {v : Variable} :
    t.variables.get? field = some v ↔ (field, v) ∈ assign [] t.fields := by
  refine ⟨Table.mem_of_get?_ofList, Table.get?_ofList_of_mem ?_⟩
  rw [map_fst_assign]
  exact nodup_distinct _

theorem name?_of_mem_assign {e : String × Variable}
    (h : e ∈ assign [] t.fields) : t.name? e.1 = some e.2.name := by
  rw [name?, get?_variables.mpr h, Option.map_some]

theorem mem_fields : field ∈ t.fields ↔ field ∈ t.declared := mem_distinct

theorem exists_variable_iff :
    (∃ v, t.variables.get? field = some v) ↔ field ∈ t.declared := by
  rw [← mem_fields]
  refine ⟨?_, variables_isSome⟩
  rintro ⟨v, hv⟩
  have hmem := List.mem_map_of_mem (f := Prod.fst) (get?_variables.mp hv)
  rwa [map_fst_assign] at hmem

/-- The fields in front have taken the names that they have in the end. -/
theorem taken_eq_namesOf (h : t.fields = before ++ behind) :
    {name | name ∈ (assign [] before).map (·.2.name)} = t.namesOf before := by
  have hname : ∀ e ∈ assign [] before, t.name? e.1 = some e.2.name := by
    intro e he
    apply name?_of_mem_assign
    rw [h, assign_append]
    exact List.mem_append_left _ he
  ext name
  simp only [Set.mem_ofPred_eq, List.mem_map, namesOf]
  constructor
  · rintro ⟨e, he, rfl⟩
    have hmem := List.mem_map_of_mem (f := Prod.fst) he
    rw [map_fst_assign] at hmem
    exact ⟨e.1, hmem, hname e he⟩
  · rintro ⟨other, hother, hsome⟩
    rw [← map_fst_assign [] before] at hother
    obtain ⟨e, he, rfl⟩ := List.mem_map.mp hother
    exact ⟨e, he, Option.some.inj ((hname e he).symm.trans hsome)⟩

theorem fields_of_declared (h : t.declared = before ++ field :: behind)
    (hnew : field ∉ before) :
    ∃ rest, t.fields = distinct before ++ field :: rest := by
  have hfields : t.fields = distinct (before ++ field :: behind) :=
    congrArg distinct h
  rw [distinct_append, distinct, List.filter_cons_of_pos (by simpa using hnew)]
    at hfields
  exact ⟨_, hfields⟩

/-- The names that are taken when the turn of a field comes are those of the
fields declared before, and its own is what is found then. -/
theorem exists_taken (h : t.declared = before ++ field :: behind)
    (hnew : field ∉ before) :
    ∃ taken : List String, {name | name ∈ taken} = t.namesOf before ∧
      taken.length ≤ before.length ∧
      t.name? field = some (freeName (baseName field) taken) := by
  obtain ⟨rest, hfields⟩ := fields_of_declared h hnew
  refine ⟨((assign [] (distinct before)).map (·.2.name)).reverse, ?names,
    ?length, ?name⟩
  case names =>
    have hnames := taken_eq_namesOf hfields
    simp only [namesOf, mem_distinct] at hnames
    simp only [List.mem_reverse]
    exact hnames
  case length =>
    have hlength := congrArg List.length (map_fst_assign [] (distinct before))
    rw [List.length_map] at hlength
    rw [List.length_reverse, List.length_map, hlength]
    exact (distinct_sublist before).length_le
  case name =>
    refine name?_of_mem_assign (e := (field, ⟨_⟩)) ?_
    rw [hfields, assign_append, List.append_nil]
    exact List.mem_append_right _ List.mem_cons_self

/-- Every field that has a name has had its turn, where it was first
declared. -/
theorem exists_turn (h : t.name? field = some name) :
    ∃ before behind, t.declared = before ++ field :: behind ∧
      field ∉ before := by
  obtain ⟨v, hv, -⟩ := Option.map_eq_some_iff.mp h
  exact List.eq_append_cons_of_mem (exists_variable_iff.mp ⟨v, hv⟩)

/-! ## How a field comes to its name -/

section

variable (h : t.declared = before ++ field :: behind) (hnew : field ∉ before)
include h hnew

theorem name?_of_not_mem (hfree : baseName field ∉ t.namesOf before) :
    t.name? field = some (baseName field) := by
  obtain ⟨taken, htaken, -, hname⟩ := exists_taken h hnew
  rw [← htaken] at hfree
  rw [hname, freeName_of_not_mem hfree]

theorem name?_of_mem (hbase : baseName field ∈ t.namesOf before) :
    ∃ n, IsLeast (freeNumbers (baseName field) (t.namesOf before)) n ∧
      n ≤ before.length + 1 ∧
      t.name? field = some (baseName field ++ toString n) := by
  obtain ⟨taken, htaken, hlength, hname⟩ := exists_taken h hnew
  rw [← htaken] at hbase ⊢
  obtain ⟨n, hleast, hle, hnumber⟩ := freeName_of_mem hbase
  exact ⟨n, hleast, by omega, hnumber ▸ hname⟩

theorem search_name? :
    ∃ name, Search (baseName field) (t.namesOf before) (baseName field) 2 name ∧
      t.name? field = some name := by
  obtain ⟨taken, htaken, -, hname⟩ := exists_taken h hnew
  exact ⟨_, htaken ▸ search_freeName (baseName field) taken, hname⟩

end

theorem name?_injective {other : String} (h : t.name? field = some name)
    (ho : t.name? other = some name) : field = other := by
  obtain ⟨⟨_⟩, hv, rfl⟩ := Option.map_eq_some_iff.mp h
  obtain ⟨⟨_⟩, hw, rfl⟩ := Option.map_eq_some_iff.mp ho
  exact variables_injective hv hw

theorem name?_ne_empty (h : t.name? field = some name) : name ≠ "" := by
  obtain ⟨before, behind, hsplit, hnew⟩ := exists_turn h
  obtain ⟨taken, -, -, hname⟩ := exists_taken hsplit hnew
  obtain rfl := Option.some.inj (hname.symm.trans h)
  exact freeName_ne_empty (baseName_ne_empty field) taken

/-- A name that is not the base of its field is the base with a number. -/
theorem numbered_of_ne (hname : t.name? field = some name)
    (hne : name ≠ baseName field) : t.Numbered field name := by
  obtain ⟨before, behind, h, hnew⟩ := exists_turn hname
  refine ⟨hname, ?_⟩
  by_cases hbase : baseName field ∈ t.namesOf before
  · obtain ⟨n, hn, -, hnumber⟩ := name?_of_mem h hnew hbase
    exact ⟨n, hn.1.1, Option.some.inj (hname.symm.trans hnumber)⟩
  · exact absurd (Option.some.inj
      (hname.symm.trans (name?_of_not_mem h hnew hbase))) hne

/-- Once a field has had its turn its base is taken, by the field itself if by
none before it. -/
theorem baseName_mem_namesOf (h : t.declared = before ++ behind)
    (hfield : field ∈ before) : baseName field ∈ t.namesOf before := by
  obtain ⟨front, rest, rfl, hnew⟩ := List.eq_append_cons_of_mem hfield
  rw [List.append_assoc, List.cons_append] at h
  by_cases hbase : baseName field ∈ t.namesOf front
  · obtain ⟨other, hother, hname⟩ := hbase
    exact ⟨other, List.mem_append_left _ hother, hname⟩
  · exact ⟨field, hfield, name?_of_not_mem h hnew hbase⟩

/-- How a field comes to its name, with the fields that are declared before
it. -/
structure NamedAfter (t : Template) (before : List String) (field : String) :
    Prop where
  /-- The search for a name ends, and it ends with the one that the field
  has. -/
  ends : ∃ name, Search (baseName field) (t.namesOf before)
    (baseName field) 2 name ∧
    t.name? field = some name
  /-- The first field with its base has the base itself, unless an earlier one
  was given that name by a number. -/
  first : (∀ other ∈ before, baseName other ≠ baseName field) →
    (t.name? field = some (baseName field) ↔
      ∀ other ∈ before, ¬ t.Numbered other (baseName field))
  /-- Every other has the base with the smallest number from two on that makes a
  name no earlier field has; no number is needed beyond one more than there are
  fields before. -/
  later : (∃ other ∈ before, baseName other = baseName field ∨
      t.Numbered other (baseName field)) →
    ∃ n, IsLeast (freeNumbers (baseName field) (t.namesOf before)) n ∧
      n ≤ before.length + 1 ∧
      t.name? field = some (baseName field ++ toString n)

theorem namedAfter (h : t.declared = before ++ field :: behind)
    (hnew : field ∉ before) : t.NamedAfter before field where
  ends := search_name? h hnew
  first := by
    intro hfirst
    constructor
    · rintro hname other hother ⟨hsame, -⟩
      exact hnew (name?_injective hname hsame ▸ hother)
    · intro hnone
      refine name?_of_not_mem h hnew ?_
      rintro ⟨other, hother, hname⟩
      exact hnone other hother (numbered_of_ne hname (hfirst other hother).symm)
  later := by
    rintro ⟨other, hother, hsame | hnumbered⟩
    · exact name?_of_mem h hnew (hsame ▸ baseName_mem_namesOf h hother)
    · exact name?_of_mem h hnew ⟨other, hother, hnumbered.1⟩

/-! ## Layers at the end -/

/-- A template with more layers at the end. -/
def extended (t : Template) (more : List Layer) : Template :=
  { t with layers := t.layers ++ more }

theorem get?_variables_extended (more : List Layer) {v : Variable}
    (h : t.variables.get? field = some v) :
    (t.extended more).variables.get? field = some v := by
  have hdeclared : (t.extended more).declared =
      t.declared ++ (t.extended more).declared.drop t.declared.length := by
    simp [declared, textLayers, extended]
  have hfields : (t.extended more).fields = t.fields ++ _ :=
    (congrArg distinct hdeclared).trans (distinct_append _ _)
  -- The longer run of the assignment begins as the shorter one does.
  rw [get?_variables] at h ⊢
  rw [hfields, assign_append]
  exact List.mem_append_left _ h

/-! ## The whole -/

/-- What the variables of a template are called. -/
structure NamedInTurn (t : Template) : Prop where
  /-- Every field of a text layer has one variable. -/
  one : ∀ field ∈ t.declared, ∃! v, (field, v) ∈ t.variables.entries
  /-- Nothing else has a variable. -/
  only : ∀ e ∈ t.variables.entries, e.1 ∈ t.declared
  different : ∀ field other name, t.name? field = some name →
    t.name? other = some name →
    field = other
  alphanumeric : ∀ field name, t.name? field = some name →
    name ≠ "" ∧ ∀ c ∈ name.toList, c.isAlphanum = true
  /-- What a field's name has of ASCII letters and digits is its base. -/
  base : ∀ field : String,
    (field.toList.filter Char.isAlphanum ≠ [] ∧
        (baseName field).toList = field.toList.filter Char.isAlphanum) ∨
      (field.toList.filter Char.isAlphanum = [] ∧ baseName field = "field")
  /-- Where a field is declared for the first time, it is named after those
  before it. -/
  after : ∀ before field behind, t.declared = before ++ field :: behind →
    field ∉ before →
    t.NamedAfter before field
  /-- Layers that are added at the end leave every name as it is. -/
  kept : ∀ more, ∀ field ∈ t.declared,
    (t.extended more).name? field = t.name? field

/-- In every template the names of variables are unique and given in declaration
order. -/
theorem variables_inTurn (t : Template) : t.NamedInTurn where
  one := by
    intro field hfield
    obtain ⟨v, hv⟩ := exists_variable_iff.mpr hfield
    refine ⟨v, Table.mem_of_lookup hv, fun w hw => ?_⟩
    exact Option.some.inj
      ((Table.lookup_of_mem t.variables.nodup_keys hw).symm.trans hv)
  only := by
    rintro ⟨field, v⟩ he
    exact exists_variable_iff.mp
      ⟨v, Table.lookup_of_mem t.variables.nodup_keys he⟩
  different := fun _ _ _ => name?_injective
  alphanumeric := by
    intro field name hname
    refine ⟨name?_ne_empty hname, fun c hc => ?_⟩
    obtain ⟨v, hv, rfl⟩ := Option.map_eq_some_iff.mp hname
    rw [← isNameChar_eq]
    exact named_variable hv c hc
  base := baseName_eq
  after := fun _ _ _ => namedAfter
  kept := by
    intro more field hfield
    obtain ⟨v, hv⟩ := exists_variable_iff.mpr hfield
    rw [name?, name?, get?_variables_extended more hv, hv]

/-- The second of two prices gets the name that is the base of a third field,
which then gets a number as well. -/
example :
    let t := { ofCanvas "tag" 500 500 with
      layers := ["price", "price!", "price2"].map fun field =>
        ⟨field, .text (TextLayer.ofField field (.px 32))⟩ }
    t.declared.map t.name? = [some "price", some "price2", some "price22"] := by
  decide +kernel

end Template

end Placard
