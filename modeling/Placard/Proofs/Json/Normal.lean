import Mathlib.Data.List.Nodup
import Placard.Proofs.Json.ReadBack

/-!
# Normal forms

Putting the members of a value in order neither adds to it nor takes anything
from it but members that a later one of the same name covers. So the canonical
text of a value is read wherever its text is, and as the same value: its normal
form, which is its own normal form.
-/

namespace Placard

namespace Table

variable {α : Type}

theorem mem_of_mem_ofList {es : List (String × α)} {e : String × α}
    (h : e ∈ (ofList es).entries) : e ∈ es :=
  mem_of_get?_ofList (lookup_of_mem (ofList es).nodup_keys h)

/-- Entries of which no two have one key only change their places. -/
theorem perm_ofList {es : List (String × α)} (hn : (es.map (·.1)).Nodup) :
    (ofList es).entries.Perm es := by
  refine (List.perm_ext_iff_of_nodup
    (List.Nodup.of_map _ (ofList es).nodup_keys)
    (List.Nodup.of_map _ hn)).mpr fun e => ?_
  exact ⟨mem_of_mem_ofList, fun h => mem_of_lookup (get?_ofList_of_mem hn h)⟩

/-- The entries of a table make that table, in whatever order. -/
theorem ofList_of_perm {es : List (String × α)} {t : Table α}
    (h : t.entries.Perm es) : ofList es = t := by
  ext1 k
  cases hk : t.get? k with
  | some v =>
      exact get?_ofList_of_mem ((h.map Prod.fst).nodup_iff.mp t.nodup_keys)
        (h.mem_iff.mp (mem_of_lookup hk))
  | none =>
      cases hk' : (ofList es).get? k with
      | none => rfl
      | some v =>
          have hv : t.get? k = some v :=
            lookup_of_mem t.nodup_keys (h.mem_iff.mpr (mem_of_get?_ofList hk'))
          rw [hk] at hv
          cases hv

end Table

namespace Json

/-! ## Parts of a value -/

/-- What holds of an array if it holds of its elements, of an object if it holds
of its values, and of all other values, holds of every value. -/
@[elab_as_elim] theorem induct {P : Json → Prop} (null : P .null)
    (bool : ∀ b, P (.bool b)) (number : ∀ n, P (.number n))
    (string : ∀ s, P (.string s))
    (array : ∀ vs : List Json, (∀ v ∈ vs, P v) → P (.array vs))
    (object : ∀ ms : List (String × Json), (∀ m ∈ ms, P m.2) → P (.object ms))
    (v : Json) : P v :=
  Json.rec (motive_1 := P) (motive_2 := fun vs => ∀ v ∈ vs, P v)
    (motive_3 := fun ms => ∀ m ∈ ms, P m.2) (motive_4 := fun m => P m.2)
    null bool number string array object (List.forall_mem_nil _)
    (fun _ _ h hs => List.forall_mem_cons.mpr ⟨h, hs⟩) (List.forall_mem_nil _)
    (fun _ _ h hs => List.forall_mem_cons.mpr ⟨h, hs⟩) (fun _ _ h => h) v

theorem normalElements_eq_map (vs : List Json) :
    normalElements vs = vs.map normal := by
  induction vs with
  | nil => rfl
  | cons v vs ih => rw [normalElements, ih, List.map_cons]

theorem normalMembers_eq_map (ms : List (String × Json)) :
    normalMembers ms = ms.map fun m => (m.1, m.2.normal) := by
  induction ms with
  | nil => rfl
  | cons m ms ih => rw [normalMembers, ih, List.map_cons]

theorem names_normalMembers (ms : List (String × Json)) :
    (normalMembers ms).map (·.1) = ms.map (·.1) := by
  rw [normalMembers_eq_map, List.map_map]
  rfl

theorem mem_numbersOfElements {n : Number} {vs : List Json} :
    n ∈ numbersOfElements vs ↔ ∃ v ∈ vs, n ∈ v.numbers := by
  induction vs with
  | nil => simp [numbersOfElements]
  | cons v vs ih =>
      rw [numbersOfElements, List.mem_append, ih]
      simp only [List.mem_cons, exists_eq_or_imp]

theorem mem_numbersOfMembers {n : Number} {ms : List (String × Json)} :
    n ∈ numbersOfMembers ms ↔ ∃ m ∈ ms, n ∈ m.2.numbers := by
  induction ms with
  | nil => simp [numbersOfMembers]
  | cons m ms ih =>
      rw [numbersOfMembers, List.mem_append, ih]
      simp only [List.mem_cons, exists_eq_or_imp]

theorem depthOfElements_le {d : Nat} {vs : List Json} :
    depthOfElements vs ≤ d ↔ ∀ v ∈ vs, v.depth ≤ d := by
  induction vs with
  | nil => simp [depthOfElements]
  | cons v vs ih => rw [depthOfElements, Nat.max_le, ih, List.forall_mem_cons]

theorem depthOfMembers_le {d : Nat} {ms : List (String × Json)} :
    depthOfMembers ms ≤ d ↔ ∀ m ∈ ms, m.2.depth ≤ d := by
  induction ms with
  | nil => simp [depthOfMembers]
  | cons m ms ih => rw [depthOfMembers, Nat.max_le, ih, List.forall_mem_cons]

/-- Every number in the value is read back, and arrays and objects are nested no
deeper than so many times. -/
structure Faithful (levels : Nat) (v : Json) : Prop where
  readsBack : ∀ n ∈ v.numbers, n.ReadsBack
  depth : v.depth ≤ levels

section Faithful

variable {levels : Nat}

theorem Faithful.mono {v : Json} (h : v.Faithful levels) {levels' : Nat}
    (hle : levels ≤ levels') : v.Faithful levels' where
  readsBack := h.readsBack
  depth := Nat.le_trans h.depth hle

@[simp] theorem faithful_null : Faithful levels .null := ⟨nofun, Nat.zero_le _⟩

@[simp] theorem faithful_bool (b : Bool) :
    Faithful levels (.bool b) := ⟨nofun, Nat.zero_le _⟩

@[simp] theorem faithful_string (t : String) :
    Faithful levels (.string t) := ⟨nofun, Nat.zero_le _⟩

@[simp] theorem faithful_number {n : Number} :
    Faithful levels (.number n) ↔ n.ReadsBack where
  mp h := h.readsBack n List.mem_cons_self
  mpr h := ⟨fun _ hn => List.mem_singleton.mp hn ▸ h, Nat.zero_le _⟩

@[simp] theorem faithful_array {vs : List Json} :
    Faithful (levels + 1) (.array vs) ↔ ∀ v ∈ vs, v.Faithful levels where
  mp h v hv :=
    ⟨fun n hn => h.readsBack n (mem_numbersOfElements.mpr ⟨v, hv, hn⟩),
      depthOfElements_le.mp (Nat.succ_le_succ_iff.mp h.depth) v hv⟩
  mpr h := by
    refine ⟨fun n hn => ?_,
      Nat.succ_le_succ (depthOfElements_le.mpr fun v hv => (h v hv).depth)⟩
    obtain ⟨v, hv, hn⟩ := mem_numbersOfElements.mp hn
    exact (h v hv).readsBack n hn

@[simp] theorem faithful_object {ms : List (String × Json)} :
    Faithful (levels + 1) (.object ms) ↔ ∀ m ∈ ms, m.2.Faithful levels where
  mp h m hm :=
    ⟨fun n hn => h.readsBack n (mem_numbersOfMembers.mpr ⟨m, hm, hn⟩),
      depthOfMembers_le.mp (Nat.succ_le_succ_iff.mp h.depth) m hm⟩
  mpr h := by
    refine ⟨fun n hn => ?_,
      Nat.succ_le_succ (depthOfMembers_le.mpr fun m hm => (h m hm).depth)⟩
    obtain ⟨m, hm, hn⟩ := mem_numbersOfMembers.mp hn
    exact (h m hm).readsBack n hn

@[simp] theorem faithful_optional {α : Type} {f : α → Json} {a? : Option α} :
    Faithful levels (.optional f a?) ↔ ∀ a ∈ a?, (f a).Faithful levels := by
  cases a? with
  | none => simp [optional]
  | some a => simp [optional]

@[simp] theorem faithful_ofTable {α : Type} {f : α → Json} {t : Table α} :
    Faithful (levels + 1) (.ofTable f t) ↔
      ∀ e ∈ t.entries, (f e.2).Faithful levels := by
  rw [ofTable, faithful_object, List.forall_mem_map]

end Faithful

/-! ## What a normal form keeps -/

/-- The members of a normal form are those of the value. -/
theorem exists_of_mem_normal {ms : List (String × Json)} {m : String × Json}
    (h : m ∈ (Table.ofList (normalMembers ms)).entries) :
    ∃ m' ∈ ms, m = (m'.1, m'.2.normal) := by
  have hm := Table.mem_of_mem_ofList h
  rw [normalMembers_eq_map] at hm
  obtain ⟨m', hm', rfl⟩ := List.mem_map.mp hm
  exact ⟨m', hm', rfl⟩

theorem mem_numbers_of_normal {n : Number} (v : Json)
    (h : n ∈ v.normal.numbers) : n ∈ v.numbers := by
  induction v using induct with
  | null => exact h
  | bool _ => exact h
  | number _ => exact h
  | string _ => exact h
  | array vs ih =>
      rw [normal, normalElements_eq_map] at h
      obtain ⟨w, hw, hn⟩ := mem_numbersOfElements.mp h
      obtain ⟨v, hv, rfl⟩ := List.mem_map.mp hw
      exact mem_numbersOfElements.mpr ⟨v, hv, ih v hv hn⟩
  | object ms ih =>
      obtain ⟨m, hm, hn⟩ := mem_numbersOfMembers.mp h
      obtain ⟨m', hm', rfl⟩ := exists_of_mem_normal hm
      exact mem_numbersOfMembers.mpr ⟨m', hm', ih m' hm' hn⟩

theorem depth_normal_le (v : Json) : v.normal.depth ≤ v.depth := by
  induction v using induct with
  | null => exact Nat.le_refl _
  | bool _ => exact Nat.le_refl _
  | number _ => exact Nat.le_refl _
  | string _ => exact Nat.le_refl _
  | array vs ih =>
      rw [normal, normalElements_eq_map]
      refine Nat.succ_le_succ
        (depthOfElements_le.mpr (List.forall_mem_map.mpr fun v hv => ?_))
      exact Nat.le_trans (ih v hv) (depthOfElements_le.mp (Nat.le_refl _) v hv)
  | object ms ih =>
      refine Nat.succ_le_succ (depthOfMembers_le.mpr fun m hm => ?_)
      obtain ⟨m', hm', rfl⟩ := exists_of_mem_normal hm
      exact Nat.le_trans (ih m' hm')
        (depthOfMembers_le.mp (Nat.le_refl _) m' hm')

/-! ## The names in a value -/

mutual

/-- The names of the members of every object in a value, in the order of its
text. -/
def namings : Json → List (List String)
  | .array elements => namingsOfElements elements
  | .object members => members.map (·.1) :: namingsOfMembers members
  | _ => []

/-- The names in every object of the elements. -/
def namingsOfElements : List Json → List (List String)
  | [] => []
  | v :: rest => namings v ++ namingsOfElements rest

/-- The names in every object of the members. -/
def namingsOfMembers : List (String × Json) → List (List String)
  | [] => []
  | (_, v) :: rest => namings v ++ namingsOfMembers rest

end

/-- Something holds of the names of every object in a value, at any depth. -/
def EachObject (P : List String → Prop) (v : Json) : Prop :=
  ∀ names ∈ v.namings, P names

instance (P : List String → Prop) [DecidablePred P] (v : Json) :
    Decidable (v.EachObject P) :=
  List.decidableBAll P v.namings

section EachObject

variable {P : List String → Prop}

theorem eachObject_array {vs : List Json} :
    (Json.array vs).EachObject P ↔ ∀ v ∈ vs, v.EachObject P := by
  rw [EachObject, namings]
  induction vs with
  | nil => simp [namingsOfElements]
  | cons v vs ih =>
      rw [namingsOfElements, List.forall_mem_append, ih, List.forall_mem_cons,
        EachObject]

theorem eachObject_object {ms : List (String × Json)} :
    (Json.object ms).EachObject P ↔
      P (ms.map (·.1)) ∧ ∀ m ∈ ms, m.2.EachObject P := by
  have hmembers : (∀ names ∈ namingsOfMembers ms, P names) ↔
      ∀ m ∈ ms, m.2.EachObject P := by
    induction ms with
    | nil => simp [namingsOfMembers]
    | cons m ms ih =>
        rw [namingsOfMembers, List.forall_mem_append, ih, List.forall_mem_cons,
          EachObject]
  rw [EachObject, namings, List.forall_mem_cons, hmembers]

end EachObject

/-! ## The order of the names -/

/-- In a normal form the names of every object ascend. -/
theorem ascending_normal (v : Json) :
    v.normal.EachObject (List.Pairwise (· < ·)) := by
  induction v using induct with
  | null => nofun
  | bool _ => nofun
  | number _ => nofun
  | string _ => nofun
  | array vs ih =>
      rw [normal, normalElements_eq_map, eachObject_array, List.forall_mem_map]
      exact ih
  | object ms ih =>
      rw [normal, eachObject_object, List.pairwise_map]
      refine ⟨(Table.ofList (normalMembers ms)).ascending, fun m hm => ?_⟩
      obtain ⟨m', hm', rfl⟩ := exists_of_mem_normal hm
      exact ih m' hm'

/-- A value in which the names of every object ascend is its own normal form. -/
theorem normal_eq_self {v : Json} (h : v.EachObject (List.Pairwise (· < ·))) :
    v.normal = v := by
  induction v using induct with
  | null => rfl
  | bool _ => rfl
  | number _ => rfl
  | string _ => rfl
  | array vs ih =>
      rw [normal, normalElements_eq_map,
        List.map_congr_left fun v hv => ih v hv (eachObject_array.mp h v hv),
        List.map_id']
  | object ms ih =>
      obtain ⟨hnames, hms⟩ := eachObject_object.mp h
      have hsame : normalMembers ms = ms := by
        rw [normalMembers_eq_map]
        refine (List.map_congr_left fun m hm => ?_).trans (List.map_id _)
        exact Prod.ext rfl (ih m hm (hms m hm))
      have htable : Table.ofList ms = ⟨ms, List.pairwise_map.mp hnames⟩ :=
        Table.ofList_of_perm (List.Perm.refl _)
      rw [normal, hsame, htable]

/-- A normal form is its own normal form. -/
theorem normal_normal (v : Json) : v.normal.normal = v.normal :=
  normal_eq_self (ascending_normal v)

/-! ## Texts -/

/-- The canonical text of a value is read as its normal form. -/
theorem ofText?_canonical {v : Json} (h : v.Faithful maxDepth) :
    ofText? (canonical v) = some v.normal := by
  rw [canonical, ofText?_compact
    (fun n hn => h.readsBack n (mem_numbers_of_normal v hn))
    (Nat.le_trans (depth_normal_le v) h.depth), normal_normal]

end Json

end Placard
