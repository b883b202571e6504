import Placard.Proofs.Json.Unambiguous
import Placard.Proofs.Text.ByteOrder

/-!
# The order of members

Putting the members of a value in order only changes their places, at every
depth, as no two members of an object have one name. So every value is reordered
to its normal form, in which the names of every object ascend by their bytes.
Values that are reordered to one another have one normal form, hold the same
numbers, and are nested as deep.
-/

namespace Placard.Json

open Text

/-! ## Reordering -/

/-- Two values are the same up to the order of the members of objects: those of
one object somewhere in the value, and of another, change their places. -/
inductive Reordered : Json → Json → Prop where
  | refl (v : Json) : Reordered v v
  | members {ms ns : List (String × Json)} (h : ms.Perm ns) :
      Reordered (.object ms) (.object ns)
  | element {v w : Json} (before after : List Json) (h : Reordered v w) :
      Reordered (.array (before ++ v :: after)) (.array (before ++ w :: after))
  | member {v w : Json} (before after : List (String × Json)) (k : String)
      (h : Reordered v w) :
      Reordered (.object (before ++ (k, v) :: after))
        (.object (before ++ (k, w) :: after))
  | trans {u v w : Json} (h : Reordered u v) (h' : Reordered v w) :
      Reordered u w

namespace Reordered

theorem symm {v w : Json} (h : Reordered v w) : Reordered w v := by
  induction h with
  | refl v => exact refl v
  | members h => exact members h.symm
  | element before after _ ih => exact element before after ih
  | member before after k _ ih => exact member before after k ih
  | trans _ _ ih ih' => exact trans ih' ih

/-- An array is reordered where its elements are. -/
theorem elements {f : Json → Json} {vs : List Json}
    (h : ∀ v ∈ vs, Reordered v (f v)) :
    Reordered (.array vs) (.array (vs.map f)) := by
  -- the elements in front have been reordered already
  have hrest (before : List Json) :
      Reordered (.array (before ++ vs)) (.array (before ++ vs.map f)) := by
    induction vs generalizing before with
    | nil => exact refl _
    | cons v vs ih =>
        obtain ⟨hv, hvs⟩ := List.forall_mem_cons.mp h
        have hstep := ih hvs (before ++ [f v])
        rw [List.append_assoc, List.append_assoc] at hstep
        exact (element before vs hv).trans hstep
  exact hrest []

/-- An object is reordered where the values of its members are. -/
theorem values {f : Json → Json} {ms : List (String × Json)}
    (h : ∀ m ∈ ms, Reordered m.2 (f m.2)) :
    Reordered (.object ms) (.object (ms.map fun m => (m.1, f m.2))) := by
  have hrest (before : List (String × Json)) :
      Reordered (.object (before ++ ms))
        (.object (before ++ ms.map fun m => (m.1, f m.2))) := by
    induction ms generalizing before with
    | nil => exact refl _
    | cons m ms ih =>
        obtain ⟨hm, hms⟩ := List.forall_mem_cons.mp h
        have hstep := ih hms (before ++ [(m.1, f m.2)])
        rw [List.append_assoc, List.append_assoc] at hstep
        exact (member before ms m.1 hm).trans hstep
  exact hrest []

end Reordered

/-- A value is reordered to its normal form. -/
theorem reordered_normal {v : Json} (h : v.EachObject List.Nodup) :
    Reordered v v.normal := by
  induction v using induct with
  | null => exact .refl _
  | bool _ => exact .refl _
  | number _ => exact .refl _
  | string _ => exact .refl _
  | array vs ih =>
      rw [normal, normalElements_eq_map]
      exact .elements fun v hv => ih v hv (eachObject_array.mp h v hv)
  | object ms ih =>
      obtain ⟨hnames, hms⟩ := eachObject_object.mp h
      have hvalues : Reordered (.object ms) (.object (normalMembers ms)) := by
        rw [normalMembers_eq_map]
        exact .values fun m hm => ih m hm (hms m hm)
      exact hvalues.trans
        (.members (Table.perm_ofList (names_normalMembers ms ▸ hnames)).symm)

/-- What is reordered has the names it had, and its normal form. -/
theorem Reordered.normal_eq {v w : Json} (h : Reordered v w)
    (hv : v.EachObject List.Nodup) :
    w.EachObject List.Nodup ∧ v.normal = w.normal := by
  induction h with
  | refl v => exact ⟨hv, rfl⟩
  | @members ms ns hperm =>
      obtain ⟨hnames, hms⟩ := eachObject_object.mp hv
      have hnames' : (ns.map (·.1)).Nodup := (hperm.map _).nodup_iff.mp hnames
      have hnormal :
          (Table.ofList (normalMembers ns)).entries.Perm
            (normalMembers ms) := by
        refine (Table.perm_ofList (names_normalMembers ns ▸ hnames')).trans ?_
        rw [normalMembers_eq_map, normalMembers_eq_map]
        exact (hperm.map _).symm
      refine ⟨eachObject_object.mpr
        ⟨hnames', fun m hm => hms m (hperm.mem_iff.mpr hm)⟩, ?_⟩
      rw [normal, normal, Table.ofList_of_perm hnormal]
  | @element v w before after _ ih =>
      have hvs := eachObject_array.mp hv
      simp only [List.forall_mem_append, List.forall_mem_cons] at hvs
      obtain ⟨hbefore, hv, hafter⟩ := hvs
      obtain ⟨hw, heq⟩ := ih hv
      constructor
      · rw [eachObject_array]
        simp only [List.forall_mem_append, List.forall_mem_cons]
        exact ⟨hbefore, hw, hafter⟩
      · simp only [normal, normalElements_eq_map, List.map_append,
          List.map_cons, heq]
  | @member v w before after k _ ih =>
      obtain ⟨hnames, hms⟩ := eachObject_object.mp hv
      simp only [List.forall_mem_append, List.forall_mem_cons] at hms
      obtain ⟨hbefore, hv, hafter⟩ := hms
      obtain ⟨hw, heq⟩ := ih hv
      constructor
      · rw [eachObject_object]
        simp only [List.map_append, List.map_cons, List.forall_mem_append,
          List.forall_mem_cons] at hnames ⊢
        exact ⟨hnames, hbefore, hw, hafter⟩
      · simp only [normal, normalMembers_eq_map, List.map_append, List.map_cons,
          heq]
  | trans _ _ ih ih' =>
      obtain ⟨hv', heq⟩ := ih hv
      obtain ⟨hw, heq'⟩ := ih' hv'
      exact ⟨hw, heq.trans heq'⟩

/-- What is reordered holds the numbers it held. -/
theorem Reordered.mem_numbers {v w : Json} (h : Reordered v w) {n : Number} :
    n ∈ v.numbers ↔ n ∈ w.numbers := by
  induction h with
  | refl v => exact Iff.rfl
  | members hperm =>
      show n ∈ numbersOfMembers _ ↔ n ∈ numbersOfMembers _
      simp only [mem_numbersOfMembers, hperm.mem_iff]
  | element before after _ ih =>
      show n ∈ numbersOfElements _ ↔ n ∈ numbersOfElements _
      simp only [mem_numbersOfElements, List.mem_append, List.mem_cons,
        or_and_right, exists_or, exists_eq_left, ih]
  | member before after k _ ih =>
      show n ∈ numbersOfMembers _ ↔ n ∈ numbersOfMembers _
      simp only [mem_numbersOfMembers, List.mem_append, List.mem_cons,
        or_and_right, exists_or, exists_eq_left, ih]
  | trans _ _ ih ih' => exact ih.trans ih'

theorem Reordered.depth_le {v w : Json} (h : Reordered v w) {levels : Nat} :
    v.depth ≤ levels ↔ w.depth ≤ levels := by
  have hpos (d levels : Nat) :
      d + 1 ≤ levels ↔ 0 < levels ∧ d ≤ levels - 1 := by omega
  induction h generalizing levels with
  | refl v => exact Iff.rfl
  | members hperm => simp only [depth, hpos, depthOfMembers_le, hperm.mem_iff]
  | element before after _ ih =>
      simp only [depth, hpos, depthOfElements_le, List.forall_mem_append,
        List.forall_mem_cons, ih]
  | member before after k _ ih =>
      simp only [depth, hpos, depthOfMembers_le, List.forall_mem_append,
        List.forall_mem_cons, ih]
  | trans _ _ ih ih' => exact ih.trans ih'

/-! ## The order of bytes -/

/-- The names ascend by their bytes as well. -/
theorem EachObject.bytes {v : Json} (h : v.EachObject (List.Pairwise (· < ·))) :
    v.EachObject (List.Pairwise fun k k' => bytes k < bytes k') :=
  fun names hnames => (h names hnames).imp bytes_lt

end Placard.Json
