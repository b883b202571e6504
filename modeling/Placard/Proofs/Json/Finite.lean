import Placard.Proofs.Decimal.Magnitude
import Placard.Proofs.Json.Holding
import Placard.Proofs.Json.Normal

/-!
# Only finite numbers are read

There is no text in JSON for an infinite number or for what is no number, and a
text that denotes more than any double is no value. So every number that is read
is finite as a double, wherever it stands, and it is so still when the source of
the text has become a value, that value its normal form, and the normal form a
source again.
-/

namespace Placard.Json

open Text Decimal

/-! ## Numbers -/

/-- The double of the number is finite. -/
def Number.Finite (n : Number) : Prop :=
  n.toFloat.isFinite = true

theorem fit_lt {n : Nat} (h : n < UInt64.size) (ds : List Char) :
    (fit n ds).1 < UInt64.size := by
  fun_induction fit n ds with
  | case1 => exact h
  | case2 _ _ _ _ hm ih => exact ih hm
  | case3 => exact h

theorem finite_integer (negative : Bool) {n : Nat} (h : n < 2 ^ 64) :
    (integer negative n).Finite := by
  have hint {z : Int} (hz : z.natAbs < 2 ^ 64) : (Number.int z).Finite :=
    isFinite_of_under (under_ofInt hz)
  unfold integer
  split
  · split
    · exact hint (by omega)
    · exact isFinite_of_under
        (under_float_neg (under_ofNat h) (by decide) (by decide))
  · exact hint h

theorem finite_of_number? {l : Literal} {n : Number} (h : l.number? = some n) :
    n.Finite := by
  have hwhole := fit_lt (by decide : 0 < UInt64.size) l.whole
  unfold Literal.number? at h
  generalize fit 0 l.whole = whole at h hwhole
  obtain ⟨m, beyond⟩ := whole
  dsimp only at h
  split at h
  · cases h
    exact finite_integer l.negative hwhole
  · have hdigits := fit_lt hwhole (l.fraction?.getD [])
    generalize fit m (l.fraction?.getD []) = digits at h hdigits
    obtain ⟨m', dropped⟩ := digits
    obtain ⟨x, hx, rfl⟩ := Option.map_eq_some_iff.mp h
    have hfinite := isFinite_of_scaled? (under_ofNat hdigits) hx
    split
    · exact isFinite_neg hfinite
    · exact hfinite

/-! ## Sources -/

namespace Source

mutual

/-- Every number in the source is finite. -/
def Finite : Source → Prop
  | .number n => n.Finite
  | .array elements _ => FiniteElements elements
  | .object members _ => FiniteMembers members
  | .null | .bool _ | .string _ | .unreadable => True

/-- Every number in the elements is finite. -/
def FiniteElements : List Source → Prop
  | [] => True
  | s :: rest => s.Finite ∧ FiniteElements rest

/-- Every number in the members is finite. -/
def FiniteMembers : List (Option String × Source) → Prop
  | [] => True
  | (_, s) :: rest => s.Finite ∧ FiniteMembers rest

end

theorem finite_array {ss : List Source} {behind? : Option (List Symbol)} :
    (array ss behind?).Finite ↔ ∀ s ∈ ss, s.Finite := by
  rw [Finite]
  induction ss with
  | nil => simp [FiniteElements]
  | cons s ss ih => rw [FiniteElements, ih, List.forall_mem_cons]

theorem finite_object {ms : List (Option String × Source)}
    {behind? : Option (List Symbol)} :
    (object ms behind?).Finite ↔ ∀ m ∈ ms, m.2.Finite := by
  rw [Finite]
  induction ms with
  | nil => simp [FiniteMembers]
  | cons m ms ih => rw [FiniteMembers, ih, List.forall_mem_cons]

theorem Finite.within {s : Source} (h : s.Finite) (depth : Nat) :
    (s.within depth).Finite := by
  unfold Source.within
  split
  · trivial
  · exact h

end Source

/-- A step of the reader gives finite numbers if the steps within it do. -/
theorem finite_of_steps (fuel : Nat) :
    (∀ depth s, (value fuel depth s).1.Finite) ∧
      (∀ depth s, ∀ v ∈ (elements fuel depth s).1, v.Finite) ∧
      ∀ depth s, ∀ m ∈ (members fuel depth s).1, m.2.Finite := by
  induction fuel with
  | zero =>
      exact ⟨fun _ _ => trivial, fun _ _ => List.forall_mem_nil _,
        fun _ _ => List.forall_mem_nil _⟩
  | succ fuel ih =>
      obtain ⟨hvalue, helements, hmembers⟩ := ih
      have hfirst {depth : Nat} {s : List Symbol} {v : Source}
          {rest? : Option (List Symbol)}
          (hv : value fuel depth s = (v, rest?)) : v.Finite := by
        have hfinite := hvalue depth s
        rw [hv] at hfinite
        exact hfinite
      refine ⟨fun depth s => ?_, fun depth s => ?_, fun depth s => ?_⟩
      · unfold value
        split
        · trivial
        · trivial
        · trivial
        · split <;> trivial
        · split
          · exact (Source.finite_array.mpr (List.forall_mem_nil _)).within depth
          · exact (Source.finite_array.mpr (helements _ _)).within depth
        · split
          · exact (Source.finite_object.mpr (List.forall_mem_nil _)).within
              depth
          · exact (Source.finite_object.mpr (hmembers _ _)).within depth
        · split
          · split
            · next hn => exact finite_of_number? hn
            · trivial
          · trivial
      · unfold elements
        split
        · next hv => exact List.forall_mem_singleton.mpr (hfirst hv)
        · next hv =>
            split
            · exact List.forall_mem_singleton.mpr (hfirst hv)
            · exact List.forall_mem_cons.mpr ⟨hfirst hv, helements _ _⟩
            · exact List.forall_mem_singleton.mpr (hfirst hv)
      · unfold members
        split
        · split
          · exact List.forall_mem_nil _
          · split
            · split
              · next hv => exact List.forall_mem_singleton.mpr (hfirst hv)
              · next hv =>
                  split
                  · exact List.forall_mem_singleton.mpr (hfirst hv)
                  · exact List.forall_mem_cons.mpr ⟨hfirst hv, hmembers _ _⟩
                  · exact List.forall_mem_singleton.mpr (hfirst hv)
            · exact List.forall_mem_nil _
        · exact List.forall_mem_nil _

theorem finite_read (s : List Symbol) : (read s).1.Finite :=
  (finite_of_steps _).1 _ _

/-! ## Values -/

mutual

theorem finite_of_toJson? :
    (s : Source) → s.Finite → {v : Json} → s.toJson? = some v →
    ∀ n ∈ v.numbers, n.Finite
  | .null, _, _, h => by cases h; nofun
  | .bool _, _, _, h => by cases h; nofun
  | .string _, _, _, h => by cases h; nofun
  | .number n, hs, _, h => by
      cases h
      exact List.forall_mem_singleton.mpr hs
  | .array ss (some _), hs, _, h => by
      obtain ⟨vs, hvs, rfl⟩ := Option.map_eq_some_iff.mp h
      exact finiteElements_of_toJson? ss hs hvs
  | .object ms (some _), hs, _, h => by
      obtain ⟨vs, hvs, rfl⟩ := Option.map_eq_some_iff.mp h
      exact finiteMembers_of_toJson? ms hs hvs

theorem finiteElements_of_toJson? :
    (ss : List Source) → Source.FiniteElements ss →
    {vs : List Json} → Source.elementsToJson? ss = some vs →
    ∀ n ∈ numbersOfElements vs, n.Finite
  | [], _, _, h => by cases h; nofun
  | s :: ss, ⟨hs, hss⟩, _, h => by
      simp only [Source.elementsToJson?, Option.bind_eq_bind,
        Option.bind_eq_some_iff, Option.some.injEq] at h
      obtain ⟨v, hv, vs, hvs, rfl⟩ := h
      exact List.forall_mem_append.mpr
        ⟨finite_of_toJson? s hs hv, finiteElements_of_toJson? ss hss hvs⟩

theorem finiteMembers_of_toJson? : (ms : List (Option String × Source)) →
    Source.FiniteMembers ms → {vs : List (String × Json)} →
    Source.membersToJson? ms = some vs →
    ∀ n ∈ numbersOfMembers vs, n.Finite
  | [], _, _, h => by cases h; nofun
  | (k?, s) :: ms, ⟨hs, hms⟩, _, h => by
      simp only [Source.membersToJson?, Option.bind_eq_bind,
        Option.bind_eq_some_iff, Option.some.injEq] at h
      obtain ⟨k, -, v, hv, vs, hvs, rfl⟩ := h
      exact List.forall_mem_append.mpr
        ⟨finite_of_toJson? s hs hv, finiteMembers_of_toJson? ms hms hvs⟩

end

mutual

theorem finite_ofJson :
    (v : Json) → (∀ n ∈ v.numbers, n.Finite) → (Source.ofJson v).Finite
  | .null, _ => trivial
  | .bool _, _ => trivial
  | .string _, _ => trivial
  | .number _, h => h _ List.mem_cons_self
  | .array vs, h => finiteElements_ofJson vs h
  | .object ms, h => finiteMembers_ofJson ms h

theorem finiteElements_ofJson :
    (vs : List Json) → (∀ n ∈ numbersOfElements vs, n.Finite) →
    Source.FiniteElements (Source.ofElements vs)
  | [], _ => trivial
  | v :: vs, h =>
      have h := List.forall_mem_append.mp h
      ⟨finite_ofJson v h.1, finiteElements_ofJson vs h.2⟩

theorem finiteMembers_ofJson : (ms : List (String × Json)) →
    (∀ n ∈ numbersOfMembers ms, n.Finite) →
    Source.FiniteMembers (Source.ofMembers ms)
  | [], _ => trivial
  | (_, v) :: ms, h =>
      have h := List.forall_mem_append.mp h
      ⟨finite_ofJson v h.1, finiteMembers_ofJson ms h.2⟩

end

/-- Every number of a value that a text denotes is finite. -/
theorem finite_of_ofText? {text : String} {v : Json}
    (h : ofText? text = some v) : ∀ n ∈ v.numbers, n.Finite := by
  unfold ofText? at h
  have hsource := finite_read (symbols text)
  generalize read (symbols text) = ended at h hsource
  obtain ⟨source, rest?⟩ := ended
  cases rest? with
  | none => cases h
  | some rest =>
      dsimp only at h
      split at h
      · obtain ⟨v', hv', rfl⟩ := Option.map_eq_some_iff.mp h
        exact fun n hn => finite_of_toJson? source hsource hv' n
          (mem_numbers_of_normal v' hn)
      · cases h

end Placard.Json
