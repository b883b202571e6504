import Placard.Proofs.Template.Copying

/-!
# Values taken over one after the other

A template is given a list of values, each meant for a place of its own, and
takes those that it has a place for and that differ from what is there. Whether
a value is taken does not depend on the values before it, as these have been
written to other places. So what is read afterwards can be said place by place,
and the number of values that were taken is that of the values that differed at
the start.

Afterwards none differs, and to give it the same values again does nothing.
-/

namespace Placard

/-- Where a value is meant to go. -/
def placeOf (value : String × Property × Value) : String × Property :=
  (value.1, value.2.1)

namespace Template

/-- There is something to be read where the value is meant to go, and it is not
the same. -/
def lags (t : Template) (value : String × Property × Value) : Bool :=
  (t.get? value.1 value.2.1).any fun old => !old.same value.2.2

/-- The values are read from the template and can be written to any other that
has a place for them. -/
def Offers (u : Template) (values : List (String × Property × Value)) : Prop :=
  ∀ key p v, (key, p, v) ∈ values → u.get? key p = some v ∧ v.Copyable p ∧
    v.Finite ∧
    ¬ (key = canvasKey ∧ (p = .width ∨ p = .height))

variable {t t₁ t' u : Template} {key : String} {p : Property} {v old : Value}
  {values rest : List (String × Property × Value)}

theorem lags_of_get? (h : t.get? key p = some old) :
    t.lags (key, p, v) = !old.same v := by
  rw [lags, h, Option.any_some]

theorem exists_of_lags (h : t.lags (key, p, v) = true) :
    ∃ old, t.get? key p = some old ∧ old.same v = false := by
  cases hold : t.get? key p with
  | none =>
      rw [lags, hold] at h
      cases h
  | some old =>
      rw [lags_of_get? hold, Bool.not_eq_true'] at h
      exact ⟨old, rfl, h⟩

theorem lags_congr {value : String × Property × Value}
    (h : t'.get? value.1 value.2.1 = t.get? value.1 value.2.1) :
    t'.lags value = t.lags value := by
  rw [lags, h, lags]

/-! ## One value -/

theorem takeValues_of_not_lags (h : t.lags (key, p, v) = false) :
    t.takeValues ((key, p, v) :: rest) = t.takeValues rest := by
  rw [takeValues]
  split
  · rfl
  · split
    · rfl
    · next hdiffers =>
        split
        · rfl
        · next t' hset =>
            obtain ⟨old, hold⟩ :=
              Option.isSome_iff_exists.mp (isSome_get?_of_set hset)
            rw [lags_of_get? hold, Bool.not_eq_false'] at h
            rw [hold, Option.any_some, h] at hdiffers
            exact absurd rfl hdiffers

theorem takeValues_of_lags (h : t.lags (key, p, v) = true)
    (hset : t.set key p v = .ok t') :
    t.takeValues ((key, p, v) :: rest) =
      ((t'.takeValues rest).1, (t'.takeValues rest).2 + 1) := by
  obtain ⟨old, hold, hdiffers⟩ := exists_of_lags h
  have hthere : ¬ (key ≠ canvasKey ∧ !t.hasLayer key) := by
    rintro ⟨hkey, hnone⟩
    rw [hasLayer_of_get? hold hkey] at hnone
    cases hnone
  have hnot : ¬ ((t.get? key p).any fun old => old.same v) = true := by
    rw [hold, Option.any_some, hdiffers]
    exact Bool.false_ne_true
  rw [takeValues, if_neg hthere, if_neg hnot, hset]

theorem takeValues_eq_self (h : ∀ value ∈ values, t.lags value = false) :
    t.takeValues values = (t, 0) := by
  induction values with
  | nil => rfl
  | cons value rest ih =>
      obtain ⟨key, p, v⟩ := value
      obtain ⟨hvalue, hrest⟩ := List.forall_mem_cons.mp h
      rw [takeValues_of_not_lags hvalue, ih hrest]

/-! ## All values -/

/-- What a template reads as when it has taken values, and how many it took. -/
structure Taken (t : Template) (values : List (String × Property × Value))
    (t' : Template) (n : Nat) : Prop where
  others : ∀ key p, (key, p) ∉ values.map placeOf → t'.get? key p = t.get? key p
  listed : ∀ key p v old, (key, p, v) ∈ values → t.get? key p = some old →
    t'.get? key p = some (if old.same v then old else v)
  count : n = (values.filter t.lags).length

/-- A value that does not differ from what is there is passed over. -/
theorem Taken.skip {n : Nat} (h : t.Taken rest t' n)
    (hnew : (key, p) ∉ rest.map placeOf) (hlags : t.lags (key, p, v) = false) :
    t.Taken ((key, p, v) :: rest) t' n where
  others key' q hother :=
    h.others key' q fun hmem => hother (List.mem_cons_of_mem _ hmem)
  listed key' q v' old hmem hold := by
    rcases List.mem_cons.mp hmem with heq | hmem
    · cases heq
      rw [lags_of_get? hold, Bool.not_eq_false'] at hlags
      rw [h.others _ _ hnew, hold, hlags, if_pos rfl]
    · exact h.listed key' q v' old hmem hold
  count := by
    rw [List.filter_cons_of_neg (by rw [hlags]; exact Bool.false_ne_true)]
    exact h.count

/-- A value that differs is written first, and the others find all other places
as they were. -/
theorem Taken.write {n : Nat} (h : t₁.Taken rest t' n)
    (hnew : (key, p) ∉ rest.map placeOf) (hlags : t.lags (key, p, v) = true)
    (hset : t.set key p v = .ok t₁) (hread : t₁.get? key p = some v) :
    t.Taken ((key, p, v) :: rest) t' (n + 1) := by
  have hreads := (differAt_of_set hset).reads
  have hne {key' : String} {q : Property} {v' : Value}
      (hmem : (key', q, v') ∈ rest) :
      (key', q) ≠ (key, p) := fun heq =>
    hnew (List.mem_map.mpr ⟨(key', q, v'), hmem, heq⟩)
  constructor
  case others =>
    intro key' q hother
    obtain ⟨hplace, hrest⟩ := not_or.mp (mt List.mem_cons.mpr hother)
    exact (h.others key' q hrest).trans (hreads key' q hplace)
  case listed =>
    intro key' q v' old hmem hold
    rcases List.mem_cons.mp hmem with heq | hmem
    · cases heq
      obtain ⟨old', hold', hdiffers⟩ := exists_of_lags hlags
      obtain rfl := Option.some.inj (hold.symm.trans hold')
      rw [h.others _ _ hnew, hread, hdiffers, if_neg Bool.false_ne_true]
    · exact h.listed key' q v' old hmem ((hreads key' q (hne hmem)).trans hold)
  case count =>
    have hsame : rest.filter t₁.lags = rest.filter t.lags :=
      List.filter_congr fun value hmem => lags_congr (hreads _ _ (hne hmem))
    rw [List.filter_cons_of_pos hlags, List.length_cons, ← hsame]
    exact congrArg (· + 1) h.count

theorem taken_takeValues (hoffers : u.Offers values)
    (hnodup : (values.map placeOf).Nodup) (t : Template) :
    t.Taken values (t.takeValues values).1 (t.takeValues values).2 := by
  induction values generalizing t with
  | nil =>
      exact ⟨fun _ _ _ => rfl, fun _ _ _ _ h => absurd h List.not_mem_nil, rfl⟩
  | cons value rest ih =>
      obtain ⟨key, p, v⟩ := value
      obtain ⟨hnew, hrest⟩ := List.nodup_cons.mp hnodup
      have hlater : u.Offers rest :=
        fun key p v h => hoffers key p v (List.mem_cons_of_mem _ h)
      cases hlags : t.lags (key, p, v) with
      | false =>
          rw [takeValues_of_not_lags hlags]
          exact (ih hlater hrest t).skip hnew hlags
      | true =>
          obtain ⟨hv, hcopy, -, hside⟩ := hoffers key p v List.mem_cons_self
          obtain ⟨old, hold, -⟩ := exists_of_lags hlags
          obtain ⟨t₁, hset, hread⟩ :=
            exists_set_of_get? hv hcopy hside (Option.isSome_of_eq_some hold)
          rw [takeValues_of_lags hlags hset]
          exact (ih hlater hrest t₁).write hnew hlags hset hread

theorem kind?_takeValues (t : Template)
    (values : List (String × Property × Value)) (key : String) :
    (t.takeValues values).1.kind? key = t.kind? key :=
  takeValues_induct (P := fun t' => t'.kind? key = t.kind? key)
    (fun _ hset h => (kind?_of_set hset key).trans h) rfl

theorem Taken.same {n : Nat} (h : t.Taken values t' n)
    (hoffers : u.Offers values) (hmem : (key, p, v) ∈ values)
    (hold : t.get? key p = some old) :
    ∃ new, t'.get? key p = some new ∧ new.same v = true := by
  refine ⟨_, h.listed key p v old hmem hold, ?_⟩
  split
  · next hsame => exact hsame
  · exact (hoffers key p v hmem).2.2.1.same_self

/-- When a template has taken values none of them differs from what it reads
as. -/
theorem not_lags_takeValues (hoffers : u.Offers values)
    (hnodup : (values.map placeOf).Nodup) {value : String × Property × Value}
    (hmem : value ∈ values) : (t.takeValues values).1.lags value = false := by
  obtain ⟨key, p, v⟩ := value
  cases hold : t.get? key p with
  | none =>
      have hnone : ((t.takeValues values).1.get? key p).isSome = false := by
        rw [isSome_get?_congr (kind?_takeValues t values key), hold]
        rfl
      rw [lags,
        Option.isNone_iff_eq_none.mp (Option.isSome_eq_false_iff.mp hnone)]
      rfl
  | some old =>
      obtain ⟨new, hnew, hsame⟩ :=
        (taken_takeValues hoffers hnodup t).same hoffers hmem hold
      rw [lags_of_get? hnew, hsame]
      rfl

/-- Values that are given twice are taken once. -/
theorem takeValues_takeValues (hoffers : u.Offers values)
    (hnodup : (values.map placeOf).Nodup) (t : Template) :
    (t.takeValues values).1.takeValues values = ((t.takeValues values).1, 0) :=
  takeValues_eq_self fun _ hmem => not_lags_takeValues hoffers hnodup hmem

end Template

end Placard
