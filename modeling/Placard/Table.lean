/-!
# Tables in key order

A table holds at most one value per key, in ascending order of the keys, so two
tables with the same content are equal and what is written from a table has one
order. Keys are compared by code point, which is also the order of their bytes
in UTF-8. The order of the entries is part of the type; everything else about a
table is said through `get?`, with one lemma per operation.
-/

universe u

namespace Placard

/-- Values under text keys, in ascending order of the keys. -/
structure Table (α : Type u) where
  entries : List (String × α)
  ascending : entries.Pairwise fun a b => a.1 < b.1
deriving DecidableEq

namespace Table

variable {α : Type u}

/-- The value of the first entry with the given key. -/
def lookup (k : String) : List (String × α) → Option α
  | [] => none
  | (k', v) :: rest => if k' = k then some v else lookup k rest

/-- An ascending list of entries with `k` set to `v`. -/
def put (k : String) (v : α) : List (String × α) → List (String × α)
  | [] => [(k, v)]
  | (k', v') :: rest =>
    if k < k' then (k, v) :: (k', v') :: rest
    else if k = k' then (k, v) :: rest
    else (k', v') :: put k v rest

theorem mem_put {k : String} {v : α} {es : List (String × α)} {e : String × α}
    (h : e ∈ put k v es) : e = (k, v) ∨ e ∈ es := by
  induction es with
  | nil => simpa [put] using h
  | cons e' rest ih =>
    obtain ⟨k', v'⟩ := e'
    unfold put at h
    split at h
    · simpa using h
    · split at h
      · rcases List.mem_cons.mp h with h | h
        · exact Or.inl h
        · exact Or.inr (List.mem_cons_of_mem _ h)
      · rcases List.mem_cons.mp h with h | h
        · exact Or.inr (h ▸ List.mem_cons_self)
        · exact (ih h).imp id (List.mem_cons_of_mem _)

theorem ascending_put {k : String} {v : α} {es : List (String × α)}
    (h : es.Pairwise fun a b => a.1 < b.1) :
    (put k v es).Pairwise fun a b => a.1 < b.1 := by
  induction es with
  | nil => simp [put]
  | cons e' rest ih =>
    obtain ⟨k', v'⟩ := e'
    obtain ⟨hhead, hrest⟩ := List.pairwise_cons.mp h
    unfold put
    split
    · rename_i hlt
      refine List.pairwise_cons.mpr ⟨fun e he => ?_, h⟩
      rcases List.mem_cons.mp he with he | he
      · exact he ▸ hlt
      · exact String.lt_trans hlt (hhead e he)
    · split
      · rename_i _ heq
        subst heq
        exact List.pairwise_cons.mpr ⟨hhead, hrest⟩
      · rename_i hge hne
        have hlt : k' < k := by
          rcases String.le_total k k' with hle | hle
          · exact absurd (String.le_antisymm hle (String.not_lt.mp hge)) hne
          · exact Decidable.byContradiction fun hn =>
              hne (String.le_antisymm (String.not_lt.mp hn) hle)
        refine List.pairwise_cons.mpr ⟨fun e he => ?_, ih hrest⟩
        rcases mem_put he with he | he
        · exact he ▸ hlt
        · exact hhead e he

/-- The table without entries. -/
def empty : Table α where
  entries := []
  ascending := List.Pairwise.nil

instance : EmptyCollection (Table α) := ⟨empty⟩

instance : Inhabited (Table α) := ⟨empty⟩

/-- The value under a key, if there is one. -/
def get? (t : Table α) (k : String) : Option α :=
  lookup k t.entries

/-- Whether there is a value under a key. -/
def contains (t : Table α) (k : String) : Bool :=
  (t.get? k).isSome

/-- The table with `v` under `k`, whatever stood there before. -/
def insert (t : Table α) (k : String) (v : α) : Table α where
  entries := put k v t.entries
  ascending := ascending_put t.ascending

/-- The table without a key. -/
def erase (t : Table α) (k : String) : Table α where
  entries := t.entries.filter fun e => e.1 ≠ k
  ascending := t.ascending.filter _

/-- The table with the value under `k` replaced by what `f` makes of it, or
removed when that is nothing. -/
def alter (t : Table α) (k : String) (f : Option α → Option α) : Table α :=
  match f (t.get? k) with
  | some v => t.insert k v
  | none => t.erase k

/-- The entries of a list put into a table one after the other, so that of two
with one key the later counts. -/
def ofList (es : List (String × α)) : Table α :=
  es.foldl (fun t e => t.insert e.1 e.2) empty

/-- The entries of which a test is true. -/
def filter (t : Table α) (f : String → α → Bool) : Table α where
  entries := t.entries.filter fun e => f e.1 e.2
  ascending := t.ascending.filter _

/-- The keys in ascending order. -/
def keys (t : Table α) : List String :=
  t.entries.map (·.1)

/-- The values in the order of their keys. -/
def values (t : Table α) : List α :=
  t.entries.map (·.2)

/-- How many entries there are. -/
def size (t : Table α) : Nat :=
  t.entries.length

/-- Whether there are no entries. -/
def isEmpty (t : Table α) : Bool :=
  t.entries.isEmpty

/-! ## What the operations do to `get?` -/

theorem lookup_eq_none {k : String} {es : List (String × α)}
    (h : ∀ e ∈ es, e.1 ≠ k) : lookup k es = none := by
  induction es with
  | nil => rfl
  | cons e rest ih =>
    obtain ⟨k', v'⟩ := e
    rw [lookup, if_neg (h (k', v') List.mem_cons_self)]
    exact ih fun e he => h e (List.mem_cons_of_mem _ he)

theorem lookup_put (k k' : String) (v : α) (es : List (String × α)) :
    lookup k' (put k v es) = if k = k' then some v else lookup k' es := by
  induction es with
  | nil => simp only [put, lookup]
  | cons e rest ih =>
    obtain ⟨l, w⟩ := e
    unfold put
    split
    · simp only [lookup]
    · split
      · rename_i _ hkl
        subst hkl
        by_cases hk : k = k'
        · subst hk
          simp only [lookup, if_true]
        · simp only [lookup, if_neg hk]
      · rename_i _ hkl
        by_cases hl : l = k'
        · subst hl
          simp only [lookup, if_true, if_neg hkl]
        · simp only [lookup, if_neg hl, ih]

theorem lookup_filter_ne (k k' : String) (es : List (String × α)) :
    lookup k' (es.filter fun e => e.1 ≠ k) =
      if k = k' then none else lookup k' es := by
  induction es with
  | nil => simp only [List.filter_nil, lookup, ite_self]
  | cons e rest ih =>
    obtain ⟨l, w⟩ := e
    by_cases hl : l = k
    · subst hl
      by_cases hk : l = k'
      · subst hk
        simpa [lookup] using ih
      · simpa [lookup, hk] using ih
    · by_cases hk : l = k'
      · subst hk
        simp [lookup, hl, Ne.symm hl]
      · simpa [lookup, hl, hk] using ih

@[simp] theorem get?_empty (k : String) : (empty : Table α).get? k = none := rfl

theorem get?_insert (t : Table α) (k k' : String) (v : α) :
    (t.insert k v).get? k' = if k = k' then some v else t.get? k' :=
  lookup_put k k' v t.entries

theorem get?_erase (t : Table α) (k k' : String) :
    (t.erase k).get? k' = if k = k' then none else t.get? k' :=
  lookup_filter_ne k k' t.entries

theorem get?_alter (t : Table α) (k k' : String) (f : Option α → Option α) :
    (t.alter k f).get? k' = if k = k' then f (t.get? k) else t.get? k' := by
  unfold alter
  split
  · rename_i v hv
    rw [get?_insert, hv]
  · rename_i hv
    rw [get?_erase, hv]

/-! ## What is listed and what is found -/

theorem mem_of_lookup {k : String} {v : α} {es : List (String × α)}
    (h : lookup k es = some v) : (k, v) ∈ es := by
  induction es with
  | nil => cases h
  | cons e rest ih =>
    obtain ⟨l, w⟩ := e
    rw [lookup] at h
    split at h
    · rename_i hlk
      cases h
      exact hlk ▸ List.mem_cons_self
    · exact List.mem_cons_of_mem _ (ih h)

theorem lookup_of_mem {k : String} {v : α} {es : List (String × α)}
    (hn : (es.map (·.1)).Nodup) (h : (k, v) ∈ es) : lookup k es = some v := by
  induction es with
  | nil => cases h
  | cons e rest ih =>
    obtain ⟨l, w⟩ := e
    rw [List.map_cons, List.nodup_cons] at hn
    rcases List.mem_cons.mp h with heq | hmem
    · obtain ⟨rfl, rfl⟩ := Prod.mk.inj heq
      rw [lookup, if_pos rfl]
    · have hne : l ≠ k := fun hlk =>
        hn.1 (List.mem_map.mpr ⟨(k, v), hmem, hlk.symm⟩)
      rw [lookup, if_neg hne]
      exact ih hn.2 hmem

theorem exists_lookup_of_mem {k : String} {v : α} {es : List (String × α)}
    (h : (k, v) ∈ es) : ∃ w, lookup k es = some w := by
  induction es with
  | nil => cases h
  | cons e rest ih =>
    obtain ⟨l, w⟩ := e
    rw [lookup]
    split
    · exact ⟨w, rfl⟩
    · next hne =>
      rcases List.mem_cons.mp h with heq | hmem
      · exact absurd (Prod.mk.inj heq).1.symm hne
      · exact ih hmem

theorem lookup_append (k : String) (es fs : List (String × α)) :
    lookup k (es ++ fs) = (lookup k es).or (lookup k fs) := by
  induction es with
  | nil => rfl
  | cons e rest ih =>
    obtain ⟨l, w⟩ := e
    rw [List.cons_append, lookup, lookup]
    split
    · rfl
    · exact ih

theorem get?_foldl_insert (es : List (String × α)) (t : Table α) (k : String) :
    (es.foldl (fun t e => t.insert e.1 e.2) t).get? k =
      (lookup k es.reverse).or (t.get? k) := by
  induction es generalizing t with
  | nil => rfl
  | cons e rest ih =>
    rw [List.foldl_cons, ih, get?_insert, List.reverse_cons, lookup_append,
      Option.or_assoc]
    congr 1
    simp only [lookup]
    split <;> rfl

theorem mem_of_get?_ofList {es : List (String × α)} {k : String} {v : α}
    (h : (ofList es).get? k = some v) : (k, v) ∈ es := by
  rw [ofList, get?_foldl_insert, get?_empty, Option.or_none] at h
  exact List.mem_reverse.mp (mem_of_lookup h)

theorem get?_ofList_of_mem {es : List (String × α)} {k : String} {v : α}
    (hn : (es.map (·.1)).Nodup) (h : (k, v) ∈ es) :
    (ofList es).get? k = some v := by
  have hr : (es.reverse.map (·.1)).Nodup := by
    rw [List.map_reverse]
    exact List.pairwise_reverse.mpr (hn.imp Ne.symm)
  rw [ofList, get?_foldl_insert, get?_empty, Option.or_none]
  exact lookup_of_mem hr (List.mem_reverse.mpr h)

theorem exists_get?_ofList_of_mem {es : List (String × α)} {k : String} {v : α}
    (h : (k, v) ∈ es) : ∃ w, (ofList es).get? k = some w := by
  rw [ofList, get?_foldl_insert, get?_empty, Option.or_none]
  exact exists_lookup_of_mem (List.mem_reverse.mpr h)

theorem mem_values_of_get? {t : Table α} {k : String} {v : α}
    (h : t.get? k = some v) : v ∈ t.values :=
  List.mem_map.mpr ⟨(k, v), mem_of_lookup h, rfl⟩

theorem nodup_keys (t : Table α) : t.keys.Nodup := by
  refine List.pairwise_map.mpr (t.ascending.imp ?_)
  intro a b h heq
  exact String.lt_irrefl b.1 (heq ▸ h)

theorem exists_get?_of_mem_values {t : Table α} {v : α} (h : v ∈ t.values) :
    ∃ k, t.get? k = some v := by
  obtain ⟨⟨k, _⟩, hmem, rfl⟩ := List.mem_map.mp h
  exact ⟨k, lookup_of_mem t.nodup_keys hmem⟩

theorem get?_filter (t : Table α) (f : String → α → Bool) (k : String) :
    (t.filter f).get? k = (t.get? k).filter (f k) := by
  cases h : (t.filter f).get? k with
  | some v =>
    have hmem := List.mem_filter.mp (mem_of_lookup h)
    rw [get?, lookup_of_mem t.nodup_keys hmem.1, Option.filter_some_pos hmem.2]
  | none =>
    cases hk : t.get? k with
    | none => rfl
    | some v =>
      by_cases hf : f k v = true
      · have hmem : (k, v) ∈ (t.filter f).entries :=
          List.mem_filter.mpr ⟨mem_of_lookup hk, hf⟩
        rw [get?, lookup_of_mem (t.filter f).nodup_keys hmem] at h
        cases h
      · rw [Option.filter_some_neg (Bool.eq_false_iff.mpr hf)]

/-! ## Two tables with the same content are equal -/

theorem eq_of_lookup_eq : ∀ {as bs : List (String × α)},
    (as.Pairwise fun a b => a.1 < b.1) → (bs.Pairwise fun a b => a.1 < b.1) →
    (∀ k, lookup k as = lookup k bs) → as = bs
  | [], [], _, _, _ => rfl
  | [], (k, v) :: bs, _, _, h => by
    have := h k
    simp only [lookup, if_true] at this
    cases this
  | (k, v) :: as, [], _, _, h => by
    have := h k
    simp only [lookup, if_true] at this
    cases this
  | (k, v) :: as, (l, w) :: bs, ha, hb, h => by
    obtain ⟨hka, has⟩ := List.pairwise_cons.mp ha
    obtain ⟨hlb, hbs⟩ := List.pairwise_cons.mp hb
    have absent {m : String} {cs : List (String × α)}
        (hm : ∀ e ∈ cs, m < e.1) : lookup m cs = none :=
      lookup_eq_none fun e he heq => String.lt_irrefl m (heq ▸ hm e he)
    have hkl : k = l := by
      apply Decidable.byContradiction
      intro hne
      rcases String.le_total k l with hle | hle
      · have hlt : k < l := Decidable.byContradiction fun hn =>
          hne (String.le_antisymm hle (String.not_lt.mp hn))
        have := h k
        rw [lookup, if_pos rfl, lookup, if_neg (Ne.symm hne),
          absent fun e he => String.lt_trans hlt (hlb e he)] at this
        cases this
      · have hlt : l < k := Decidable.byContradiction fun hn =>
          hne (String.le_antisymm (String.not_lt.mp hn) hle)
        have := h l
        rw [lookup, if_neg hne,
          absent fun e he => String.lt_trans hlt (hka e he), lookup,
          if_pos rfl] at this
        cases this
    subst hkl
    have hvw : v = w := by
      have := h k
      simpa only [lookup, if_true, Option.some.injEq] using this
    subst hvw
    refine congrArg _ (eq_of_lookup_eq has hbs fun m => ?_)
    by_cases hm : k = m
    · subst hm
      rw [absent hka, absent hlb]
    · have := h m
      rwa [lookup, if_neg hm, lookup, if_neg hm] at this

@[ext] theorem ext {a b : Table α} (h : ∀ k, a.get? k = b.get? k) : a = b := by
  obtain ⟨as, ha⟩ := a
  obtain ⟨bs, hb⟩ := b
  obtain rfl := eq_of_lookup_eq ha hb h
  rfl

end Table

end Placard
