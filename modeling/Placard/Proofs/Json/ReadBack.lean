import Placard.Proofs.Json.Scalars

/-!
# Reading back values

The text of a value is read as that value, with every number as its own text is
read, unless arrays and objects are nested too deep: so as the value itself, if
every number in it is. The recursion of the reader follows that of the value: an
element is read up to the comma or the bracket behind it, which is where it
ends. The budget of the reader goes down by two a level and by one an element,
and two for every symbol are enough.
-/

namespace Placard.Json

open Text Decimal

/-! ## What is asked of a value -/

mutual

/-- The numbers of a value, in the order of its text. -/
def numbers : Json → List Number
  | .number n => [n]
  | .array elements => numbersOfElements elements
  | .object members => numbersOfMembers members
  | _ => []

/-- The numbers in the elements. -/
def numbersOfElements : List Json → List Number
  | [] => []
  | v :: rest => numbers v ++ numbersOfElements rest

/-- The numbers in the members. -/
def numbersOfMembers : List (String × Json) → List Number
  | [] => []
  | (_, v) :: rest => numbers v ++ numbersOfMembers rest

end

mutual

/-- How deep arrays and objects are nested in a value. -/
def depth : Json → Nat
  | .array elements => depthOfElements elements + 1
  | .object members => depthOfMembers members + 1
  | _ => 0

/-- How deep the elements are nested. -/
def depthOfElements : List Json → Nat
  | [] => 0
  | v :: rest => max (depth v) (depthOfElements rest)

/-- How deep the members are nested. -/
def depthOfMembers : List (String × Json) → Nat
  | [] => 0
  | (_, v) :: rest => max (depth v) (depthOfMembers rest)

end

mutual

/-- The value with every number replaced by what its text denotes, if that is a
number for each and arrays and objects are nested no deeper than so many
times. -/
def reread? : (levels : Nat) → Json → Option Json
  | _, .null => some .null
  | _, .bool b => some (.bool b)
  | _, .number n => n.reread?.map .number
  | _, .string t => some (.string t)
  | 0, .array _ => none
  | levels + 1, .array elements => (rereadElements? levels elements).map .array
  | 0, .object _ => none
  | levels + 1, .object members => (rereadMembers? levels members).map .object

/-- The elements read back one by one, with so many levels to go. -/
def rereadElements? : (levels : Nat) → List Json → Option (List Json)
  | _, [] => some []
  | levels, v :: rest => do
    let v' ← reread? levels v
    let rest' ← rereadElements? levels rest
    some (v' :: rest')

/-- The members read back one by one, with so many levels to go. -/
def rereadMembers? :
    (levels : Nat) → List (String × Json) → Option (List (String × Json))
  | _, [] => some []
  | levels, (k, v) :: rest => do
    let v' ← reread? levels v
    let rest' ← rereadMembers? levels rest
    some ((k, v') :: rest')

end

/-! ## The front of a text -/

/-- A text that begins with the first character of a value. -/
def Opens (s : List Symbol) : Prop :=
  ∃ c rest, s = some c :: rest ∧ c ∉ [' ', '\n', '\t', '\r', ']', '\x7d']

theorem Opens.append {s : List Symbol} (h : Opens s) (t : List Symbol) :
    Opens (s ++ t) := by
  obtain ⟨c, rest, rfl, hc⟩ := h
  exact ⟨c, rest ++ t, rfl, hc⟩

theorem Opens.skipBlanks {s : List Symbol} (h : Opens s) :
    skipBlanks s = s := by
  obtain ⟨c, rest, rfl, hc⟩ := h
  simp only [List.mem_cons, not_or] at hc
  unfold Json.skipBlanks
  rw [List.dropWhile_cons_of_neg]
  simp [hc]

theorem Opens.ne_bracket {s : List Symbol} (h : Opens s) (rest : List Symbol) :
    s ≠ some ']' :: rest := by
  obtain ⟨c, _, rfl, hc⟩ := h
  rintro heq
  cases heq
  exact hc (by decide)

/-- A number begins with a minus sign or a digit. -/
theorem exists_of_literal? {s s' : List Symbol} {l : Literal}
    (h : literal? s = some (l, s')) :
    ∃ c rest, s = some c :: rest ∧ (c = '-' ∨ isDigit c = true) := by
  have hdigits {s s' : List Symbol} {ds : List Char}
      (h : digits? s = some (ds, s')) :
      ∃ c rest, s = some c :: rest ∧ isDigit c = true := by
    cases s with
    | nil => cases h
    | cons c s =>
        cases c with
        | none => cases h
        | some c =>
            by_cases hc : isDigit c = true
            · exact ⟨c, s, rfl, hc⟩
            · rw [digits?, digits, if_neg hc] at h
              cases h
  have hwhole {s s' : List Symbol} {ds : List Char}
      (h : whole? s = some (ds, s')) :
      ∃ c rest, s = some c :: rest ∧ isDigit c = true := by
    unfold whole? at h
    split at h
    · exact ⟨'0', _, rfl, by decide⟩
    · exact hdigits h
  by_cases hminus : ∃ rest, s = some '-' :: rest
  · obtain ⟨rest, rfl⟩ := hminus
    exact ⟨'-', rest, rfl, Or.inl rfl⟩
  · have hsign : sign s = (false, s) := by
      unfold sign
      split
      · exact absurd ⟨_, rfl⟩ hminus
      · rfl
    rw [literal?, hsign] at h
    simp only [Option.bind_eq_bind, Option.bind_eq_some_iff] at h
    obtain ⟨⟨ds, s₁⟩, hds, -⟩ := h
    obtain ⟨c, rest, heq, hc⟩ := hwhole hds
    exact ⟨c, rest, heq, Or.inr hc⟩

theorem not_isDigit_of_mem {c : Char}
    (h : c ∈ ['n', 't', 'f', '"', '[', '\x7b', ']', '\x7d', ' ', '\n',
      '\t', '\r']) :
    ¬ (c = '-' ∨ isDigit c = true) := by
  have hall :
      (['n', 't', 'f', '"', '[', '\x7b', ']', '\x7d', ' ', '\n', '\t', '\r'].all
        fun c => decide ¬ (c = '-' ∨ isDigit c = true)) = true := by decide
  exact of_decide_eq_true (List.all_eq_true.mp hall c h)

theorem opens_of_literal? {s s' : List Symbol} {l : Literal}
    (h : literal? s = some (l, s')) : Opens s := by
  obtain ⟨c, rest, rfl, hc⟩ := exists_of_literal? h
  refine ⟨c, rest, rfl, fun hmem => not_isDigit_of_mem ?_ hc⟩
  simp only [List.mem_cons, List.not_mem_nil, or_false] at hmem ⊢
  tauto

theorem value_number {n : Number} (h : n.Spelled) {rest : List Symbol}
    (hrest : Stops rest) (fuel levels : Nat) :
    ∃ s, value (fuel + 1) levels (symbols n.text ++ rest) = (s, some rest) ∧
      s.toJson? = n.reread?.map .number := by
  obtain ⟨l, hl⟩ := h
  have hreread : n.reread? = l.number? := by
    rw [Number.reread?, numberOf?, hl]
  have happend := literal?_append hrest hl
  have hskip := ((opens_of_literal? hl).append rest).skipBlanks
  obtain ⟨c, s', hcons, hc⟩ := exists_of_literal? hl
  have hne {d : Char}
      (hd : d ∈ ['n', 't', 'f', '"', '[', '\x7b', ']', '\x7d', ' ', '\n', '\t',
        '\r']) : c ≠ d := fun heq => not_isDigit_of_mem (heq ▸ hd) hc
  rw [hreread, value, hskip]
  rw [hcons] at happend ⊢
  split
  case h_7 =>
    simp only [happend]
    cases l.number? with
    | none => exact ⟨_, rfl, rfl⟩
    | some m => exact ⟨_, rfl, rfl⟩
  all_goals next heq =>
    exact absurd (Option.some.inj (List.cons.inj heq).1) (hne (by decide))

theorem opens_compact (v : Json) (hn : ∀ n ∈ v.numbers, n.Spelled) :
    Opens (symbols (compact v)) := by
  cases v with
  | null => exact ⟨'n', _, rfl, by decide⟩
  | bool b => cases b <;> exact ⟨_, _, rfl, by decide⟩
  | number n =>
      obtain ⟨l, hl⟩ := hn n List.mem_cons_self
      exact opens_of_literal? hl
  | string s => exact ⟨'"', _, symbols_quoted s, by decide⟩
  | array vs =>
      rw [compact, symbols_append, symbols_append, List.append_assoc]
      exact ⟨'[', _, rfl, by decide⟩
  | object ms =>
      rw [compact, symbols_append, symbols_append, List.append_assoc]
      exact ⟨'\x7b', _, rfl, by decide⟩

/-! ## Values -/

/-- The text of elements, or of members, one after the other. -/
abbrev listed (texts : List String) :
    List Symbol := symbols (",".intercalate texts)

theorem listed_cons_cons (t u : String) (rest : List String) :
    listed (t :: u :: rest) = symbols t ++ some ',' :: listed (u :: rest) := by
  rw [listed, String.intercalate_cons_cons, symbols_append, symbols_append,
    List.append_assoc]
  rfl

/-! ## One step of the reader -/

section Steps

variable {fuel levels : Nat} {s s' rest : List Symbol} {v : Source}

theorem skipBlanks_cons {c : Char} (hc : c ∉ [' ', '\n', '\t', '\r'])
    (s : List Symbol) : skipBlanks (some c :: s) = some c :: s := by
  simp only [List.mem_cons, not_or] at hc
  unfold skipBlanks
  rw [List.dropWhile_cons_of_neg]
  simp [hc]

theorem value_null :
    value (fuel + 1) levels (symbols "null" ++ rest) = (.null, some rest) := rfl

theorem value_bool (b : Bool) :
    value (fuel + 1) levels (symbols (compact (.bool b)) ++ rest) =
      (.bool b, some rest) := by
  cases b <;> rfl

theorem value_string (t : String) :
    value (fuel + 1) levels (symbols (quoted t) ++ rest) =
      (.string t, some rest) := by
  rw [symbols_quoted, List.cons_append, List.append_assoc,
    List.singleton_append, value, skipBlanks_cons (by decide)]
  simp only [string?_quoted]

theorem value_array_nil :
    value (fuel + 1) levels (some '[' :: some ']' :: rest) =
      (.within levels (.array [] (some rest)), some rest) := by
  rw [value, skipBlanks_cons (by decide)]
  simp only [skipBlanks_cons (by decide : ']' ∉ [' ', '\n', '\t', '\r'])]

theorem value_array {ss : List Source} (hs : Opens s)
    (helements : elements fuel (levels - 1) s = (ss, some rest)) :
    value (fuel + 1) levels (some '[' :: s) =
      (.within levels (.array ss (some rest)), some rest) := by
  rw [value, skipBlanks_cons (by decide)]
  simp only [hs.skipBlanks]
  split
  · next s' => exact absurd rfl (hs.ne_bracket s')
  · simp only [helements]

theorem value_object_nil :
    value (fuel + 1) levels (some '\x7b' :: some '\x7d' :: rest) =
      (.within levels (.object [] (some rest)), some rest) := by
  rw [value, skipBlanks_cons (by decide)]
  simp only [skipBlanks_cons (by decide : '\x7d' ∉ [' ', '\n', '\t', '\r'])]

theorem value_object {ms : List (Option String × Source)}
    (hmembers : members fuel (levels - 1) (some '"' :: s) = (ms, some rest)) :
    value (fuel + 1) levels (some '\x7b' :: some '"' :: s) =
      (.within levels (.object ms (some rest)), some rest) := by
  rw [value, skipBlanks_cons (by decide)]
  simp only [skipBlanks_cons (by decide : '"' ∉ [' ', '\n', '\t', '\r'])]
  split
  · next heq => cases heq
  · simp only [hmembers]

theorem elements_last (h : value fuel levels s = (v, some (some ']' :: rest))) :
    elements (fuel + 1) levels s = ([v], some rest) := by
  rw [elements, h]
  simp only [skipBlanks_cons (by decide : ']' ∉ [' ', '\n', '\t', '\r'])]

theorem elements_more {ss : List Source}
    (h : value fuel levels s = (v, some (some ',' :: s')))
    (hmore : elements fuel levels s' = (ss, some rest)) :
    elements (fuel + 1) levels s = (v :: ss, some rest) := by
  rw [elements, h]
  simp only [skipBlanks_cons (by decide : ',' ∉ [' ', '\n', '\t', '\r']), hmore]

theorem members_last {k : String}
    (h : value fuel levels s = (v, some (some '\x7d' :: rest))) :
    members (fuel + 1) levels (symbols (quoted k) ++ some ':' :: s) =
      ([(some k, v)], some rest) := by
  rw [symbols_quoted, List.cons_append, List.append_assoc,
    List.singleton_append, members, skipBlanks_cons (by decide)]
  simp only [string?_quoted,
    skipBlanks_cons (by decide : ':' ∉ [' ', '\n', '\t', '\r']), h,
    skipBlanks_cons (by decide : '\x7d' ∉ [' ', '\n', '\t', '\r'])]

theorem members_more {k : String} {ms : List (Option String × Source)}
    (h : value fuel levels s = (v, some (some ',' :: s')))
    (hmore : members fuel levels s' = (ms, some rest)) :
    members (fuel + 1) levels (symbols (quoted k) ++ some ':' :: s) =
      ((some k, v) :: ms, some rest) := by
  rw [symbols_quoted, List.cons_append, List.append_assoc,
    List.singleton_append, members, skipBlanks_cons (by decide)]
  simp only [string?_quoted,
    skipBlanks_cons (by decide : ':' ∉ [' ', '\n', '\t', '\r']), h,
    skipBlanks_cons (by decide : ',' ∉ [' ', '\n', '\t', '\r']), hmore]

end Steps

/-! ## A whole value -/

theorem symbols_compact_array (vs : List Json) :
    symbols (compact (.array vs)) =
      some '[' :: (listed (compactElements vs) ++ [some ']']) := by
  rw [compact, symbols_append, symbols_append, List.append_assoc]
  rfl

theorem symbols_compact_object (ms : List (String × Json)) :
    symbols (compact (.object ms)) =
      some '\x7b' :: (listed (compactMembers ms) ++ [some '\x7d']) := by
  rw [compact, symbols_append, symbols_append, List.append_assoc]
  rfl

theorem symbols_member (k : String) (v : Json) :
    symbols (quoted k ++ ":" ++ compact v) =
      symbols (quoted k) ++ some ':' :: symbols (compact v) := by
  rw [symbols_append, symbols_append, List.append_assoc]
  rfl

/-- The members of an object begin with the quote before the first name. -/
theorem listed_compactMembers (m : String × Json) (ms : List (String × Json)) :
    ∃ s, listed (compactMembers (m :: ms)) = some '"' :: s := by
  obtain ⟨k, v⟩ := m
  have hfirst : ∃ s,
      symbols (quoted k ++ ":" ++ compact v) = some '"' :: s := by
    rw [symbols_member, symbols_quoted]
    exact ⟨_, rfl⟩
  obtain ⟨s, hs⟩ := hfirst
  cases ms with
  | nil =>
      rw [compactMembers, compactMembers, listed, String.intercalate_singleton]
      exact ⟨s, hs⟩
  | cons m' ms' =>
      obtain ⟨k', v'⟩ := m'
      rw [compactMembers, compactMembers, listed_cons_cons, hs]
      exact ⟨_, rfl⟩

/-- The text of a value is read as far as it can be, by whoever has the budget
for it. -/
def Legible (v : Json) : Prop :=
  ∀ fuel levels rest, 2 * (symbols (compact v)).length < fuel → Stops rest →
    ∃ s, value fuel levels (symbols (compact v) ++ rest) = (s, some rest) ∧
      s.toJson? = v.reread? levels

/-- The text of elements is read as far as they can be. -/
def LegibleElements (vs : List Json) : Prop :=
  ∀ fuel levels rest, 2 * (listed (compactElements vs)).length + 1 < fuel →
    ∃ ss, elements fuel levels
      (listed (compactElements vs) ++ some ']' :: rest) =
        (ss, some rest) ∧ Source.elementsToJson? ss = rereadElements? levels vs

/-- The text of members is read as far as they can be. -/
def LegibleMembers (ms : List (String × Json)) : Prop :=
  ∀ fuel levels rest, 2 * (listed (compactMembers ms)).length + 1 < fuel →
    ∃ ss, members fuel levels
      (listed (compactMembers ms) ++ some '\x7d' :: rest) =
        (ss, some rest) ∧ Source.membersToJson? ss = rereadMembers? levels ms

theorem legible_of_step {v : Json}
    (h : ∀ fuel levels rest, 2 * (symbols (compact v)).length ≤ fuel →
      Stops rest →
      ∃ s,
        value (fuel + 1) levels (symbols (compact v) ++ rest) = (s, some rest) ∧
        s.toJson? = v.reread? levels) : Legible v := by
  intro fuel levels rest hfuel hrest
  obtain ⟨fuel, rfl⟩ :=
    Nat.exists_eq_add_one_of_ne_zero (Nat.ne_zero_of_lt hfuel)
  exact h fuel levels rest (Nat.lt_succ_iff.mp hfuel) hrest

/-- An array holds what its elements are read as, unless it is nested too
deep. -/
theorem toJson?_within_array {vs : List Json} {ss : List Source}
    {levels : Nat} {behind : List Symbol}
    (h : Source.elementsToJson? ss = rereadElements? (levels - 1) vs) :
    (Source.within levels (.array ss (some behind))).toJson? =
      (Json.array vs).reread? levels := by
  cases levels with
  | zero => rfl
  | succ levels => exact congrArg (Option.map Json.array) h

theorem toJson?_within_object {ms : List (String × Json)}
    {ss : List (Option String × Source)} {levels : Nat} {behind : List Symbol}
    (h : Source.membersToJson? ss = rereadMembers? (levels - 1) ms) :
    (Source.within levels (.object ss (some behind))).toJson? =
      (Json.object ms).reread? levels := by
  cases levels with
  | zero => rfl
  | succ levels => exact congrArg (Option.map Json.object) h

theorem legible_array {vs : List Json}
    (hn : ∀ n ∈ numbersOfElements vs, n.Spelled)
    (h : vs ≠ [] → LegibleElements vs) : Legible (.array vs) := by
  refine legible_of_step fun fuel levels rest hfuel _ => ?_
  have hlength := congrArg List.length (symbols_compact_array vs)
  rw [List.length_cons, List.length_append, List.length_singleton] at hlength
  rw [symbols_compact_array, List.cons_append, List.append_assoc,
    List.singleton_append]
  cases vs with
  | nil => exact ⟨_, value_array_nil, toJson?_within_array rfl⟩
  | cons v vs =>
      have henough :
          2 * (listed (compactElements (v :: vs))).length + 1 < fuel := by
        omega
      obtain ⟨ss, hss, hjson⟩ :=
        h (List.cons_ne_nil v vs) fuel (levels - 1) rest henough
      refine ⟨_, value_array ?_ hss, toJson?_within_array hjson⟩
      refine Opens.append ?_ _
      have hopens :=
        opens_compact v fun n hmem => hn n (List.mem_append_left _ hmem)
      cases vs with
      | nil =>
          rwa [compactElements, compactElements, listed,
            String.intercalate_singleton]
      | cons v' vs' =>
          rw [compactElements, compactElements, listed_cons_cons]
          exact hopens.append _

theorem legible_object {ms : List (String × Json)}
    (h : ms ≠ [] → LegibleMembers ms) : Legible (.object ms) := by
  refine legible_of_step fun fuel levels rest hfuel _ => ?_
  have hlength := congrArg List.length (symbols_compact_object ms)
  rw [List.length_cons, List.length_append, List.length_singleton] at hlength
  rw [symbols_compact_object, List.cons_append, List.append_assoc,
    List.singleton_append]
  cases ms with
  | nil => exact ⟨_, value_object_nil, toJson?_within_object rfl⟩
  | cons m ms =>
      obtain ⟨ss, hss, hjson⟩ :=
        h (List.cons_ne_nil m ms) fuel (levels - 1) rest
          (by omega : 2 * (listed (compactMembers (m :: ms))).length + 1 < fuel)
      obtain ⟨s, hs⟩ := listed_compactMembers m ms
      rw [hs, List.cons_append] at hss
      rw [hs]
      exact ⟨_, value_object hss, toJson?_within_object hjson⟩

theorem legibleElements_cons {v : Json} {vs : List Json} (hv : Legible v)
    (hvs : vs ≠ [] → LegibleElements vs) : LegibleElements (v :: vs) := by
  intro fuel levels rest hfuel
  obtain ⟨fuel, rfl⟩ :=
    Nat.exists_eq_add_one_of_ne_zero (Nat.ne_zero_of_lt hfuel)
  cases vs with
  | nil =>
      rw [compactElements, compactElements, listed,
        String.intercalate_singleton] at hfuel ⊢
      obtain ⟨s, hs, hjson⟩ := hv fuel levels (some ']' :: rest) (by omega)
        (stops_cons.mpr (Or.inr (Or.inl rfl)))
      refine ⟨[s], elements_last hs, ?_⟩
      rw [Source.elementsToJson?, hjson, rereadElements?]
      rfl
  | cons v' vs =>
      rw [compactElements, compactElements, listed_cons_cons, ← compactElements]
        at hfuel ⊢
      rw [List.length_append, List.length_cons] at hfuel
      obtain ⟨ss, hss, hjsons⟩ :=
        hvs (List.cons_ne_nil v' vs) fuel levels rest (by omega)
      obtain ⟨s, hs, hjson⟩ := hv fuel levels
        (some ',' :: (listed (compactElements (v' :: vs)) ++ some ']' :: rest))
        (by omega) (stops_cons.mpr (Or.inl rfl))
      refine ⟨s :: ss, ?_, ?_⟩
      · rw [List.append_assoc, List.cons_append]
        exact elements_more hs hss
      · rw [Source.elementsToJson?, hjson, hjsons]
        rfl

theorem legibleMembers_cons (k : String) {v : Json}
    {ms : List (String × Json)} (hv : Legible v)
    (hms : ms ≠ [] → LegibleMembers ms) : LegibleMembers ((k, v) :: ms) := by
  intro fuel levels rest hfuel
  obtain ⟨fuel, rfl⟩ :=
    Nat.exists_eq_add_one_of_ne_zero (Nat.ne_zero_of_lt hfuel)
  cases ms with
  | nil =>
      rw [compactMembers, compactMembers, listed, String.intercalate_singleton,
        symbols_member] at hfuel ⊢
      rw [List.length_append, List.length_cons] at hfuel
      obtain ⟨s, hs, hjson⟩ := hv fuel levels (some '\x7d' :: rest) (by omega)
        (stops_cons.mpr (Or.inr (Or.inr rfl)))
      refine ⟨[(some k, s)], ?_, ?_⟩
      · rw [List.append_assoc, List.cons_append]
        exact members_last hs
      · rw [Source.membersToJson?, hjson, rereadMembers?]
        rfl
  | cons m ms =>
      obtain ⟨k', v'⟩ := m
      rw [compactMembers, compactMembers, listed_cons_cons, ← compactMembers,
        symbols_member] at hfuel ⊢
      rw [List.length_append, List.length_append, List.length_cons,
        List.length_cons] at hfuel
      obtain ⟨ss, hss, hjsons⟩ :=
        hms (List.cons_ne_nil (k', v') ms) fuel levels rest (by omega)
      obtain ⟨s, hs, hjson⟩ := hv fuel levels
        (some ',' :: (listed (compactMembers ((k', v') :: ms)) ++
          some '\x7d' :: rest))
        (by omega) (stops_cons.mpr (Or.inl rfl))
      refine ⟨(some k, s) :: ss, ?_, ?_⟩
      · rw [List.append_assoc, List.append_assoc, List.cons_append,
          List.cons_append]
        exact members_more hs hss
      · rw [Source.membersToJson?, hjson, hjsons]
        rfl

mutual

/-- The text of a value is read as far as it can be, if its numbers are spelled
as numbers. -/
theorem legible : (v : Json) → (∀ n ∈ v.numbers, n.Spelled) → Legible v
  | .null, _ => legible_of_step fun _ _ _ _ _ => ⟨.null, value_null, rfl⟩
  | .bool b, _ => legible_of_step fun _ _ _ _ _ => ⟨.bool b, value_bool b, rfl⟩
  | .number n, hn => legible_of_step fun fuel levels _ _ hrest =>
      value_number (hn n List.mem_cons_self) hrest fuel levels
  | .string t, _ =>
    legible_of_step fun _ _ _ _ _ => ⟨.string t, value_string t, rfl⟩
  | .array vs, hn => legible_array hn (legibleElements vs hn)
  | .object ms, hn => legible_object (legibleMembers ms hn)

theorem legibleElements :
    (vs : List Json) → (∀ n ∈ numbersOfElements vs, n.Spelled) →
    vs ≠ [] → LegibleElements vs
  | [], _, hne => absurd rfl hne
  | v :: vs, hn, _ =>
      legibleElements_cons
        (legible v fun n h => hn n (List.mem_append_left _ h))
        (legibleElements vs fun n h => hn n (List.mem_append_right _ h))

theorem legibleMembers :
    (ms : List (String × Json)) → (∀ n ∈ numbersOfMembers ms, n.Spelled) →
    ms ≠ [] → LegibleMembers ms
  | [], _, hne => absurd rfl hne
  | (k, v) :: ms, hn, _ =>
      legibleMembers_cons k
        (legible v fun n h => hn n (List.mem_append_left _ h))
        (legibleMembers ms fun n h => hn n (List.mem_append_right _ h))

end

/-! ## A whole text -/

theorem read_of_spelled {v : Json} (hn : ∀ n ∈ v.numbers, n.Spelled) :
    ∃ s, read (symbols (compact v)) = (s, some []) ∧
      s.toJson? = v.reread? maxDepth := by
  obtain ⟨s, hs, hjson⟩ :=
    legible v hn (2 * (symbols (compact v)).length + 2) maxDepth []
      (by omega) stops_nil
  rw [List.append_nil] at hs
  exact ⟨s, hs, hjson⟩

/-- The text of a value, for any use: the members are put in order. -/
theorem ofText?_of_spelled {v : Json} (hn : ∀ n ∈ v.numbers, n.Spelled) :
    ofText? (compact v) = (v.reread? maxDepth).map normal := by
  obtain ⟨s, hs, hjson⟩ := read_of_spelled hn
  unfold ofText?
  rw [hs]
  simp only [hjson]
  rfl

mutual

/-- A value is read as it is if every number in it is. -/
theorem reread?_eq_some :
    (v : Json) → (∀ n ∈ v.numbers, n.ReadsBack) → {levels : Nat} →
    v.depth ≤ levels → v.reread? levels = some v
  | .null, _, _, _ => by rw [reread?]
  | .bool _, _, _, _ => by rw [reread?]
  | .number n, hn, _, _ => by
      have hback : n.reread? = some n := hn n List.mem_cons_self
      rw [reread?, hback, Option.map_some]
  | .string _, _, _, _ => by rw [reread?]
  | .array vs, hn, levels + 1, hlevels => by
      rw [reread?,
        rereadElements?_eq_some vs hn (Nat.succ_le_succ_iff.mp hlevels),
        Option.map_some]
  | .object ms, hn, levels + 1, hlevels => by
      rw [reread?,
        rereadMembers?_eq_some ms hn (Nat.succ_le_succ_iff.mp hlevels),
        Option.map_some]

theorem rereadElements?_eq_some :
    (vs : List Json) → (∀ n ∈ numbersOfElements vs, n.ReadsBack) →
    {levels : Nat} → depthOfElements vs ≤ levels →
    rereadElements? levels vs = some vs
  | [], _, _, _ => by rw [rereadElements?]
  | v :: vs, hn, _, hlevels => by
      rw [depthOfElements, Nat.max_le] at hlevels
      rw [rereadElements?, reread?_eq_some v
        (fun n h => hn n (List.mem_append_left _ h)) hlevels.1,
          rereadElements?_eq_some vs
            (fun n h => hn n (List.mem_append_right _ h)) hlevels.2]
      rfl

theorem rereadMembers?_eq_some : (ms : List (String × Json)) →
    (∀ n ∈ numbersOfMembers ms, n.ReadsBack) → {levels : Nat} →
    depthOfMembers ms ≤ levels →
    rereadMembers? levels ms = some ms
  | [], _, _, _ => by rw [rereadMembers?]
  | (k, v) :: ms, hn, _, hlevels => by
      rw [depthOfMembers, Nat.max_le] at hlevels
      rw [rereadMembers?, reread?_eq_some v
        (fun n h => hn n (List.mem_append_left _ h)) hlevels.1,
          rereadMembers?_eq_some ms
            (fun n h => hn n (List.mem_append_right _ h)) hlevels.2]
      rfl

end

/-- The whole text of a value, for a decoder. -/
theorem read_compact {v : Json} (hn : ∀ n ∈ v.numbers, n.ReadsBack)
    (hdepth : v.depth ≤ maxDepth) :
    ∃ s, read (symbols (compact v)) = (s, some []) ∧ s.toJson? = some v := by
  rw [← reread?_eq_some v hn hdepth]
  exact read_of_spelled fun n h => (hn n h).spelled

/-- The whole text of a value, for any use: its members are put in order. -/
theorem ofText?_compact {v : Json} (hn : ∀ n ∈ v.numbers, n.ReadsBack)
    (hdepth : v.depth ≤ maxDepth) : ofText? (compact v) = some v.normal := by
  rw [ofText?_of_spelled fun n h => (hn n h).spelled,
    reread?_eq_some v hn hdepth, Option.map_some]

end Placard.Json
