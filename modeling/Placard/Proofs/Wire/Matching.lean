import Placard.Proofs.Text.Occurrence
import Placard.Proofs.Wire.Credit
import Mathlib.Order.Lattice.Nat
import Mathlib.Order.ConditionallyCompleteLattice.Basic

/-!
# The identifier that stands furthest left, and is the longest there

Three things go into the choice of an identifier: those that are the whole
region come first, an identifier is passed over inside a longer one of another
layer, and of what is found the better match is kept. All of it comes to one
rule. Let the offset be the least at which any identifier of the category
occurs, and the length the greatest of those that occur there: the identifiers
of that length that stand there are the ones to choose from, in the order of the
table.

What makes it so is that none of these is passed over. A longer identifier
around one of them would begin further left, which nothing does, or at the same
offset, where none is longer. And an identifier that is the whole region stands
at its beginning and is as long as anything can be.
-/

namespace Placard.Provenance

open Text

variable {table others : Provenance} {category : Category} {region : List Char}
  {claimed : List Nat} {e len : Nat}

/-- The offsets at which identifiers of a category occur in a region. -/
def places (table : Provenance) (category : Category) (region : List Char) :
    Set Nat :=
  {o | ∃ n ∈ table, n.category = category ∧ occursAt n.value o region = true}

/-- The lengths of the identifiers of a category that occur at an offset. -/
def lengthsAt (table : Provenance) (category : Category) (region : List Char)
    (o : Nat) : Set Nat :=
  {len | ∃ n ∈ table, n.category = category ∧ occursAt n.value o region = true ∧
    byteLength n.value = len}

/-- Whether a needle stands at a place of a region with a length. -/
def stands (category : Category) (region : List Char) (o len : Nat)
    (n : Needle) : Bool :=
  n.category = category && occursAt n.value o region && byteLength n.value = len

/-- Where the identifiers of a category and of a length that occur at an offset
are in the table. -/
def standing (table : Provenance) (category : Category) (region : List Char)
    (o len : Nat) : List Nat :=
  (table.zipIdx.filter fun (n, _) => stands category region o len n).map (·.2)

/-- The first that has not been used, or the first of all. -/
def firstFree? (claimed is : List Nat) : Option Nat :=
  (is.find? fun i => i ∉ claimed).or is.head?

/-- The best match if no identifier hides another. -/
def searchAll? (table : Provenance) (category : Category) (region : List Char)
    (claimed : List Nat) : Option Match :=
  table.zipIdx.foldl (prefer [] category region claimed) none

theorem stands_iff {n : Needle} :
    stands category region e len n = true ↔
      n.category = category ∧ occursAt n.value e region = true ∧
        byteLength n.value = len := by
  rw [stands, Bool.and_eq_true, Bool.and_eq_true, decide_eq_true_eq,
    decide_eq_true_eq, and_assoc]

theorem mem_standing {i : Nat} :
    i ∈ standing table category region e len ↔
      ∃ n, table[i]? = some n ∧ stands category region e len n = true := by
  simp only [standing, List.mem_map, List.mem_filter]
  constructor
  · rintro ⟨⟨n, i⟩, ⟨hmem, hstands⟩, rfl⟩
    exact ⟨n, List.mem_zipIdx_iff_getElem?.mp hmem, hstands⟩
  · rintro ⟨n, hget, hstands⟩
    exact ⟨(n, i), ⟨List.mem_zipIdx_iff_getElem?.mpr hget, hstands⟩, rfl⟩

/-! ## The first that is free -/

theorem firstFree?_eq_none {is : List Nat} :
    firstFree? claimed is = none ↔ is = [] := by
  cases is with
  | nil => exact ⟨fun _ => rfl, fun _ => rfl⟩
  | cons i is => simp [firstFree?]

theorem mem_of_firstFree? {is : List Nat} {i : Nat}
    (h : firstFree? claimed is = some i) : i ∈ is := by
  rcases Option.or_eq_some_iff.mp h with h | ⟨-, h⟩
  · exact List.mem_of_find?_eq_some h
  · exact List.mem_of_head? h

theorem firstFree?_cons (claimed : List Nat) (first : Nat) (rest : List Nat) :
    firstFree? claimed (first :: rest) =
      some (((first :: rest).find? fun i => i ∉ claimed).getD first) := by
  rw [firstFree?, List.head?_cons]
  cases (first :: rest).find? fun i => i ∉ claimed <;> rfl

/-- One more counts if there was none, or if it is the first that is free. -/
theorem firstFree?_concat (claimed is : List Nat) (i : Nat) :
    firstFree? claimed (is ++ [i]) =
      match firstFree? claimed is with
      | none => some i
      | some b => if b ∈ claimed ∧ i ∉ claimed then some i else some b := by
  cases is with
  | nil => by_cases hi : i ∈ claimed <;> simp [firstFree?, hi]
  | cons first rest =>
      rw [List.cons_append, firstFree?_cons, firstFree?_cons,
        ← List.cons_append, List.find?_append]
      cases hfind : (first :: rest).find? fun i => i ∉ claimed with
      | some b =>
          have hfree : b ∉ claimed := by simpa using List.find?_some hfind
          simp [hfree]
      | none =>
          have hused : first ∈ claimed := by
            simpa using List.find?_eq_none.mp hfind first List.mem_cons_self
          by_cases hi : i ∈ claimed <;> simp [hi, hused]

/-! ## What is found -/

theorem occursAt_of_position? {n : Needle} {o : Nat}
    (h : others.position? n region = some o) :
    occursAt n.value o region = true :=
  occursAt_of_mem_offsets (List.mem_of_find?_eq_some h)

/-- An identifier that is as long as any at the least offset is found there,
whichever identifiers of the table may hide it. -/
theorem position?_of_stands (hne : ∀ n ∈ table, n.value ≠ [])
    (hothers : ∀ n ∈ others, n ∈ table)
    (he : IsLeast (table.places category region) e)
    (hlen : IsGreatest (table.lengthsAt category region e) len) {n : Needle}
    (hn : n ∈ table) (h : stands category region e len n = true) :
    others.position? n region = some e := by
  obtain ⟨hcat, hat, hlength⟩ := stands_iff.mp h
  obtain ⟨rest, hoffsets⟩ := offsets_of_least (hne n hn)
    ⟨hat, fun o ho => he.2 ⟨n, hn, hcat, ho⟩⟩
  rw [position?, hoffsets]
  refine List.find?_cons_of_pos ?_
  rw [Bool.not_eq_true', List.any_eq_false]
  rintro ⟨first, last⟩ hcover
  simp only [List.mem_flatMap, List.mem_map, covering, List.mem_filter]
    at hcover
  obtain ⟨long, ⟨hlong, hcovers⟩, start, hstart, heq⟩ := hcover
  cases heq
  simp only [Bool.and_eq_true, decide_eq_true_eq] at hcovers
  obtain ⟨⟨⟨hlongcat, -⟩, hlonger⟩, -⟩ := hcovers
  have hlongat := occursAt_of_mem_offsets hstart
  have hleft : e ≤ first :=
    he.2 ⟨long, hothers long hlong, hlongcat.trans hcat, hlongat⟩
  simp only [Bool.and_eq_true, decide_eq_true_eq, not_and]
  intro hfirst
  obtain rfl : first = e := Nat.le_antisymm hfirst hleft
  have : byteLength long.value ≤ len :=
    hlen.2 ⟨long, hothers long hlong, hlongcat.trans hcat, hlongat, rfl⟩
  omega

/-! ## What is kept -/

/-- The best match is the first free of some places, or, if there are none, a
match that counts less than any of them would. -/
def Keeps (claimed : List Nat) (e len : Nat) (is : List Nat)
    (best : Option Match) : Prop :=
  match firstFree? claimed is with
  | none => ∀ b ∈ best, b.Misses e len
  | some i => best = some ⟨e, len, i⟩

/-- A match that was found and is not as good as one can be counts less. -/
theorem misses_of_found (he : IsLeast (table.places category region) e)
    (hlen : IsGreatest (table.lengthsAt category region e) len) {n : Needle}
    (hn : n ∈ table) (hcat : n.category = category)
    (hnot : ¬ stands category region e len n = true) {start : Nat}
    (hstart : others.position? n region = some start) (i : Nat) :
    Match.Misses e len ⟨start, byteLength n.value, i⟩ := by
  have hat := occursAt_of_position? hstart
  have hleft : e ≤ start := he.2 ⟨n, hn, hcat, hat⟩
  rcases Nat.lt_or_eq_of_le hleft with hlt | rfl
  · exact Or.inl hlt
  · have hlong : byteLength n.value ≤ len := hlen.2 ⟨n, hn, hcat, hat, rfl⟩
    exact Or.inr ⟨rfl, Nat.lt_of_le_of_ne hlong fun heq =>
      hnot (stands_iff.mpr ⟨hcat, hat, heq⟩)⟩

/-- A match that counts less does not push out one that is as good as can be. -/
theorem not_beats_of_misses {m : Match} (hm : m.Misses e len) (i : Nat) :
    m.beats ⟨e, len, i⟩ claimed = false := by
  refine Bool.eq_false_iff.mpr fun h => ?_
  simp only [Match.beats, Bool.or_eq_true, Bool.and_eq_true, decide_eq_true_eq]
    at h
  rcases hm with hm | ⟨hm, hlt⟩ <;> omega

theorem beats_of_misses {b : Match} (hb : b.Misses e len) (i : Nat) :
    Match.beats ⟨e, len, i⟩ b claimed = true := by
  simp only [Match.beats, Bool.or_eq_true, Bool.and_eq_true, decide_eq_true_eq]
  rcases hb with hb | ⟨hb, hlt⟩
  · exact Or.inl (Or.inl hb)
  · exact Or.inl (Or.inr ⟨hb.symm, hlt⟩)

/-- Of two matches that are as good as can be, a free one pushes out a used
one. -/
theorem beats_iff_of_same {b i : Nat} :
    Match.beats ⟨e, len, i⟩ ⟨e, len, b⟩ claimed = true ↔
      b ∈ claimed ∧ i ∉ claimed := by
  simp [Match.beats]

/-- A match that is as good as can be takes the place of all that count less. -/
theorem keeps_better (i : Nat) {is : List Nat} {best : Option Match}
    (h : Keeps claimed e len is best) :
    Keeps claimed e len (is ++ [i]) (better claimed best ⟨e, len, i⟩) := by
  rw [Keeps] at h
  rw [Keeps, firstFree?_concat]
  cases hfree : firstFree? claimed is with
  | none =>
      rw [hfree] at h
      cases best with
      | none => rfl
      | some b => simp only [better, beats_of_misses (h b rfl), if_true]
  | some b =>
      rw [hfree] at h
      subst h
      simp only [better, beats_iff_of_same]
      by_cases hfirst : b ∈ claimed ∧ i ∉ claimed
      · simp only [if_pos hfirst]
      · simp only [if_neg hfirst]

/-- A match that counts less takes the place of none that is as good as can
be. -/
theorem keeps_better_of_misses {m : Match} (hm : m.Misses e len) {is : List Nat}
    {best : Option Match} (h : Keeps claimed e len is best) :
    Keeps claimed e len is (better claimed best m) := by
  rw [Keeps] at h ⊢
  cases hfree : firstFree? claimed is with
  | none =>
      rw [hfree] at h
      intro b hb
      unfold better at hb
      split at hb
      · cases hb
        exact hm
      · split at hb
        · cases hb
          exact hm
        · exact h b hb
  | some b =>
      rw [hfree] at h
      subst h
      simp only [better, not_beats_of_misses hm, Bool.false_eq_true, if_false]

/-- The step: an identifier to choose from is found where it should be. -/
theorem keeps_prefer_of_stands (hne : ∀ n ∈ table, n.value ≠ [])
    (hothers : ∀ n ∈ others, n ∈ table)
    (he : IsLeast (table.places category region) e)
    (hlen : IsGreatest (table.lengthsAt category region e) len) {n : Needle}
    (hn : n ∈ table) (hstands : stands category region e len n = true)
    (i : Nat) {is : List Nat} {best : Option Match}
    (h : Keeps claimed e len is best) :
    Keeps claimed e len (is ++ [i])
      (prefer others category region claimed best (n, i)) := by
  obtain ⟨hcat, -, hlength⟩ := stands_iff.mp hstands
  have hfound := position?_of_stands hne hothers he hlen hn hstands
  rcases prefer_cases others category region claimed best (n, i) with
    ⟨-, hnone⟩ | ⟨start, -, hstart, hbetter⟩
  · exact absurd hfound (hnone hcat e)
  · obtain rfl : e = start := Option.some.inj (hfound.symm.trans hstart)
    rw [hbetter, hlength]
    exact keeps_better i h

/-- The step: an identifier that is not one to choose from changes nothing. -/
theorem keeps_prefer_of_not_stands
    (he : IsLeast (table.places category region) e)
    (hlen : IsGreatest (table.lengthsAt category region e) len) {n : Needle}
    (hn : n ∈ table) (hstands : ¬ stands category region e len n = true)
    (i : Nat) {is : List Nat} {best : Option Match}
    (h : Keeps claimed e len is best) :
    Keeps claimed e len is
      (prefer others category region claimed best (n, i)) := by
  rcases prefer_cases others category region claimed best (n, i) with
    ⟨hsame, -⟩ | ⟨start, hcat, hstart, hbetter⟩
  · rw [hsame]
    exact h
  · rw [hbetter]
    exact keeps_better_of_misses
      (misses_of_found he hlen hn hcat hstands hstart i) h

/-- The search keeps the first that is free of all there are to choose from. -/
theorem keeps_foldl (hne : ∀ n ∈ table, n.value ≠ [])
    (hothers : ∀ n ∈ others, n ∈ table)
    (he : IsLeast (table.places category region) e)
    (hlen : IsGreatest (table.lengthsAt category region e) len)
    {ns : List (Needle × Nat)} (hns : ∀ p ∈ ns, p.1 ∈ table) (is : List Nat)
    {best : Option Match} (h : Keeps claimed e len is best) :
    Keeps claimed e len
      (is ++ (ns.filter fun (n, _) => stands category region e len n).map (·.2))
      (ns.foldl (prefer others category region claimed) best) := by
  induction ns generalizing is best with
  | nil => rwa [List.filter_nil, List.map_nil, List.append_nil]
  | cons p ns ih =>
      obtain ⟨n, i⟩ := p
      have hn : n ∈ table := hns _ List.mem_cons_self
      have hrest := ih fun q hq => hns q (List.mem_cons_of_mem _ hq)
      rw [List.foldl_cons]
      by_cases hstands : stands category region e len n = true
      · rw [List.filter_cons_of_pos (by exact hstands), List.map_cons,
          List.append_cons]
        exact hrest _ (keeps_prefer_of_stands hne hothers he hlen hn
          hstands i h)
      · rw [List.filter_cons_of_neg (by exact hstands)]
        exact hrest _ (keeps_prefer_of_not_stands he hlen hn hstands i h)

/-- The search finds the first that is free of the identifiers of the greatest
length at the least offset, whichever identifiers may hide one another. -/
theorem foldl_prefer_eq (hne : ∀ n ∈ table, n.value ≠ [])
    (hothers : ∀ n ∈ others, n ∈ table)
    (he : IsLeast (table.places category region) e)
    (hlen : IsGreatest (table.lengthsAt category region e) len) :
    (table.zipIdx.foldl (prefer others category region claimed) none).map
      Match.index =
      firstFree? claimed (table.standing category region e len) := by
  have hkeeps : Keeps claimed e len (table.standing category region e len)
      (table.zipIdx.foldl (prefer others category region claimed) none) :=
    keeps_foldl hne hothers he hlen
      (fun p hp => List.fst_mem_of_mem_zipIdx hp) [] nofun
  obtain ⟨n, hn, hcat, hat, hlength⟩ := hlen.1
  obtain ⟨i, hget⟩ := List.getElem?_of_mem hn
  have hmem : i ∈ table.standing category region e len :=
    mem_standing.mpr ⟨n, hget, stands_iff.mpr ⟨hcat, hat, hlength⟩⟩
  rw [Keeps] at hkeeps
  cases hfree : firstFree? claimed (table.standing category region e len) with
  | none =>
      rw [firstFree?_eq_none.mp hfree] at hmem
      cases hmem
  | some b =>
      rw [hfree] at hkeeps
      rw [hkeeps, Option.map_some]

/-! ## The choice -/

/-- An identifier that is the whole region is the longest at its beginning. -/
theorem standing_of_exact (he : IsLeast (table.places category region) e)
    (hlen : IsGreatest (table.lengthsAt category region e) len)
    (hexact : table.exact category region ≠ []) :
    table.standing category region e len = table.exact category region := by
  obtain ⟨i, hi⟩ := List.exists_mem_of_ne_nil _ hexact
  simp only [exact, List.mem_map, List.mem_filter, Bool.and_eq_true,
    decide_eq_true_eq, beq_iff_eq] at hi
  obtain ⟨⟨n, i⟩, ⟨hmem, hcat, hwhole⟩, rfl⟩ := hi
  have hn := List.fst_mem_of_mem_zipIdx hmem
  have hat : occursAt n.value 0 region = true := hwhole ▸ occursAt_self n.value
  obtain rfl : e = 0 := Nat.le_zero.mp (he.2 ⟨n, hn, hcat, hat⟩)
  have hle : byteLength region ≤ len :=
    hlen.2 ⟨n, hn, hcat, hat, congrArg _ hwhole⟩
  obtain rfl : len = byteLength region := by
    obtain ⟨n', -, -, hat', rfl⟩ := hlen.1
    have := byteLength_le_of_occursAt hat'
    omega
  rw [standing, exact]
  congr 1
  refine List.filter_congr fun p _ => Bool.eq_iff_iff.mpr ?_
  rw [stands_iff, Bool.and_eq_true, decide_eq_true_eq, beq_iff_eq]
  refine and_congr_right fun _ => ⟨fun h => eq_of_occursAt h.1 h.2, ?_⟩
  rintro rfl
  exact ⟨occursAt_self _, rfl⟩

theorem choose?_eq (hne : ∀ n ∈ table, n.value ≠ [])
    (he : IsLeast (table.places category region) e)
    (hlen : IsGreatest (table.lengthsAt category region e) len)
    (claimed : List Nat) :
    table.choose? category region claimed =
      firstFree? claimed (table.standing category region e len) := by
  rw [choose?]
  cases hexact : table.exact category region with
  | nil => exact foldl_prefer_eq hne (fun _ h => h) he hlen
  | cons first rest =>
      rw [standing_of_exact he hlen
        (by rw [hexact]; exact List.cons_ne_nil _ _), hexact, firstFree?_cons]

/-- Where an identifier occurs there is a least offset, and a greatest length of
what occurs there. -/
theorem exists_least_greatest (h : (table.places category region).Nonempty) :
    ∃ e len, IsLeast (table.places category region) e ∧
      IsGreatest (table.lengthsAt category region e) len := by
  have he :
      IsLeast (table.places category region)
        (sInf (table.places category region)) :=
    ⟨Nat.sInf_mem h, fun _ ho => Nat.sInf_le ho⟩
  obtain ⟨n, hn, hcat, hat⟩ := he.1
  have hsome :
      (table.lengthsAt category region
        (sInf (table.places category region))).Nonempty :=
    ⟨_, n, hn, hcat, hat, rfl⟩
  have hbound : BddAbove
      (table.lengthsAt category region
        (sInf (table.places category region))) := by
    refine ⟨byteLength region, ?_⟩
    rintro _ ⟨n', -, -, hat', rfl⟩
    have := byteLength_le_of_occursAt hat'
    omega
  exact ⟨_, _, he, Nat.sSup_mem hsome hbound, fun _ hl => le_csSup hbound hl⟩

/-- Where no identifier occurs nothing is found, whatever may hide what. -/
theorem foldl_prefer_of_empty (h : table.places category region = ∅)
    (claimed : List Nat) (others : Provenance) :
    table.zipIdx.foldl (prefer others category region claimed) none = none := by
  have hall : ∀ ns : List (Needle × Nat), (∀ p ∈ ns, p.1 ∈ table) →
      ns.foldl (prefer others category region claimed) none = none := by
    intro ns hns
    induction ns with
    | nil => rfl
    | cons p ns ih =>
        have hp : prefer others category region claimed none p = none := by
          rcases prefer_cases others category region claimed none p with
            ⟨hsame, -⟩ | ⟨o, hcat, hstart, -⟩
          · exact hsame
          · refine absurd (h ▸ ?_ : o ∈ (∅ : Set Nat)) (Set.notMem_empty o)
            exact ⟨p.1, hns p List.mem_cons_self, hcat,
              occursAt_of_position? hstart⟩
        rw [List.foldl_cons, hp]
        exact ih fun q hq => hns q (List.mem_cons_of_mem _ hq)
  exact hall _ fun _ hp => List.fst_mem_of_mem_zipIdx hp

theorem choose?_of_empty (h : table.places category region = ∅)
    (claimed : List Nat) : table.choose? category region claimed = none := by
  have hexact : table.exact category region = [] := by
    rw [exact, List.map_eq_nil_iff, List.filter_eq_nil_iff]
    intro p hp hwhole
    rw [Bool.and_eq_true, decide_eq_true_eq, beq_iff_eq] at hwhole
    refine absurd (h ▸ ?_ : 0 ∈ (∅ : Set Nat)) (Set.notMem_empty 0)
    exact ⟨p.1, List.fst_mem_of_mem_zipIdx hp, hwhole.1,
      hwhole.2 ▸ occursAt_self _⟩
  rw [choose?, hexact]
  simp only [search?_eq_foldl, foldl_prefer_of_empty h, Option.map_none]

/-- The identifier that is credited is one of those to choose from. -/
theorem stands_of_choose? (hne : ∀ n ∈ table, n.value ≠ [])
    (he : IsLeast (table.places category region) e)
    (hlen : IsGreatest (table.lengthsAt category region e) len) {i : Nat}
    (h : table.choose? category region claimed = some i) :
    ∃ n, table[i]? = some n ∧ stands category region e len n = true := by
  rw [choose?_eq hne he hlen] at h
  exact mem_standing.mp (mem_of_firstFree? h)

theorem choose?_eq_none (hne : ∀ n ∈ table, n.value ≠ []) :
    table.choose? category region claimed = none ↔
      table.places category region = ∅ := by
  refine ⟨fun hnone => Set.not_nonempty_iff_eq_empty.mp fun hsome => ?_,
    fun h => choose?_of_empty h claimed⟩
  obtain ⟨e, len, he, hlen⟩ := exists_least_greatest hsome
  rw [choose?_eq hne he hlen, firstFree?_eq_none] at hnone
  obtain ⟨n, hn, hcat, hat, hlength⟩ := hlen.1
  obtain ⟨i, hget⟩ := List.getElem?_of_mem hn
  have hmem : i ∈ table.standing category region e len :=
    mem_standing.mpr ⟨n, hget, stands_iff.mpr ⟨hcat, hat, hlength⟩⟩
  rw [hnone] at hmem
  cases hmem

theorem places_eq_empty :
    table.places category region = ∅ ↔
      ∀ n ∈ table, n.category = category → ¬ n.value <:+: region := by
  rw [Set.eq_empty_iff_forall_notMem]
  constructor
  · intro h n hn hcat hinfix
    obtain ⟨o, ho⟩ := exists_occursAt_iff.mpr hinfix
    exact h o ⟨n, hn, hcat, ho⟩
  · rintro h o ⟨n, hn, hcat, ho⟩
    exact h n hn hcat (exists_occursAt_iff.mp ⟨o, ho⟩)

theorem resolve_fst :
    (table.resolve category region claimed).1 =
      (table.choose? category region claimed).bind fun i =>
        (table[i]?).map Needle.layer := by
  rw [resolve]
  cases table.choose? category region claimed <;> rfl

/-- A region is credited to no layer where no identifier occurs. Elsewhere it is
credited to the first identifier not yet used, or the first of all, of those of
the greatest length at the least offset. Neither taking an identifier that is
the whole region first, nor passing over the inside of longer ones changes this;
and the occurrence that is credited lies inside that of no longer identifier. -/
theorem resolve_leftmost_longest (table : Provenance)
    (hne : ∀ n ∈ table, n.value ≠ []) (category : Category)
    (region : List Char) (claimed : List Nat) :
    ((table.resolve category region claimed).1 = none ↔
      ∀ n ∈ table, n.category = category → ¬ n.value <:+: region) ∧
    (∀ e len, IsLeast (table.places category region) e →
      IsGreatest (table.lengthsAt category region e) len →
      ∃ first rest n, table.standing category region e len = first :: rest ∧
        table[((first :: rest).find? fun i => i ∉ claimed).getD first]? =
          some n ∧
        (table.resolve category region claimed).1 = some n.layer) ∧
    table.choose? category region claimed =
      (table.searchAll? category region claimed).map Match.index ∧
    ∀ i, table.choose? category region claimed = some i →
      ∃ n o, table[i]? = some n ∧ n.category = category ∧
        IsLeast (table.places category region) o ∧
        occursAt n.value o region = true ∧
        ∀ long ∈ table, long.category = category →
          byteLength n.value < byteLength long.value →
          ∀ start, occursAt long.value start region = true →
            ¬ (start ≤ o ∧ o + byteLength n.value ≤
              start + byteLength long.value) := by
  have hfirst : ∀ e len, IsLeast (table.places category region) e →
      IsGreatest (table.lengthsAt category region e) len →
      ∃ first rest n, table.standing category region e len = first :: rest ∧
        table[((first :: rest).find? fun i => i ∉ claimed).getD first]? =
          some n ∧
        (table.resolve category region claimed).1 = some n.layer := by
    intro e len he hlen
    have hchoose := choose?_eq hne he hlen claimed
    cases hstanding : table.standing category region e len with
    | nil =>
        rw [hstanding] at hchoose
        rw [(choose?_eq_none hne).mp hchoose] at he
        exact absurd he.1 (Set.notMem_empty e)
    | cons first rest =>
        rw [hstanding, firstFree?_cons] at hchoose
        obtain ⟨n, hget, -⟩ := stands_of_choose? hne he hlen hchoose
        exact ⟨first, rest, n, rfl, hget, by
          rw [resolve_fst, hchoose, Option.bind_some, hget, Option.map_some]⟩
  refine ⟨?_, hfirst, ?_, ?_⟩
  · rw [← places_eq_empty]
    constructor
    · refine fun hnone => Set.not_nonempty_iff_eq_empty.mp fun hsome => ?_
      obtain ⟨e, len, he, hlen⟩ := exists_least_greatest hsome
      obtain ⟨_, _, n, -, -, hlayer⟩ := hfirst e len he hlen
      rw [hnone] at hlayer
      cases hlayer
    · intro h
      rw [resolve_fst, choose?_of_empty h, Option.bind_none]
  · rcases (table.places category region).eq_empty_or_nonempty with h | h
    · rw [choose?_of_empty h, searchAll?, foldl_prefer_of_empty h,
        Option.map_none]
    · obtain ⟨e, len, he, hlen⟩ := exists_least_greatest h
      rw [choose?_eq hne he hlen, searchAll?,
        foldl_prefer_eq hne (by nofun) he hlen]
  · intro i hi
    have hsome : (table.places category region).Nonempty := by
      refine Set.nonempty_iff_ne_empty.mpr fun h => ?_
      rw [choose?_of_empty h] at hi
      cases hi
    obtain ⟨e, len, he, hlen⟩ := exists_least_greatest hsome
    obtain ⟨n, hget, hstands⟩ := stands_of_choose? hne he hlen hi
    obtain ⟨hcat, hat, hlength⟩ := stands_iff.mp hstands
    refine ⟨n, e, hget, hcat, he, hat, ?_⟩
    rintro long hlong hlongcat hlonger start hstart ⟨hle, -⟩
    obtain rfl : start = e :=
      Nat.le_antisymm hle (he.2 ⟨long, hlong, hlongcat, hstart⟩)
    have : byteLength long.value ≤ len :=
      hlen.2 ⟨long, hlong, hlongcat, hstart, rfl⟩
    omega

/-- Of a price and an original price, the identifier of the one stands in that
of the other. -/
def priceTable : Provenance :=
  [⟨"PRICE".toList, "price", .texts⟩,
    ⟨"ORIG%20PRICE".toList, "original", .texts⟩,
    ⟨"PRICE".toList, "again", .texts⟩]

theorem resolve_leftmost_longest_priceTable :
    (∀ n ∈ priceTable, n.value ≠ []) ∧
      (priceTable.resolve .texts "l_text:ORIG%20PRICE".toList []).1 =
        some "original" ∧
      ((priceTable.resolve .texts "l_text:PRICE".toList [0]).1 = none ↔
        ∀ n ∈ priceTable, n.category = .texts →
          ¬ n.value <:+: "l_text:PRICE".toList) ∧
      (priceTable.resolve .texts "l_text:PRICE".toList [0]).1 = some "again" :=
  ⟨by decide, by decide +kernel,
    (resolve_leftmost_longest priceTable (by decide) .texts
      "l_text:PRICE".toList [0]).1,
    by decide +kernel⟩

end Placard.Provenance
