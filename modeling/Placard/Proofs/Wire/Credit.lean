import Placard.Proofs.Text.Search
import Placard.Wire.Provenance

/-!
# Which layer a command is credited to

Two of the searches in a table of identifiers always come out right.

A command on variables is credited to the variable that it names first. All
identifiers of variables begin with a dollar sign and have no low line in them,
and in a command a low line follows every name. So nothing is found in front of
the first dollar sign; what is found there is the name that stands there or the
beginning of it, and a longer match counts more. The identifier is not thrown
out for standing inside a longer one either, because a longer one is not there.

A text or a picture is its own identifier. Of several layers that show the same
the first that has not been used is taken, so as long as commands are read in
the order of the table, and every one before has been used, it is the right one.
-/

namespace Placard.Provenance

open Text

variable {table : Provenance}

/-! ## Identifiers of variables -/

/-- The identifiers of variables are a dollar sign and a name without low
lines. -/
def DollarNames (table : Provenance) : Prop :=
  ∀ n ∈ table, n.category = .«variables» → ∃ r, n.value = '$' :: r ∧ '_' ∉ r

/-- Where another identifier is found in a command: behind the first dollar
sign, or there; and then it is the name there, or shorter. -/
theorem place_of_found (hnames : table.DollarNames) {r pre tail : List Char}
    (hr : '_' ∉ r) (hpre : '$' ∉ pre) {n : Needle} (hn : n ∈ table)
    (hcat : n.category = .«variables») {start : Nat}
    (h : start ∈ offsets n.value (pre ++ ('$' :: r) ++ '_' :: tail)) :
    byteLength pre < start ∨
      start = byteLength pre ∧
        (n.value = '$' :: r ∨ byteLength n.value < byteLength ('$' :: r)) := by
  obtain ⟨r', hvalue, hr'⟩ := hnames n hn hcat
  obtain ⟨before, after, hsplit, rfl⟩ := exists_of_mem_offsets h
  rw [hvalue, List.append_assoc, List.cons_append] at hsplit
  rcases eq_or_lt_of_occurrence hpre hsplit with ⟨rfl, hrest⟩ | hlt
  · refine Or.inr ⟨rfl, ?_⟩
    rw [hvalue]
    rcases eq_or_shorter hr' hr hrest with rfl | hlt
    · exact Or.inl rfl
    · refine Or.inr ?_
      rw [byteLength_cons, byteLength_cons]
      omega
  · exact Or.inl hlt

/-- The identifier that stands at the first dollar sign is found there. -/
theorem position?_first (hnames : table.DollarNames) {r pre : List Char}
    (hr : '_' ∉ r) (hpre : '$' ∉ pre) (tail : List Char) {n : Needle}
    (hcat : n.category = .«variables») (hvalue : n.value = '$' :: r) :
    table.position? n (pre ++ ('$' :: r) ++ '_' :: tail) =
      some (byteLength pre) := by
  obtain ⟨rest, hoffsets⟩ : ∃ rest,
      offsets ('$' :: r) (pre ++ ('$' :: r) ++ '_' :: tail) =
        byteLength pre :: rest :=
    offsets_of_first hpre _
  rw [position?, hvalue, hoffsets]
  refine List.find?_cons_of_pos ?_
  rw [Bool.not_eq_true', List.any_eq_false]
  rintro ⟨first, last⟩ hcover
  simp only [List.mem_flatMap, List.mem_map, covering, List.mem_filter]
    at hcover
  obtain ⟨long, ⟨hlong, hcovers⟩, start, hstart, heq⟩ := hcover
  cases heq
  simp only [Bool.and_eq_true, decide_eq_true_eq] at hcovers
  obtain ⟨⟨⟨hlongcat, -⟩, hlonger⟩, -⟩ := hcovers
  rw [hvalue] at hlonger
  have hplace :=
    place_of_found hnames hr hpre hlong (hlongcat.trans hcat) hstart
  simp only [Bool.and_eq_true, decide_eq_true_eq, not_and]
  intro hfirst
  rcases hplace with hlt | ⟨-, heq | hlt⟩
  · omega
  · rw [heq] at hlonger
    omega
  · omega

/-! ## The best match -/

/-- The better of the best match so far and that of one more identifier. -/
def prefer (table : Provenance) (category : Category) (region : List Char)
    (claimed : List Nat) (best : Option Match) (p : Needle × Nat) :
    Option Match :=
  if p.1.category ≠ category then best else
  match table.position? p.1 region with
  | none => best
  | some start =>
    match best with
    | none => some ⟨start, byteLength p.1.value, p.2⟩
    | some b =>
      if Match.beats ⟨start, byteLength p.1.value, p.2⟩ b claimed then
        some ⟨start, byteLength p.1.value, p.2⟩
      else some b

/-- The better of the best match so far and one more. -/
def better (claimed : List Nat) (best : Option Match) (m : Match) :
    Option Match :=
  match best with
  | none => some m
  | some b => if m.beats b claimed then some m else some b

/-- An identifier that is not found changes nothing, and what is found of one is
set against the best match so far. -/
theorem prefer_cases (table : Provenance) (category : Category)
    (region : List Char) (claimed : List Nat) (best : Option Match)
    (p : Needle × Nat) :
    (prefer table category region claimed best p = best ∧
      (p.1.category = category →
        ∀ start, table.position? p.1 region ≠ some start)) ∨
    ∃ start, p.1.category = category ∧ table.position? p.1 region = some start ∧
      prefer table category region claimed best p =
        better claimed best ⟨start, byteLength p.1.value, p.2⟩ := by
  unfold prefer
  split
  · next hcat => exact Or.inl ⟨rfl, fun h => absurd h hcat⟩
  · next hcat =>
      split
      · next hnone =>
          refine Or.inl ⟨rfl, fun _ start hstart => ?_⟩
          rw [hnone] at hstart
          cases hstart
      · next start hstart =>
          exact Or.inr ⟨start, Decidable.of_not_not hcat, hstart, rfl⟩

theorem search?_eq_foldl (category : Category) (region : List Char)
    (claimed : List Nat) :
    table.search? category region claimed =
      table.zipIdx.foldl (prefer table category region claimed) none := rfl

section Prefer

variable {category : Category} {region : List Char} {claimed : List Nat}
  {Top Low : Match → Prop}

/-- Two kinds of matches, of which one beats the other, stay apart, and a match
of the better kind is not lost. -/
theorem better_kind (htop : ∀ m b, Top m → Low b → m.beats b claimed = true)
    (hlow : ∀ m b, Low m → Top b → m.beats b claimed = false) {m : Match}
    (hm : Top m ∨ Low m) {best : Option Match}
    (hbest : ∀ b ∈ best, Top b ∨ Low b) :
    (∀ b ∈ better claimed best m, Top b ∨ Low b) ∧
      ((∃ b ∈ best, Top b) ∨ Top m → ∃ b ∈ better claimed best m, Top b) := by
  unfold better
  split
  · refine ⟨fun b hb => Option.mem_some.mp hb ▸ hm, ?_⟩
    rintro (⟨_, hb, -⟩ | h)
    · cases hb
    · exact ⟨m, rfl, h⟩
  · next b =>
      have hb := hbest b rfl
      split
      · next hbeats =>
          refine ⟨fun _ hb' => Option.mem_some.mp hb' ▸ hm, ?_⟩
          rintro (⟨b', hb', h⟩ | h)
          · rw [Option.mem_some] at hb'
            refine ⟨m, rfl, hm.resolve_right fun hl => ?_⟩
            rw [hlow _ _ hl (hb' ▸ h)] at hbeats
            cases hbeats
          · exact ⟨m, rfl, h⟩
      · next hbeats =>
          refine ⟨hbest, ?_⟩
          rintro (h | h)
          · exact h
          · exact ⟨b, rfl, hb.resolve_right fun hl => hbeats (htop _ _ h hl)⟩

/-- The step: what is so of the better of two matches is so of what is found
next. -/
theorem prefer_kind (htop : ∀ m b, Top m → Low b → m.beats b claimed = true)
    (hlow : ∀ m b, Low m → Top b → m.beats b claimed = false)
    {p : Needle × Nat}
    (hp : p.1.category = category →
      ∀ start, table.position? p.1 region = some start →
      Top ⟨start, byteLength p.1.value, p.2⟩ ∨
        Low ⟨start, byteLength p.1.value, p.2⟩)
    {best : Option Match} (hbest : ∀ b ∈ best, Top b ∨ Low b) :
    (∀ b ∈ prefer table category region claimed best p, Top b ∨ Low b) ∧
      ((∃ b ∈ best, Top b) ∨ (p.1.category = category ∧ ∃ start,
        table.position? p.1 region = some start ∧
          Top ⟨start, byteLength p.1.value, p.2⟩) →
        ∃ b ∈ prefer table category region claimed best p, Top b) := by
  rcases prefer_cases table category region claimed best p with
    ⟨hsame, hnone⟩ | ⟨start, hcat, hstart, hbetter⟩
  · rw [hsame]
    exact ⟨hbest, fun h => h.resolve_right fun ⟨hcat, start, hstart, _⟩ => hnone
      hcat start hstart⟩
  · rw [hbetter]
    obtain ⟨hkinds, hkept⟩ := better_kind htop hlow (hp hcat start hstart) hbest
    refine ⟨hkinds, fun h => hkept (h.imp_right ?_)⟩
    rintro ⟨-, start', hstart', h⟩
    rw [hstart, Option.some.injEq] at hstart'
    exact hstart' ▸ h

/-- The best match of all is of the better kind, if there is one of it. -/
theorem foldl_prefer (htop : ∀ m b, Top m → Low b → m.beats b claimed = true)
    (hlow : ∀ m b, Low m → Top b → m.beats b claimed = false)
    {ns : List (Needle × Nat)}
    (hkinds : ∀ p ∈ ns, p.1.category = category → ∀ start,
      table.position? p.1 region = some start →
        Top ⟨start, byteLength p.1.value, p.2⟩ ∨
          Low ⟨start, byteLength p.1.value, p.2⟩)
    {best : Option Match} (hbest : ∀ b ∈ best, Top b ∨ Low b)
    (hexists : (∃ b ∈ best, Top b) ∨
      ∃ p ∈ ns, p.1.category = category ∧ ∃ start,
      table.position? p.1 region = some start ∧
        Top ⟨start, byteLength p.1.value, p.2⟩) :
    ∃ b ∈ ns.foldl (prefer table category region claimed) best, Top b := by
  induction ns generalizing best with
  | nil =>
      rcases hexists with h | ⟨_, h, -⟩
      · exact h
      · cases h
  | cons p ns ih =>
      obtain ⟨hbest', htop'⟩ :=
        prefer_kind htop hlow (hkinds p List.mem_cons_self) hbest
      refine ih (fun q hq => hkinds q (List.mem_cons_of_mem _ hq)) hbest' ?_
      rcases hexists with h | ⟨q, hq, h⟩
      · exact Or.inl (htop' (Or.inl h))
      · rcases List.mem_cons.mp hq with rfl | hq
        · exact Or.inl (htop' (Or.inr h))
        · exact Or.inr ⟨q, hq, h⟩

end Prefer

/-! ## Variables -/

/-- A match of the layer, with the name that stands at the first dollar sign. -/
def Match.Names (table : Provenance) (layer : String) (start length : Nat)
    (m : Match) : Prop :=
  (table[m.index]?).map Needle.layer = some layer ∧ m.start = start ∧
    m.length = length

/-- A match further on, or with the beginning of that name only. -/
def Match.Misses (start length : Nat) (m : Match) : Prop :=
  start < m.start ∨ m.start = start ∧ m.length < length

theorem Match.beats_of_names {layer : String} {start length : Nat} {m b : Match}
    (hm : m.Names table layer start length) (hb : b.Misses start length)
    (claimed : List Nat) : m.beats b claimed = true := by
  obtain ⟨-, hstart, hlength⟩ := hm
  simp only [beats, Bool.or_eq_true, Bool.and_eq_true, decide_eq_true_eq]
  rcases hb with hb | ⟨hb, hlt⟩
  · exact Or.inl (Or.inl (by omega))
  · exact Or.inl (Or.inr (by omega))

theorem Match.not_beats_of_misses {layer : String} {start length : Nat}
    {m b : Match} (hm : m.Misses start length)
    (hb : b.Names table layer start length) (claimed : List Nat) :
    m.beats b claimed = false := by
  obtain ⟨-, hstart, hlength⟩ := hb
  refine Bool.eq_false_iff.mpr fun h => ?_
  simp only [beats, Bool.or_eq_true, Bool.and_eq_true, decide_eq_true_eq] at h
  rcases hm with hm | ⟨hm, hlt⟩ <;> omega

/-- A command is longer than a name, so it is none of the identifiers. -/
theorem exact_eq_nil (hnames : table.DollarNames) (pre r tail : List Char) :
    table.exact .«variables» (pre ++ ('$' :: r) ++ '_' :: tail) = [] := by
  unfold exact
  rw [List.map_eq_nil_iff, List.filter_eq_nil_iff]
  rintro ⟨n, i⟩ hmem hwhole
  simp only [Bool.and_eq_true, decide_eq_true_eq, beq_iff_eq] at hwhole
  obtain ⟨r', hvalue, hr'⟩ :=
    hnames n (List.fst_mem_of_mem_zipIdx hmem) hwhole.1
  have hlow : '_' ∈ n.value :=
    hwhole.2 ▸ List.mem_append_right _ List.mem_cons_self
  rw [hvalue] at hlow
  rcases List.mem_cons.mp hlow with h | h
  · exact absurd h (by decide)
  · exact hr' h

/-- Of the matches in a command the one of its own variable is the best. -/
theorem search?_names (hnames : table.DollarNames) {n : Needle}
    (hn : n ∈ table) (hcat : n.category = .«variables») {r pre : List Char}
    (hvalue : n.value = '$' :: r) (hr : '_' ∉ r) (hpre : '$' ∉ pre)
    (tail : List Char)
    (hsame : ∀ n' ∈ table, n'.category = .«variables» → n'.value = n.value →
      n'.layer = n.layer) (claimed : List Nat) :
    ∃ m ∈ table.search? .«variables» (pre ++ ('$' :: r) ++ '_' :: tail) claimed,
      Match.Names table n.layer (byteLength pre) (byteLength ('$' :: r)) m := by
  have hkinds : ∀ p ∈ table.zipIdx, p.1.category = .«variables» → ∀ start,
      table.position? p.1 (pre ++ ('$' :: r) ++ '_' :: tail) = some start →
        Match.Names table n.layer (byteLength pre) (byteLength ('$' :: r))
          ⟨start, byteLength p.1.value, p.2⟩ ∨
        Match.Misses (byteLength pre) (byteLength ('$' :: r))
          ⟨start, byteLength p.1.value, p.2⟩ := by
    rintro ⟨n', i⟩ hmem hcat' start hstart
    have hn' := List.fst_mem_of_mem_zipIdx hmem
    have hplace := place_of_found hnames hr hpre hn' hcat'
      (List.mem_of_find?_eq_some hstart)
    rcases hplace with hlt | ⟨heq, hwhole | hlt⟩
    · exact Or.inr (Or.inl hlt)
    · refine Or.inl ⟨?_, heq, congrArg byteLength hwhole⟩
      rw [List.mem_zipIdx_iff_getElem?.mp hmem, Option.map_some,
        hsame n' hn' hcat' (hwhole.trans hvalue.symm)]
    · exact Or.inr (Or.inr ⟨heq, hlt⟩)
  have hown : ∃ p ∈ table.zipIdx, p.1.category = .«variables» ∧ ∃ start,
      table.position? p.1 (pre ++ ('$' :: r) ++ '_' :: tail) = some start ∧
        Match.Names table n.layer (byteLength pre) (byteLength ('$' :: r))
          ⟨start, byteLength p.1.value, p.2⟩ := by
    obtain ⟨i, hi, rfl⟩ := List.getElem_of_mem hn
    have hget : table[i]? = some table[i] := List.getElem?_eq_getElem hi
    refine ⟨(table[i], i), List.mem_zipIdx_iff_getElem?.mpr hget, hcat,
      byteLength pre,
      position?_first hnames hr hpre tail hcat hvalue, ?_, rfl,
      congrArg byteLength hvalue⟩
    rw [hget, Option.map_some]
  rw [search?_eq_foldl]
  exact foldl_prefer (fun _ _ ht hl => Match.beats_of_names ht hl claimed)
    (fun _ _ hl ht => Match.not_beats_of_misses hl ht claimed) hkinds
    nofun (Or.inr hown)

/-- A command is credited to the variable that it names first. -/
theorem resolve_variable (hnames : table.DollarNames) {n : Needle}
    (hn : n ∈ table) (hcat : n.category = .«variables») {r pre : List Char}
    (hvalue : n.value = '$' :: r) (hr : '_' ∉ r) (hpre : '$' ∉ pre)
    (tail : List Char)
    (hsame : ∀ n' ∈ table, n'.category = .«variables» → n'.value = n.value →
      n'.layer = n.layer) (claimed : List Nat) :
    table.resolve .«variables» (pre ++ ('$' :: r) ++ '_' :: tail) claimed =
      (some n.layer, claimed) := by
  obtain ⟨m, hm, hlayer, -, -⟩ :=
    search?_names hnames hn hcat hvalue hr hpre tail hsame claimed
  rw [Option.mem_def] at hm
  have hchoose :
      table.choose? .«variables» (pre ++ ('$' :: r) ++ '_' :: tail) claimed =
        some m.index := by
      rw [choose?, exact_eq_nil hnames]
      simp only [hm, Option.map_some]
  rw [resolve, hchoose]
  simp only [hlayer, if_true]

/-! ## Texts and pictures -/

/-- If every identifier before an unused one that is the same has been used, it
is the one that is taken. -/
theorem resolve_whole {front back : Provenance} {n : Needle}
    (hcat : n.category ≠ .«variables») {claimed : List Nat}
    (hfree : front.length ∉ claimed)
    (hused : ∀ i n', front[i]? = some n' → n'.category = n.category →
      i ∈ claimed) :
    resolve (front ++ n :: back) n.category n.value claimed =
      (some n.layer, front.length :: claimed) := by
  have hexact : ∃ earlier later,
      exact (front ++ n :: back) n.category n.value =
        earlier ++ front.length :: later ∧ ∀ i ∈ earlier, i ∈ claimed := by
    unfold exact
    rw [List.zipIdx_append, List.zipIdx_cons, List.filter_append,
      List.filter_cons_of_pos, List.map_append, List.map_cons, Nat.zero_add]
    · refine ⟨_, _, rfl, ?_⟩
      intro i hi
      obtain ⟨⟨n', i⟩, hmem, rfl⟩ := List.mem_map.mp hi
      rw [List.mem_filter, List.mem_zipIdx_iff_getElem?] at hmem
      simp only [Bool.and_eq_true, decide_eq_true_eq] at hmem
      exact hused i n' hmem.1 hmem.2.1
    · simp only [beq_self_eq_true, Bool.and_true, decide_true]
  obtain ⟨earlier, later, hexact, hearlier⟩ := hexact
  have hfind : (earlier ++ front.length :: later).find? (fun i => i ∉ claimed) =
      some front.length := by
    have hnone : earlier.find? (fun i => i ∉ claimed) = none :=
      List.find?_eq_none.mpr fun i hi => by simpa using hearlier i hi
    rw [List.find?_append, hnone, Option.none_or, List.find?_cons,
      decide_eq_true hfree]
  have hchoose : choose? (front ++ n :: back) n.category n.value claimed =
      some front.length := by
    obtain ⟨first, rest, hcons⟩ := List.exists_cons_of_ne_nil
      (List.append_ne_nil_of_right_ne_nil earlier
        (List.cons_ne_nil front.length later))
    rw [choose?, hexact, hcons]
    simp only []
    rw [← hcons, hfind, Option.getD_some]
  rw [resolve, hchoose]
  simp only [List.getElem?_append_right (Nat.le_refl _), Nat.sub_self,
    List.getElem?_cons_zero, Option.map_some, if_neg hcat]

end Placard.Provenance
