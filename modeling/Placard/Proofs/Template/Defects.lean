import Placard.Proofs.Template.Validity

/-!
# Every defect is reported once

`Defect` names what keeps a template out of every library and where that is, and
`Arises` says of each when it is there, by looking at the template alone. A
template is accepted as it is if no defect arises, and otherwise refused with
one violation for each that does, in the order of the rules and then of the
layers.

The check walks along the layers with the keys that it has seen, of which it
leaves out those that are no proper keys. A defect speaks of all the layers in
front of it. So the walk is first said again with those layers in place of the
keys, as a `sweep`, which the two rules about layers have in common; that the
keys seen are the proper ones in front is the invariant.
-/

namespace Placard

open Text

/-- Where the layer is put, relative to the point of the canvas that it
names. -/
def Layer.position (l : Layer) : Float × Float :=
  match l.body with
  | .text t => (t.x, t.y)
  | .image i => (i.x, i.y)

/-- What keeps a template out of a library. Layers are named by their places. -/
inductive Defect where
  | canvas (size : Size)
  | blankKey (place : Nat)
  | reservedKey (place : Nat)
  | takenKey (place : Nat) (key : String)
  | position (place : Nat) (key : String)
  | area (place : Nat) (key : String) (width height : Float)
deriving DecidableEq

namespace Defect

/-- A template has this defect. -/
def Arises (t : Template) : Defect → Prop
  | canvas size => t.canvas = size ∧ (t.width = 0 ∨ t.height = 0)
  | blankKey place => ∃ l, t.layers[place]? = some l ∧ trim l.key = ""
  | reservedKey place => ∃ l, t.layers[place]? = some l ∧ l.key = canvasKey
  | takenKey place key => ∃ l, t.layers[place]? = some l ∧ l.key = key ∧
    trim key ≠ "" ∧ key ≠ canvasKey ∧ ∃ l' ∈ t.layers.take place, l'.key = key
  | position place key => ∃ l, t.layers[place]? = some l ∧ l.key = key ∧
    ¬ (l.position.1.isFinite = true ∧ l.position.2.isFinite = true)
  | area place key width height =>
    ∃ image, t.layers[place]? = some ⟨key, .image image⟩ ∧
      image.width = width ∧ image.height = height ∧ ¬ (0 < width ∧ 0 < height)

/-- How a defect is reported. -/
def violation : Defect → Violation
  | canvas size => {
      rule := "canvas_dimensions"
      severity := .error
      message := "Canvas must be positive, got " ++ size.text
      layer := none
      remedy := "Set width and height to at least 1 pixel" }
  | blankKey _ => Check.blankKey
  | reservedKey _ => Check.reservedKey canvasKey
  | takenKey _ key => Check.takenKey key
  | position _ key => {
      rule := "layer_geometry"
      severity := .error
      message := "Layer position is not a finite number"
      layer := some key
      remedy := "Provide numeric x and y" }
  | area _ key width height => {
      rule := "layer_geometry"
      severity := .error
      message :=
        "Image size must be positive, got " ++ Decimal.plain.render
          width ++ "x" ++ Decimal.plain.render height
      layer := some key
      remedy := "Set image width and height" }

theorem severity_violation (d : Defect) : d.violation.severity = .error := by
  cases d <;> rfl

/-! ## The order of reports -/

/-- The rule that finds the defect: that of the canvas, of the keys, or of what
is drawn. -/
def rule : Defect → Nat
  | canvas _ => 0
  | blankKey _ | reservedKey _ | takenKey _ _ => 1
  | position _ _ | area _ _ _ _ => 2

/-- The place of the layer that the defect is of. -/
def place : Defect → Nat
  | canvas _ => 0
  | blankKey i | reservedKey i | takenKey i _ | position i _ | area i _ _ _ => i

/-- Of two defects that a rule finds at one layer, the place of this one. -/
def turn : Defect → Nat
  | area _ _ _ _ => 1
  | _ => 0

/-- The order of the rules, of the layers under one rule, and of what a rule
looks at first in one layer. -/
def Precedes (d e : Defect) : Prop :=
  d.rule < e.rule ∨
    d.rule = e.rule ∧ (d.place < e.place ∨ d.place = e.place ∧ d.turn < e.turn)

end Defect

/-! ## Walking along the layers -/

namespace Check

/-- What `find` finds at each layer of a list, given its place and those in
front of it. -/
def sweep (find : Nat → List Layer → Layer → List Defect) (place : Nat)
    (before : List Layer) : List Layer → List Defect
  | [] => []
  | l :: rest =>
    find place before l ++ sweep find (place + 1) (before ++ [l]) rest

/-- What is wrong with the key of a layer, behind the layers before it. -/
def keyDefect? (place : Nat) (before : List Layer) (l : Layer) :
    Option Defect :=
  if allBlank l.key then some (.blankKey place)
  else if l.key = canvasKey then some (.reservedKey place)
  else if l.key ∈ before.map Layer.key then some (.takenKey place l.key)
  else none

/-- What is wrong with the position of a layer. -/
def positionDefect? (place : Nat) (l : Layer) : Option Defect :=
  if finitePosition l then none else some (.position place l.key)

/-- What is wrong with the sides of a layer. -/
def areaDefect? (place : Nat) (l : Layer) : Option Defect :=
  match l.body with
  | .text _ => none
  | .image i =>
    if 0 < i.width && 0 < i.height then none
    else some (.area place l.key i.width i.height)

/-- What is wrong with the key of a layer behind others. -/
def keyDefects (place : Nat) (before : List Layer) (l : Layer) : List Defect :=
  (keyDefect? place before l).toList

/-- What is wrong with the numbers of a layer, whatever is in front of it. -/
def geometryDefects (place : Nat) (_ : List Layer) (l : Layer) : List Defect :=
  (positionDefect? place l).toList ++ (areaDefect? place l).toList

section Sweep

variable {find : Nat → List Layer → Layer → List Defect} {place : Nat}
  {before ls : List Layer} {d : Defect}

theorem mem_sweep : d ∈ sweep find place before ls ↔
    ∃ i l, ls[i]? = some l ∧ d ∈ find (place + i) (before ++ ls.take i) l := by
  induction ls generalizing place before with
  | nil => simp [sweep]
  | cons l ls ih =>
      rw [sweep, List.mem_append, ih]
      constructor
      · rintro (hd | ⟨i, l', hl', hd⟩)
        · exact ⟨0, l, rfl, by rwa [List.take_zero, List.append_nil]⟩
        · refine ⟨i + 1, l', hl', ?_⟩
          rwa [List.take_succ_cons, ← List.singleton_append,
            ← List.append_assoc, ← Nat.succ_add_eq_add_succ]
      · rintro ⟨_ | i, l', hl', hd⟩
        · cases hl'
          rw [List.take_zero, List.append_nil] at hd
          exact Or.inl hd
        · refine Or.inr ⟨i, l', hl', ?_⟩
          rwa [List.take_succ_cons, ← List.singleton_append,
            ← List.append_assoc, ← Nat.succ_add_eq_add_succ] at hd

/-- What is found by one rule, which knows the place that it looks at. -/
def IsRule (rule : Nat) (find : Nat → List Layer → Layer → List Defect) :
    Prop :=
  ∀ place before l, ∀ d ∈ find place before l, d.rule = rule ∧ d.place = place

theorem rule_of_mem_sweep {rule : Nat} (hfind : IsRule rule find)
    (h : d ∈ sweep find place before ls) : d.rule = rule := by
  obtain ⟨i, l, -, hd⟩ := mem_sweep.mp h
  exact (hfind _ _ l d hd).1

/-- What one rule finds layer by layer is in order, if what it finds at a layer
is. -/
theorem pairwise_sweep {rule : Nat} (hfind : IsRule rule find)
    (horder : ∀ place before l,
      (find place before l).Pairwise Defect.Precedes) :
    (sweep find place before ls).Pairwise Defect.Precedes := by
  induction ls generalizing place before with
  | nil => exact List.Pairwise.nil
  | cons l ls ih =>
      refine List.pairwise_append.mpr ⟨horder place before l, ih,
        fun d hd e he => ?_⟩
      obtain ⟨hrule, hd⟩ := hfind _ _ l d hd
      obtain ⟨i, l', -, he⟩ := mem_sweep.mp he
      obtain ⟨hrule', he⟩ := hfind _ _ l' e he
      exact Or.inr ⟨hrule.trans hrule'.symm, Or.inl (by omega)⟩

end Sweep

section Find

variable {place : Nat} {before ls : List Layer} {l : Layer} {d : Defect}

/-! ### What is found at a layer -/

theorem allBlank_iff {s : String} : allBlank s = true ↔ trim s = "" := by
  have hdrop (cs : List Char) :
      cs.dropWhile isBlank = [] ↔ ∀ c ∈ cs, isBlank c = true :=
    List.dropWhile_eq_nil_iff
  rw [allBlank, trim, String.ofList_eq_empty_iff, trimChars,
    List.reverse_eq_nil_iff, hdrop, List.all_eq_true]
  simp only [List.mem_reverse]
  refine ⟨fun h c hc => h c ((List.dropWhile_sublist _).mem hc), fun h => ?_⟩
  -- The rest behind the blanks in front begins with what is not blank, if with
  -- anything.
  have hhead := List.head?_dropWhile_not isBlank s.toList
  cases hrest : s.toList.dropWhile isBlank with
  | nil => exact (hdrop _).mp hrest
  | cons c rest =>
      rw [hrest] at h hhead
      simp [h c List.mem_cons_self] at hhead

theorem keyDefect?_eq_some : keyDefect? place before l = some d ↔
    (trim l.key = "" ∧ d = .blankKey place) ∨
    (l.key = canvasKey ∧ d = .reservedKey place) ∨
    (trim l.key ≠ "" ∧ l.key ≠ canvasKey ∧ l.key ∈ before.map Layer.key ∧
      d = .takenKey place l.key) := by
  have hcanvas : allBlank canvasKey = false := by decide
  simp only [ne_eq, ← allBlank_iff, keyDefect?]
  by_cases hblank : allBlank l.key = true
  · have hne : l.key ≠ canvasKey := fun h => by
      rw [h, hcanvas] at hblank
      cases hblank
    simp [hblank, hne, @eq_comm _ d]
  · by_cases hkey : l.key = canvasKey
    · simp [hcanvas, hkey, @eq_comm _ d]
    · by_cases htaken : l.key ∈ before.map Layer.key
      · rw [if_neg hblank, if_neg hkey, if_pos htaken]
        simp only [hblank, hkey, htaken, @eq_comm _ d, Option.some.injEq,
          false_and, false_or, Bool.false_eq_true, not_false_eq_true, true_and]
      · rw [if_neg hblank, if_neg hkey, if_neg htaken]
        simp [hblank, hkey, htaken]

theorem finitePosition_iff : finitePosition l = true ↔
    l.position.1.isFinite = true ∧ l.position.2.isFinite = true := by
  unfold finitePosition Layer.position
  cases l.body <;> exact Bool.and_eq_true_iff

theorem positionDefect?_eq_some : positionDefect? place l = some d ↔
    ¬ (l.position.1.isFinite = true ∧ l.position.2.isFinite = true) ∧
      d = .position place l.key := by
  rw [positionDefect?, ← finitePosition_iff]
  cases finitePosition l <;> simp [@eq_comm _ d]

theorem areaDefect?_eq_some : areaDefect? place l = some d ↔
    ∃ image, l.body = .image image ∧ ¬ (0 < image.width ∧ 0 < image.height) ∧
      d = .area place l.key image.width image.height := by
  unfold areaDefect?
  cases l.body with
  | text t => simp
  | image i =>
      simp only [LayerBody.image.injEq, exists_eq_left', Bool.and_eq_true,
        decide_eq_true_eq]
      split
      · next h => simp [h]
      · next h => simp [h, @eq_comm _ d]

theorem isRule_keyDefects : IsRule 1 keyDefects := by
  intro place before l d h
  rw [keyDefects, Option.mem_toList, keyDefect?_eq_some] at h
  rcases h with ⟨-, rfl⟩ | ⟨-, rfl⟩ | ⟨-, -, -, rfl⟩ <;> exact ⟨rfl, rfl⟩

theorem isRule_geometryDefects : IsRule 2 geometryDefects := by
  intro place before l d h
  simp only [geometryDefects, List.mem_append, Option.mem_toList,
    positionDefect?_eq_some, areaDefect?_eq_some] at h
  rcases h with ⟨-, rfl⟩ | ⟨image, -, -, rfl⟩ <;> exact ⟨rfl, rfl⟩

theorem pairwise_toList {α : Type} {R : α → α → Prop} (a? : Option α) :
    a?.toList.Pairwise R := by
  cases a? with
  | none => exact List.Pairwise.nil
  | some a => exact List.pairwise_singleton R a

theorem pairwise_geometryDefects (place : Nat) (before : List Layer)
    (l : Layer) :
    (geometryDefects place before l).Pairwise Defect.Precedes := by
  refine List.pairwise_append.mpr ⟨pairwise_toList _, pairwise_toList _,
    fun d hd e he => ?_⟩
  obtain ⟨-, rfl⟩ := positionDefect?_eq_some.mp (Option.mem_toList.mp hd)
  obtain ⟨image, -, -, rfl⟩ := areaDefect?_eq_some.mp (Option.mem_toList.mp he)
  exact Or.inr ⟨rfl, Or.inr ⟨rfl, Nat.zero_lt_one⟩⟩

/-! ### The reports of the rules -/

/-- The keys that the check has seen are the proper keys of the layers in
front. -/
def Knows (seen : List String) (before : List Layer) : Prop :=
  ∀ key, key ∈ seen ↔ key ∈ before.map Layer.key ∧ allBlank key = false ∧
    key ≠ canvasKey

section Knows

variable {seen : List String}

theorem mem_keys_snoc {key : String} : key ∈ (before ++ [l]).map Layer.key ↔
    key ∈ before.map Layer.key ∨ key = l.key := by
  rw [List.map_append, List.mem_append, List.map_singleton, List.mem_singleton]

/-- A layer whose key is not proper, or is known, adds nothing to the keys
seen. -/
theorem Knows.skip (h : Knows seen before)
    (hl : allBlank l.key = false → l.key ≠ canvasKey → l.key ∈ seen) :
    Knows seen (before ++ [l]) := by
  intro key
  rw [mem_keys_snoc]
  refine ⟨fun hkey => ⟨Or.inl ((h key).mp hkey).1, ((h key).mp hkey).2⟩, ?_⟩
  rintro ⟨hkey | rfl, hblank, hcanvas⟩
  · exact (h key).mpr ⟨hkey, hblank, hcanvas⟩
  · exact hl hblank hcanvas

theorem Knows.cons (h : Knows seen before) (hblank : allBlank l.key = false)
    (hcanvas : l.key ≠ canvasKey) : Knows (l.key :: seen) (before ++ [l]) := by
  intro key
  rw [mem_keys_snoc, List.mem_cons, h key]
  constructor
  · rintro (rfl | ⟨hkey, hproper⟩)
    · exact ⟨Or.inr rfl, hblank, hcanvas⟩
    · exact ⟨Or.inl hkey, hproper⟩
  · rintro ⟨hkey | rfl, hproper⟩
    · exact Or.inr ⟨hkey, hproper⟩
    · exact Or.inl rfl

theorem keyViolations_eq_map_sweep (h : Knows seen before) :
    keyViolations seen ls =
      (sweep keyDefects place before ls).map Defect.violation := by
  induction ls generalizing seen place before with
  | nil => rfl
  | cons l ls ih =>
      rw [keyViolations, sweep, List.map_append, keyDefects, keyDefect?]
      by_cases hblank : allBlank l.key = true
      · rw [if_pos hblank, if_pos hblank,
          ih (h.skip fun hnot => absurd hblank (hnot ▸ Bool.false_ne_true))]
        rfl
      · rw [if_neg hblank, if_neg hblank]
        rw [Bool.not_eq_true] at hblank
        by_cases hcanvas : l.key = canvasKey
        · rw [if_pos hcanvas, if_pos hcanvas,
            ih (h.skip fun _ hne => absurd hcanvas hne), hcanvas]
          rfl
        · have hknown : l.key ∈ seen ↔ l.key ∈ before.map Layer.key :=
            (h l.key).trans (and_iff_left ⟨hblank, hcanvas⟩)
          rw [if_neg hcanvas, if_neg hcanvas]
          by_cases htaken : l.key ∈ seen
          · rw [if_pos htaken, if_pos (hknown.mp htaken),
              ih (h.skip fun _ _ => htaken)]
            rfl
          · rw [if_neg htaken, if_neg (mt hknown.mpr htaken)]
            exact ih (h.cons hblank hcanvas)

end Knows

theorem geometryViolations_eq_map (place : Nat) (before : List Layer)
    (l : Layer) :
    geometryViolations l =
      (geometryDefects place before l).map Defect.violation := by
  obtain ⟨key, body⟩ := l
  rw [geometryViolations, geometryDefects, List.map_append, positionDefect?,
    areaDefect?]
  congr 1
  · split <;> rfl
  · cases body with
    | text t => rfl
    | image i =>
        dsimp only
        split <;> rfl

theorem flatMap_geometryViolations (place : Nat) (before ls : List Layer) :
    ls.flatMap geometryViolations =
      (sweep geometryDefects place before ls).map Defect.violation := by
  induction ls generalizing place before with
  | nil => rfl
  | cons l ls ih =>
      rw [List.flatMap_cons, sweep, List.map_append,
        geometryViolations_eq_map place before, ih]

end Find

end Check

/-! ## The whole check -/

namespace Template

open Check

variable {t : Template}

/-- What is wrong with the canvas. -/
def canvasDefect? (t : Template) : Option Defect :=
  if 0 < t.width ∧ 0 < t.height then none else some (.canvas t.canvas)

/-- The defects of a template, in the order in which they are reported. -/
def defects (t : Template) : List Defect :=
  t.canvasDefect?.toList ++ sweep keyDefects 0 [] t.layers ++
    sweep geometryDefects 0 [] t.layers

theorem errors_eq_map_defects (t : Template) :
    t.errors = t.defects.map Defect.violation := by
  have hkeys : keyViolations [] t.layers =
      (sweep keyDefects 0 [] t.layers).map Defect.violation :=
    keyViolations_eq_map_sweep (by simp [Knows])
  rw [errors_eq, defects, List.map_append, List.map_append, hkeys,
    flatMap_geometryViolations 0 [], canvasViolations, canvasDefect?]
  congr 2
  split <;> rfl

theorem canvasDefect?_eq_some {d : Defect} : t.canvasDefect? = some d ↔
    (t.width = 0 ∨ t.height = 0) ∧ d = .canvas t.canvas := by
  have hpos (n : UInt32) : 0 < n ↔ ¬ n = 0 := by
    rw [UInt32.lt_iff_toNat_lt, ← UInt32.toNat_inj]
    exact Nat.pos_iff_ne_zero
  simp only [canvasDefect?, hpos, ← not_or]
  by_cases h : t.width = 0 ∨ t.height = 0 <;> simp [h, @eq_comm _ d]

theorem pairwise_defects (t : Template) :
    t.defects.Pairwise Defect.Precedes := by
  have hcanvas : ∀ d ∈ t.canvasDefect?.toList, d.rule = 0 := fun d hd => by
    rw [(canvasDefect?_eq_some.mp (Option.mem_toList.mp hd)).2]
    rfl
  have hkeys : ∀ d ∈ sweep keyDefects 0 [] t.layers, d.rule = 1 :=
    fun _ => rule_of_mem_sweep isRule_keyDefects
  have hgeometry : ∀ d ∈ sweep geometryDefects 0 [] t.layers, d.rule = 2 :=
    fun _ => rule_of_mem_sweep isRule_geometryDefects
  have hprecedes {d e : Defect} {m n : Nat} (hd : d.rule = m)
      (he : e.rule = n) (h : m < n) :
      d.Precedes e := Or.inl (hd.symm ▸ he.symm ▸ h)
  refine List.pairwise_append.mpr ⟨List.pairwise_append.mpr ⟨pairwise_toList _,
    pairwise_sweep isRule_keyDefects fun _ _ _ => pairwise_toList _, ?_⟩,
    pairwise_sweep isRule_geometryDefects pairwise_geometryDefects, ?_⟩
  · exact fun d hd e he => hprecedes (hcanvas d hd) (hkeys e he) (by decide)
  · intro d hd e he
    rcases List.mem_append.mp hd with hd | hd
    · exact hprecedes (hcanvas d hd) (hgeometry e he) (by decide)
    · exact hprecedes (hkeys d hd) (hgeometry e he) (by decide)

/-- What is listed is what arises. -/
theorem mem_defects {d : Defect} : d ∈ t.defects ↔ d.Arises t := by
  simp only [defects, List.mem_append, mem_sweep, keyDefects, geometryDefects,
    Option.mem_toList, canvasDefect?_eq_some, keyDefect?_eq_some,
    positionDefect?_eq_some, areaDefect?_eq_some, Nat.zero_add, List.nil_append]
  cases d with
  | canvas size => simp [Defect.Arises, and_comm, @eq_comm _ size]
  | blankKey place => simp [Defect.Arises]
  | reservedKey place => simp [Defect.Arises]
  | takenKey place key =>
      simp only [reduceCtorEq, and_false, false_or, or_false, exists_false,
        Defect.takenKey.injEq, Defect.Arises, List.mem_map]
      constructor
      · rintro ⟨_, l, hl, hblank, hcanvas, htaken, rfl, rfl⟩
        exact ⟨l, hl, rfl, hblank, hcanvas, htaken⟩
      · rintro ⟨l, hl, rfl, hblank, hcanvas, htaken⟩
        exact ⟨place, l, hl, hblank, hcanvas, htaken, rfl, rfl⟩
  | position place key =>
      simp only [reduceCtorEq, and_false, false_or, or_false, exists_false,
        Defect.position.injEq, Defect.Arises]
      constructor
      · rintro ⟨_, l, hl, hfinite, rfl, rfl⟩
        exact ⟨l, hl, rfl, hfinite⟩
      · rintro ⟨l, hl, rfl, hfinite⟩
        exact ⟨place, l, hl, hfinite, rfl, rfl⟩
  | area place key width height =>
      simp only [reduceCtorEq, and_false, false_or, or_false, exists_false,
        Defect.area.injEq, Defect.Arises]
      constructor
      · rintro ⟨_, ⟨_, _⟩, hl, image, rfl, harea, rfl, rfl, rfl, rfl⟩
        exact ⟨image, hl, rfl, rfl, harea⟩
      · rintro ⟨image, hl, rfl, rfl, harea⟩
        exact ⟨place, _, hl, image, rfl, harea, rfl, rfl, rfl, rfl⟩

theorem accept_eq (t : Template) :
    t.accept = if t.defects = [] then .ok t else
      .error (t.defects.map Defect.violation) := by
  have hvalid : t.check.valid = true ↔ t.defects = [] := by
    rw [show t.check.valid = t.errors.isEmpty from rfl, List.isEmpty_iff,
      errors_eq_map_defects, List.map_eq_nil_iff]
  rw [accept, errors_eq_map_defects]
  simp only [hvalid]

theorem geometryViolations_eq_nil {l : Layer} : geometryViolations l = [] ↔
    (l.position.1.isFinite = true ∧ l.position.2.isFinite = true) ∧
      ∀ image, l.body = .image image → 0 < image.width ∧ 0 < image.height := by
  obtain ⟨key, body⟩ := l
  cases body with
  | text t => simp [geometryViolations, finitePosition, Layer.position]
  | image i => simp [geometryViolations, finitePosition, Layer.position]

/-- Nothing is found in a template with an area, whose layers have keys of their
own, finite positions, and areas if they are pictures. -/
theorem defects_eq_nil_iff : t.defects = [] ↔
    1 ≤ t.width ∧ 1 ≤ t.height ∧
      (∀ l ∈ t.layers, trim l.key ≠ "" ∧ l.key ≠ canvasKey) ∧ t.DistinctKeys ∧
      (∀ l ∈ t.layers, l.position.1.isFinite = true ∧
        l.position.2.isFinite = true) ∧
      ∀ key image, ⟨key, .image image⟩ ∈ t.layers → 0 < image.width ∧
        0 < image.height := by
  rw [← List.map_eq_nil_iff (f := Defect.violation), ← errors_eq_map_defects,
    errors_eq_nil_iff, canvasViolations_eq_nil_iff, keyViolations_eq_nil_iff]
  simp only [geometryViolations_eq_nil, ← Bool.not_eq_true, allBlank_iff,
    List.forall_mem_map]
  constructor
  · rintro ⟨⟨hwidth, hheight⟩, ⟨hdistinct, hkeys⟩, hnumbers⟩
    refine ⟨hwidth, hheight, fun l hl => ⟨(hkeys l hl).1, (hkeys l hl).2.1⟩,
      hdistinct,
      fun l hl => (hnumbers l hl).1, fun key image hl =>
        (hnumbers _ hl).2 image rfl⟩
  · rintro ⟨hwidth, hheight, hkeys, hdistinct, hposition, harea⟩
    refine ⟨⟨hwidth, hheight⟩, ⟨hdistinct, fun l hl =>
      ⟨(hkeys l hl).1, (hkeys l hl).2, List.not_mem_nil⟩⟩, fun l hl =>
      ⟨hposition l hl, fun image himage => harea l.key image ?_⟩⟩
    rw [← himage]
    exact hl

/-- The check accepts exactly the templates in which nothing is wrong, as they
are. Any other it refuses for its defects, with one violation for each, in
order, and nothing else. -/
theorem accept_exact (t : Template) :
    (t.accept = .ok t ↔
      1 ≤ t.width ∧ 1 ≤ t.height ∧
        (∀ l ∈ t.layers, trim l.key ≠ "" ∧ l.key ≠ canvasKey) ∧ t.DistinctKeys ∧
        (∀ l ∈ t.layers, l.position.1.isFinite = true ∧
          l.position.2.isFinite = true) ∧
        ∀ key image, ⟨key, .image image⟩ ∈ t.layers → 0 < image.width ∧
          0 < image.height) ∧
    ∃ ds : List Defect, (∀ d, d ∈ ds ↔ d.Arises t) ∧
      ds.Pairwise Defect.Precedes ∧
      (t.accept = if ds = [] then .ok t else .error (ds.map Defect.violation)) ∧
      ∀ d : Defect, d.violation.severity = .error := by
  refine ⟨?_, t.defects, fun _ => mem_defects, t.pairwise_defects, t.accept_eq,
    Defect.severity_violation⟩
  rw [← defects_eq_nil_iff, accept_eq]
  split
  · next h => exact iff_of_true rfl h
  · next h => exact iff_of_false nofun h

example : defects ⟨"sale", 0, 900, .white,
    [⟨" ", .image (.ofSize 64 64)⟩, ⟨"logo", .image (.ofSize (0 / 0) 64)⟩,
      ⟨"logo", .image { ImageLayer.ofSize 64 0 with y := 1 / 0 }⟩,
      ⟨canvasKey, .text (.ofField "" (.px 32))⟩,
      ⟨"logo", .text (.ofField "" (.px 32))⟩]⟩ =
    [.canvas ⟨0, 900⟩, .blankKey 0, .takenKey 2 "logo", .reservedKey 3,
      .takenKey 4 "logo", .area 1 "logo" (0 / 0) 64, .position 2 "logo",
      .area 2 "logo" 64 0] := by
  decide +kernel

end Template

end Placard
