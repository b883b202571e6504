import Placard.Proofs.Wire.Derivations

/-!
# Chains of calculations

A calculation depends on a layer, which may calculate from another, and so on.
Such a chain leads out if it comes to a key under which nothing is calculated,
whether there is a text, a picture or no layer at all. A layer is grounded if
its chain leads out and goes through no key twice.

The compiler follows the chain with the keys that it has been through at hand,
and stops at the first that it comes to again. `Follow` says what it does then
without a bound on the steps, and the bound of `chainEnds` turns out to be
bookkeeping: the keys it has been through are different keys of layers, so one
step more than there are layers is never used up, on a chain that comes back to
itself neither. What `Follow` answers is whether the layer is grounded, and that
is all that the compiler has to know of the chain. The layers with a derivation
can then be told from what they say of themselves.
-/

namespace Placard

namespace Template

variable {t : Template} {key : String}

/-! ## Chains -/

/-- The keys of a chain of calculations, from the first to one under which
nothing is calculated. -/
inductive LeadsOut (t : Template) : List String → Prop where
  | ends {key : String} (h : t.calculation? key = none) : LeadsOut t [key]
  | link {key : String} {c : Calculation} {rest : List String}
      (h : t.calculation? key = some c)
      (hrest : LeadsOut t (c.dependsOn :: rest)) :
      LeadsOut t (key :: c.dependsOn :: rest)

/-- The chain from a key leads out without coming to a key twice. -/
def Grounded (t : Template) (key : String) : Prop :=
  ∃ rest, t.LeadsOut (key :: rest) ∧ (key :: rest).Nodup

/-- How the chain from `key` on is followed, after it has been through
`visited`: to a key under which nothing is calculated, or back to one that it
has been through. -/
inductive Follow (t : Template) : (visited : List String) → (key : String) →
    (leadsOut : Bool) → Prop where
  | ends {visited : List String} {key : String}
      (h : t.calculation? key = none) :
      Follow t visited key true
  | back {visited : List String} {key : String} {c : Calculation}
      (h : t.calculation? key = some c) (hback : c.dependsOn ∈ key :: visited) :
      Follow t visited key false
  | link {visited : List String} {key : String} {c : Calculation}
      {leadsOut : Bool} (h : t.calculation? key = some c)
      (hnew : c.dependsOn ∉ key :: visited)
      (hrest : Follow t (key :: visited) c.dependsOn leadsOut) :
      Follow t visited key leadsOut

theorem Follow.unique {visited : List String} {a b : Bool}
    (ha : t.Follow visited key a) (hb : t.Follow visited key b) : a = b := by
  induction ha with
  | ends h =>
      cases hb with
      | ends _ => rfl
      | back h' _ | link h' _ _ =>
          rw [h] at h'
          cases h'
  | back h hback =>
      cases hb with
      | ends h' =>
          rw [h] at h'
          cases h'
      | back _ _ => rfl
      | link h' hnew _ =>
          rw [h, Option.some.injEq] at h'
          exact absurd (h' ▸ hback) hnew
  | link h hnew _ ih =>
      cases hb with
      | ends h' =>
          rw [h] at h'
          cases h'
      | back h' hback =>
          rw [h, Option.some.injEq] at h'
          exact absurd (h' ▸ hback) hnew
      | link h' _ hrest =>
          rw [h, Option.some.injEq] at h'
          exact ih (h' ▸ hrest)

/-! ## The bound is never reached -/

/-- The keys a chain has been through make up for the steps that it has
taken. -/
theorem follow_chainEnds {fuel : Nat} {visited : List String}
    (hnodup : (key :: visited).Nodup) (hsub : visited ⊆ t.keys)
    (hfuel : t.layers.length < fuel + visited.length) :
    t.Follow visited key (t.chainEnds fuel visited key) := by
  induction fuel generalizing visited key with
  | zero =>
      have hle := length_le_of_nodup (List.nodup_cons.mp hnodup).2 hsub
      omega
  | succ fuel ih =>
      rw [chainEnds]
      split
      · next hnone => exact .ends hnone
      · next c hc =>
          by_cases hback : c.dependsOn ∈ key :: visited
          · rw [decide_eq_false (not_not_intro hback), Bool.false_and]
            exact .back hc hback
          · rw [decide_eq_true hback, Bool.true_and]
            refine .link hc hback
              (ih (List.nodup_cons.mpr ⟨hback, hnodup⟩) ?_ ?_)
            · exact List.cons_subset.mpr ⟨mem_keys_of_calculation? hc, hsub⟩
            · rw [List.length_cons]
              omega

/-- From any layer on, following the chain comes to one answer, which is the one
that is computed. -/
theorem follow_iff {b : Bool} :
    t.Follow [] key b ↔ t.chainEnds (t.layers.length + 1) [] key = b := by
  have hrun : t.Follow [] key (t.chainEnds (t.layers.length + 1) [] key) :=
    follow_chainEnds (List.nodup_singleton key) (List.nil_subset _)
      (Nat.lt_succ_self _)
  exact ⟨hrun.unique, fun h => h ▸ hrun⟩

/-- The same from the layer that another one depends on, which is where the
compiler starts. -/
theorem follow_dependsOn_iff {c : Calculation}
    (hc : t.calculation? key = some c) (hne : c.dependsOn ≠ key) {b : Bool} :
    t.Follow [key] c.dependsOn b ↔
      t.chainEnds (t.layers.length + 1) [key] c.dependsOn = b := by
  have hrun : t.Follow [key] c.dependsOn
      (t.chainEnds (t.layers.length + 1) [key] c.dependsOn) := by
    refine follow_chainEnds ?_ ?_ ?_
    · simpa using hne
    · exact List.cons_subset.mpr ⟨mem_keys_of_calculation? hc,
        List.nil_subset _⟩
    · rw [List.length_singleton]
      omega
  exact ⟨hrun.unique, fun h => h ▸ hrun⟩

/-! ## What the answer means -/

theorem Follow.leadsOut {visited : List String} (h : t.Follow visited key true)
    (hkey : key ∉ visited) :
    ∃ rest, t.LeadsOut (key :: rest) ∧ (key :: rest).Nodup ∧
      (key :: rest).Disjoint visited := by
  generalize hb : true = b at h
  induction h with
  | ends h =>
      exact ⟨[], .ends h, List.nodup_singleton _,
        List.singleton_disjoint.mpr hkey⟩
  | back _ _ => cases hb
  | @link visited key c b h hnew _ ih =>
      obtain ⟨rest, hout, hnodup, hdisjoint⟩ := ih hnew hb
      obtain ⟨hkeys, hvisited⟩ := List.disjoint_cons_right.mp hdisjoint
      exact ⟨c.dependsOn :: rest, .link h hout,
        List.nodup_cons.mpr ⟨hkeys, hnodup⟩,
        List.disjoint_cons_left.mpr ⟨hkey, hvisited⟩⟩

theorem LeadsOut.follow {visited rest : List String}
    (h : t.LeadsOut (key :: rest)) (hnodup : (key :: rest).Nodup)
    (hdisjoint : (key :: rest).Disjoint visited) :
    t.Follow visited key true := by
  induction rest generalizing key visited with
  | nil =>
      cases h with
      | ends hnone => exact .ends hnone
  | cons dependency rest ih =>
      cases h with
      | link hc hrest =>
          obtain ⟨hkey, hnodup⟩ := List.nodup_cons.mp hnodup
          have hahead := List.disjoint_cons_right.mpr
            ⟨hkey, List.disjoint_of_disjoint_cons_left hdisjoint⟩
          exact .link hc (hahead List.mem_cons_self) (ih hrest hnodup hahead)

/-- The chain from a layer is followed to its end if the layer is grounded. -/
theorem follow_true_iff : t.Follow [] key true ↔ t.Grounded key := by
  constructor
  · intro h
    obtain ⟨rest, hout, hnodup, -⟩ := h.leadsOut List.not_mem_nil
    exact ⟨rest, hout, hnodup⟩
  · rintro ⟨rest, hout, hnodup⟩
    exact hout.follow hnodup (List.disjoint_nil_right _)

/-- Whether a layer is grounded can be computed. -/
theorem chainEnds_iff_grounded :
    t.chainEnds (t.layers.length + 1) [] key = true ↔ t.Grounded key :=
  follow_iff.symm.trans follow_true_iff

instance (t : Template) (key : String) : Decidable (t.Grounded key) :=
  decidable_of_iff _ chainEnds_iff_grounded

example : priceTag.Grounded "reduced" := by decide

theorem grounded_iff_chainEnds {c : Calculation}
    (hc : t.calculation? key = some c) (hne : c.dependsOn ≠ key) :
    t.Grounded key ↔
      t.chainEnds (t.layers.length + 1) [key] c.dependsOn = true := by
  rw [← follow_dependsOn_iff hc hne, ← follow_true_iff]
  constructor
  · intro h
    cases h with
    | ends hnone =>
        rw [hc] at hnone
        cases hnone
    | link hc' _ hrest =>
        rw [hc, Option.some.injEq] at hc'
        exact hc' ▸ hrest
  · exact fun h => .link hc (by simpa using hne) h

theorem canFollow_iff {c : Calculation} (hc : t.calculation? key = some c) :
    t.canFollow key = true ↔ (∃ steps, c.steps? = some steps) ∧
      c.dependsOn ≠ key ∧
      (∃ dependency, t.textLayer? c.dependsOn = some dependency) ∧
      t.Grounded key := by
  rw [canFollow, hc]
  simp only [Bool.and_eq_true, Option.isSome_iff_exists, decide_eq_true_eq,
    and_assoc]
  refine and_congr_right fun _ => and_congr_right fun hne =>
    and_congr_right fun _ => ?_
  exact (grounded_iff_chainEnds hc hne).symm

/-! ## The layers with a derivation -/

/-- What a text layer says of itself when it is derived: it calculates by a
formula that is read, from another text layer, by a chain that leads out, and
from the variable of another field to that of its own. -/
structure Resolves (t : Template) (key : String) (text : TextLayer)
    (c : Calculation) (dependency : TextLayer) (target source : Variable)
    (steps : List Step) : Prop where
  declared : (key, text) ∈ t.textLayers
  calculates : text.calculation = some c
  readable : c.steps? = some steps
  other : c.dependsOn ≠ key
  depends : t.textLayer? c.dependsOn = some dependency
  grounded : t.Grounded key
  hasTarget : t.variables.get? (text.field key) = some target
  hasSource : t.variables.get? (dependency.field c.dependsOn) = some source
  apart : target ≠ source

section Resolution

variable {text dependency : TextLayer} {c : Calculation}
  {target source : Variable} {steps : List Step}

theorem Resolves.derives (hd : t.DistinctKeys)
    (h : t.Resolves key text c dependency target source steps) :
    t.Derives key text c dependency target source steps where
  declared := h.declared
  calculates := h.calculates
  follows := by
    have hc := (calculation?_of_mem hd h.declared).trans h.calculates
    exact (canFollow_iff hc).mpr ⟨⟨_, h.readable⟩, h.other, ⟨_, h.depends⟩,
      h.grounded⟩
  depends := h.depends
  hasTarget := h.hasTarget
  hasSource := h.hasSource
  hasSteps := h.readable

theorem Derives.resolves (hd : t.DistinctKeys)
    (h : t.Derives key text c dependency target source steps)
    (hapart : target ≠ source) :
    t.Resolves key text c dependency target source steps := by
  have hc := (calculation?_of_mem hd h.declared).trans h.calculates
  obtain ⟨-, hother, -, hgrounded⟩ := (canFollow_iff hc).mp h.follows
  exact ⟨h.declared, h.calculates, h.hasSteps, hother, h.depends, hgrounded,
    h.hasTarget, h.hasSource, hapart⟩

/-- The derivations are those of the layers that resolve. -/
theorem get?_derivations_iff (hd : t.DistinctKeys) {d : Derivation} :
    t.derivations.get? key = some d ↔ ∃ text c dependency target source steps,
      t.Resolves key text c dependency target source steps ∧
        d = ⟨c.dependsOn, .derived target source steps⟩ := by
  constructor
  · intro h
    obtain ⟨text, hmem, hsome⟩ := derivation?_of_derivations h
    obtain ⟨c, dependency, target, source, steps, hder, rfl⟩ :=
      derives_of_derivation? hmem hsome
    refine ⟨text, c, dependency, target, source, steps,
      hder.resolves hd ?_, rfl⟩
    rintro rfl
    rw [hder.derivation?_eq, if_pos rfl] at hsome
    cases hsome
  · rintro ⟨text, c, dependency, target, source, steps, h, rfl⟩
    have hder := (h.derives hd).derivation?_eq
    rw [if_neg h.apart] at hder
    exact get?_derivations hd (textLayer?_of_mem hd h.declared) hder

end Resolution

end Template

end Placard
