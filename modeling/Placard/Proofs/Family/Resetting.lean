import Placard.Proofs.Family.Commuting
import Placard.Proofs.Family.Lifetime
import Placard.Proofs.Family.Pruned
import Placard.Proofs.Template.Copying

/-!
# A value that is set and reset

A child that shows the value of its parent and is given another has that one
flagged. Reset, it takes the value of the parent again and loses the flag, and
nothing tells that there has been another: the child is as before because a
value that is read and written back is stored as it was, and the flags because
none leaves an entry behind.

What is written elsewhere in between does not matter. A write to another place
commutes with the one that is taken back, and leaves the child showing what the
parent does; so the one that is taken back may as well have been the last.
-/

namespace Placard

theorem Library.put_put (lib : Library) (id : String) (t u : Template) :
    (lib.put id t).put id u = lib.put id u := by
  rw [put, put, Table.insert_insert, put]

/-! ## What the child shows -/

/-- The child shows a value of the parent, and has none of its own there. -/
structure Pair.Shows (x : Pair) (layer : String) (q : Property) (v : Value) :
    Prop where
  parent : x.parent.get? layer q = some v
  child : x.child.get? layer q = some v
  free : (x.flags layer).covers q = false

/-- A write to another place leaves it so. -/
theorem Pair.Shows.step {p c layer : String} {q : Property} {v : Value}
    {a : Write} {x x' : Pair} (h : x.Shows layer q v)
    (hparent : a.place ≠ (p, layer, q)) (hchild : a.place ≠ (c, layer, q))
    (hstep : PairStep p c a.operation x x') : x'.Shows layer q v := by
  obtain ⟨id, key, r, value, toggles⟩ := a
  have hne {id' : String} (hplace : (id', key, r) ≠ (id', layer, q)) :
      (layer, q) ≠ (key, r) := fun heq => hplace (by rw [heq])
  cases hstep with
  | idle => exact h
  | setOfParent hset =>
      have hother := hne hparent
      refine ⟨((Template.differAt_of_set hset).reads layer q hother).trans
        h.parent, ?_, h.free⟩
      dsimp only
      split
      · cases hpassed : x.child.set key r value with
        | error e => exact h.child
        | ok t =>
            exact ((Template.differAt_of_set hpassed).reads layer q
              hother).trans h.child
      · exact h.child
  | setOfChild hset =>
      have hother := hne hchild
      refine ⟨h.parent, ((Template.differAt_of_set hset).reads layer q
        hother).trans h.child, ?_⟩
      dsimp only
      split
      · by_cases hkey : layer = key
        · subst hkey
          have hq : q ≠ r := fun heq => hother (by rw [heq])
          rw [Function.update_self, LayerFlags.covers,
            PropertySet.contains_insert, decide_eq_false hq, Bool.false_or]
          exact h.free
        · rw [Function.update_of_ne hkey]
          exact h.free
      · exact h.free

namespace Workspace

/-- A write leaves every pair behind that there was, after one step. -/
theorem WellFormed.exists_pair_of_write {w : Workspace} {p c : String}
    {x : Pair} (hw : w.WellFormed) (hx : w.HasPair p c x) (a : Write) :
    ∃ x', (a.operation.perform w).2.HasPair p c x' ∧
      (x' = x ∨ PairStep p c a.operation x x') := by
  rcases a.operation.perform_cases hw.linked with ⟨e, he⟩ | ⟨w', hw', heffect⟩
  · rw [he]
    exact ⟨x, hx, Or.inl rfl⟩
  · rw [hw']
    have hlive : w'.library.parentOf? c = some p :=
      ((Write.done_of_effect hw.linked heffect).parentOf? c).trans hx.link
    obtain ⟨x', hx', hstep⟩ := hx.exists_step hw.linked heffect hlive
    exact ⟨x', hx', Or.inr hstep⟩

section Reset

variable {w w' : Workspace} {p c layer : String} {q : Property} {v v' : Value}
  {toggles : Toggles} {x : Pair} {report : EditReport}

/-- What a write to a child does where the child has no value of its own. -/
theorem HasPair.of_setProperty (hx : w.HasPair p c x)
    (hshows : x.Shows layer q v)
    (hset : outcome (Edit.setProperty c layer q v' toggles) w =
      (.ok report, w')) :
    ∃ t, x.child.set layer q v' = .ok t ∧
      w' = ⟨w.library.put c t, w.overrides.mark c layer q⟩ := by
  have heffect :=
    (ends_setProperty (w := w) c layer q v' toggles).of_outcome hset
  cases heffect with
  | setOfParent hid =>
      have horphan := (Library.isParent_iff.mp hid).2
      rw [hx.link] at horphan
      cases horphan
  | setOfChild hparent ht hset =>
      obtain rfl := Option.some.inj (hx.link.symm.trans hparent)
      obtain rfl := Option.some.inj (hx.child.symm.trans ht)
      have hwhole : (x.flags layer).whole = false :=
        (Bool.or_eq_false_iff.mp hshows.free).1
      have htracked :
          (w.library.holds p layer && !w.overrides.isLayerOverridden c layer) =
            true := by
        rw [holds_eq hx.parent, Template.isSome_part?_of_get? hshows.parent,
          Overrides.isLayerOverridden, hx.flags, hwhole]
        rfl
      exact ⟨_, hset, by rw [if_pos htracked]⟩

theorem exists_answer_of_edited {α : Type}
    {ended : Except EditError α × Workspace} (h : edited ended = (.ok (), w)) :
    ∃ answer, ended = (.ok answer, w) := by
  obtain ⟨_ | answer, w₀⟩ := ended
  · cases h
  · cases h
    exact ⟨answer, rfl⟩

theorem outcome_resetProperty {u t t' : Template}
    (hlink : w.library.parentOf? c = some p)
    (hwhole : w.overrides.isLayerOverridden c layer = false)
    (hu : w.library.get? p = some u) (hv : u.get? layer q = some v)
    (ht : w.library.get? c = some t) (hset : t.set layer q v = .ok t') :
    outcome (Edit.resetProperty c layer q) w =
      (.ok v, ⟨w.library.put c t', w.overrides.unmark c layer q⟩) := by
  refine outcome_eq_of_ends ?_
  unfold Edit.resetProperty
  rw [ends_bind, Edit.ends_parentOf]
  refine ⟨fun parent hparent => ?_, fun hnone => ?_⟩
  · obtain rfl := Option.some.inj (hlink.symm.trans hparent)
    rw [ends_bind, Edit.ends_overrides, hwhole, ends_ite]
    refine ⟨fun h => absurd h Bool.false_ne_true, fun _ => ?_⟩
    rw [ends_bind, Edit.ends_template, hu]
    refine ⟨fun parent hparent => ?_, nofun⟩
    obtain rfl := Option.some.inj hparent
    rw [hv]
    dsimp only
    rw [ends_bind, Edit.ends_write, ht]
    refine ⟨fun child hchild => ?_, nofun⟩
    obtain rfl := Option.some.inj hchild
    refine ⟨fun t'' hset' => ?_, fun e he => ?_⟩
    · obtain rfl := Except.ok.inj (hset.symm.trans hset')
      rw [ends_bind, Edit.ends_modifyOverrides, ends_pure]
      exact ⟨rfl, rfl⟩
    · rw [hset] at he
      cases he
  · rw [hlink] at hnone
    cases hnone

/-- Resetting takes back what has been set. -/
theorem HasPair.outcome_resetProperty (hw : w.WellFormed)
    (hpruned : w.overrides.Pruned) (hx : w.HasPair p c x)
    (hshows : x.Shows layer q v) (hcopy : v.Copyable q)
    (hwritten : outcome (Edit.setProperty c layer q v' toggles) w =
      (.ok report, w')) :
    outcome (Edit.resetProperty c layer q) w' = (.ok v, w) := by
  obtain ⟨t, hset, rfl⟩ := hx.of_setProperty hshows hwritten
  obtain ⟨hwhole, hmarked⟩ := Bool.or_eq_false_iff.mp hshows.free
  have hback : t.set layer q v = .ok x.child :=
    (Template.set_set hset v).trans
      (Template.set_get? (hw.sound _ _ hx.child) hshows.child hcopy)
  have hstays : (w.overrides.mark c layer q).isLayerOverridden c layer =
      false := by
    rw [Overrides.isLayerOverridden, Overrides.flags_mark, Function.update_self,
      hx.flags]
    exact hwhole
  have hfree : w.overrides.isMarked c layer q = false := by
    rw [Overrides.isMarked, hx.flags]
    exact hmarked
  have hparent : (w.library.put c t).get? p = some x.parent :=
    (Library.get?_put_of_ne (Ne.symm (hw.linked.ne_parent hx.link))).trans
      hx.parent
  have hreset := Workspace.outcome_resetProperty
    (w := ⟨w.library.put c t, w.overrides.mark c layer q⟩) hx.link
    hstays hparent
    hshows.parent (Library.get?_put_self _ _ _) hback
  rw [hreset]
  dsimp only
  rw [Library.put_put, Library.put_self hx.child, hpruned.unmark_mark hfree]

/-- A write may as well be made after others to other places, and is taken there
if it is taken at once. -/
theorem WellFormed.run_writes (hw : w.WellFormed) {a : Write}
    (ha : (a.operation.perform w).1 = .ok ()) {writes : List Write}
    (hne : ∀ b ∈ writes, a.place ≠ b.place) :
    a.operation.perform (w.run (writes.map Write.operation)) =
      (.ok (), (a.operation.perform w).2.run (writes.map Write.operation)) := by
  induction writes generalizing w with
  | nil => exact Prod.ext ha rfl
  | cons b rest ih =>
      obtain ⟨hb, hrest⟩ := List.forall_mem_cons.mp hne
      have hafter := (Write.perform_after hw a b).trans ha
      refine (ih (hw.perform b.operation) hafter hrest).trans ?_
      rw [← Write.perform_comm hw hb]
      rfl

/-- The child shows the value after writes to other places. -/
theorem HasPair.shows_run (hw : w.WellFormed) (hx : w.HasPair p c x)
    (hshows : x.Shows layer q v) {writes : List Write}
    (hne : ∀ b ∈ writes, b.place ≠ (p, layer, q) ∧ b.place ≠ (c, layer, q)) :
    ∃ x', (w.run (writes.map Write.operation)).HasPair p c x' ∧
      x'.Shows layer q v := by
  induction writes generalizing w x with
  | nil => exact ⟨x, hx, hshows⟩
  | cons b rest ih =>
      obtain ⟨⟨hparent, hchild⟩, hrest⟩ := List.forall_mem_cons.mp hne
      obtain ⟨x', hx', hsame⟩ := hw.exists_pair_of_write hx b
      refine ih (hw.perform b.operation) hx' ?_ hrest
      rcases hsame with rfl | hstep
      · exact hshows
      · exact hshows.step hparent hchild hstep

end Reset

/-- Where a child shows a value of its parent that can be written back, setting
another one and resetting it is to do nothing: the workspace is the one before,
and the answer is the value of the parent. The same holds if other places are
written in between, up to these writes. -/
theorem reset_takes_back (ops : List Operation) {p c layer : String}
    {q : Property} {v v' : Value} {toggles : Toggles} {x : Pair}
    {report : EditReport} {w' : Workspace}
    (hx : (Workspace.empty.run ops).HasPair p c x)
    (hshows : x.Shows layer q v) (hcopy : v.Copyable q)
    (hset : outcome (Edit.setProperty c layer q v' toggles)
      (Workspace.empty.run ops) = (.ok report, w')) :
    outcome (Edit.resetProperty c layer q) w' =
      (.ok v, Workspace.empty.run ops) ∧
      ∀ writes : List Write,
        (∀ b ∈ writes, b.place ≠ (p, layer, q) ∧ b.place ≠ (c, layer, q)) →
        outcome (Edit.resetProperty c layer q)
          (w'.run (writes.map Write.operation)) =
          (.ok v, (Workspace.empty.run ops).run
            (writes.map Write.operation)) := by
  have hw := wellFormed_empty.run ops
  have hpruned := run_pruned ops
  refine ⟨hx.outcome_resetProperty hw hpruned hshows hcopy hset,
    fun writes hne => ?_⟩
  have hdone :
      (Write.operation ⟨c, layer, q, v', toggles⟩).perform
        (Workspace.empty.run ops) = (.ok (), w') := congrArg edited hset
  -- made after the other writes instead of before them, nothing comes between
  -- it and the reset
  have hlater :=
    hw.run_writes (congrArg Prod.fst hdone) fun b hb => Ne.symm (hne b hb).2
  rw [congrArg Prod.snd hdone] at hlater
  obtain ⟨x', hx', hshows'⟩ := hx.shows_run hw hshows hne
  obtain ⟨report', hset'⟩ := exists_answer_of_edited hlater
  exact hx'.outcome_resetProperty (hw.run _) (hw.pruned_run hpruned _) hshows'
    hcopy hset'

theorem titleRun_reset_takes_back :
    ∃ x report w', (Workspace.empty.run titleRun).HasPair "wide" "tall" x ∧
      x.Shows "title" .color (.color .white) ∧
      (Value.color .white).Copyable .color ∧
      outcome (Edit.setProperty "tall" "title" .color (.color .black) .all)
        (Workspace.empty.run titleRun) = (.ok report, w') ∧
      outcome (Edit.resetProperty "tall" "title" .color) w' =
        (.ok (.color .white), Workspace.empty.run titleRun) ∧
      ∀ writes : List Write,
        (∀ b ∈ writes, b.place ≠ ("wide", "title", .color) ∧
          b.place ≠ ("tall", "title", .color)) →
        outcome (Edit.resetProperty "tall" "title" .color)
            (w'.run (writes.map Write.operation)) =
          (.ok (.color .white),
            (Workspace.empty.run titleRun).run
              (writes.map Write.operation)) := by
  obtain ⟨x, hx⟩ :=
    exists_pair_of_run (p := "wide") (c := "tall") titleRun (by decide +kernel)
  have hparent : ((Workspace.empty.run titleRun).library.get? "wide").bind
      (fun t => t.get? "title" .color) = some (.color .white) := by
        decide +kernel
  have hchild : ((Workspace.empty.run titleRun).library.get? "tall").bind
      (fun t => t.get? "title" .color) = some (.color .white) := by
        decide +kernel
  have hfree :
      ((Workspace.empty.run titleRun).overrides.flags "tall" "title").covers
        .color = false := by decide +kernel
  rw [hx.parent] at hparent
  rw [hx.child] at hchild
  rw [hx.flags] at hfree
  have hshows : x.Shows "title" .color (.color .white) :=
    ⟨hparent, hchild, hfree⟩
  have hcopy : (Value.color .white).Copyable .color := ⟨nofun, fun _ => nofun⟩
  have hset :
      (outcome (Edit.setProperty "tall" "title" .color (.color .black) .all)
        (Workspace.empty.run titleRun)).1 = .ok ⟨[], true⟩ := by rfl
  exact ⟨x, _, _, hx, hshows, hcopy, Prod.ext hset rfl,
    reset_takes_back titleRun hx hshows hcopy (Prod.ext hset rfl)⟩

end Workspace

end Placard
