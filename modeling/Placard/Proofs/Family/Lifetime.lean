import Placard.Proofs.Family.WellFormed

/-!
# A pair from the making of its child to its removal

A pair is there from the operation that makes the child to the one that removes
it. In between it takes a step with every operation that succeeds, and none with
one that fails. So there are two ways for something to be true of a pair. It may
be so of every child that has just been made, and be kept by every step: then it
is so of every pair there ever is. Or it may be so of one pair at one time, and
be kept by the steps that are asked for from then on: then it is so until the
child is removed. Either way an invariant of pairs is a matter of single steps.
-/

namespace Placard

variable {w w' : Workspace} {p c : String} {op : Operation} {x : Pair}

/-- A child stays the child of its parent until it is removed. -/
theorem Effect.parentOf?_eq_some (hlinked : w.library.Linked)
    (h : Effect w op w') (hlink : w.library.parentOf? c = some p)
    (hop : op ≠ .removeChild c) : w'.library.parentOf? c = some p := by
  rcases h.library_cases hlinked with
    hedits | ⟨t, -, hadds, -⟩ | ⟨q, id, canvas?, t, hadds, -⟩ | ⟨id, q,
      rfl, -, rfl⟩
  · exact (hedits.parentOf?_eq c).trans hlink
  · exact (hadds.parentOf? c).trans hlink
  · obtain ⟨u, hu⟩ := hlinked.exists_child hlink
    rw [hadds.parentOf?, if_neg (hadds.ne_of_get? hu)]
    exact hlink
  · rw [Library.parentOf?_detach, if_neg fun heq => hop (by rw [heq])]
    exact hlink

theorem Library.Linked.exists_pair (hlinked : w.library.Linked)
    (hlink : w.library.parentOf? c = some p) : ∃ x, w.HasPair p c x := by
  obtain ⟨u, hu⟩ := hlinked.exists_parent hlink
  obtain ⟨t, ht⟩ := hlinked.exists_child hlink
  exact ⟨⟨u, t, w.overrides.flags c⟩, hlink, hu, ht, rfl⟩

theorem Workspace.exists_pair_of_run (ops : List Operation)
    (hlink : (empty.run ops).library.parentOf? c = some p) :
    ∃ x, (empty.run ops).HasPair p c x :=
  (wellFormed_empty.run ops).linked.exists_pair hlink

namespace Workspace.HasPair

/-- An operation that succeeds, other than the removal of the child, is a step
of the pair. -/
theorem step_of_done (hw : w.WellFormed) (hx : w.HasPair p c x)
    (hdone : (op.perform w).1 = .ok ()) (hop : op ≠ .removeChild c) :
    ∃ x', (op.perform w).2.HasPair p c x' ∧ PairStep p c op x x' := by
  rcases op.perform_cases hw.linked with ⟨e, hfail⟩ | ⟨w', hperform, heffect⟩
  · rw [hfail] at hdone
    cases hdone
  · rw [hperform]
    exact exists_step hw.linked hx heffect
      (heffect.parentOf?_eq_some hw.linked hx.link hop)

/-- What a pair has and the steps keep that are asked for, it has in the end, if
nothing removes the child. -/
theorem run_induct {P : Pair → Prop} {asked : Workspace → Operation → Prop}
    (hstep : ∀ w op x x', w.HasPair p c x → asked w op → x.parent.DistinctKeys →
      x.child.DistinctKeys → PairStep p c op x x' → P x → P x')
    {ops : List Operation}
    (hops : w.Each (fun w op => op ≠ .removeChild c ∧ asked w op) ops)
    (hw : w.WellFormed) (hx : w.HasPair p c x) (h : P x) :
    ∃ x', (w.run ops).HasPair p c x' ∧ P x' := by
  refine hops.run_induct (P := fun w => ∃ x, w.HasPair p c x ∧ P x)
    (fun {w op} hw ⟨hlives, hasked⟩ ⟨x, hx, h⟩ => ?_) hw ⟨x, hx, h⟩
  rcases op.perform_cases hw.linked with ⟨e, hfail⟩ | ⟨w', hperform, -⟩
  · rw [hfail]
    exact ⟨x, hx, h⟩
  · have hdone : (op.perform w).1 = .ok () := by rw [hperform]
    have hkeys := (hw.sound _ _ hx.parent).keys
    have hkeys' := (hw.sound _ _ hx.child).keys
    obtain ⟨x', hx', hstepped⟩ := hx.step_of_done hw hdone hlives
    exact ⟨x', hx', hstep w op x x' hx hasked hkeys hkeys' hstepped h⟩

/-- A child that was not there before has just been made: it is a copy of its
parent, on a canvas of its own perhaps, and nothing of it is flagged. -/
theorem of_fresh (hw : w.WellFormed) (hfresh : w.library.contains c = false)
    (hx : (op.perform w).2.HasPair p c x) :
    (∃ canvas?, x.child = Library.childTemplate x.parent c canvas?) ∧
      x.flags = fun _ => .empty := by
  have hnew {y : Pair} : ¬ w.HasPair p c y := fun hy => by
    rw [Library.contains_of_get? hy.child] at hfresh
    cases hfresh
  rcases op.perform_cases hw.linked with ⟨e, hfail⟩ | ⟨w', hperform, heffect⟩
  · rw [hfail] at hx
    exact absurd hx hnew
  · rw [hperform] at hx
    rcases of_effect hw.linked hw.children heffect hx with
      ⟨y, hy, -⟩ | ⟨-, -, hcopy, hflags⟩
    · exact absurd hy hnew
    · exact ⟨hcopy, hflags⟩

/-- What every child has that has just been made, and every step keeps, holds of
every pair. -/
theorem induct {P : Pair → Prop}
    (hmade : ∀ parent c canvas?,
      P ⟨parent, Library.childTemplate parent c canvas?, fun _ => .empty⟩)
    (hstep : ∀ p c op x x', x.parent.DistinctKeys → x.child.DistinctKeys →
      PairStep p c op x x' → P x → P x') (ops : List Operation)
    (hw : w.WellFormed) (hpairs : ∀ p c x, w.HasPair p c x → P x)
    (hx : (w.run ops).HasPair p c x) : P x := by
  refine hw.run_induct (P := fun w => ∀ p c x, w.HasPair p c x → P x)
    (fun hw heffect hpairs p c x' hx' => ?_) hpairs ops p c x hx
  rcases of_effect hw.linked hw.children heffect hx' with
    ⟨x, hx, hstepped⟩ | ⟨-, -, ⟨canvas?, hchild⟩, hflags⟩
  · exact hstep p c _ x x' (hw.sound _ _ hx.parent).keys
      (hw.sound _ _ hx.child).keys hstepped (hpairs p c x hx)
  · obtain ⟨u, t, f⟩ := x'
    obtain rfl : t = Library.childTemplate u c canvas? := hchild
    obtain rfl : f = fun _ => .empty := hflags
    exact hmade u c canvas?

end Workspace.HasPair

end Placard
