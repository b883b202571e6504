import Placard.Session.Basic

/-!
# Where steps that may fail end

Edits of a library and acts of a session are steps over a state that may fail,
and a step that fails leaves a state behind as well. `Ends` says both ends of a
step at once: what holds of the answer and the state if it succeeds, and what
holds of the error and the state if it fails. It goes through a sequence of
steps from the last one back, so an operation unfolds into what is to be shown
of its branches.
-/

namespace Placard

section Ends

variable {ε σ α β : Type}

/-- What steps come to from a state: an answer or an error, and a state in
either case. -/
def outcome (x : ExceptT ε (StateM σ) α) (s : σ) : Except ε α × σ :=
  x.run.run s

/-- Run from a state, the steps end in an answer and a state that are `good`, or
in an error and a state that are `bad`. -/
def Ends (x : ExceptT ε (StateM σ) α) (s : σ) (good : α → σ → Prop)
    (bad : ε → σ → Prop) : Prop :=
  match outcome x s with
  | (.ok a, s') => good a s'
  | (.error e, s') => bad e s'

variable {good good' : α → σ → Prop} {bad bad' : ε → σ → Prop} {s : σ}

theorem ends_pure {a : α} :
    Ends (pure a : ExceptT ε (StateM σ) α) s good bad ↔ good a s :=
  Iff.rfl

theorem ends_throw {e : ε} :
    Ends (throw e : ExceptT ε (StateM σ) α) s good bad ↔ bad e s :=
  Iff.rfl

theorem outcome_bind (x : ExceptT ε (StateM σ) α)
    (f : α → ExceptT ε (StateM σ) β) (s : σ) :
    outcome (x >>= f) s =
      match outcome x s with
      | (.ok a, s') => outcome (f a) s'
      | (.error e, s') => (.error e, s') := by
  show ExceptT.bindCont f (outcome x s).1 (outcome x s).2 = _
  rcases outcome x s with ⟨_ | _, s'⟩ <;> rfl

theorem ends_bind {x : ExceptT ε (StateM σ) α} {f : α → ExceptT ε (StateM σ) β}
    {good : β → σ → Prop} :
    Ends (x >>= f) s good bad ↔
      Ends x s (fun a s' => Ends (f a) s' good bad) bad := by
  unfold Ends
  rw [outcome_bind]
  rcases outcome x s with ⟨_ | _, s'⟩ <;> rfl

theorem ends_get {good : σ → σ → Prop} :
    Ends (get : ExceptT ε (StateM σ) σ) s good bad ↔ good s s :=
  Iff.rfl

theorem ends_modify {f : σ → σ} {good : PUnit → σ → Prop} :
    Ends (modify f : ExceptT ε (StateM σ) PUnit) s good bad ↔ good ⟨⟩ (f s) :=
  Iff.rfl

theorem ends_ite {c : Prop} [Decidable c] {x y : ExceptT ε (StateM σ) α} :
    Ends (if c then x else y) s good bad ↔
      (c → Ends x s good bad) ∧ (¬ c → Ends y s good bad) := by
  split
  · next h =>
      exact ⟨fun hx => ⟨fun _ => hx, fun hn => absurd h hn⟩, fun hx => hx.1 h⟩
  · next h =>
      exact ⟨fun hy => ⟨fun hc => absurd hc h, fun _ => hy⟩, fun hy => hy.2 h⟩

theorem Ends.cases {x : ExceptT ε (StateM σ) α} (h : Ends x s good bad) :
    (∃ e s', outcome x s = (.error e, s') ∧ bad e s') ∨
      ∃ a s', outcome x s = (.ok a, s') ∧ good a s' := by
  unfold Ends at h
  generalize outcome x s = ended at h ⊢
  obtain ⟨e | a, s'⟩ := ended
  · exact Or.inl ⟨e, s', rfl, h⟩
  · exact Or.inr ⟨a, s', rfl, h⟩

theorem Ends.mono {x : ExceptT ε (StateM σ) α} (h : Ends x s good bad)
    (hgood : ∀ a s', good a s' → good' a s')
    (hbad : ∀ e s', bad e s' → bad' e s') : Ends x s good' bad' := by
  unfold Ends
  rcases h.cases with ⟨e, s', hx, h⟩ | ⟨a, s', hx, h⟩
  · rw [hx]
    exact hbad e s' h
  · rw [hx]
    exact hgood a s' h

theorem Ends.of_outcome {x : ExceptT ε (StateM σ) α} {a : α} {s' : σ}
    (h : Ends x s good bad) (hx : outcome x s = (.ok a, s')) : good a s' := by
  rwa [Ends, hx] at h

theorem outcome_eq_of_ends {x : ExceptT ε (StateM σ) α} {a : α} {s' : σ}
    (h : Ends x s (fun b t => b = a ∧ t = s') fun _ _ => False) :
    outcome x s = (.ok a, s') := by
  rcases h.cases with ⟨_, _, _, hfalse⟩ | ⟨_, _, hx, rfl, rfl⟩
  · exact hfalse.elim
  · exact hx

end Ends

end Placard
