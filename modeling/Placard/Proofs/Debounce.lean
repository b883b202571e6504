import Mathlib.Data.List.Induction
import Placard.Debounce

/-!
# No edit is lost and none is compiled twice

What a debounce answers is told from its history alone, the calls so far and
which of them compiled. An edit waits where one has been noted and nothing has
compiled since; only then is anything compiled, by a flush at once and by a poll
as soon as the quiet time has passed since the last note. The clock has no part
in this but for the one difference that a poll takes, so it may stand still or
go back.

The state keeps two times, and each of them is there exactly while an edit
waits. One call keeps this, whichever of the three it is, and the rest is read
off the histories.
-/

namespace Placard

namespace Debounce

/-! ## Calls and histories -/

/-- What is asked of a debounce, at a time where that counts. -/
inductive Call where
  | note (time : Nat)
  | poll (time : Nat)
  | flush
deriving DecidableEq

/-- A call that has been made, and whether it compiled. -/
structure Event where
  call : Call
  compiled : Bool
deriving DecidableEq

/-- Makes a call; the answer is whether it compiles. -/
def serve (d : Debounce) : Call → Bool × Debounce
  | .note time => (false, d.note time)
  | .poll time => d.poll time
  | .flush => d.flush

/-- The state after calls have been served in turn. -/
def after (d : Debounce) (calls : List Call) : Debounce :=
  calls.foldl (fun d c => (d.serve c).2) d

/-- The calls one after the other, each with whether it compiled. -/
def history (d : Debounce) : List Call → List Event
  | [] => []
  | c :: rest => ⟨c, (d.serve c).1⟩ :: (d.serve c).2.history rest

/-! ## What a history tells -/

/-- An edit has been noted, and nothing has compiled since. -/
def Waits (h : List Event) : Prop :=
  ∃ before time behind, h = before ++ ⟨.note time, false⟩ :: behind ∧
    ∀ e ∈ behind, e.compiled = false

/-- The time of an edit that is noted. -/
def Event.noted? (e : Event) : Option Nat :=
  match e.call with
  | .note time => some time
  | .poll _ | .flush => none

/-- The time of the last edit noted. -/
def lastNote? (h : List Event) : Option Nat :=
  (h.filterMap Event.noted?).getLast?

/-- The call is one that compiles after the history: an edit waits and, if it is
a poll, the quiet time has passed since the last note. -/
def Due (quiet : Nat) (h : List Event) : Call → Prop
  | .note _ => False
  | .poll time => Waits h ∧ ∃ last, lastNote? h = some last ∧
    quiet ≤ time - last
  | .flush => Waits h

variable {h before between behind : List Event} {e : Event} {d : Debounce}
  {quiet time : Nat}

theorem not_waits_nil : ¬ Waits [] := by
  rintro ⟨before, time, behind, heq, -⟩
  exact List.append_ne_nil_of_right_ne_nil before
    (List.cons_ne_nil _ behind) heq.symm

theorem waits_snoc :
    Waits (h ++ [e]) ↔ (∃ time, e = ⟨.note time, false⟩) ∨ e.compiled = false ∧
      Waits h := by
  constructor
  · rintro ⟨before, time, behind, heq, hbehind⟩
    rcases List.eq_nil_or_concat behind with rfl | ⟨behind, last, rfl⟩
    · exact Or.inl ⟨time, List.head_eq_of_cons_eq (List.append_inj' heq rfl).2⟩
    · rw [List.concat_eq_append] at heq hbehind
      rw [← List.cons_append, ← List.append_assoc] at heq
      obtain ⟨rfl, hlast⟩ := List.append_inj' heq rfl
      rw [List.head_eq_of_cons_eq hlast]
      refine Or.inr ⟨hbehind last (by simp), before, time, behind, rfl,
        fun e he => ?_⟩
      exact hbehind e (List.mem_append_left _ he)
  · rintro (⟨time, rfl⟩ | ⟨he, before, time, behind, rfl, hbehind⟩)
    · exact ⟨h, time, [], rfl, nofun⟩
    · refine ⟨before, time, behind ++ [e], by simp, fun e' he' => ?_⟩
      rcases List.mem_append.mp he' with hmem | hmem
      · exact hbehind e' hmem
      · rw [List.mem_singleton.mp hmem, he]

theorem waits_of_note (hbetween : ∀ e ∈ between, e.compiled = false) :
    Waits (before ++ ⟨.note time, false⟩ :: between) :=
  ⟨before, time, between, rfl, hbetween⟩

/-- What waits after a compile has been noted after it. -/
theorem Waits.exists_note (hw : Waits (before ++ e :: between))
    (he : e.compiled = true) : ∃ time, ⟨.note time, false⟩ ∈ between := by
  induction between using List.reverseRecOn with
  | nil =>
      rcases waits_snoc.mp hw with ⟨time, rfl⟩ | ⟨hfalse, -⟩
      · cases he
      · exact absurd (he.symm.trans hfalse) Bool.noConfusion
  | append_singleton between last ih =>
      rw [← List.cons_append, ← List.append_assoc] at hw
      rcases waits_snoc.mp hw with ⟨time, rfl⟩ | ⟨-, hw⟩
      · exact ⟨time, by simp⟩
      · obtain ⟨time, hmem⟩ := ih hw
        exact ⟨time, List.mem_append_left _ hmem⟩

theorem lastNote?_snoc (h : List Event) (e : Event) :
    lastNote? (h ++ [e]) = e.noted?.or (lastNote? h) := by
  rw [lastNote?, List.filterMap_append]
  cases he : e.noted? with
  | none =>
      rw [List.filterMap_cons_none he, List.filterMap_nil, List.append_nil,
        Option.none_or]
      rfl
  | some time =>
      rw [List.filterMap_cons_some he, List.filterMap_nil, List.getLast?_concat,
        Option.some_or]

theorem Waits.exists_last (hw : Waits h) : ∃ last, lastNote? h = some last := by
  obtain ⟨before, time, behind, rfl, -⟩ := hw
  have hmem :
      time ∈ (before ++ ⟨.note time, false⟩ :: behind).filterMap Event.noted? :=
    List.mem_filterMap.mpr ⟨⟨.note time, false⟩, by simp, rfl⟩
  exact ⟨_, List.getLast?_eq_some_getLast (List.ne_nil_of_mem hmem)⟩

/-! ## What a call does to the state -/

/-- A note is kept, and any other call either leaves everything or compiles. -/
theorem serve_cases (d : Debounce) (c : Call) :
    (∃ time, c = .note time ∧ d.serve c = (false, d.note time)) ∨
      (∀ time, c ≠ .note time) ∧
        (d.serve c = (false, d) ∨ d.serve c = (true, d.compile)) := by
  cases c with
  | note time => exact Or.inl ⟨time, rfl, rfl⟩
  | poll time =>
      refine Or.inr ⟨nofun, ?_⟩
      rw [serve, poll]
      split
      · exact Or.inl rfl
      · split
        · exact Or.inl rfl
        · exact Or.inr rfl
  | flush =>
      refine Or.inr ⟨nofun, ?_⟩
      rw [serve, flush]
      split
      · exact Or.inl rfl
      · exact Or.inr rfl

/-- The state says of the history what the calls need to know of it. -/
structure Keeps (quiet : Nat) (h : List Event) (d : Debounce) : Prop where
  quiet : d.quiet = quiet
  pending : d.isPending = true ↔ Waits h
  last : ∀ time, d.lastEdit = some time ↔ Waits h ∧ lastNote? h = some time
  compiles : d.compiles = h.countP Event.compiled

theorem keeps_start (quiet : Nat) : Keeps quiet [] (start quiet) where
  quiet := rfl
  pending := ⟨nofun, fun hw => absurd hw not_waits_nil⟩
  last _ := ⟨nofun, fun hw => absurd hw.1 not_waits_nil⟩
  compiles := rfl

namespace Keeps

/-- Without the time of an edit none waits. -/
theorem not_waits (hd : Keeps quiet h d) (hedit : d.lastEdit = none) :
    ¬ Waits h := by
  intro hw
  obtain ⟨last, hnoted⟩ := hw.exists_last
  have hsome : d.lastEdit = some last := (hd.last last).mpr ⟨hw, hnoted⟩
  cases hedit.symm.trans hsome

theorem serve_iff (hd : Keeps quiet h d) (c : Call) :
    (d.serve c).1 = true ↔ Due quiet h c := by
  cases c with
  | note time => exact ⟨nofun, False.elim⟩
  | poll time =>
      rw [serve, poll, Due]
      cases hedit : d.lastEdit with
      | none => exact ⟨nofun, fun hdue => absurd hdue.1 (hd.not_waits hedit)⟩
      | some last =>
          obtain ⟨hw, hnoted⟩ := (hd.last last).mp hedit
          simp only [hd.quiet, hnoted, hw, true_and, Option.some.injEq,
            exists_eq_left']
          split
          · next hlt =>
              exact ⟨nofun, fun hle => absurd hlt (Nat.not_lt.mpr hle)⟩
          · next hge => exact ⟨fun _ => Nat.not_lt.mp hge, fun _ => rfl⟩
  | flush =>
      rw [serve, flush, Due]
      cases hedit : d.lastEdit with
      | none => exact ⟨nofun, fun hw => absurd hw (hd.not_waits hedit)⟩
      | some last => exact ⟨fun _ => ((hd.last last).mp hedit).1, fun _ => rfl⟩

theorem note (hd : Keeps quiet h d) (time : Nat) :
    Keeps quiet (h ++ [⟨.note time, false⟩]) (d.note time) := by
  have hw : Waits (h ++ [⟨.note time, false⟩]) :=
    waits_snoc.mpr (Or.inl ⟨time, rfl⟩)
  refine ⟨hd.quiet, ⟨fun _ => hw, fun _ => ?_⟩, fun last => ?_, ?_⟩
  · cases hsince : d.pendingSince <;> simp [isPending, Debounce.note, hsince]
  · rw [lastNote?_snoc]
    exact ⟨fun hlast => ⟨hw, hlast⟩, fun hlast => hlast.2⟩
  · rw [List.countP_append, ← hd.compiles]
    rfl

/-- A call that is no note and does not compile. -/
theorem pass (hd : Keeps quiet h d) {c : Call} (hc : ∀ time, c ≠ .note time) :
    Keeps quiet (h ++ [⟨c, false⟩]) d := by
  have hw : Waits (h ++ [⟨c, false⟩]) ↔ Waits h := by
    rw [waits_snoc]
    refine ⟨fun h => h.elim ?_ And.right, fun hw => Or.inr ⟨rfl, hw⟩⟩
    rintro ⟨time, heq⟩
    exact absurd (congrArg Event.call heq) (hc time)
  have hnoted : Event.noted? ⟨c, false⟩ = none := by
    cases c with
    | note time => exact absurd rfl (hc time)
    | poll _ | flush => rfl
  refine ⟨hd.quiet, hd.pending.trans hw.symm, fun last => ?_, ?_⟩
  · rw [lastNote?_snoc, hnoted, Option.none_or, hw]
    exact hd.last last
  · rw [List.countP_append, ← hd.compiles]
    rfl

theorem compile (hd : Keeps quiet h d) (c : Call) :
    Keeps quiet (h ++ [⟨c, true⟩]) d.compile := by
  have hw : ¬ Waits (h ++ [⟨c, true⟩]) := by
    rw [waits_snoc]
    rintro (⟨time, heq⟩ | ⟨heq, -⟩) <;> cases heq
  refine ⟨hd.quiet, ⟨nofun, fun h => absurd h hw⟩,
    fun last => ⟨nofun, fun h => absurd h.1 hw⟩, ?_⟩
  rw [List.countP_append, ← hd.compiles]
  rfl

theorem serve (hd : Keeps quiet h d) (c : Call) :
    Keeps quiet (h ++ [⟨c, (d.serve c).1⟩]) (d.serve c).2 := by
  rcases d.serve_cases c with ⟨time, rfl, hserve⟩ | ⟨hc, hserve | hserve⟩
  · rw [hserve]
    exact hd.note time
  · rw [hserve]
    exact hd.pass hc
  · rw [hserve]
    exact hd.compile c

theorem after (hd : Keeps quiet h d) (calls : List Call) :
    Keeps quiet (h ++ d.history calls) (d.after calls) := by
  induction calls generalizing h d with
  | nil =>
      rw [history, List.append_nil]
      exact hd
  | cons c rest ih =>
      rw [history, List.append_cons]
      exact ih (hd.serve c)

end Keeps

/-! ## Any place in a history -/

/-- A call in a history compiles exactly if it is due after those in front of
it. -/
theorem Keeps.compiled_iff (hd : Keeps quiet h d) {calls : List Call}
    (heq : d.history calls = before ++ e :: behind) :
    e.compiled = true ↔ Due quiet (h ++ before) e.call := by
  induction before generalizing h d calls with
  | nil =>
      cases calls with
      | nil => cases heq
      | cons c rest =>
          obtain ⟨rfl, -⟩ := List.cons.inj heq
          rw [List.append_nil]
          exact hd.serve_iff c
  | cons e' before ih =>
      cases calls with
      | nil => cases heq
      | cons c rest =>
          obtain ⟨rfl, hrest⟩ := List.cons.inj heq
          rw [List.append_cons]
          exact ih (hd.serve c) hrest

/-! ## The whole -/

/-- What a debounce says and does after a history, and what has been done in
it. -/
structure Debounced (quiet : Nat) (h : List Event) (d : Debounce) : Prop where
  pending : d.isPending = true ↔ Waits h
  poll : ∀ time, (d.poll time).1 = true ↔
    d.isPending = true ∧ ∃ last, lastNote? h = some last ∧ quiet ≤ time - last
  flush : d.flush.1 = true ↔ d.isPending = true
  compiles : d.compiles = h.countP Event.compiled
  /-- Between two compiles there is a note. -/
  once : ∀ before c between c' behind,
    h = before ++ ⟨c, true⟩ :: (between ++ ⟨c', true⟩ :: behind) →
      ∃ time, ⟨.note time, false⟩ ∈ between
  /-- A note is followed by a compile at the latest when a flush comes, or a
  poll for which the quiet time has passed since the last note. -/
  followed : ∀ before time between c compiled behind,
    h = before ++ ⟨.note time, false⟩ :: (between ++ ⟨c, compiled⟩ :: behind) →
      (c = .flush ∨ ∃ now last, c = .poll now ∧
        lastNote? (before ++ ⟨.note time, false⟩ :: between) = some last ∧
        quiet ≤ now - last) →
      ∃ e ∈ between ++ [⟨c, compiled⟩], e.compiled = true

/-- Whatever is asked of a debounce, at whatever times, no edit is lost and none
is compiled twice. -/
theorem debounced_history (quiet : Nat) (calls : List Call) :
    Debounced quiet ((start quiet).history calls)
      ((start quiet).after calls) := by
  have hkeeps :
      Keeps quiet ((start quiet).history calls) ((start quiet).after calls) :=
    (keeps_start quiet).after calls
  refine ⟨hkeeps.pending, fun time => ?poll, ?flush, hkeeps.compiles, ?once,
    ?followed⟩
  case poll => rw [hkeeps.pending]; exact hkeeps.serve_iff (.poll time)
  case flush => rw [hkeeps.pending]; exact hkeeps.serve_iff .flush
  case once =>
    intro before c between c' behind heq
    rw [← List.cons_append, ← List.append_assoc] at heq
    have hdue := ((keeps_start quiet).compiled_iff heq).mp rfl
    have hw : Waits (before ++ ⟨c, true⟩ :: between) := by
      cases c' with
      | note time => exact hdue.elim
      | poll time => exact hdue.1
      | flush => exact hdue
    exact hw.exists_note rfl
  case followed =>
    intro before time between c compiled behind heq hc
    by_contra hnone
    have hnone' : ∀ e ∈ between ++ [⟨c, compiled⟩], e.compiled = false :=
      fun e he => Bool.eq_false_iff.mpr fun htrue => hnone ⟨e, he, htrue⟩
    have hw : Waits (before ++ ⟨.note time, false⟩ :: between) :=
      waits_of_note fun e he => hnone' e (List.mem_append_left _ he)
    have hdue : Due quiet (before ++ ⟨.note time, false⟩ :: between) c := by
      rcases hc with rfl | ⟨now, last, rfl, hlast⟩
      · exact hw
      · exact ⟨hw, last, hlast⟩
    rw [← List.cons_append, ← List.append_assoc] at heq
    have htrue := ((keeps_start quiet).compiled_iff heq).mpr hdue
    exact Bool.noConfusion (htrue.symm.trans (hnone' _ (by simp)))

/-- Three edits are followed by one compile. -/
example :
    ((start 300).history
      [.note 0, .note 100, .note 200, .poll 400, .poll 500, .poll 900]).map
      Event.compiled =
    [false, false, false, false, true, false] := by
  decide

end Debounce

end Placard
