import Placard.Proofs.Json.Normal

/-!
# No two values have one text

The first character of a text tells what kind of value it is of. A string ends
at its quote, a number where nothing of a number comes next, and an array or an
object at the bracket behind its last part. So a text is taken apart in one way
only, whatever stands behind it, and two values with one text are the same as
far as the texts of their numbers tell numbers apart. That is asked of the
numbers: a real is written with the fewest digits that identify it, and nothing
here depends on which those are.
-/

namespace Placard.Json

open Text Decimal

/-! ## Kinds of values -/

/-- What the text of a value is told by at its start. -/
inductive Kind where
  | null
  | bool (b : Bool)
  | number
  | string
  | array
  | object

/-- The kind of a value. -/
def kind : Json → Kind
  | .null => .null
  | .bool b => .bool b
  | .number _ => .number
  | .string _ => .string
  | .array _ => .array
  | .object _ => .object

/-- The kind of the values whose text begins with a character. -/
def kindOf? (c : Char) : Option Kind :=
  if c = '-' ∨ isDigit c = true then some .number
  else match c with
    | 'n' => some .null
    | 't' => some (.bool true)
    | 'f' => some (.bool false)
    | '"' => some .string
    | '[' => some .array
    | '\x7b' => some .object
    | _ => none

/-- The first character of a text tells the kind of the value. -/
theorem exists_kindOf? {v : Json} (h : ∀ n ∈ v.numbers, n.Spelled) :
    ∃ c rest, symbols (compact v) = some c :: rest ∧
      kindOf? c = some v.kind := by
  cases v with
  | null => exact ⟨'n', _, rfl, rfl⟩
  | bool b => cases b <;> exact ⟨_, _, rfl, rfl⟩
  | string t => exact ⟨'"', _, symbols_quoted t, rfl⟩
  | array vs => exact ⟨'[', _, symbols_compact_array vs, rfl⟩
  | object ms => exact ⟨'\x7b', _, symbols_compact_object ms, rfl⟩
  | number n =>
      obtain ⟨l, hl⟩ := h n List.mem_cons_self
      obtain ⟨c, rest, hcons, hc⟩ := exists_of_literal? hl
      exact ⟨c, rest, hcons, if_pos hc⟩

/-! ## Parts and what stands behind them -/

theorem symbols_injective : Function.Injective symbols := fun _ _ h =>
  String.toList_inj.mp
    (List.map_injective_iff.mpr (fun _ _ => Option.some.inj) h)

theorem quoted_inj {t u : String} {r s : List Symbol}
    (h : symbols (quoted t) ++ r = symbols (quoted u) ++ s) :
    t = u ∧ r = s := by
  rw [symbols_quoted, symbols_quoted] at h
  simp only [List.cons_append, List.append_assoc, List.cons.injEq, true_and]
    at h
  have hread := congrArg string? h
  rw [string?_quoted, string?_quoted] at hread
  cases hread
  exact ⟨rfl, rfl⟩

/-- A number ends where a comma or a closing bracket comes next. -/
theorem number_inj {n m : Number} (hn : n.Spelled) (hm : m.Spelled)
    {r s : List Symbol} (hr : Stops r) (hs : Stops s)
    (h : symbols n.text ++ r = symbols m.text ++ s) :
    n.text = m.text ∧ r = s := by
  obtain ⟨l, hl⟩ := hn
  obtain ⟨k, hk⟩ := hm
  have hread := congrArg literal? h
  rw [literal?_append hr hl, literal?_append hs hk] at hread
  obtain rfl : r = s := (Prod.mk.inj (Option.some.inj hread)).2
  exact ⟨symbols_injective (List.append_cancel_right h), rfl⟩

/-- What stands behind the first of some parts: the others, or the closing
bracket. -/
def behind (texts : List String) (close : Symbol) (rest : List Symbol) :
    List Symbol :=
  match texts with
  | [] => close :: rest
  | t :: texts => some ',' :: (listed (t :: texts) ++ close :: rest)

theorem listed_cons_append (t : String) (texts : List String) (close : Symbol)
    (rest : List Symbol) :
    listed (t :: texts) ++ close :: rest =
      symbols t ++ behind texts close rest := by
  cases texts with
  | nil => rw [listed, String.intercalate_singleton, behind]
  | cons u texts =>
      rw [listed_cons_cons, List.append_assoc, List.cons_append, behind]

theorem stops_behind (texts : List String) {close : Symbol}
    (hclose : close = some ']' ∨ close = some '\x7d') (rest : List Symbol) :
    Stops (behind texts close rest) := by
  cases texts with
  | nil => exact stops_cons.mpr (Or.inr hclose)
  | cons t texts => exact stops_cons.mpr (Or.inl rfl)

theorem listed_of_behind {texts texts' : List String} {close : Symbol}
    (hclose : close = some ']' ∨ close = some '\x7d') {r s : List Symbol}
    (h : behind texts close r = behind texts' close s) :
    listed texts ++ close :: r = listed texts' ++ close :: s := by
  have hcomma : close ≠ some ',' := by
    rcases hclose with rfl | rfl <;> decide
  cases texts with
  | nil =>
      cases texts' with
      | nil => exact h
      | cons u texts' => exact absurd (List.cons.inj h).1 hcomma
  | cons t texts =>
      cases texts' with
      | nil => exact absurd (List.cons.inj h).1.symm hcomma
      | cons u texts' => exact (List.cons.inj h).2

/-- Parts with commas between them and a bracket behind are matched one by one
if each part is told by its text. -/
theorem forall₂_of_listed {α : Type} {f : α → String} {R : α → α → Prop}
    {close : Symbol} (hclose : close = some ']' ∨ close = some '\x7d')
    {as bs : List α}
    (hopens : ∀ a ∈ as ++ bs, ∃ c rest, symbols (f a) = c :: rest ∧ c ≠ close)
    (hinj : ∀ a ∈ as, ∀ b ∈ bs, ∀ r s, Stops r → Stops s →
      symbols (f a) ++ r = symbols (f b) ++ s → R a b ∧ r = s)
    {r s : List Symbol}
    (h : listed (as.map f) ++ close :: r = listed (bs.map f) ++ close :: s) :
    List.Forall₂ R as bs ∧ r = s := by
  have hfirst {a : α} {as : List α} {r s : List Symbol}
      (ha : ∃ c rest, symbols (f a) = c :: rest ∧ c ≠ close) :
      close :: r ≠ listed ((a :: as).map f) ++ close :: s := by
    obtain ⟨c, rest, hc, hne⟩ := ha
    rw [List.map_cons, listed_cons_append, hc]
    exact fun heq => hne (List.cons.inj heq).1.symm
  induction as generalizing bs with
  | nil =>
      cases bs with
      | nil => exact ⟨.nil, (List.cons.inj h).2⟩
      | cons b bs => exact absurd h (hfirst (hopens b List.mem_cons_self))
  | cons a as ih =>
      cases bs with
      | nil => exact absurd h.symm (hfirst (hopens a List.mem_cons_self))
      | cons b bs =>
          rw [List.map_cons, List.map_cons, listed_cons_append,
            listed_cons_append] at h
          obtain ⟨hab, hrest⟩ :=
            hinj a List.mem_cons_self b List.mem_cons_self _ _
              (stops_behind _ hclose r) (stops_behind _ hclose s) h
          obtain ⟨hall, rfl⟩ :=
            ih (fun x hx => hopens x ((List.mem_append.mp hx).elim
              (fun hx => List.mem_append_left _ (List.mem_cons_of_mem _ hx))
              (fun hx => List.mem_append_right _ (List.mem_cons_of_mem _ hx))))
            (fun x hx y hy => hinj x (List.mem_cons_of_mem _ hx) y
              (List.mem_cons_of_mem _ hy))
            (listed_of_behind hclose hrest)
          exact ⟨.cons hab hall, rfl⟩

/-! ## Values -/

/-- What one text tells of two values: their numbers have the same texts in
turn, and the values are the same if numbers with one text are. -/
structure Alike (v w : Json) : Prop where
  texts : v.numbers.map Number.text = w.numbers.map Number.text
  eq : (∀ n ∈ v.numbers, ∀ m ∈ w.numbers, n.text = m.text → n = m) → v = w

theorem Alike.refl (v : Json) : Alike v v :=
  ⟨rfl, fun _ => rfl⟩

theorem alike_number {n m : Number} (h : n.text = m.text) :
    Alike (.number n) (.number m) where
  texts := congrArg (· :: []) h
  eq hinj :=
    congrArg Json.number (hinj n List.mem_cons_self m List.mem_cons_self h)

theorem alike_array {vs ws : List Json} (h : List.Forall₂ Alike vs ws) :
    Alike (.array vs) (.array ws) := by
  have hall : (numbersOfElements vs).map Number.text =
    (numbersOfElements ws).map Number.text ∧
      ((∀ n ∈ numbersOfElements vs, ∀ m ∈ numbersOfElements ws,
        n.text = m.text → n = m) →
        vs = ws) := by
    induction h with
    | nil => exact ⟨rfl, fun _ => rfl⟩
    | cons hvw _ ih =>
        refine ⟨?_, fun hinj => ?_⟩
        · rw [numbersOfElements, numbersOfElements, List.map_append,
            List.map_append, hvw.texts, ih.1]
        · exact congrArg₂ List.cons
            (hvw.eq fun n hn m hm => hinj n (List.mem_append_left _ hn) m
              (List.mem_append_left _ hm))
            (ih.2 fun n hn m hm => hinj n (List.mem_append_right _ hn) m
              (List.mem_append_right _ hm))
  exact ⟨hall.1, fun hinj => congrArg Json.array (hall.2 hinj)⟩

theorem alike_object {ms ms' : List (String × Json)}
    (h : List.Forall₂ (fun m m' => m.1 = m'.1 ∧ Alike m.2 m'.2) ms ms') :
    Alike (.object ms) (.object ms') := by
  have hall : (numbersOfMembers ms).map Number.text =
    (numbersOfMembers ms').map Number.text ∧
      ((∀ n ∈ numbersOfMembers ms, ∀ m ∈ numbersOfMembers ms', n.text = m.text →
        n = m) →
        ms = ms') := by
    induction h with
    | nil => exact ⟨rfl, fun _ => rfl⟩
    | cons hmm' _ ih =>
        obtain ⟨hname, hvalue⟩ := hmm'
        refine ⟨?_, fun hinj => ?_⟩
        · rw [numbersOfMembers, numbersOfMembers, List.map_append,
            List.map_append, hvalue.texts, ih.1]
        · exact congrArg₂ List.cons
            (Prod.ext hname (hvalue.eq fun n hn m hm => hinj n
              (List.mem_append_left _ hn) m (List.mem_append_left _ hm)))
            (ih.2 fun n hn m hm => hinj n (List.mem_append_right _ hn) m
              (List.mem_append_right _ hm))
  exact ⟨hall.1, fun hinj => congrArg Json.object (hall.2 hinj)⟩

/-- The text of a member of an object. -/
def memberText (m : String × Json) : String :=
  quoted m.1 ++ ":" ++ compact m.2

theorem compactElements_eq_map (vs : List Json) :
    compactElements vs = vs.map compact := by
  induction vs with
  | nil => rfl
  | cons v vs ih => rw [compactElements, ih, List.map_cons]

theorem compactMembers_eq_map (ms : List (String × Json)) :
    compactMembers ms = ms.map memberText := by
  induction ms with
  | nil => rfl
  | cons m ms ih => rw [compactMembers, ih, List.map_cons, memberText]

/-- Two values with one text are of one kind. -/
theorem kind_eq {v w : Json} (hv : ∀ n ∈ v.numbers, n.Spelled)
    (hw : ∀ m ∈ w.numbers, m.Spelled) {r s : List Symbol}
    (htext : symbols (compact v) ++ r = symbols (compact w) ++ s) :
    v.kind = w.kind := by
  obtain ⟨c, vrest, hvc, hvkind⟩ := exists_kindOf? hv
  obtain ⟨d, wrest, hwd, hwkind⟩ := exists_kindOf? hw
  rw [hvc, hwd] at htext
  cases (List.cons.inj htext).1
  exact Option.some.inj (hvkind.symm.trans hwkind)

/-- Two members are told by their texts if their values are. -/
theorem memberText_inj {m m' : String × Json} {r s : List Symbol} {P : Prop}
    (hvalue : symbols (compact m.2) ++ r = symbols (compact m'.2) ++ s →
      P ∧ r = s)
    (h : symbols (memberText m) ++ r = symbols (memberText m') ++ s) :
    (m.1 = m'.1 ∧ P) ∧ r = s := by
  rw [memberText, memberText, symbols_member, symbols_member, List.append_assoc,
    List.append_assoc] at h
  obtain ⟨hname, hrest⟩ := quoted_inj h
  obtain ⟨hp, rfl⟩ := hvalue (List.cons.inj hrest).2
  exact ⟨⟨hname, hp⟩, rfl⟩

/-- A value is told by its text, whatever stands behind it. -/
def Told (v : Json) : Prop :=
  ∀ (w : Json) (r s : List Symbol), (∀ n ∈ v.numbers, n.Spelled) →
    (∀ m ∈ w.numbers, m.Spelled) → Stops r → Stops s →
    symbols (compact v) ++ r = symbols (compact w) ++ s → Alike v w ∧ r = s

theorem told_array {vs : List Json} (h : ∀ v ∈ vs, Told v) :
    Told (.array vs) := by
  intro w r s hv hw _ _ htext
  have hkind := kind_eq hv hw htext
  cases w with
  | array ws =>
      rw [symbols_compact_array, symbols_compact_array, List.cons_append,
        List.cons_append, List.append_assoc, List.append_assoc,
        compactElements_eq_map, compactElements_eq_map] at htext
      have hopens (x : Json) (hx : ∀ n ∈ x.numbers, n.Spelled) :
          ∃ c rest, symbols (compact x) = c :: rest ∧ c ≠ some ']' := by
        obtain ⟨c, rest, hc, hkind⟩ := exists_kindOf? hx
        refine ⟨some c, rest, hc, ?_⟩
        rintro ⟨⟩
        cases hkind
      have hin {us : List Json}
          (hus : ∀ n ∈ (Json.array us).numbers, n.Spelled) :
          ∀ x ∈ us, ∀ n ∈ x.numbers, n.Spelled :=
        fun x hx n hn => hus n (mem_numbersOfElements.mpr ⟨x, hx, hn⟩)
      refine (forall₂_of_listed (Or.inl rfl) (fun x hx => hopens x ?_)
        (fun x hx y hy r s hr hs => h x hx y r s (hin hv x hx)
          (hin hw y hy) hr hs)
        (List.cons.inj htext).2).imp_left alike_array
      exact (List.mem_append.mp hx).elim (hin hv x) (hin hw x)
  | _ => cases hkind

theorem told_object {ms : List (String × Json)} (h : ∀ m ∈ ms, Told m.2) :
    Told (.object ms) := by
  intro w r s hv hw _ _ htext
  have hkind := kind_eq hv hw htext
  cases w with
  | object ms' =>
      rw [symbols_compact_object, symbols_compact_object, List.cons_append,
        List.cons_append, List.append_assoc, List.append_assoc,
        compactMembers_eq_map, compactMembers_eq_map] at htext
      have hopens (m : String × Json) :
          ∃ c rest, symbols (memberText m) = c :: rest ∧ c ≠ some '\x7d' := by
        rw [memberText, symbols_member, symbols_quoted]
        exact ⟨_, _, rfl, by decide⟩
      have hin {us : List (String × Json)}
          (hus : ∀ n ∈ (Json.object us).numbers, n.Spelled) :
          ∀ m ∈ us, ∀ n ∈ m.2.numbers, n.Spelled :=
        fun m hm n hn => hus n (mem_numbersOfMembers.mpr ⟨m, hm, hn⟩)
      exact (forall₂_of_listed (Or.inr rfl) (fun m _ => hopens m)
        (fun m hm m' hm' r s hr hs => memberText_inj
          (h m hm m'.2 r s (hin hv m hm) (hin hw m' hm') hr hs))
        (List.cons.inj htext).2).imp_left alike_object
  | _ => cases hkind

theorem told (v : Json) : Told v := by
  induction v using induct with
  | null =>
      intro w r s hv hw _ _ h
      have hkind := kind_eq hv hw h
      cases w <;> cases hkind
      exact ⟨.refl _, List.append_cancel_left h⟩
  | bool b =>
      intro w r s hv hw _ _ h
      have hkind := kind_eq hv hw h
      cases w <;> cases hkind
      exact ⟨.refl _, List.append_cancel_left h⟩
  | number n =>
      intro w r s hv hw hr hs h
      have hkind := kind_eq hv hw h
      cases w with
      | number m =>
          exact (number_inj (hv n List.mem_cons_self) (hw m List.mem_cons_self)
            hr hs h).imp_left alike_number
      | _ => cases hkind
  | string t =>
      intro w r s hv hw _ _ h
      have hkind := kind_eq hv hw h
      cases w with
      | string u =>
          obtain ⟨rfl, hrest⟩ := quoted_inj h
          exact ⟨.refl _, hrest⟩
      | _ => cases hkind
  | array vs ih => exact told_array ih
  | object ms ih => exact told_object ih

theorem alike_of_compact_eq {v w : Json} (hv : ∀ n ∈ v.numbers, n.Spelled)
    (hw : ∀ m ∈ w.numbers, m.Spelled) (h : compact v = compact w) : Alike v w :=
  (told v w [] [] hv hw stops_nil stops_nil
    (congrArg (fun t => symbols t ++ []) h)).1

end Placard.Json
