import Placard.Proofs.Wire.Tokens

/-!
# What commands on variables do

The language of the wire, told from the texts of the commands alone: how a
command is read, what it does to a store of registers, and what a text shows
over a store. A register is called by what stands behind the dollar sign, so
the variable of a field has two, and nothing of layers or fields is left.

What a step of a calculation does to a value is not said here, and neither is
what the metadata of an asset holds; both are part of a world that is given.
A command that reads a register which has not been set has no meaning, and a
text that refers to one shows nothing.
-/

namespace Placard

open Text Decimal

/-! ## Reading -/

/-- A command on registers. -/
inductive Instruction where
  | assign (target value : List Char)
  | lookUp (target key : List Char)
  /-- What follows, up to `endIf`, is done if the register is not empty. -/
  | ifFound (register : List Char)
  | endIf
  /-- `target` holds what the steps make of `source`: each an operation with its
  operand. Without any it is a copy. -/
  | compute (target source : List Char) (steps : List (List Char × List Char))
deriving DecidableEq

namespace Instruction

/-- What stands between two exclamation marks. -/
def readQuoted? (s : List Char) : Option (List Char) := do
  let rest ← after? ['!'] s
  let (quoted, rest) ← cut? '!' rest
  if rest.isEmpty then some (unescapeChars quoted) else none

/-- Operations and operands in turn. -/
def readSteps? : List (List Char) → Option (List (List Char × List Char))
  | [] => some []
  | [_] => none
  | op :: operand :: rest =>
    (readSteps? rest).map fun steps => (op, operand) :: steps

/-- The command that sets a register to what stands behind it. -/
def readRight? (target s : List Char) : Option Instruction :=
  match after? ['$'] s with
  | some s =>
    match split '_' s with
    | [] => none
    | source :: parts => (readSteps? parts).map (compute target source)
  | none =>
    match after? ['m', 'd', ':'] s with
    | some s => (readQuoted? s).map (lookUp target)
    | none =>
      if Literal.isPlainNumber s then some (assign target s)
      else (readQuoted? s).map (assign target)

/-- A command as it is read. -/
def read? (s : List Char) : Option Instruction :=
  if s = ['i', 'f', '_', 'e', 'n', 'd'] then some endIf
  else
    match after? ['i', 'f', '_', '$'] s with
    | some s => do
      let (register, test) ← cut? '_' s
      if test = ['n', 'e', '_', '!', '!'] then some (ifFound register) else none
    | none => do
      let s ← after? ['$'] s
      let (target, right) ← cut? '_' s
      readRight? target right

/-- The register that a command sets. -/
def writes? : Instruction → Option (List Char)
  | assign target _ => some target
  | lookUp target _ => some target
  | ifFound _ => none
  | endIf => none
  | compute target _ _ => some target

/-- The registers that a command reads. -/
def reads : Instruction → List (List Char)
  | assign _ _ => []
  | lookUp _ _ => []
  | ifFound register => [register]
  | endIf => []
  | compute _ source _ => [source]

end Instruction

/-! ## Running -/

/-- What the registers hold that have been set. -/
abbrev Store := List Char → Option (List Char)

/-- The store with a value in a register. -/
def Store.set (s : Store) (register value : List Char) : Store :=
  fun r => if r = register then some value else s r

/-- What the commands do not say: the metadata of the asset, and what an
operation with its operand makes of a value. -/
structure World where
  metadata : (key : List Char) → Option (List Char)
  apply : (op operand value : List Char) → List Char

/-- What a chain of operations makes of a value. -/
def World.compute (w : World) (steps : List (List Char × List Char))
    (value : List Char) : List Char :=
  steps.foldl (fun v (op, operand) => w.apply op operand v) value

/-- A store, and whether commands are done or passed over. -/
structure Machine where
  store : Store
  running : Bool

namespace Machine

/-- Nothing has been set. -/
def start : Machine := ⟨fun _ => none, true⟩

/-- The machine with a value in a register. -/
def set (m : Machine) (register value : List Char) : Machine :=
  { m with store := m.store.set register value }

/-- A command carried out. -/
def perform (w : World) (m : Machine) : Instruction → Option Machine
  | .assign target value => some (m.set target value)
  | .lookUp target key => some (m.set target ((w.metadata key).getD []))
  | .ifFound register => do
    let value ← m.store register
    some { m with running := !value.isEmpty }
  | .endIf => some { m with running := true }
  | .compute target source steps => do
    let value ← m.store source
    some (m.set target (w.compute steps value))

/-- A command carried out or passed over. -/
def step (w : World) (m : Machine) (i : Instruction) : Option Machine :=
  if m.running ∨ i = .endIf then m.perform w i else some m

/-- The texts of commands read and carried out in turn. -/
def run (w : World) (m : Machine) : List (List Char) → Option Machine
  | [] => some m
  | s :: rest => do
    let i ← Instruction.read? s
    let m ← m.step w i
    m.run w rest

end Machine

/-! ## Showing -/

namespace Store

/-- What stands behind a dollar sign in a text: the value of the register in
parentheses, and the text behind it. -/
def expand? (s : Store) (piece : List Char) : Option (List Char) := do
  let rest ← after? ['('] piece
  let (register, rest) ← cut? ')' rest
  let value ← s register
  some (value ++ unescapeChars rest)

/-- What a text shows. -/
def show? (s : Store) (payload : List Char) : Option (List Char) :=
  match split '$' payload with
  | [] => none
  | front :: pieces =>
    (pieces.mapM s.expand?).map fun shown => unescapeChars front ++
      shown.flatten

end Store

/-! ## Commands are read as what they are -/

namespace Variable

/-- The register of the value. -/
def register (v : Variable) : List Char := 'f' :: v.name.toList

/-- The register of what a look-up gave. -/
def scratchRegister (v : Variable) : List Char := 'm' :: v.name.toList

theorem toList_value (v : Variable) : v.value.toList = '$' :: v.register := by
  simp only [value, register, String.toList_append, String.reduceToList,
    List.cons_append, List.nil_append]

theorem toList_scratch (v : Variable) :
    v.scratch.toList = '$' :: v.scratchRegister := by
  simp only [scratch, scratchRegister, String.toList_append,
    String.reduceToList, List.cons_append, List.nil_append]

theorem toList_reference (v : Variable) :
    v.reference.toList = '$' :: '(' :: (v.register ++ [')']) := by
  simp only [reference, register, String.toList_append, String.reduceToList,
    List.cons_append, List.nil_append]

theorem register_injective {v v' : Variable} (h : v.register = v'.register) :
    v = v' := by
  have hname := String.toList_injective (List.cons.inj h).2
  cases v
  cases v'
  exact congrArg Variable.mk hname

theorem scratchRegister_injective {v v' : Variable}
    (h : v.scratchRegister = v'.scratchRegister) : v = v' :=
  register_injective (congrArg ('f' :: ·) (List.cons.inj h).2)

theorem register_ne_scratchRegister (v v' : Variable) :
    v.register ≠ v'.scratchRegister := by
  intro h
  exact absurd (List.cons.inj h).1 (by decide)

theorem Named.not_mem_register {v : Variable} (h : Named v.name.toList)
    {c : Char} (hc : isNameChar c = false) :
    c ∉ v.register ∧ c ∉ v.scratchRegister := by
  have hf : isNameChar 'f' = true := by decide
  have hm : isNameChar 'm' = true := by decide
  refine ⟨List.not_mem_cons_of_ne_of_not_mem ?_ (h.not_mem hc),
    List.not_mem_cons_of_ne_of_not_mem ?_ (h.not_mem hc)⟩
  · rintro rfl
    rw [hf] at hc
    cases hc
  · rintro rfl
    rw [hm] at hc
    cases hc

end Variable

theorem Literal.toList_token_text (s : String) :
    (Literal.text s).token.toList = '!' :: (escapeChars s.toList ++ ['!']) := by
  simp only [token, String.toList_append, String.reduceToList, toList_escape,
    List.cons_append, List.nil_append]

namespace Command

theorem toList_assign (target : Variable) (literal : Literal) :
    (assign target literal).text.toList =
      '$' :: (target.register ++ '_' :: literal.token.toList) := by
  simp only [text, String.toList_append, Variable.toList_value,
    String.reduceToList, List.append_assoc, List.cons_append, List.nil_append]

theorem toList_lookUp (target : Variable) (key : String) :
    (lookUp target key).text.toList =
      '$' :: (target.scratchRegister ++
        '_' :: 'm' :: 'd' :: ':' :: '!' ::
          (escapeChars key.toList ++ ['!'])) := by
  simp only [text, String.toList_append, Variable.toList_scratch,
    String.reduceToList, toList_escape, List.append_assoc, List.cons_append,
    List.nil_append]

theorem toList_ifFound (target : Variable) :
    (ifFound target).text.toList =
      'i' :: 'f' :: '_' :: '$' :: (target.scratchRegister ++
        '_' :: ['n', 'e', '_', '!', '!']) := by
  simp only [text, String.toList_append, Variable.toList_scratch,
    String.reduceToList, List.cons_append, List.nil_append]

theorem toList_keep (target : Variable) :
    (keep target).text.toList =
      '$' :: (target.register ++ '_' :: '$' :: target.scratchRegister) := by
  simp only [text, String.toList_append, Variable.toList_value,
    Variable.toList_scratch, String.reduceToList, List.append_assoc,
    List.cons_append, List.nil_append]

theorem toList_derive (target source : Variable) (steps : List Step) :
    (derive target source steps).text.toList =
      '$' :: (target.register ++ '_' :: '$' :: (source.register ++
        (String.join (steps.map stepText)).toList)) := by
  simp only [text, String.toList_append, Variable.toList_value,
    String.reduceToList, List.append_assoc, List.cons_append, List.nil_append]

end Command

/-- A step as it is read. -/
def Step.parts (s : Step) : List Char × List Char :=
  (s.op.token.toList, (wireNumber s.operand).toList)

/-- A command as it is read. -/
def Command.instruction : Command → Instruction
  | .assign target literal => .assign target.register literal.raw.toList
  | .lookUp target key => .lookUp target.scratchRegister key.toList
  | .ifFound target => .ifFound target.scratchRegister
  | .keep target => .compute target.register target.scratchRegister []
  | .endIf => .endIf
  | .derive target source steps =>
    .compute target.register source.register (steps.map Step.parts)

namespace Instruction

theorem readQuoted?_escape (s : String) :
    readQuoted? ('!' :: (escapeChars s.toList ++ ['!'])) = some s.toList := by
  have hfree := (plain_escapeChars s.toList).not_mem (c := '!') (by decide)
  have hafter := after?_append ['!'] (escapeChars s.toList ++ ['!'])
  simp only [readQuoted?, List.cons_append, List.nil_append] at hafter ⊢
  simp only [hafter, cut?_append_cons hfree, Option.bind_eq_bind,
    Option.bind_some, List.isEmpty_nil, if_true, unescapeChars_escapeChars]

theorem split_steps {source : List Char} (h : '_' ∉ source)
    (steps : List Step) :
    split '_' (source ++ (String.join (steps.map Command.stepText)).toList) =
      source :: (steps.map Step.parts).flatMap fun (op, operand) =>
        [op, operand] := by
  rw [String.toList_join, List.flatMap_map]
  induction steps generalizing source with
  | nil => rw [List.flatMap_nil, List.append_nil, split_of_not_mem h]; rfl
  | cons s steps ih =>
      have hop : '_' ∉ s.op.token.toList := by cases s.op <;> decide
      have hoperand : '_' ∉ (wireNumber s.operand).toList :=
        (numeric_wireNumber _).not_mem (by decide)
      simp only [List.flatMap_cons, Command.stepText, String.toList_append,
        String.reduceToList, List.append_assoc, List.cons_append,
        List.nil_append, List.map_cons, Step.parts] at ih ⊢
      rw [split_append_cons h, split_append_cons hop, ih hoperand]

theorem readSteps?_flatMap (steps : List (List Char × List Char)) :
    readSteps? (steps.flatMap fun (op, operand) => [op, operand]) =
      some steps := by
  induction steps with
  | nil => rfl
  | cons s steps ih =>
      simp only [List.flatMap_cons, List.cons_append, List.nil_append,
        readSteps?, ih, Option.map_some]

theorem read?_register {register : List Char} (h : '_' ∉ register)
    (right : List Char) :
    read? ('$' :: (register ++ '_' :: right)) = readRight? register right := by
  have hdollar : '$' ≠ 'i' := by decide
  have hif : after? ['i', 'f', '_', '$'] ('$' :: (register ++ '_' :: right)) =
    none := rfl
  have hafter : after? ['$'] ('$' :: (register ++ '_' :: right)) =
      some (register ++ '_' :: right) := rfl
  rw [read?, if_neg fun heq => hdollar (List.cons.inj heq).1, hif]
  simp only [hafter, Option.bind_eq_bind, Option.bind_some, cut?_append_cons h]

theorem readRight?_plainNumber {s : List Char}
    (h : Literal.isPlainNumber s = true) (target : List Char) :
    readRight? target s = some (assign target s) := by
  have hnumeric := numeric_of_isPlainNumber h
  have hdollar : after? ['$'] s = none := by
    cases hs : after? ['$'] s with
    | none => rfl
    | some rest =>
        rw [after?_eq_some_iff.mp hs] at hnumeric
        exact absurd (hnumeric '$' List.mem_cons_self) (by decide)
  have hmd : after? ['m', 'd', ':'] s = none := by
    cases hs : after? ['m', 'd', ':'] s with
    | none => rfl
    | some rest =>
        rw [after?_eq_some_iff.mp hs] at hnumeric
        exact absurd (hnumeric 'm' List.mem_cons_self) (by decide)
  simp only [readRight?, hdollar, hmd, h, if_true]

theorem readRight?_quoted (target : List Char) (s : String) :
    readRight? target ('!' :: (escapeChars s.toList ++ ['!'])) =
      some (assign target s.toList) := by
  have hnumber :
      Literal.isPlainNumber ('!' :: (escapeChars s.toList ++ ['!'])) =
        false := by
    refine Bool.eq_false_iff.mpr fun h => ?_
    exact absurd (numeric_of_isPlainNumber h '!' List.mem_cons_self) (by decide)
  have hdollar : after? ['$'] ('!' :: (escapeChars s.toList ++ ['!'])) = none :=
    rfl
  have hmd : after? ['m', 'd', ':'] ('!' :: (escapeChars s.toList ++ ['!'])) =
    none := rfl
  simp only [readRight?, hdollar, hmd, hnumber, readQuoted?_escape,
    Option.map_some]
  rfl

/-- Every command is read as what it is. -/
theorem read?_text {c : Command} (h : c.WellFormed) :
    read? c.text.toList = some c.instruction := by
  have hvalue {v : Variable} (hv : Variable.Named v.name.toList) :
      '_' ∉ v.register :=
    (hv.not_mem_register rfl).1
  have hscratch {v : Variable} (hv : Variable.Named v.name.toList) :
      '_' ∉ v.scratchRegister :=
    (hv.not_mem_register rfl).2
  cases c with
  | assign target literal =>
      rw [Command.toList_assign, read?_register (hvalue h.1)]
      cases literal with
      | number digits => exact readRight?_plainNumber h.2 _
      | text s =>
          rw [Literal.toList_token_text]
          exact readRight?_quoted _ s
  | lookUp target key =>
      have hdollar : after? ['$'] ('m' :: 'd' :: ':' :: '!' ::
          (escapeChars key.toList ++ ['!'])) = none := rfl
      have hmd : after? ['m', 'd', ':'] ('m' :: 'd' :: ':' :: '!' ::
          (escapeChars key.toList ++ ['!'])) =
            some ('!' :: (escapeChars key.toList ++ ['!'])) := rfl
      rw [Command.toList_lookUp, read?_register (hscratch h)]
      simp only [readRight?, hdollar, hmd, readQuoted?_escape, Option.map_some]
      rfl
  | ifFound target =>
      have hafter : after? ['i', 'f', '_', '$'] ('i' :: 'f' :: '_' :: '$' ::
          (target.scratchRegister ++ '_' :: ['n', 'e', '_', '!', '!'])) =
            some (target.scratchRegister ++ '_' :: ['n', 'e', '_', '!', '!']) :=
              rfl
      rw [Command.toList_ifFound, read?, if_neg (by simp), hafter]
      simp only [Option.bind_eq_bind, Option.bind_some,
        cut?_append_cons (hscratch h), if_true]
      rfl
  | keep target =>
      have hdollar : after? ['$'] ('$' :: target.scratchRegister) =
          some target.scratchRegister := rfl
      rw [Command.toList_keep, read?_register (hvalue h)]
      simp only [readRight?, hdollar, split_of_not_mem (hscratch h)]
      rfl
  | endIf => rfl
  | derive target source steps =>
      have hdollar : after? ['$'] ('$' :: (source.register ++
          (String.join (steps.map Command.stepText)).toList)) =
            some (source.register ++
              (String.join (steps.map Command.stepText)).toList) := rfl
      rw [Command.toList_derive, read?_register (hvalue h.1)]
      simp only [readRight?, hdollar, split_steps (hvalue h.2),
        readSteps?_flatMap, Option.map_some]
      rfl

end Instruction

namespace Machine

@[simp] theorem store_set_self (m : Machine) (r value : List Char) :
    (m.set r value).store r = some value := if_pos rfl

theorem store_set_of_ne (m : Machine) {r r' : List Char} (h : r' ≠ r)
    (value : List Char) : (m.set r value).store r' = m.store r' := if_neg h

theorem step_of_running {w : World} {m : Machine} (h : m.running = true)
    (i : Instruction) : m.step w i = m.perform w i := if_pos (Or.inl h)

theorem step_of_not_running {w : World} {m : Machine} (h : m.running = false)
    {i : Instruction} (hi : i ≠ .endIf) : m.step w i = some m := by
  refine if_neg ?_
  rw [h]
  exact fun hor => hor.elim Bool.false_ne_true hi

theorem step_ifFound {w : World} {m : Machine} (h : m.running = true)
    {register value : List Char} (hvalue : m.store register = some value) :
    m.step w (.ifFound register) = some { m with
      running := !value.isEmpty } := by
  rw [step_of_running h, perform, hvalue]
  rfl

theorem step_compute {w : World} {m : Machine} (h : m.running = true)
    {source value : List Char} (hvalue : m.store source = some value)
    (target : List Char) (steps : List (List Char × List Char)) :
    m.step w (.compute target source steps) =
      some (m.set target (w.compute steps value)) := by
  rw [step_of_running h, perform, hvalue]
  rfl

theorem run_append (w : World) (m : Machine) (xs ys : List (List Char)) :
    m.run w (xs ++ ys) = (m.run w xs).bind fun m => m.run w ys := by
  induction xs generalizing m with
  | nil => rfl
  | cons x xs ih =>
      simp only [List.cons_append, run, Option.bind_eq_bind]
      cases Instruction.read? x with
      | none => rfl
      | some i =>
          simp only [Option.bind_some]
          cases m.step w i with
          | none => rfl
          | some m' => exact ih m'

theorem run_cons_text (w : World) (m : Machine) {c : Command} (h : c.WellFormed)
    (rest : List (List Char)) :
    m.run w (c.text.toList :: rest) =
      (m.step w c.instruction).bind fun m => m.run w rest := by
  simp only [run, Instruction.read?_text h, Option.bind_eq_bind,
    Option.bind_some]

end Machine

end Placard
