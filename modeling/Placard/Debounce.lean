/-!
# Waiting for edits to settle

A burst of edits is followed by one compile, once no edit has come for a while.
Whoever makes the edits supplies the clock, in milliseconds; it need not run
forward. A poll before the last edit counts as one at that edit.

Of the edits that wait, the time of the first and that of the last are kept.
Whether any wait is told by the first, and when to compile by the last.

Times and the number of compiles are natural numbers here. In a counter of 64
bits the number is the same as long as it fits, and as no call compiles more
than once, it fits for the first 2^64 - 1 calls.
-/

namespace Placard

/-- The edits that wait for a compile, and the compiles so far. -/
structure Debounce where
  /-- How long no edit must have come. -/
  quiet : Nat
  /-- The time of the first edit that has not been compiled. -/
  pendingSince : Option Nat
  /-- The time of the last edit that has not been compiled. -/
  lastEdit : Option Nat
  compiles : Nat
deriving DecidableEq

namespace Debounce

/-- Nothing edited and nothing compiled. -/
def start (quiet : Nat) : Debounce := ⟨quiet, none, none, 0⟩

/-- Whether an edit waits for its compile. -/
def isPending (d : Debounce) : Bool :=
  d.pendingSince.isSome

/-- Takes an edit in. It is the first of those that wait only if none did
before. -/
def note (d : Debounce) (time : Nat) : Debounce :=
  { d with
    pendingSince := d.pendingSince.or (some time)
    lastEdit := some time }

/-- Counts a compile, and leaves nothing that waits for one. -/
def compile (d : Debounce) : Debounce :=
  { d with pendingSince := none, lastEdit := none, compiles := d.compiles + 1 }

/-- Compiles if an edit waits and none has come for the quiet time; the answer
is whether it does. -/
def poll (d : Debounce) (time : Nat) : Bool × Debounce :=
  match d.lastEdit with
  | none => (false, d)
  | some last => if time - last < d.quiet then (false, d) else (true, d.compile)

/-- Compiles if an edit waits; the answer is whether it does. -/
def flush (d : Debounce) : Bool × Debounce :=
  match d.lastEdit with
  | none => (false, d)
  | some _ => (true, d.compile)

end Debounce

end Placard
