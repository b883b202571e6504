import Placard.Decimal.Reader
import Placard.Template.Size

/-!
# Arguments

A command line names a task and gives it options. Options may stand before the
task only if all tasks have them. An option with a value takes it from behind an
equals sign, from the rest of a short option, or from the next argument, which
must not look like an option itself. No option is given twice in one place, and
one that is given before the task and again behind it counts as given there.
-/

namespace Placard.CommandLine

/-- An option of the command line. -/
inductive Flag where
  | config
  | jsonLogs
  | dir
  | rules
  | asset
  | canvas
  | fields
  | rendered
  | scale
deriving DecidableEq

namespace Flag

/-- What stands behind two hyphens for the option. -/
def long : Flag → String
  | config => "config"
  | jsonLogs => "json-logs"
  | dir => "dir"
  | rules => "rules"
  | asset => "asset"
  | canvas => "canvas"
  | fields => "fields"
  | rendered => "rendered"
  | scale => "scale"

/-- The letter behind one hyphen, for the options that have one. -/
def short? : Flag → Option Char
  | config => some 'c'
  | dir => some 'd'
  | rules => some 'r'
  | asset => some 'a'
  | _ => none

/-- Whether the option is followed by a value. -/
def takesValue : Flag → Bool
  | jsonLogs => false
  | _ => true

/-- Whether the value is a path, which is not empty. -/
def isPath : Flag → Bool
  | config | dir | rules => true
  | _ => false

end Flag

/-- What the program can be asked to do. -/
inductive Task where
  | templates
  | validate
  | compile
  | parse
  | project
deriving DecidableEq

namespace Task

/-- The tasks in the order in which a usage text lists them. -/
def all : List Task := [templates, validate, compile, parse, project]

/-- The word that asks for the task. -/
def name : Task → String
  | templates => "templates"
  | validate => "validate"
  | compile => "compile"
  | parse => "parse"
  | project => "project"

/-- The options that all tasks have. -/
def globalFlags : List Flag := [.config, .jsonLogs]

/-- The options that a task has besides. -/
def flags : Task → List Flag
  | templates => [.dir]
  | validate => [.rules]
  | compile => [.rules, .asset, .canvas, .fields]
  | parse => [.rules, .asset, .canvas]
  | project => [.rules, .rendered, .scale]

end Task

/-! ## Reading options -/

/-- What one argument is. -/
inductive Argument where
  | word
  /-- An option, with its value if that is part of the argument. -/
  | option (flag : Flag) (value? : Option String)
  | unknown

/-- Whether an argument has the form of an option. -/
def looksLikeOption (arg : String) : Bool :=
  match arg.toList with
  | '-' :: _ :: _ => true
  | _ => false

/-- What an argument is where some options are known. -/
def Argument.ofText (known : List Flag) (arg : String) : Argument :=
  match arg.toList with
  | '-' :: '-' :: s =>
    let (name, value?) := match Text.cut? '=' s with
      | some (name, value) => (name, some (String.ofList value))
      | none => (s, none)
    match known.find? fun f => f.long.toList == name with
    | some f => .option f value?
    | none => .unknown
  | '-' :: letter :: s =>
    match known.find? fun f => f.short? = some letter with
    | some f =>
      match s with
      | [] => .option f none
      | '=' :: value => .option f (some (String.ofList value))
      | value => .option f (some (String.ofList value))
    | none => .unknown
  | _ => .word

/-- Options with their values. -/
abbrev Settled := List (Flag × String)

/-- The options at the front, and the first word with what follows it, if there
is one. Two hyphens end the options, and no word may follow them. -/
def options? (known : List Flag) : List String →
    Option (Settled × Option (String × List String))
  | [] => some ([], none)
  | arg :: rest =>
    if arg = "--" then if rest.isEmpty then some ([], none) else none
    else match Argument.ofText known arg with
      | .unknown => none
      | .word => some ([], some (arg, rest))
      | .option f (some value) =>
        if f.takesValue then
          (options? known rest).map fun (given, word) =>
            ((f, value) :: given, word)
        else none
      | .option f none =>
        if f.takesValue then
          match rest with
          | [] => none
          | value :: rest =>
            if looksLikeOption value then none
            else
              (options? known rest).map fun (given, word) =>
                ((f, value) :: given, word)
        else
          (options? known rest).map fun (given, word) =>
            ((f, "") :: given, word)

/-- Whether every option is given once, and every path is one. -/
def Settled.proper (given : Settled) : Bool :=
  (given.map (·.1)).Nodup && given.all fun (f, value) =>
    !f.isPath || !value.isEmpty

/-- The value that an option has been given, if it has. -/
def Settled.value? (given : Settled) (f : Flag) : Option String :=
  (given.find? fun g => g.1 = f).map (·.2)

/-! ## Jobs -/

/-- A task with what it needs to know: the file or folder that it reads, and its
options. -/
inductive Job where
  | templates (dir : String)
  | validate (rules : String)
  | compile (rules asset : String) (canvas : Option Size)
      (fields : Option String)
  | parse (rules asset : String) (canvas : Option Size)
  | project (rules : String) (rendered : Size) (scale : Float)
deriving DecidableEq

/-- A job and the file with the settings for it. -/
structure Invocation where
  config : Option String
  job : Job
deriving DecidableEq

/-- The size that an option gives, if it is given; nothing if it gives none. -/
def size? (value? : Option String) : Option (Option Size) :=
  match value? with
  | none => some none
  | some text => (Size.ofText? text).toOption.map some

/-- The job of a task with the options that are given for it. -/
def Task.job? (task : Task) (given : Settled) : Option Job :=
  match task with
  | .templates => some (.templates ((given.value? .dir).getD "templates"))
  | .validate => (given.value? .rules).map .validate
  | .compile => do
    let rules ← given.value? .rules
    let asset ← given.value? .asset
    let canvas ← size? (given.value? .canvas)
    some (.compile rules asset canvas (given.value? .fields))
  | .parse => do
    let rules ← given.value? .rules
    let asset ← given.value? .asset
    let canvas ← size? (given.value? .canvas)
    some (.parse rules asset canvas)
  | .project => do
    let rules ← given.value? .rules
    let rendered ← size? (some (← given.value? .rendered))
    let scale ← match given.value? .scale with
      | none => some 1.0
      | some text => Decimal.readFloat? text
    some (.project rules (← rendered) scale)

/-- What the arguments ask for, if they are proper. -/
def Invocation.ofArguments? (args : List String) : Option Invocation := do
  let (before, word?) ← options? Task.globalFlags args
  let (word, rest) ← word?
  let task ← Task.all.find? fun t => t.name == word
  let (behind, word?) ← options? (Task.globalFlags ++ task.flags) rest
  if word?.isSome || !before.proper || !behind.proper then none
  else
    let job ← task.job? behind
    some ⟨(behind.value? .config).or (before.value? .config), job⟩

end Placard.CommandLine
