/-
# Arguments

The arguments of the command are options with a value, behind an equals sign or as the next
argument, and flags without one. Each may be given once, and there is nothing else.

Arguments are taken from left to right, and the first problem counts. A value that is an argument
of its own is looked at only when the next option or flag is taken, or at the end, so that an
argument that means nothing is reported before a bad value in front of it.

Key definitions: `Arguments`, `UsageError`, `Arguments.read`.
-/
import AbiGate.Settings.Basic

namespace AbiGate

/-- The form of a report. -/
inductive Format where
  | text
  | json
  deriving DecidableEq, Repr

namespace Format

/-- The word for the form. -/
def word : Format → String
  | text => "text"
  | json => "json"

/-- The form that a word names. -/
def ofWord? : String → Option Format
  | "text" => some text
  | "json" => some json
  | _ => none

end Format

/-- What a check is asked to do. -/
structure Arguments where
  repository : Path := ⟨"."⟩
  config : Option Path := none
  baseline : Option String := none
  remote : Option String := none
  strategy : Option Strategy := none
  allowRemovals : Bool := false
  format : Format := .text
  verbose : Bool := false
  deriving DecidableEq, Repr

/-- Why there is nothing to do. The last two are asked for. -/
inductive UsageError where
  | invalidValue
  | unknownArgument
  | argumentConflict
  | tooManyValues
  | displayHelp
  | displayVersion
  deriving DecidableEq, Repr

namespace UsageError

/-- The word for the error. -/
def word : UsageError → String
  | invalidValue => "InvalidValue"
  | unknownArgument => "UnknownArgument"
  | argumentConflict => "ArgumentConflict"
  | tooManyValues => "TooManyValues"
  | displayHelp => "DisplayHelp"
  | displayVersion => "DisplayVersion"

/-- The status that the command exits with. -/
def status : UsageError → Nat
  | displayHelp => 0
  | displayVersion => 0
  | _ => 2

end UsageError

namespace Arguments

/-- What can be given once. -/
inductive Item where
  | repo
  | config
  | baseline
  | remote
  | strategy
  | format
  | allowRemovals
  | verbose
  | help
  | version
  deriving DecidableEq, Repr

namespace Item

/-- Whether the item has a value. -/
def takesValue : Item → Bool
  | repo | config | baseline | remote | strategy | format => true
  | allowRemovals | verbose | help | version => false

/-- The item with a long name. -/
def ofName? : String → Option Item
  | "repo" => some repo
  | "config" => some config
  | "baseline" => some baseline
  | "remote" => some remote
  | "strategy" => some strategy
  | "format" => some format
  | "allow-removals" => some allowRemovals
  | "verbose" => some verbose
  | "help" => some help
  | "version" => some version
  | _ => none

/-- The item with a name of one letter. -/
def ofLetter? : Char → Option Item
  | 'v' => some verbose
  | 'h' => some help
  | 'V' => some version
  | _ => none

end Item

/-- An argument by its form. -/
inductive Form where
  /-- Two dashes: no option comes behind them. -/
  | divider
  | long (name : String) (value : Option String)
  | letters (letters : List Char)
  | plain (text : String)
  deriving DecidableEq, Repr

/-- The form of an argument. -/
def Form.of (argument : String) : Form :=
  match argument.toList with
  | ['-', '-'] => .divider
  | '-' :: '-' :: cs =>
    let name := String.ofList (cs.takeWhile (· ≠ '='))
    match cs.dropWhile (· ≠ '=') with
    | _ :: value => .long name (some (String.ofList value))
    | [] => .long name none
  | ['-'] => .plain argument
  | '-' :: cs => .letters cs
  | _ => .plain argument

/-- What has been taken so far. -/
structure Taken where
  arguments : Arguments := {}
  items : List Item := []
  /-- An option that has been named, with its value if that has come, but is not yet taken. -/
  pending : Option (Item × Option String) := none
  deriving Repr

/-- The arguments with the value of an option. -/
def assign (a : Arguments) (item : Item) (value : String) : Except UsageError Arguments :=
  let path := fun (set : Path → Arguments) =>
    if value.isEmpty then .error .invalidValue else .ok (set ⟨value⟩)
  match item with
  | .repo => path fun p => { a with repository := p }
  | .config => path fun p => { a with config := some p }
  | .baseline => .ok { a with baseline := some value }
  | .remote => .ok { a with remote := some value }
  | .strategy =>
    match Strategy.ofWord? value with
    | some s => .ok { a with strategy := some s }
    | none => .error .invalidValue
  | .format =>
    match Format.ofWord? value with
    | some f => .ok { a with format := f }
    | none => .error .invalidValue
  | _ => .error .tooManyValues

/-- The arguments with a flag. -/
def raise (a : Arguments) : Item → Except UsageError Arguments
  | .allowRemovals => .ok { a with allowRemovals := true }
  | .verbose => .ok { a with verbose := true }
  | .help => .error .displayHelp
  | .version => .error .displayVersion
  | _ => .error .invalidValue

namespace Taken

/-- Takes an item, by what it does to the arguments. -/
def take (t : Taken) (item : Item) (change : Arguments → Except UsageError Arguments) :
    Except UsageError Taken := do
  if t.items.contains item then throw .argumentConflict
  return { arguments := ← change t.arguments, items := item :: t.items }

/-- Takes the option that is pending. -/
def settle (t : Taken) : Except UsageError Taken :=
  match t.pending with
  | none => .ok t
  | some (_, none) => .error .invalidValue
  | some (item, some value) => t.take item (·.assign item value)

/-- Takes a flag. -/
def takeFlag (t : Taken) (item : Item) : Except UsageError Taken := do
  (← t.settle).take item (·.raise item)

/-- Takes an argument with a long name. -/
def takeLong (t : Taken) (name : String) (value : Option String) : Except UsageError Taken :=
  match Item.ofName? name with
  | none => .error .unknownArgument
  | some item =>
    match item.takesValue, value with
    | true, some value => do (← t.settle).take item (·.assign item value)
    | true, none => do return { ← t.settle with pending := some (item, none) }
    | false, some _ => .error .tooManyValues
    | false, none => t.takeFlag item

/-- Takes flags by their letters. -/
def takeLetters (t : Taken) : List Char → Except UsageError Taken
  | [] => .ok t
  | letter :: rest =>
    match Item.ofLetter? letter with
    | none => .error .unknownArgument
    | some item => do takeLetters (← t.takeFlag item) rest

/-- Takes an argument that is neither an option nor a flag: it can only be a value. -/
def takePlain (t : Taken) (text : String) : Except UsageError Taken :=
  match t.pending with
  | some (item, none) => .ok { t with pending := some (item, some text) }
  | _ => .error .unknownArgument

/-- Takes arguments from left to right. -/
def takeAll (t : Taken) : List String → Except UsageError Taken
  | [] => t.settle
  | argument :: rest =>
    match Form.of argument with
    | .divider => if rest.isEmpty then t.settle else .error .unknownArgument
    | .long name value => do takeAll (← t.takeLong name value) rest
    | .letters letters => do takeAll (← t.takeLetters letters) rest
    | .plain text => do takeAll (← t.takePlain text) rest

end Taken

/-- What the arguments of the command ask for. -/
def read (arguments : List String) : Except UsageError Arguments :=
  (Taken.takeAll {} arguments).map (·.arguments)

end Arguments

end AbiGate
