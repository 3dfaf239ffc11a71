/-
# Machines in documents

A recorded machine is an object with the files of its home, the trees that rules can bring up,
the rules, and the names of the programs that exist.

Key definitions: `Machine.ofJson`.
-/
import AbiGate.Document.Files
import AbiGate.Tool.Machine

namespace AbiGate

/-- The status that a number stands for; of a number out of range its last eight bits count. -/
def Ending.ofNumber (n : Int) : Ending :=
  .status (n % 256).toNat

/-- The way a command ends; it succeeds unless something else is said. A signal saves no memory. -/
def Ending.ofJson (j : Json) : Ending :=
  match (j.member? "signal").bind Json.asNat?, j.member? "code" with
  | some number, _ => .signal number false
  | none, some (.integer n) => .ofNumber n
  | none, _ => .ofNumber 0

def Rule.ofJson? (j : Json) : Option Rule := do
  return {
    command := ← (← j.member? "cmd").asString?
    nth := (j.member? "nth").bind Json.asNat?
    tree := (j.member? "tree").bind Json.asString?
    run := {
      output := (j.octets? "stdout" "stdout_hex").getD []
      errorOutput := (j.octets? "stderr" "stderr_hex").getD []
      ending := .ofJson j } }

/-- The programs that exist if nothing is said. -/
def Machine.usualPrograms : List String := ["git", "forge"]

/-- The machine that an object describes, with these names for its home and for a separate working
tree. -/
def Machine.ofJson (home worktree : String) (j : Json) : Machine :=
  { disk := FileTree.empty.writeAll [home] (Entry.listOfJson ((j.member? "files").getD .null))
    home := [home]
    worktree := ⟨worktree⟩
    scratchAvailable := ((j.member? "no_scratch").bind Json.asBool?) != some true
    programs :=
      match (j.member? "tools").bind Json.asArray? with
      | some names => names.filterMap Json.asString?
      | none => usualPrograms
    rules := (((j.member? "rules").bind Json.asArray?).getD []).filterMap Rule.ofJson?
    trees := Entry.listsOfJson ((j.member? "trees").getD .null) }

/-- A location as a path. -/
def Location.text : Location → String
  | [] => "/"
  | l => "/".intercalate l

def ToolCall.toJson (c : ToolCall) : Json :=
  .object [("argv", .ofStrings c.argv), ("cwd", .string (Location.text c.directory))]

/-- The runs of a machine, in their order. -/
def Machine.callsJson (k : Machine) : Json :=
  .array (k.calls.reverse.map ToolCall.toJson)

end AbiGate
