/-
# JSON texts, read

The reader goes through the tokens of a text once. It keeps the arrays and objects that are
still open, innermost first, and what may come next; a token that may not come next makes the
text no JSON text. At the end there must be one value and nothing open. A text with too many
arrays and objects inside one another is refused.

Key definitions: `Json.Open`, `Json.Next`, `Json.step?`, `Json.isShallow`, `Json.read?`.
-/
import AbiGate.Json.Token

namespace AbiGate.Json

/-- An array or object that is still open, with what it holds so far, last first. -/
inductive Open where
  | array (items : List Json)
  | object (members : List (String × Json))
  /-- An object whose next member has its name already. -/
  | member (members : List (String × Json)) (name : String)

/-- What the reader waits for. -/
inductive Next where
  /-- A value; right behind an opening bracket the array may end instead. -/
  | value (orClose : Bool)
  /-- The name of a member; right behind an opening brace the object may end instead. -/
  | name (orClose : Bool)
  | colon
  /-- A comma or an end, behind a complete value. -/
  | behind (value : Json)

/-- Reads one token. -/
def step? : List Open → Next → Token → Option (List Open × Next)
  | stack, .value _, .atom v => some (stack, .behind v)
  | stack, .value _, .text s => some (stack, .behind (.string s))
  | stack, .value _, .openArray => some (.array [] :: stack, .value true)
  | stack, .value _, .openObject => some (.object [] :: stack, .name true)
  | .array [] :: stack, .value true, .closeArray => some (stack, .behind (.array []))
  | .object members :: stack, .name _, .text s => some (.member members s :: stack, .colon)
  | .object [] :: stack, .name true, .closeObject => some (stack, .behind (.object []))
  | .member members name :: stack, .colon, .colon =>
    some (.member members name :: stack, .value false)
  | .array items :: stack, .behind v, .comma => some (.array (v :: items) :: stack, .value false)
  | .array items :: stack, .behind v, .closeArray =>
    some (stack, .behind (.array (v :: items).reverse))
  | .member members name :: stack, .behind v, .comma =>
    some (.object ((name, v) :: members) :: stack, .name false)
  | .member members name :: stack, .behind v, .closeObject =>
    some (stack, .behind (.object ((name, v) :: members).reverse))
  | _, _, _ => none

/-- Reads tokens to the end. -/
def run? : List Open → Next → List Token → Option Json
  | [], .behind v, [] => some v
  | _, _, [] => none
  | stack, next, token :: rest =>
    match step? stack next token with
    | some (stack, next) => run? stack next rest
    | none => none

/-- How many arrays and objects may be open at once. -/
def maxDepth : Nat := 127

/-- Whether no more arrays and objects than allowed are open at once, behind a number of open
ones. -/
def isShallow : (depth : Nat) → List Token → Bool
  | _, [] => true
  | depth, token :: rest =>
    match token with
    | .openArray | .openObject => depth < maxDepth && isShallow (depth + 1) rest
    | .closeArray | .closeObject => isShallow (depth - 1) rest
    | _ => isShallow depth rest

/-- The value of a JSON text. -/
def read? (text : String) : Option Json :=
  match tokens? text.toList with
  | some tokens => if isShallow 0 tokens then run? [] (.value false) tokens else none
  | none => none

end AbiGate.Json
