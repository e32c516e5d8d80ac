import TileBuffer.Value

namespace TileBuffer

inductive Number
  /-- written as a whole number that is not negative and fits a word -/
  | whole (n : UInt64)
  | real (v : Value)
  | beyond
deriving DecidableEq

/-- A JSON value. A text that holds half of a surrogate pair is no string, and is given as
`none`. -/
inductive Json
  | null
  | bool (b : Bool)
  | num (n : Number)
  | str (s : Option String)
  | arr (items : List Json)
  | obj (members : List (Option String × Json))
deriving Inhabited

namespace Json

def string (s : String) : Json := .str (some s)

def word (n : UInt64) : Json := .num (.whole n)

def record (members : List (String × Json)) : Json :=
  .obj (members.map fun (name, value) ↦ (some name, value))

/-- A number is written if it is finite, and otherwise `null`. -/
def ofValue (v : Value) : Json := if v.isFinite then .num (.real v) else .null

def word? : Json → Option UInt64
  | .num (.whole n) => some n
  | _ => none

def value? : Json → Option Value
  | .num (.whole n) => some (.ofWord n)
  | .num (.real v) => some v
  | _ => none

def bool? : Json → Option Bool
  | .bool b => some b
  | _ => none

def member? (members : List (Option String × Json)) (name : String) : Option Json :=
  match members.filter fun m ↦ m.1 = some name with
  | [(_, value)] => some value
  | _ => none

/-- The values of the named fields, in the order of the names. A record is written as an object
that has each field once, among any other members, or as the array of the values. -/
def fields? (names : List String) : Json → Option (List Json)
  | .arr items => if items.length = names.length then some items else none
  | .obj members =>
    if members.all fun m ↦ m.1.isSome then names.mapM (member? members) else none
  | _ => none

end Json

end TileBuffer
