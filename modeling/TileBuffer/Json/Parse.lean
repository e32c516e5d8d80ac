import TileBuffer.Json.Token

namespace TileBuffer

namespace Json

/-- An array or object that is still open; what it holds so far stands in reverse. -/
inductive Open
  | arr (items : List Json)
  | obj (members : List (Option String × Json)) (key : Option String)

inductive Expect
  | value (stack : List Open)
  | item (stack : List Open)
  | firstKey (stack : List Open)
  | key (members : List (Option String × Json)) (stack : List Open)
  | colon (members : List (Option String × Json)) (key : Option String) (stack : List Open)
  | after (value : Json) (stack : List Open)

namespace Expect

def begin (stack : List Open) : Token → Option Expect
  | .scalar v => some (.after v stack)
  | .openArray => some (.item stack)
  | .openObject => some (.firstKey stack)
  | _ => none

def step : Expect → Token → Option Expect
  | .value stack, token => begin stack token
  | .item stack, .closeArray => some (.after (.arr []) stack)
  | .item stack, token => begin (.arr [] :: stack) token
  | .firstKey stack, .closeObject => some (.after (.obj []) stack)
  | .firstKey stack, .scalar (.str k) => some (.colon [] k stack)
  | .key members stack, .scalar (.str k) => some (.colon members k stack)
  | .colon members k stack, .colon => some (.value (.obj members k :: stack))
  | .after v (.arr items :: stack), .comma => some (.value (.arr (v :: items) :: stack))
  | .after v (.arr items :: stack), .closeArray =>
    some (.after (.arr (v :: items).reverse) stack)
  | .after v (.obj members k :: stack), .comma => some (.key ((k, v) :: members) stack)
  | .after v (.obj members k :: stack), .closeObject =>
    some (.after (.obj ((k, v) :: members).reverse) stack)
  | _, _ => none

end Expect

def ofTokens? (tokens : List Token) : Option Json :=
  match tokens.foldlM Expect.step (.value []) with
  | some (.after value []) => some value
  | _ => none

def parse? (text : String) : Option Json := (Token.scan [] text.toList).bind ofTokens?

end Json

end TileBuffer
