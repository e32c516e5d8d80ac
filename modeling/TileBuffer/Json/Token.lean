import TileBuffer.Json.Numeral

namespace TileBuffer

inductive Token
  | openArray
  | closeArray
  | openObject
  | closeObject
  | comma
  | colon
  | scalar (value : Json)

namespace Token

/-- A piece of a quoted text: a character, or a UTF-16 unit that was written by its number. -/
inductive Piece
  | char (c : Char)
  | unit (n : Nat)

/-- The text that pieces make; two units that are halves of one character belong together, and a
half on its own makes no text. -/
def textOf : List Piece → Option (List Char)
  | [] => some []
  | .char c :: pieces => (textOf pieces).map (c :: ·)
  | .unit high :: .unit low :: pieces =>
    if 0xd800 ≤ high && high < 0xdc00 && 0xdc00 ≤ low && low < 0xe000 then
      (textOf pieces).map (Char.ofNat (0x10000 + (high - 0xd800) * 0x400 + (low - 0xdc00)) :: ·)
    else if 0xd800 ≤ high && high < 0xe000 then none
    else (textOf (.unit low :: pieces)).map (Char.ofNat high :: ·)
  | .unit n :: pieces =>
    if 0xd800 ≤ n && n < 0xe000 then none else (textOf pieces).map (Char.ofNat n :: ·)

def escaped? : Char → Option Char
  | '"' => some '"'
  | '\\' => some '\\'
  | '/' => some '/'
  | 'b' => some '\x08'
  | 'f' => some '\x0c'
  | 'n' => some '\n'
  | 'r' => some '\r'
  | 't' => some '\t'
  | _ => none

def hexDigit? (c : Char) : Option Nat :=
  if '0' ≤ c && c ≤ '9' then some (c.toNat - '0'.toNat)
  else if 'a' ≤ c && c ≤ 'f' then some (c.toNat - 'a'.toNat + 10)
  else if 'A' ≤ c && c ≤ 'F' then some (c.toNat - 'A'.toNat + 10)
  else none

def hexUnit? (a b c d : Char) : Option Nat := do
  return (((← hexDigit? a) * 16 + (← hexDigit? b)) * 16 + (← hexDigit? c)) * 16 + (← hexDigit? d)

def quoted? (pieces : List Piece) : List Char → Option (List Piece × List Char)
  | [] => none
  | '"' :: cs => some (pieces.reverse, cs)
  | '\\' :: 'u' :: a :: b :: c :: d :: cs =>
    match hexUnit? a b c d with
    | some n => quoted? (.unit n :: pieces) cs
    | none => none
  | '\\' :: c :: cs =>
    match escaped? c with
    | some c => quoted? (.char c :: pieces) cs
    | none => none
  | c :: cs => if c < ' ' || c = '\\' then none else quoted? (.char c :: pieces) cs

theorem quoted?_length_le {pieces pieces' : List Piece} {cs rest : List Char}
    (h : quoted? pieces cs = some (pieces', rest)) : rest.length ≤ cs.length := by
  fun_induction quoted? pieces cs <;> simp_all <;> omega

def isBlank (c : Char) : Bool := c = ' ' || c = '\n' || c = '\t' || c = '\r'

def mark? : Char → Option Token
  | '[' => some .openArray
  | ']' => some .closeArray
  | '{' => some .openObject
  | '}' => some .closeObject
  | ',' => some .comma
  | ':' => some .colon
  | _ => none

def isLetter (c : Char) : Bool := 'a' ≤ c && c ≤ 'z'

def isNumeric (c : Char) : Bool :=
  Numeral.isDigit c || c = '-' || c = '+' || c = '.' || c = 'e' || c = 'E'

def word? : List Char → Option Json
  | ['n', 'u', 'l', 'l'] => some .null
  | ['t', 'r', 'u', 'e'] => some (.bool true)
  | ['f', 'a', 'l', 's', 'e'] => some (.bool false)
  | _ => none

/-- The tokens of a text, after `tokens` in reverse. -/
def scan (tokens : List Token) (cs : List Char) : Option (List Token) :=
  match cs with
  | [] => some tokens.reverse
  | c :: cs =>
    if isBlank c then scan tokens cs
    else
      match mark? c with
      | some token => scan (token :: tokens) cs
      | none =>
        if c = '"' then
          match _h : quoted? [] cs with
          | some (pieces, rest) =>
            scan (.scalar (.str ((textOf pieces).map String.ofList)) :: tokens) rest
          | none => none
        else if isLetter c then
          match word? (c :: cs.takeWhile isLetter) with
          | some value => scan (.scalar value :: tokens) (cs.dropWhile isLetter)
          | none => none
        else
          match Numeral.ofChars? (c :: cs.takeWhile isNumeric) with
          | some numeral =>
            scan (.scalar (.num numeral.toNumber) :: tokens) (cs.dropWhile isNumeric)
          | none => none
termination_by cs.length
decreasing_by
  · exact Nat.lt_succ_self _
  · exact Nat.lt_succ_self _
  · exact Nat.lt_succ_of_le (quoted?_length_le _h)
  · exact Nat.lt_succ_of_le (List.dropWhile_suffix _).length_le
  · exact Nat.lt_succ_of_le (List.dropWhile_suffix _).length_le

end Token

end TileBuffer
