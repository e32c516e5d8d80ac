import TileBuffer.Json.Basic

namespace TileBuffer

structure Numeral where
  negative : Bool
  whole : List Nat
  fraction : List Nat
  exponent : Option Int
deriving DecidableEq

namespace Numeral

def isDigit (c : Char) : Bool := '0' ≤ c && c ≤ '9'

def digitValue (c : Char) : Nat := c.toNat - '0'.toNat

def digits (cs : List Char) : List Nat × List Char :=
  ((cs.takeWhile isDigit).map digitValue, cs.dropWhile isDigit)

def sign : List Char → Bool × List Char
  | '-' :: cs => (true, cs)
  | '+' :: cs => (false, cs)
  | cs => (false, cs)

def fraction? : List Char → Option (List Nat × List Char)
  | '.' :: cs =>
    match digits cs with
    | ([], _) => none
    | split => some split
  | cs => some ([], cs)

def ofDigits (ds : List Nat) : Nat := ds.foldl (fun n d ↦ 10 * n + d) 0

def exponent? : List Char → Option (Option Int)
  | [] => some none
  | c :: cs =>
    if c = 'e' || c = 'E' then
      let (negative, cs) := sign cs
      match digits cs with
      | (d :: ds, []) =>
        let n : Int := ofDigits (d :: ds)
        some (some (if negative then -n else n))
      | _ => none
    else none

def isWhole (ds : List Nat) : Bool :=
  match ds with
  | [] => false
  | [_] => true
  | d :: _ => d != 0

def ofChars? (cs : List Char) : Option Numeral := do
  let (negative, cs) :=
    match cs with
    | '-' :: cs => (true, cs)
    | cs => (false, cs)
  let (whole, cs) := digits cs
  if isWhole whole then
    let (fraction, cs) ← fraction? cs
    let exponent ← exponent? cs
    return ⟨negative, whole, fraction, exponent⟩
  else none

def isWord (n : Numeral) : Bool :=
  !n.negative && n.fraction.isEmpty && n.exponent.isNone && n.whole.length ≤ 20 &&
    ofDigits n.whole < UInt64.size

def trimEnd (ds : List Nat) : List Nat := (ds.reverse.dropWhile (· == 0)).reverse

/-- The digits of the magnitude from the first that is not zero on, and the power of ten that
belongs to the last of them. Zeros at the end are left out behind the point only. -/
def significant (n : Numeral) : List Nat × Int :=
  let fraction := trimEnd n.fraction
  ((n.whole ++ fraction).dropWhile (· == 0), n.exponent.getD 0 - fraction.length)

/-- As many digits as a number halfway between two values can have. -/
def maxDigits : Nat := 768

/-- A whole number and a power of ten with the product that the digits stand for. -/
def bounded (ds : List Nat) (e : Int) : Nat × Int :=
  if ds.length ≤ maxDigits then (ofDigits ds, e)
  -- A 1 takes the place of the other digits: all that it says of them is that something follows.
  else (10 * ofDigits (ds.take maxDigits) + 1, e + (ds.length - (maxDigits + 1) : Nat))

def scaled? (n : Nat) : Int → Option Value
  | .ofNat e => Value.nearest? (n * Nat.pow 10 e) 1
  | .negSucc e => Value.nearest? n (Nat.pow 10 (e + 1))

/-- The value nearest to the magnitude, if it is finite. -/
def magnitude? (n : Numeral) : Option Value :=
  let (ds, e) := n.significant
  let place := ds.length + e
  -- Before powers of ten are computed, the place of the first digit decides: from `10 ^ 309` on
  -- everything is infinite, and below `10 ^ (-324)` everything is nearest to zero.
  if ds.isEmpty || place < -323 then some .zero
  else if 309 < place then none
  else
    let (significand, e) := bounded ds e
    scaled? significand e

def toNumber (n : Numeral) : Number :=
  if n.isWord then .whole (UInt64.ofNat (ofDigits n.whole))
  else
    match n.magnitude? with
    | some v => .real (if n.negative then v.negate else v)
    | none => .beyond

end Numeral

end TileBuffer
