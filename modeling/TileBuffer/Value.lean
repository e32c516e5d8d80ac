namespace TileBuffer

/-- The whole number nearest to `a / d`; of two that are equally near, the even one. -/
def roundDiv (a d : Nat) : Nat :=
  if 2 * (a % d) < d ∨ 2 * (a % d) = d ∧ a / d % 2 = 0 then a / d else a / d + 1

/-- A binary64 number, given by its bits. Equality of values is equality of bits. -/
structure Value where
  bits : UInt64
deriving DecidableEq, Inhabited

namespace Value

def zero : Value := ⟨0⟩

def magnitude (v : Value) : UInt64 := v.bits &&& 0x7fffffffffffffff

def isZero (v : Value) : Bool := v.magnitude == 0

def isNaN (v : Value) : Bool := 0x7ff0000000000000 < v.magnitude

def isFinite (v : Value) : Bool := v.magnitude < 0x7ff0000000000000

/-- Equality of the numbers: the two zeros are equal, and a NaN differs from everything. -/
def sameNumber (v w : Value) : Bool :=
  !v.isNaN && !w.isNaN && (v == w || v.isZero && w.isZero)

def toFloat (v : Value) : Float := Float.ofBits v.bits

def ofFloat (x : Float) : Value := ⟨x.toBits⟩

def ofWord (n : UInt64) : Value := ofFloat n.toFloat

def negate (v : Value) : Value := ⟨v.bits ^^^ 0x8000000000000000⟩

def infinityBits : Nat := 0x7ff0000000000000

/-- A unit is the smallest value above 0, `2 ^ (-1074)`. -/
def unitsInOne : Nat := Nat.pow 2 1074

/-- The value nearest to `a / d` for `d` other than 0; of two that are equally near, the one that
ends in a zero bit. There is none if that value would be infinite. -/
def nearest? (a d : Nat) : Option Value :=
  let units := a * unitsInOne
  -- The last place of the result is `2 ^ p` units. Its bits are those of `p` above those of the
  -- significand, and a significand that rounds up to `2 ^ 53` carries into the exponent.
  let p := (units / d).log2 - 52
  let bits := p * Nat.pow 2 52 + roundDiv units (d * Nat.pow 2 p)
  if bits < infinityBits then some ⟨UInt64.ofNat bits⟩ else none

end Value

end TileBuffer
