import TileBuffer.Rejection

namespace TileBuffer

structure Axis where
  length : UInt64
  tileLength : UInt64
deriving DecidableEq, Inhabited

namespace Axis

def tileOf (a : Axis) (ix : UInt64) : UInt64 := (ix - 1) / a.tileLength + 1

def localOf (a : Axis) (ix : UInt64) : Nat := ((ix - 1) % a.tileLength).toNat

def before (a : Axis) (tile : UInt64) : UInt64 := (tile - 1) * a.tileLength

/-- How many indices tile `tile` holds: a whole tile's worth, or what is left of the axis. -/
def extent (a : Axis) (tile : UInt64) : Nat :=
  min a.tileLength.toNat (a.length.toNat - (a.before tile).toNat)

def globalOf (a : Axis) (tile : UInt64) (i : Nat) : UInt64 :=
  a.before tile + UInt64.ofNat i + 1

def contains (a : Axis) (ix : UInt64) : Bool := 1 ≤ ix && ix ≤ a.length

def tiles (a : Axis) : UInt64 :=
  a.length / a.tileLength + if a.length % a.tileLength = 0 then 0 else 1

def lastIndex? (first : UInt64) (count : Nat) : Option UInt64 :=
  if first.toNat + (count - 1) < UInt64.size then some (first + UInt64.ofNat (count - 1)) else none

def containsRange (a : Axis) (first : UInt64) (count : Nat) : Bool :=
  match lastIndex? first count with
  | some last => a.contains first && a.contains last
  | none => false

section Checked

def tileOf? (a : Axis) (ix : UInt64) : Except Fault UInt64 :=
  if a.tileLength = 0 then .error .zeroDivisor else .ok (a.tileOf ix)

def localOf? (a : Axis) (ix : UInt64) : Except Fault Nat :=
  if a.tileLength = 0 then .error .zeroModulus else .ok (a.localOf ix)

def tiles? (a : Axis) : Except Fault UInt64 :=
  if a.tileLength = 0 then .error .zeroDivisor else .ok a.tiles

end Checked

end Axis

end TileBuffer
