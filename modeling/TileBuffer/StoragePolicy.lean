import TileBuffer.Value

namespace TileBuffer

/-- A rule of the caller's: whether a tile of so many rows and columns with so many values is to
be stored sparse. It is taken as a function of these three numbers that always answers, and has no
state and no effects. Rules of one name count as the same rule. -/
structure Classifier where
  name : String
  isSparse : UInt64 → UInt64 → UInt64 → Bool

inductive StoragePolicy
  /-- sparse below this share of values, if that also takes less memory -/
  | turnPoint (share : Value)
  | alwaysSparse
  | alwaysDense
  | custom (rule : Classifier)

namespace StoragePolicy

/-- Two fifths. -/
def defaultTurnPoint : Value := ⟨0x3fd999999999999a⟩

instance : Inhabited StoragePolicy := ⟨.turnPoint defaultTurnPoint⟩

def denseBytes (rows cols : UInt64) : Float := 44.0 + 8.0 * rows.toFloat * cols.toFloat

def sparseBytes (rows entries : UInt64) : Float :=
  44.0 + 32.0 * rows.toFloat + 12.0 * entries.toFloat

/-- Whether sparse storage pays below the share `turn`. A single column is always dense. -/
def paysSparse (turn : Value) (rows cols entries : UInt64) : Bool :=
  let cells := rows.toFloat * cols.toFloat
  if cols ≤ 1 || cells == 0.0 then false
  else if turn.toFloat ≤ entries.toFloat / cells then false
  else sparseBytes rows entries < denseBytes rows cols

def isSparse (p : StoragePolicy) (rows cols entries : UInt64) : Bool :=
  match p with
  | .turnPoint turn => paysSparse turn rows cols entries
  | .alwaysSparse => true
  | .alwaysDense => false
  | .custom rule => rule.isSparse rows cols entries

def same : StoragePolicy → StoragePolicy → Bool
  | .turnPoint a, .turnPoint b => a.sameNumber b
  | .alwaysSparse, .alwaysSparse => true
  | .alwaysDense, .alwaysDense => true
  | .custom a, .custom b => a.name == b.name
  | _, _ => false

end StoragePolicy

end TileBuffer
