namespace TileBuffer

inductive Parameter
  | dimensions
  | blockSize
  | capacity
  | density
  | parallel
deriving DecidableEq

def Parameter.name : Parameter → String
  | .dimensions => "dimensions"
  | .blockSize => "block_size"
  | .capacity => "capacity"
  | .density => "density"
  | .parallel => "parallel"

inductive Rejection
  | emptyTile (tileRows tileCols : UInt64)
  | emptyMatrix (rows cols : UInt64)
  | noCapacity (capacity : UInt64)
  | storeFull (capacity : Nat)
  | cellOutside (row col rows cols : Nat)
  | regionOutside (firstRow firstCol : UInt64) (height width : Nat) (rows cols : UInt64)
  | shapeMismatch (expected got : Nat)
  | missing (parameter : Parameter)
  | repeated (parameter : Parameter)
deriving DecidableEq

def Rejection.message : Rejection → String
  | .emptyTile tileRows tileCols =>
    s!"Invalid block size: {tileRows}x{tileCols} (both dimensions must be > 0)"
  | .emptyMatrix rows cols =>
    s!"Invalid matrix dimensions: {rows}x{cols} (both dimensions must be > 0)"
  | .noCapacity capacity => s!"Invalid capacity: {capacity} (must be at least 1)"
  | .storeFull capacity => s!"Buffer is full ({capacity} cells); flush before appending"
  | .cellOutside row col rows cols =>
    s!"Cell ({row}, {col}) is outside the {rows}x{cols} matrix (indices are 1-based)"
  | .regionOutside firstRow firstCol height width rows cols =>
    s!"Region of {height}x{width} at offset ({firstRow}, {firstCol}) does not fit the " ++
      s!"{rows}x{cols} matrix"
  | .shapeMismatch expected got => s!"Shape mismatch: expected {expected} values, got {got}"
  | .missing parameter =>
    let name := parameter.name
    s!"Parameter '{name}' is required but was not set"
  | .repeated parameter =>
    let name := parameter.name
    s!"Parameter '{name}' was set multiple times. Each parameter can only be configured once."

/-- A broken precondition. -/
inductive Fault
  | zeroDivisor
  | zeroModulus
  | outsideFragment (row col : Nat)
  | index (i length : Nat)
  | productOverflow
  | sumOverflow
  | capacityOverflow
deriving DecidableEq

def Fault.message : Fault → String
  | .zeroDivisor => "attempt to divide by zero"
  | .zeroModulus => "attempt to calculate the remainder with a divisor of zero"
  | .outsideFragment row col => s!"({row}, {col}) outside block"
  | .index i length => s!"index out of bounds: the len is {length} but the index is {i}"
  | .productOverflow => "attempt to multiply with overflow"
  | .sumOverflow => "attempt to add with overflow"
  | .capacityOverflow => "capacity overflow"

inductive Trap
  | fault (f : Fault)
  | rejected (r : Rejection)
deriving DecidableEq

end TileBuffer
