import TileBuffer.Grid
import TileBuffer.StoragePolicy

namespace TileBuffer

def Grid.check (g : Grid) : Except Rejection Unit :=
  if g.rows.tileLength = 0 ∨ g.cols.tileLength = 0 then
    .error (.emptyTile g.rows.tileLength g.cols.tileLength)
  else if g.rows.length = 0 ∨ g.cols.length = 0 then
    .error (.emptyMatrix g.rows.length g.cols.length)
  else .ok ()

def checkCapacity (capacity : UInt64) : Except Rejection Unit :=
  if capacity = 0 then .error (.noCapacity capacity) else .ok ()

def Grid.checkCell (g : Grid) (row col : UInt64) : Except Rejection Unit :=
  if g.contains row col then .ok ()
  else .error (.cellOutside row.toNat col.toNat g.rows.length.toNat g.cols.length.toNat)

/-- A region of `height` by `width` cells whose first cell is `(row, col)` must lie inside the
matrix. A region without cells fits anywhere. -/
def Grid.checkRegion (g : Grid) (row col : UInt64) (height width : Nat) : Except Rejection Unit :=
  if height = 0 ∨ width = 0 then .ok ()
  else if g.rows.containsRange row height && g.cols.containsRange col width then .ok ()
  else .error (.regionOutside row col height width g.rows.length g.cols.length)

structure Config where
  grid : Grid
  capacity : UInt64
  policy : StoragePolicy
  parallel : Bool
deriving Inhabited

def Config.check (c : Config) : Except Rejection Unit := do
  c.grid.check
  checkCapacity c.capacity

inductive Setting
  | dimensions (rows cols : UInt64)
  | blockSize (rows cols : UInt64)
  | capacity (cells : UInt64)
  | density (policy : StoragePolicy)
  | parallel (flag : Bool)

def Setting.parameter : Setting → Parameter
  | .dimensions .. => .dimensions
  | .blockSize .. => .blockSize
  | .capacity _ => .capacity
  | .density _ => .density
  | .parallel _ => .parallel

structure Draft where
  dimensions : Option (UInt64 × UInt64)
  blockSize : Option (UInt64 × UInt64)
  capacity : Option UInt64
  density : Option StoragePolicy
  parallel : Option Bool
  repeated : Option Parameter

namespace Draft

def empty : Draft := ⟨none, none, none, none, none, none⟩

def has (d : Draft) : Parameter → Bool
  | .dimensions => d.dimensions.isSome
  | .blockSize => d.blockSize.isSome
  | .capacity => d.capacity.isSome
  | .density => d.density.isSome
  | .parallel => d.parallel.isSome

def give (d : Draft) (s : Setting) : Draft :=
  let d := if d.has s.parameter then { d with repeated := some s.parameter } else d
  match s with
  | .dimensions rows cols => { d with dimensions := some (rows, cols) }
  | .blockSize rows cols => { d with blockSize := some (rows, cols) }
  | .capacity cells => { d with capacity := some cells }
  | .density policy => { d with density := some policy }
  | .parallel flag => { d with parallel := some flag }

def ofSettings (settings : List Setting) : Draft := settings.foldl give empty

def defaultCapacity : UInt64 := 5000000

/-- The finished configuration, or the first thing wrong: a repeated setting, a missing one, then
what `Config.check` finds. -/
def config (d : Draft) : Except Rejection Config := do
  if let some parameter := d.repeated then throw (.repeated parameter)
  let some (rows, cols) := d.dimensions | throw (.missing .dimensions)
  let some (tileRows, tileCols) := d.blockSize | throw (.missing .blockSize)
  let config : Config :=
    { grid := .ofSizes rows cols tileRows tileCols
      capacity := d.capacity.getD defaultCapacity
      policy := d.density.getD default
      parallel := d.parallel.getD false }
  config.check
  return config

end Draft

def Config.ofSettings (settings : List Setting) : Except Rejection Config :=
  (Draft.ofSettings settings).config

end TileBuffer
