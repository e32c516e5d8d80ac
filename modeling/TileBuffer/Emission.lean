import TileBuffer.Fragment.Basic
import TileBuffer.Grid

namespace TileBuffer

/-- A value at a place of the matrix. Equality of cells compares the bits of their values. -/
structure Cell where
  row : UInt64
  col : UInt64
  value : Value
deriving DecidableEq, Inhabited

namespace Cell

def tile (g : Grid) (c : Cell) : Tile := g.tileOf c.row c.col

def place (g : Grid) (c : Cell) : Nat × Nat := g.localOf c.row c.col

end Cell

inductive Payload
  | block (fragment : Fragment)
  | cell (item : Item)
deriving DecidableEq

/-- A message about one tile. The tag says to which of several outputs it belongs. -/
structure Emission where
  tile : Tile
  tag : UInt8
  payload : Payload
deriving DecidableEq

def Item.sameNumber (a b : Item) : Bool :=
  a.row == b.row && a.col == b.col && a.value.sameNumber b.value

/-- The cells that an emission describes, as positions inside its tile: a record's own cell, or
the stored values of a fragment that are not zero. -/
def Payload.items : Payload → List Item
  | .block fragment => fragment.nonzeros
  | .cell item => [item]

end TileBuffer
