import TileBuffer.Emission

namespace TileBuffer

namespace Cell

def tileLE (g : Grid) (c d : Cell) : Bool := c.tile g ≤ d.tile g

end Cell

def isTileSorted (g : Grid) : List Cell → Bool
  | c :: d :: cells => c.tileLE g d && isTileSorted g (d :: cells)
  | _ => true

def mergeSortParallel (le : Cell → Cell → Bool) (cells : List Cell) : List Cell :=
  let half := (cells.length + 1) / 2
  let front := Task.spawn fun _ ↦ (cells.take half).mergeSort le
  let back := Task.spawn fun _ ↦ (cells.drop half).mergeSort le
  front.get.merge back.get le

/-- The stable sort by tile. `parallel` only says how it is carried out. -/
def sortByTile (g : Grid) (parallel : Bool) (cells : List Cell) : List Cell :=
  if isTileSorted g cells then cells
  else if parallel then mergeSortParallel (Cell.tileLE g) cells
  else cells.mergeSort (Cell.tileLE g)

section Checked

-- Fewer than two cells are in order whatever their tiles.
def isTileSorted? (g : Grid) (cells : List Cell) : Except Fault Bool :=
  if cells.length < 2 then .ok true
  else do
    g.checkTiles
    return isTileSorted g cells

def sortByTile? (g : Grid) (parallel : Bool) (cells : List Cell) : Except Fault (List Cell) :=
  if cells.length < 2 then .ok cells
  else do
    g.checkTiles
    return sortByTile g parallel cells

end Checked

/-- Neighbouring cells of one tile. -/
structure Run where
  tile : Tile
  cells : List Cell
deriving DecidableEq

def Run.ofCells? (g : Grid) : List Cell → Option Run
  | [] => none
  | c :: cells => some ⟨c.tile g, c :: cells⟩

def Run.split (g : Grid) (cells : List Cell) : List Run :=
  (cells.splitBy fun c d ↦ c.tile g == d.tile g).filterMap (ofCells? g)

def Run.split? (g : Grid) (cells : List Cell) : Except Fault (List Run) :=
  if cells.isEmpty then .ok []
  else do
    g.checkTiles
    return split g cells

end TileBuffer
