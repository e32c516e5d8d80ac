import TileBuffer.Config
import TileBuffer.Report
import TileBuffer.TileOrder

namespace TileBuffer

/-- At most `capacity` cells. Storage grows as cells arrive, whatever the capacity. -/
structure CellStore where
  capacity : Nat
  cells : Array Cell
deriving DecidableEq, Inhabited

namespace CellStore

def empty (capacity : Nat) : CellStore := ⟨capacity, #[]⟩

def size (s : CellStore) : Nat := s.cells.size

def isEmpty (s : CellStore) : Bool := s.cells.isEmpty

def isFull (s : CellStore) : Bool := s.capacity ≤ s.cells.size

def remaining (s : CellStore) : Nat := s.capacity - s.cells.size

def push (s : CellStore) (c : Cell) : Except Rejection CellStore :=
  if s.isFull then .error (.storeFull s.capacity) else .ok { s with cells := s.cells.push c }

def clear (s : CellStore) : CellStore := { s with cells := #[] }

def sortByTile? (s : CellStore) (g : Grid) : Except Fault CellStore := do
  let cells ← TileBuffer.sortByTile? g false s.cells.toList
  return { s with cells := cells.toArray }

end CellStore

structure Buffer where
  config : Config
  store : CellStore
  counters : Counters
deriving Inhabited

namespace Buffer

/-- The buffer without cells, unchecked. -/
def fresh (config : Config) : Buffer := ⟨config, .empty config.capacity.toNat, .zero⟩

def ofConfig (config : Config) : Except Rejection Buffer := do
  config.check
  return fresh config

def ofSettings (settings : List Setting) : Except Rejection Buffer := do
  ofConfig (← Config.ofSettings settings)

def ofSizes (rows cols tileRows tileCols capacity : UInt64) : Except Rejection Buffer :=
  ofSettings [.dimensions rows cols, .blockSize tileRows tileCols, .capacity capacity]

def size (b : Buffer) : Nat := b.store.size

def remaining (b : Buffer) : Nat := b.store.remaining

def isEmpty (b : Buffer) : Bool := b.store.isEmpty

def isFull (b : Buffer) : Bool := b.store.isFull

def push (b : Buffer) (c : Cell) : Except Rejection Buffer :=
  match b.store.push c with
  | .ok store => .ok { b with store := store }
  | .error rejection => .error rejection

def append (b : Buffer) (c : Cell) : Except Rejection Buffer :=
  match b.config.grid.checkCell c.row c.col with
  | .ok () => b.push c
  | .error rejection => .error rejection

def appendAll (b : Buffer) : List Cell → Except Rejection Unit × Buffer
  | [] => (.ok (), b)
  | c :: cells =>
    match b.append c with
    | .ok b => b.appendAll cells
    | .error rejection => (.error rejection, b)

def flushed (b : Buffer) (r : Report) : Buffer :=
  { b with store := b.store.clear, counters := b.counters.record r }

end Buffer

end TileBuffer
