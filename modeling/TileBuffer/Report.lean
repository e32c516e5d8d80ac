namespace TileBuffer

inductive Format
  | blocked
  | cell
deriving DecidableEq

def Format.name : Format → String
  | .blocked => "blocked"
  | .cell => "cell"

structure Costs where
  blocked : Nat
  cell : Nat
deriving DecidableEq

namespace Costs

/-- A fragment takes 16 bytes for its tile and 16 for each cell; a record takes 24. -/
def of (cells tiles : Nat) : Costs := ⟨16 * tiles + 16 * cells, 24 * cells⟩

def format (c : Costs) : Format := if c.blocked ≤ c.cell then .blocked else .cell

end Costs

def Format.choose (cells tiles : Nat) : Format := (Costs.of cells tiles).format

structure Report where
  cells : Nat
  tiles : Nat
  format : Format
  costs : Costs
  sparse : Bool
deriving DecidableEq

def Report.emissions (r : Report) : Nat :=
  match r.format with
  | .blocked => r.tiles
  | .cell => r.cells

structure Counters where
  flushes : Nat
  /-- flushes that a full buffer set off during an import -/
  autoFlushes : Nat
  cells : Nat
  blocks : Nat
  records : Nat
deriving DecidableEq, Inhabited

namespace Counters

def zero : Counters := ⟨0, 0, 0, 0, 0⟩

def record (c : Counters) (r : Report) : Counters :=
  let c := { c with flushes := c.flushes + 1, cells := c.cells + r.cells }
  match r.format with
  | .blocked => { c with blocks := c.blocks + r.tiles }
  | .cell => { c with records := c.records + r.cells }

def recordAuto (c : Counters) : Counters := { c with autoFlushes := c.autoFlushes + 1 }

def text (c : Counters) : String :=
  let flushes := c.flushes
  let auto := c.autoFlushes
  let cells := c.cells
  let blocks := c.blocks
  let records := c.records
  "Reblock Statistics:\n" ++
    s!"  Flushes:      {flushes} ({auto} automatic)\n" ++
    s!"  Cells:        {cells}\n" ++
    s!"  Blocks:       {blocks}\n" ++
    s!"  Cell records: {records}"

end Counters

inductive Event
  | flushing (cells tiles : Nat) (costs : Costs) (tag : UInt8)
  | full (cells : Nat) (tag : UInt8)
deriving DecidableEq

namespace Event

def level : Event → String
  | .flushing .. => "DEBUG"
  | .full .. => "TRACE"

def message : Event → String
  | .flushing cells tiles costs tag =>
    let format := costs.format.name
    let blocked := costs.blocked
    let cell := costs.cell
    s!"flushing {cells} cells in {tiles} blocks as {format} " ++
      s!"(blocked={blocked}B, cell={cell}B, tag={tag})"
  | .full cells tag => s!"buffer full at {cells} cells, flushing mid-import (tag={tag})"

def line (e : Event) : String := e.level ++ " " ++ e.message

end Event

end TileBuffer
