import TileBuffer.Config
import TileBuffer.Fragment.Edit
import TileBuffer.Report
import TileBuffer.Sink
import TileBuffer.TileOrder

namespace TileBuffer

variable {σ ε : Type}

structure Plan where
  grid : Grid
  tag : UInt8
  cells : List Cell
  runs : List Run
  costs : Costs
  sparse : Bool

namespace Plan

/-- The plan for some cells. There is one choice of storage for the whole flush: it looks at the
size of a whole tile and at the average number of cells in a tile. -/
def of (config : Config) (tag : UInt8) (cells : List Cell) : Plan :=
  let sorted := sortByTile config.grid config.parallel cells
  let runs := Run.split config.grid sorted
  let costs := Costs.of sorted.length runs.length
  let average := UInt64.ofNat (sorted.length / runs.length)
  { grid := config.grid
    tag := tag
    cells := sorted
    runs := runs
    costs := costs
    sparse :=
      match costs.format with
      | .blocked =>
        config.policy.isSparse config.grid.rows.tileLength config.grid.cols.tileLength average
      | .cell => false }

def report (p : Plan) : Report where
  cells := p.cells.length
  tiles := p.runs.length
  format := p.costs.format
  costs := p.costs
  sparse := p.sparse

def event (p : Plan) : Event := .flushing p.cells.length p.runs.length p.costs p.tag

def fill (g : Grid) (f : Fragment) : List Cell → Except Fault Fragment
  | [] => .ok f
  | c :: cells =>
    let (i, j) := c.place g
    match f.append i j c.value with
    | .ok f' => fill g f' cells
    | .error fault => .error fault

def fragment (g : Grid) (sparse : Bool) (run : Run) (memory : Memory := .unbounded) :
    Except Fault Fragment :=
  let (height, width) := g.extent run.tile
  match Fragment.zeros? memory height width sparse with
  | .ok f => (fill g f run.cells).map Fragment.sortRows
  | .error fault => .error fault

def blockEmission (p : Plan) (run : Run) (memory : Memory := .unbounded) :
    Except Fault Emission :=
  (fragment p.grid p.sparse run memory).map fun f ↦ ⟨run.tile, p.tag, .block f⟩

def cellEmission (p : Plan) (c : Cell) : Emission :=
  let (i, j) := c.place p.grid
  ⟨c.tile p.grid, p.tag, .cell ⟨i, j, c.value⟩⟩

def deliver (p : Plan) (sink : Sink σ ε) (s : σ) (memory : Memory := .unbounded) :
    Except (Failure ε) Unit × σ :=
  match p.costs.format with
  | .blocked => sink.deliver (p.blockEmission · memory) p.runs s
  | .cell => sink.deliver (fun c ↦ .ok (p.cellEmission c)) p.cells s

end Plan

structure Flushed (σ ε : Type) where
  outcome : Except (Failure ε) (Option Report)
  /-- the cells in the order in which the flush leaves them -/
  cells : Array Cell
  sink : σ
  log : List Event

def flush (config : Config) (cells : Array Cell) (tag : UInt8) (sink : Sink σ ε) (s : σ)
    (memory : Memory := .unbounded) : Flushed σ ε :=
  if cells.isEmpty then ⟨.ok none, cells, s, []⟩
  else
    match config.grid.checkTiles with
    | .error fault => ⟨.error (.fault fault), cells, s, []⟩
    | .ok () =>
      let plan := Plan.of config tag cells.toList
      let (outcome, s) := plan.deliver sink s memory
      ⟨outcome.map fun _ ↦ some plan.report, plan.cells.toArray, s, [plan.event]⟩

end TileBuffer
