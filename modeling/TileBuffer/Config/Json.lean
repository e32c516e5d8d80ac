import TileBuffer.Config
import TileBuffer.Json.Parse

namespace TileBuffer

namespace Tile

def toJson (t : Tile) : Json := .record [("row", .word t.row), ("col", .word t.col)]

def ofJson? (j : Json) : Option Tile :=
  match j.fields? ["row", "col"] with
  | some [row, col] => do return ⟨← row.word?, ← col.word?⟩
  | _ => none

end Tile

namespace Grid

def toJson (g : Grid) : Json :=
  .record
    [("rows", .word g.rows.length), ("cols", .word g.cols.length),
      ("block_rows", .word g.rows.tileLength), ("block_cols", .word g.cols.tileLength)]

def ofJson? (j : Json) : Option Grid :=
  match j.fields? ["rows", "cols", "block_rows", "block_cols"] with
  | some [rows, cols, tileRows, tileCols] => do
    return .ofSizes (← rows.word?) (← cols.word?) (← tileRows.word?) (← tileCols.word?)
  | _ => none

end Grid

namespace StoragePolicy

def toJson? : StoragePolicy → Option Json
  | .turnPoint share =>
    some (.record [("TurnPoint", .record [("turn_point", .ofValue share)])])
  | .alwaysSparse => some (.string "AlwaysSparse")
  | .alwaysDense => some (.string "AlwaysDense")
  | .custom _ => none

def ofName? (name : String) : Option StoragePolicy :=
  if name = "AlwaysSparse" then some .alwaysSparse
  else if name = "AlwaysDense" then some .alwaysDense
  else none

def turnPointOfJson? (j : Json) : Option StoragePolicy :=
  match j.fields? ["turn_point"] with
  | some [share] => do return .turnPoint (← share.value?)
  | _ => none

/-- A policy is written as its name, or as an object with its name as the only key. -/
def ofJson? : Json → Option StoragePolicy
  | .str (some name) => ofName? name
  | .obj [(some name, value)] =>
    if name = "TurnPoint" then turnPointOfJson? value
    else
      match value with
      | .null => ofName? name
      | _ => none
  | _ => none

end StoragePolicy

namespace Config

def toJson? (c : Config) : Option Json := do
  let density ← c.policy.toJson?
  return .record
    [("geometry", c.grid.toJson), ("capacity", .word c.capacity), ("density", density),
      ("parallel", .bool c.parallel)]

def ofJson? (j : Json) : Option Config :=
  match j.fields? ["geometry", "capacity", "density", "parallel"] with
  | some [grid, capacity, density, parallel] => do
    return ⟨← Grid.ofJson? grid, ← capacity.word?, ← StoragePolicy.ofJson? density,
      ← parallel.bool?⟩
  | _ => none

end Config

end TileBuffer
