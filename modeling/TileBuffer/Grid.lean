import TileBuffer.Axis

namespace TileBuffer

/-- The number of a tile, by row and column of the grid; both start at 1. -/
structure Tile where
  row : UInt64
  col : UInt64
deriving DecidableEq, Inhabited

namespace Tile

instance : LE Tile := ⟨fun t u ↦ t.row < u.row ∨ t.row = u.row ∧ t.col ≤ u.col⟩

instance (t u : Tile) : Decidable (t ≤ u) :=
  inferInstanceAs (Decidable (t.row < u.row ∨ t.row = u.row ∧ t.col ≤ u.col))

def cmp (t u : Tile) : Ordering := (compare t.row u.row).then (compare t.col u.col)

def text (t : Tile) : String :=
  let row := t.row
  let col := t.col
  s!"({row}, {col})"

theorem le_def {t u : Tile} : t ≤ u ↔ t.row < u.row ∨ t.row = u.row ∧ t.col ≤ u.col := Iff.rfl

theorem le_total (t u : Tile) : t ≤ u ∨ u ≤ t := by
  simp only [le_def, UInt64.lt_iff_toNat_lt, UInt64.le_iff_toNat_le, ← UInt64.toNat_inj]
  omega

theorem le_trans {t u w : Tile} (h : t ≤ u) (h' : u ≤ w) : t ≤ w := by
  simp only [le_def, UInt64.lt_iff_toNat_lt, UInt64.le_iff_toNat_le, ← UInt64.toNat_inj] at *
  omega

theorem le_antisymm {t u : Tile} (h : t ≤ u) (h' : u ≤ t) : t = u := by
  cases t
  cases u
  simp only [le_def, UInt64.lt_iff_toNat_lt, UInt64.le_iff_toNat_le, Tile.mk.injEq,
    ← UInt64.toNat_inj] at *
  omega

end Tile

structure Grid where
  rows : Axis
  cols : Axis
deriving DecidableEq, Inhabited

namespace Grid

def ofSizes (rows cols tileRows tileCols : UInt64) : Grid := ⟨⟨rows, tileRows⟩, ⟨cols, tileCols⟩⟩

def tileOf (g : Grid) (row col : UInt64) : Tile := ⟨g.rows.tileOf row, g.cols.tileOf col⟩

def localOf (g : Grid) (row col : UInt64) : Nat × Nat := (g.rows.localOf row, g.cols.localOf col)

def extent (g : Grid) (t : Tile) : Nat × Nat := (g.rows.extent t.row, g.cols.extent t.col)

def globalOf (g : Grid) (t : Tile) (i j : Nat) : UInt64 × UInt64 :=
  (g.rows.globalOf t.row i, g.cols.globalOf t.col j)

def contains (g : Grid) (row col : UInt64) : Bool := g.rows.contains row && g.cols.contains col

def tiles (g : Grid) : UInt64 × UInt64 := (g.rows.tiles, g.cols.tiles)

section Checked

def tileOf? (g : Grid) (row col : UInt64) : Except Fault Tile := do
  let row ← g.rows.tileOf? row
  let col ← g.cols.tileOf? col
  return ⟨row, col⟩

def localOf? (g : Grid) (row col : UInt64) : Except Fault (Nat × Nat) := do
  let i ← g.rows.localOf? row
  let j ← g.cols.localOf? col
  return (i, j)

def tiles? (g : Grid) : Except Fault (UInt64 × UInt64) := do
  let down ← g.rows.tiles?
  let across ← g.cols.tiles?
  return (down, across)

def checkTiles (g : Grid) : Except Fault Unit :=
  if g.rows.tileLength = 0 ∨ g.cols.tileLength = 0 then .error .zeroDivisor else .ok ()

end Checked

end Grid

end TileBuffer
