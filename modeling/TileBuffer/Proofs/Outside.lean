import TileBuffer.Proofs.Fragment.Memory
import TileBuffer.Proofs.Shape

namespace TileBuffer

variable {σ ε : Type}

section InRange

/-- The tile of an index, its place there and the start of the tile are those of the number `ix`:
there is no division by zero, and no word wraps round. -/
structure Axis.Exact (a : Axis) (ix : UInt64) : Prop where
  divisor : a.tileLength.toNat ≠ 0
  pred : (ix - 1).toNat + 1 = ix.toNat
  tileOf : (a.tileOf ix).toNat = (ix.toNat - 1) / a.tileLength.toNat + 1
  localOf : a.localOf ix = (ix.toNat - 1) % a.tileLength.toNat
  before : (a.before (a.tileOf ix)).toNat = ((a.tileOf ix).toNat - 1) * a.tileLength.toNat

theorem Axis.exact_of_pos {a : Axis} {ix : UInt64} (hl : 0 < a.tileLength.toNat)
    (h : 1 ≤ ix.toNat) : a.Exact ix where
  divisor := Nat.pos_iff_ne_zero.mp hl
  pred := by
    rw [toNat_pred h]
    omega
  tileOf := toNat_tileOf h
  localOf := localOf_eq h
  before := by rw [toNat_before_tileOf h, toNat_tileOf h, Nat.add_sub_cancel]

def Cell.OneBased (c : Cell) : Prop := 1 ≤ c.row.toNat ∧ 1 ≤ c.col.toNat

instance (c : Cell) : Decidable c.OneBased :=
  inferInstanceAs (Decidable (1 ≤ c.row.toNat ∧ 1 ≤ c.col.toNat))

theorem Cell.OneBased.exact {g : Grid} {c : Cell} (h : c.OneBased)
    (hrows : 0 < g.rows.tileLength.toNat) (hcols : 0 < g.cols.tileLength.toNat) :
    g.rows.Exact c.row ∧ g.cols.Exact c.col :=
  ⟨Axis.exact_of_pos hrows h.1, Axis.exact_of_pos hcols h.2⟩

end InRange

namespace Cell

def firstOutside? (g : Grid) (cells : List Cell) : Option Cell :=
  cells.find? fun c ↦ !g.contains c.row c.col

variable {g : Grid} {c : Cell} {cells : List Cell}

end Cell

namespace Plan

section Fill

variable {g : Grid} {f f' : Fragment} {c : Cell} {front cells : List Cell}

end Fill

variable {config : Config} {tag : UInt8} {cells : List Cell} {c : Cell}
  (hrows : 0 < config.grid.rows.tileLength.toNat) (hcols : 0 < config.grid.cols.tileLength.toNat)
include hrows hcols

variable (hpos : ∀ c ∈ cells, c.OneBased)
include hpos

end Plan

/-- The fragments of the tiles before `t` that have cells, in their order. -/
structure BlocksBefore (config : Config) (tag : UInt8) (cells : List Cell) (t : Tile)
    (sent : List Emission) : Prop where
  increasing : (sent.map Emission.tile).Pairwise Tile.Before
  mem_iff : ∀ u, u ∈ sent.map Emission.tile ↔
    (∃ c ∈ cells, c.tile config.grid = u) ∧ u.Before t
  block_eq : ∀ e ∈ sent, e = ⟨e.tile, tag, .block (Plan.block config.grid
    (config.policy.isSparse config.grid.rows.tileLength config.grid.cols.tileLength
      (UInt64.ofNat (cells.length / tileCount config.grid cells)))
    (Run.ofTile config.grid cells e.tile))⟩

namespace Plan

variable {config : Config} {tag : UInt8} {cells : List Cell} {c : Cell}

variable (hrows : 0 < config.grid.rows.tileLength.toNat)
  (hcols : 0 < config.grid.cols.tileLength.toNat) (hpos : ∀ c ∈ cells, c.OneBased)
  {sink : Sink σ ε} (hs : sink.Accepting)
include hrows hcols hpos hs

end Plan

/-- How a flush of cells anywhere ends when the sink accepts: as records they all go; as fragments
they go up to the first outside, if there is one. -/
structure Ends (config : Config) (tag : UInt8) (cells : List Cell) (done : Flushed σ ε)
    (calls : List Emission) : Prop where
  sorted : StablySorted config.grid cells done.cells.toList
  records : cells.length < 2 * tileCount config.grid cells →
    (∃ report, done.outcome = .ok (some report)) ∧
      calls = done.cells.toList.map (Cell.record config.grid tag)
  ok_iff : 2 * tileCount config.grid cells ≤ cells.length →
    ((∃ report, done.outcome = .ok (some report)) ↔ ∀ c ∈ cells, c.Inside config.grid)
  fault_iff : 2 * tileCount config.grid cells ≤ cells.length →
    ((∃ fault, done.outcome = .error (.fault fault)) ↔ ∃ c ∈ cells, ¬c.Inside config.grid)
  stops : 2 * tileCount config.grid cells ≤ cells.length →
    ∀ c, Cell.firstOutside? config.grid done.cells.toList = some c →
      done.outcome =
          .error (.fault (.outsideFragment (c.place config.grid).1 (c.place config.grid).2)) ∧
        BlocksBefore config tag cells (c.tile config.grid) calls

end TileBuffer
