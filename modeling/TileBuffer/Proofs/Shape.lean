import TileBuffer.Proofs.Fragment.Canonical
import TileBuffer.Proofs.Report
import TileBuffer.Proofs.Tiles

namespace TileBuffer

variable {σ ε : Type}

namespace Fragment

def RowsOrdered (f : Fragment) : Prop :=
  match f.storage with
  | .dense _ => True
  | .sparse rows => ∀ r ∈ rows, r.entries.toList.Pairwise fun e e' ↦ e.col ≤ e'.col

theorem rowsOrdered_sortRows (f : Fragment) : f.sortRows.RowsOrdered := by
  obtain ⟨rows, cols, values | entries⟩ := f
  · trivial
  · intro r hr
    obtain ⟨r, -, rfl⟩ := Array.mem_map.mp hr
    exact Row.pairwise_sort r

end Fragment

def Report.cost (r : Report) : ℕ :=
  match r.format with
  | .blocked => r.costs.blocked
  | .cell => r.costs.cell

def Cell.record (g : Grid) (tag : UInt8) (c : Cell) : Emission := ⟨c.tile g, tag, .cell (c.item g)⟩

/-- A fragment of the extent of its tile, however much of it is filled. -/
structure CoversTile (g : Grid) (sparse : Bool) (t : Tile) (f : Fragment) : Prop where
  extent : (f.rows, f.cols) = g.extent t
  rows_pos : 0 < f.rows
  cols_pos : 0 < f.cols
  isSparse : f.isSparse = sparse
  rowsOrdered : f.RowsOrdered

/-- One fragment for each tile. Storage is chosen once, for a whole tile and the average count. -/
structure BlockShape (config : Config) (cells : List Cell) (report : Report)
    (sent : List Emission) : Prop where
  tiles : ListsTiles config.grid cells (sent.map Emission.tile)
  tiles_pos : 0 < report.tiles
  sparse_eq : report.sparse = config.policy.isSparse config.grid.rows.tileLength
    config.grid.cols.tileLength (UInt64.ofNat (report.cells / report.tiles))
  covers : ∀ e ∈ sent, ∃ f, e.payload = .block f ∧ CoversTile config.grid report.sparse e.tile f

/-- One record for each cell, in the order of tiles and of arrival. -/
structure RecordShape (g : Grid) (tag : UInt8) (cells : List Cell) (report : Report)
    (sent : List Emission) : Prop where
  sparse_eq : report.sparse = false
  sorted : ∃ sorted, StablySorted g cells sorted ∧ sent = sorted.map (Cell.record g tag)
  ordered : sent.Pairwise fun e e' ↦ e.tile ≤ e'.tile
  arrival : ∀ t, sent.filter (fun e ↦ e.tile = t) =
    (cells.filter fun c ↦ c.tile g = t).map (Cell.record g tag)

structure FlushShape (config : Config) (tag : UInt8) (cells : List Cell) (report : Report)
    (sent : List Emission) : Prop where
  cells_eq : report.cells = cells.length
  tiles_eq : report.tiles = tileCount config.grid cells
  format_iff : report.format = .blocked ↔ 2 * report.tiles ≤ report.cells
  costs_eq : report.costs = ⟨16 * report.tiles + 16 * report.cells, 24 * report.cells⟩
  cost_eq : report.cost = min report.costs.blocked report.costs.cell
  length_eq : sent.length = report.emissions
  tag_eq : ∀ e ∈ sent, e.tag = tag
  blocks : report.format = .blocked → BlockShape config cells report sent
  records : report.format = .cell → RecordShape config.grid tag cells report sent

namespace Plan

variable {config : Config} {tag : UInt8} {cells : List Cell}

theorem tiles_report : (Plan.of config tag cells).report.tiles = tileCount config.grid cells :=
  Run.length_split config.grid config.parallel cells

theorem format_of_eq_blocked_iff : (Plan.of config tag cells).costs.format = .blocked ↔
    2 * tileCount config.grid cells ≤ cells.length := by
  rw [costs_of, Costs.format_of_eq_blocked_iff, length_cells_of, runs_of, Run.length_split]

theorem sparse_of_blocked (hf : (Plan.of config tag cells).costs.format = .blocked) :
    (Plan.of config tag cells).sparse = config.policy.isSparse config.grid.rows.tileLength
      config.grid.cols.tileLength
      (UInt64.ofNat (cells.length / tileCount config.grid cells)) := by
  rw [sparse_of, hf, length_cells_of, runs_of, Run.length_split]

theorem cost_report (p : Plan) : p.report.cost = min p.costs.blocked p.costs.cell := by
  have hf : p.report.format = if p.costs.blocked ≤ p.costs.cell then .blocked else .cell := rfl
  rw [Report.cost, hf]
  by_cases h : p.costs.blocked ≤ p.costs.cell
  · rw [if_pos h, min_eq_left h]
    rfl
  · rw [if_neg h, min_eq_right (Nat.le_of_not_le h)]
    rfl

theorem tag_emissions : ∀ e ∈ (Plan.of config tag cells).emissions, e.tag = tag := by
  intro e he
  cases hf : (Plan.of config tag cells).costs.format with
  | blocked =>
    rw [emissions_blocked hf] at he
    obtain ⟨run, -, rfl⟩ := List.mem_map.mp he
    rfl
  | cell =>
    rw [emissions_cell hf] at he
    obtain ⟨c, -, rfl⟩ := List.mem_map.mp he
    rfl

theorem coversTile_block {g : Grid} {run : Run} (hg : g.Sound) (ht : g.HasTile run.tile)
    (sparse : Bool) : CoversTile g sparse run.tile (block g sparse run) where
  extent := by rw [rows_block, cols_block]
  rows_pos := by
    rw [rows_block]
    exact ht.1.extent_pos hg.tileRows
  cols_pos := by
    rw [cols_block]
    exact ht.2.extent_pos hg.tileCols
  isSparse := isSparse_block _ _ _
  rowsOrdered := Fragment.rowsOrdered_sortRows _

theorem blockShape (hg : config.grid.Sound) (hne : cells ≠ [])
    (hin : ∀ c ∈ cells, c.Inside config.grid)
    (hf : (Plan.of config tag cells).costs.format = .blocked) :
    BlockShape config cells (Plan.of config tag cells).report
      (Plan.of config tag cells).emissions where
  tiles := by
    rw [emissions_blocked hf, List.map_map]
    exact Run.listsTiles_split config.grid config.parallel cells
  tiles_pos := List.length_pos_iff.mpr (runs_ne_nil hne)
  sparse_eq := by
    rw [cells_report, tiles_report]
    exact sparse_of_blocked hf
  covers := by
    intro e he
    rw [emissions_blocked hf] at he
    obtain ⟨run, hrun, rfl⟩ := List.mem_map.mp he
    have hr := settled_of_mem_runs hin hrun
    exact ⟨_, rfl, coversTile_block hg (hr.hasTile (Run.mem_split hrun).1) _⟩

theorem recordShape (hf : (Plan.of config tag cells).costs.format = .cell) :
    RecordShape config.grid tag cells (Plan.of config tag cells).report
      (Plan.of config tag cells).emissions := by
  have hsorted := stablySorted_sortByTile config.grid config.parallel cells
  have hsent : (Plan.of config tag cells).emissions =
      (sortByTile config.grid config.parallel cells).map (Cell.record config.grid tag) :=
    emissions_cell hf
  have hs : (Plan.of config tag cells).sparse = _ := sparse_of
  rw [hf] at hs
  refine ⟨hs, ⟨_, hsorted, hsent⟩, ?_, fun t ↦ ?_⟩
  · rw [hsent, List.pairwise_map]
    exact hsorted.ordered
  · rw [hsent, List.filter_map, ← hsorted.stable t]
    rfl

theorem shape (hg : config.grid.Sound) (hne : cells ≠ [])
    (hin : ∀ c ∈ cells, c.Inside config.grid) :
    FlushShape config tag cells (Plan.of config tag cells).report
      (Plan.of config tag cells).emissions where
  cells_eq := cells_report
  tiles_eq := tiles_report
  format_iff := Costs.format_of_eq_blocked_iff
  costs_eq := rfl
  cost_eq := cost_report _
  length_eq := length_emissions _
  tag_eq := tag_emissions
  blocks := blockShape hg hne hin
  records := recordShape

end Plan

/-- The shape of every flush of cells of the matrix. -/
theorem flush_shape {config : Config} (hg : config.grid.check = .ok ()) {cells : Array Cell}
    (hne : cells.isEmpty = false) (hin : ∀ c ∈ cells, c.Inside config.grid) (tag : UInt8)
    {sink : Sink σ ε} (hs : sink.Accepting) (s : σ) :
    ∃ report, (flush config cells tag sink s).outcome = .ok (some report) ∧
      FlushShape config tag cells.toList report (flushCalls config cells tag sink s) := by
  rw [Grid.check_eq_ok_iff] at hg
  obtain ⟨hreport, hcalls⟩ := flush_accepted hg hne hin tag hs s
  refine ⟨_, hreport, ?_⟩
  rw [hcalls]
  have hnil := mt Array.toList_eq_nil_iff.mp (Array.isEmpty_eq_false_iff.mp hne)
  exact Plan.shape hg hnil fun c hc ↦ hin c (Array.mem_toList_iff.mp hc)

/-- Tiles that alternate and that the edges cut off, at the count where fragments begin to pay. -/
theorem flush_shape_alternating :
    let config : Config := ⟨.ofSizes 3 3 2 2, 9, .alwaysSparse, true⟩
    let cells : Array Cell := #[⟨3, 3, ⟨0x3ff0000000000000⟩⟩, ⟨1, 3, .zero⟩,
      ⟨3, 3, ⟨0x4000000000000000⟩⟩, ⟨2, 3, ⟨0x7ff8000000000001⟩⟩]
    config.grid.check = .ok () ∧ cells.isEmpty = false ∧ (∀ c ∈ cells, c.Inside config.grid) ∧
      Sink.collect.Accepting ∧
      ∃ report, (flush config cells 7 Sink.collect #[]).outcome = .ok (some report) ∧
        FlushShape config 7 cells.toList report (flushCalls config cells 7 Sink.collect #[]) := by
  intro config cells
  have hg : config.grid.check = .ok () := rfl
  have hne : cells.isEmpty = false := rfl
  have hin : ∀ c ∈ cells, c.Inside config.grid := by decide
  exact ⟨hg, hne, hin, Sink.collect_accepting,
    flush_shape hg hne hin 7 Sink.collect_accepting #[]⟩

end TileBuffer
