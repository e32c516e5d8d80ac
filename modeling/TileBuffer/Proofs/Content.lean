import TileBuffer.Proofs.Position

namespace TileBuffer

variable {σ ε : Type}

namespace Payload

def stored : Payload → List Item
  | .block fragment => fragment.stored
  | .cell item => [item]

def isDense : Payload → Bool
  | .block fragment => !fragment.isSparse
  | .cell _ => false

end Payload

namespace Emission

/-- Everything that is sent, zeros included, as cells of the matrix. -/
def stored (g : Grid) (e : Emission) : List Cell := e.payload.stored.map (Item.cell g e.tile)

end Emission

/-- What emissions tell about the cells of a flush with this report. -/
structure Conveys (g : Grid) (tag : UInt8) (cells : List Cell) (report : Report)
    (sent : List Emission) : Prop where
  /-- records and sparse fragments hold the cells, each as often as it was given -/
  all : report.format = .cell ∨ report.sparse = true →
    (∀ e ∈ sent, e.payload.isDense = false) ∧ (sent.flatMap (Emission.stored g)).Perm cells
  /-- a dense fragment holds at each position the last cell given there, or zero -/
  last : report.format = .blocked ∧ report.sparse = false → ∀ e ∈ sent, ∃ f,
    e.payload = .block f ∧ f.isSparse = false ∧ (f.rows, f.cols) = g.extent e.tile ∧
      ∀ i < f.rows, ∀ j < f.cols, f.get i j = (Cell.lastAt cells
        (g.globalOf e.tile i j).1 (g.globalOf e.tile i j).2).getD .zero
  placed : report.format = .blocked → ∀ c ∈ cells, ∃ f,
    sent.filter (fun e ↦ e.tile = c.tile g) = [⟨c.tile g, tag, .block f⟩] ∧
      f.inside (c.place g).1 (c.place g).2 = true ∧
      g.globalOf (c.tile g) (c.place g).1 (c.place g).2 = (c.row, c.col)

namespace Plan

variable {config : Config} {tag : UInt8} {cells : List Cell}

theorem stored_cellEmission (hg : config.grid.Sound) {c : Cell} (h : c.Inside config.grid) :
    ((Plan.of config tag cells).cellEmission c).stored config.grid = [c] := by
  have hp := h.globalOf_place hg
  rw [Prod.ext_iff] at hp
  obtain ⟨row, col, v⟩ := c
  exact congrArg (fun c ↦ [c]) (congrArg₂ (Cell.mk · · v) hp.1 hp.2)

theorem filter_emissions {run : Run} (h : (Plan.of config tag cells).costs.format = .blocked)
    (hrun : run ∈ (Plan.of config tag cells).runs) :
    (Plan.of config tag cells).emissions.filter (fun e ↦ e.tile = run.tile) =
      [⟨run.tile, tag, .block (block config.grid (Plan.of config tag cells).sparse run)⟩] := by
  rw [emissions_blocked h, List.map_eq_flatMap]
  exact filter_flatMap_eq _ _ Emission.tile Run.tile
    (fun run _ e he ↦ congrArg Emission.tile (List.mem_singleton.mp he))
    (Run.split_tiles_nodup sortByTile_pairwise) hrun

theorem exists_run_of_mem {c : Cell} (hc : c ∈ cells) :
    ∃ run ∈ (Plan.of config tag cells).runs, c ∈ run.cells := by
  have hp : (Plan.of config tag cells).cells.Perm cells := cells_perm
  have h := hp.mem_iff.mpr hc
  rwa [cells_of, ← Run.flatMap_cells_split config.grid (sortByTile _ _ _), List.mem_flatMap] at h

variable (hin : ∀ c ∈ cells, c.Inside config.grid)
include hin

/-- At the positions of its tile a run has all the values that the flush was given there. -/
theorem valuesAt_of_mem_runs {run : Run} (hrun : run ∈ (Plan.of config tag cells).runs) {i j : ℕ}
    (hi : i < (config.grid.extent run.tile).1) (hj : j < (config.grid.extent run.tile).2) :
    Cell.valuesAt run.cells (config.grid.globalOf run.tile i j).1
        (config.grid.globalOf run.tile i j).2 =
      Cell.valuesAt cells (config.grid.globalOf run.tile i j).1
        (config.grid.globalOf run.tile i j).2 := by
  have ht := (settled_of_mem_runs hin hrun).hasTile (Run.mem_split hrun).1
  rw [← Cell.valuesAt_sortByTile config.grid config.parallel cells,
    ← Run.filter_tile_eq sortByTile_pairwise hrun, Cell.valuesAt, List.filter_filter,
    Cell.valuesAt]
  congr 1
  refine List.filter_congr fun c _ ↦ ?_
  rw [Bool.and_eq_left_iff_imp, Cell.isAt_iff, decide_eq_true_eq]
  rintro ⟨hr, hc⟩
  exact Cell.tile_eq_of_globalOf ht hi hj (Prod.ext hr.symm hc.symm)

variable (hg : config.grid.Sound)
include hg

theorem stored_emissions_perm (h : (Plan.of config tag cells).costs.format = .cell ∨
      (Plan.of config tag cells).sparse = true) :
    ((Plan.of config tag cells).emissions.flatMap (Emission.stored config.grid)).Perm cells := by
  have hp : (Plan.of config tag cells).cells.Perm cells := cells_perm
  refine List.Perm.trans ?_ hp
  cases hf : (Plan.of config tag cells).costs.format with
  | cell =>
    rw [emissions_cell hf, List.flatMap_map]
    have hc : ∀ c ∈ (Plan.of config tag cells).cells,
        ((Plan.of config tag cells).cellEmission c).stored config.grid = [c] :=
      fun c hc ↦ stored_cellEmission hg (hin c (hp.mem_iff.mp hc))
    rw [List.flatMap_congr hc, List.flatMap_singleton']
  | blocked =>
    have hs : (Plan.of config tag cells).sparse = true := by simpa [hf] using h
    rw [emissions_blocked hf, List.flatMap_map, hs]
    conv_rhs => rw [cells_of, ← Run.flatMap_cells_split config.grid (sortByTile _ _ _)]
    refine List.Perm.flatMap_left _ fun run hrun ↦ Cell.perm_of_valuesAt ?_
    have hr := settled_of_mem_runs hin hrun
    exact hr.valuesAt_stored hg (hr.hasTile (Run.mem_split hrun).1)

omit hin hg in
theorem isDense_emissions (h : (Plan.of config tag cells).costs.format = .cell ∨
      (Plan.of config tag cells).sparse = true) :
    ∀ e ∈ (Plan.of config tag cells).emissions, e.payload.isDense = false := by
  intro e he
  cases hf : (Plan.of config tag cells).costs.format with
  | cell =>
    rw [emissions_cell hf] at he
    obtain ⟨c, _, rfl⟩ := List.mem_map.mp he
    rfl
  | blocked =>
    have hs : (Plan.of config tag cells).sparse = true := by simpa [hf] using h
    rw [emissions_blocked hf] at he
    obtain ⟨run, hrun, rfl⟩ := List.mem_map.mp he
    rw [grid_of, Payload.isDense, isSparse_block, hs]
    rfl

theorem block_emissions (hf : (Plan.of config tag cells).costs.format = .blocked)
    (hs : (Plan.of config tag cells).sparse = false) :
    ∀ e ∈ (Plan.of config tag cells).emissions, ∃ f, e.payload = .block f ∧ f.isSparse = false ∧
      (f.rows, f.cols) = config.grid.extent e.tile ∧
        ∀ i < f.rows, ∀ j < f.cols, f.get i j = (Cell.lastAt cells
          (config.grid.globalOf e.tile i j).1 (config.grid.globalOf e.tile i j).2).getD .zero := by
  intro e he
  rw [emissions_blocked hf] at he
  obtain ⟨run, hrun, rfl⟩ := List.mem_map.mp he
  have hr := settled_of_mem_runs hin hrun
  have ht := hr.hasTile (Run.mem_split hrun).1
  refine ⟨_, rfl, ?_, ?_, fun i hi j hj ↦ ?_⟩
  · rw [grid_of, isSparse_block, hs]
  · rw [grid_of, rows_block, cols_block]
  · rw [grid_of, rows_block] at hi
    rw [grid_of, cols_block] at hj
    rw [grid_of, hr.get_eq_lastAt hg ht _ hi hj, Cell.lastAt,
      valuesAt_of_mem_runs hin hrun hi hj]
    rfl

theorem placed_emissions (hf : (Plan.of config tag cells).costs.format = .blocked) :
    ∀ c ∈ cells, ∃ f, (Plan.of config tag cells).emissions.filter
        (fun e ↦ e.tile = c.tile config.grid) = [⟨c.tile config.grid, tag, .block f⟩] ∧
      f.inside (c.place config.grid).1 (c.place config.grid).2 = true ∧
      config.grid.globalOf (c.tile config.grid) (c.place config.grid).1 (c.place config.grid).2 =
        (c.row, c.col) := by
  intro c hc
  obtain ⟨run, hrun, hcr⟩ : ∃ run ∈ (Plan.of config tag cells).runs, c ∈ run.cells :=
    exists_run_of_mem hc
  have hr := settled_of_mem_runs hin hrun
  obtain ⟨hi, ht⟩ := hr c hcr
  refine ⟨_, ht ▸ filter_emissions hf hrun, ?_, hi.globalOf_place hg⟩
  rw [(sameShape_block _ _ _).inside_eq]
  exact hr.inside hg _ (c.item config.grid) (List.mem_map_of_mem hcr)

theorem conveys : Conveys config.grid tag cells (Plan.of config tag cells).report
    (Plan.of config tag cells).emissions where
  all h := ⟨isDense_emissions h, stored_emissions_perm hin hg h⟩
  last h := block_emissions hin hg h.1 h.2
  placed h := placed_emissions hin hg h

end Plan

/-- A flush succeeds with an accepting sink, and what the sink gets conveys the cells. -/
theorem flush_conveys {config : Config} (hg : config.grid.check = .ok ()) {cells : Array Cell}
    (hne : cells.isEmpty = false) (hin : ∀ c ∈ cells, c.Inside config.grid) (tag : UInt8)
    {sink : Sink σ ε} (hs : sink.Accepting) (s : σ) :
    ∃ report, (flush config cells tag sink s).outcome = .ok (some report) ∧
      Conveys config.grid tag cells.toList report
        (flush config cells tag sink.watch (s, [])).sink.2 := by
  rw [Grid.check_eq_ok_iff] at hg
  have hc : Conveys config.grid tag cells.toList (Plan.of config tag cells.toList).report
      (Plan.of config tag cells.toList).emissions :=
    Plan.conveys (fun c h ↦ hin c (Array.mem_toList_iff.mp h)) hg
  refine ⟨(Plan.of config tag cells.toList).report, ?_, ?_⟩
  · rw [flush_eq hg hne hin]
    dsimp only
    rw [hs.deliver_eq_ok]
    rfl
  · rw [flush_eq hg hne hin]
    dsimp only
    rw [Sink.deliver_watch, Sink.offered_of_deliver_ok (hs.deliver_eq_ok _ s)]
    exact hc

/-- Two values at the first cell, a negative zero next to it and a NaN in the last tile, which the
edges of the matrix cut down to one cell. -/
theorem flush_conveys_three_by_three :
    let config : Config := ⟨.ofSizes 3 3 2 2, 9, .alwaysDense, true⟩
    let cells : Array Cell := #[⟨1, 1, ⟨0x3ff0000000000000⟩⟩, ⟨2, 1, ⟨0x8000000000000000⟩⟩,
      ⟨1, 1, ⟨0x4000000000000000⟩⟩, ⟨3, 3, ⟨0x7ff8000000000001⟩⟩]
    config.grid.check = .ok () ∧ cells.isEmpty = false ∧ (∀ c ∈ cells, c.Inside config.grid) ∧
      Sink.collect.Accepting ∧
      ∃ report, (flush config cells 7 Sink.collect #[]).outcome = .ok (some report) ∧
        Conveys config.grid 7 cells.toList report
          (flush config cells 7 Sink.collect.watch (#[], [])).sink.2 := by
  intro config cells
  have hg : config.grid.check = .ok () := rfl
  have hne : cells.isEmpty = false := rfl
  have hin : ∀ c ∈ cells, c.Inside config.grid := by decide
  exact ⟨hg, hne, hin, Sink.collect_accepting,
    flush_conveys hg hne hin 7 Sink.collect_accepting #[]⟩

end TileBuffer
