import TileBuffer.Proofs.Content

namespace TileBuffer

namespace Emission

def entries (g : Grid) (e : Emission) : List Cell := e.payload.items.map (Item.cell g e.tile)

end Emission

namespace Plan

section Block

variable {g : Grid} {run : Run}

theorem isZero_valuesAt (hnz : ∀ c ∈ run.cells, c.value.isZero = false) (i j : ℕ) :
    ∀ v ∈ Item.valuesAt (run.cells.map (Cell.item g)) i j, v.isZero = false := by
  intro v hv
  obtain ⟨item, hitem, rfl⟩ := List.mem_map.mp hv
  obtain ⟨c, hc, rfl⟩ := List.mem_map.mp (List.mem_filter.mp hitem).1
  exact hnz c hc

variable (hg : g.Sound) (hr : Settled g run) (hnz : ∀ c ∈ run.cells, c.value.isZero = false)
include hg hr hnz

theorem Settled.getLast?_nonzeros (sparse : Bool) {i j : ℕ} (hi : i < (g.extent run.tile).1)
    (hj : j < (g.extent run.tile).2) :
    (Item.valuesAt (block g sparse run).nonzeros i j).getLast? =
      (Item.valuesAt (run.cells.map (Cell.item g)) i j).getLast? := by
  have hz := isZero_valuesAt hnz i j (g := g)
  rw [(hr.wellFormed hg sparse).valuesAt_nonzeros]
  cases sparse with
  | true =>
    rw [hr.valuesAt_block hg, List.filter_eq_self.mpr fun v hv ↦ by rw [hz v hv]; rfl]
  | false =>
    have hin : (block g false run).inside i j = true := by
      rw [Fragment.inside_iff, rows_block, cols_block]
      exact ⟨hi, hj⟩
    rw [Fragment.valuesAt_eq_get (isSparse_block _ _ _) hin, hr.get_block hg]
    cases hl : (Item.valuesAt (run.cells.map (Cell.item g)) i j).getLast? with
    | none => rfl
    | some v => simp [hz v (List.mem_of_getLast? hl)]

theorem Settled.lastAt_nonzeros (ht : g.HasTile run.tile) (sparse : Bool) (row col : UInt64) :
    Cell.lastAt ((block g sparse run).nonzeros.map (Item.cell g run.tile)) row col =
      Cell.lastAt run.cells row col := by
  refine hr.map_cell_congr hg ht List.getLast? (fun item h ↦ ?_)
    (fun i j hi hj ↦ hr.getLast?_nonzeros hg hnz sparse hi hj) row col
  rw [Fragment.nonzeros_eq] at h
  exact hr.fit_stored hg sparse item (List.mem_filter.mp h).1

end Block

variable {config : Config} {tag : UInt8} {cells : List Cell}

theorem isZero_entries (hnz : ∀ c ∈ cells, c.value.isZero = false) {e : Emission}
    (he : e ∈ (Plan.of config tag cells).emissions) (g : Grid) :
    ∀ c ∈ e.entries g, c.value.isZero = false := by
  intro c hc
  obtain ⟨item, hitem, rfl⟩ := List.mem_map.mp hc
  cases hf : (Plan.of config tag cells).costs.format with
  | cell =>
    rw [emissions_cell hf] at he
    obtain ⟨d, hd, rfl⟩ := List.mem_map.mp he
    rw [List.mem_singleton.mp hitem]
    exact hnz d (sortByTile_perm.mem_iff.mp hd)
  | blocked =>
    rw [emissions_blocked hf] at he
    obtain ⟨run, -, rfl⟩ := List.mem_map.mp he
    exact Fragment.isZero_of_mem_nonzeros hitem

theorem lastAt_entries (hg : config.grid.Sound) (hin : ∀ c ∈ cells, c.Inside config.grid)
    (hnz : ∀ c ∈ cells, c.value.isZero = false) (row col : UInt64) :
    Cell.lastAt ((Plan.of config tag cells).emissions.flatMap (Emission.entries config.grid))
      row col = Cell.lastAt cells row col := by
  have hp : (Plan.of config tag cells).cells.Perm cells := cells_perm
  rw [Cell.lastAt, Cell.lastAt, ← Cell.valuesAt_sortByTile config.grid config.parallel cells,
    ← Cell.lastAt, ← Cell.lastAt]
  cases hf : (Plan.of config tag cells).costs.format with
  | cell =>
    rw [emissions_cell hf, List.flatMap_map, cells_of]
    have hc : ∀ c ∈ sortByTile config.grid config.parallel cells,
        ((Plan.of config tag cells).cellEmission c).entries config.grid = [c] :=
      fun c hc ↦ stored_cellEmission hg (hin c (hp.mem_iff.mp hc))
    rw [List.flatMap_congr hc, List.flatMap_singleton']
  | blocked =>
    rw [emissions_blocked hf, List.flatMap_map, grid_of]
    conv_rhs => rw [← Run.flatMap_cells_split config.grid (sortByTile _ _ _)]
    refine Cell.lastAt_flatMap_congr fun run hrun ↦ ?_
    have hr := settled_of_mem_runs hin hrun
    have hz : ∀ c ∈ run.cells, c.value.isZero = false :=
      fun c hc ↦ hnz c (hp.mem_iff.mp (Run.cells_subset hrun c hc))
    exact hr.lastAt_nonzeros hg hz (hr.hasTile (Run.mem_split hrun).1) _ row col

end Plan

end TileBuffer
