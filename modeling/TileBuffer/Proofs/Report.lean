import TileBuffer.Proofs.Flush

namespace TileBuffer

namespace Report

def blocks (r : Report) : ℕ :=
  match r.format with
  | .blocked => r.tiles
  | .cell => 0

def records (r : Report) : ℕ :=
  match r.format with
  | .blocked => 0
  | .cell => r.cells

theorem blocks_add_records (r : Report) : r.blocks + r.records = r.emissions := by
  rw [blocks, records, emissions]
  cases r.format with
  | blocked => rfl
  | cell => exact Nat.zero_add _

end Report

theorem Counters.record_eq (c : Counters) (r : Report) :
    c.record r = ⟨c.flushes + 1, c.autoFlushes, c.cells + r.cells, c.blocks + r.blocks,
      c.records + r.records⟩ := by
  rw [record, Report.blocks, Report.records]
  cases r.format <;> rfl

theorem Counters.foldl_record (c : Counters) (reports : List Report) :
    reports.foldl (fun c r ↦ (c.record r).recordAuto) c =
      ⟨c.flushes + reports.length, c.autoFlushes + reports.length,
        c.cells + (reports.map Report.cells).sum, c.blocks + (reports.map Report.blocks).sum,
        c.records + (reports.map Report.records).sum⟩ := by
  induction reports generalizing c with
  | nil => rfl
  | cons r reports ih =>
    rw [List.foldl_cons, ih, record_eq, recordAuto]
    simp only [List.length_cons, List.map_cons, List.sum_cons, Counters.mk.injEq]
    omega

theorem Costs.format_of_eq_blocked_iff {cells tiles : ℕ} :
    (Costs.of cells tiles).format = .blocked ↔ 2 * tiles ≤ cells := by
  rw [format, of]
  dsimp only
  split
  · exact ⟨fun _ ↦ by omega, fun _ ↦ rfl⟩
  · exact ⟨nofun, fun _ ↦ by omega⟩

namespace Plan

variable {config : Config} {tag : UInt8} {cells : List Cell}

theorem cells_report : (Plan.of config tag cells).report.cells = cells.length := length_cells_of

theorem length_emissions (p : Plan) : p.emissions.length = p.report.emissions := by
  cases hf : p.costs.format with
  | blocked => rw [emissions_blocked hf, List.length_map, Report.emissions, report, hf]
  | cell => rw [emissions_cell hf, List.length_map, Report.emissions, report, hf]

theorem runs_ne_nil (h : cells ≠ []) : (Plan.of config tag cells).runs ≠ [] := by
  intro hr
  have hp : (Plan.of config tag cells).cells.Perm cells := cells_perm
  rw [runs_of] at hr
  rw [cells_of, ← Run.flatMap_cells_split config.grid (sortByTile _ _ _), hr,
    List.flatMap_nil] at hp
  exact h hp.symm.eq_nil

theorem emissions_report_pos (h : cells ≠ []) :
    0 < (Plan.of config tag cells).report.emissions := by
  rw [← length_emissions, List.length_pos_iff]
  intro he
  cases hf : (Plan.of config tag cells).costs.format with
  | blocked =>
    rw [emissions_blocked hf, List.map_eq_nil_iff] at he
    exact runs_ne_nil h he
  | cell =>
    rw [emissions_cell hf, List.map_eq_nil_iff] at he
    have hl : (Plan.of config tag cells).cells.length = cells.length := length_cells_of
    rw [he] at hl
    exact h (List.length_eq_zero_iff.mp hl.symm)

theorem weight_report_le : 2 * (Plan.of config tag cells).report.blocks +
    (Plan.of config tag cells).report.records ≤ cells.length := by
  rw [Report.blocks, Report.records]
  cases hf : (Plan.of config tag cells).report.format with
  | blocked =>
    have h := Costs.format_of_eq_blocked_iff.mp ((congrArg Costs.format costs_of).symm.trans hf)
    rw [length_cells_of] at h
    exact h
  | cell => simp [cells_report]

end Plan

end TileBuffer
