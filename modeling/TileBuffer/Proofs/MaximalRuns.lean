import TileBuffer.Proofs.TileSort

namespace TileBuffer

variable {g : Grid} {cells : List Cell} {runs : List Run}

def tileChanges (g : Grid) : List Cell → ℕ
  | c :: d :: cells => (if c.tile g = d.tile g then 0 else 1) + tileChanges g (d :: cells)
  | _ => 0

namespace Run

/-- The runs make up the cells, each holds cells of its tile alone, and none can be extended. -/
structure Maximal (g : Grid) (cells : List Cell) (runs : List Run) : Prop where
  joined : runs.flatMap Run.cells = cells
  nonempty : ∀ r ∈ runs, r.cells ≠ []
  uniform : ∀ r ∈ runs, ∀ c ∈ r.cells, c.tile g = r.tile
  changes : runs.IsChain fun r r' ↦ r.tile ≠ r'.tile

theorem maximal_split (g : Grid) (cells : List Cell) : Maximal g cells (split g cells) where
  joined := flatMap_cells_split g cells
  nonempty _ h := (mem_split h).1
  uniform _ h := (mem_split h).2
  changes := split_isChain g cells

namespace Maximal

variable (h : Maximal g cells runs)
include h

theorem splitBy_eq :
    (cells.splitBy fun c d ↦ c.tile g == d.tile g) = runs.map Run.cells := by
  rw [List.splitBy_eq_iff]
  refine ⟨?_, ?_, ?_, ?_⟩
  · rw [← List.flatMap_def, h.joined]
  · intro hnil
    obtain ⟨r, hr, hcells⟩ := List.mem_map.mp hnil
    exact h.nonempty r hr hcells
  · intro piece hpiece
    obtain ⟨r, hr, rfl⟩ := List.mem_map.mp hpiece
    refine (List.pairwise_of_forall_mem_list fun c hc d hd ↦ ?_).isChain
    rw [h.uniform r hr c hc, h.uniform r hr d hd]
    exact beq_self_eq_true _
  · rw [List.isChain_map]
    refine h.changes.imp_of_mem_imp fun r r' hr hr' hne ↦ ⟨h.nonempty r hr, h.nonempty r' hr', ?_⟩
    rw [h.uniform r hr _ (List.getLast_mem _), h.uniform r' hr' _ (List.head_mem _)]
    exact beq_eq_false_iff_ne.mpr hne

theorem eq_split : runs = split g cells := by
  rw [split, h.splitBy_eq, List.filterMap_map]
  have hname : ∀ r ∈ runs, (ofCells? g ∘ Run.cells) r = some r := by
    intro r hr
    obtain ⟨t, _ | ⟨c, rest⟩⟩ := r
    · exact absurd rfl (h.nonempty _ hr)
    · obtain rfl := h.uniform _ hr c List.mem_cons_self
      rfl
  rw [List.filterMap_congr hname, List.filterMap_some]

end Maximal

section Count

theorem length_loop (cells : List Cell) (c : Cell) (piece : List Cell) (pieces : List (List Cell)) :
    (List.splitBy.loop (fun c d ↦ c.tile g == d.tile g) cells c piece pieces).length =
      pieces.length + tileChanges g (c :: cells) + 1 := by
  -- the piece that is still open does not decide where it ends, only its last cell does
  induction cells generalizing c piece pieces with
  | nil => simp [List.splitBy.loop, tileChanges]
  | cons d cells ih =>
    rw [List.splitBy.loop, tileChanges]
    cases h : c.tile g == d.tile g with
    | true => simp [beq_iff_eq.mp h, ih]
    | false =>
      simp only [ih, List.length_cons, if_neg (beq_eq_false_iff_ne.mp h)]
      omega

theorem length_split_eq (hne : cells ≠ []) : (split g cells).length = tileChanges g cells + 1 := by
  have hlength := congrArg List.length (map_cells_split g cells)
  rw [List.length_map] at hlength
  cases cells with
  | nil => exact absurd rfl hne
  | cons c cells => rw [hlength, List.splitBy, length_loop, List.length_nil, Nat.zero_add]

theorem length_split_le (g : Grid) (cells : List Cell) : (split g cells).length ≤ cells.length := by
  have hone : ∀ n ∈ (split g cells).map (List.length ∘ Run.cells), 1 ≤ n := by
    intro n hn
    obtain ⟨r, hr, rfl⟩ := List.mem_map.mp hn
    exact List.length_pos_iff.mpr (mem_split hr).1
  calc (split g cells).length
      = ((split g cells).map (List.length ∘ Run.cells)).length := (List.length_map _).symm
    _ ≤ ((split g cells).map (List.length ∘ Run.cells)).sum := List.length_le_sum_of_one_le _ hone
    _ = ((split g cells).flatMap Run.cells).length := List.length_flatMap.symm
    _ = cells.length := by rw [flatMap_cells_split]

theorem tileCount_le (g : Grid) (cells : List Cell) : tileCount g cells ≤ (split g cells).length := by
  have hsub : (cells.map (Cell.tile g)).dedup ⊆ (split g cells).map Run.tile := by
    intro t ht
    rw [List.mem_dedup, List.mem_map] at ht
    exact mem_tiles_iff.mpr ht
  have hle := (List.subperm_of_subset (List.nodup_dedup _) hsub).length_le
  rwa [List.length_map] at hle

end Count

section Sorted

/-- No tile comes back, and none comes before an earlier one, exactly when the cells are sorted. -/
theorem pairwise_split_iff :
    ((split g cells).Pairwise fun r r' ↦ r.tile.Before r'.tile) ↔ isTileSorted g cells = true := by
  constructor
  · intro h
    rw [isTileSorted_iff, ← flatMap_cells_split g cells, List.pairwise_flatMap]
    constructor
    · intro r hr
      refine List.pairwise_of_forall_mem_list fun c hc d hd ↦ Cell.tileLE_of_tile_eq ?_
      rw [(mem_split hr).2 c hc, (mem_split hr).2 d hd]
    · refine h.imp_of_mem fun {r r'} hr hr' hbefore c hc d hd ↦ ?_
      rw [Cell.tileLE, (mem_split hr).2 c hc, (mem_split hr').2 d hd]
      exact decide_eq_true hbefore.1
  · intro h
    exact split_pairwise ((isTileSorted_iff.mp h).imp of_decide_eq_true)

variable (h : isTileSorted g cells = true)
include h

theorem length_split_of_sorted : (split g cells).length = tileCount g cells := by
  have hlength := length_split g false cells
  rwa [sortByTile_of_isTileSorted h] at hlength

theorem eq_ofTile_of_sorted {r : Run} (hr : r ∈ split g cells) : r = ofTile g cells r.tile := by
  have hself : sortByTile g false cells = cells := sortByTile_of_isTileSorted h
  rw [← hself] at hr
  exact eq_ofTile hr

end Sorted

/-- `runs` is the one division of the cells into maximal runs. -/
structure Divides (g : Grid) (cells : List Cell) (runs : List Run) : Prop where
  maximal : Maximal g cells runs
  only : ∀ other, Maximal g cells other → other = runs
  length_eq : cells ≠ [] → runs.length = tileChanges g cells + 1
  tileCount_le : tileCount g cells ≤ runs.length
  length_le : runs.length ≤ cells.length
  increasing_iff :
    (runs.map Run.tile).Pairwise Tile.Before ↔ isTileSorted? g cells = .ok true
  of_sorted : isTileSorted? g cells = .ok true →
    runs.length = tileCount g cells ∧
      ∀ r ∈ runs, r.cells = cells.filter fun c ↦ c.tile g = r.tile

variable (hrows : 0 < g.rows.tileLength.toNat) (hcols : 0 < g.cols.tileLength.toNat)
include hrows hcols

theorem split?_eq (cells : List Cell) : split? g cells = .ok (split g cells) := by
  rw [split?, Grid.checkTiles_eq hrows hcols]
  cases cells <;> rfl

theorem divides_split (cells : List Cell) : Divides g cells (split g cells) := by
  have hsorted : isTileSorted? g cells = .ok true ↔ isTileSorted g cells = true := by
    rw [isTileSorted?_eq hrows hcols, Except.ok.injEq]
  constructor
  · exact maximal_split g cells
  · exact fun other h ↦ h.eq_split
  · exact length_split_eq
  · exact Run.tileCount_le g cells
  · exact length_split_le g cells
  · rw [hsorted, ← pairwise_split_iff, List.pairwise_map]
  · rw [hsorted]
    exact fun h ↦ ⟨length_split_of_sorted h, fun r hr ↦
      congrArg Run.cells (eq_ofTile_of_sorted h hr)⟩

/-- Cells that count from 1, in any order, are divided into runs by their tiles, which no wrapped
word decides. It is the only division into runs that cannot be extended. -/
theorem split_only_maximal (hpos : ∀ c ∈ cells, c.OneBased) :
    (∀ c ∈ cells, g.rows.Exact c.row ∧ g.cols.Exact c.col) ∧
      ∃ runs, split? g cells = .ok runs ∧ Divides g cells runs :=
  ⟨fun c hc ↦ (hpos c hc).exact hrows hcols, split g cells, split?_eq hrows hcols cells,
    divides_split hrows hcols cells⟩

omit hrows hcols in
/-- A tile that comes back, after one beyond the matrix: three runs of two tiles. -/
theorem split_only_maximal_returning :
    let g : Grid := .ofSizes 3 3 2 2
    let v : Value := ⟨0x4000000000000000⟩
    let cells : List Cell := [⟨2, 2, .zero⟩, ⟨1, 1, v⟩, ⟨6, 2, .zero⟩, ⟨2, 2, v⟩]
    0 < g.rows.tileLength.toNat ∧ 0 < g.cols.tileLength.toNat ∧ (∀ c ∈ cells, c.OneBased) ∧
      (∀ c ∈ cells, g.rows.Exact c.row ∧ g.cols.Exact c.col) ∧
      ∃ runs, split? g cells = .ok runs ∧ Divides g cells runs ∧ runs.length = 3 ∧
        tileCount g cells = 2 := by
  intro g v cells
  have hrows : 0 < g.rows.tileLength.toNat := by decide
  have hcols : 0 < g.cols.tileLength.toNat := by decide
  have hpos : ∀ c ∈ cells, c.OneBased := by decide
  obtain ⟨hexact, runs, hsplit, hruns⟩ := split_only_maximal hrows hcols hpos
  have hchanges : tileChanges g cells = 2 := by decide
  refine ⟨hrows, hcols, hpos, hexact, runs, hsplit, hruns, ?_, by decide⟩
  rw [hruns.length_eq (List.cons_ne_nil _ _), hchanges]

end Run

end TileBuffer
