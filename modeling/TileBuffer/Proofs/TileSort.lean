import TileBuffer.Proofs.Outside

namespace TileBuffer

variable {g : Grid} {parallel : Bool} {cells : List Cell}

/-- There is one stably sorted order. -/
theorem StablySorted.eq_sortByTile {sorted : List Cell} (h : StablySorted g cells sorted) :
    sorted = sortByTile g parallel cells :=
  h.eq_of_sameByTile (stablySorted_sortByTile g parallel cells) fun _ ↦ rfl

theorem sortByTile_of_isTileSorted (h : isTileSorted g cells = true) :
    sortByTile g parallel cells = cells := if_pos h

theorem isTileSorted_sortByTile : isTileSorted g (sortByTile g parallel cells) = true := by
  rw [isTileSorted_iff]
  exact sortByTile_pairwise.imp fun h ↦ decide_eq_true h

theorem sortByTile_eq_self_iff :
    sortByTile g parallel cells = cells ↔ isTileSorted g cells = true := by
  constructor
  · intro h
    have hs : isTileSorted g (sortByTile g parallel cells) = true := isTileSorted_sortByTile
    rwa [h] at hs
  · exact sortByTile_of_isTileSorted

theorem sortByTile_append_eq (parallel' : Bool) (more : List Cell) :
    sortByTile g parallel (sortByTile g parallel' cells ++ more) =
      sortByTile g parallel (cells ++ more) :=
  ((stablySorted_sortByTile g parallel' cells).stable.append more).sortByTile_eq

section Checked

variable (hrows : 0 < g.rows.tileLength.toNat) (hcols : 0 < g.cols.tileLength.toNat)
include hrows hcols

theorem isTileSorted?_eq (cells : List Cell) :
    isTileSorted? g cells = .ok (isTileSorted g cells) := by
  rw [isTileSorted?, Grid.checkTiles_eq hrows hcols]
  match cells with
  | [] => rfl
  | [_] => rfl
  | _ :: _ :: cells => exact if_neg (by simp)

theorem sortByTile?_eq (parallel : Bool) (cells : List Cell) :
    sortByTile? g parallel cells = .ok (sortByTile g parallel cells) := by
  rw [sortByTile?, Grid.checkTiles_eq hrows hcols]
  match cells with
  | [] => rfl
  | [_] => rfl
  | _ :: _ :: cells => exact if_neg (by simp)

end Checked

/-- `sorted` is the one stably sorted order of the cells, and every way of sorting ends there. -/
structure SortsTo (g : Grid) (cells sorted : List Cell) : Prop where
  stablySorted : StablySorted g cells sorted
  only : ∀ other, StablySorted g cells other → other = sorted
  isTileSorted? : isTileSorted? g cells = .ok (decide (sorted = cells))
  /-- whichever stable sort stands behind the early return -/
  shortcut : ∀ slow, StablySorted g cells slow →
    (if isTileSorted g cells then cells else slow) = sorted
  mergeSort : cells.mergeSort (Cell.tileLE g) = sorted
  mergeSortParallel : mergeSortParallel (Cell.tileLE g) cells = sorted
  again : ∀ parallel, sortByTile? g parallel sorted = .ok sorted
  absorbed : ∀ more, ∃ all, ∀ parallel, sortByTile? g parallel (sorted ++ more) = .ok all ∧
    sortByTile? g parallel (cells ++ more) = .ok all

theorem sortsTo_sortByTile (hrows : 0 < g.rows.tileLength.toNat)
    (hcols : 0 < g.cols.tileLength.toNat) (parallel : Bool) (cells : List Cell) :
    SortsTo g cells (sortByTile g parallel cells) where
  stablySorted := stablySorted_sortByTile g parallel cells
  only other h := h.eq_sortByTile
  isTileSorted? := by
    rw [isTileSorted?_eq hrows hcols]
    simp only [sortByTile_eq_self_iff, Bool.decide_eq_true]
  shortcut slow h := by
    split
    next hs => exact (sortByTile_of_isTileSorted hs).symm
    next => exact h.eq_sortByTile
  mergeSort := (sortByTile_eq g parallel cells).symm
  mergeSortParallel := by rw [mergeSortParallel_eq, sortByTile_eq]
  again parallel' := by
    rw [sortByTile?_eq hrows hcols, sortByTile_of_isTileSorted isTileSorted_sortByTile]
  absorbed more := by
    refine ⟨(cells ++ more).mergeSort (Cell.tileLE g), fun parallel' ↦ ?_⟩
    rw [sortByTile?_eq hrows hcols, sortByTile?_eq hrows hcols, sortByTile_append_eq,
      sortByTile_eq]
    exact ⟨rfl, rfl⟩

/-- Cells that count from 1 are sorted by their tiles, which no wrapped word decides, in one or in
two threads alike. The result is the only list that holds the cells in tile order with those of one
tile as they came, it is the list itself exactly when that is found sorted, and sorting it again,
also with more cells behind it, changes nothing. -/
theorem sortByTile_only_stable (hrows : 0 < g.rows.tileLength.toNat)
    (hcols : 0 < g.cols.tileLength.toNat) (hpos : ∀ c ∈ cells, c.OneBased) :
    (∀ c ∈ cells, g.rows.Exact c.row ∧ g.cols.Exact c.col) ∧
      ∃ sorted, (∀ parallel, sortByTile? g parallel cells = .ok sorted) ∧
        SortsTo g cells sorted := by
  refine ⟨fun c hc ↦ (hpos c hc).exact hrows hcols, sortByTile g false cells, fun parallel ↦ ?_,
    sortsTo_sortByTile hrows hcols false cells⟩
  rw [sortByTile?_eq hrows hcols, sortByTile_eq, sortByTile_eq]

/-- Two tiles in turns, one of them beyond the matrix, and a place that is written twice. -/
theorem sortByTile_only_stable_in_turns :
    let g : Grid := .ofSizes 3 3 2 2
    let v : Value := ⟨0x4000000000000000⟩
    let cells : List Cell := [⟨5, 1, v⟩, ⟨2, 2, .zero⟩, ⟨6, 2, .zero⟩, ⟨2, 2, v⟩, ⟨5, 1, .zero⟩]
    0 < g.rows.tileLength.toNat ∧ 0 < g.cols.tileLength.toNat ∧ (∀ c ∈ cells, c.OneBased) ∧
      (∀ c ∈ cells, g.rows.Exact c.row ∧ g.cols.Exact c.col) ∧
      ∃ sorted, (∀ parallel, sortByTile? g parallel cells = .ok sorted) ∧
        SortsTo g cells sorted ∧ sorted ≠ cells := by
  intro g v cells
  have hrows : 0 < g.rows.tileLength.toNat := by decide
  have hcols : 0 < g.cols.tileLength.toNat := by decide
  have hpos : ∀ c ∈ cells, c.OneBased := by decide
  obtain ⟨hexact, sorted, hsort, hsorted⟩ := sortByTile_only_stable hrows hcols hpos
  refine ⟨hrows, hcols, hpos, hexact, sorted, hsort, hsorted, fun h ↦ ?_⟩
  have hmoved : isTileSorted? g cells = .ok true := by
    rw [hsorted.isTileSorted?, decide_eq_true h]
  rw [isTileSorted?_eq hrows hcols] at hmoved
  exact absurd (Except.ok.inj hmoved) (by decide)

end TileBuffer
