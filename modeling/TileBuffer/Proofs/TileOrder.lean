import Mathlib.Tactic
import TileBuffer.Proofs.Grouping
import TileBuffer.TileOrder

namespace TileBuffer

variable {g : Grid} {parallel : Bool} {cells : List Cell}

namespace Cell

theorem tileLE_trans (c d e : Cell) (h : c.tileLE g d = true) (h' : d.tileLE g e = true) :
    c.tileLE g e = true := by
  simp only [tileLE, decide_eq_true_eq] at *
  exact Tile.le_trans h h'

theorem tileLE_total (c d : Cell) : (c.tileLE g d || d.tileLE g c) = true := by
  simpa only [tileLE, Bool.or_eq_true, decide_eq_true_eq] using Tile.le_total (c.tile g) (d.tile g)

theorem tileLE_of_tile_eq {c d : Cell} (h : c.tile g = d.tile g) : c.tileLE g d = true := by
  rw [tileLE, h, decide_eq_true_eq]
  exact (Tile.le_total _ _).elim id id

end Cell

theorem isTileSorted_iff :
    isTileSorted g cells = true ↔ cells.Pairwise fun c d ↦ c.tileLE g d = true :=
  test_iff_pairwise Cell.tileLE_trans rfl (fun _ ↦ rfl) (fun _ _ _ ↦ rfl) cells

theorem mergeSortParallel_eq (le : Cell → Cell → Bool) (cells : List Cell) :
    mergeSortParallel le cells = cells.mergeSort le := by
  have h : mergeSortParallel le cells =
      ((cells.take ((cells.length + 1) / 2)).mergeSort le).merge
        ((cells.drop ((cells.length + 1) / 2)).mergeSort le) le := rfl
  rw [h]
  match cells with
  | [] => simp
  | [c] => simp
  | c :: d :: cells =>
    rw [List.mergeSort, List.MergeSort.Internal.splitInTwo_fst,
      List.MergeSort.Internal.splitInTwo_snd]

theorem sortByTile_eq (g : Grid) (parallel : Bool) (cells : List Cell) :
    sortByTile g parallel cells = cells.mergeSort (Cell.tileLE g) := by
  rw [sortByTile]
  split
  next h => exact (List.mergeSort_of_pairwise (isTileSorted_iff.mp h)).symm
  next =>
    split
    · rw [mergeSortParallel_eq]
    · rfl

theorem sortByTile_perm : (sortByTile g parallel cells).Perm cells := by
  rw [sortByTile_eq]
  exact List.mergeSort_perm _ _

theorem sortByTile_pairwise :
    (sortByTile g parallel cells).Pairwise fun c d ↦ c.tile g ≤ d.tile g := by
  rw [sortByTile_eq]
  refine (List.pairwise_mergeSort Cell.tileLE_trans Cell.tileLE_total cells).imp fun h ↦ ?_
  simpa only [Cell.tileLE, decide_eq_true_eq] using h

theorem filter_sortByTile {p : Cell → Bool} (hp : ∀ c d, p c → p d → c.tile g = d.tile g) :
    (sortByTile g parallel cells).filter p = cells.filter p := by
  rw [sortByTile_eq]
  exact filter_mergeSort Cell.tileLE_trans Cell.tileLE_total
    (fun c d hc hd ↦ Cell.tileLE_of_tile_eq (hp c d hc hd)) cells

/-- The same cells in every tile, in the same order. -/
def SameByTile (g : Grid) (cells cells' : List Cell) : Prop :=
  ∀ t, cells.filter (fun c ↦ c.tile g = t) = cells'.filter fun c ↦ c.tile g = t

/-- `sorted` holds the cells in tile order, and those of one tile in the order they had. -/
structure StablySorted (g : Grid) (cells sorted : List Cell) : Prop where
  perm : sorted.Perm cells
  ordered : sorted.Pairwise fun c d ↦ c.tile g ≤ d.tile g
  stable : SameByTile g sorted cells

theorem stablySorted_sortByTile (g : Grid) (parallel : Bool) (cells : List Cell) :
    StablySorted g cells (sortByTile g parallel cells) := by
  refine ⟨sortByTile_perm, sortByTile_pairwise, fun t ↦ filter_sortByTile fun c d hc hd ↦ ?_⟩
  rw [decide_eq_true_eq] at hc hd
  exact hc.trans hd.symm

namespace SameByTile

variable {cells' cells'' : List Cell}

theorem symm (h : SameByTile g cells cells') : SameByTile g cells' cells := fun t ↦ (h t).symm

theorem trans (h : SameByTile g cells cells') (h' : SameByTile g cells' cells'') :
    SameByTile g cells cells'' := fun t ↦ (h t).trans (h' t)

theorem append (h : SameByTile g cells cells') (more : List Cell) :
    SameByTile g (cells ++ more) (cells' ++ more) := by
  intro t
  rw [List.filter_append, List.filter_append, h t]

theorem perm (h : SameByTile g cells cells') : cells.Perm cells' :=
  perm_of_filter_eq (Cell.tile g) h

end SameByTile

/-- Stably sorted cells are known from the cells of each tile. -/
theorem StablySorted.eq_of_sameByTile {cells' sorted sorted' : List Cell}
    (hs : StablySorted g cells sorted) (hs' : StablySorted g cells' sorted')
    (h : SameByTile g cells cells') : sorted = sorted' := by
  refine eq_of_filter_eq (fun _ _ ↦ Tile.le_antisymm) (Cell.tile g) hs.ordered hs'.ordered ?_
  exact (hs.stable.trans h).trans hs'.stable.symm

theorem SameByTile.sortByTile_eq {cells' : List Cell} (h : SameByTile g cells cells') :
    sortByTile g parallel cells = sortByTile g parallel cells' :=
  (stablySorted_sortByTile g parallel cells).eq_of_sameByTile
    (stablySorted_sortByTile g parallel cells') h

end TileBuffer
