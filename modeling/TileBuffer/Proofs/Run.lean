import Mathlib.Data.List.SplitBy
import TileBuffer.Proofs.TileOrder

namespace TileBuffer

namespace Tile

def Before (t u : Tile) : Prop := t ≤ u ∧ t ≠ u

theorem Before.trans {t u w : Tile} (h : t.Before u) (h' : u.Before w) : t.Before w :=
  ⟨le_trans h.1 h'.1, fun he ↦ h.2 (le_antisymm h.1 (he ▸ h'.1))⟩

end Tile

namespace Run

variable {g : Grid} {cells : List Cell} {r : Run}

theorem map_cells_filterMap {pieces : List (List Cell)} (h : [] ∉ pieces) :
    (pieces.filterMap (ofCells? g)).map Run.cells = pieces := by
  induction pieces with
  | nil => rfl
  | cons piece pieces ih =>
    rw [List.mem_cons, not_or] at h
    cases piece with
    | nil => exact absurd rfl h.1
    | cons c piece => simp [ofCells?, ih h.2]

theorem map_cells_split (g : Grid) (cells : List Cell) :
    (split g cells).map Run.cells = cells.splitBy fun c d ↦ c.tile g == d.tile g :=
  map_cells_filterMap (List.nil_notMem_splitBy _ _)

theorem flatMap_cells_split (g : Grid) (cells : List Cell) :
    (split g cells).flatMap Run.cells = cells := by
  rw [List.flatMap_def, map_cells_split, List.flatten_splitBy]

theorem mem_split (h : r ∈ split g cells) :
    r.cells ≠ [] ∧ ∀ c ∈ r.cells, c.tile g = r.tile := by
  obtain ⟨piece, hp, hr⟩ := List.mem_filterMap.mp h
  cases piece with
  | nil => cases hr
  | cons c piece =>
    cases hr
    let same (c d : Cell) : Prop := (c.tile g == d.tile g) = true
    have ht : Trans same same same := by
      constructor
      intro c d e h h'
      exact beq_iff_eq.mpr ((beq_iff_eq.mp h).trans (beq_iff_eq.mp h'))
    have hc := (List.isChain_iff_pairwise (R := same)).mp (List.isChain_of_mem_splitBy hp)
    refine ⟨List.cons_ne_nil _ _, fun d hd ↦ ?_⟩
    obtain rfl | hd := List.mem_cons.mp hd
    · rfl
    · exact (beq_iff_eq.mp (List.rel_of_pairwise_cons hc hd)).symm

theorem cells_subset (h : r ∈ split g cells) : ∀ c ∈ r.cells, c ∈ cells := by
  intro c hc
  rw [← flatMap_cells_split g cells]
  exact List.mem_flatMap.mpr ⟨r, h, hc⟩

/-- Neighbouring runs differ in their tiles, since a run ends only where the tile changes. -/
theorem split_isChain (g : Grid) (cells : List Cell) :
    (split g cells).IsChain fun r r' ↦ r.tile ≠ r'.tile := by
  have h := List.isChain_getLast_head_splitBy (fun c d : Cell ↦ c.tile g == d.tile g) cells
  rw [← map_cells_split, List.isChain_map] at h
  refine h.imp_of_mem_imp fun r r' hr hr' ⟨hl, hh, hne⟩ he ↦ ?_
  rw [(mem_split hr).2 _ (List.getLast_mem hl), (mem_split hr').2 _ (List.head_mem hh), he] at hne
  simp at hne

variable (hs : cells.Pairwise fun c d ↦ c.tile g ≤ d.tile g)
include hs

theorem split_pairwise_le : (split g cells).Pairwise fun r r' ↦ r.tile ≤ r'.tile := by
  rw [← flatMap_cells_split g cells, List.pairwise_flatMap] at hs
  refine hs.2.imp_of_mem fun {r r'} hr hr' h ↦ ?_
  obtain ⟨c, hc⟩ := List.exists_mem_of_ne_nil _ (mem_split hr).1
  obtain ⟨c', hc'⟩ := List.exists_mem_of_ne_nil _ (mem_split hr').1
  rw [← (mem_split hr).2 c hc, ← (mem_split hr').2 c' hc']
  exact h c hc c' hc'

theorem split_pairwise : (split g cells).Pairwise fun r r' ↦ r.tile.Before r'.tile := by
  let before (r r' : Run) : Prop := r.tile.Before r'.tile
  have ht : Trans before before before := ⟨Tile.Before.trans⟩
  refine (List.isChain_iff_pairwise (R := before)).mp ?_
  rw [List.isChain_iff_forall_rel_of_append_cons_cons]
  intro r r' front back h
  have hle := List.isChain_iff_forall_rel_of_append_cons_cons.mp (split_pairwise_le hs).isChain
  have hne := List.isChain_iff_forall_rel_of_append_cons_cons.mp (split_isChain g cells)
  exact ⟨hle h, hne h⟩

theorem split_tiles_nodup : ((split g cells).map Run.tile).Nodup := by
  rw [List.nodup_iff_pairwise_ne, List.pairwise_map]
  exact (split_pairwise hs).imp fun h ↦ h.2

theorem filter_tile_eq (h : r ∈ split g cells) :
    cells.filter (fun c ↦ c.tile g = r.tile) = r.cells := by
  conv_lhs => rw [← flatMap_cells_split g cells]
  exact filter_flatMap_eq _ _ _ _ (fun r hr ↦ (mem_split hr).2) (split_tiles_nodup hs) h

end Run

end TileBuffer
