import TileBuffer.Proofs.Run

namespace TileBuffer

variable {g : Grid} {parallel : Bool} {cells cells' : List Cell} {tiles tiles' : List Tile}

def tileCount (g : Grid) (cells : List Cell) : ℕ := (cells.map (Cell.tile g)).dedup.length

structure ListsTiles (g : Grid) (cells : List Cell) (tiles : List Tile) : Prop where
  increasing : tiles.Pairwise Tile.Before
  mem_iff : ∀ t, t ∈ tiles ↔ ∃ c ∈ cells, c.tile g = t

namespace ListsTiles

theorem nodup (h : ListsTiles g cells tiles) : tiles.Nodup := h.increasing.imp fun h ↦ h.2

theorem length_eq (h : ListsTiles g cells tiles) : tiles.length = tileCount g cells := by
  have hp : tiles.Perm (cells.map (Cell.tile g)).dedup := by
    rw [List.perm_ext_iff_of_nodup h.nodup (List.nodup_dedup _)]
    intro t
    rw [h.mem_iff, List.mem_dedup, List.mem_map]
  exact hp.length_eq

theorem eq_of_perm (h : ListsTiles g cells tiles) (h' : ListsTiles g cells' tiles')
    (hp : cells.Perm cells') : tiles = tiles' := by
  have hperm : tiles.Perm tiles' := by
    rw [List.perm_ext_iff_of_nodup h.nodup h'.nodup]
    intro t
    simp only [h.mem_iff, h'.mem_iff, hp.mem_iff]
  exact hperm.eq_of_pairwise (fun _ _ _ _ h h' ↦ Tile.le_antisymm h.1 h'.1) h.increasing
    h'.increasing

end ListsTiles

namespace Run

variable {r : Run} {t : Tile}

theorem mem_tiles_iff : t ∈ (split g cells).map Run.tile ↔ ∃ c ∈ cells, c.tile g = t := by
  constructor
  · intro h
    obtain ⟨r, hr, rfl⟩ := List.mem_map.mp h
    obtain ⟨c, hc⟩ := List.exists_mem_of_ne_nil _ (mem_split hr).1
    exact ⟨c, cells_subset hr c hc, (mem_split hr).2 c hc⟩
  · rintro ⟨c, hc, rfl⟩
    rw [← flatMap_cells_split g cells] at hc
    obtain ⟨r, hr, hcr⟩ := List.mem_flatMap.mp hc
    exact List.mem_map.mpr ⟨r, hr, ((mem_split hr).2 c hcr).symm⟩

theorem listsTiles_split (g : Grid) (parallel : Bool) (cells : List Cell) :
    ListsTiles g cells ((split g (sortByTile g parallel cells)).map Run.tile) := by
  constructor
  · rw [List.pairwise_map]
    exact split_pairwise sortByTile_pairwise
  · intro t
    rw [mem_tiles_iff]
    simp only [sortByTile_perm.mem_iff]

theorem length_split (g : Grid) (parallel : Bool) (cells : List Cell) :
    (split g (sortByTile g parallel cells)).length = tileCount g cells := by
  rw [← (listsTiles_split g parallel cells).length_eq, List.length_map]

def ofTile (g : Grid) (cells : List Cell) (t : Tile) : Run :=
  ⟨t, cells.filter fun c ↦ c.tile g = t⟩

theorem eq_ofTile (h : r ∈ split g (sortByTile g parallel cells)) : r = ofTile g cells r.tile := by
  have hsorted := stablySorted_sortByTile g parallel cells
  have hcells : r.cells = (ofTile g cells r.tile).cells :=
    (filter_tile_eq hsorted.ordered h).symm.trans (hsorted.stable r.tile)
  exact congrArg (Run.mk r.tile) hcells

theorem split_eq_map_ofTile (g : Grid) (parallel : Bool) (cells : List Cell) :
    split g (sortByTile g parallel cells) =
      ((split g (sortByTile g parallel cells)).map Run.tile).map (ofTile g cells) := by
  rw [List.map_map]
  exact (map_eq_self fun r hr ↦ (eq_ofTile hr).symm).symm

end Run

end TileBuffer
