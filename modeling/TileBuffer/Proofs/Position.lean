import TileBuffer.Proofs.Flush

namespace TileBuffer

namespace Cell

def isAt (row col : UInt64) (c : Cell) : Bool := c.row = row ∧ c.col = col

@[simp]
theorem isAt_iff {row col : UInt64} {c : Cell} :
    c.isAt row col = true ↔ c.row = row ∧ c.col = col := by simp [isAt]

def valuesAt (cells : List Cell) (row col : UInt64) : List Value :=
  (cells.filter (isAt row col)).map Cell.value

def lastAt (cells : List Cell) (row col : UInt64) : Option Value :=
  (valuesAt cells row col).getLast?

variable {cells cells' : List Cell} {row col : UInt64} {g : Grid}

theorem valuesAt_append (cells cells' : List Cell) (row col : UInt64) :
    valuesAt (cells ++ cells') row col = valuesAt cells row col ++ valuesAt cells' row col := by
  rw [valuesAt, List.filter_append, List.map_append, valuesAt, valuesAt]

theorem lastAt_append (cells cells' : List Cell) (row col : UInt64) :
    lastAt (cells ++ cells') row col = (lastAt cells' row col).or (lastAt cells row col) := by
  rw [lastAt, valuesAt_append, List.getLast?_append, lastAt, lastAt]

theorem lastAt_eq_none_iff :
    lastAt cells row col = none ↔ ∀ c ∈ cells, c.isAt row col = false := by
  rw [lastAt, List.getLast?_eq_none_iff, valuesAt, List.map_eq_nil_iff, List.filter_eq_nil_iff]
  simp only [Bool.not_eq_true]

theorem lastAt_flatMap_congr {α : Type} {f h : α → List Cell} {xs : List α}
    (he : ∀ x ∈ xs, lastAt (f x) row col = lastAt (h x) row col) :
    lastAt (xs.flatMap f) row col = lastAt (xs.flatMap h) row col := by
  induction xs with
  | nil => rfl
  | cons x xs ih =>
    obtain ⟨hx, hxs⟩ := List.forall_mem_cons.mp he
    rw [List.flatMap_cons, List.flatMap_cons, lastAt_append, lastAt_append, hx, ih hxs]

theorem perm_of_valuesAt (h : ∀ row col, valuesAt cells row col = valuesAt cells' row col) :
    cells.Perm cells' := by
  have hf (l : List Cell) (row col : UInt64) : (l.filter fun c ↦ (c.row, c.col) = (row, col)) =
      (valuesAt l row col).map fun v ↦ ⟨row, col, v⟩ := by
    have hat : (fun c : Cell ↦ decide ((c.row, c.col) = (row, col))) = isAt row col := by
      funext c
      simp [isAt]
    rw [hat, valuesAt, List.map_map]
    refine (map_eq_self fun c hc ↦ ?_).symm
    obtain ⟨rfl, rfl⟩ := isAt_iff.mp (List.mem_filter.mp hc).2
    rfl
  refine perm_of_filter_eq (fun c ↦ (c.row, c.col)) fun k ↦ ?_
  rw [hf, hf, h]

theorem valuesAt_sortByTile (g : Grid) (parallel : Bool) (cells : List Cell) (row col : UInt64) :
    valuesAt (sortByTile g parallel cells) row col = valuesAt cells row col := by
  rw [valuesAt, filter_sortByTile, valuesAt]
  intro c d hc hd
  obtain ⟨hr, hc⟩ := isAt_iff.mp hc
  obtain ⟨hr', hc'⟩ := isAt_iff.mp hd
  rw [tile, tile, hr, hc, hr', hc']

end Cell

namespace Item

/-- The cell of the matrix at the item's position of tile `t`. -/
def cell (g : Grid) (t : Tile) (item : Item) : Cell :=
  ⟨(g.globalOf t item.row item.col).1, (g.globalOf t item.row item.col).2, item.value⟩

def Fit (g : Grid) (t : Tile) (items : List Item) : Prop :=
  ∀ item ∈ items, item.row < (g.extent t).1 ∧ item.col < (g.extent t).2

variable {g : Grid} {t : Tile} {items : List Item} {row col : UInt64} {i j : ℕ}

theorem valuesAt_map_cell (ht : g.HasTile t) (hf : Fit g t items)
    (hi : i < (g.extent t).1) (hj : j < (g.extent t).2) :
    Cell.valuesAt (items.map (cell g t)) (g.globalOf t i j).1 (g.globalOf t i j).2 =
      valuesAt items i j := by
  have hat : items.filter (Cell.isAt (g.globalOf t i j).1 (g.globalOf t i j).2 ∘ cell g t) =
      items.filter (isAt i j) := by
    refine List.filter_congr fun item hitem ↦ ?_
    obtain ⟨hr, hc⟩ := hf item hitem
    rw [Function.comp_apply, Bool.eq_iff_iff, Cell.isAt_iff, isAt_iff,
      ← ht.globalOf_inj hr hc hi hj, Prod.ext_iff]
    rfl
  rw [Cell.valuesAt, List.filter_map, List.map_map, hat]
  rfl

theorem valuesAt_map_cell_eq_nil (hf : Fit g t items)
    (h : ∀ i j, i < (g.extent t).1 → j < (g.extent t).2 → g.globalOf t i j ≠ (row, col)) :
    Cell.valuesAt (items.map (cell g t)) row col = [] := by
  rw [Cell.valuesAt, List.map_eq_nil_iff, List.filter_eq_nil_iff]
  intro c hc hat
  obtain ⟨item, hitem, rfl⟩ := List.mem_map.mp hc
  obtain ⟨hi, hj⟩ := hf item hitem
  obtain ⟨hr, hc⟩ := Cell.isAt_iff.mp hat
  exact h _ _ hi hj (Prod.ext hr hc)

end Item

namespace Plan

variable {g : Grid} {run : Run} {row col : UInt64}

section Block

variable (hg : g.Sound) (hr : Settled g run)
include hg hr

theorem Settled.map_cell_item :
    (run.cells.map (Cell.item g)).map (Item.cell g run.tile) = run.cells := by
  rw [List.map_map]
  refine map_eq_self fun c hc ↦ ?_
  obtain ⟨hin, ht⟩ := hr c hc
  have h := hin.globalOf_place hg
  rw [ht, Prod.ext_iff] at h
  obtain ⟨row, col, v⟩ := c
  exact congrArg₂ (Cell.mk · · v) h.1 h.2

theorem Settled.fit_items : Item.Fit g run.tile (run.cells.map (Cell.item g)) := by
  intro item h
  have hi := Fragment.inside_iff.mp (hr.inside hg true item h)
  rwa [Fragment.rows_zeros, Fragment.cols_zeros] at hi

theorem Settled.fit_stored (sparse : Bool) : Item.Fit g run.tile (block g sparse run).stored := by
  intro item h
  have hi := Fragment.inside_iff.mp ((hr.wellFormed hg sparse).inside_of_mem_stored h)
  rwa [rows_block, cols_block] at hi

variable (ht : g.HasTile run.tile)
include ht

theorem Settled.map_cell_congr {β : Type} (look : List Value → β) {items : List Item}
    (hf : Item.Fit g run.tile items) (h : ∀ i j, i < (g.extent run.tile).1 →
      j < (g.extent run.tile).2 → look (Item.valuesAt items i j) =
        look (Item.valuesAt (run.cells.map (Cell.item g)) i j)) (row col : UInt64) :
    look (Cell.valuesAt (items.map (Item.cell g run.tile)) row col) =
      look (Cell.valuesAt run.cells row col) := by
  rw [← hr.map_cell_item hg]
  -- a cell of the matrix outside the tile is in neither list
  by_cases hp : ∃ i j, i < (g.extent run.tile).1 ∧ j < (g.extent run.tile).2 ∧
      g.globalOf run.tile i j = (row, col)
  · obtain ⟨i, j, hi, hj, he⟩ := hp
    have hv := h i j hi hj
    rw [← Item.valuesAt_map_cell ht hf hi hj,
      ← Item.valuesAt_map_cell ht (hr.fit_items hg) hi hj, he] at hv
    exact hv
  · have hn : ∀ i j, i < (g.extent run.tile).1 → j < (g.extent run.tile).2 →
        g.globalOf run.tile i j ≠ (row, col) := fun i j hi hj he ↦ hp ⟨i, j, hi, hj, he⟩
    rw [Item.valuesAt_map_cell_eq_nil hf hn, Item.valuesAt_map_cell_eq_nil (hr.fit_items hg) hn]

theorem Settled.valuesAt_stored (row col : UInt64) :
    Cell.valuesAt ((block g true run).stored.map (Item.cell g run.tile)) row col =
      Cell.valuesAt run.cells row col := by
  refine hr.map_cell_congr hg ht id (hr.fit_stored hg true) (fun i j _ _ ↦ ?_) row col
  rw [id, id, ← hr.valuesAt_block hg, Item.valuesAt, (hr.wellFormed hg true).filter_stored,
    List.map_map]
  exact List.map_id _

theorem Settled.get_eq_lastAt (sparse : Bool) {i j : ℕ} (hi : i < (g.extent run.tile).1)
    (hj : j < (g.extent run.tile).2) : (block g sparse run).get i j = (Cell.lastAt run.cells
      (g.globalOf run.tile i j).1 (g.globalOf run.tile i j).2).getD .zero := by
  rw [hr.get_block hg, Cell.lastAt]
  conv_rhs => rw [← hr.map_cell_item hg]
  rw [Item.valuesAt_map_cell ht (hr.fit_items hg) hi hj]

end Block

end Plan

end TileBuffer
