import TileBuffer.Proofs.Outside

namespace TileBuffer

namespace Axis

variable {a : Axis} {t : UInt64} {i : ℕ}

def OnAxis (a : Axis) (t : UInt64) : Prop := 1 ≤ t ∧ t ≤ a.tiles

instance (a : Axis) (t : UInt64) : Decidable (a.OnAxis t) :=
  inferInstanceAs (Decidable (1 ≤ t ∧ t ≤ a.tiles))

/-- The start of a tile, its length and the indices of its positions are those of the number `t`:
no word wraps round, and the matrix has not ended where the tile starts. -/
structure ExactTile (a : Axis) (t : UInt64) : Prop where
  pred : (t - 1).toNat + 1 = t.toNat
  before : (a.before t).toNat = (t.toNat - 1) * a.tileLength.toNat
  before_lt : (t.toNat - 1) * a.tileLength.toNat < a.length.toNat
  extent : a.extent t =
    min a.tileLength.toNat (a.length.toNat - (t.toNat - 1) * a.tileLength.toNat)
  position : ∀ i < a.extent t, (UInt64.ofNat i).toNat = i ∧
    (a.before t + UInt64.ofNat i).toNat = (a.before t).toNat + i ∧
    (a.globalOf t i).toNat = (a.before t).toNat + i + 1

theorem HasTile.exactTile (h : a.HasTile t) : a.ExactTile t where
  pred := by
    have h1 := h.1
    rw [toNat_pred h1]
    omega
  before := h.toNat_before
  before_lt := h.2
  extent := h.extent_eq
  position := by
    intro i hi
    have hlt := a.length.toNat_lt
    have hglobal := h.toNat_globalOf hi
    rw [h.extent_eq] at hi
    have hi' : (UInt64.ofNat i).toNat = i := UInt64.toNat_ofNat_of_lt' (by
      simp only [UInt64.size]
      omega)
    refine ⟨hi', ?_, by rw [hglobal, h.toNat_before]⟩
    simp only [UInt64.toNat_add, h.toNat_before, hi']
    omega

/-- The axis has as many tiles as its length asks for, and they cover it. -/
structure Tiled (a : Axis) : Prop where
  toNat_tiles : a.tiles.toNat = a.length.toNat / a.tileLength.toNat +
    if a.length.toNat % a.tileLength.toNat = 0 then 0 else 1
  sum_extent :
    ∑ k ∈ Finset.range a.tiles.toNat, a.extent (UInt64.ofNat (k + 1)) = a.length.toNat

section Length

variable (hl : 0 < a.tileLength.toNat)
include hl

theorem tileLength_ne_zero : a.tileLength ≠ 0 := by
  rintro hz
  simp [hz] at hl

theorem toNat_tiles : a.tiles.toNat = a.length.toNat / a.tileLength.toNat +
    if a.length.toNat % a.tileLength.toNat = 0 then 0 else 1 := by
  have hlt := a.length.toNat_lt
  have hd := Nat.div_add_mod a.length.toNat a.tileLength.toNat
  have hle := Nat.le_mul_of_pos_left (a.length.toNat / a.tileLength.toNat) hl
  have hz : a.length % a.tileLength = 0 ↔ a.length.toNat % a.tileLength.toNat = 0 := by
    rw [← UInt64.toNat_inj, UInt64.toNat_mod]
    rfl
  rw [tiles, UInt64.toNat_add, UInt64.toNat_div]
  simp only [hz, apply_ite UInt64.toNat, UInt64.reduceToNat]
  refine Nat.mod_eq_of_lt ?_
  split <;> omega

theorem mul_lt_length_iff (n : ℕ) :
    n * a.tileLength.toNat < a.length.toNat ↔ n < a.tiles.toNat := by
  have hd := Nat.div_add_mod' a.length.toNat a.tileLength.toNat
  have hm := Nat.mod_lt a.length.toNat hl
  rw [toNat_tiles hl]
  generalize a.length.toNat / a.tileLength.toNat = q at *
  generalize a.length.toNat % a.tileLength.toNat = r at *
  rw [← hd]
  constructor
  · intro h
    by_contra hn
    have hq := Nat.mul_le_mul_right a.tileLength.toNat (Nat.le_of_not_lt hn)
    rw [Nat.add_mul] at hq
    split at hq <;> omega
  · intro h
    have hq : (n + 1) * a.tileLength.toNat ≤ (q + if r = 0 then 0 else 1) * a.tileLength.toNat :=
      Nat.mul_le_mul_right _ h
    rw [Nat.add_mul, Nat.add_mul] at hq
    split at hq <;> omega

theorem hasTile_iff : a.HasTile t ↔ a.OnAxis t := by
  simp only [HasTile, OnAxis, mul_lt_length_iff hl, UInt64.le_iff_toNat_le, UInt64.reduceToNat]
  omega

theorem extent_eq_of_lt (h : 1 ≤ t) (hlt : t < a.tiles) : a.extent t = a.tileLength.toNat := by
  simp only [UInt64.le_iff_toNat_le, UInt64.reduceToNat] at h
  rw [UInt64.lt_iff_toNat_lt, ← mul_lt_length_iff hl] at hlt
  have hprev : (t.toNat - 1) * a.tileLength.toNat + a.tileLength.toNat =
      t.toNat * a.tileLength.toNat := by
    rw [← Nat.succ_mul, Nat.succ_eq_add_one, Nat.sub_add_cancel h]
  have ht : a.HasTile t := ⟨h, by omega⟩
  rw [ht.extent_eq]
  omega

theorem sum_extent :
    ∑ k ∈ Finset.range a.tiles.toNat, a.extent (UInt64.ofNat (k + 1)) = a.length.toNat := by
  have hsum (n : ℕ) : ∑ k ∈ Finset.range n,
      min a.tileLength.toNat (a.length.toNat - k * a.tileLength.toNat) =
        min a.length.toNat (n * a.tileLength.toNat) := by
    induction n with
    | zero => simp
    | succ n ih =>
      rw [Finset.sum_range_succ, ih, Nat.succ_mul]
      omega
  have hextent : ∀ k ∈ Finset.range a.tiles.toNat, a.extent (UInt64.ofNat (k + 1)) =
      min a.tileLength.toNat (a.length.toNat - k * a.tileLength.toNat) := by
    intro k hk
    rw [Finset.mem_range] at hk
    have htiles := a.tiles.toNat_lt
    have hword : (UInt64.ofNat (k + 1)).toNat = k + 1 := UInt64.toNat_ofNat_of_lt' (by
      simp only [UInt64.size]
      omega)
    have ht : a.HasTile (UInt64.ofNat (k + 1)) := by
      rw [HasTile, hword, Nat.add_sub_cancel, mul_lt_length_iff hl]
      exact ⟨Nat.le_add_left 1 k, hk⟩
    rw [ht.extent_eq, hword, Nat.add_sub_cancel]
  have hall : ¬a.tiles.toNat * a.tileLength.toNat < a.length.toNat :=
    fun h ↦ lt_irrefl _ ((mul_lt_length_iff hl _).mp h)
  rw [Finset.sum_congr rfl hextent, hsum]
  omega

end Length

end Axis

namespace Grid

variable {g : Grid}

def OnGrid (g : Grid) (t : Tile) : Prop := g.rows.OnAxis t.row ∧ g.cols.OnAxis t.col

instance (g : Grid) (t : Tile) : Decidable (g.OnGrid t) :=
  inferInstanceAs (Decidable (g.rows.OnAxis t.row ∧ g.cols.OnAxis t.col))

/-- The cell has a position in a tile of the grid, and is found again from there. -/
structure Placed (g : Grid) (row col : UInt64) : Prop where
  onGrid : g.OnGrid (g.tileOf row col)
  row_lt : (g.localOf row col).1 < (g.extent (g.tileOf row col)).1
  col_lt : (g.localOf row col).2 < (g.extent (g.tileOf row col)).2
  globalOf : g.globalOf (g.tileOf row col) (g.localOf row col).1 (g.localOf row col).2 = (row, col)
  tileOf? : g.tileOf? row col = .ok (g.tileOf row col)
  localOf? : g.localOf? row col = .ok (g.localOf row col)
  exact : g.rows.Exact row ∧ g.cols.Exact col

/-- The tile has positions, fewer than a whole tile only at the end of the matrix, and each is the
position of one cell. -/
structure Filled (g : Grid) (t : Tile) : Prop where
  extent_pos : 0 < (g.extent t).1 ∧ 0 < (g.extent t).2
  rows_eq : t.row ≠ g.tiles.1 → (g.extent t).1 = g.rows.tileLength.toNat
  cols_eq : t.col ≠ g.tiles.2 → (g.extent t).2 = g.cols.tileLength.toNat
  cell : ∀ i j, i < (g.extent t).1 → j < (g.extent t).2 →
    g.contains (g.globalOf t i j).1 (g.globalOf t i j).2 = true ∧
    g.tileOf (g.globalOf t i j).1 (g.globalOf t i j).2 = t ∧
    g.localOf (g.globalOf t i j).1 (g.globalOf t i j).2 = (i, j)
  exact : g.rows.ExactTile t.row ∧ g.cols.ExactTile t.col

theorem Sound.placed (hg : g.Sound) {row col : UInt64} (h : g.contains row col = true) :
    g.Placed row col := by
  obtain ⟨hr, hc⟩ := contains_iff.mp h
  have hrl := Axis.tileLength_ne_zero hg.tileRows
  have hcl := Axis.tileLength_ne_zero hg.tileCols
  constructor
  · exact ⟨(Axis.hasTile_iff hg.tileRows).mp (Axis.hasTile_tileOf hr),
      (Axis.hasTile_iff hg.tileCols).mp (Axis.hasTile_tileOf hc)⟩
  · exact Axis.localOf_lt_extent hg.tileRows hr
  · exact Axis.localOf_lt_extent hg.tileCols hc
  · exact Prod.ext (Axis.globalOf_tileOf hg.tileRows hr) (Axis.globalOf_tileOf hg.tileCols hc)
  · simp only [Grid.tileOf?, Axis.tileOf?, if_neg hrl, if_neg hcl]
    rfl
  · simp only [Grid.localOf?, Axis.localOf?, if_neg hrl, if_neg hcl]
    rfl
  · exact ⟨Axis.exact_of_pos hg.tileRows (Axis.contains_iff.mp hr).1,
      Axis.exact_of_pos hg.tileCols (Axis.contains_iff.mp hc).1⟩

theorem Sound.filled (hg : g.Sound) {t : Tile} (h : g.OnGrid t) : g.Filled t := by
  have hr := (Axis.hasTile_iff hg.tileRows).mpr h.1
  have hc := (Axis.hasTile_iff hg.tileCols).mpr h.2
  constructor
  · exact ⟨hr.extent_pos hg.tileRows, hc.extent_pos hg.tileCols⟩
  · intro hne
    exact Axis.extent_eq_of_lt hg.tileRows h.1.1 (UInt64.lt_of_le_of_ne h.1.2 hne)
  · intro hne
    exact Axis.extent_eq_of_lt hg.tileCols h.2.1 (UInt64.lt_of_le_of_ne h.2.2 hne)
  · intro i j hi hj
    refine ⟨contains_iff.mpr ⟨hr.contains_globalOf hi, hc.contains_globalOf hj⟩, ?_, ?_⟩
    · simp only [Grid.tileOf, Grid.globalOf, hr.tileOf_globalOf hi, hc.tileOf_globalOf hj]
    · simp only [Grid.localOf, Grid.globalOf, hr.localOf_globalOf hi, hc.localOf_globalOf hj]
  · exact ⟨hr.exactTile, hc.exactTile⟩

/-- On a grid that passes its check cells and positions in tiles are the same thing, the lengths of
the tiles along an axis add up to it, and nothing that is computed for this wraps round. -/
theorem tiles_partition (hg : g.check = .ok ()) :
    (∀ row col, g.contains row col = true → g.Placed row col) ∧
      (∀ t, g.OnGrid t → g.Filled t) ∧
      g.rows.Tiled ∧ g.cols.Tiled ∧ g.tiles? = .ok g.tiles := by
  rw [check_eq_ok_iff] at hg
  have hrl := Axis.tileLength_ne_zero hg.tileRows
  have hcl := Axis.tileLength_ne_zero hg.tileCols
  refine ⟨fun row col h ↦ hg.placed h, fun t h ↦ hg.filled h,
    ⟨Axis.toNat_tiles hg.tileRows, Axis.sum_extent hg.tileRows⟩,
    ⟨Axis.toNat_tiles hg.tileCols, Axis.sum_extent hg.tileCols⟩, ?_⟩
  simp only [tiles?, Axis.tiles?, if_neg hrl, if_neg hcl]
  rfl

/-- As many rows as a word can count, in two tiles of which the second lacks one row. -/
theorem tiles_partition_largest :
    let g : Grid := .ofSizes 18446744073709551615 7 9223372036854775808 3
    g.check = .ok () ∧ g.contains 18446744073709551615 7 = true ∧ g.OnGrid ⟨2, 3⟩ ∧
      g.Placed 18446744073709551615 7 ∧ g.Filled ⟨2, 3⟩ ∧
      g.extent ⟨2, 3⟩ = (9223372036854775807, 1) ∧ g.rows.Tiled ∧ g.cols.Tiled := by
  intro g
  have hg : g.check = .ok () := rfl
  have hcell : g.contains 18446744073709551615 7 = true := by decide
  have htile : g.OnGrid ⟨2, 3⟩ := by decide
  obtain ⟨hplaced, hfilled, hrows, hcols, -⟩ := tiles_partition hg
  exact ⟨hg, hcell, htile, hplaced _ _ hcell, hfilled _ htile, by decide, hrows, hcols⟩

end Grid

end TileBuffer
