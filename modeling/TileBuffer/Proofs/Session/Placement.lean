import TileBuffer.Proofs.Fragment.Cursor
import TileBuffer.Proofs.Region
import TileBuffer.Proofs.Session.Runs

namespace TileBuffer

variable {σ ε : Type}

/-- The word for a position, and the word for the index that it has from `first` on, stand for the
numbers that they should. -/
structure Axis.Reaches (first : UInt64) (i : ℕ) : Prop where
  position : (UInt64.ofNat i).toNat = i
  index : (first + UInt64.ofNat i).toNat = first.toNat + i

namespace Grid

variable {g : Grid} {row col : UInt64} {height width : ℕ}

theorem Fits.reaches (h : g.Fits row col height width) {i j : ℕ} (hi : i < height)
    (hj : j < width) : Axis.Reaches row i ∧ Axis.Reaches col j := by
  obtain ⟨⟨-, hrow⟩, -, hcol⟩ := h i hi j hj
  have hrows := g.rows.length.toNat_lt
  have hcols := g.cols.length.toNat_lt
  have hsize : UInt64.size = 2 ^ 64 := rfl
  exact ⟨⟨UInt64.toNat_ofNat_of_lt' (by omega), Axis.toNat_add_ofNat hrow⟩,
    ⟨UInt64.toNat_ofNat_of_lt' (by omega), Axis.toNat_add_ofNat hcol⟩⟩

theorem checkCell_eq_ok_iff : g.checkCell row col = .ok () ↔
    (1 ≤ row.toNat ∧ row.toNat ≤ g.rows.length.toNat) ∧
      (1 ≤ col.toNat ∧ col.toNat ≤ g.cols.length.toNat) := by
  rw [checkCell, ite_eq_left_iff, contains_iff, Axis.contains_iff, Axis.contains_iff]
  simp only [reduceCtorEq, imp_false, not_not]

end Grid

namespace Fragment

variable {f : Fragment} {g : Grid} {row col : UInt64}

/-- The cell is the item, moved to its place in the matrix, and passes the check of a cell. -/
structure PlacedAt (g : Grid) (row col : UInt64) (item : Item) (c : Cell) : Prop where
  row_eq : c.row.toNat = row.toNat + item.row
  col_eq : c.col.toNat = col.toNat + item.col
  value_eq : c.value = item.value
  checked : g.checkCell c.row c.col = .ok ()

theorem PlacedAt.rightUnique : Relator.RightUnique (PlacedAt g row col) := by
  intro item c d hc hd
  have hrow := UInt64.toNat_inj.mp (hc.row_eq.trans hd.row_eq.symm)
  have hcol := UInt64.toNat_inj.mp (hc.col_eq.trans hd.col_eq.symm)
  cases c
  cases d
  exact congr (congr (congrArg Cell.mk hrow) hcol) (hc.value_eq.trans hd.value_eq.symm)

/-- The cells that an import of `f` at `(row, col)` should take in: what a cursor goes through, at
its places in the matrix, in unbounded numbers. -/
def CellsAt (f : Fragment) (g : Grid) (row col : UInt64) (cells : List Cell) : Prop :=
  List.Forall₂ (PlacedAt g row col) (Cursor.ofFragment f).drain cells

theorem CellsAt.unique {cells cells' : List Cell} (h : f.CellsAt g row col cells)
    (h' : f.CellsAt g row col cells') : cells = cells' :=
  List.right_unique_forall₂' PlacedAt.rightUnique h h'

theorem drain_ofFragment (f : Fragment) : (Cursor.ofFragment f).drain = f.nonzeros := by
  rw [Cursor.drain_eq, items_ofFragment]

theorem WellFormed.placedAt (hf : f.WellFormed) (h : g.Fits row col f.rows f.cols) :
    List.Forall₂ (PlacedAt g row col) f.nonzeros (f.cellsAt row col) := by
  rw [cellsAt, List.forall₂_map_right_iff, List.forall₂_same]
  intro item hitem
  obtain ⟨hi, hj⟩ := inside_iff.mp (hf.inside_of_mem_nonzeros hitem)
  obtain ⟨hrow, hcol⟩ := h.reaches hi hj
  refine ⟨hrow.index, hcol.index, rfl, ?_⟩
  rw [Grid.checkCell_eq_ok_iff, hrow.index, hcol.index]
  exact h item.row hi item.col hj

theorem WellFormed.cellsAt (hf : f.WellFormed) (h : g.Fits row col f.rows f.cols) :
    f.CellsAt g row col (f.cellsAt row col) := by
  rw [CellsAt, drain_ofFragment]
  exact hf.placedAt h

end Fragment

namespace Session

/-- An import takes in nothing but the cells of the fragment, and these lie at their places. -/
structure Places (s : Session σ) (row col : UInt64) (source : Fragment) (tag : UInt8)
    (sink : Sink σ ε) : Prop where
  reaches : ∀ i < source.rows, ∀ j < source.cols, Axis.Reaches row i ∧ Axis.Reaches col j
  placed : List.Forall₂ (Fragment.PlacedAt s.buffer.config.grid row col) source.nonzeros
    (source.cellsAt row col)
  taken : ∀ c ∈ Move.accepted (s.importAtMoves row col source tag sink),
    c ∈ source.cellsAt row col

theorem accepted_importAtMoves (s : Session σ) (row col : UInt64) (source : Fragment)
    (tag : UInt8) (sink : Sink σ ε) :
    ∀ c ∈ Move.accepted (s.importAtMoves row col source tag sink), c ∈ source.cellsAt row col := by
  intro c hc
  rw [importAtMoves] at hc
  split at hc
  · cases hc
  · exact (accepted_importCellsMoves s tag sink _).subset hc

end Session

/-- The check of a region accepts the regions that fit and refuses all others by name. An import
that it lets through computes no index that wraps round, and takes in cells of the matrix only. -/
theorem region_accepted_iff_fits (g : Grid) (row col : UInt64) (height width : ℕ) :
    (g.checkRegion row col height width = .ok () ↔ g.Fits row col height width) ∧
      (¬g.Fits row col height width → g.checkRegion row col height width =
        .error (.regionOutside row col height width g.rows.length g.cols.length)) ∧
      ∀ {σ ε : Type} (s : Session σ) (source : Fragment) (tag : UInt8) (sink : Sink σ ε),
        s.buffer.config.grid = g → source.WellFormed →
          g.checkRegion row col source.rows source.cols = .ok () →
            s.Places row col source tag sink := by
  refine ⟨Grid.checkRegion_eq_ok_iff, Grid.checkRegion_of_not_fits, ?_⟩
  rintro σ ε s source tag sink rfl hf hfit
  rw [Grid.checkRegion_eq_ok_iff] at hfit
  exact ⟨fun i hi j hj ↦ hfit.reaches hi hj, hf.placedAt hfit,
    s.accepted_importAtMoves row col source tag sink⟩

/-- The last two rows that words can count, and a region that would need one more. -/
theorem region_accepted_iff_fits_last_rows :
    let g : Grid := .ofSizes 18446744073709551615 3 4 4
    let v : Value := ⟨0x4000000000000000⟩
    let s : Session (Array Emission) := .start (.fresh ⟨g, 1, .alwaysSparse, false⟩) #[]
    let source : Fragment := ⟨2, 1, .sparse #[⟨#[⟨0, v⟩]⟩, ⟨#[⟨0, .zero⟩, ⟨0, v⟩]⟩]⟩
    source.WellFormed ∧ g.checkRegion 18446744073709551614 3 2 1 = .ok () ∧
      s.Places 18446744073709551614 3 source 7 Sink.collect ∧
      source.cellsAt 18446744073709551614 3 =
        [⟨18446744073709551614, 3, v⟩, ⟨18446744073709551615, 3, v⟩] ∧
      ¬g.Fits 18446744073709551615 3 2 1 ∧
      g.checkRegion 18446744073709551615 3 2 1 =
        .error (.regionOutside 18446744073709551615 3 2 1 18446744073709551615 3) := by
  intro g v s source
  have hf : source.WellFormed := by simp [source, Fragment.WellFormed]
  have hfit : g.checkRegion 18446744073709551614 3 2 1 = .ok () := by decide
  obtain ⟨-, -, hplaces⟩ := region_accepted_iff_fits g 18446744073709551614 3 2 1
  obtain ⟨hiff, hrefused, -⟩ := region_accepted_iff_fits g 18446744073709551615 3 2 1
  have hnot : ¬g.Fits 18446744073709551615 3 2 1 := hiff.not.mp (by decide)
  exact ⟨hf, hfit, hplaces s source 7 Sink.collect rfl hf hfit, by decide, hnot, hrefused hnot⟩

end TileBuffer
