import TileBuffer.Proofs.Fragment.Forms
import TileBuffer.Proofs.Fragment.Layout

namespace TileBuffer

/-- The changes that a row can go through. -/
inductive RowEdit
  | append (col : ℕ) (value : Value)
  | set (col : ℕ) (value : Value)
  | sort
deriving DecidableEq

namespace Vectors

def pairs (r : Vectors) : List (ℕ × Value) := r.cols.zip r.values

/-- Every column has its value. -/
def Paired (r : Vectors) : Prop := r.cols.length = r.values.length

def edit (r : Vectors) : RowEdit → Except Trap Vectors
  | .append col v => .ok (r.append col v)
  | .set col v => r.set col v
  | .sort => r.sort

def editAll (r : Vectors) (edits : List RowEdit) : Except Trap Vectors := edits.foldlM edit r

/-- Sorting ends without an index behind the end of a vector and gives `sorted`, the pairs of `r` by
column, and in the order they had within a column. -/
structure SortsTo (r sorted : Vectors) : Prop where
  sort_eq : r.sort = .ok sorted
  paired : sorted.Paired
  ordered : sorted.cols.Pairwise (· ≤ ·)
  perm : sorted.pairs.Perm r.pairs
  stable : ∀ col, sorted.pairs.filter (fun p ↦ p.1 = col) = r.pairs.filter fun p ↦ p.1 = col
  unchanged_iff : sorted = r ↔ sortedCols r.cols = true
  again : sorted.sort = .ok sorted

end Vectors

namespace Row

variable {r : Row}

def after (r : Row) : RowEdit → Row
  | .append col v => r.append col v
  | .set col v => r.set col v
  | .sort => r.sort

def afterAll (r : Row) (edits : List RowEdit) : Row := edits.foldl after r

theorem edit_vectors (r : Row) (e : RowEdit) : r.vectors.edit e = .ok (r.after e).vectors := by
  cases e with
  | append col v => exact congrArg Except.ok (r.vectors_append col v).symm
  | set col v => exact r.set_vectors col v
  | sort => exact r.sort_vectors

theorem editAll_vectors (r : Row) (edits : List RowEdit) :
    r.vectors.editAll edits = .ok (r.afterAll edits).vectors := by
  induction edits generalizing r with
  | nil => rfl
  | cons e edits ih =>
    rw [Vectors.editAll, List.foldlM_cons, edit_vectors]
    exact ih (r.after e)

theorem paired_vectors (r : Row) : r.vectors.Paired := by simp [Vectors.Paired, vectors]

theorem filter_pairs (r : Row) (col : ℕ) :
    r.vectors.pairs.filter (fun p ↦ p.1 = col) = (r.valuesAt col).map (Prod.mk col) := by
  rw [Vectors.pairs, zip_vectors, List.filter_map, Function.comp_def]
  dsimp only
  rw [filter_col_eq, List.map_map]
  rfl

theorem isSorted_sort (r : Row) : r.sort.isSorted = true :=
  sortedEntries_iff.mpr (r.pairwise_sort.imp decide_eq_true)

theorem sort_of_isSorted (h : r.isSorted = true) : r.sort = r := if_pos h

theorem sortsTo_vectors (r : Row) : r.vectors.SortsTo r.sort.vectors where
  sort_eq := r.sort_vectors
  paired := r.sort.paired_vectors
  ordered := List.pairwise_map.mpr r.pairwise_sort
  perm := by
    rw [Vectors.pairs, Vectors.pairs, zip_vectors, zip_vectors, toList_sort]
    exact (List.mergeSort_perm _ _).map _
  stable col := by rw [filter_pairs, filter_pairs, valuesAt_sort]
  unchanged_iff := by
    constructor
    · intro h
      rw [← h, sortedCols_vectors, isSorted_sort]
    · rw [sortedCols_vectors]
      exact fun h ↦ congrArg vectors (sort_of_isSorted h)
  again := by rw [sort_vectors, sort_of_isSorted r.isSorted_sort]

end Row

namespace Fragment

theorem nonzeros_sortRows_perm (f : Fragment) : f.sortRows.nonzeros.Perm f.nonzeros := by
  rw [nonzeros_eq, nonzeros_eq]
  refine List.Perm.filter _ ?_
  obtain ⟨rows, cols, values | entries⟩ := f
  · exact .refl _
  · rw [sortRows, stored_sparse, stored_sparse, Array.toList_map, List.zipIdx_map,
      List.flatMap_map]
    refine List.Perm.flatMap_left _ fun p _ ↦ List.Perm.map _ ?_
    exact p.1.toList_sort ▸ List.mergeSort_perm _ _

/-- Rows are in order once they are sorted, and what can be read is what could be read before: each
position, all values, their number, and up to their order the non-zero values of each row. -/
structure KeptBySort (f : Fragment) : Prop where
  layout_eq : f.layout.sortRows = .ok f.sortRows.layout
  ordered : ∀ i, (f.sortRows.rowEntries i).Pairwise fun e e' ↦ e.col ≤ e'.col
  readsAs : f.ReadsAs f.sortRows
  nonzeroCount_eq : f.sortRows.nonzeroCount = f.nonzeroCount
  row_perm : ∀ i, ((Cursor.ofFragment f.sortRows).drain.filter fun item ↦ item.row = i).Perm
    ((Cursor.ofFragment f).drain.filter fun item ↦ item.row = i)

theorem WellFormed.keptBySort {f : Fragment} (hf : f.WellFormed) : f.KeptBySort where
  layout_eq := f.layout_sortRows
  ordered := pairwise_rowEntries_sortRows f
  readsAs := .sortRows hf
  nonzeroCount_eq := nonzeroCount_sortRows f
  row_perm i := by
    rw [Cursor.drain_eq, Cursor.drain_eq, items_ofFragment, items_ofFragment]
    exact f.nonzeros_sortRows_perm.filter _

end Fragment

/-- However a row has come about, its columns and values stay paired when it is sorted, and those of
one column in order; it changes exactly when it was not sorted. So nothing that is read from a
fragment changes when its rows are sorted. -/
theorem rows_sort_paired :
    (∀ edits : List RowEdit, ∃ r sorted : Vectors, Vectors.empty.editAll edits = .ok r ∧
      r.Paired ∧ r.SortsTo sorted ∧ r = (Row.empty.afterAll edits).vectors ∧
        sorted = (Row.empty.afterAll edits).sort.vectors) ∧
      ∀ f : Fragment, f.Built → f.KeptBySort :=
  ⟨fun edits ↦ ⟨_, _, Row.empty.editAll_vectors edits, Row.paired_vectors _,
    Row.sortsTo_vectors _, rfl, rfl⟩, fun _ hf ↦ hf.wellFormed.keptBySort⟩

/-- A row and a fragment that store column 2 twice, around a smaller column, and zero last. -/
theorem rows_sort_paired_twice :
    let v : Value := ⟨0x7ff8000000000001⟩
    let edits : List RowEdit := [.append 2 v, .set 2 .zero, .sort, .append 0 v, .append 2 .zero]
    let f := (Fragment.zeros 2 3 true).afterAll
      [.append 1 2 v, .append 1 0 v, .append 0 1 .zero, .append 1 2 .zero]
    f.Built ∧ f.isSparse = true ∧ f.KeptBySort ∧
      ∃ r sorted : Vectors, Vectors.empty.editAll edits = .ok r ∧ r.Paired ∧ r.SortsTo sorted ∧
        sorted ≠ r := by
  intro v edits f
  have hf : f.Built := (Fragment.Built.zeros 2 3 true).afterAll (by decide)
  obtain ⟨r, sorted, hr, hpaired, hsorted, rfl, -⟩ := rows_sort_paired.1 edits
  refine ⟨hf, rfl, rows_sort_paired.2 f hf, _, sorted, hr, hpaired, hsorted, fun h ↦ ?_⟩
  exact absurd (hsorted.unchanged_iff.mp h) (by decide)

end TileBuffer
