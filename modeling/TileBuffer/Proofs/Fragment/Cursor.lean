import Mathlib.Data.List.ProdSigma
import Mathlib.Data.List.ReduceOption
import TileBuffer.Fragment.Cursor
import TileBuffer.Proofs.Fragment.Memory

namespace TileBuffer

namespace Cursor

def items : Cursor → List Item
  | dense cols index values => (values.zipIdx index).filterMap fun (v, i) ↦
      if v.isZero then none else some ⟨i / cols, i % cols, v⟩
  | sparse row entries rows =>
    ((entries.filter fun e ↦ !e.value.isZero).map fun e ↦ ⟨row, e.col, e.value⟩) ++
      (rows.zipIdx (row + 1)).flatMap fun (r, i) ↦ r.nonzeros.map fun e ↦ ⟨i, e.col, e.value⟩

theorem nextDense_eq (cols index : ℕ) (values : List Value) :
    (nextDense cols index values).1 = (dense cols index values).items.head? ∧
      (nextDense cols index values).2.items = (dense cols index values).items.tail := by
  induction values generalizing index with
  | nil => exact ⟨rfl, rfl⟩
  | cons v values ih =>
    cases hz : v.isZero with
    | true => simpa [nextDense, items, hz] using ih (index + 1)
    | false => simp [nextDense, items, hz]

theorem nextSparse_eq (row : ℕ) (entries : List Entry) (rows : List Row) :
    (nextSparse row entries rows).1 = (sparse row entries rows).items.head? ∧
      (nextSparse row entries rows).2.items = (sparse row entries rows).items.tail := by
  fun_induction nextSparse row entries rows with
  | case1 row rows e entries hz ih => simpa [items, hz] using ih
  | case2 row rows e entries hz => simp [items, hz]
  | case3 row r rows ih => simpa [items, Row.nonzeros] using ih
  | case4 row => simp [items]

theorem reduceOption_map_getElem? (items : List Item) (n : ℕ) :
    ((List.range n).map fun k ↦ items[k]?).reduceOption = items.take n := by
  induction n with
  | zero => rfl
  | succ n ih =>
    rw [List.range_succ, List.map_append, List.reduceOption_append, ih, List.take_add_one]
    rfl

variable (c : Cursor)

theorem next_fst : c.next.1 = c.items.head? := by
  cases c with
  | dense cols index values => exact (nextDense_eq cols index values).1
  | sparse row entries rows => exact (nextSparse_eq row entries rows).1

theorem items_next : c.next.2.items = c.items.tail := by
  cases c with
  | dense cols index values => exact (nextDense_eq cols index values).2
  | sparse row entries rows => exact (nextSparse_eq row entries rows).2

theorem drain_eq : c.drain = c.items := by
  fun_induction drain c with
  | case1 c d h =>
    have hfst := c.next_fst
    rw [h] at hfst
    exact (List.head?_eq_none_iff.mp hfst.symm).symm
  | case2 c item d h ih =>
    have hfst := c.next_fst
    have hsnd := c.items_next
    rw [h] at hfst hsnd
    rw [ih, hsnd]
    exact (List.eq_cons_of_mem_head? hfst.symm).symm

theorem take_eq (n : ℕ) : (c.take n).1 = (List.range n).map (fun k ↦ c.items[k]?) ∧
    (c.take n).2.items = c.items.drop n := by
  induction n generalizing c with
  | zero => exact ⟨rfl, rfl⟩
  | succ n ih =>
    obtain ⟨hanswers, hrest⟩ := ih c.next.2
    rw [items_next] at hanswers hrest
    constructor
    · rw [take, List.range_succ_eq_map, List.map_cons, List.map_map]
      simp only [hanswers, next_fst, List.head?_eq_getElem?, List.getElem?_tail]
      rfl
    · rw [take]
      simp only [hrest, List.drop_tail]

/-- Step by step the cursor gives these items and then nothing more, wherever it is taken up
again. -/
structure Visits (items : List Item) : Prop where
  drain : c.drain = items
  answers : ∀ n, (c.take n).1 = (List.range n).map fun k ↦ items[k]?
  resumed : ∀ n, (c.take n).1.reduceOption ++ (c.take n).2.drain = items
  ended : ∀ n, (c.take n).2.next.1 = none →
    ∀ m, ((c.take n).2.take m).1 = List.replicate m none

theorem visits : c.Visits c.items where
  drain := c.drain_eq
  answers n := (c.take_eq n).1
  resumed := by
    intro n
    obtain ⟨hanswers, hrest⟩ := c.take_eq n
    rw [drain_eq, hanswers, hrest, reduceOption_map_getElem?, List.take_append_drop]
  ended := by
    intro n hn m
    rw [next_fst, List.head?_eq_none_iff] at hn
    rw [(take_eq _ m).1, hn]
    simp [List.map_const']

end Cursor

theorem zipIdx_eq_map_range {α : Type} (l : List α) (d : α) :
    l.zipIdx = (List.range l.length).map fun i ↦ (l.getD i d, i) := by
  apply List.ext_getElem
  · simp
  · intro i hi hi'
    simp at hi
    simp [hi]

theorem map_range_mul {α : Type} (rows cols : ℕ) (f : ℕ → ℕ → α) :
    (List.range (rows * cols)).map (fun k ↦ f (k / cols) (k % cols)) =
      (List.range rows).flatMap fun i ↦ (List.range cols).map (f i) := by
  induction rows with
  | zero => simp
  | succ rows ih =>
    rw [Nat.succ_mul, List.range_add, List.map_append, ih, List.range_succ, List.flatMap_append,
      List.flatMap_singleton, List.map_map]
    congr 1
    refine List.map_congr_left fun j hj ↦ ?_
    rw [List.mem_range] at hj
    simp only [Function.comp_apply, Fragment.index_div hj, Fragment.index_mod hj]

theorem Row.length_nonzeros (r : Row) : r.nonzeros.length = r.nonzeroCount := by
  rw [nonzeros, nonzeroCount, ← List.countP_eq_length_filter, Array.countP_toList]

namespace Fragment

variable {f : Fragment}

/-- What row `i` stores, in storage order; a dense row stores every column. -/
def rowEntries (f : Fragment) (i : ℕ) : List Entry :=
  match f.storage with
  | .dense _ => (List.range f.cols).map fun j ↦ ⟨j, f.get i j⟩
  | .sparse rows => (rows.getD i .empty).entries.toList

def rowNonzeros (f : Fragment) (i : ℕ) : List Entry :=
  (f.rowEntries i).filter fun e ↦ !e.value.isZero

/-- The stored values that are not zero, with their positions. -/
def visited (f : Fragment) : List Item :=
  (List.range f.rows).flatMap fun i ↦ (f.rowNonzeros i).map fun e ↦ ⟨i, e.col, e.value⟩

theorem items_ofFragment (f : Fragment) : (Cursor.ofFragment f).items = f.nonzeros := by
  obtain ⟨rows, cols, values | ⟨⟨⟩ | ⟨r, rs⟩⟩⟩ := f
  · rfl
  · rfl
  · rfl

theorem WellFormed.stored_eq (hf : f.WellFormed) : f.stored =
    (List.range f.rows).flatMap fun i ↦ (f.rowEntries i).map fun e ↦ ⟨i, e.col, e.value⟩ := by
  obtain ⟨rows, cols, values | entries⟩ := f
  · have hflat := map_range_mul rows cols fun i j ↦
      (⟨i, j, values.toList.getD (i * cols + j) .zero⟩ : Item)
    simp only [Nat.div_add_mod'] at hflat
    rw [stored_dense, zipIdx_eq_map_range _ Value.zero, List.map_map, Array.length_toList,
      wellFormed_dense.mp hf, Function.comp_def]
    dsimp only
    rw [hflat]
    refine List.flatMap_congr fun i hi ↦ ?_
    rw [rowEntries, List.map_map]
    refine List.map_congr_left fun j hj ↦ ?_
    rw [List.mem_range] at hi hj
    simp [get_dense, hi, hj]
  · rw [stored_sparse, zipIdx_eq_map_range _ Row.empty, List.flatMap_map, Array.length_toList,
      hf.1]
    simp [rowEntries]

theorem WellFormed.nonzeros_eq_visited (hf : f.WellFormed) : f.nonzeros = f.visited := by
  rw [nonzeros_eq, hf.stored_eq, List.filter_flatMap, visited]
  simp only [List.filter_map, rowNonzeros, Function.comp_def]

theorem length_nonzeros (f : Fragment) : f.nonzeros.length = f.nonzeroCount := by
  obtain ⟨rows, cols, values | entries⟩ := f
  · have hsome (v : Value) (item : Item) :
        (if v.isZero then none else some item).isSome = !v.isZero := by
      cases v.isZero <;> rfl
    simp only [nonzeros, nonzeroCount, List.length_filterMap_eq_countP, hsome]
    rw [← Array.countP_toList]
    conv_rhs => rw [← List.zipIdx_map_fst 0 values.toList, List.countP_map]
    rfl
  · simp only [nonzeros, nonzeroCount, List.length_flatMap, List.length_map, Row.length_nonzeros]
    rw [← Array.foldl_toList, ← List.foldl_map (f := Row.nonzeroCount) (g := fun n k ↦ n + k),
      ← List.sum_eq_foldl]
    conv_rhs => rw [← List.zipIdx_map_fst 0 entries.toList, List.map_map]
    rfl

theorem nonzeroCount_sortRows (f : Fragment) : f.sortRows.nonzeroCount = f.nonzeroCount := by
  obtain ⟨rows, cols, values | entries⟩ := f
  · rfl
  · have hrow (r : Row) : r.sort.nonzeroCount = r.nonzeroCount := by
      rw [Row.nonzeroCount, ← Array.countP_toList, Row.toList_sort,
        (List.mergeSort_perm _ _).countP_eq, Array.countP_toList, Row.nonzeroCount]
    simp only [sortRows, nonzeroCount, ← Array.foldl_toList, Array.toList_map, List.foldl_map,
      hrow]

theorem pairwise_rowEntries_sortRows (f : Fragment) (i : ℕ) :
    (f.sortRows.rowEntries i).Pairwise fun e e' ↦ e.col ≤ e'.col := by
  obtain ⟨rows, cols, values | entries⟩ := f
  · exact List.pairwise_map.mpr (List.pairwise_lt_range.imp Nat.le_of_lt)
  · simp only [sortRows, rowEntries, Array.getD_eq_getD_getElem?, Array.getElem?_map]
    cases entries[i]? with
    | none => exact List.Pairwise.nil
    | some r => exact r.pairwise_sort

theorem WellFormed.filter_rowEntries (hf : f.WellFormed) {i : ℕ} (hi : i < f.rows) (j : ℕ) :
    (f.rowEntries i).filter (fun e ↦ e.col = j) = (f.valuesAt i j).map (Entry.mk j) := by
  obtain ⟨rows, cols, values | entries⟩ := f
  · have hfilter : (List.range cols).filter (fun k ↦ k = j) = if j < cols then [j] else [] := by
      rw [List.filter_eq, List.count_range]
      split <;> rfl
    simp only [rowEntries, List.filter_map, Function.comp_def, hfilter, valuesAt_dense]
    by_cases hj : j < cols <;> simp [inside, get_dense, hi, hj]
  · rw [valuesAt_sparse, ← Row.filter_col_eq]
    rfl

/-- No row stores a column twice. -/
def StoresOnce (f : Fragment) : Prop :=
  match f.storage with
  | .dense _ => True
  | .sparse rows => ∀ r ∈ rows, (r.entries.toList.map Entry.col).Nodup

instance (f : Fragment) : Decidable f.StoresOnce :=
  match f with
  | ⟨_, _, .dense _⟩ => inferInstanceAs (Decidable True)
  | ⟨_, _, .sparse rows⟩ =>
    inferInstanceAs (Decidable (∀ r ∈ rows, (r.entries.toList.map Entry.col).Nodup))

theorem StoresOnce.length_valuesAt_le (h : f.StoresOnce) (i j : ℕ) :
    (f.valuesAt i j).length ≤ 1 := by
  obtain ⟨rows, cols, values | entries⟩ := f
  · rw [valuesAt_dense]
    split <;> simp
  · rw [valuesAt_sparse, Array.getD_eq_getD_getElem?]
    cases hr : entries[i]? with
    | none => exact Nat.zero_le 1
    | some r =>
      have hnodup := h r (Array.mem_of_getElem? hr)
      rw [List.nodup_iff_count_le_one] at hnodup
      have hcount := hnodup j
      rw [List.count_eq_countP, List.countP_map, List.countP_eq_length_filter] at hcount
      rw [Option.getD_some, Row.valuesAt, List.length_map]
      exact hcount

section StoresOnce

variable (hf : f.WellFormed) (h : f.StoresOnce)
include hf h

theorem WellFormed.filter_valuesAt (i j : ℕ) :
    (f.valuesAt i j).filter (fun v ↦ !v.isZero) =
      (f.toDense.valuesAt i j).filter fun v ↦ !v.isZero := by
  by_cases hi : f.inside i j = true
  · rw [valuesAt_eq_get (f := f.toDense) rfl hi, hf.get_toDense, hf.get_eq]
    rcases hv : f.valuesAt i j with _ | ⟨v, _ | ⟨w, rest⟩⟩
    · rfl
    · rfl
    · have hle := h.length_valuesAt_le i j
      simp [hv] at hle
  · rw [hf.valuesAt_eq_nil hi, hf.toDense.valuesAt_eq_nil hi]

theorem WellFormed.rowNonzeros_sortRows {i : ℕ} (hi : i < f.rows) :
    f.sortRows.rowNonzeros i = f.toDense.rowNonzeros i := by
  have hi' : i < f.sortRows.rows := hi.trans_eq (sameShape_sortRows f).rows.symm
  refine eq_of_filter_eq (fun _ _ ↦ Nat.le_antisymm) Entry.col ?_ ?_ fun j ↦ ?_
  · exact (pairwise_rowEntries_sortRows f i).filter _
  · exact (pairwise_rowEntries_sortRows f.toDense i).filter _
  · rw [rowNonzeros, rowNonzeros, List.filter_comm, hf.sortRows.filter_rowEntries hi',
      List.filter_comm, hf.toDense.filter_rowEntries hi, valuesAt_sortRows, List.filter_map,
      List.filter_map]
    exact congrArg _ (hf.filter_valuesAt h i j)

theorem WellFormed.visited_sortRows : f.sortRows.visited = f.toDense.visited := by
  have hrows : f.sortRows.rows = f.toDense.rows := (sameShape_sortRows f).rows
  rw [visited, visited, hrows]
  refine List.flatMap_congr fun i hi ↦ ?_
  rw [hf.rowNonzeros_sortRows h (List.mem_range.mp hi)]

theorem WellFormed.nonzeroCount_eq : f.nonzeroCount =
    (List.range f.rows ×ˢ List.range f.cols).countP fun p ↦ !(f.get p.1 p.2).isZero := by
  have hrow (i : ℕ) : f.toDense.rowEntries i =
      (List.range f.cols).map fun j ↦ ⟨j, f.get i j⟩ := by
    simp only [← hf.get_toDense]
    rfl
  rw [← nonzeroCount_sortRows, ← length_nonzeros, hf.sortRows.nonzeros_eq_visited,
    hf.visited_sortRows h, visited, List.length_flatMap]
  simp only [rowNonzeros, hrow, List.length_map, ← List.countP_eq_length_filter, List.countP_map,
    SProd.sprod, List.product, List.countP_flatMap, Function.comp_def]
  rfl

end StoresOnce

/-- A cursor goes through the values of a fragment that are stored and not zero, row by row, each at
its position, and then ends; there are as many as the fragment counts. When no column is stored
twice in a row, what is counted is what is read, and sorted rows are visited as dense storage is,
provided that memory has room for it. -/
theorem cursor_visits_stored (hf : f.Built) :
    (Cursor.ofFragment f).Visits f.visited ∧ f.nonzeros? = .ok f.visited ∧
      f.visited.length = f.nonzeroCount ∧
      (∀ item ∈ f.visited, f.inside item.row item.col = true) ∧
      (f.StoresOnce →
        (valueBytes * (f.rows * f.cols) ≤ Memory.maxBytes →
          ∃ values dense, f.sortRows.values? .words = .ok values ∧
            ofValues f.rows f.cols values .words = .ok dense ∧
            (Cursor.ofFragment f.sortRows).drain = (Cursor.ofFragment dense).drain) ∧
        f.nonzeroCount = (List.range f.rows ×ˢ List.range f.cols).countP fun p ↦
          !(f.get p.1 p.2).isZero) := by
  have hw := hf.wellFormed
  have hvisited (f : Fragment) (hw : f.WellFormed) : (Cursor.ofFragment f).items = f.visited := by
    rw [items_ofFragment, hw.nonzeros_eq_visited]
  have hvisits := (Cursor.ofFragment f).visits
  rw [hvisited f hw] at hvisits
  refine ⟨hvisits, ?_, ?_, fun item hitem ↦ ?_, fun h ↦ ⟨fun hroom ↦ ?_, hw.nonzeroCount_eq h⟩⟩
  · rw [hw.nonzeros?_eq, hw.nonzeros_eq_visited]
  · rw [← hw.nonzeros_eq_visited, length_nonzeros]
  · rw [← hw.nonzeros_eq_visited] at hitem
    exact hw.inside_of_mem_nonzeros hitem
  · have hs := sameShape_sortRows f
    refine ⟨f.values, f.toDense, ?_, ofValues_eq hroom hw.toDense, ?_⟩
    · rw [hw.sortRows.values?_eq, hw.values_sortRows]
      rw [hs.rows, hs.cols]
      exact fun _ ↦ allocate_dense hroom
    · rw [Cursor.drain_eq, Cursor.drain_eq, hvisited _ hw.sortRows, hvisited _ hw.toDense,
        hw.visited_sortRows h]

/-- An empty row between two others; one of these is not sorted, the other has a NaN and a zero. -/
theorem cursor_visits_stored_unsorted :
    let v : Value := ⟨0x4000000000000000⟩
    let nan : Value := ⟨0x7ff8000000000001⟩
    let f := (zeros 3 3 true).afterAll
      [.append 2 2 v, .append 0 1 nan, .append 2 0 v, .append 0 2 .zero]
    f.Built ∧ f.StoresOnce ∧ valueBytes * (f.rows * f.cols) ≤ Memory.maxBytes ∧
      f.visited = [⟨0, 1, nan⟩, ⟨2, 2, v⟩, ⟨2, 0, v⟩] ∧
      (Cursor.ofFragment f).Visits f.visited ∧ f.nonzeroCount = 3 ∧
      ∃ values dense, f.sortRows.values? .words = .ok values ∧
        ofValues 3 3 values .words = .ok dense ∧
        (Cursor.ofFragment f.sortRows).drain = (Cursor.ofFragment dense).drain := by
  intro v nan f
  have hf : f.Built := (Built.zeros 3 3 true).afterAll (by decide)
  have honce : f.StoresOnce := by decide
  have hroom : valueBytes * (f.rows * f.cols) ≤ Memory.maxBytes := by decide
  obtain ⟨hvisits, -, -, -, hdense⟩ := cursor_visits_stored hf
  exact ⟨hf, honce, hroom, by decide, hvisits, by decide, (hdense honce).1 hroom⟩

/-- One stored value in rows whose values no memory holds, or whose number is no word; and a reset
given up, after which the position of a value is asked for in rows without columns. -/
theorem dense_values_of_wide_rows :
    let v : Value := ⟨0x3ff0000000000000⟩
    let f := (zeros 1 (2 ^ 60) true).afterAll [.append 0 0 v]
    let g := (zeros 2 (2 ^ 63) true).afterAll [.append 0 0 v]
    let h := (zeros 1 1 false).afterAll [.append 0 0 v, .reset (2 ^ 58) 0 true]
    f.Built ∧ f.StoresOnce ∧ f.sortRows.values? .words = .error .capacityOverflow ∧
      g.Built ∧ g.StoresOnce ∧ g.sortRows.values? .words = .error .productOverflow ∧
      h.nonzeros? = .error .zeroDivisor := by
  intro v f g h
  have hf : f.Built := (Built.zeros 1 (2 ^ 60) true).afterAll (by decide)
  have hg : g.Built := (Built.zeros 2 (2 ^ 63) true).afterAll (by decide)
  exact ⟨hf, by decide, by decide, hg, by decide, by decide, by decide⟩

end Fragment

end TileBuffer
