import Mathlib.Data.List.Sigma
import TileBuffer.Fragment.Edit
import TileBuffer.Proofs.Fragment.Row

namespace TileBuffer

namespace Item

def isAt (i j : ℕ) (item : Item) : Bool := item.row = i ∧ item.col = j

@[simp]
theorem isAt_iff {i j : ℕ} {item : Item} : item.isAt i j = true ↔ item.row = i ∧ item.col = j := by
  simp [isAt]

def valuesAt (items : List Item) (i j : ℕ) : List Value :=
  (items.filter (isAt i j)).map Item.value

end Item

namespace Fragment

variable {f : Fragment} {i j r c : ℕ} {v : Value}

theorem inside_iff : f.inside r c = true ↔ r < f.rows ∧ c < f.cols := by simp [inside]

def valuesAt (f : Fragment) (i j : ℕ) : List Value :=
  match f.storage with
  | .dense values => if f.inside i j then [values.getD (i * f.cols + j) .zero] else []
  | .sparse rows => (rows.getD i .empty).valuesAt j

section Forms

variable {rows cols : ℕ} {values : Array Value} {entries : Array Row}

theorem stored_dense : stored ⟨rows, cols, .dense values⟩ =
    values.toList.zipIdx.map fun (v, k) ↦ ⟨k / cols, k % cols, v⟩ := rfl

theorem stored_sparse : stored ⟨rows, cols, .sparse entries⟩ =
    entries.toList.zipIdx.flatMap fun (r, k) ↦
      r.entries.toList.map fun e ↦ ⟨k, e.col, e.value⟩ := rfl

theorem valuesAt_dense : valuesAt ⟨rows, cols, .dense values⟩ i j =
    if inside ⟨rows, cols, .dense values⟩ i j then [values.getD (i * cols + j) .zero] else [] := rfl

theorem valuesAt_sparse : valuesAt ⟨rows, cols, .sparse entries⟩ i j =
    (entries.getD i .empty).valuesAt j := rfl

theorem wellFormed_dense :
    WellFormed ⟨rows, cols, .dense values⟩ ↔ values.size = rows * cols := Iff.rfl

theorem wellFormed_sparse : WellFormed ⟨rows, cols, .sparse entries⟩ ↔
    entries.size = rows ∧ ∀ r ∈ entries, ∀ e ∈ r.entries, e.col < cols := Iff.rfl

end Forms

theorem nonzeros_eq (f : Fragment) :
    f.nonzeros = f.stored.filter fun item ↦ !item.value.isZero := by
  obtain ⟨rows, cols, values | entries⟩ := f
  · simp only [nonzeros, stored]
    induction values.toList.zipIdx with
    | nil => rfl
    | cons p pairs ih => cases h : p.1.isZero <;> simp [h, ih]
  · simp only [nonzeros, stored, List.filter_flatMap, List.filter_map, Row.nonzeros]
    rfl

theorem isZero_of_mem_nonzeros {item : Item} (h : item ∈ f.nonzeros) :
    item.value.isZero = false := by
  rw [nonzeros_eq, List.mem_filter] at h
  simpa using h.2

section Index

variable {cols : ℕ} (hj : j < cols)
include hj

theorem index_div : (i * cols + j) / cols = i := by
  rw [Nat.add_comm, Nat.add_mul_div_right _ _ (Nat.zero_lt_of_lt hj), Nat.div_eq_of_lt hj,
    Nat.zero_add]

theorem index_mod : (i * cols + j) % cols = j := by
  rw [Nat.add_comm, Nat.add_mul_mod_self_right, Nat.mod_eq_of_lt hj]

theorem index_inj (hc : c < cols) : r * cols + c = i * cols + j ↔ r = i ∧ c = j := by
  constructor
  · intro h
    have hd := congrArg (· / cols) h
    have hm := congrArg (· % cols) h
    simp only [index_div hj, index_div hc, index_mod hj, index_mod hc] at hd hm
    exact ⟨hd, hm⟩
  · rintro ⟨rfl, rfl⟩
    rfl

end Index

section WellFormed

theorem WellFormed.inside_of_mem_stored (hf : f.WellFormed) {item : Item} (h : item ∈ f.stored) :
    f.inside item.row item.col = true := by
  rw [inside_iff]
  obtain ⟨rows, cols, values | entries⟩ := f
  · rw [wellFormed_dense] at hf
    obtain ⟨⟨v, k⟩, hk, rfl⟩ := List.mem_map.mp h
    have hlt : k < rows * cols := by
      have := List.mem_zipIdx hk
      simp only [Array.length_toList] at this
      omega
    have hc : 0 < cols := Nat.pos_of_ne_zero fun hz ↦ by simp [hz] at hlt
    exact ⟨Nat.div_lt_of_lt_mul (by rwa [Nat.mul_comm]), Nat.mod_lt _ hc⟩
  · rw [wellFormed_sparse] at hf
    obtain ⟨⟨row, k⟩, hk, hitem⟩ := List.mem_flatMap.mp h
    obtain ⟨e, he, rfl⟩ := List.mem_map.mp hitem
    have hm := List.mem_zipIdx hk
    have hrow : row ∈ entries.toList := by simp [hm.2.2]
    simp only [Array.length_toList] at hm
    exact ⟨by simp only; omega,
      hf.2 row (Array.mem_toList_iff.mp hrow) e (Array.mem_toList_iff.mp he)⟩

theorem WellFormed.inside_of_mem_nonzeros (hf : f.WellFormed) {item : Item}
    (h : item ∈ f.nonzeros) : f.inside item.row item.col = true := by
  rw [nonzeros_eq] at h
  exact hf.inside_of_mem_stored (List.mem_filter.mp h).1

theorem WellFormed.valuesAt_eq_nil (hf : f.WellFormed) (h : ¬f.inside i j = true) :
    f.valuesAt i j = [] := by
  obtain ⟨rows, cols, values | entries⟩ := f
  · rw [valuesAt_dense, if_neg h]
  · rw [wellFormed_sparse] at hf
    rw [inside_iff, not_and_or] at h
    simp only [valuesAt_sparse, Row.valuesAt, List.map_eq_nil_iff, List.filter_eq_nil_iff,
      Array.getD]
    split
    next hlt =>
      intro e he hj
      have := hf.2 _ (Array.getElem_mem hlt) e (Array.mem_toList_iff.mp he)
      rw [decide_eq_true_eq] at hj
      simp only at h
      omega
    next => simp [Row.empty]

theorem index_lt {rows cols : ℕ} (hi : i < rows) (hj : j < cols) : i * cols + j < rows * cols :=
  calc i * cols + j < i * cols + cols := Nat.add_lt_add_left hj _
    _ = (i + 1) * cols := (Nat.succ_mul i cols).symm
    _ ≤ rows * cols := Nat.mul_le_mul_right cols hi

theorem WellFormed.index_lt {rows cols : ℕ} {values : Array Value}
    (hf : WellFormed ⟨rows, cols, .dense values⟩) (hi : i < rows) (hj : j < cols) :
    i * cols + j < values.size :=
  (Fragment.index_lt hi hj).trans_eq (wellFormed_dense.mp hf).symm

theorem checkSlot_of_not_inside (hi : ¬f.inside r c = true) :
    f.checkSlot r c = .error (.outsideFragment r c) := if_neg hi

theorem WellFormed.checkSlot_eq (hf : f.WellFormed) (hi : f.inside r c = true) :
    f.checkSlot r c = .ok () := by
  have hlt : (f.slot r c).1 < (f.slot r c).2 := by
    obtain ⟨hr, hc⟩ := inside_iff.mp hi
    obtain ⟨rows, cols, values | entries⟩ := f
    · exact hf.index_lt hr hc
    · exact hr.trans_eq hf.1.symm
  rw [checkSlot, if_pos hi]
  exact if_pos hlt

theorem WellFormed.filter_stored_dense {rows cols : ℕ} {values : Array Value}
    (hf : WellFormed ⟨rows, cols, .dense values⟩) (hi : i < rows) (hj : j < cols) :
    (stored ⟨rows, cols, .dense values⟩).filter (Item.isAt i j) =
      [⟨i, j, values.getD (i * cols + j) .zero⟩] := by
  have hlt := hf.index_lt hi hj
  let place (k : ℕ) : ℕ × ℕ := (k / cols, k % cols)
  have hinj : Function.Injective place := by
    intro k k' h
    rw [Prod.mk.injEq] at h
    rw [← Nat.div_add_mod' k cols, ← Nat.div_add_mod' k' cols, h.1, h.2]
  have hplace : place (i * cols + j) = (i, j) := Prod.ext (index_div hj) (index_mod hj)
  have h := filter_flatMap_eq values.toList.zipIdx
    (fun p ↦ [(⟨p.2 / cols, p.2 % cols, p.1⟩ : Item)]) (fun item ↦ (item.row, item.col))
    (fun p ↦ place p.2) (b := (values.getD (i * cols + j) .zero, i * cols + j)) ?_ ?_ ?_
  · have hat : Item.isAt i j = fun item ↦ decide ((item.row, item.col) = (i, j)) := by
      funext item
      simp [Item.isAt]
    rw [hat, stored_dense, List.map_eq_flatMap, ← hplace, h]
    rw [Prod.mk.injEq] at hplace
    simp only [hplace.1, hplace.2]
  · intro p _ item hitem
    rw [List.mem_singleton.mp hitem]
  · rw [← Function.comp_def, ← List.map_map]
    exact (List.nodup_zipIdx_map_snd _).map hinj
  · simp [List.mem_zipIdx_iff_getElem?, hlt]

theorem WellFormed.filter_stored_sparse {rows cols : ℕ} {entries : Array Row}
    (hf : WellFormed ⟨rows, cols, .sparse entries⟩) (hi : i < rows) :
    (stored ⟨rows, cols, .sparse entries⟩).filter (Item.isAt i j) =
      ((entries.getD i .empty).valuesAt j).map fun v ↦ ⟨i, j, v⟩ := by
  have hlt : i < entries.size := hf.1.symm ▸ hi
  have h := filter_flatMap_eq entries.toList.zipIdx
    (fun p ↦ p.1.entries.toList.map fun e ↦ (⟨p.2, e.col, e.value⟩ : Item))
    Item.row Prod.snd (b := (entries.getD i .empty, i)) ?_ ?_ ?_
  · have hat : Item.isAt i j = fun item ↦ decide (item.row = i) && decide (item.col = j) := by
      funext item
      simp [Item.isAt]
    have hcol : (stored ⟨rows, cols, .sparse entries⟩).filter (Item.isAt i j) =
        ((stored ⟨rows, cols, .sparse entries⟩).filter fun item ↦ item.row = i).filter
          fun item ↦ item.col = j := by
      rw [List.filter_filter, hat]
      exact List.filter_congr fun item _ ↦ Bool.and_comm _ _
    rw [hcol, stored_sparse, h, List.filter_map, Row.valuesAt, List.map_map]
    refine List.map_congr_left fun e he ↦ ?_
    simpa using (List.mem_filter.mp he).2
  · intro p _ item hitem
    obtain ⟨e, -, rfl⟩ := List.mem_map.mp hitem
    rfl
  · exact List.nodup_zipIdx_map_snd _
  · simp [List.mem_zipIdx_iff_getElem?, hlt]

theorem WellFormed.filter_stored (hf : f.WellFormed) (i j : ℕ) :
    f.stored.filter (Item.isAt i j) = (f.valuesAt i j).map fun v ↦ ⟨i, j, v⟩ := by
  by_cases hi : f.inside i j = true
  · obtain ⟨rows, cols, values | entries⟩ := f
    · obtain ⟨hr, hc⟩ := inside_iff.mp hi
      rw [hf.filter_stored_dense hr hc, valuesAt_dense, if_pos hi, List.map_singleton]
    · rw [hf.filter_stored_sparse (inside_iff.mp hi).1, valuesAt_sparse]
  · rw [hf.valuesAt_eq_nil hi, List.map_nil, List.filter_eq_nil_iff]
    intro item h hat
    rw [Item.isAt_iff] at hat
    exact hi (hat.1 ▸ hat.2 ▸ hf.inside_of_mem_stored h)

/-- Reading gives the last value stored at a position, and zero where there is none. -/
theorem WellFormed.get_eq (hf : f.WellFormed) (i j : ℕ) :
    f.get i j = ((f.valuesAt i j).getLast?).getD .zero := by
  rw [get]
  split
  next hi =>
    obtain ⟨rows, cols, values | entries⟩ := f
    · rw [valuesAt_dense, if_pos hi]
      rfl
    · rw [valuesAt_sparse, ← Row.get?_eq]
  next hi =>
    rw [hf.valuesAt_eq_nil hi]
    rfl

theorem WellFormed.valuesAt_nonzeros (hf : f.WellFormed) (i j : ℕ) :
    Item.valuesAt f.nonzeros i j = (f.valuesAt i j).filter fun v ↦ !v.isZero := by
  rw [Item.valuesAt, nonzeros_eq, List.filter_comm, hf.filter_stored, List.filter_map,
    List.map_map]
  exact List.map_id _

theorem valuesAt_eq_get (hd : f.isSparse = false) (hi : f.inside i j = true) :
    f.valuesAt i j = [f.get i j] := by
  obtain ⟨rows, cols, values | entries⟩ := f
  · rw [valuesAt_dense, if_pos hi, get, if_pos hi]
  · cases hd

end WellFormed

section Zeros

@[simp]
theorem rows_zeros (rows cols : ℕ) (sparse : Bool) : (zeros rows cols sparse).rows = rows := rfl

@[simp]
theorem cols_zeros (rows cols : ℕ) (sparse : Bool) : (zeros rows cols sparse).cols = cols := rfl

@[simp]
theorem zeros?_unbounded (rows cols : ℕ) (sparse : Bool) :
    zeros? .unbounded rows cols sparse = .ok (zeros rows cols sparse) := by cases sparse <;> rfl

@[simp]
theorem isSparse_zeros (rows cols : ℕ) (sparse : Bool) :
    (zeros rows cols sparse).isSparse = sparse := by cases sparse <;> rfl

theorem wellFormed_zeros (rows cols : ℕ) (sparse : Bool) :
    (zeros rows cols sparse).WellFormed := by
  cases sparse
  · exact Array.size_replicate
  · refine ⟨Array.size_replicate, fun r hr e he ↦ ?_⟩
    rw [(Array.mem_replicate.mp hr).2] at he
    simp [Row.empty] at he

theorem valuesAt_zeros_sparse (rows cols i j : ℕ) : (zeros rows cols true).valuesAt i j = [] := by
  have h : (Array.replicate rows Row.empty).getD i .empty = .empty := by
    rw [Array.getD_eq_getD_getElem?, Array.getElem?_replicate]
    split <;> rfl
  change ((Array.replicate rows Row.empty).getD i .empty).valuesAt j = []
  rw [h, Row.valuesAt_empty]

theorem get_zeros (rows cols : ℕ) (sparse : Bool) (i j : ℕ) :
    (zeros rows cols sparse).get i j = .zero := by
  cases sparse
  · have h : (Array.replicate (rows * cols) Value.zero).getD (i * cols + j) .zero = .zero := by
      rw [Array.getD_eq_getD_getElem?, Array.getElem?_replicate]
      split <;> rfl
    change (if _ then (Array.replicate (rows * cols) Value.zero).getD (i * cols + j) .zero
      else Value.zero) = _
    rw [h, ite_self]
  · rw [(wellFormed_zeros rows cols true).get_eq, valuesAt_zeros_sparse]
    rfl

end Zeros

end Fragment

end TileBuffer
