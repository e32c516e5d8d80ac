import TileBuffer.Proofs.Fragment.Append

namespace TileBuffer

namespace Row

variable {r r' : Row}

theorem pairwise_sort (r : Row) : r.sort.entries.toList.Pairwise fun e f ↦ e.col ≤ f.col := by
  rw [toList_sort]
  refine (List.pairwise_mergeSort colLE_trans colLE_total r.entries.toList).imp fun h ↦ ?_
  simpa only [colLE, decide_eq_true_eq] using h

theorem filter_col_eq (r : Row) (col : ℕ) :
    (r.entries.toList.filter fun e ↦ e.col = col) = (r.valuesAt col).map (Entry.mk col) := by
  rw [valuesAt, List.map_map]
  refine (map_eq_self fun e he ↦ ?_).symm
  obtain rfl := of_decide_eq_true (List.mem_filter.mp he).2
  rfl

theorem sort_eq_of_valuesAt (h : ∀ col, r.valuesAt col = r'.valuesAt col) : r.sort = r'.sort := by
  have he : r.sort.entries.toList = r'.sort.entries.toList := by
    refine eq_of_filter_eq (fun _ _ ↦ Nat.le_antisymm) Entry.col (pairwise_sort r)
      (pairwise_sort r') fun col ↦ ?_
    rw [filter_col_eq, filter_col_eq, valuesAt_sort, valuesAt_sort, h]
  exact congrArg Row.mk (Array.toList_inj.mp he)

end Row

namespace Fragment

variable {rows cols : ℕ}

section Dense

variable {values values' : Array Value} (hf : WellFormed ⟨rows, cols, .dense values⟩)
  (hf' : WellFormed ⟨rows, cols, .dense values'⟩)
include hf hf'

theorem values_eq_of_valuesAt (h : ∀ i j, valuesAt ⟨rows, cols, .dense values⟩ i j =
    valuesAt ⟨rows, cols, .dense values'⟩ i j) : values = values' := by
  rw [wellFormed_dense] at hf hf'
  apply Array.ext
  · exact hf.trans hf'.symm
  · intro k hk hk'
    have hlt : k < rows * cols := hf ▸ hk
    have hcols : 0 < cols := Nat.pos_of_ne_zero fun hz ↦ by simp [hz] at hlt
    have hrow : k / cols < rows := Nat.div_lt_of_lt_mul (Nat.mul_comm rows cols ▸ hlt)
    have hi (values : Array Value) :
        inside ⟨rows, cols, .dense values⟩ (k / cols) (k % cols) = true :=
      inside_iff.mpr ⟨hrow, Nat.mod_lt k hcols⟩
    have hv := h (k / cols) (k % cols)
    rw [valuesAt_dense, valuesAt_dense, if_pos (hi _), if_pos (hi _), Nat.div_add_mod',
      Array.getD_eq_getD_getElem?, Array.getD_eq_getD_getElem?, Array.getElem?_eq_getElem hk,
      Array.getElem?_eq_getElem hk'] at hv
    exact List.singleton_inj.mp hv

end Dense

theorem sortedRows_eq_of_valuesAt {entries entries' : Array Row}
    (hsize : entries.size = entries'.size) (h : ∀ i j, valuesAt ⟨rows, cols, .sparse entries⟩ i j =
      valuesAt ⟨rows, cols, .sparse entries'⟩ i j) :
    entries.map Row.sort = entries'.map Row.sort := by
  apply Array.ext
  · rw [Array.size_map, Array.size_map, hsize]
  · intro i hi hi'
    rw [Array.size_map] at hi hi'
    rw [Array.getElem_map, Array.getElem_map]
    apply Row.sort_eq_of_valuesAt
    intro j
    have hv := h i j
    rw [valuesAt_sparse, valuesAt_sparse, Array.getD_eq_getD_getElem?,
      Array.getD_eq_getD_getElem?, Array.getElem?_eq_getElem hi, Array.getElem?_eq_getElem hi'] at hv
    exact hv

theorem sortRows_eq_of_valuesAt {f f' : Fragment} (hf : f.WellFormed) (hf' : f'.WellFormed)
    (hs : SameShape f f') (h : ∀ i j, f.valuesAt i j = f'.valuesAt i j) :
    f.sortRows = f'.sortRows := by
  obtain ⟨rows, cols, values | entries⟩ := f <;>
    obtain ⟨rows', cols', values' | entries'⟩ := f' <;>
    obtain ⟨hrows, hcols, hform⟩ := hs <;> dsimp only at hrows hcols <;> subst hrows hcols
  · exact congrArg (Fragment.mk rows' cols' <| .dense ·) (values_eq_of_valuesAt hf hf' h)
  · cases hform
  · cases hform
  · exact congrArg (Fragment.mk rows' cols' <| .sparse ·)
      (sortedRows_eq_of_valuesAt (hf.1.trans hf'.1.symm) h)

section Items

variable {f : Fragment} {items items' : List Item}
  (hi : ∀ item ∈ items, f.inside item.row item.col = true)
  (hi' : ∀ item ∈ items', f.inside item.row item.col = true)
  (h : ∀ i j, Item.valuesAt items i j = Item.valuesAt items' i j)
include hi hi' h

theorem WellFormed.valuesAt_appendAll_congr (hf : f.WellFormed) (i j : ℕ) :
    (f.afterAll (items.map Item.edit)).valuesAt i j =
      (f.afterAll (items'.map Item.edit)).valuesAt i j := by
  have hs := f.sameShape_appendAll items
  have hs' := f.sameShape_appendAll items'
  cases hform : f.isSparse with
  | true => rw [hf.valuesAt_appendAll hi hform, hf.valuesAt_appendAll hi' hform, h]
  | false =>
    by_cases hin : f.inside i j = true
    · rw [valuesAt_eq_get (hs.isSparse.trans hform) ((hs.inside_eq i j).trans hin),
        valuesAt_eq_get (hs'.isSparse.trans hform) ((hs'.inside_eq i j).trans hin),
        hf.get_appendAll hi, hf.get_appendAll hi', h]
    · rw [(hf.appendAll hi).valuesAt_eq_nil (hs.inside_eq i j ▸ hin),
        (hf.appendAll hi').valuesAt_eq_nil (hs'.inside_eq i j ▸ hin)]

theorem WellFormed.sortRows_appendAll_congr (hf : f.WellFormed) :
    (f.afterAll (items.map Item.edit)).sortRows = (f.afterAll (items'.map Item.edit)).sortRows :=
  sortRows_eq_of_valuesAt (hf.appendAll hi) (hf.appendAll hi')
    ((sameShape_appendAll f items).symm.trans (sameShape_appendAll f items'))
    (hf.valuesAt_appendAll_congr hi hi' h)

end Items

end Fragment

end TileBuffer
