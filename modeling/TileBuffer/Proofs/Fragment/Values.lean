import TileBuffer.Proofs.Fragment.Canonical

namespace TileBuffer

namespace Fragment

variable {f f' : Fragment} {rows cols : ℕ} {items : List Item}

def toDense (f : Fragment) : Fragment := ⟨f.rows, f.cols, .dense f.values⟩

def write (cols : ℕ) (out : Array Value) (item : Item) : Array Value :=
  out.setIfInBounds (item.row * cols + item.col) item.value

theorem values_sparse {entries : Array Row} : values ⟨rows, cols, .sparse entries⟩ =
    (stored ⟨rows, cols, .sparse entries⟩).foldl (write cols)
      (Array.replicate (rows * cols) .zero) := by
  rw [values, stored_sparse, List.foldl_flatMap]
  simp only [List.foldl_map, Array.foldl_toList, write]

theorem WellFormed.afterAll_dense {values : Array Value}
    (hf : WellFormed ⟨rows, cols, .dense values⟩)
    (hi : ∀ item ∈ items, inside ⟨rows, cols, .dense values⟩ item.row item.col = true) :
    afterAll ⟨rows, cols, .dense values⟩ (items.map Item.edit) =
      ⟨rows, cols, .dense (items.foldl (write cols) values)⟩ := by
  induction items generalizing values with
  | nil => rfl
  | cons item items ih =>
    obtain ⟨hitem, hitems⟩ := List.forall_mem_cons.mp hi
    have hafter : after ⟨rows, cols, .dense values⟩ item.edit =
        ⟨rows, cols, .dense (write cols values item)⟩ := hf.after_append hitem item.value
    have hwritten : WellFormed ⟨rows, cols, .dense (write cols values item)⟩ :=
      Array.size_setIfInBounds.trans hf
    exact (congrArg (afterAll · (items.map Item.edit)) hafter).trans (ih hwritten hitems)

namespace WellFormed

variable (hf : f.WellFormed)
include hf

theorem toDense_eq (hs : f.isSparse = true) :
    f.toDense = (zeros f.rows f.cols false).afterAll (f.stored.map Item.edit) := by
  obtain ⟨rows, cols, values | entries⟩ := f
  · cases hs
  · have hz : zeros rows cols false =
        ⟨rows, cols, .dense (Array.replicate (rows * cols) .zero)⟩ := rfl
    have hwf := wellFormed_zeros rows cols false
    rw [hz] at hwf ⊢
    rw [hwf.afterAll_dense fun item h ↦ hf.inside_of_mem_stored h, ← values_sparse]
    rfl

theorem toDense : f.toDense.WellFormed := by
  cases hs : f.isSparse with
  | false =>
    obtain ⟨rows, cols, values | entries⟩ := f
    · exact hf
    · cases hs
  | true =>
    rw [hf.toDense_eq hs]
    exact (wellFormed_zeros _ _ _).appendAll fun item h ↦ hf.inside_of_mem_stored h

theorem get_toDense (i j : ℕ) : f.toDense.get i j = f.get i j := by
  cases hs : f.isSparse with
  | false =>
    obtain ⟨rows, cols, values | entries⟩ := f
    · rfl
    · cases hs
  | true =>
    have hin : ∀ item ∈ f.stored, (zeros f.rows f.cols false).inside item.row item.col = true :=
      fun item h ↦ hf.inside_of_mem_stored h
    have hstored : Item.valuesAt f.stored i j = f.valuesAt i j := by
      rw [Item.valuesAt, hf.filter_stored, List.map_map]
      exact List.map_id _
    rw [hf.toDense_eq hs, get_appendAll hin (wellFormed_zeros _ _ _), hstored, get_zeros, hf.get_eq]

theorem values_congr (hf' : f'.WellFormed) (hrows : f'.rows = f.rows) (hcols : f'.cols = f.cols)
    (h : ∀ i j, f'.get i j = f.get i j) : f'.values = f.values := by
  have hshape : SameShape f.toDense f'.toDense := ⟨hrows, hcols, rfl⟩
  have hread : ∀ i j, f.toDense.valuesAt i j = f'.toDense.valuesAt i j := by
    intro i j
    have hin := hshape.inside_eq i j
    by_cases hi : f.toDense.inside i j = true
    · rw [valuesAt_eq_get rfl hi, valuesAt_eq_get rfl (hin.trans hi), hf.get_toDense,
        hf'.get_toDense, h]
    · rw [hf.toDense.valuesAt_eq_nil hi, hf'.toDense.valuesAt_eq_nil (hin ▸ hi)]
  have hdense : f.toDense = f'.toDense :=
    sortRows_eq_of_valuesAt hf.toDense hf'.toDense hshape hread
  exact Storage.dense.inj (congrArg storage hdense.symm)

theorem values_sortRows : f.sortRows.values = f.values :=
  have hs := sameShape_sortRows f
  hf.values_congr hf.sortRows hs.rows hs.cols hf.get_sortRows

end WellFormed

end Fragment

end TileBuffer
