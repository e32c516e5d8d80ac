import TileBuffer.Proofs.Fragment.Stored

namespace TileBuffer

namespace Fragment

variable {f : Fragment} {i j r c : ℕ} {v : Value}

structure SameShape (f f' : Fragment) : Prop where
  rows : f'.rows = f.rows
  cols : f'.cols = f.cols
  isSparse : f'.isSparse = f.isSparse

theorem SameShape.refl (f : Fragment) : SameShape f f := ⟨rfl, rfl, rfl⟩

theorem SameShape.symm {f f' : Fragment} (h : SameShape f f') : SameShape f' f :=
  ⟨h.rows.symm, h.cols.symm, h.isSparse.symm⟩

theorem SameShape.trans {f f' f'' : Fragment} (h : SameShape f f') (h' : SameShape f' f'') :
    SameShape f f'' :=
  ⟨h'.rows.trans h.rows, h'.cols.trans h.cols, h'.isSparse.trans h.isSparse⟩

theorem SameShape.inside_eq {f f' : Fragment} (h : SameShape f f') (r c : ℕ) :
    f'.inside r c = f.inside r c := by
  rw [inside, inside, h.rows, h.cols]

theorem get_dense {rows cols : ℕ} {values : Array Value} (i j : ℕ) :
    get ⟨rows, cols, .dense values⟩ i j =
      if i < rows ∧ j < cols then values.getD (i * cols + j) .zero else .zero := by
  simp [get, inside]

section Append

variable {rows cols : ℕ} {values : Array Value} {entries : Array Row}

theorem sameShape_put (f : Fragment) (r c : ℕ) (v : Value) (change : Row → Row) :
    SameShape f (f.put r c v change) := by
  obtain ⟨rows, cols, values | entries⟩ := f <;> exact ⟨rfl, rfl, rfl⟩

theorem append_of_not_inside (hi : ¬f.inside r c = true) (v : Value) :
    f.append r c v = .error (.outsideFragment r c) := by
  rw [append, checkSlot_of_not_inside hi]
  rfl

theorem WellFormed.after_append (hf : f.WellFormed) (hi : f.inside r c = true) (v : Value) :
    f.after (.append r c v) = f.put r c v (·.append c v) := by
  rw [after, edit, append, hf.checkSlot_eq hi]
  rfl

theorem WellFormed.append_eq (hf : f.WellFormed) (hi : f.inside r c = true) (v : Value) :
    f.append r c v = .ok (f.after (.append r c v)) := by
  rw [hf.after_append hi, append, hf.checkSlot_eq hi]
  rfl

theorem sameShape_append (f : Fragment) (r c : ℕ) (v : Value) :
    SameShape f (f.after (.append r c v)) := by
  rw [after, edit, append]
  cases f.checkSlot r c with
  | error fault => exact .refl f
  | ok => exact f.sameShape_put r c v _

theorem getD_modify (hr : r < entries.size) (g : Row → Row) (i : ℕ) :
    (entries.modify r g).getD i .empty =
      if r = i then g (entries.getD i .empty) else entries.getD i .empty := by
  rw [Array.getD_eq_getD_getElem?, Array.getD_eq_getD_getElem?, Array.getElem?_modify]
  split
  next h =>
    subst h
    rw [Array.getElem?_eq_getElem hr, Option.map_some, Option.getD_some, Option.getD_some]
  next => rfl

theorem WellFormed.modify (hf : WellFormed ⟨rows, cols, .sparse entries⟩) {g : Row → Row}
    (hg : ∀ row, (∀ e ∈ row.entries, e.col < cols) → ∀ e ∈ (g row).entries, e.col < cols) :
    WellFormed ⟨rows, cols, .sparse (entries.modify r g)⟩ := by
  rw [wellFormed_sparse, Array.size_modify]
  refine ⟨hf.1, fun row hrow ↦ ?_⟩
  obtain ⟨k, hk, rfl⟩ := Array.mem_iff_getElem.mp hrow
  rw [Array.size_modify] at hk
  rw [Array.getElem_modify]
  split
  · exact hg _ (hf.2 _ (Array.getElem_mem hk))
  · exact hf.2 _ (Array.getElem_mem hk)

theorem WellFormed.put (hf : f.WellFormed) (v : Value) {change : Row → Row}
    (hc : ∀ row, (∀ e ∈ row.entries, e.col < f.cols) →
      ∀ e ∈ (change row).entries, e.col < f.cols) : (f.put r c v change).WellFormed := by
  obtain ⟨rows, cols, values | entries⟩ := f
  · exact Array.size_setIfInBounds.trans hf
  · exact hf.modify hc

variable (hi : f.inside r c = true)
include hi

theorem WellFormed.append (hf : f.WellFormed) (v : Value) :
    (f.after (.append r c v)).WellFormed := by
  rw [hf.after_append hi]
  refine hf.put v fun row hrow e he ↦ ?_
  obtain he | rfl := Array.mem_push.mp he
  · exact hrow e he
  · exact (inside_iff.mp hi).2

theorem WellFormed.valuesAt_append_sparse (hf : f.WellFormed) (hs : f.isSparse = true)
    (v : Value) (i j : ℕ) : (f.after (.append r c v)).valuesAt i j =
      f.valuesAt i j ++ if Item.isAt i j ⟨r, c, v⟩ then [v] else [] := by
  obtain ⟨rows, cols, values | entries⟩ := f
  · cases hs
  · have hlt : r < entries.size := hf.1.symm ▸ (inside_iff.mp hi).1
    rw [hf.after_append hi, Fragment.put, valuesAt_sparse, valuesAt_sparse, getD_modify hlt]
    split
    next h => simp [Row.valuesAt_append, h]
    next h => simp [h]

omit hi in
theorem WellFormed.get_append_dense (hf : WellFormed ⟨rows, cols, .dense values⟩)
    (hi : inside ⟨rows, cols, .dense values⟩ r c = true) (v : Value) (i j : ℕ) :
    (after ⟨rows, cols, .dense values⟩ (.append r c v)).get i j =
      if Item.isAt i j ⟨r, c, v⟩ then v else get ⟨rows, cols, .dense values⟩ i j := by
  have hc := (inside_iff.mp hi).2
  have hlt := hf.index_lt (inside_iff.mp hi).1 hc
  rw [hf.after_append hi, Fragment.put, get_dense, get_dense]
  by_cases hij : i < rows ∧ j < cols
  · rw [if_pos hij, if_pos hij, Array.getD_eq_getD_getElem?, Array.getElem?_setIfInBounds]
    simp only [index_inj hij.2 hc, if_pos hlt]
    by_cases hat : r = i ∧ c = j <;> simp [hat]
  · rw [if_neg hij, if_neg hij, if_neg]
    rw [Item.isAt_iff]
    rintro ⟨rfl, rfl⟩
    exact hij (inside_iff.mp hi)

theorem WellFormed.get_append (hf : f.WellFormed) (v : Value) (i j : ℕ) :
    (f.after (.append r c v)).get i j = if Item.isAt i j ⟨r, c, v⟩ then v else f.get i j := by
  cases hs : f.isSparse
  · obtain ⟨rows, cols, values | entries⟩ := f
    · exact hf.get_append_dense hi v i j
    · cases hs
  · rw [(hf.append hi v).get_eq, hf.valuesAt_append_sparse hi hs, hf.get_eq]
    split
    · rw [List.getLast?_append_of_ne_nil _ (List.cons_ne_nil _ _)]
      rfl
    · rw [List.append_nil]

end Append

section SortRows

theorem sameShape_sortRows (f : Fragment) : SameShape f f.sortRows := by
  obtain ⟨rows, cols, values | entries⟩ := f <;> exact ⟨rfl, rfl, rfl⟩

theorem WellFormed.sortRows (hf : f.WellFormed) : f.sortRows.WellFormed := by
  obtain ⟨rows, cols, values | entries⟩ := f
  · exact hf
  · refine ⟨Array.size_map.trans hf.1, fun row hrow e he ↦ ?_⟩
    obtain ⟨row', hrow', rfl⟩ := Array.mem_map.mp hrow
    exact hf.2 row' hrow' e (Row.mem_sort.mp he)

theorem valuesAt_sortRows (f : Fragment) (i j : ℕ) : f.sortRows.valuesAt i j = f.valuesAt i j := by
  obtain ⟨rows, cols, values | entries⟩ := f
  · rfl
  · change ((entries.map Row.sort).getD i .empty).valuesAt j = (entries.getD i .empty).valuesAt j
    rw [Array.getD_eq_getD_getElem?, Array.getD_eq_getD_getElem?, Array.getElem?_map]
    cases entries[i]? with
    | none => rfl
    | some row => exact Row.valuesAt_sort row j

theorem WellFormed.get_sortRows (hf : f.WellFormed) (i j : ℕ) : f.sortRows.get i j = f.get i j := by
  rw [hf.sortRows.get_eq, valuesAt_sortRows, hf.get_eq]

end SortRows

end Fragment

def Item.edit (item : Item) : Edit := .append item.row item.col item.value

namespace Fragment

variable {f : Fragment} {items : List Item}

section AppendAll

theorem sameShape_appendAll (f : Fragment) (items : List Item) :
    SameShape f (f.afterAll (items.map Item.edit)) := by
  induction items generalizing f with
  | nil => exact .refl f
  | cons item items ih => exact (f.sameShape_append item.row item.col item.value).trans (ih _)

variable (hi : ∀ item ∈ items, f.inside item.row item.col = true)
include hi

theorem WellFormed.appendAll (hf : f.WellFormed) :
    (f.afterAll (items.map Item.edit)).WellFormed := by
  induction items generalizing f with
  | nil => exact hf
  | cons item items ih =>
    obtain ⟨hitem, hitems⟩ := List.forall_mem_cons.mp hi
    have hs := f.sameShape_append item.row item.col item.value
    exact ih (fun item h ↦ (hs.inside_eq _ _).trans (hitems item h)) (hf.append hitem item.value)

/-- In sparse storage every position gets the values written to it, after those it had. -/
theorem WellFormed.valuesAt_appendAll (hf : f.WellFormed) (hs : f.isSparse = true) (i j : ℕ) :
    (f.afterAll (items.map Item.edit)).valuesAt i j =
      f.valuesAt i j ++ Item.valuesAt items i j := by
  induction items generalizing f with
  | nil => exact (List.append_nil _).symm
  | cons item items ih =>
    obtain ⟨hitem, hitems⟩ := List.forall_mem_cons.mp hi
    have hsame := f.sameShape_append item.row item.col item.value
    have h := ih (fun item h ↦ (hsame.inside_eq _ _).trans (hitems item h))
      (hf.append hitem item.value) (hsame.isSparse.trans hs)
    refine h.trans ?_
    rw [hf.valuesAt_append_sparse hitem hs, List.append_assoc, Item.valuesAt, Item.valuesAt,
      List.filter_cons]
    split <;> rfl

theorem WellFormed.get_appendAll (hf : f.WellFormed) (i j : ℕ) :
    (f.afterAll (items.map Item.edit)).get i j =
      ((Item.valuesAt items i j).getLast?).getD (f.get i j) := by
  induction items generalizing f with
  | nil => rfl
  | cons item items ih =>
    obtain ⟨hitem, hitems⟩ := List.forall_mem_cons.mp hi
    have hsame := f.sameShape_append item.row item.col item.value
    have h := ih (fun item h ↦ (hsame.inside_eq _ _).trans (hitems item h))
      (hf.append hitem item.value)
    refine h.trans ?_
    rw [hf.get_append hitem, Item.valuesAt, Item.valuesAt, List.filter_cons]
    by_cases hat : item.isAt i j = true
    · rw [if_pos hat, if_pos hat, List.map_cons, List.getLast?_cons, Option.getD_some]
    · rw [if_neg hat, if_neg hat]

end AppendAll

end Fragment

end TileBuffer
