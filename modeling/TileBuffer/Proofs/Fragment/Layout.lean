import TileBuffer.Proofs.Fragment.Cursor
import TileBuffer.Proofs.Fragment.Vectors

namespace TileBuffer

inductive Layout.Storage
  | dense (values : List Value)
  | sparse (rows : List Vectors)

structure Layout where
  rows : ℕ
  cols : ℕ
  storage : Layout.Storage

namespace Layout

def zeros (rows cols : ℕ) (sparse : Bool) : Layout :=
  ⟨rows, cols,
    if sparse then .sparse (List.replicate rows .empty)
    else .dense (List.replicate (rows * cols) .zero)⟩

def inside (l : Layout) (r c : ℕ) : Bool := r < l.rows && c < l.cols

/-- Writes a value, in sparse storage by a change of its row. -/
def write (l : Layout) (r c : ℕ) (v : Value) (change : Vectors → Except Trap Vectors) :
    Except Trap Layout :=
  if l.inside r c then
    match l.storage with
    | .dense values => do
      let values ← writeAt values (r * l.cols + c) v
      return { l with storage := .dense values }
    | .sparse rows => do
      let row ← change (← readAt rows r)
      let rows ← writeAt rows r row
      return { l with storage := .sparse rows }
  else .error (.fault (.outsideFragment r c))

def sortRows (l : Layout) : Except Trap Layout :=
  match l.storage with
  | .dense _ => .ok l
  | .sparse rows => do
    let rows ← rows.mapM Vectors.sort
    return { l with storage := .sparse rows }

def zeros? (rows cols : ℕ) (sparse : Bool) : Except Trap Layout :=
  match Fragment.allocate .words rows cols sparse with
  | .ok () => .ok (zeros rows cols sparse)
  | .error fault => .error (.fault fault)

def edit (l : Layout) : Edit → Except Trap Layout
  | .append r c v => l.write r c v fun row ↦ .ok (row.append c v)
  | .set r c v => l.write r c v fun row ↦ row.set c v
  | .sortRows => l.sortRows
  | .reset rows cols sparse => zeros? rows cols sparse

def abandon (l : Layout) : Edit → Layout
  | .reset rows cols _ => { l with rows := rows, cols := cols }
  | _ => l

def after (l : Layout) (e : Edit) : Layout :=
  match l.edit e with
  | .ok l' => l'
  | .error _ => l.abandon e

def get (l : Layout) (r c : ℕ) : Except Trap Value :=
  if l.inside r c then
    match l.storage with
    | .dense values => readAt values (r * l.cols + c)
    | .sparse rows => do
      let found ← (← readAt rows r).get? c
      return found.getD .zero
  else .ok .zero

/-- Every value, row by row, as written one after the other over zeros. -/
def values (l : Layout) : Except Trap (List Value) :=
  match l.storage with
  | .dense values => .ok values
  | .sparse rows =>
    let items := rows.zipIdx.flatMap fun (r, i) ↦
      (r.cols.zip r.values).map fun (c, v) ↦ (⟨i, c, v⟩ : Item)
    match Fragment.allocate .words l.rows l.cols false with
    | .ok () => items.foldlM (fun out item ↦ writeAt out (item.row * l.cols + item.col) item.value)
        (List.replicate (l.rows * l.cols) .zero)
    | .error fault => .error (.fault fault)

def loop (n : ℕ) (step : ℕ → Except Trap (List Item)) : Except Trap (List Item) :=
  ((List.range n).mapM step).map List.flatten

def keep (item : Item) : List Item := if item.value.isZero then [] else [item]

def place (cols k : ℕ) : Except Trap (ℕ × ℕ) :=
  if cols = 0 then .error (.fault .zeroDivisor) else .ok (k / cols, k % cols)

def rowNonzeros (i : ℕ) (row : Vectors) : Except Trap (List Item) :=
  loop row.cols.length fun k ↦ do
    let v ← readAt row.values k
    let c ← readAt row.cols k
    return keep ⟨i, c, v⟩

def nonzeros (l : Layout) : Except Trap (List Item) :=
  match l.storage with
  | .dense values =>
    loop values.length fun k ↦ do
      let v ← readAt values k
      let (i, j) ← place l.cols k
      return keep ⟨i, j, v⟩
  | .sparse rows =>
    loop rows.length fun i ↦ do
      let row ← readAt rows i
      rowNonzeros i row

def ofValues (rows cols : ℕ) (values : List Value) : Except Trap Layout :=
  match Memory.words.multiply rows cols with
  | .ok count =>
    if values.length = count then .ok ⟨rows, cols, .dense values⟩
    else .error (.rejected (.shapeMismatch count values.length))
  | .error fault => .error (.fault fault)

def appendItems (l : Layout) : List Item → Except Trap Layout
  | [] => .ok l
  | item :: items =>
    if l.inside item.row item.col then do
      let l' ← l.edit item.edit
      l'.appendItems items
    else .error (.rejected (.cellOutside (item.row + 1) (item.col + 1) l.rows l.cols))

def ofItems (rows cols : ℕ) (items : List Item) : Except Trap Layout := do
  let l ← zeros? rows cols true
  let l ← l.appendItems items
  l.sortRows

def ofView (v : View) : Layout := ⟨v.rows, v.cols, .dense v.values.toList⟩

end Layout

namespace Fragment

variable {f : Fragment} {r c : ℕ} {v : Value} {items : List Item}

def layout (f : Fragment) : Layout :=
  ⟨f.rows, f.cols,
    match f.storage with
    | .dense values => .dense values.toList
    | .sparse rows => .sparse (rows.toList.map Row.vectors)⟩

theorem inside_layout (f : Fragment) (r c : ℕ) : f.layout.inside r c = f.inside r c := rfl

theorem layout_zeros (rows cols : ℕ) (sparse : Bool) :
    (zeros rows cols sparse).layout = .zeros rows cols sparse := by
  cases sparse
  · simp [layout, zeros, Layout.zeros]
  · simp [layout, zeros, Layout.zeros, Row.vectors, Row.empty, Vectors.empty]

section Edits

variable {rows cols : ℕ} {values : Array Value} {entries : Array Row}

theorem write_of_not_inside (hi : ¬f.inside r c = true) (change : Vectors → Except Trap Vectors) :
    f.layout.write r c v change = .error (.fault (.outsideFragment r c)) := by
  rw [Layout.write, inside_layout, if_neg hi]

theorem WellFormed.write_dense (hf : WellFormed ⟨rows, cols, .dense values⟩)
    (hi : inside ⟨rows, cols, .dense values⟩ r c = true)
    (change : Vectors → Except Trap Vectors) :
    (layout ⟨rows, cols, .dense values⟩).write r c v change =
      .ok (layout ⟨rows, cols, .dense (values.setIfInBounds (r * cols + c) v)⟩) := by
  have hlt : r * cols + c < values.toList.length :=
    hf.index_lt (inside_iff.mp hi).1 (inside_iff.mp hi).2
  rw [Layout.write, inside_layout, if_pos hi]
  simp only [layout, Array.toList_setIfInBounds]
  rw [writeAt_eq hlt]
  rfl

theorem map_vectors_modify (hr : r < entries.size) (g : Row → Row) :
    (entries.modify r g).toList.map Row.vectors =
      (entries.toList.map Row.vectors).set r (g entries[r]).vectors := by
  apply List.ext_getElem
  · simp
  · intro k hk hk'
    simp only [Array.toList_modify, List.getElem_map, List.getElem_modify, List.getElem_set,
      Array.getElem_toList]
    split
    next h =>
      subst h
      rfl
    next => rfl

/-- A change of a row that is sound on the vectors is one on the fragment. -/
theorem WellFormed.write_sparse (hf : WellFormed ⟨rows, cols, .sparse entries⟩)
    (hi : inside ⟨rows, cols, .sparse entries⟩ r c = true) {g : Row → Row}
    {change : Vectors → Except Trap Vectors}
    (hg : ∀ row : Row, change row.vectors = .ok (g row).vectors) :
    (layout ⟨rows, cols, .sparse entries⟩).write r c v change =
      .ok (layout ⟨rows, cols, .sparse (entries.modify r g)⟩) := by
  have hlt : r < entries.size := hf.1.symm ▸ (inside_iff.mp hi).1
  rw [Layout.write, inside_layout, if_pos hi]
  simp only [layout, map_vectors_modify hlt]
  rw [readAt_eq (a := entries[r].vectors) (by simp [hlt])]
  change ((change entries[r].vectors).bind _) = _
  rw [hg]
  change ((writeAt _ r _).bind _) = _
  rw [writeAt_eq (by simpa using hlt)]
  rfl

theorem layout_sortRows (f : Fragment) : f.layout.sortRows = .ok f.sortRows.layout := by
  obtain ⟨rows, cols, values | entries⟩ := f
  · rfl
  · have hsort : Vectors.sort ∘ Row.vectors = fun r ↦ pure r.sort.vectors :=
      funext fun r ↦ r.sort_vectors
    change ((entries.toList.map Row.vectors).mapM Vectors.sort).bind _ = _
    rw [List.mapM_map, hsort, List.mapM_pure]
    simp only [layout, sortRows, Array.toList_map, List.map_map]
    rfl

theorem layout_zeros? (rows cols : ℕ) (sparse : Bool) : Layout.zeros? rows cols sparse =
    ((zeros? .words rows cols sparse).map layout).mapError .fault := by
  rw [Layout.zeros?, zeros?]
  cases allocate .words rows cols sparse with
  | error fault => rfl
  | ok => exact congrArg Except.ok (layout_zeros rows cols sparse).symm

theorem WellFormed.layout_edit (hf : f.WellFormed) (e : Edit) :
    f.layout.edit e = ((f.edit e).map layout).mapError .fault := by
  cases e with
  | append r c v =>
    rw [Layout.edit, edit]
    by_cases hi : f.inside r c = true
    · rw [hf.append_eq hi, hf.after_append hi]
      obtain ⟨rows, cols, values | entries⟩ := f
      · exact hf.write_dense hi _
      · exact hf.write_sparse hi fun row ↦ congrArg _ (row.vectors_append c v).symm
    · rw [append_of_not_inside hi]
      exact write_of_not_inside hi _
  | set r c v =>
    rw [Layout.edit, edit, Fragment.set]
    by_cases hi : f.inside r c = true
    · rw [hf.checkSlot_eq hi]
      obtain ⟨rows, cols, values | entries⟩ := f
      · exact hf.write_dense hi _
      · exact hf.write_sparse hi fun row ↦ row.set_vectors c v
    · rw [checkSlot_of_not_inside hi]
      exact write_of_not_inside hi _
  | sortRows => exact f.layout_sortRows
  | reset rows cols sparse => exact layout_zeros? rows cols sparse

theorem layout_abandon (f : Fragment) (e : Edit) : f.layout.abandon e = (f.abandon e).layout := by
  cases e <;> rfl

theorem WellFormed.layout_after (hf : f.WellFormed) (e : Edit) :
    f.layout.after e = (f.after e).layout := by
  rw [Layout.after, hf.layout_edit, Fragment.after]
  cases f.edit e with
  | ok f' => rfl
  | error fault => exact f.layout_abandon e

end Edits

section Reads

variable {rows cols : ℕ}

theorem WellFormed.layout_get (hf : f.WellFormed) (r c : ℕ) :
    f.layout.get r c = .ok (f.get r c) := by
  rw [Layout.get, Fragment.get, inside_layout]
  split
  next hi =>
    obtain ⟨hr, hc⟩ := inside_iff.mp hi
    obtain ⟨rows, cols, values | entries⟩ := f
    · have hlt := hf.index_lt hr hc
      exact readAt_eq (by simp [layout, hlt])
    · have hlt : r < entries.size := hf.1.symm ▸ hr
      have hrow : entries.getD r .empty = entries[r] := by simp [hlt]
      simp only [layout, hrow]
      rw [readAt_eq (a := entries[r].vectors) (by simp [hlt])]
      change (((entries[r].vectors).get? c).bind _) = _
      rw [Row.get?_vectors]
      rfl
  next => rfl

theorem foldlM_write {cols : ℕ} {out : Array Value}
    (h : ∀ item ∈ items, item.row * cols + item.col < out.size) :
    items.foldlM (fun out item ↦ writeAt out (item.row * cols + item.col) item.value) out.toList =
      .ok (items.foldl (write cols) out).toList := by
  induction items generalizing out with
  | nil => rfl
  | cons item items ih =>
    obtain ⟨hitem, hitems⟩ := List.forall_mem_cons.mp h
    rw [List.foldlM_cons, writeAt_eq hitem, List.foldl_cons]
    have hsize : (write cols out item).size = out.size := Array.size_setIfInBounds
    have hrest := ih (hsize ▸ hitems)
    rwa [write, Array.toList_setIfInBounds] at hrest

theorem WellFormed.layout_values (hf : f.WellFormed) :
    f.layout.values = ((f.values? .words).map Array.toList).mapError .fault := by
  obtain ⟨rows, cols, values | entries⟩ := f
  · rfl
  · have hitems : ((entries.toList.map Row.vectors).zipIdx.flatMap fun (r, i) ↦
        (r.cols.zip r.values).map fun (c, v) ↦ (⟨i, c, v⟩ : Item)) =
          stored ⟨rows, cols, .sparse entries⟩ := by
      simp only [stored_sparse, List.zipIdx_map, List.flatMap_map, Prod.map_fst, Prod.map_snd,
        Row.zip_vectors, List.map_map]
      rfl
    simp only [Layout.values, layout, hitems]
    cases ha : allocate .words rows cols false with
    | error fault =>
      rw [values?, ha]
      rfl
    | ok =>
      rw [hf.values?_eq fun _ ↦ ha, values_sparse]
      dsimp only
      rw [← Array.toList_replicate]
      refine foldlM_write fun item h ↦ ?_
      rw [Array.size_replicate]
      exact hf.index_lt_of_mem_stored h

theorem mapM_range_eq {n : ℕ} {step : ℕ → Except Trap (List Item)} {g : ℕ → List Item}
    (h : ∀ k < n, step k = .ok (g k)) :
    (List.range n).mapM step = .ok ((List.range n).map g) := by
  induction n with
  | zero => rfl
  | succ n ih =>
    rw [List.range_succ, List.mapM_append, List.map_append, ih fun k hk ↦ h k (by omega)]
    change (([n].mapM step).bind _) = _
    rw [List.mapM_cons, h n (Nat.lt_succ_self n)]
    rfl

theorem loop_eq {α : Type} (xs : List α) (d : α) {step : ℕ → Except Trap (List Item)}
    {g : α → ℕ → List Item} (h : ∀ k a, xs[k]? = some a → step k = .ok (g a k)) :
    Layout.loop xs.length step = .ok (xs.zipIdx.flatMap fun (a, k) ↦ g a k) := by
  rw [Layout.loop, mapM_range_eq (g := fun k ↦ g (xs.getD k d) k) fun k hk ↦ h k _ (by simp [hk]),
    zipIdx_eq_map_range xs d, List.flatMap_map]
  rfl

theorem flatMap_keep (items : List Item) :
    items.flatMap Layout.keep = items.filter fun item ↦ !item.value.isZero := by
  induction items with
  | nil => rfl
  | cons item items ih =>
    rw [List.flatMap_cons, ih, Layout.keep]
    cases h : item.value.isZero <;> simp [h]

theorem nonzeros_layout_dense {values : Array Value}
    (hf : WellFormed ⟨rows, cols, .dense values⟩) :
    (layout ⟨rows, cols, .dense values⟩).nonzeros =
      .ok ((stored ⟨rows, cols, .dense values⟩).flatMap Layout.keep) := by
  rw [stored_dense, List.flatMap_map]
  refine loop_eq (g := fun v k ↦ Layout.keep ⟨k / cols, k % cols, v⟩) values.toList .zero ?_
  intro k v hk
  have hcols : cols ≠ 0 := by
    rintro rfl
    have hlt := (List.getElem?_eq_some_iff.mp hk).1
    rw [Array.length_toList, hf] at hlt
    exact absurd hlt (Nat.not_lt_zero k)
  have hplace : Layout.place cols k = .ok (k / cols, k % cols) := if_neg hcols
  rw [readAt_eq hk]
  change (Layout.place cols k).bind _ = _
  rw [hplace]
  rfl

theorem rowNonzeros_vectors (i : ℕ) (row : Row) : Layout.rowNonzeros i row.vectors =
    .ok ((row.entries.toList.map fun e ↦ (⟨i, e.col, e.value⟩ : Item)).flatMap Layout.keep) := by
  have hlength : row.vectors.cols.length = row.entries.toList.length := List.length_map _
  have hfst : row.entries.toList = row.entries.toList.zipIdx.map Prod.fst :=
    (List.zipIdx_map_fst 0 row.entries.toList).symm
  rw [Layout.rowNonzeros, hlength, hfst, List.map_map, List.flatMap_map, ← hfst]
  refine loop_eq (g := fun e _ ↦ Layout.keep ⟨i, e.col, e.value⟩) row.entries.toList default ?_
  intro k e he
  rw [readAt_eq (a := e.value) (by rw [Row.vectors, List.getElem?_map, he]; rfl),
    readAt_eq (a := e.col) (by rw [Row.vectors, List.getElem?_map, he]; rfl)]
  rfl

theorem nonzeros_layout_sparse {entries : Array Row} :
    (layout ⟨rows, cols, .sparse entries⟩).nonzeros =
      .ok ((stored ⟨rows, cols, .sparse entries⟩).flatMap Layout.keep) := by
  have hlength : (entries.toList.map Row.vectors).length = entries.toList.length :=
    List.length_map _
  rw [stored_sparse, List.flatMap_assoc]
  simp only [Layout.nonzeros, layout, hlength]
  refine loop_eq (g := fun row i ↦
    (row.entries.toList.map fun e ↦ (⟨i, e.col, e.value⟩ : Item)).flatMap Layout.keep)
    entries.toList .empty ?_
  intro i row hi
  rw [readAt_eq (a := row.vectors) (by rw [List.getElem?_map, hi]; rfl)]
  exact rowNonzeros_vectors i row

theorem WellFormed.layout_nonzeros (hf : f.WellFormed) : f.layout.nonzeros = .ok f.nonzeros := by
  rw [nonzeros_eq, ← flatMap_keep]
  obtain ⟨rows, cols, values | entries⟩ := f
  · exact nonzeros_layout_dense hf
  · exact nonzeros_layout_sparse

end Reads

end Fragment

end TileBuffer
