import TileBuffer.Proofs.Fragment.Memory

namespace TileBuffer

namespace Edit

def inForm (sparse : Bool) : Edit → Edit
  | .append r c v => .append r c v
  | .set r c v => .set r c v
  | .sortRows => .sortRows
  | .reset rows cols _ => .reset rows cols sparse

/-- Memory has room for the shape of a reset, in either form. -/
def HasRoom : Edit → Prop
  | .reset rows cols _ => Fragment.HasRoom rows cols
  | _ => True

instance (e : Edit) : Decidable e.HasRoom :=
  match e with
  | .append .. => inferInstanceAs (Decidable True)
  | .set .. => inferInstanceAs (Decidable True)
  | .sortRows => inferInstanceAs (Decidable True)
  | .reset rows cols _ => inferInstanceAs (Decidable (Fragment.HasRoom rows cols))

theorem HasRoom.fits {e : Edit} (h : e.HasRoom) (sparse : Bool) : (e.inForm sparse).Fits := by
  cases e with
  | append | set | sortRows => trivial
  | reset rows cols s => exact h.allocate_eq sparse

end Edit

namespace Fragment

def fault? (f : Fragment) (e : Edit) : Option Fault :=
  match f.edit e with
  | .ok _ => none
  | .error fault => some fault

/-- What callers can read of two fragments is the same. -/
structure ReadsAs (f f' : Fragment) : Prop where
  rows : f'.rows = f.rows
  cols : f'.cols = f.cols
  get : ∀ i j, f'.get i j = f.get i j
  values : f'.values = f.values

variable {f f' f'' : Fragment} {rows cols r c : ℕ} {items : List Item}

section Writes

theorem after_of_fault {e : Edit} (he : e.Fits) (h : (f.fault? e).isSome = true) :
    f.after e = f := by
  have hresult := Option.isSome_iff_ne_none.mp h
  rw [fault?] at hresult
  rw [after]
  cases hf : f.edit e with
  | ok f' => simp [hf] at hresult
  | error fault =>
    cases e with
    | append | set | sortRows => rfl
    | reset rows cols sparse =>
      rw [Edit.Fits] at he
      rw [edit, zeros?, he] at hf
      cases hf

theorem WellFormed.fault?_append (hf : f.WellFormed) (r c : ℕ) (v : Value) :
    f.fault? (.append r c v) = if f.inside r c then none else some (.outsideFragment r c) := by
  rw [fault?, edit]
  by_cases hi : f.inside r c = true
  · rw [hf.append_eq hi, if_pos hi]
  · rw [append_of_not_inside hi, if_neg hi]

theorem WellFormed.fault?_set (hf : f.WellFormed) (r c : ℕ) (v : Value) :
    f.fault? (.set r c v) = if f.inside r c then none else some (.outsideFragment r c) := by
  rw [fault?, edit, Fragment.set]
  by_cases hi : f.inside r c = true
  · rw [hf.checkSlot_eq hi, if_pos hi]
    rfl
  · rw [checkSlot_of_not_inside hi, if_neg hi]
    rfl

theorem sameShape_set (f : Fragment) (r c : ℕ) (v : Value) :
    SameShape f (f.after (.set r c v)) := by
  rw [after, edit, set]
  cases f.checkSlot r c with
  | error fault => exact .refl f
  | ok => exact f.sameShape_put r c v _

theorem get_sparse {entries : Array Row} (i j : ℕ) : get ⟨rows, cols, .sparse entries⟩ i j =
    if inside ⟨rows, cols, .sparse entries⟩ i j then
      ((entries.getD i .empty).get? j).getD .zero else .zero := rfl

theorem WellFormed.get_set_sparse {entries : Array Row}
    (hf : WellFormed ⟨rows, cols, .sparse entries⟩)
    (hi : inside ⟨rows, cols, .sparse entries⟩ r c = true) (v : Value) (i j : ℕ) :
    (Fragment.after ⟨rows, cols, .sparse entries⟩ (.set r c v)).get i j =
      if Item.isAt i j ⟨r, c, v⟩ then v else get ⟨rows, cols, .sparse entries⟩ i j := by
  have hafter : Fragment.after ⟨rows, cols, .sparse entries⟩ (.set r c v) =
      ⟨rows, cols, .sparse (entries.modify r (·.set c v))⟩ := hf.after_set hi v
  have hlt : r < entries.size := hf.1.symm ▸ (inside_iff.mp hi).1
  rw [hafter, get_sparse, get_sparse, getD_modify hlt]
  by_cases hat : Item.isAt i j ⟨r, c, v⟩ = true
  · obtain ⟨rfl, rfl⟩ := Item.isAt_iff.mp hat
    have hi' : inside ⟨rows, cols, .sparse (entries.modify r (·.set c v))⟩ r c = true := hi
    rw [if_pos hi', if_pos rfl, if_pos hat, Row.get?_set, if_pos rfl, Option.getD_some]
  · rw [if_neg hat]
    by_cases hr : r = i
    · have hc : c ≠ j := fun hc ↦ hat (Item.isAt_iff.mpr ⟨hr, hc⟩)
      rw [if_pos hr, Row.get?_set, if_neg hc]
      rfl
    · rw [if_neg hr]
      rfl

theorem WellFormed.get_set (hf : f.WellFormed) (hi : f.inside r c = true) (v : Value) (i j : ℕ) :
    (f.after (.set r c v)).get i j = if Item.isAt i j ⟨r, c, v⟩ then v else f.get i j := by
  obtain ⟨rows, cols, values | entries⟩ := f
  · have happend := hf.get_append hi v i j
    rw [hf.after_append hi] at happend
    rwa [hf.after_set hi]
  · exact hf.get_set_sparse hi v i j

end Writes

namespace ReadsAs

theorem of_get (hf : f.WellFormed) (hf' : f'.WellFormed) (hrows : f'.rows = f.rows)
    (hcols : f'.cols = f.cols) (h : ∀ i j, f'.get i j = f.get i j) : f.ReadsAs f' :=
  ⟨hrows, hcols, h, hf.values_congr hf' hrows hcols h⟩

theorem symm (h : f.ReadsAs f') : f'.ReadsAs f :=
  ⟨h.rows.symm, h.cols.symm, fun i j ↦ (h.get i j).symm, h.values.symm⟩

theorem trans (h : f.ReadsAs f') (h' : f'.ReadsAs f'') : f.ReadsAs f'' :=
  ⟨h'.rows.trans h.rows, h'.cols.trans h.cols, fun i j ↦ (h'.get i j).trans (h.get i j),
    h'.values.trans h.values⟩

theorem sortRows (hf : f.WellFormed) : f.ReadsAs f.sortRows :=
  have hs := sameShape_sortRows f
  of_get hf hf.sortRows hs.rows hs.cols hf.get_sortRows

theorem zeros (rows cols : ℕ) (sparse sparse' : Bool) :
    (zeros rows cols sparse).ReadsAs (.zeros rows cols sparse') := by
  apply of_get (wellFormed_zeros rows cols sparse) (wellFormed_zeros rows cols sparse') rfl rfl
  intro i j
  rw [get_zeros, get_zeros]

variable (h : f.ReadsAs f')
include h

theorem inside_eq (r c : ℕ) : f'.inside r c = f.inside r c := by
  rw [inside, inside, h.rows, h.cols]

theorem write {g g' : Fragment} {item : Item} (hg : g.WellFormed) (hg' : g'.WellFormed)
    (hs : SameShape f g) (hs' : SameShape f' g')
    (hw : ∀ i j, g.get i j = if item.isAt i j then item.value else f.get i j)
    (hw' : ∀ i j, g'.get i j = if item.isAt i j then item.value else f'.get i j) :
    g.ReadsAs g' := by
  apply of_get hg hg'
  · exact hs'.rows.trans (h.rows.trans hs.rows.symm)
  · exact hs'.cols.trans (h.cols.trans hs.cols.symm)
  · intro i j
    rw [hw, hw', h.get]

variable (hf : f.WellFormed) (hf' : f'.WellFormed)
include hf hf'

theorem fault?_eq {e : Edit} (he : e.HasRoom) (s s' : Bool) :
    f'.fault? (e.inForm s') = f.fault? (e.inForm s) := by
  cases e with
  | append r c v =>
    rw [Edit.inForm, Edit.inForm, hf.fault?_append, hf'.fault?_append, h.inside_eq]
  | set r c v => rw [Edit.inForm, Edit.inForm, hf.fault?_set, hf'.fault?_set, h.inside_eq]
  | sortRows => rfl
  | reset rows cols sparse =>
    have hroom : Fragment.HasRoom rows cols := he
    rw [fault?, fault?, Edit.inForm, Edit.inForm, edit, edit, hroom.zeros?_eq, hroom.zeros?_eq]

theorem after {e : Edit} (he : e.HasRoom) (s s' : Bool) :
    (f.after (e.inForm s)).ReadsAs (f'.after (e.inForm s')) := by
  cases e with
  | append r c v =>
    by_cases hi : f.inside r c = true
    · have hi' := (h.inside_eq r c).trans hi
      exact h.write (hf.append hi v) (hf'.append hi' v) (f.sameShape_append r c v)
        (f'.sameShape_append r c v) (hf.get_append hi v) (hf'.get_append hi' v)
    · have hi' : ¬f'.inside r c = true := h.inside_eq r c ▸ hi
      rwa [Edit.inForm, Edit.inForm, (after_of_not_inside v hi).1, (after_of_not_inside v hi').1]
  | set r c v =>
    by_cases hi : f.inside r c = true
    · have hi' := (h.inside_eq r c).trans hi
      exact h.write (hf.set hi v) (hf'.set hi' v) (f.sameShape_set r c v)
        (f'.sameShape_set r c v) (hf.get_set hi v) (hf'.get_set hi' v)
    · have hi' : ¬f'.inside r c = true := h.inside_eq r c ▸ hi
      rwa [Edit.inForm, Edit.inForm, (after_of_not_inside v hi).2, (after_of_not_inside v hi').2]
  | sortRows => exact (sortRows hf).symm.trans (h.trans (sortRows hf'))
  | reset rows cols sparse =>
    rw [Edit.inForm, Edit.inForm, after_reset (he.fits s), after_reset (he.fits s')]
    exact .zeros rows cols s s'

theorem afterAll {edits : List Edit} (he : ∀ e ∈ edits, e.HasRoom) (s s' : Bool) :
    (f.afterAll (edits.map (Edit.inForm s))).ReadsAs
      (f'.afterAll (edits.map (Edit.inForm s'))) := by
  induction edits generalizing f f' with
  | nil => exact h
  | cons e edits ih =>
    obtain ⟨he, hes⟩ := List.forall_mem_cons.mp he
    exact ih (h.after hf hf' he s s') (hf.after (he.fits s)) (hf'.after (he.fits s')) hes

end ReadsAs

/-- A well-formed fragment of a form and a shape that memory has room for. -/
structure Roomy (sparse : Bool) (f : Fragment) : Prop where
  wellFormed : f.WellFormed
  isSparse : f.isSparse = sparse
  hasRoom : HasRoom f.rows f.cols

namespace Roomy

variable {sparse : Bool}

theorem zeros (h : HasRoom rows cols) (sparse : Bool) : (zeros rows cols sparse).Roomy sparse :=
  ⟨wellFormed_zeros rows cols sparse, isSparse_zeros rows cols sparse, h⟩

theorem of_sameShape (h : f.Roomy sparse) (hf' : f'.WellFormed) (hs : SameShape f f') :
    f'.Roomy sparse :=
  ⟨hf', hs.isSparse.trans h.isSparse, hs.rows ▸ hs.cols ▸ h.hasRoom⟩

theorem after (h : f.Roomy sparse) {e : Edit} (he : e.HasRoom) :
    (f.after (e.inForm sparse)).Roomy sparse := by
  have hf := h.wellFormed.after (he.fits sparse)
  cases e with
  | append r c v => exact h.of_sameShape hf (f.sameShape_append r c v)
  | set r c v => exact h.of_sameShape hf (f.sameShape_set r c v)
  | sortRows => exact h.of_sameShape hf (sameShape_sortRows f)
  | reset rows cols _ =>
    rw [Edit.inForm, after_reset (he.fits sparse)]
    exact zeros he sparse

theorem afterAll (h : f.Roomy sparse) {edits : List Edit} (he : ∀ e ∈ edits, e.HasRoom) :
    (f.afterAll (edits.map (Edit.inForm sparse))).Roomy sparse := by
  induction edits generalizing f with
  | nil => exact h
  | cons e edits ih =>
    obtain ⟨he, hes⟩ := List.forall_mem_cons.mp he
    exact ih (h.after he) hes

theorem values?_eq (h : f.Roomy sparse) : f.values? .words = .ok f.values :=
  h.wellFormed.values?_eq fun _ ↦ allocate_dense h.hasRoom.1

end Roomy

section Items

def outside? (f : Fragment) (items : List Item) : Option Item :=
  items.find? fun item ↦ !f.inside item.row item.col

theorem outside?_eq_none_iff : f.outside? items = none ↔
    ∀ item ∈ items, f.inside item.row item.col = true := by
  simp [outside?]

theorem SameShape.outside?_eq (h : SameShape f f') (items : List Item) :
    f'.outside? items = f.outside? items := by
  rw [outside?, outside?]
  congr 1
  funext item
  rw [h.inside_eq]

theorem WellFormed.appendItems_eq (hf : f.WellFormed) (items : List Item) : f.appendItems items =
    match f.outside? items with
    | some item => .error (.cellOutside (item.row + 1) (item.col + 1) f.rows f.cols)
    | none => .ok (f.afterAll (items.map Item.edit)) := by
  induction items generalizing f with
  | nil => rfl
  | cons item items ih =>
    rw [Fragment.appendItems, outside?, List.find?_cons]
    by_cases hi : f.inside item.row item.col = true
    · have hs : SameShape f (f.after item.edit) := f.sameShape_append item.row item.col item.value
      have happend : f.append item.row item.col item.value = .ok (f.after item.edit) :=
        hf.append_eq hi item.value
      rw [happend, hi]
      have hrest : (f.after item.edit).WellFormed := hf.append hi item.value
      dsimp only [Bool.not_true]
      rw [ih hrest, hs.outside?_eq, hs.rows, hs.cols]
      rfl
    · rw [append_of_not_inside hi, Bool.eq_false_iff.mpr hi]
      rfl

variable (hroom : HasRoom rows cols)
include hroom

theorem ofItems_of_outside {item : Item} (h : (zeros rows cols true).outside? items = some item) :
    ofItems rows cols items .words =
      .error (.rejected (.cellOutside (item.row + 1) (item.col + 1) rows cols)) := by
  rw [hroom.ofItems_eq, ofItems_eq, (wellFormed_zeros rows cols true).appendItems_eq, h]
  rfl

theorem ofItems_of_inside (h : (zeros rows cols true).outside? items = none) :
    ∃ f, ofItems rows cols items .words = .ok f ∧ f.values? .words = .ok f.values ∧
      ((zeros rows cols false).afterAll (items.map Item.edit)).ReadsAs f := by
  have hi := outside?_eq_none_iff.mp h
  have hz := wellFormed_zeros rows cols true
  have hedits : ∀ e ∈ items.map Item.edit, e.HasRoom := by
    intro e he
    obtain ⟨item, -, rfl⟩ := List.mem_map.mp he
    trivial
  have hread := (ReadsAs.zeros rows cols false true).afterAll (wellFormed_zeros rows cols false) hz
    hedits false true
  have hroomy := (Roomy.zeros hroom true).afterAll hedits
  have hform (sparse : Bool) :
      (items.map Item.edit).map (Edit.inForm sparse) = items.map Item.edit := by
    rw [List.map_map]
    exact List.map_congr_left fun item _ ↦ rfl
  rw [hform] at hroomy
  rw [hform, hform] at hread
  have hsorted := hroomy.of_sameShape hroomy.wellFormed.sortRows (sameShape_sortRows _)
  refine ⟨_, ?_, hsorted.values?_eq, hread.trans (.sortRows hroomy.wellFormed)⟩
  rw [hroom.ofItems_eq, ofItems_eq, hz.appendItems_eq, h]
  rfl

end Items

/-- After the same edits, read from sparse and from dense storage, everything is the same; the next
edit fails on both or on neither, and leaves both as they are when it fails. Items in any order
make a sparse fragment exactly when all lie inside, and it reads as dense storage that was given
them in that order; else the first item outside is refused. Memory has room for all shapes here. -/
theorem sparse_reads_as_dense {rows cols : ℕ} (hroom : HasRoom rows cols) :
    zeros? .words rows cols true = .ok (zeros rows cols true) ∧
    zeros? .words rows cols false = .ok (zeros rows cols false) ∧
    (∀ edits : List Edit, (∀ e ∈ edits, e.HasRoom) →
      let sparse := (zeros rows cols true).afterAll (edits.map (Edit.inForm true))
      let dense := (zeros rows cols false).afterAll (edits.map (Edit.inForm false))
      sparse.isSparse = true ∧ dense.isSparse = false ∧ dense.ReadsAs sparse ∧
        (∀ i j, dense.get? i j = .ok (dense.get i j) ∧ sparse.get? i j = .ok (dense.get i j)) ∧
        dense.values? .words = .ok dense.values ∧ sparse.values? .words = .ok dense.values ∧
        ∀ e : Edit, e.HasRoom →
          sparse.fault? (e.inForm true) = dense.fault? (e.inForm false) ∧
          ((sparse.fault? (e.inForm true)).isSome = true →
            sparse.after (e.inForm true) = sparse ∧ dense.after (e.inForm false) = dense)) ∧
    ∀ items : List Item,
      ((∃ f, ofItems rows cols items .words = .ok f) ↔
        ∀ item ∈ items, item.row < rows ∧ item.col < cols) ∧
      match (zeros rows cols true).outside? items with
      | some item => ofItems rows cols items .words =
          .error (.rejected (.cellOutside (item.row + 1) (item.col + 1) rows cols))
      | none => ∃ f, ofItems rows cols items .words = .ok f ∧ f.values? .words = .ok f.values ∧
        ((zeros rows cols false).afterAll (items.map Item.edit)).ReadsAs f := by
  refine ⟨hroom.zeros?_eq true, hroom.zeros?_eq false, fun edits hedits ↦ ?_, fun items ↦ ?_⟩
  · intro sparse dense
    have hread : dense.ReadsAs sparse := (ReadsAs.zeros rows cols false true).afterAll
      (wellFormed_zeros rows cols false) (wellFormed_zeros rows cols true) hedits false true
    have hs : sparse.Roomy true := (Roomy.zeros hroom true).afterAll hedits
    have hd : dense.Roomy false := (Roomy.zeros hroom false).afterAll hedits
    refine ⟨hs.isSparse, hd.isSparse, hread, fun i j ↦ ⟨hd.wellFormed.get?_eq i j, ?_⟩,
      hd.values?_eq, hread.values ▸ hs.values?_eq, fun e he ↦ ?_⟩
    · rw [hs.wellFormed.get?_eq, hread.get]
    · have hfault := hread.fault?_eq hd.wellFormed hs.wellFormed he false true
      exact ⟨hfault, fun h ↦ ⟨after_of_fault (he.fits true) h,
        after_of_fault (he.fits false) (hfault ▸ h)⟩⟩
  · have hin : (∀ item ∈ items, item.row < rows ∧ item.col < cols) ↔
        (zeros rows cols true).outside? items = none := by
      simp only [outside?_eq_none_iff, inside_iff, rows_zeros, cols_zeros]
    rw [hin]
    cases h : (zeros rows cols true).outside? items with
    | some item =>
      have hrefused := ofItems_of_outside hroom h
      refine ⟨⟨fun ⟨f, hf⟩ ↦ ?_, nofun⟩, hrefused⟩
      rw [hrefused] at hf
      cases hf
    | none =>
      obtain ⟨f, hf, hvalues, hread⟩ := ofItems_of_inside hroom h
      exact ⟨⟨fun _ ↦ rfl, fun _ ↦ ⟨f, hf⟩⟩, f, hf, hvalues, hread⟩

/-- A column written twice and set after a sort, a write outside, and a start over. -/
theorem sparse_reads_as_dense_reset :
    let v : Value := ⟨0x7ff8000000000001⟩
    let edits : List Edit := [.append 0 1 v, .append 0 0 v, .append 0 1 .zero, .sortRows,
      .set 0 1 v, .append 1 0 v, .reset 2 3 true, .append 1 2 v]
    let sparse := (zeros 1 2 true).afterAll (edits.map (Edit.inForm true))
    let dense := (zeros 1 2 false).afterAll (edits.map (Edit.inForm false))
    HasRoom 1 2 ∧ (∀ e ∈ edits, e.HasRoom) ∧ dense.ReadsAs sparse ∧
      sparse.values? .words = .ok #[.zero, .zero, .zero, .zero, .zero, v] ∧
      (∃ f, ofItems 1 2 [⟨0, 1, v⟩, ⟨0, 0, v⟩] .words = .ok f) ∧
      ofItems 1 2 [⟨0, 1, v⟩, ⟨0, 2, v⟩] .words = .error (.rejected (.cellOutside 1 3 1 2)) := by
  intro v edits sparse dense
  have hroom : HasRoom 1 2 := by decide
  have hedits : ∀ e ∈ edits, e.HasRoom := by decide
  obtain ⟨-, -, hread, hitems⟩ := sparse_reads_as_dense hroom
  obtain ⟨-, -, hreads, -, -, hvalues, -⟩ := hread edits hedits
  have hdense : dense.values = #[.zero, .zero, .zero, .zero, .zero, v] := by decide
  exact ⟨hroom, hedits, hreads, hdense ▸ hvalues, (hitems _).1.mpr (by decide),
    (hitems [⟨0, 1, v⟩, ⟨0, 2, v⟩]).2⟩

/-- Shapes that memory has room for in one form only; a reset given up leaves a change. -/
theorem reset_beyond_memory :
    let wide : Edit := .reset 1 (2 ^ 60) false
    let empty : Edit := .reset (2 ^ 58) 0 false
    let sparse := zeros 1 1 true
    let dense := zeros 1 1 false
    dense.fault? (wide.inForm false) = some .capacityOverflow ∧
      dense.after (wide.inForm false) ≠ dense ∧ sparse.fault? (wide.inForm true) = none ∧
      sparse.fault? (empty.inForm true) = some .capacityOverflow ∧
      dense.fault? (empty.inForm false) = none := by decide

end Fragment

end TileBuffer
