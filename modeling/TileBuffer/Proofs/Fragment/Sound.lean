import TileBuffer.Proofs.Flush
import TileBuffer.Proofs.Fragment.Layout

namespace TileBuffer

section Results

variable {α β ε : Type} {x : Except ε α}

theorem exists_of_map_eq_ok {g : α → β} {b : β} (h : x.map g = .ok b) :
    ∃ a, x = .ok a ∧ g a = b := by
  cases x with
  | error e => cases h
  | ok a => exact ⟨a, rfl, Except.ok.inj h⟩

end Results

namespace Layout

/-- A layout of some constructor, after some edits, those that fail included. Only resets that
memory has no room for are left out. -/
inductive Built : Layout → Prop
  | zeros (rows cols : ℕ) (sparse : Bool) : Built (.zeros rows cols sparse)
  | ofValues {rows cols : ℕ} {values : List Value} {l : Layout}
      (h : ofValues rows cols values = .ok l) : Built l
  | ofItems {rows cols : ℕ} {items : List Item} {l : Layout}
      (h : ofItems rows cols items = .ok l) : Built l
  | ofView (v : View) : Built (.ofView v)
  | after {l : Layout} (h : Built l) {e : Edit} (he : e.Fits) : Built (l.after e)

/-- Dense storage has every value; sparse storage has every row, with a value for each column, and
no column behind the last one. -/
def Sound (l : Layout) : Prop :=
  match l.storage with
  | .dense values => values.length = l.rows * l.cols
  | .sparse rows => rows.length = l.rows ∧
    ∀ r ∈ rows, r.cols.length = r.values.length ∧ ∀ c ∈ r.cols, c < l.cols

/-- No index is behind the end of a vector, and nothing outside is reported. Only what is written
outside is refused, and shapes that memory has no room for. -/
structure Safe (l : Layout) : Prop where
  edit : ∀ e t, l.edit e = .error t →
    (∃ r c v, (e = .append r c v ∨ e = .set r c v) ∧ l.inside r c = false ∧
      t = .fault (.outsideFragment r c)) ∨
    ∃ rows cols sparse fault, e = .reset rows cols sparse ∧
      Fragment.allocate .words rows cols sparse = .error fault ∧ t = .fault fault
  get : ∀ r c, ∃ v, l.get r c = .ok v ∧ (l.inside r c = false → v = .zero)
  values : match l.values with
    | .ok values => values.length = l.rows * l.cols
    | .error t => ∃ fault, Fragment.allocate .words l.rows l.cols false = .error fault ∧
        t = .fault fault
  nonzeros : ∃ items, l.nonzeros = .ok items ∧
    ∀ item ∈ items, l.inside item.row item.col = true

end Layout

namespace Fragment

variable {f : Fragment} {items : List Item}

theorem WellFormed.layout_appendItems (hf : f.WellFormed) (items : List Item) :
    f.layout.appendItems items = ((f.appendItems items).map layout).mapError .rejected := by
  induction items generalizing f with
  | nil => rfl
  | cons item items ih =>
    rw [Layout.appendItems, Fragment.appendItems, inside_layout]
    by_cases hi : f.inside item.row item.col = true
    · have hedit : f.edit item.edit = .ok (f.after item.edit) := hf.append_eq hi item.value
      rw [if_pos hi, hf.layout_edit, hedit, hf.append_eq hi]
      exact ih (hf.append hi item.value)
    · rw [if_neg hi, append_of_not_inside hi]
      rfl

theorem layout_ofItems (rows cols : ℕ) (items : List Item) : Layout.ofItems rows cols items =
    (ofItems rows cols items .words).map layout := by
  rw [Layout.ofItems, layout_zeros?, ofItems, zeros?]
  cases allocate .words rows cols true with
  | error fault => rfl
  | ok =>
    change (((zeros rows cols true).layout.appendItems items).bind _) = _
    rw [(wellFormed_zeros rows cols true).layout_appendItems]
    cases h : (zeros rows cols true).appendItems items with
    | error rejection => simp only [Except.map, h]; rfl
    | ok f => simp only [Except.map, h]; exact f.layout_sortRows

theorem layout_ofValues (rows cols : ℕ) (values : Array Value) :
    Layout.ofValues rows cols values.toList = (ofValues rows cols values .words).map layout := by
  rw [Layout.ofValues, ofValues, Array.length_toList]
  cases Memory.words.multiply rows cols with
  | error fault => rfl
  | ok count =>
    dsimp only
    split <;> rfl

/-- Operations on the layout are those on the fragment. -/
structure Agrees (f : Fragment) : Prop where
  edit : ∀ e, f.layout.edit e = ((f.edit e).map layout).mapError .fault
  get : ∀ r c, f.layout.get r c = (f.get? r c).mapError .fault
  values : f.layout.values = ((f.values? .words).map Array.toList).mapError .fault
  nonzeros : f.layout.nonzeros = (f.nonzeros?).mapError .fault

theorem WellFormed.agrees (hf : f.WellFormed) : f.Agrees where
  edit := hf.layout_edit
  get r c := by
    rw [hf.layout_get, hf.get?_eq]
    rfl
  values := hf.layout_values
  nonzeros := by
    rw [hf.layout_nonzeros, hf.nonzeros?_eq]
    rfl

theorem WellFormed.sound_layout (hf : f.WellFormed) : f.layout.Sound := by
  obtain ⟨rows, cols, values | entries⟩ := f
  · exact hf
  · refine ⟨(List.length_map _).trans hf.1, fun r hr ↦ ?_⟩
    obtain ⟨row, hrow, rfl⟩ := List.mem_map.mp hr
    refine ⟨by simp [Row.vectors], fun c hc ↦ ?_⟩
    obtain ⟨e, he, rfl⟩ := List.mem_map.mp hc
    exact hf.2 row (Array.mem_toList_iff.mp hrow) e (Array.mem_toList_iff.mp he)

theorem WellFormed.refused_edit (hf : f.WellFormed) {e : Edit} {fault : Fault}
    (h : f.edit e = .error fault) :
    (∃ r c v, (e = .append r c v ∨ e = .set r c v) ∧ f.inside r c = false ∧
      fault = .outsideFragment r c) ∨
    ∃ rows cols sparse, e = .reset rows cols sparse ∧
      allocate .words rows cols sparse = .error fault := by
  cases e with
  | append r c v =>
    by_cases hi : f.inside r c = true
    · rw [edit, hf.append_eq hi] at h
      cases h
    · rw [edit, append_of_not_inside hi] at h
      cases h
      exact .inl ⟨r, c, v, .inl rfl, Bool.eq_false_iff.mpr hi, rfl⟩
  | set r c v =>
    rw [edit, Fragment.set] at h
    by_cases hi : f.inside r c = true
    · rw [hf.checkSlot_eq hi] at h
      cases h
    · rw [checkSlot_of_not_inside hi] at h
      cases h
      exact .inl ⟨r, c, v, .inr rfl, Bool.eq_false_iff.mpr hi, rfl⟩
  | sortRows => cases h
  | reset rows cols sparse =>
    rw [edit, zeros?] at h
    cases ha : allocate .words rows cols sparse with
    | ok =>
      rw [ha] at h
      cases h
    | error fault' =>
      rw [ha] at h
      cases h
      exact .inr ⟨rows, cols, sparse, rfl, ha⟩

theorem WellFormed.safe_layout (hf : f.WellFormed) : f.layout.Safe where
  edit e t h := by
    rw [hf.layout_edit] at h
    cases he : f.edit e with
    | ok f' =>
      rw [he] at h
      cases h
    | error fault =>
      rw [he] at h
      cases h
      rcases hf.refused_edit he with ⟨r, c, v, hwrite, hi, rfl⟩ | ⟨rows, cols, sparse, rfl, ha⟩
      · exact .inl ⟨r, c, v, hwrite, hi, rfl⟩
      · exact .inr ⟨rows, cols, sparse, fault, rfl, ha, rfl⟩
  get r c := ⟨f.get r c, hf.layout_get r c, fun hi ↦ if_neg (by rw [← inside_layout, hi]; simp)⟩
  values := by
    rw [hf.layout_values]
    cases ha : allocate .words f.rows f.cols false with
    | ok =>
      rw [hf.values?_eq fun _ ↦ ha]
      exact hf.toDense
    | error fault =>
      obtain ⟨rows, cols, values | entries⟩ := f
      · exact hf
      · rw [values?, ha]
        exact ⟨fault, ha, rfl⟩
  nonzeros := ⟨f.nonzeros, hf.layout_nonzeros, fun _ ↦ hf.inside_of_mem_nonzeros⟩

end Fragment

namespace Layout

theorem after_reset (l : Layout) {rows cols : ℕ} {sparse : Bool}
    (h : Edit.Fits (.reset rows cols sparse)) :
    l.after (.reset rows cols sparse) = zeros rows cols sparse := by
  rw [Edit.Fits] at h
  rw [after, edit, zeros?, h]

theorem after_reset_of_not_fits (l : Layout) {rows cols : ℕ} {sparse : Bool}
    (h : ¬Edit.Fits (.reset rows cols sparse)) :
    l.after (.reset rows cols sparse) = { l with rows := rows, cols := cols } := by
  rw [Edit.Fits] at h
  rw [after, edit, zeros?]
  cases ha : Fragment.allocate .words rows cols sparse with
  | ok => exact absurd ha h
  | error fault => rfl

theorem Built.exists_fragment {l : Layout} (h : l.Built) : ∃ f : Fragment, f.Built ∧ f.layout = l := by
  induction h with
  | zeros rows cols sparse => exact ⟨_, .zeros rows cols sparse, Fragment.layout_zeros _ _ _⟩
  | @ofValues rows cols values l h =>
    have hv := Fragment.layout_ofValues rows cols values.toArray
    rw [List.toList_toArray, h] at hv
    obtain ⟨f, hf, hl⟩ := exists_of_map_eq_ok hv.symm
    exact ⟨f, .of_ofValues hf, hl⟩
  | @ofItems rows cols items l h =>
    have hi := Fragment.layout_ofItems rows cols items
    rw [h] at hi
    obtain ⟨f, hf, hl⟩ := exists_of_map_eq_ok hi.symm
    exact ⟨f, .of_ofItems hf, hl⟩
  | ofView v => exact ⟨_, .ofView v, rfl⟩
  | @after l _ e he ih =>
    obtain ⟨f, hf, rfl⟩ := ih
    exact ⟨_, hf.after he, (hf.wellFormed.layout_after e).symm⟩

end Layout

section Flush

variable {σ ε α : Type} {g : Grid} {f f' : Fragment} {cells : List Cell} {sparse : Bool} {run : Run}
  {e : Emission} {memory : Memory}

theorem Sink.exists_of_mem_offered {sink : Sink σ ε} {make : α → Except Fault Emission}
    {xs : List α} {s : σ} (h : e ∈ sink.offered make xs s) : ∃ x ∈ xs, make x = .ok e := by
  induction xs generalizing s with
  | nil => cases h
  | cons x xs ih =>
    simp only [offered, deliver] at h
    cases hx : make x with
    | error fault => simp [hx] at h
    | ok e' =>
      simp only [hx, emit_watch, List.nil_append] at h
      rcases hr : sink.emit e' s with ⟨reason | ⟨⟩, s'⟩
      · simp only [hr, List.mem_singleton] at h
        exact ⟨x, List.mem_cons_self, h ▸ hx⟩
      · simp only [hr, deliver_watch, List.mem_cons, List.singleton_append] at h
        rcases h with rfl | h
        · exact ⟨x, List.mem_cons_self, hx⟩
        · obtain ⟨y, hy, he⟩ := ih h
          exact ⟨y, List.mem_cons_of_mem x hy, he⟩

namespace Plan

theorem built_fill (hf : f.Built) (h : fill g f cells = .ok f') : f'.Built := by
  induction cells generalizing f with
  | nil =>
    cases h
    exact hf
  | cons c cells ih =>
    rw [fill] at h
    dsimp only at h
    by_cases hi : f.inside (c.place g).1 (c.place g).2 = true
    · rw [hf.wellFormed.append_eq hi] at h
      exact ih (hf.after (e := .append _ _ _) trivial) h
    · rw [Fragment.append_of_not_inside hi] at h
      cases h

theorem built_fragment (h : fragment g sparse run memory = .ok f) : f.Built := by
  rw [fragment] at h
  simp only [Fragment.zeros?] at h
  cases ha : Fragment.allocate memory (g.extent run.tile).1 (g.extent run.tile).2 sparse with
  | error fault =>
    rw [ha] at h
    cases h
  | ok =>
    rw [ha] at h
    obtain ⟨filled, hfill, rfl⟩ := exists_of_map_eq_ok h
    have hfilled := built_fill (.zeros _ _ sparse) hfill
    exact hfilled.after (e := .sortRows) trivial

theorem built_blockEmission {p : Plan} (h : p.blockEmission run memory = .ok e)
    (hp : e.payload = .block f) : f.Built := by
  rw [blockEmission] at h
  obtain ⟨f', hf, rfl⟩ := exists_of_map_eq_ok h
  cases hp
  exact built_fragment hf

end Plan

theorem built_of_mem_flushCalls {config : Config} {cells : Array Cell} {tag : UInt8}
    {sink : Sink σ ε} {s : σ} (h : e ∈ flushCalls config cells tag sink s memory)
    (hp : e.payload = .block f) : f.Built := by
  rw [flushCalls, flush] at h
  split at h
  next => cases h
  next =>
    cases hc : config.grid.checkTiles with
    | error fault =>
      rw [hc] at h
      cases h
    | ok =>
      rw [hc] at h
      dsimp only [Plan.deliver] at h
      split at h
      next =>
        obtain ⟨run, -, hrun⟩ := Sink.exists_of_mem_offered h
        exact Plan.built_blockEmission hrun hp
      next =>
        obtain ⟨c, -, hcell⟩ := Sink.exists_of_mem_offered h
        cases hcell
        cases hp

end Flush

/-- Every layout that is made without a reset that memory has no room for has the lengths that its
shape asks for, and no operation on it uses an index behind the end of a vector or reports a
position outside; it is the layout of a fragment, with the same operations. Such a reset leaves the
old storage under the new shape, until a reset goes through. What any flush sends is as it should
be. -/
theorem layouts_sound_and_safe (l : Layout) :
    (l.Built → l.Sound ∧ l.Safe ∧ ∃ f : Fragment, f.Built ∧ f.layout = l ∧ f.Agrees) ∧
    (∀ (rows cols : ℕ) (sparse : Bool),
      let reset : Edit := .reset rows cols sparse
      (reset.Fits → l.after reset = .zeros rows cols sparse ∧ (l.after reset).Built) ∧
      (¬reset.Fits → l.after reset = { l with rows := rows, cols := cols })) ∧
    ∀ {σ ε : Type} (config : Config) (cells : Array Cell) (tag : UInt8) (sink : Sink σ ε) (s : σ)
      (memory : Memory), ∀ e ∈ flushCalls config cells tag sink s memory, ∀ f,
        e.payload = .block f → f.layout.Sound ∧ f.layout.Safe := by
  refine ⟨fun h ↦ ?_, fun rows cols sparse ↦ ⟨fun h ↦ ?_, fun h ↦ ?_⟩,
    fun config cells tag sink s memory e h f hp ↦ ?_⟩
  · obtain ⟨f, hf, rfl⟩ := h.exists_fragment
    have hw := hf.wellFormed
    exact ⟨hw.sound_layout, hw.safe_layout, f, hf, rfl, hw.agrees⟩
  · have hzeros := Layout.after_reset l h
    exact ⟨hzeros, hzeros ▸ .zeros rows cols sparse⟩
  · exact l.after_reset_of_not_fits h
  · have hw := (built_of_mem_flushCalls h hp).wellFormed
    exact ⟨hw.sound_layout, hw.safe_layout⟩

/-- A reset given up leaves one value under a shape with more, and one of those is asked for. -/
theorem layout_of_abandoned_reset :
    let l := (Layout.zeros 1 1 false).after (.reset 1 (2 ^ 60) false)
    (Layout.zeros 1 1 false).edit (.reset 1 (2 ^ 60) false) = .error (.fault .capacityOverflow) ∧
      ¬l.Sound ∧ ¬l.Safe ∧ l.inside 0 1 = true ∧ l.get 0 1 = .error (.fault (.index 1 1)) := by
  intro l
  have ha : Fragment.allocate .words 1 (2 ^ 60) false = .error .capacityOverflow := by decide
  have hl : l = ⟨1, 2 ^ 60, .dense [.zero]⟩ := by
    apply Layout.after_reset_of_not_fits
    rw [Edit.Fits, ha]
    intro h
    cases h
  have hget : l.get 0 1 = .error (.fault (.index 1 1)) := by
    rw [hl]
    rfl
  refine ⟨by rw [Layout.edit, Layout.zeros?, ha], ?_, fun h ↦ ?_, by rw [hl]; rfl, hget⟩
  · rw [hl]
    exact fun h : 1 = 1 * 2 ^ 60 ↦ absurd h (by decide)
  · obtain ⟨v, hv, -⟩ := h.get 0 1
    rw [hget] at hv
    cases hv

end TileBuffer
