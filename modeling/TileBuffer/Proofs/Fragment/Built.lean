import TileBuffer.Proofs.Fragment.Append
import TileBuffer.View

namespace TileBuffer

namespace Row

variable {r : Row} {col : ℕ} {v : Value}

theorem col_of_mem_set {e : Entry} (h : e ∈ (r.set col v).entries) :
    e ∈ r.entries ∨ e.col = col := by
  rw [set] at h
  cases hr : replaceLast? col v r.entries.toList with
  | some replaced =>
    obtain ⟨front, d, back, hd, rfl, -, -⟩ := replaceLast?_eq_some hr
    rw [hr, List.mem_toArray, List.mem_append, List.mem_cons] at h
    rw [← Array.mem_toList_iff, hd, List.mem_append, List.mem_cons]
    rcases h with h | rfl | h
    · exact .inl (.inl h)
    · exact .inr rfl
    · exact .inl (.inr (.inr h))
  | none =>
    rw [hr] at h
    obtain he | rfl := Array.mem_push.mp h
    · exact .inl he
    · exact .inr rfl

end Row

theorem Memory.eq_of_multiply {memory : Memory} {m n k : ℕ} (h : memory.multiply m n = .ok k) :
    k = m * n := by
  cases memory with
  | unbounded => exact (Except.ok.inj h).symm
  | words =>
    rw [multiply] at h
    split at h
    · exact (Except.ok.inj h).symm
    · cases h

/-- Memory has room for the shape of a reset. -/
def Edit.Fits : Edit → Prop
  | .reset rows cols sparse => Fragment.allocate .words rows cols sparse = .ok ()
  | _ => True

instance (e : Edit) : Decidable e.Fits :=
  match e with
  | .append .. => inferInstanceAs (Decidable True)
  | .set .. => inferInstanceAs (Decidable True)
  | .sortRows => inferInstanceAs (Decidable True)
  | .reset rows cols sparse =>
    inferInstanceAs (Decidable (Fragment.allocate .words rows cols sparse = .ok ()))

namespace Fragment

variable {f : Fragment}

theorem after_of_not_inside {r c : ℕ} (v : Value) (hi : ¬f.inside r c = true) :
    f.after (.append r c v) = f ∧ f.after (.set r c v) = f := by
  rw [after, after, edit, edit, append, set, checkSlot_of_not_inside hi]
  exact ⟨rfl, rfl⟩

theorem WellFormed.after_set (hf : f.WellFormed) {r c : ℕ} (hi : f.inside r c = true)
    (v : Value) : f.after (.set r c v) = f.put r c v (·.set c v) := by
  rw [after, edit, set, hf.checkSlot_eq hi]
  rfl

theorem after_reset {rows cols : ℕ} {sparse : Bool} (h : Edit.Fits (.reset rows cols sparse)) :
    f.after (.reset rows cols sparse) = zeros rows cols sparse := by
  rw [Edit.Fits] at h
  rw [after, edit, zeros?, h]
  rfl

theorem WellFormed.set (hf : f.WellFormed) {r c : ℕ} (hi : f.inside r c = true) (v : Value) :
    (f.after (.set r c v)).WellFormed := by
  rw [hf.after_set hi]
  refine hf.put v fun row hrow e h ↦ ?_
  obtain h | rfl := Row.col_of_mem_set h
  · exact hrow e h
  · exact (inside_iff.mp hi).2

theorem WellFormed.after (hf : f.WellFormed) {e : Edit} (he : e.Fits) :
    (f.after e).WellFormed := by
  cases e with
  | append r c v =>
    by_cases hi : f.inside r c = true
    · exact hf.append hi v
    · rwa [(after_of_not_inside v hi).1]
  | set r c v =>
    by_cases hi : f.inside r c = true
    · exact hf.set hi v
    · rwa [(after_of_not_inside v hi).2]
  | sortRows => exact hf.sortRows
  | reset rows cols sparse =>
    rw [after_reset he]
    exact wellFormed_zeros rows cols sparse

theorem WellFormed.appendItems {items : List Item} {f' : Fragment} (hf : f.WellFormed)
    (h : f.appendItems items = .ok f') : f'.WellFormed := by
  induction items generalizing f with
  | nil =>
    cases h
    exact hf
  | cons item items ih =>
    rw [Fragment.appendItems] at h
    have hitem : (f.after item.edit).WellFormed := hf.after trivial
    rw [Fragment.after, Item.edit, edit] at hitem
    cases ha : f.append item.row item.col item.value with
    | error fault =>
      rw [ha] at h
      cases h
    | ok g =>
      rw [ha] at h hitem
      exact ih hitem h

/-- A fragment of some constructor, after some edits, those that fail included. Only resets that
memory has no room for are left out. -/
inductive Built : Fragment → Prop
  | zeros (rows cols : ℕ) (sparse : Bool) : Built (.zeros rows cols sparse)
  | ofValues {rows cols : ℕ} {values : Array Value} {f : Fragment}
      (h : ofValues rows cols values = .ok f) : Built f
  | ofItems {rows cols : ℕ} {items : List Item} {f : Fragment}
      (h : ofItems rows cols items = .ok f) : Built f
  | ofView (v : View) : Built (.ofView v)
  | after {f : Fragment} (h : Built f) {e : Edit} (he : e.Fits) : Built (f.after e)

theorem Built.afterAll (h : f.Built) {edits : List Edit} (he : ∀ e ∈ edits, e.Fits) :
    (f.afterAll edits).Built := by
  induction edits generalizing f with
  | nil => exact h
  | cons e edits ih =>
    obtain ⟨he, hes⟩ := List.forall_mem_cons.mp he
    exact ih (h.after he) hes

theorem ofItems_eq (rows cols : ℕ) (items : List Item) : ofItems rows cols items =
    (((zeros rows cols true).appendItems items).map sortRows).mapError .rejected := by
  rw [ofItems, zeros?_unbounded]

variable {rows cols : ℕ} {memory : Memory}

theorem Built.of_ofValues {values : Array Value}
    (h : Fragment.ofValues rows cols values memory = .ok f) : f.Built := by
  rw [Fragment.ofValues] at h
  cases hm : memory.multiply rows cols with
  | error fault =>
    rw [hm] at h
    cases h
  | ok count =>
    have hvalues : Fragment.ofValues rows cols values = .ok f := by
      rw [hm, Memory.eq_of_multiply hm] at h
      exact h
    exact .ofValues hvalues

theorem Built.of_ofItems {items : List Item}
    (h : Fragment.ofItems rows cols items memory = .ok f) : f.Built := by
  rw [Fragment.ofItems, Fragment.zeros?] at h
  cases ha : allocate memory rows cols true with
  | error fault =>
    rw [ha] at h
    cases h
  | ok =>
    rw [ha] at h
    exact .ofItems ((Fragment.ofItems_eq rows cols items).trans h)

theorem WellFormed.of_ofValues {values : Array Value} (h : ofValues rows cols values = .ok f) :
    f.WellFormed := by
  rw [ofValues, Memory.multiply] at h
  dsimp only at h
  split at h
  next hs =>
    cases h
    exact hs
  next => cases h

theorem Built.wellFormed (h : f.Built) : f.WellFormed := by
  induction h with
  | zeros rows cols sparse => exact wellFormed_zeros rows cols sparse
  | ofValues h => exact .of_ofValues h
  | @ofItems rows cols items f h =>
    rw [ofItems_eq] at h
    cases ha : (Fragment.zeros rows cols true).appendItems items with
    | error rejection =>
      rw [ha] at h
      cases h
    | ok g =>
      rw [ha] at h
      cases h
      exact ((wellFormed_zeros rows cols true).appendItems ha).sortRows
  | ofView v => exact Array.size_ofFn
  | after _ he ih => exact ih.after he

end Fragment

end TileBuffer
