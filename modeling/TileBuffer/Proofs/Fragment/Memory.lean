import TileBuffer.Proofs.Fragment.Built
import TileBuffer.Proofs.Fragment.Values

namespace TileBuffer

namespace Fragment

variable {f : Fragment} {rows cols : ℕ} {memory : Memory} {items : List Item}

/-- Memory has room for the shape, in either form. -/
def HasRoom (rows cols : ℕ) : Prop :=
  valueBytes * (rows * cols) ≤ Memory.maxBytes ∧ rowBytes * rows ≤ Memory.maxBytes

instance (rows cols : ℕ) : Decidable (HasRoom rows cols) :=
  inferInstanceAs (Decidable (_ ∧ _))

theorem multiply_eq (h : valueBytes * (rows * cols) ≤ Memory.maxBytes) :
    memory.multiply rows cols = .ok (rows * cols) := by
  cases memory with
  | unbounded => rfl
  | words =>
    rw [valueBytes, Memory.maxBytes] at h
    have hsize : UInt64.size = 2 ^ 64 := rfl
    exact if_pos (by omega)

theorem allocate_dense (h : valueBytes * (rows * cols) ≤ Memory.maxBytes) :
    allocate memory rows cols false = .ok () := by
  rw [allocate, if_neg Bool.false_ne_true, multiply_eq h]
  cases memory with
  | unbounded => rfl
  | words => exact if_pos h

theorem HasRoom.allocate_eq (h : HasRoom rows cols) (sparse : Bool) :
    allocate memory rows cols sparse = .ok () := by
  cases sparse with
  | false => exact allocate_dense h.1
  | true =>
    cases memory with
    | unbounded => rfl
    | words => exact if_pos h.2

theorem HasRoom.zeros?_eq (h : HasRoom rows cols) (sparse : Bool) :
    zeros? memory rows cols sparse = .ok (zeros rows cols sparse) := by
  rw [zeros?, h.allocate_eq sparse]
  rfl

theorem HasRoom.ofItems_eq (h : HasRoom rows cols) (items : List Item) :
    ofItems rows cols items memory = ofItems rows cols items := by
  rw [ofItems, ofItems, h.zeros?_eq, zeros?_unbounded]

theorem ofValues_eq (h : valueBytes * (rows * cols) ≤ Memory.maxBytes) {values : Array Value}
    (hv : values.size = rows * cols) :
    ofValues rows cols values memory = .ok ⟨rows, cols, .dense values⟩ := by
  rw [ofValues, multiply_eq h]
  exact if_pos hv

theorem foldlM_write? {out : Array Value}
    (h : ∀ item ∈ items, item.row * cols + item.col < out.size) :
    items.foldlM (write? cols) out = .ok (items.foldl (write cols) out) := by
  induction items generalizing out with
  | nil => rfl
  | cons item items ih =>
    obtain ⟨hitem, hitems⟩ := List.forall_mem_cons.mp h
    have hsize : (write cols out item).size = out.size := Array.size_setIfInBounds
    have hwrite : write? cols out item = .ok (write cols out item) := if_pos hitem
    rw [List.foldlM_cons, hwrite]
    exact ih (hsize ▸ hitems)

namespace WellFormed

variable (hf : f.WellFormed)
include hf

theorem get?_eq (r c : ℕ) : f.get? r c = .ok (f.get r c) := by
  rw [get?]
  split
  next hi =>
    rw [hf.checkSlot_eq hi]
    rfl
  next hi => rw [get, if_neg hi]

theorem index_lt_of_mem_stored {item : Item} (h : item ∈ f.stored) :
    item.row * f.cols + item.col < f.rows * f.cols := by
  obtain ⟨hr, hc⟩ := inside_iff.mp (hf.inside_of_mem_stored h)
  exact Fragment.index_lt hr hc

theorem values?_eq (h : f.isSparse = true → allocate memory f.rows f.cols false = .ok ()) :
    f.values? memory = .ok f.values := by
  obtain ⟨rows, cols, values | entries⟩ := f
  · rfl
  · rw [values?, h rfl, values_sparse]
    refine foldlM_write? fun item hitem ↦ ?_
    rw [Array.size_replicate]
    exact hf.index_lt_of_mem_stored hitem

theorem nonzeros?_eq : f.nonzeros? = .ok f.nonzeros := by
  obtain ⟨rows, cols, values | entries⟩ := f
  · refine if_neg fun ⟨hz, hv⟩ ↦ ?_
    rw [wellFormed_dense] at hf
    simp only at hz
    rw [hz, Nat.mul_zero, Array.size_eq_zero_iff] at hf
    simp [hf] at hv
  · rfl

end WellFormed

end Fragment

end TileBuffer
