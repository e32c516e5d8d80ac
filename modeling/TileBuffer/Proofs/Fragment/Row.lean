import Mathlib.Tactic
import TileBuffer.Fragment.Row
import TileBuffer.Proofs.Grouping

namespace TileBuffer

namespace Row

variable {r : Row} {col : ℕ} {v : Value}

def valuesAt (r : Row) (col : ℕ) : List Value :=
  (r.entries.toList.filter fun e ↦ e.col = col).map Entry.value

@[simp]
theorem valuesAt_empty : empty.valuesAt col = [] := rfl

theorem valuesAt_append (r : Row) (c col : ℕ) (v : Value) :
    (r.append c v).valuesAt col = r.valuesAt col ++ if c = col then [v] else [] := by
  simp only [valuesAt, append, Array.toList_push, List.filter_append, List.map_append]
  by_cases h : c = col <;> simp [h]

theorem get?_eq (r : Row) (col : ℕ) : r.get? col = (r.valuesAt col).getLast? := by
  rw [get?, valuesAt, ← Array.foldl_toList]
  induction r.entries.toList using List.reverseRecOn with
  | nil => rfl
  | append_singleton entries e ih =>
    rw [List.foldl_append, List.foldl_cons, List.foldl_nil, List.filter_append, List.map_append]
    by_cases h : e.col = col <;> simp [h, ih]

theorem colLE_trans (e f k : Entry) (h : colLE e f = true) (h' : colLE f k = true) :
    colLE e k = true := by
  simp only [colLE, decide_eq_true_eq] at *
  exact h.trans h'

theorem colLE_total (e f : Entry) : (colLE e f || colLE f e) = true := by
  simpa only [colLE, Bool.or_eq_true, decide_eq_true_eq] using Nat.le_total e.col f.col

theorem sortedEntries_iff {entries : List Entry} :
    sortedEntries entries = true ↔ entries.Pairwise fun e f ↦ colLE e f = true :=
  test_iff_pairwise colLE_trans rfl (fun _ ↦ rfl) (fun _ _ _ ↦ rfl) entries

/-- `sort` is the stable sort by column, with or without its early return. -/
theorem toList_sort (r : Row) : r.sort.entries.toList = r.entries.toList.mergeSort colLE := by
  rw [sort]
  split
  next h => exact (List.mergeSort_of_pairwise (sortedEntries_iff.mp h)).symm
  next => rfl

theorem mem_sort {e : Entry} : e ∈ r.sort.entries ↔ e ∈ r.entries := by
  rw [← Array.mem_toList_iff, toList_sort, List.mem_mergeSort, Array.mem_toList_iff]

@[simp]
theorem valuesAt_sort (r : Row) (col : ℕ) : r.sort.valuesAt col = r.valuesAt col := by
  rw [valuesAt, toList_sort, filter_mergeSort colLE_trans colLE_total, valuesAt]
  intro e f he hf
  simp only [decide_eq_true_eq] at he hf
  rw [colLE, he, hf, decide_eq_true_eq]

section Replace

variable {entries entries' : List Entry}

theorem replaceLast?_eq_none (h : replaceLast? col v entries = none) :
    ∀ e ∈ entries, e.col ≠ col := by
  induction entries with
  | nil => exact nofun
  | cons d entries ih =>
    rw [replaceLast?] at h
    cases hr : replaceLast? col v entries with
    | some replaced => simp [hr] at h
    | none =>
      simp only [hr, ite_eq_right_iff, reduceCtorEq, imp_false] at h
      exact List.forall_mem_cons.mpr ⟨h, ih hr⟩

theorem replaceLast?_eq_some (h : replaceLast? col v entries = some entries') :
    ∃ front e back, entries = front ++ e :: back ∧ entries' = front ++ ⟨col, v⟩ :: back ∧
      e.col = col ∧ ∀ d ∈ back, d.col ≠ col := by
  induction entries generalizing entries' with
  | nil => cases h
  | cons d entries ih =>
    rw [replaceLast?] at h
    cases hr : replaceLast? col v entries with
    | some replaced =>
      simp only [hr, Option.some.injEq] at h
      obtain ⟨front, e, back, rfl, rfl, he, hback⟩ := ih hr
      exact ⟨d :: front, e, back, rfl, h.symm, he, hback⟩
    | none =>
      simp only [hr, Option.ite_none_right_eq_some, Option.some.injEq] at h
      exact ⟨[], d, entries, rfl, h.2.symm, h.1, replaceLast?_eq_none hr⟩

theorem valuesAt_set (r : Row) (c col : ℕ) (v : Value) : (r.set c v).valuesAt col =
    if c = col then (r.valuesAt col).dropLast ++ [v] else r.valuesAt col := by
  rw [set]
  cases hr : replaceLast? c v r.entries.toList with
  | none =>
    have hn := replaceLast?_eq_none hr
    dsimp only
    rw [valuesAt_append]
    split
    next h =>
      subst h
      have hnil : r.valuesAt c = [] := by simpa [valuesAt] using hn
      rw [hnil]
      rfl
    next => exact List.append_nil _
  | some replaced =>
    obtain ⟨front, e, back, he, rfl, rfl, hback⟩ := replaceLast?_eq_some hr
    simp only [valuesAt, he, List.filter_append, List.map_append]
    split
    next h =>
      subst h
      have hnil : back.filter (fun d ↦ d.col = e.col) = [] := by simpa using hback
      simp [hnil]
    next h => simp [h]

theorem get?_set (r : Row) (c col : ℕ) (v : Value) :
    (r.set c v).get? col = if c = col then some v else r.get? col := by
  rw [get?_eq, valuesAt_set]
  split
  · exact List.getLast?_concat
  · exact (get?_eq r col).symm

end Replace

end Row

end TileBuffer
