import TileBuffer.Rejection
import TileBuffer.Proofs.Fragment.Row

namespace TileBuffer

section Access

variable {α : Type} {xs : List α} {i : ℕ}

def readAt (xs : List α) (i : ℕ) : Except Trap α :=
  match xs[i]? with
  | some a => .ok a
  | none => .error (.fault (.index i xs.length))

def writeAt (xs : List α) (i : ℕ) (a : α) : Except Trap (List α) :=
  if i < xs.length then .ok (xs.set i a) else .error (.fault (.index i xs.length))

theorem readAt_eq {a : α} (h : xs[i]? = some a) : readAt xs i = .ok a := by
  rw [readAt, h]

theorem writeAt_eq (h : i < xs.length) (a : α) : writeAt xs i a = .ok (xs.set i a) :=
  if_pos h

end Access

/-- The columns and the values of the entries of a row. -/
structure Vectors where
  cols : List ℕ
  values : List Value

namespace Vectors

def empty : Vectors := ⟨[], []⟩

def append (r : Vectors) (col : ℕ) (v : Value) : Vectors := ⟨r.cols ++ [col], r.values ++ [v]⟩

def lastIndex? (col : ℕ) : List ℕ → Option ℕ
  | [] => none
  | c :: cols =>
    match lastIndex? col cols with
    | some k => some (k + 1)
    | none => if c = col then some 0 else none

def get? (r : Vectors) (col : ℕ) : Except Trap (Option Value) :=
  match lastIndex? col r.cols with
  | some k => (readAt r.values k).map some
  | none => .ok none

def set (r : Vectors) (col : ℕ) (v : Value) : Except Trap Vectors :=
  match lastIndex? col r.cols with
  | some k => (writeAt r.values k v).map fun values ↦ ⟨r.cols, values⟩
  | none => .ok (r.append col v)

def sortedCols : List ℕ → Bool
  | c :: d :: cols => c ≤ d && sortedCols (d :: cols)
  | _ => true

/-- Writes pairs into the slots from `slot` on, first the column and then the value. -/
def overwrite (r : Vectors) (slot : ℕ) : List (ℕ × Value) → Except Trap Vectors
  | [] => .ok r
  | (col, v) :: pairs => do
    let cols ← writeAt r.cols slot col
    let values ← writeAt r.values slot v
    overwrite ⟨cols, values⟩ (slot + 1) pairs

/-- Sorts the pairs by column and writes them back, slot by slot. -/
def sort (r : Vectors) : Except Trap Vectors :=
  if sortedCols r.cols then .ok r
  else r.overwrite 0 ((r.cols.zip r.values).mergeSort fun p q ↦ p.1 ≤ q.1)

theorem take_set {α : Type} {xs : List α} {i : ℕ} (h : i < xs.length) (a : α) :
    (xs.set i a).take (i + 1) = xs.take i ++ [a] := by
  rw [List.take_add_one, List.take_set_of_le le_rfl, List.getElem?_set_self h]
  rfl

theorem overwrite_eq {r : Vectors} {slot : ℕ} {pairs : List (ℕ × Value)}
    (hc : r.cols.length = slot + pairs.length) (hv : r.values.length = slot + pairs.length) :
    r.overwrite slot pairs =
      .ok ⟨r.cols.take slot ++ pairs.map Prod.fst, r.values.take slot ++ pairs.map Prod.snd⟩ := by
  induction pairs generalizing r slot with
  | nil => simp [overwrite, List.take_of_length_le, hc, hv]
  | cons p pairs ih =>
    rw [List.length_cons] at hc hv
    rw [overwrite, writeAt_eq (by omega), writeAt_eq (by omega)]
    change overwrite _ _ _ = _
    rw [ih (by simp; omega) (by simp; omega), take_set (by omega), take_set (by omega)]
    simp

end Vectors

namespace Row

open Vectors

variable {r : Row} {col k : ℕ} {v : Value} {entries : List Entry}

def vectors (r : Row) : Vectors :=
  ⟨r.entries.toList.map Entry.col, r.entries.toList.map Entry.value⟩

theorem vectors_append (r : Row) (col : ℕ) (v : Value) :
    (r.append col v).vectors = r.vectors.append col v := by
  simp [vectors, append, Vectors.append]

section LastIndex

theorem exists_entry (h : lastIndex? col (entries.map Entry.col) = some k) :
    ∃ e, entries[k]? = some e ∧ e.col = col := by
  induction entries generalizing k with
  | nil => cases h
  | cons d entries ih =>
    rw [List.map_cons, lastIndex?] at h
    cases hk : lastIndex? col (entries.map Entry.col) with
    | some k' =>
      rw [hk] at h
      cases h
      exact ih hk
    | none =>
      rw [hk] at h
      simp only [Option.ite_none_right_eq_some, Option.some.injEq] at h
      obtain ⟨hd, rfl⟩ := h
      exact ⟨d, rfl, hd⟩

theorem replaceLast?_eq : replaceLast? col v entries =
    (lastIndex? col (entries.map Entry.col)).map fun k ↦ entries.set k ⟨col, v⟩ := by
  induction entries with
  | nil => rfl
  | cons d entries ih =>
    rw [replaceLast?, ih, List.map_cons, lastIndex?]
    cases lastIndex? col (entries.map Entry.col) with
    | some k => rfl
    | none => by_cases hd : d.col = col <;> simp [hd]

theorem getLast?_filter_eq : (entries.filter fun e ↦ e.col = col).getLast? =
    (lastIndex? col (entries.map Entry.col)).bind fun k ↦ entries[k]? := by
  induction entries with
  | nil => rfl
  | cons d entries ih =>
    rw [List.map_cons, lastIndex?]
    cases hk : lastIndex? col (entries.map Entry.col) with
    | some k =>
      obtain ⟨e, he, -⟩ := exists_entry hk
      rw [hk, Option.bind_some, he] at ih
      by_cases hd : d.col = col <;> simp [hd, ih, he, List.getLast?_cons]
    | none =>
      rw [hk, Option.bind_none, List.getLast?_eq_none_iff] at ih
      by_cases hd : d.col = col <;> simp [hd, ih]

end LastIndex

theorem set_vectors (r : Row) (col : ℕ) (v : Value) :
    r.vectors.set col v = .ok (r.set col v).vectors := by
  rw [Vectors.set, set, replaceLast?_eq, vectors]
  dsimp only
  cases h : lastIndex? col (r.entries.toList.map Entry.col) with
  | none => exact congrArg Except.ok (vectors_append r col v).symm
  | some k =>
    obtain ⟨e, he, rfl⟩ := exists_entry h
    obtain ⟨hlt, he⟩ := List.getElem?_eq_some_iff.mp he
    have hcols : (r.entries.toList.map Entry.col).set k e.col = r.entries.toList.map Entry.col := by
      rw [← List.map_set, ← he, List.set_getElem_self]
    dsimp only
    rw [writeAt_eq (by rwa [List.length_map])]
    simp [vectors, List.map_set, hcols, Except.map]

theorem get?_vectors (r : Row) (col : ℕ) : r.vectors.get? col = .ok (r.get? col) := by
  rw [Vectors.get?, get?_eq, valuesAt, List.getLast?_map, getLast?_filter_eq, vectors]
  dsimp only
  cases h : lastIndex? col (r.entries.toList.map Entry.col) with
  | none => rfl
  | some k =>
    obtain ⟨e, he, -⟩ := exists_entry h
    rw [Option.bind_some, he]
    dsimp only
    rw [readAt_eq (a := e.value) (by rw [List.getElem?_map, he]; rfl)]
    rfl

theorem sortedCols_vectors (r : Row) : sortedCols r.vectors.cols = r.isSorted := by
  rw [isSorted, vectors]
  induction r.entries.toList with
  | nil => rfl
  | cons e entries ih =>
    cases entries with
    | nil => rfl
    | cons f entries =>
      simp only [List.map_cons, sortedCols, sortedEntries] at ih ⊢
      rw [ih, colLE]

theorem zip_vectors (r : Row) : r.vectors.cols.zip r.vectors.values =
    r.entries.toList.map fun e ↦ (e.col, e.value) := by
  rw [vectors, List.zip_map']

theorem sort_vectors (r : Row) : r.vectors.sort = .ok r.sort.vectors := by
  rw [Vectors.sort, sortedCols_vectors, sort]
  split
  · rfl
  · have hsort := List.map_mergeSort (l := r.entries.toList) (r := colLE)
      (s := fun p q : ℕ × Value ↦ p.1 ≤ q.1) (f := fun e ↦ (e.col, e.value)) fun _ _ _ _ ↦ rfl
    rw [zip_vectors, ← hsort, overwrite_eq (by simp [vectors]) (by simp [vectors])]
    simp [vectors, Function.comp_def]

end Row

end TileBuffer
