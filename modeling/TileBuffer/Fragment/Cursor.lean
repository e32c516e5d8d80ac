import TileBuffer.Fragment.Basic

namespace TileBuffer

inductive Cursor
  /-- the values from flat position `index` on, in rows of `cols` -/
  | dense (cols index : Nat) (values : List Value)
  /-- the remaining entries of row `row`, and the rows after it -/
  | sparse (row : Nat) (entries : List Entry) (rows : List Row)

namespace Cursor

def ofFragment (f : Fragment) : Cursor :=
  match f.storage with
  | .dense values => .dense f.cols 0 values.toList
  | .sparse rows =>
    match rows.toList with
    | [] => .sparse 0 [] []
    | r :: rs => .sparse 0 r.entries.toList rs

def rowsSize : List Row → Nat
  | [] => 0
  | r :: rows => r.size + rowsSize rows

def size : Cursor → Nat
  | .dense _ _ values => values.length
  | .sparse _ entries rows => entries.length + rowsSize rows

def nextDense (cols index : Nat) : List Value → Option Item × Cursor
  | [] => (none, .dense cols index [])
  | v :: values =>
    if v.isZero then nextDense cols (index + 1) values
    else (some ⟨index / cols, index % cols, v⟩, .dense cols (index + 1) values)

def nextSparse (row : Nat) (entries : List Entry) (rows : List Row) : Option Item × Cursor :=
  match entries, rows with
  | e :: entries, rows =>
    if e.value.isZero then nextSparse row entries rows
    else (some ⟨row, e.col, e.value⟩, .sparse row entries rows)
  | [], r :: rows => nextSparse (row + 1) r.entries.toList rows
  | [], [] => (none, .sparse row [] [])
termination_by (rows.length, entries.length)

def next : Cursor → Option Item × Cursor
  | .dense cols index values => nextDense cols index values
  | .sparse row entries rows => nextSparse row entries rows

theorem nextDense_size_lt {cols index : Nat} {values : List Value} {item : Item} {c : Cursor}
    (h : nextDense cols index values = (some item, c)) : c.size < values.length := by
  induction values generalizing index with
  | nil => simp [nextDense] at h
  | cons v values ih =>
    rw [nextDense] at h
    split at h
    · exact Nat.lt_succ_of_lt (ih h)
    · simp only [Prod.mk.injEq] at h
      simp [← h.2, size]

theorem nextSparse_size_lt {row : Nat} {entries : List Entry} {rows : List Row} {item : Item}
    {c : Cursor} (h : nextSparse row entries rows = (some item, c)) :
    c.size < entries.length + rowsSize rows := by
  fun_induction nextSparse row entries rows with
  | case1 row rows e entries hz ih =>
    have := ih h
    simp only [List.length_cons]
    omega
  | case2 row rows e entries hz =>
    simp only [Prod.mk.injEq] at h
    simp only [← h.2, size, List.length_cons]
    omega
  | case3 row r rows ih =>
    have := ih h
    simp only [List.length_nil, rowsSize, Row.size, Array.length_toList] at *
    omega
  | case4 row => simp at h

theorem next_size_lt {c d : Cursor} {item : Item} (h : c.next = (some item, d)) :
    d.size < c.size := by
  cases c with
  | dense cols index values => exact nextDense_size_lt h
  | sparse row entries rows => exact nextSparse_size_lt h

def drain (c : Cursor) : List Item :=
  match _h : c.next with
  | (none, _) => []
  | (some item, d) => item :: d.drain
termination_by c.size
decreasing_by exact next_size_lt _h

def take : Nat → Cursor → List (Option Item) × Cursor
  | 0, c => ([], c)
  | n + 1, c =>
    let (item, d) := c.next
    let (items, d) := take n d
    (item :: items, d)

end Cursor

end TileBuffer
