import TileBuffer.Fragment.Row
import TileBuffer.Rejection

namespace TileBuffer

inductive Storage
  | dense (values : Array Value)
  /-- the stored entries of each row; what is not stored is zero -/
  | sparse (rows : Array Row)
deriving DecidableEq

/-- A rectangular piece of a matrix. Positions start at 0 in both directions. -/
structure Fragment where
  rows : Nat
  cols : Nat
  storage : Storage
deriving DecidableEq

structure Item where
  row : Nat
  col : Nat
  value : Value
deriving DecidableEq, Inhabited

namespace Fragment

/-- Storage fits the shape: every value is there once, or there is a row of entries for every
row and no entry lies beyond the last column. -/
def WellFormed (f : Fragment) : Prop :=
  match f.storage with
  | .dense values => values.size = f.rows * f.cols
  | .sparse rows => rows.size = f.rows ∧ ∀ r ∈ rows, ∀ e ∈ r.entries, e.col < f.cols

def zeros (rows cols : Nat) (sparse : Bool) : Fragment :=
  ⟨rows, cols,
    if sparse then .sparse (Array.replicate rows .empty)
    else .dense (Array.replicate (rows * cols) .zero)⟩

def isSparse (f : Fragment) : Bool :=
  match f.storage with
  | .dense _ => false
  | .sparse _ => true

def inside (f : Fragment) (r c : Nat) : Bool := r < f.rows && c < f.cols

def slot (f : Fragment) (r c : Nat) : Nat × Nat :=
  match f.storage with
  | .dense values => (r * f.cols + c, values.size)
  | .sparse rows => (r, rows.size)

/-- The fault of a position whose index storage does not have. The index of a value is computed in
words. -/
def slotFault (f : Fragment) (r c : Nat) : Fault :=
  let (i, length) := f.slot r c
  if f.isSparse || i < UInt64.size then .index i length
  else if r * f.cols < UInt64.size then .sumOverflow
  else .productOverflow

def checkSlot (f : Fragment) (r c : Nat) : Except Fault Unit :=
  if f.inside r c then
    if (f.slot r c).1 < (f.slot r c).2 then .ok () else .error (f.slotFault r c)
  else .error (.outsideFragment r c)

def put (f : Fragment) (r c : Nat) (v : Value) (change : Row → Row) : Fragment :=
  match f with
  | ⟨rows, cols, .dense values⟩ =>
    ⟨rows, cols, .dense (values.setIfInBounds (r * cols + c) v)⟩
  | ⟨rows, cols, .sparse entries⟩ => ⟨rows, cols, .sparse (entries.modify r change)⟩

/-- Writes a value. Dense storage overwrites; sparse storage adds an entry at the end of the row,
so that rows are in order only after `sortRows`. -/
def append (f : Fragment) (r c : Nat) (v : Value) : Except Fault Fragment :=
  (f.checkSlot r c).map fun _ ↦ f.put r c v (·.append c v)

def set (f : Fragment) (r c : Nat) (v : Value) : Except Fault Fragment :=
  (f.checkSlot r c).map fun _ ↦ f.put r c v (·.set c v)

def get (f : Fragment) (r c : Nat) : Value :=
  if f.inside r c then
    match f.storage with
    | .dense values => values.getD (r * f.cols + c) .zero
    | .sparse rows => ((rows.getD r .empty).get? c).getD .zero
  else .zero

def sortRows (f : Fragment) : Fragment :=
  match f with
  | ⟨_, _, .dense _⟩ => f
  | ⟨rows, cols, .sparse entries⟩ => ⟨rows, cols, .sparse (entries.map Row.sort)⟩

def nonzeroCount (f : Fragment) : Nat :=
  match f.storage with
  | .dense values => values.countP fun v ↦ !v.isZero
  | .sparse rows => rows.foldl (fun count r ↦ count + r.nonzeroCount) 0

/-- Every value, row by row, in unbounded numbers; `values?` is the checked form. Of the entries of
one position the last counts. -/
def values (f : Fragment) : Array Value :=
  match f.storage with
  | .dense values => values
  | .sparse rows =>
    rows.toList.zipIdx.foldl
      (fun out (r, i) ↦
        r.entries.foldl (fun out e ↦ out.setIfInBounds (i * f.cols + e.col) e.value) out)
      (Array.replicate (f.rows * f.cols) .zero)

def stored (f : Fragment) : List Item :=
  match f.storage with
  | .dense values => values.toList.zipIdx.map fun (v, k) ↦ ⟨k / f.cols, k % f.cols, v⟩
  | .sparse rows =>
    rows.toList.zipIdx.flatMap fun (r, k) ↦ r.entries.toList.map fun e ↦ ⟨k, e.col, e.value⟩

def nonzeros (f : Fragment) : List Item :=
  match f.storage with
  | .dense values =>
    values.toList.zipIdx.filterMap fun (v, i) ↦
      if v.isZero then none else some ⟨i / f.cols, i % f.cols, v⟩
  | .sparse rows =>
    rows.toList.zipIdx.flatMap fun (r, i) ↦ r.nonzeros.map fun e ↦ ⟨i, e.col, e.value⟩

def sameNumbers (f g : Fragment) : Bool :=
  f.rows == g.rows && f.cols == g.cols &&
    match f.storage, g.storage with
    | .dense values, .dense values' =>
      values.size == values'.size && (values.zip values').all fun (v, w) ↦ v.sameNumber w
    | .sparse rows, .sparse rows' =>
      rows.size == rows'.size && (rows.zip rows').all fun (r, s) ↦ r.sameNumbers s
    | _, _ => false

/-- Appends items one after the other; the first that lies outside is refused, by its numbers
counted from 1. -/
def appendItems (f : Fragment) : List Item → Except Rejection Fragment
  | [] => .ok f
  | item :: items =>
    match f.append item.row item.col item.value with
    | .ok f' => f'.appendItems items
    | .error _ => .error (.cellOutside (item.row + 1) (item.col + 1) f.rows f.cols)

end Fragment

end TileBuffer
