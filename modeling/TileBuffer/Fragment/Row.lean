import TileBuffer.Value

namespace TileBuffer

structure Entry where
  col : Nat
  value : Value
deriving DecidableEq, Inhabited

structure Row where
  entries : Array Entry
deriving DecidableEq, Inhabited

namespace Row

def empty : Row := ⟨#[]⟩

def size (r : Row) : Nat := r.entries.size

def isEmpty (r : Row) : Bool := r.entries.isEmpty

def append (r : Row) (col : Nat) (v : Value) : Row := ⟨r.entries.push ⟨col, v⟩⟩

def get? (r : Row) (col : Nat) : Option Value :=
  r.entries.foldl (fun found e ↦ if e.col = col then some e.value else found) none

/-- Writes `v` into the last entry of a column, if there is one. -/
def replaceLast? (col : Nat) (v : Value) : List Entry → Option (List Entry)
  | [] => none
  | e :: entries =>
    match replaceLast? col v entries with
    | some entries' => some (e :: entries')
    | none => if e.col = col then some (⟨col, v⟩ :: entries) else none

def set (r : Row) (col : Nat) (v : Value) : Row :=
  match replaceLast? col v r.entries.toList with
  | some entries => ⟨entries.toArray⟩
  | none => r.append col v

def colLE (e f : Entry) : Bool := e.col ≤ f.col

def sortedEntries : List Entry → Bool
  | e :: f :: entries => colLE e f && sortedEntries (f :: entries)
  | _ => true

def isSorted (r : Row) : Bool := sortedEntries r.entries.toList

def sort (r : Row) : Row :=
  if r.isSorted then r else ⟨(r.entries.toList.mergeSort colLE).toArray⟩

def nonzeroCount (r : Row) : Nat := r.entries.countP fun e ↦ !e.value.isZero

def nonzeros (r : Row) : List Entry := r.entries.toList.filter fun e ↦ !e.value.isZero

def sameNumbers (r s : Row) : Bool :=
  r.entries.size == s.entries.size &&
    (r.entries.zip s.entries).all fun (e, f) ↦ e.col == f.col && e.value.sameNumber f.value

end Row

end TileBuffer
