import TileBuffer.Fragment.Basic

namespace TileBuffer

/-- The room for numbers and for storage. In `words`, where programs run, counts are words and no
allocation takes more than `maxBytes`; in `unbounded` room the same is computed and nothing lacks. -/
inductive Memory
  | unbounded
  | words
deriving DecidableEq

namespace Memory

def maxBytes : Nat := 0x7fffffffffffffff

def multiply (memory : Memory) (m n : Nat) : Except Fault Nat :=
  match memory with
  | .unbounded => .ok (m * n)
  | .words => if m * n < UInt64.size then .ok (m * n) else .error .productOverflow

def allocate (memory : Memory) (count size : Nat) : Except Fault Unit :=
  match memory with
  | .unbounded => .ok ()
  | .words => if size * count ≤ maxBytes then .ok () else .error .capacityOverflow

end Memory

namespace Fragment

def valueBytes : Nat := 8

/-- A row is two vectors of three words each. -/
def rowBytes : Nat := 48

def allocate (memory : Memory) (rows cols : Nat) (sparse : Bool) : Except Fault Unit :=
  if sparse then memory.allocate rows rowBytes
  else
    match memory.multiply rows cols with
    | .ok count => memory.allocate count valueBytes
    | .error fault => .error fault

section Checked

variable (memory : Memory)

def zeros? (rows cols : Nat) (sparse : Bool) : Except Fault Fragment :=
  (allocate memory rows cols sparse).map fun _ ↦ zeros rows cols sparse

def get? (f : Fragment) (r c : Nat) : Except Fault Value :=
  if f.inside r c then (f.checkSlot r c).map fun _ ↦ f.get r c else .ok .zero

def write? (cols : Nat) (out : Array Value) (item : Item) : Except Fault (Array Value) :=
  let i := item.row * cols + item.col
  if i < out.size then .ok (out.setIfInBounds i item.value) else .error (.index i out.size)

def values? (f : Fragment) : Except Fault (Array Value) :=
  match f.storage with
  | .dense values => .ok values
  | .sparse _ =>
    match allocate memory f.rows f.cols false with
    | .ok () => f.stored.foldlM (write? f.cols) (Array.replicate (f.rows * f.cols) .zero)
    | .error fault => .error fault

def nonzeros? (f : Fragment) : Except Fault (List Item) :=
  match f.storage with
  | .dense values =>
    if f.cols = 0 ∧ values.toList.any fun v ↦ !v.isZero then .error .zeroDivisor else .ok f.nonzeros
  | .sparse _ => .ok f.nonzeros

end Checked

def ofValues (rows cols : Nat) (values : Array Value) (memory : Memory := .unbounded) :
    Except Trap Fragment :=
  match memory.multiply rows cols with
  | .ok count =>
    if values.size = count then .ok ⟨rows, cols, .dense values⟩
    else .error (.rejected (.shapeMismatch count values.size))
  | .error fault => .error (.fault fault)

def ofItems (rows cols : Nat) (items : List Item) (memory : Memory := .unbounded) :
    Except Trap Fragment :=
  match zeros? memory rows cols true with
  | .ok f => ((f.appendItems items).map sortRows).mapError .rejected
  | .error fault => .error (.fault fault)

end Fragment

inductive Edit
  | append (row col : Nat) (value : Value)
  | set (row col : Nat) (value : Value)
  | sortRows
  | reset (rows cols : Nat) (sparse : Bool)
deriving DecidableEq

namespace Fragment

def edit (f : Fragment) : Edit → Except Fault Fragment
  | .append r c v => f.append r c v
  | .set r c v => f.set r c v
  | .sortRows => .ok f.sortRows
  | .reset rows cols sparse => zeros? .words rows cols sparse

def editAll (f : Fragment) (edits : List Edit) : Except Fault Fragment := edits.foldlM edit f

/-- A reset takes over the new shape before it asks for storage; when that fails, the old storage
stays under the new shape. Any other edit that fails changes nothing. -/
def abandon (f : Fragment) : Edit → Fragment
  | .reset rows cols _ => { f with rows := rows, cols := cols }
  | _ => f

def after (f : Fragment) (e : Edit) : Fragment :=
  match f.edit e with
  | .ok f' => f'
  | .error _ => f.abandon e

def afterAll (f : Fragment) (edits : List Edit) : Fragment := edits.foldl after f

end Fragment

end TileBuffer
