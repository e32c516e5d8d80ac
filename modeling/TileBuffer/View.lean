import TileBuffer.Fragment.Basic

namespace TileBuffer

structure View where
  data : Array Value
  rows : Nat
  cols : Nat
  start : Int
  rowStep : Int
  colStep : Int

namespace View

def ofValues (rows cols : Nat) (data : Array Value) : View := ⟨data, rows, cols, 0, cols, 1⟩

def get (v : View) (i j : Nat) : Value :=
  v.data.getD (v.start + i * v.rowStep + j * v.colStep).toNat .zero

def transpose (v : View) : View :=
  { v with rows := v.cols, cols := v.rows, rowStep := v.colStep, colStep := v.rowStep }

def reverseRows (v : View) : View :=
  { v with start := v.start + (v.rows - 1 : Int) * v.rowStep, rowStep := -v.rowStep }

def reverseCols (v : View) : View :=
  { v with start := v.start + (v.cols - 1 : Int) * v.colStep, colStep := -v.colStep }

def everyCol (v : View) (k : Nat) : View :=
  { v with cols := (v.cols + (k - 1)) / k, colStep := v.colStep * k }

def values (v : View) : Array Value :=
  Array.ofFn fun n : Fin (v.rows * v.cols) ↦ v.get (n / v.cols) (n % v.cols)

end View

def Fragment.ofView (v : View) : Fragment := ⟨v.rows, v.cols, .dense v.values⟩

end TileBuffer
