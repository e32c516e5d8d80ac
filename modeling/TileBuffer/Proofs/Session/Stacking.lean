import TileBuffer.Proofs.Fragment.Stored
import TileBuffer.Proofs.Region
import TileBuffer.Proofs.Session.Faults

namespace TileBuffer

variable {σ ε : Type}

/-- The item of a fragment that lies below `rows` other rows. -/
def Item.below (rows : ℕ) (item : Item) : Item := ⟨rows + item.row, item.col, item.value⟩

namespace Fragment

/-- The third fragment is the first on top of the second, in the form of both. -/
inductive Stacks : Fragment → Fragment → Fragment → Prop
  | dense (rows rows' cols : ℕ) (values values' : Array Value) :
      Stacks ⟨rows, cols, .dense values⟩ ⟨rows', cols, .dense values'⟩
        ⟨rows + rows', cols, .dense (values ++ values')⟩
  | sparse (rows rows' cols : ℕ) (entries entries' : Array Row) :
      Stacks ⟨rows, cols, .sparse entries⟩ ⟨rows', cols, .sparse entries'⟩
        ⟨rows + rows', cols, .sparse (entries ++ entries')⟩

namespace Stacks

variable {a b f : Fragment} {g : Grid} {row col : UInt64} (h : Stacks a b f)
include h

theorem rows_eq : f.rows = a.rows + b.rows := by cases h <;> rfl

theorem cols_eq : f.cols = a.cols ∧ f.cols = b.cols := by cases h <;> exact ⟨rfl, rfl⟩

theorem wellFormed (ha : a.WellFormed) (hb : b.WellFormed) : f.WellFormed := by
  cases h with
  | dense rows rows' cols values values' =>
    rw [wellFormed_dense] at *
    rw [Array.size_append, ha, hb, Nat.add_mul]
  | sparse rows rows' cols entries entries' =>
    rw [wellFormed_sparse] at *
    refine ⟨by rw [Array.size_append, ha.1, hb.1], fun r hr ↦ ?_⟩
    exact (Array.mem_append.mp hr).elim (ha.2 r) (hb.2 r)

theorem stored_eq (ha : a.WellFormed) (hb : b.WellFormed) :
    f.stored = a.stored ++ b.stored.map (Item.below a.rows) := by
  cases h with
  | dense rows rows' cols values values' =>
    rw [wellFormed_dense] at ha hb
    simp only [stored_dense, Array.toList_append, List.zipIdx_append, List.map_append,
      List.map_map, Array.length_toList, ha, Nat.zero_add]
    congr 1
    rw [List.zipIdx_eq_map_add, List.map_map]
    refine List.map_congr_left fun p hp ↦ ?_
    -- where there are no columns there are no values, so nothing is divided by zero
    have hcols : 0 < cols := by
      have hlt := List.snd_lt_of_mem_zipIdx hp
      rw [Array.length_toList, hb] at hlt
      exact Nat.pos_of_mul_pos_left (Nat.zero_lt_of_lt hlt)
    simp only [Function.comp_apply, Item.below, Nat.mul_add_mod_self_right, Item.mk.injEq,
      and_self, and_true]
    rw [Nat.add_comm, Nat.add_mul_div_right _ _ hcols, Nat.add_comm]
  | sparse rows rows' cols entries entries' =>
    simp only [stored_sparse, Array.toList_append, List.zipIdx_append, List.flatMap_append,
      Array.length_toList, ha.1, Nat.zero_add, List.map_flatMap, List.map_map]
    congr 1
    rw [List.zipIdx_eq_map_add, List.flatMap_map]
    rfl

theorem cellsAt_eq (ha : a.WellFormed) (hb : b.WellFormed) (row col : UInt64) :
    f.cellsAt row col = a.cellsAt row col ++ b.cellsAt (row + UInt64.ofNat a.rows) col := by
  simp only [cellsAt, nonzeros_eq, h.stored_eq ha hb, List.filter_append, List.map_append,
    List.filter_map, List.map_map]
  congr 1
  refine List.map_congr_left fun item _ ↦ ?_
  simp only [Function.comp_apply, Item.below, UInt64.ofNat_add, UInt64.add_assoc]

theorem fits (hfit : g.Fits row col f.rows f.cols) : g.Fits row col a.rows a.cols ∧
    g.Fits (row + UInt64.ofNat a.rows) col b.rows b.cols := by
  obtain ⟨hcols, hcols'⟩ := h.cols_eq
  rw [h.rows_eq] at hfit
  exact ⟨hcols ▸ hfit.upper, hcols' ▸ hfit.lower⟩

end Stacks

end Fragment

namespace Session

def importBoth (s : Session σ) (row col : UInt64) (upper lower : Fragment) (tag : UInt8)
    (sink : Sink σ ε) : Except (ImportFailure ε) Unit × Session σ :=
  match s.importAt row col upper tag sink with
  | (.ok (), s) => s.importAt (row + UInt64.ofNat upper.rows) col lower tag sink
  | (.error failure, s) => (.error failure, s)

theorem importCells_append (s : Session σ) (tag : UInt8) (sink : Sink σ ε)
    (cells cells' : List Cell) : s.importCells tag sink (cells ++ cells') =
      match s.importCells tag sink cells with
      | (.ok (), s) => s.importCells tag sink cells'
      | (.error failure, s) => (.error failure, s) := by
  induction cells generalizing s with
  | nil => rfl
  | cons c cells ih =>
    rw [List.cons_append, importCells, importCells]
    rcases s.importCell tag sink c with ⟨failure | ⟨⟩, s'⟩
    · rfl
    · exact ih s'

theorem importAt_stacks {s : Session σ} (hb : s.buffer.Sound) {a b f : Fragment}
    (h : Fragment.Stacks a b f) (ha : a.WellFormed) (hf : b.WellFormed) {row col : UInt64}
    (hfit : s.buffer.config.grid.Fits row col f.rows f.cols) (tag : UInt8) (sink : Sink σ ε) :
    s.importAt row col f tag sink = s.importBoth row col a b tag sink := by
  obtain ⟨hupper, hlower⟩ := h.fits hfit
  rw [← Grid.checkRegion_eq_ok_iff] at hfit hupper hlower
  -- the grid is still the same when the lower fragment comes
  have hconfig := (sound_importCells hb tag sink (ha.cellsAt_inside hupper)).2
  simp only [importBoth, importAt, hfit, hupper, h.cellsAt_eq ha hf, importCells_append]
  rcases hi : s.importCells tag sink (a.cellsAt row col) with ⟨failure | ⟨⟩, s'⟩
  · rfl
  · rw [hi] at hconfig
    dsimp only at hconfig ⊢
    rw [hconfig, hlower]

end Session

/-- An import of two fragments as one, the first on top of the second, is the import of the first
and then of the second: with every sink the outcome, the calls, the buffer, the state of the sink
and the log are the same. The stack is a fragment of its own, and the first row of the lower one
does not wrap round. -/
theorem importAt_stacked {config : Config} {s : Session σ} (hb : s.buffer.Reachable config)
    {a b f : Fragment} (h : Fragment.Stacks a b f) (ha : a.WellFormed) (hf : b.WellFormed)
    {row col : UInt64} (hfit : config.grid.checkRegion row col f.rows f.cols = .ok ())
    (tag : UInt8) (sink : Sink σ ε) : f.WellFormed ∧
      s.importAt row col f tag sink = s.importBoth row col a b tag sink ∧
      (s.watched []).importAt row col f tag sink.watch =
        (s.watched []).importBoth row col a b tag sink.watch ∧
      (0 < b.rows → 0 < b.cols → (row + UInt64.ofNat a.rows).toNat = row.toNat + a.rows) := by
  obtain ⟨hsound, rfl⟩ := hb.sound
  rw [Grid.checkRegion_eq_ok_iff] at hfit
  refine ⟨h.wellFormed ha hf, Session.importAt_stacks hsound h ha hf hfit tag sink,
    Session.importAt_stacks (s := s.watched []) hsound h ha hf hfit tag sink.watch, ?_⟩
  intro hrows hcols
  rw [h.rows_eq, h.cols_eq.2] at hfit
  exact hfit.toNat_below hrows hcols

/-- Unsorted rows with an entry stored twice. The first flush goes through while the upper row is
taken in, the second is refused while the lower one is. -/
theorem importAt_stacked_refused :
    let config : Config := ⟨.ofSizes 3 3 2 2, 2, .alwaysSparse, false⟩
    let v : Value := ⟨0x4000000000000000⟩
    let s : Session (Array Emission) := ⟨⟨config, ⟨2, #[⟨3, 3, v⟩]⟩, .zero⟩, #[], #[]⟩
    let upper : Row := ⟨#[⟨1, v⟩, ⟨0, .zero⟩, ⟨1, v⟩]⟩
    let lower : Row := ⟨#[⟨1, v⟩, ⟨0, v⟩]⟩
    let a : Fragment := ⟨1, 2, .sparse #[upper]⟩
    let b : Fragment := ⟨1, 2, .sparse #[lower]⟩
    let f : Fragment := ⟨2, 2, .sparse #[upper, lower]⟩
    let sink : Sink (Array Emission) String := .upTo 2 "full"
    s.buffer.Reachable config ∧ Fragment.Stacks a b f ∧ a.WellFormed ∧ b.WellFormed ∧
      config.grid.checkRegion 2 2 f.rows f.cols = .ok () ∧
      (s.importAt 2 2 f 9 sink).1 = .error (.flush (.refused "full")) ∧
      s.importAt 2 2 f 9 sink = s.importBoth 2 2 a b 9 sink ∧
      (s.watched []).importAt 2 2 f 9 sink.watch =
        (s.watched []).importBoth 2 2 a b 9 sink.watch := by
  intro config v s upper lower a b f sink
  have hb : s.buffer.Reachable config := .of_appends rfl [⟨3, 3, v⟩] rfl
  have h : Fragment.Stacks a b f := .sparse 1 1 2 #[upper] #[lower]
  have ha : a.WellFormed := Fragment.wellFormed_sparse.mpr ⟨rfl, by decide⟩
  have hf : b.WellFormed := Fragment.wellFormed_sparse.mpr ⟨rfl, by decide⟩
  have hfit : config.grid.checkRegion 2 2 f.rows f.cols = .ok () := by decide
  have hrefused : (s.importAt 2 2 f 9 sink).1 = .error (.flush (.refused "full")) := by cbv
  obtain ⟨-, himport, hcalls, -⟩ := importAt_stacked hb h ha hf hfit 9 sink
  exact ⟨hb, h, ha, hf, hfit, hrefused, himport, hcalls⟩

end TileBuffer
