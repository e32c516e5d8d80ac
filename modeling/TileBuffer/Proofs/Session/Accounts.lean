import TileBuffer.Proofs.Report
import TileBuffer.Proofs.Session.Runs

namespace TileBuffer

variable {σ ε : Type}

namespace Buffer

/-- The counters of a buffer and the cells it holds, against its moves. -/
structure Books (moves : List Move) (b : Buffer) : Prop where
  cells : b.counters.cells + b.size = (Move.accepted moves).length
  auto_le : b.counters.autoFlushes ≤ b.counters.flushes
  flushes_le : b.counters.flushes ≤ b.counters.blocks + b.counters.records
  sent : b.counters.blocks + b.counters.records = (Move.sent moves).length
  weight_le : 2 * b.counters.blocks + b.counters.records ≤ b.counters.cells
  pending : ∀ t, b.store.cells.toList.filter (fun c ↦ c.tile b.config.grid = t) =
    (Move.pending moves).filter (fun c ↦ c.tile b.config.grid = t)

structure Accounts (config : Config) (moves : List Move) (b : Buffer) : Prop
    extends b.Sound, b.Books moves where
  config_eq : b.config = config
  capacity_eq : b.store.capacity = config.capacity.toNat
  remaining_eq : b.remaining = b.store.capacity - b.size

variable {refusals : Prop} {config : Config} {b b' : Buffer} {m : Move} {moves : List Move}

theorem books_fresh (config : Config) : (fresh config).Books [] :=
  ⟨rfl, le_rfl, le_rfl, rfl, le_rfl, fun _ ↦ rfl⟩

section Send

variable (auto : Bool) (tag : UInt8)

theorem counters_afterFlush (r : Report) : (b.afterFlush auto r).counters =
    ⟨b.counters.flushes + 1, b.counters.autoFlushes + auto.toNat, b.counters.cells + r.cells,
      b.counters.blocks + r.blocks, b.counters.records + r.records⟩ := by
  cases auto <;> simp [afterFlush, flushed, Counters.record_eq, Counters.recordAuto]

theorem Books.send (h : b.Books moves) (hne : b.isEmpty = false) :
    (b.afterFlush auto (b.plan tag).report).Books
      (moves ++ [.send auto (b.plan tag).report (b.plan tag).emissions]) := by
  have hcells : b.store.cells.toList ≠ [] := by
    simpa [isEmpty, CellStore.isEmpty] using hne
  have hpos : 0 < (b.plan tag).report.emissions := Plan.emissions_report_pos hcells
  have hsum := (b.plan tag).report.blocks_add_records
  have hall : (b.plan tag).report.cells = b.size := Plan.cells_report
  have hweight : 2 * (b.plan tag).report.blocks + (b.plan tag).report.records ≤ b.size :=
    Plan.weight_report_le
  have hauto : auto.toNat ≤ 1 := Bool.toNat_le auto
  obtain ⟨hc, ha, hf, hs, hw, -⟩ := h
  refine ⟨?_, ?_, ?_, ?_, ?_, fun t ↦ ?_⟩
  · rw [counters_afterFlush, size, CellStore.size, cells_afterFlush, Move.accepted_concat, hall]
    simpa [Move.cells] using hc
  · rw [counters_afterFlush]
    dsimp only
    omega
  · rw [counters_afterFlush]
    dsimp only
    omega
  · rw [counters_afterFlush, Move.sent_concat, List.length_append, Move.sends,
      Plan.length_emissions]
    dsimp only
    omega
  · rw [counters_afterFlush]
    dsimp only
    omega
  · rw [cells_afterFlush, Move.pending_concat, Move.hold]

end Send

theorem Step.books (hs : Step refusals b m b') (h : b.Books moves) : b'.Books (moves ++ [m]) := by
  cases hs with
  | take hin hroom =>
    obtain ⟨hc, ha, hf, hs, hw, hp⟩ := h
    refine ⟨?_, ha, hf, ?_, hw, fun t ↦ ?_⟩
    · rw [Move.accepted_concat, List.length_append, ← hc]
      simp [size, CellStore.size, withCells, Move.cells, Nat.add_assoc]
    · rw [Move.sent_concat, Move.sends, List.append_nil]
      exact hs
    · rw [Move.pending_concat, Move.hold, withCells, Array.toList_push, List.filter_append, hp,
        List.filter_append]
  | send auto tag hne => exact h.send auto tag hne
  | fail tag calls hr hne =>
    obtain ⟨hc, ha, hf, hs, hw, hp⟩ := h
    refine ⟨?_, ha, hf, ?_, hw, fun t ↦ ?_⟩
    · rw [size_withCells_plan, Move.accepted_concat, Move.cells, List.append_nil]
      exact hc
    · rw [Move.sent_concat, Move.sends, List.append_nil]
      exact hs
    · -- the failed flush has sorted the cells, which keeps the order inside each tile
      rw [Move.pending_concat, Move.hold]
      refine Eq.trans (filter_sortByTile fun c d hc hd ↦ ?_) (hp t)
      rw [decide_eq_true_eq] at hc hd
      exact hc.trans hd.symm

theorem Steps.books (hs : Steps refusals (fresh config) moves b) : b.Books moves := by
  induction hs with
  | nil => exact books_fresh config
  | snoc _ hs ih => exact hs.books ih

theorem Steps.accounts (hc : config.check = .ok ()) (hs : Steps refusals (fresh config) moves b) :
    b.Accounts config moves := by
  have hb := hs.sound (sound_fresh hc)
  have he : b.config = config := hs.config_eq
  exact ⟨hb, hs.books, he, he ▸ hb.capacity, rfl⟩

end Buffer

/-- The buffer of a session keeps its invariant, whatever is asked of it and whatever its sinks
refuse; watching the sinks shows that its moves offer what they get. -/
theorem serveAll_accounts {config : Config} {b : Buffer} (hb : Buffer.ofConfig config = .ok b)
    (s : σ) {requests : List (Request σ ε)} (hw : ∀ r ∈ requests, r.WellFormed) :
    ((Session.start b s).serveAll requests).2.buffer.Accounts config
        ((Session.start b s).moves requests) ∧
      ((Session.start b (s, [])).serveAll (requests.map Request.watch)).2.sink.2 =
        Move.offered ((Session.start b s).moves requests) := by
  obtain ⟨hc, rfl⟩ := Buffer.ofConfig_eq_ok hb
  have hsteps := Session.serveAll_steps (s := Session.start (Buffer.fresh config) s)
    (Buffer.sound_fresh hc) hw fun _ _ ↦ .inr trivial
  refine ⟨hsteps.accounts hc, ?_⟩
  have hwatch := (Session.start (Buffer.fresh config) s).serveAll_watched [] requests
  exact congrArg (fun r ↦ r.2.sink.2) hwatch

/-- The sink takes one emission and refuses the second, so the first flush fails half way and the
flush that the import sets off fails at once. -/
theorem serveAll_accounts_refusing :
    let config : Config := ⟨.ofSizes 3 3 2 2, 2, .alwaysDense, false⟩
    let sink : Sink (Array Emission) String := .upTo 1 "full"
    let requests : List (Request (Array Emission) String) :=
      [.append ⟨3, 3, ⟨0x3ff0000000000000⟩⟩, .append ⟨1, 1, .zero⟩, .append ⟨2, 2, .zero⟩,
        .flush 0 sink, .importAt 3 2 ⟨1, 2, .dense #[.zero, ⟨0x4000000000000000⟩]⟩ 1 sink]
    Buffer.ofConfig config = .ok (.fresh config) ∧ (∀ r ∈ requests, r.WellFormed) ∧
      ((Session.start (.fresh config) #[]).serveAll requests).2.buffer.Accounts config
        ((Session.start (.fresh config) #[]).moves requests) ∧
      ((Session.start (.fresh config) (#[], [])).serveAll (requests.map Request.watch)).2.sink.2 =
        Move.offered ((Session.start (.fresh config) #[]).moves requests) := by
  intro config sink requests
  have hb : Buffer.ofConfig config = .ok (.fresh config) := rfl
  have hw : ∀ r ∈ requests, r.WellFormed := by
    simp [requests, Request.WellFormed, Fragment.WellFormed]
  exact ⟨hb, hw, serveAll_accounts hb #[] hw⟩

end TileBuffer
