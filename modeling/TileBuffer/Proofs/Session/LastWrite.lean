import TileBuffer.Proofs.Entries
import TileBuffer.Proofs.Session.Runs

namespace TileBuffer

variable {σ ε : Type}

namespace Move

def Nonzero (moves : List Move) : Prop := ∀ c ∈ accepted moves, c.value.isZero = false

theorem Nonzero.of_concat {moves : List Move} {m : Move} (h : Nonzero (moves ++ [m])) :
    Nonzero moves := by
  intro c hc
  apply h
  rw [accepted_concat]
  exact List.mem_append_left _ hc

end Move

namespace Buffer

/-- What was sent and what is held, one after the other, describe the cells taken in. -/
structure Replays (moves : List Move) (b : Buffer) : Prop where
  held : ∀ c ∈ b.store.cells, c ∈ Move.accepted moves
  last : ∀ row col, Cell.lastAt ((Move.sent moves).flatMap (Emission.entries b.config.grid) ++
    b.store.cells.toList) row col = Cell.lastAt (Move.accepted moves) row col

variable {refusals : Prop} {b b' : Buffer} {m : Move} {moves : List Move}

theorem replays_fresh (config : Config) : (fresh config).Replays [] :=
  ⟨by simp [fresh, CellStore.empty], fun _ _ ↦ rfl⟩

theorem Sound.lastAt_entries (hb : b.Sound) (hz : ∀ c ∈ b.store.cells, c.value.isZero = false)
    (tag : UInt8) (row col : UInt64) :
    Cell.lastAt ((b.plan tag).emissions.flatMap (Emission.entries b.config.grid)) row col =
      Cell.lastAt b.store.cells.toList row col :=
  Plan.lastAt_entries hb.grid hb.inside_toList
    (fun c hc ↦ hz c (Array.mem_toList_iff.mp hc)) row col

theorem Step.replays (hs : Step refusals b m b') (hb : b.Sound) (hn : Move.Nonzero moves)
    (h : b.Replays moves) : b'.Replays (moves ++ [m]) := by
  obtain ⟨hheld, hlast⟩ := h
  have hg := hs.config_eq
  cases hs with
  | @take c hin hroom =>
    refine ⟨fun d hd ↦ ?_, fun row col ↦ ?_⟩
    · rw [Move.accepted_concat, List.mem_append]
      obtain hd | rfl := Array.mem_push.mp hd
      · exact .inl (hheld d hd)
      · exact .inr List.mem_cons_self
    · rw [Move.accepted_concat, Move.sent_concat, Move.sends, List.append_nil, hg, withCells,
        Array.toList_push, ← List.append_assoc, Cell.lastAt_append, hlast, ← Cell.lastAt_append]
      rfl
  | send auto tag hne =>
    -- the entries of the flush stand where the cells stood, behind everything sent before
    refine ⟨by simp [cells_afterFlush], fun row col ↦ ?_⟩
    rw [Move.accepted_concat, Move.sent_concat, Move.cells, Move.sends, List.append_nil, hg,
      cells_afterFlush, List.append_nil, List.flatMap_append, Cell.lastAt_append,
      hb.lastAt_entries (fun c hc ↦ hn c (hheld c hc)), ← Cell.lastAt_append, hlast]
  | fail tag calls hr hne =>
    refine ⟨fun d hd ↦ ?_, fun row col ↦ ?_⟩
    · rw [Move.accepted_concat, Move.cells, List.append_nil]
      exact hheld d (mem_plan.mp (List.mem_toArray.mp hd))
    · have hsort : Cell.valuesAt (b.plan tag).cells row col = _ :=
        Cell.valuesAt_sortByTile _ _ _ _ _
      rw [Move.accepted_concat, Move.sent_concat, Move.cells, Move.sends, List.append_nil,
        List.append_nil, hg, withCells, Cell.lastAt_append, Cell.lastAt, hsort, ← Cell.lastAt,
        ← Cell.lastAt_append, hlast]

theorem Steps.replays {config : Config} (hs : Steps refusals (fresh config) moves b)
    (hc : config.check = .ok ()) (hn : Move.Nonzero moves) : b.Replays moves := by
  induction hs with
  | nil => exact replays_fresh config
  | snoc h hs ih => exact hs.replays (h.sound (sound_fresh hc)) hn.of_concat (ih hn.of_concat)

theorem Steps.isZero_sent {config : Config} (hs : Steps refusals (fresh config) moves b)
    (hc : config.check = .ok ()) (hn : Move.Nonzero moves) (g : Grid) :
    ∀ e ∈ Move.sent moves, ∀ c ∈ e.entries g, c.value.isZero = false := by
  induction hs with
  | nil => exact fun e he ↦ nomatch he
  | @snoc _ _ moves m h hs ih =>
    intro e he
    rw [Move.sent_concat, List.mem_append] at he
    rcases he with he | he
    · exact ih hn.of_concat e he
    · -- what a flush sends comes from cells that were taken in before it
      have hheld := (h.replays hc hn.of_concat).held
      cases hs with
      | take => cases he
      | send auto tag hne =>
        refine Plan.isZero_entries (fun c hc ↦ ?_) he g
        exact hn.of_concat c (hheld c (Array.mem_toList_iff.mp hc))
      | fail => cases he

end Buffer

namespace Request

/-- A value that is appended is not zero; imports leave zeros out by themselves. -/
def Nonzero : Request σ ε → Prop
  | append c => c.value.isZero = false
  | _ => True

end Request

namespace Session

variable {s : Session σ}

theorem nonzero_requestMoves {request : Request σ ε} (h : request.Nonzero) :
    Move.Nonzero (s.requestMoves request) := by
  intro c hc
  cases request with
  | append d =>
    rw [requestMoves] at hc
    cases ha : s.buffer.append d with
    | error rejection => simp [ha, Move.accepted] at hc
    | ok buffer =>
      rw [ha] at hc
      rw [List.mem_singleton.mp hc]
      exact h
  | importAt row col source tag sink =>
    rw [requestMoves, importAtMoves] at hc
    cases hr : s.buffer.config.grid.checkRegion row col source.rows source.cols with
    | error rejection => simp [hr, Move.accepted] at hc
    | ok =>
      rw [hr] at hc
      obtain ⟨item, hitem, rfl⟩ := List.mem_map.mp ((accepted_importCellsMoves s tag sink _).subset hc)
      exact Fragment.isZero_of_mem_nonzeros hitem
  | flush tag sink =>
    rw [requestMoves, accepted_flushMoves] at hc
    cases hc

theorem nonzero_moves {requests : List (Request σ ε)} (h : ∀ r ∈ requests, r.Nonzero) :
    Move.Nonzero (s.moves requests) := by
  induction requests generalizing s with
  | nil => simp [moves, Move.Nonzero, Move.accepted]
  | cons request requests ih =>
    obtain ⟨hr, hrs⟩ := List.forall_mem_cons.mp h
    intro c hc
    rw [moves, Move.accepted, List.flatMap_append, List.mem_append] at hc
    rcases hc with hc | hc
    · exact nonzero_requestMoves hr c hc
    · exact ih hrs c hc

theorem serveAll_append (requests requests' : List (Request σ ε)) :
    (s.serveAll (requests ++ requests')).2 = ((s.serveAll requests).2.serveAll requests').2 := by
  induction requests generalizing s with
  | nil => rfl
  | cons request requests ih => exact ih

theorem cells_flush (hb : s.buffer.Sound) (tag : UInt8) {sink : Sink σ ε} (hs : sink.Accepting) :
    (s.flush tag sink).2.buffer.store.cells = #[] := by
  cases hne : s.buffer.isEmpty with
  | true =>
    rw [flush_empty tag hne]
    exact Array.isEmpty_iff.mp hne
  | false =>
    rw [flush_sent hb tag hne (hs.deliver_eq_ok _ _)]
    rfl

end Session

/-- A session of a fresh buffer, up to a last flush, with sinks that refuse nothing. -/
structure WholeRun (σ ε : Type) where
  config : Config
  buffer : Buffer
  start : σ
  requests : List (Request σ ε)
  tag : UInt8
  sink : Sink σ ε
  fresh : Buffer.ofConfig config = .ok buffer
  wellFormed : ∀ r ∈ requests, r.WellFormed
  nonzero : ∀ r ∈ requests, r.Nonzero
  accepting : ∀ r ∈ requests, r.Accepting
  accepting_last : sink.Accepting

namespace WholeRun

variable (r : WholeRun σ ε)

def all : List (Request σ ε) := r.requests ++ [.flush r.tag r.sink]

def session : Session σ := .start r.buffer r.start

def sent : List Emission :=
  ((Session.start r.buffer (r.start, [])).serveAll (r.all.map Request.watch)).2.sink.2

def entries : List Cell := r.sent.flatMap (Emission.entries r.config.grid)

def accepted : List Cell := Move.accepted (r.session.moves r.all)

theorem check_config : r.config.check = .ok () := (Buffer.ofConfig_eq_ok r.fresh).1

theorem buffer_session : r.session.buffer = .fresh r.config := (Buffer.ofConfig_eq_ok r.fresh).2

theorem sound : r.session.buffer.Sound := r.buffer_session ▸ Buffer.sound_fresh r.check_config

theorem steps_requests : Buffer.Steps False r.session.buffer (r.session.moves r.requests)
    (r.session.serveAll r.requests).2.buffer :=
  Session.serveAll_steps r.sound r.wellFormed fun q hq ↦ .inl (r.accepting q hq)

theorem steps : Buffer.Steps False r.session.buffer (r.session.moves r.all)
    (r.session.serveAll r.all).2.buffer := by
  refine Session.serveAll_steps r.sound ?_ fun q hq ↦ .inl ?_
  · exact List.forall_mem_append.mpr ⟨r.wellFormed, List.forall_mem_singleton.mpr trivial⟩
  · revert q
    exact List.forall_mem_append.mpr ⟨r.accepting, List.forall_mem_singleton.mpr r.accepting_last⟩

theorem nonzero_all : ∀ q ∈ r.all, q.Nonzero :=
  List.forall_mem_append.mpr ⟨r.nonzero, List.forall_mem_singleton.mpr trivial⟩

theorem cells_eq : (r.session.serveAll r.all).2.buffer.store.cells = #[] := by
  rw [all, Session.serveAll_append]
  exact Session.cells_flush (r.steps_requests.sound r.sound) r.tag r.accepting_last

theorem sent_eq : r.sent = Move.sent (r.session.moves r.all) := by
  have hwatch := r.session.serveAll_watched [] r.all
  rw [← r.steps.offered_eq]
  exact congrArg (fun q ↦ q.2.sink.2) hwatch

theorem lastAt_entries_eq (row col : UInt64) :
    Cell.lastAt r.entries row col = Cell.lastAt r.accepted row col := by
  have hsteps := r.steps
  rw [buffer_session] at hsteps
  have h := (hsteps.replays r.check_config (Session.nonzero_moves r.nonzero_all)).last row col
  rw [hsteps.config_eq, r.cells_eq, List.append_nil, ← r.sent_eq] at h
  exact h

theorem isZero_entries : ∀ c ∈ r.entries, c.value.isZero = false := by
  intro c hc
  obtain ⟨e, he, hce⟩ := List.mem_flatMap.mp hc
  have hsteps := r.steps
  rw [buffer_session] at hsteps
  rw [r.sent_eq] at he
  exact hsteps.isZero_sent r.check_config (Session.nonzero_moves r.nonzero_all) r.config.grid e he c
    hce

/-- The last entry of a position is the last cell taken in there, and there is none where no cell
was taken in, so that runs that take in the same cells describe the same matrix. -/
theorem describes_accepted :
    (∀ row col, Cell.lastAt r.entries row col = Cell.lastAt r.accepted row col) ∧
    (∀ row col, (∀ c ∈ r.accepted, c.isAt row col = false) →
      ∀ c ∈ r.entries, c.isAt row col = false) ∧
    ∀ {σ' ε' : Type} (r' : WholeRun σ' ε'), r'.accepted = r.accepted →
      ∀ row col, Cell.lastAt r'.entries row col = Cell.lastAt r.entries row col := by
  refine ⟨r.lastAt_entries_eq, fun row col h ↦ ?_, fun r' h row col ↦ ?_⟩
  · rw [← Cell.lastAt_eq_none_iff, ← r.lastAt_entries_eq, Cell.lastAt_eq_none_iff] at h
    exact h
  · rw [r'.lastAt_entries_eq, h, r.lastAt_entries_eq]

/-- A cell is written twice, then a fragment is imported that reaches into three tiles. -/
def overwriting (config : Config) (h : Buffer.ofConfig config = .ok (.fresh config)) :
    WholeRun (Array Emission) Empty where
  config := config
  buffer := .fresh config
  start := #[]
  requests := [.append ⟨1, 1, ⟨0x3ff0000000000000⟩⟩, .append ⟨1, 1, ⟨0x4000000000000000⟩⟩,
    .flush 0 .collect,
    .importAt 2 2 ⟨2, 2, .dense #[.zero, ⟨0x4008000000000000⟩, ⟨0x4010000000000000⟩, .zero]⟩ 1
      .collect]
  tag := 2
  sink := .collect
  fresh := h
  wellFormed := by simp [Request.WellFormed, Fragment.WellFormed]
  nonzero := by
    have h₁ : Value.isZero ⟨0x3ff0000000000000⟩ = false := by decide
    have h₂ : Value.isZero ⟨0x4000000000000000⟩ = false := by decide
    simp [Request.Nonzero, h₁, h₂]
  accepting := by simp [Request.Accepting, Sink.collect_accepting]
  accepting_last := Sink.collect_accepting

theorem describes_accepted_overwriting :
    let r := overwriting ⟨.ofSizes 3 3 2 2, 2, .alwaysDense, false⟩ rfl
    let r' := overwriting ⟨.ofSizes 3 3 1 3, 7, .alwaysSparse, true⟩ rfl
    r'.accepted = r.accepted ∧
      (∀ row col, Cell.lastAt r'.entries row col = Cell.lastAt r.entries row col) ∧
      Cell.lastAt r.entries 1 1 = some ⟨0x4000000000000000⟩ := by
  intro r r'
  have h : r'.accepted = r.accepted := by decide +kernel
  have hlast : Cell.lastAt r.accepted 1 1 = some ⟨0x4000000000000000⟩ := by decide +kernel
  exact ⟨h, r.describes_accepted.2.2 r' h, (r.describes_accepted.1 1 1).trans hlast⟩

end WholeRun

end TileBuffer
