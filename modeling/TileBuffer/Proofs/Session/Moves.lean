import TileBuffer.Proofs.Flush
import TileBuffer.Session

namespace TileBuffer

variable {σ ε : Type}

inductive Move
  | take (c : Cell)
  /-- a flush of at least one cell; `auto` when the full buffer set it off -/
  | send (auto : Bool) (report : Report) (calls : List Emission)
  | fail (calls : List Emission)

namespace Move

def cells : Move → List Cell
  | take c => [c]
  | send .. => []
  | fail _ => []

def calls : Move → List Emission
  | take _ => []
  | send _ _ calls => calls
  | fail calls => calls

def sends : Move → List Emission
  | take _ => []
  | send _ _ calls => calls
  | fail _ => []

def hold (held : List Cell) : Move → List Cell
  | take c => held ++ [c]
  | send .. => []
  | fail _ => held

def accepted (moves : List Move) : List Cell := moves.flatMap cells

def sent (moves : List Move) : List Emission := moves.flatMap sends

def offered (moves : List Move) : List Emission := moves.flatMap calls

/-- The cells taken in since the last flush that went through. -/
def pending (moves : List Move) : List Cell := moves.foldl hold []

variable (moves : List Move) (m : Move)

theorem accepted_concat : accepted (moves ++ [m]) = accepted moves ++ m.cells := by
  rw [accepted, List.flatMap_append, List.flatMap_singleton, accepted]

theorem sent_concat : sent (moves ++ [m]) = sent moves ++ m.sends := by
  rw [sent, List.flatMap_append, List.flatMap_singleton, sent]

theorem offered_concat : offered (moves ++ [m]) = offered moves ++ m.calls := by
  rw [offered, List.flatMap_append, List.flatMap_singleton, offered]

theorem pending_concat : pending (moves ++ [m]) = hold (pending moves) m := by
  rw [pending, List.foldl_append, List.foldl_cons, List.foldl_nil, pending]

end Move

namespace Session

def flushMoves (s : Session σ) (auto : Bool) (tag : UInt8) (sink : Sink σ ε) : List Move :=
  let calls := flushCalls s.buffer.config s.buffer.store.cells tag sink s.sink
  match (s.flush tag sink).1 with
  | .ok none => []
  | .ok (some report) => [.send auto report calls]
  | .error _ => [.fail calls]

def makeRoomMoves (s : Session σ) (tag : UInt8) (sink : Sink σ ε) : List Move :=
  if s.buffer.isFull then s.flushMoves true tag sink else []

def importCellMoves (s : Session σ) (tag : UInt8) (sink : Sink σ ε) (c : Cell) : List Move :=
  s.makeRoomMoves tag sink ++
    match s.makeRoom tag sink with
    | (.error _, _) => []
    | (.ok (), s) =>
      match s.buffer.push c with
      | .error _ => []
      | .ok buffer => .take c :: { s with buffer := buffer }.makeRoomMoves tag sink

def importCellsMoves (s : Session σ) (tag : UInt8) (sink : Sink σ ε) : List Cell → List Move
  | [] => []
  | c :: cells =>
    s.importCellMoves tag sink c ++
      match s.importCell tag sink c with
      | (.ok (), s) => s.importCellsMoves tag sink cells
      | (.error _, _) => []

def importAtMoves (s : Session σ) (row col : UInt64) (source : Fragment) (tag : UInt8)
    (sink : Sink σ ε) : List Move :=
  match s.buffer.config.grid.checkRegion row col source.rows source.cols with
  | .error _ => []
  | .ok () => s.importCellsMoves tag sink (source.cellsAt row col)

def requestMoves (s : Session σ) : Request σ ε → List Move
  | .append c =>
    match s.buffer.append c with
    | .ok _ => [.take c]
    | .error _ => []
  | .importAt row col source tag sink => s.importAtMoves row col source tag sink
  | .flush tag sink => s.flushMoves false tag sink

def moves (s : Session σ) : List (Request σ ε) → List Move
  | [] => []
  | request :: requests => s.requestMoves request ++ (s.serve request).2.moves requests

section Accepted

variable (s : Session σ) (tag : UInt8) (sink : Sink σ ε)

theorem accepted_flushMoves (auto : Bool) : Move.accepted (s.flushMoves auto tag sink) = [] := by
  rw [flushMoves]
  rcases (s.flush tag sink).1 with failure | ⟨_ | report⟩ <;> rfl

theorem accepted_makeRoomMoves : Move.accepted (s.makeRoomMoves tag sink) = [] := by
  rw [makeRoomMoves]
  split
  · exact accepted_flushMoves s tag sink true
  · rfl

theorem accepted_importCellMoves (c : Cell) :
    Move.accepted (s.importCellMoves tag sink c) <+: [c] := by
  rw [importCellMoves, Move.accepted, List.flatMap_append, ← Move.accepted,
    accepted_makeRoomMoves, List.nil_append]
  rcases s.makeRoom tag sink with ⟨failure | ⟨⟩, s'⟩
  · exact List.nil_prefix
  · dsimp only
    cases s'.buffer.push c with
    | error rejection => exact List.nil_prefix
    | ok buffer =>
      dsimp only
      rw [List.flatMap_cons, ← Move.accepted, accepted_makeRoomMoves, Move.cells]
      exact List.prefix_refl _

theorem accepted_importCellMoves_eq {c : Cell} (h : (s.importCell tag sink c).1 = .ok ()) :
    Move.accepted (s.importCellMoves tag sink c) = [c] := by
  rw [importCellMoves, Move.accepted, List.flatMap_append, ← Move.accepted,
    accepted_makeRoomMoves, List.nil_append]
  rw [importCell] at h
  rcases hr : s.makeRoom tag sink with ⟨failure | ⟨⟩, s'⟩
  · rw [hr] at h
    cases h
  · rw [hr] at h
    cases hp : s'.buffer.push c with
    | error rejection => simp [hp] at h
    | ok buffer =>
      simp only [hp, List.flatMap_cons, Move.cells]
      rw [← Move.accepted, accepted_makeRoomMoves]
      rfl

theorem accepted_importCellsMoves (cells : List Cell) :
    Move.accepted (s.importCellsMoves tag sink cells) <+: cells := by
  induction cells generalizing s with
  | nil => exact List.nil_prefix
  | cons c cells ih =>
    rw [importCellsMoves, Move.accepted, List.flatMap_append, ← Move.accepted]
    rcases hc : s.importCell tag sink c with ⟨failure | ⟨⟩, s'⟩
    · have h := accepted_importCellMoves s tag sink c
      rw [List.flatMap_nil, List.append_nil]
      exact h.trans (List.prefix_append [c] cells)
    · rw [accepted_importCellMoves_eq s tag sink (congrArg Prod.fst hc)]
      exact (List.prefix_cons_inj c).mpr (ih s')

theorem accepted_importCellsMoves_eq {cells : List Cell}
    (h : (s.importCells tag sink cells).1 = .ok ()) :
    Move.accepted (s.importCellsMoves tag sink cells) = cells := by
  induction cells generalizing s with
  | nil => rfl
  | cons c cells ih =>
    rw [importCells] at h
    rw [importCellsMoves, Move.accepted, List.flatMap_append, ← Move.accepted]
    rcases hc : s.importCell tag sink c with ⟨failure | ⟨⟩, s'⟩
    · rw [hc] at h
      cases h
    · rw [hc] at h
      rw [accepted_importCellMoves_eq s tag sink (congrArg Prod.fst hc)]
      exact congrArg (c :: ·) (ih s' h)

end Accepted

def watched (s : Session σ) (seen : List Emission) : Session (σ × List Emission) :=
  ⟨s.buffer, (s.sink, seen), s.log⟩

end Session

def Request.watch : Request σ ε → Request (σ × List Emission) ε
  | .append c => .append c
  | .importAt row col source tag sink => .importAt row col source tag sink.watch
  | .flush tag sink => .flush tag sink.watch

section Watch

variable (tag : UInt8) (sink : Sink σ ε) (seen : List Emission)

namespace Session

variable (s : Session σ)

theorem flush_watched (auto : Bool) : (s.watched seen).flush tag sink.watch =
    ((s.flush tag sink).1,
      (s.flush tag sink).2.watched (seen ++ Move.offered (s.flushMoves auto tag sink))) := by
  have hf := flush_watch tag sink seen s.buffer.config s.buffer.store.cells s.sink
  cases ho : (TileBuffer.flush s.buffer.config s.buffer.store.cells tag sink s.sink).outcome with
  | error failure => simp [flush, watched, flushMoves, hf, ho, Move.offered, Move.calls]
  | ok report =>
    cases report with
    | none =>
      have hn := flushCalls_eq_nil tag sink ho
      simp [flush, watched, flushMoves, hf, ho, Move.offered, hn]
    | some report => simp [flush, watched, flushMoves, hf, ho, Move.offered, Move.calls]

theorem flushMoves_log (auto : Bool) (log : Array Event) :
    { s with log := log }.flushMoves auto tag sink = s.flushMoves auto tag sink := by
  cases ho : (TileBuffer.flush s.buffer.config s.buffer.store.cells tag sink s.sink).outcome with
  | error failure => simp [flushMoves, flush, ho]
  | ok report => cases report <;> simp [flushMoves, flush, ho]

theorem autoFlush_watched : (s.watched seen).autoFlush tag sink.watch =
    ((s.autoFlush tag sink).1,
      (s.autoFlush tag sink).2.watched (seen ++ Move.offered (s.flushMoves true tag sink))) := by
  have hw := flush_watched tag sink seen { s with log := s.log.push (.full s.buffer.size tag) } true
  rw [flushMoves_log] at hw
  simp only [autoFlush]
  simp only [watched] at hw ⊢
  rw [hw]
  rcases flush { s with log := s.log.push (.full s.buffer.size tag) } tag sink
    with ⟨failure | report, s'⟩ <;> rfl

theorem makeRoom_watched : (s.watched seen).makeRoom tag sink.watch =
    ((s.makeRoom tag sink).1,
      (s.makeRoom tag sink).2.watched (seen ++ Move.offered (s.makeRoomMoves tag sink))) := by
  have hb : (s.watched seen).buffer.isFull = s.buffer.isFull := rfl
  rw [makeRoom, makeRoom, makeRoomMoves, hb]
  cases s.buffer.isFull with
  | true => exact autoFlush_watched tag sink seen s
  | false => simp [Move.offered]

theorem importCell_watched (c : Cell) : (s.watched seen).importCell tag sink.watch c =
    ((s.importCell tag sink c).1, (s.importCell tag sink c).2.watched
      (seen ++ Move.offered (s.importCellMoves tag sink c))) := by
  rw [importCell, importCell, importCellMoves, makeRoom_watched]
  rcases s.makeRoom tag sink with ⟨failure | ⟨⟩, s'⟩
  · simp
  · cases hp : s'.buffer.push c with
    | error rejection => simp [watched, hp]
    | ok buffer =>
      have hw := makeRoom_watched tag sink (seen ++ Move.offered (s.makeRoomMoves tag sink))
        { s' with buffer := buffer }
      simp only [watched] at hw ⊢
      simp only [hp, hw]
      rcases makeRoom { s' with buffer := buffer } tag sink with ⟨failure | ⟨⟩, s''⟩ <;>
        simp [Move.offered, Move.calls]

theorem importCells_watched (cells : List Cell) :
    (s.watched seen).importCells tag sink.watch cells =
      ((s.importCells tag sink cells).1, (s.importCells tag sink cells).2.watched
        (seen ++ Move.offered (s.importCellsMoves tag sink cells))) := by
  induction cells generalizing s seen with
  | nil => simp [importCells, importCellsMoves, Move.offered]
  | cons c cells ih =>
    rw [importCells, importCells, importCellsMoves, importCell_watched]
    rcases s.importCell tag sink c with ⟨failure | ⟨⟩, s'⟩
    · simp
    · simp only [ih, Move.offered, List.flatMap_append, List.append_assoc]

theorem importAt_watched (row col : UInt64) (source : Fragment) :
    (s.watched seen).importAt row col source tag sink.watch =
      ((s.importAt row col source tag sink).1, (s.importAt row col source tag sink).2.watched
        (seen ++ Move.offered (s.importAtMoves row col source tag sink))) := by
  have hb : (s.watched seen).buffer.config = s.buffer.config := rfl
  rw [importAt, importAt, importAtMoves, hb]
  cases s.buffer.config.grid.checkRegion row col source.rows source.cols with
  | error rejection => simp [Move.offered]
  | ok => exact importCells_watched tag sink seen s _

end Session

end Watch

namespace Session

theorem serve_watched (s : Session σ) (seen : List Emission) (request : Request σ ε) :
    (s.watched seen).serve request.watch = ((s.serve request).1,
      (s.serve request).2.watched (seen ++ Move.offered (s.requestMoves request))) := by
  cases request with
  | append c =>
    cases ha : s.buffer.append c <;>
      simp [serve, Request.watch, append, watched, requestMoves, ha, Move.offered, Move.calls]
  | importAt row col source tag sink =>
    simp only [serve, Request.watch, importAt_watched, requestMoves]
  | flush tag sink =>
    simp only [serve, Request.watch, flush_watched tag sink seen s false, requestMoves]

/-- Watching its sinks changes nothing about a run, and what they are offered is what its moves
offer. -/
theorem serveAll_watched (s : Session σ) (seen : List Emission) (requests : List (Request σ ε)) :
    (s.watched seen).serveAll (requests.map Request.watch) = ((s.serveAll requests).1,
      (s.serveAll requests).2.watched (seen ++ Move.offered (s.moves requests))) := by
  induction requests generalizing s seen with
  | nil => simp [serveAll, moves, Move.offered]
  | cons request requests ih =>
    simp only [List.map_cons, serveAll, serve_watched, ih, moves, Move.offered,
      List.flatMap_append, List.append_assoc]

end Session

end TileBuffer
