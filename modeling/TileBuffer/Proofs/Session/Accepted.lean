import TileBuffer.Proofs.Session.LastWrite
import TileBuffer.Proofs.Session.Placement
import TileBuffer.Proofs.Session.Stream

namespace TileBuffer

variable {σ ε : Type}

/-- The cells that a request takes in, by what it names and how it is answered: the cell that was
appended, or what a fragment holds, at its places, up to the flush that failed. -/
inductive Request.Takes (g : Grid) : Request σ ε → Reply ε → List Cell → Prop
  | appended (c : Cell) : Takes g (.append c) (.appended (.ok ())) [c]
  | refused (c : Cell) (rejection : Rejection) :
      Takes g (.append c) (.appended (.error rejection)) []
  | imported {row col : UInt64} {source : Fragment} {tag : UInt8} {sink : Sink σ ε}
      {cells : List Cell} (h : source.CellsAt g row col cells) :
      Takes g (.importAt row col source tag sink) (.imported (.ok ())) cells
  | stopped {row col : UInt64} {source : Fragment} {tag : UInt8} {sink : Sink σ ε}
      {front cells : List Cell} (h : source.CellsAt g row col cells) (hfront : front <+: cells)
      (failure : Failure ε) :
      Takes g (.importAt row col source tag sink) (.imported (.error (.flush failure))) front
  | misplaced {row col : UInt64} {source : Fragment} {tag : UInt8} {sink : Sink σ ε}
      (h : ¬g.Fits row col source.rows source.cols) (rejection : Rejection) :
      Takes g (.importAt row col source tag sink) (.imported (.error (.rejected rejection))) []
  | flushed (tag : UInt8) (sink : Sink σ ε) (outcome : Except (Failure ε) (Option Report)) :
      Takes g (.flush tag sink) (.flushed outcome) []

/-- The cells that requests take in, one after the other. -/
inductive Request.TakeAll (g : Grid) : List (Request σ ε) → List (Reply ε) → List Cell → Prop
  | nil : TakeAll g [] [] []
  | cons {request : Request σ ε} {requests : List (Request σ ε)} {reply : Reply ε}
      {replies : List (Reply ε)} {taken rest : List Cell} (h : request.Takes g reply taken)
      (hs : TakeAll g requests replies rest) :
      TakeAll g (request :: requests) (reply :: replies) (taken ++ rest)

namespace Session

variable {s : Session σ} (hb : s.buffer.Sound)
include hb

theorem takes_importAt {row col : UInt64} {source : Fragment} (hf : source.WellFormed)
    (tag : UInt8) (sink : Sink σ ε) :
    (Request.importAt row col source tag sink).Takes s.buffer.config.grid
      (.imported (s.importAt row col source tag sink).1)
      (Move.accepted (s.importAtMoves row col source tag sink)) := by
  rw [importAtMoves]
  cases hr : s.buffer.config.grid.checkRegion row col source.rows source.cols with
  | error rejection =>
    rw [importAt, hr]
    refine .misplaced (fun hfit ↦ ?_) rejection
    rw [Grid.checkRegion_eq_ok_iff.mpr hfit] at hr
    cases hr
  | ok =>
    have hcells := hf.cellsAt (Grid.checkRegion_eq_ok_iff.mp hr)
    have hcase : s.importAt row col source tag sink =
        s.importCells tag sink (source.cellsAt row col) := by rw [importAt, hr]
    rcases importAt_outcome hb hf hr tag sink with h | ⟨reason, h⟩
    · rw [h]
      rw [hcase] at h
      rw [accepted_importCellsMoves_eq s tag sink h]
      exact .imported hcells
    · rw [h]
      exact .stopped hcells (accepted_importCellsMoves s tag sink _) _

theorem takes_request {request : Request σ ε} (hw : request.WellFormed) :
    request.Takes s.buffer.config.grid (s.serve request).1
      (Move.accepted (s.requestMoves request)) := by
  cases request with
  | append c =>
    rw [requestMoves, serve, append]
    cases s.buffer.append c with
    | ok b => exact .appended c
    | error rejection => exact .refused c rejection
  | importAt row col source tag sink => exact takes_importAt hb hw tag sink
  | flush tag sink =>
    rw [requestMoves, accepted_flushMoves]
    exact .flushed tag sink _

theorem takeAll {requests : List (Request σ ε)} (hw : ∀ r ∈ requests, r.WellFormed) :
    Request.TakeAll s.buffer.config.grid requests (s.serveAll requests).1
      (Move.accepted (s.moves requests)) := by
  induction requests generalizing s with
  | nil => exact .nil
  | cons request requests ih =>
    obtain ⟨hw, hws⟩ := List.forall_mem_cons.mp hw
    have hstep : Buffer.Steps True s.buffer (s.requestMoves request) (s.serve request).2.buffer :=
      serve_steps hb hw (.inr trivial)
    have hrest := ih (hstep.sound hb) hws
    rw [hstep.config_eq] at hrest
    rw [moves, Move.accepted, List.flatMap_append]
    exact .cons (takes_request hb hw) hrest

end Session

theorem WholeRun.takeAll (r : WholeRun σ ε) :
    Request.TakeAll r.config.grid r.all (r.session.serveAll r.all).1 r.accepted := by
  have hw : ∀ q ∈ r.all, q.WellFormed :=
    List.forall_mem_append.mpr ⟨r.wellFormed, List.forall_mem_singleton.mpr trivial⟩
  have h := Session.takeAll r.sound hw
  rwa [r.buffer_session] at h

end TileBuffer
