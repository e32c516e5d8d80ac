import TileBuffer.Proofs.Session.Runs

namespace TileBuffer

variable {σ ε : Type}

/-- What a request lets be seen: its reply, the emissions that it offers to its sink, and what it
leaves of the sink, the log, the size of the buffer and the counters. -/
structure Answer (σ ε : Type) where
  reply : Reply ε
  calls : List Emission
  sink : σ
  log : Array Event
  size : ℕ
  counters : Counters

namespace Session

def answer (s : Session σ) (request : Request σ ε) : Answer σ ε :=
  let (reply, after) := (s.watched []).serve request.watch
  ⟨reply, after.sink.2, after.sink.1, after.log, after.buffer.size, after.buffer.counters⟩

def answers (s : Session σ) : List (Request σ ε) → List (Answer σ ε)
  | [] => []
  | request :: requests => s.answer request :: (s.serve request).2.answers requests

variable (s : Session σ) (tag : UInt8) (sink : Sink σ ε)

theorem answer_flush : s.answer (.flush tag sink) =
    ⟨.flushed (s.flush tag sink).1,
      flushCalls s.buffer.config s.buffer.store.cells tag sink s.sink,
      (s.flush tag sink).2.sink, (s.flush tag sink).2.log, (s.flush tag sink).2.buffer.size,
      (s.flush tag sink).2.buffer.counters⟩ := by
  have hwatch := flush_watch tag sink [] s.buffer.config s.buffer.store.cells s.sink
  rw [List.nil_append] at hwatch
  rw [answer, Request.watch, serve, flush, flush, watched, hwatch]
  rcases (TileBuffer.flush s.buffer.config s.buffer.store.cells tag sink s.sink).outcome
    with failure | ⟨_ | report⟩ <;> rfl

theorem answer_flush_empty (he : s.buffer.isEmpty = true) : s.answer (.flush tag sink) =
    ⟨.flushed (.ok none), [], s.sink, s.log, s.buffer.size, s.buffer.counters⟩ := by
  have hcells : s.buffer.store.cells.isEmpty = true := he
  have hcalls : flushCalls s.buffer.config s.buffer.store.cells tag sink s.sink = [] := by
    refine flushCalls_eq_nil tag sink ?_
    rw [TileBuffer.flush, if_pos hcells]
  rw [answer_flush, flush_empty tag he, hcalls]

end Session

end TileBuffer
