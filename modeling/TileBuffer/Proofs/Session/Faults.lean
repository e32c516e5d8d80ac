import TileBuffer.Proofs.Outside
import TileBuffer.Proofs.Session.Memory
import TileBuffer.Proofs.Session.Stream

namespace TileBuffer

variable {σ ε : Type}

namespace Buffer

end Buffer

namespace Session

section Faults

variable {s : Session σ} (hb : s.buffer.Sound) (tag : UInt8) (sink : Sink σ ε) (fault : Fault)
include hb

theorem sound_importCells {cells : List Cell} (hc : ∀ c ∈ cells, c.Inside s.buffer.config.grid) :
    (s.importCells tag sink cells).2.buffer.Sound ∧
      (s.importCells tag sink cells).2.buffer.config = s.buffer.config := by
  have hsteps : Buffer.Steps True s.buffer (s.importCellsMoves tag sink cells)
      (s.importCells tag sink cells).2.buffer := importCells_steps hb tag (.inr trivial) hc
  exact ⟨hsteps.sound hb, hsteps.config_eq⟩

end Faults

end Session

end TileBuffer
