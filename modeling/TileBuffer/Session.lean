import TileBuffer.Buffer
import TileBuffer.Flush

namespace TileBuffer

variable {σ ε : Type}

structure Session (σ : Type) where
  buffer : Buffer
  sink : σ
  log : Array Event

inductive ImportFailure (ε : Type)
  | rejected (rejection : Rejection)
  | flush (failure : Failure ε)
deriving DecidableEq

namespace ImportFailure

def cause (text : ε → String) : ImportFailure ε → String
  | .rejected rejection => rejection.message
  | .flush (.refused reason) => text reason
  | .flush (.fault fault) => fault.message

def message (text : ε → String) : ImportFailure ε → String
  | .flush (.refused reason) => "Sink failure: " ++ text reason
  | failure => failure.cause text

def reason? : ImportFailure ε → Option ε
  | .flush (.refused reason) => some reason
  | _ => none

end ImportFailure

def Fragment.cellsAt (f : Fragment) (row col : UInt64) : List Cell :=
  f.nonzeros.map fun item ↦
    ⟨row + UInt64.ofNat item.row, col + UInt64.ofNat item.col, item.value⟩

namespace Session

def start (buffer : Buffer) (sink : σ) : Session σ := ⟨buffer, sink, #[]⟩

def append (s : Session σ) (c : Cell) : Except Rejection Unit × Session σ :=
  match s.buffer.append c with
  | .ok buffer => (.ok (), { s with buffer := buffer })
  | .error rejection => (.error rejection, s)

/-- Sends all cells to the sink and empties the buffer. When that fails, the cells stay, in tile
order, and are not counted. -/
def flush (s : Session σ) (tag : UInt8) (sink : Sink σ ε) (memory : Memory := .unbounded) :
    Except (Failure ε) (Option Report) × Session σ :=
  let done := TileBuffer.flush s.buffer.config s.buffer.store.cells tag sink s.sink memory
  let log := s.log ++ done.log
  match done.outcome with
  | .ok (some report) => (.ok (some report), ⟨s.buffer.flushed report, done.sink, log⟩)
  | outcome =>
    let store := { s.buffer.store with cells := done.cells }
    (outcome, ⟨{ s.buffer with store := store }, done.sink, log⟩)

def autoFlush (s : Session σ) (tag : UInt8) (sink : Sink σ ε) (memory : Memory := .unbounded) :
    Except (Failure ε) Unit × Session σ :=
  let noted := { s with log := s.log.push (.full s.buffer.size tag) }
  match noted.flush tag sink memory with
  | (.ok _, s) =>
    (.ok (), { s with buffer := { s.buffer with counters := s.buffer.counters.recordAuto } })
  | (.error failure, s) => (.error failure, s)

def makeRoom (s : Session σ) (tag : UInt8) (sink : Sink σ ε) (memory : Memory := .unbounded) :
    Except (Failure ε) Unit × Session σ :=
  if s.buffer.isFull then s.autoFlush tag sink memory else (.ok (), s)

/-- Takes in one cell of a fragment. A buffer that is full, before or after, is flushed. -/
def importCell (s : Session σ) (tag : UInt8) (sink : Sink σ ε) (c : Cell)
    (memory : Memory := .unbounded) : Except (ImportFailure ε) Unit × Session σ :=
  match s.makeRoom tag sink memory with
  | (.error failure, s) => (.error (.flush failure), s)
  | (.ok (), s) =>
    match s.buffer.push c with
    | .error rejection => (.error (.rejected rejection), s)
    | .ok buffer =>
      match { s with buffer := buffer }.makeRoom tag sink memory with
      | (.error failure, s) => (.error (.flush failure), s)
      | (.ok (), s) => (.ok (), s)

def importCells (s : Session σ) (tag : UInt8) (sink : Sink σ ε) (cells : List Cell)
    (memory : Memory := .unbounded) : Except (ImportFailure ε) Unit × Session σ :=
  match cells with
  | [] => (.ok (), s)
  | c :: cells =>
    match s.importCell tag sink c memory with
    | (.ok (), s) => s.importCells tag sink cells memory
    | (.error failure, s) => (.error failure, s)

/-- Takes in a fragment whose first position lies at `(row, col)` of the matrix. One that does not
fit is refused as a whole; of one that fits, the values other than zero are taken in, row by row,
and the buffer is flushed as often as it fills up. -/
def importAt (s : Session σ) (row col : UInt64) (source : Fragment) (tag : UInt8)
    (sink : Sink σ ε) (memory : Memory := .unbounded) :
    Except (ImportFailure ε) Unit × Session σ :=
  match s.buffer.config.grid.checkRegion row col source.rows source.cols with
  | .error rejection => (.error (.rejected rejection), s)
  | .ok () => s.importCells tag sink (source.cellsAt row col) memory

end Session

inductive Request (σ ε : Type)
  | append (cell : Cell)
  | importAt (row col : UInt64) (source : Fragment) (tag : UInt8) (sink : Sink σ ε)
  | flush (tag : UInt8) (sink : Sink σ ε)

inductive Reply (ε : Type)
  | appended (outcome : Except Rejection Unit)
  | imported (outcome : Except (ImportFailure ε) Unit)
  | flushed (outcome : Except (Failure ε) (Option Report))

namespace Session

def serve (s : Session σ) (request : Request σ ε) (memory : Memory := .unbounded) :
    Reply ε × Session σ :=
  match request with
  | .append c =>
    let (outcome, s) := s.append c
    (.appended outcome, s)
  | .importAt row col source tag sink =>
    let (outcome, s) := s.importAt row col source tag sink memory
    (.imported outcome, s)
  | .flush tag sink =>
    let (outcome, s) := s.flush tag sink memory
    (.flushed outcome, s)

/-- Answers requests one after the other; a refused one does not end the session. -/
def serveAll (s : Session σ) (requests : List (Request σ ε)) (memory : Memory := .unbounded) :
    List (Reply ε) × Session σ :=
  match requests with
  | [] => ([], s)
  | request :: requests =>
    let (reply, s) := s.serve request memory
    let (replies, s) := s.serveAll requests memory
    (reply :: replies, s)

end Session

end TileBuffer
