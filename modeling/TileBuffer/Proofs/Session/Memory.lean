import TileBuffer.Proofs.Flush
import TileBuffer.Proofs.Fragment.Memory
import TileBuffer.Session

namespace TileBuffer

variable {σ ε α : Type} {memory : Memory} {P : Fault → Prop}

def Fault.OutOfMemory (fault : Fault) : Prop := fault = .productOverflow ∨ fault = .capacityOverflow

theorem Fragment.allocate_outOfMemory {rows cols : ℕ} {sparse : Bool} {fault : Fault}
    (h : allocate memory rows cols sparse = .error fault) : fault.OutOfMemory := by
  have hwords {count size : ℕ} (h : memory.allocate count size = .error fault) :
      fault = .capacityOverflow := by
    cases memory with
    | unbounded => cases h
    | words =>
      rw [Memory.allocate] at h
      split at h
      · cases h
      · exact (Except.error.inj h).symm
  rw [allocate] at h
  split at h
  · exact .inr (hwords h)
  · cases hm : memory.multiply rows cols with
    | ok count =>
      rw [hm] at h
      exact .inr (hwords h)
    | error fault' =>
      rw [hm] at h
      cases h
      cases memory with
      | unbounded => cases hm
      | words =>
        rw [Memory.multiply] at hm
        split at hm
        · cases hm
        · exact .inl (Except.error.inj hm).symm

/-- Memory has room for the fragments of all tiles, or lacks it with a fault of some kind. -/
def Grid.Allocates (g : Grid) (memory : Memory) (P : Fault → Prop) : Prop :=
  ∀ (t : Tile) (sparse : Bool),
    match Fragment.allocate memory (g.extent t).1 (g.extent t).2 sparse with
    | .ok () => True
    | .error fault => P fault

theorem Grid.allocates (g : Grid) (memory : Memory) : g.Allocates memory Fault.OutOfMemory := by
  intro t sparse
  cases h : Fragment.allocate memory (g.extent t).1 (g.extent t).2 sparse with
  | ok => trivial
  | error fault => exact Fragment.allocate_outOfMemory h

/-- One result is another, or reports a fault of some kind. -/
def AgreesOr {φ : Type} (P : Fault → Prop) (report : Fault → φ) (x y : Except φ α × σ) : Prop :=
  x = y ∨ ∃ fault s, P fault ∧ x = (.error (report fault), s)

theorem AgreesOr.eq {φ : Type} {report : Fault → φ} {x y : Except φ α × σ}
    (h : AgreesOr (fun _ ↦ False) report x y) : x = y := by
  rcases h with h | ⟨_, _, hp, -⟩
  · exact h
  · exact hp.elim

theorem Sink.deliver_agrees {β : Type} {sink : Sink σ ε} {make make' : β → Except Fault Emission}
    {xs : List β} (h : ∀ x ∈ xs, make x = make' x ∨ ∃ fault, P fault ∧ make x = .error fault)
    (s : σ) : AgreesOr P .fault (sink.deliver make xs s) (sink.deliver make' xs s) := by
  induction xs generalizing s with
  | nil => exact .inl rfl
  | cons x xs ih =>
    obtain ⟨hx, hxs⟩ := List.forall_mem_cons.mp h
    rcases hx with hx | ⟨fault, hp, hx⟩
    · rw [deliver, deliver, hx]
      cases make' x with
      | error fault => exact .inl rfl
      | ok e =>
        dsimp only
        rcases sink.emit e s with ⟨reason | ⟨⟩, s'⟩
        · exact .inl rfl
        · exact ih hxs s'
    · rw [deliver, hx]
      exact .inr ⟨fault, s, hp, rfl⟩

theorem Plan.blockEmission_agrees {p : Plan} (hg : p.grid.Allocates memory P) (run : Run) :
    p.blockEmission run memory = p.blockEmission run ∨
      ∃ fault, P fault ∧ p.blockEmission run memory = .error fault := by
  have ha := hg run.tile p.sparse
  rw [blockEmission, blockEmission, fragment_eq_fill]
  simp only [fragment, Fragment.zeros?]
  cases h : Fragment.allocate memory (p.grid.extent run.tile).1 (p.grid.extent run.tile).2
    p.sparse with
  | ok => exact .inl rfl
  | error fault =>
    rw [h] at ha
    exact .inr ⟨fault, ha, rfl⟩

theorem Plan.deliver_agrees {p : Plan} (hg : p.grid.Allocates memory P) (sink : Sink σ ε) (s : σ) :
    AgreesOr P .fault (p.deliver sink s memory) (p.deliver sink s) := by
  rw [deliver, deliver]
  cases p.costs.format with
  | blocked => exact Sink.deliver_agrees (fun run _ ↦ blockEmission_agrees hg run) s
  | cell => exact .inl rfl

theorem flush_agrees {config : Config} (hg : config.grid.Allocates memory P) (cells : Array Cell)
    (tag : UInt8) (sink : Sink σ ε) (s : σ) :
    flush config cells tag sink s memory = flush config cells tag sink s ∨
      ∃ fault, P fault ∧ (flush config cells tag sink s memory).outcome = .error (.fault fault) := by
  rw [flush, flush]
  split
  next => exact .inl rfl
  next =>
    cases config.grid.checkTiles with
    | error fault => exact .inl rfl
    | ok =>
      have hp : (Plan.of config tag cells.toList).grid.Allocates memory P := hg
      dsimp only
      rcases Plan.deliver_agrees hp sink s with h | ⟨fault, s', hf, h⟩
      · rw [h]
        exact .inl rfl
      · refine .inr ⟨fault, hf, ?_⟩
        simp only [h]
        rfl

namespace Session

section Config

theorem config_flush (s : Session σ) (tag : UInt8) (sink : Sink σ ε) :
    (s.flush tag sink).2.buffer.config = s.buffer.config := by
  rw [flush]
  dsimp only
  split <;> rfl

theorem config_makeRoom (s : Session σ) (tag : UInt8) (sink : Sink σ ε) :
    (s.makeRoom tag sink).2.buffer.config = s.buffer.config := by
  rw [makeRoom]
  split
  next =>
    let noted := { s with log := s.log.push (.full s.buffer.size tag) }
    have h := noted.config_flush tag sink
    rw [autoFlush]
    dsimp only
    rcases hr : noted.flush tag sink with ⟨failure | report, s'⟩ <;> rw [hr] at h <;> exact h
  next => rfl

theorem config_push {b b' : Buffer} {c : Cell} (h : b.push c = .ok b') : b'.config = b.config := by
  rw [Buffer.push] at h
  cases hs : b.store.push c with
  | ok store =>
    rw [hs] at h
    cases h
    rfl
  | error rejection =>
    rw [hs] at h
    cases h

theorem config_importCell (s : Session σ) (tag : UInt8) (sink : Sink σ ε) (c : Cell) :
    (s.importCell tag sink c).2.buffer.config = s.buffer.config := by
  have hroom := s.config_makeRoom tag sink
  rw [importCell]
  rcases hr : s.makeRoom tag sink with ⟨failure | ⟨⟩, s'⟩ <;> rw [hr] at hroom
  · exact hroom
  · cases hp : s'.buffer.push c with
    | error rejection => simpa only [hp] using hroom
    | ok b =>
      have h := config_makeRoom { s' with buffer := b } tag sink
      simp only [hp]
      rcases hr' : ({ s' with buffer := b } : Session σ).makeRoom tag sink with
        ⟨failure | ⟨⟩, s''⟩ <;> rw [hr'] at h <;> exact h.trans ((config_push hp).trans hroom)

theorem config_importCells (s : Session σ) (tag : UInt8) (sink : Sink σ ε) (cells : List Cell) :
    (s.importCells tag sink cells).2.buffer.config = s.buffer.config := by
  induction cells generalizing s with
  | nil => rfl
  | cons c cells ih =>
    have hcell := s.config_importCell tag sink c
    rw [importCells]
    rcases hr : s.importCell tag sink c with ⟨failure | ⟨⟩, s'⟩ <;> rw [hr] at hcell
    · exact hcell
    · exact (ih s').trans hcell

theorem config_serve (s : Session σ) (request : Request σ ε) :
    (s.serve request).2.buffer.config = s.buffer.config := by
  cases request with
  | append c =>
    rw [serve, append, Buffer.append]
    cases s.buffer.config.grid.checkCell c.row c.col with
    | error rejection => rfl
    | ok =>
      dsimp only
      cases hp : s.buffer.push c with
      | error rejection => rfl
      | ok b => exact config_push hp
  | importAt row col source tag sink =>
    rw [serve, importAt]
    cases s.buffer.config.grid.checkRegion row col source.rows source.cols with
    | error rejection => rfl
    | ok => exact s.config_importCells tag sink _
  | flush tag sink => exact s.config_flush tag sink

end Config

section Agrees

variable {s : Session σ} (hg : s.buffer.config.grid.Allocates memory P) (tag : UInt8)
  (sink : Sink σ ε)
include hg

theorem flush_agrees : AgreesOr P .fault (s.flush tag sink memory) (s.flush tag sink) := by
  rw [flush, flush]
  rcases TileBuffer.flush_agrees hg s.buffer.store.cells tag sink s.sink with h | ⟨fault, hp, h⟩
  · rw [h]
    exact .inl rfl
  · simp only [h]
    exact .inr ⟨fault, _, hp, rfl⟩

theorem autoFlush_agrees :
    AgreesOr P .fault (s.autoFlush tag sink memory) (s.autoFlush tag sink) := by
  let noted := { s with log := s.log.push (.full s.buffer.size tag) }
  have hn : noted.buffer.config.grid.Allocates memory P := hg
  rw [autoFlush, autoFlush]
  dsimp only
  rcases flush_agrees hn tag sink with h | ⟨fault, s', hp, h⟩
  · rw [h]
    exact .inl rfl
  · rw [h]
    exact .inr ⟨fault, s', hp, rfl⟩

theorem makeRoom_agrees :
    AgreesOr P .fault (s.makeRoom tag sink memory) (s.makeRoom tag sink) := by
  rw [makeRoom, makeRoom]
  split
  · exact autoFlush_agrees hg tag sink
  · exact .inl rfl

theorem importCell_agrees (c : Cell) : AgreesOr P (fun fault ↦ .flush (.fault fault))
    (s.importCell tag sink c memory) (s.importCell tag sink c) := by
  have hconfig := s.config_makeRoom tag sink
  rw [importCell, importCell]
  rcases makeRoom_agrees hg tag sink with h | ⟨fault, s', hp, h⟩
  · rw [h]
    rcases hr : s.makeRoom tag sink with ⟨failure | ⟨⟩, s'⟩
    · exact .inl rfl
    · rw [hr] at hconfig
      dsimp only
      cases hb : s'.buffer.push c with
      | error rejection => exact .inl rfl
      | ok b =>
        have hb' : ({ s' with buffer := b } : Session σ).buffer.config.grid.Allocates memory P := by
          dsimp only at hconfig ⊢
          rwa [config_push hb, hconfig]
        dsimp only
        rcases makeRoom_agrees hb' tag sink with h | ⟨fault, s'', hp, h⟩
        · rw [h]
          exact .inl rfl
        · rw [h]
          exact .inr ⟨fault, s'', hp, rfl⟩
  · rw [h]
    exact .inr ⟨fault, s', hp, rfl⟩

theorem importCells_agrees (cells : List Cell) : AgreesOr P (fun fault ↦ .flush (.fault fault))
    (s.importCells tag sink cells memory) (s.importCells tag sink cells) := by
  induction cells generalizing s with
  | nil => exact .inl (by rw [importCells, importCells])
  | cons c cells ih =>
    have hconfig := s.config_importCell tag sink c
    rw [importCells, importCells]
    rcases importCell_agrees hg tag sink c with h | ⟨fault, s', hp, h⟩
    · rw [h]
      rcases hr : s.importCell tag sink c with ⟨failure | ⟨⟩, s'⟩
      · exact .inl rfl
      · rw [hr] at hconfig
        exact ih (hconfig ▸ hg)
    · rw [h]
      exact .inr ⟨fault, s', hp, rfl⟩

theorem importAt_agrees (row col : UInt64) (source : Fragment) :
    AgreesOr P (fun fault ↦ .flush (.fault fault))
      (s.importAt row col source tag sink memory) (s.importAt row col source tag sink) := by
  rw [importAt, importAt]
  cases s.buffer.config.grid.checkRegion row col source.rows source.cols with
  | error rejection => exact .inl rfl
  | ok => exact importCells_agrees hg tag sink _

end Agrees

end Session

def Reply.fault? : Reply ε → Option Fault
  | .imported (.error (.flush (.fault fault))) => some fault
  | .flushed (.error (.fault fault)) => some fault
  | _ => none

namespace Session

variable {s : Session σ}

theorem serve_agrees (hg : s.buffer.config.grid.Allocates memory P) (request : Request σ ε) :
    s.serve request memory = s.serve request ∨
      ∃ fault, P fault ∧ (s.serve request memory).1.fault? = some fault := by
  cases request with
  | append c => exact .inl (by rw [serve, serve])
  | importAt row col source tag sink =>
    rw [serve, serve]
    dsimp only
    rcases importAt_agrees hg tag sink row col source with h | ⟨fault, s', hp, h⟩
    · rw [h]
      exact .inl rfl
    · rw [h]
      exact .inr ⟨fault, hp, rfl⟩
  | flush tag sink =>
    rw [serve, serve]
    dsimp only
    rcases flush_agrees hg tag sink with h | ⟨fault, s', hp, h⟩
    · rw [h]
      exact .inl rfl
    · rw [h]
      exact .inr ⟨fault, hp, rfl⟩

/-- A run in some memory is the run in unbounded memory, unless a reply says that memory lacks. -/
theorem serveAll_agrees (hg : s.buffer.config.grid.Allocates memory P)
    (requests : List (Request σ ε)) : s.serveAll requests memory = s.serveAll requests ∨
      ∃ reply ∈ (s.serveAll requests memory).1, ∃ fault, P fault ∧ reply.fault? = some fault := by
  induction requests generalizing s with
  | nil => exact .inl (by rw [serveAll, serveAll])
  | cons request requests ih =>
    have hconfig := s.config_serve request
    rw [serveAll, serveAll]
    dsimp only
    rcases serve_agrees hg request with h | ⟨fault, hp, h⟩
    · rw [h]
      rcases ih (s := (s.serve request).2) (hconfig ▸ hg) with h | ⟨reply, hr, hfault⟩
      · rw [h]
        exact .inl rfl
      · exact .inr ⟨reply, List.mem_cons_of_mem _ hr, hfault⟩
    · exact .inr ⟨_, List.mem_cons_self, fault, hp, h⟩

/-- What is proved of runs in unbounded memory holds of every run that memory suffices for. -/
theorem serveAll_eq_of_no_fault (s : Session σ) {requests : List (Request σ ε)}
    (h : ∀ reply ∈ (s.serveAll requests memory).1, ∀ fault, reply.fault? = some fault →
      ¬fault.OutOfMemory) : s.serveAll requests memory = s.serveAll requests := by
  rcases serveAll_agrees (s.buffer.config.grid.allocates memory) requests with heq | hfault
  · exact heq
  · obtain ⟨reply, hr, fault, hout, hf⟩ := hfault
    exact absurd hout (h reply hr fault hf)

end Session

section HasRoom

variable {config : Config}
  (h : Fragment.HasRoom config.grid.rows.tileLength.toNat config.grid.cols.tileLength.toNat)
  (memory : Memory)
include h

end HasRoom

end TileBuffer
