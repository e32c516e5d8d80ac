import Mathlib.Data.List.DropRight
import TileBuffer.Proofs.Report
import TileBuffer.Proofs.Session.Runs

namespace TileBuffer

variable {σ ε α : Type}

/-- The chunks of `n` elements that a list starts with; what is left at the end is no chunk. -/
def chunks (n : ℕ) (l : List α) : List (List α) :=
  (List.range (l.length / n)).map fun i ↦ (l.drop (i * n)).take n

section Chunks

variable {n : ℕ} {chunk l : List α}

theorem length_chunks (n : ℕ) (l : List α) : (chunks n l).length = l.length / n := by
  rw [chunks, List.length_map, List.length_range]

theorem chunks_of_lt (h : l.length < n) : chunks n l = [] := by
  rw [chunks, Nat.div_eq_of_lt h, List.range_zero, List.map_nil]

theorem length_append_div (hn : 0 < n) (hc : chunk.length = n) :
    (chunk ++ l).length / n = l.length / n + 1 := by
  rw [List.length_append, hc, Nat.add_div_left _ hn]

theorem chunks_append (hn : 0 < n) (hc : chunk.length = n) :
    chunks n (chunk ++ l) = chunk :: chunks n l := by
  rw [chunks, length_append_div hn hc, List.range_succ_eq_map, List.map_cons, List.map_map, chunks]
  congr 1
  · rw [Nat.zero_mul, List.drop_zero, ← hc, List.take_left]
  · refine List.map_congr_left fun i _ ↦ ?_
    have hd : (i + 1) * n = chunk.length + i * n := by rw [hc, Nat.succ_mul, Nat.add_comm]
    simp only [Function.comp_apply, Nat.succ_eq_add_one, hd, List.drop_length_add_append]

theorem rtake_append (hc : chunk.length = n) :
    (chunk ++ l).rtake ((chunk ++ l).length % n) = l.rtake (l.length % n) := by
  have hm : (chunk ++ l).length % n = l.length % n := by
    rw [List.length_append, hc, Nat.add_mod_left]
  have hle := Nat.mod_le l.length n
  rw [hm, List.rtake, List.rtake, List.length_append, Nat.add_sub_assoc hle,
    List.drop_length_add_append]

theorem mem_of_mem_chunks (h : chunk ∈ chunks n l) : chunk.length = n ∧ ∀ a ∈ chunk, a ∈ l := by
  obtain ⟨i, hi, rfl⟩ := List.mem_map.mp h
  rw [List.mem_range] at hi
  refine ⟨?_, fun a ha ↦ List.mem_of_mem_drop (List.mem_of_mem_take ha)⟩
  have hmul : (i + 1) * n ≤ l.length := (Nat.mul_le_mul_right n hi).trans (Nat.div_mul_le_self _ n)
  rw [Nat.succ_mul] at hmul
  rw [List.length_take, List.length_drop]
  omega

end Chunks

/-- What the chunks of a stream send when they leave one after the other. -/
def Buffer.sends (b : Buffer) (tag : UInt8) (stream : List Cell) : List Emission :=
  (chunks b.store.capacity stream).flatMap fun chunk ↦ (Plan.of b.config tag chunk).emissions

namespace Session

section Stream

variable {tag : UInt8} {sink : Sink σ ε} {s s' : Session σ} {stream : List Cell}

/-- What went from `s` to `s'` is the stream, cut into chunks of the size of the buffer. -/
structure Streamed (tag : UInt8) (sink : Sink σ ε) (stream : List Cell) (s s' : Session σ) :
    Prop where
  config_eq : s'.buffer.config = s.buffer.config
  capacity_eq : s'.buffer.store.capacity = s.buffer.store.capacity
  takes : sink.Takes (s.buffer.sends tag stream) s.sink
  sink_eq : s'.sink = sink.after (s.buffer.sends tag stream) s.sink
  cells : s'.buffer.store.cells.toList = stream.rtake (stream.length % s.buffer.store.capacity)
  counters : s'.buffer.counters = ((chunks s.buffer.store.capacity stream).map fun chunk ↦
    (Plan.of s.buffer.config tag chunk).report).foldl (fun c r ↦ (c.record r).recordAuto)
      s.buffer.counters

def withCells (s : Session σ) (cells : Array Cell) : Session σ :=
  { s with buffer := s.buffer.withCells cells }

def takeIn (s : Session σ) (c : Cell) : Session σ := s.withCells (s.buffer.store.cells.push c)

def autoFlushed (s : Session σ) (tag : UInt8) (sink : Sink σ ε) (log : Array Event) : Session σ :=
  ⟨s.buffer.afterFlush true (s.buffer.plan tag).report,
    sink.after (s.buffer.plan tag).emissions s.sink, log⟩

def stopped (s : Session σ) (tag : UInt8) (sink : Sink σ ε) (calls : List Emission)
    (log : Array Event) : Session σ :=
  ⟨s.buffer.withCells (s.buffer.plan tag).cells.toArray, sink.after calls s.sink, log⟩

theorem Streamed.of_lt {cells : Array Cell} (h : cells.size < s.buffer.store.capacity) :
    Streamed tag sink cells.toList s (s.withCells cells) := by
  have hl : cells.toList.length < s.buffer.store.capacity := h
  have hsends : s.buffer.sends tag cells.toList = [] := by
    rw [Buffer.sends, chunks_of_lt hl, List.flatMap_nil]
  refine ⟨rfl, rfl, ?_, ?_, ?_, ?_⟩
  · rw [hsends]
    trivial
  · rw [hsends]
    rfl
  · rw [Nat.mod_eq_of_lt hl, List.rtake, Nat.sub_self, List.drop_zero]
    rfl
  · rw [chunks_of_lt hl]
    rfl

theorem Streamed.take {cells : Array Cell} (h : Streamed tag sink stream (s.withCells cells) s') :
    Streamed tag sink stream s s' :=
  ⟨h.config_eq, h.capacity_eq, h.takes, h.sink_eq, h.cells, h.counters⟩

theorem Streamed.flush {log : Array Event} (hb : s.buffer.Sound)
    (hfull : s.buffer.size = s.buffer.store.capacity)
    (ht : sink.Takes (s.buffer.plan tag).emissions s.sink)
    (h : Streamed tag sink stream (s.autoFlushed tag sink log) s') :
    Streamed tag sink (s.buffer.store.cells.toList ++ stream) s s' := by
  have hl : s.buffer.store.cells.toList.length = s.buffer.store.capacity := hfull
  have hsends : s.buffer.sends tag (s.buffer.store.cells.toList ++ stream) =
      (s.buffer.plan tag).emissions ++ s.buffer.sends tag stream := by
    rw [Buffer.sends, chunks_append hb.pos hl, List.flatMap_cons]
    rfl
  obtain ⟨hconfig, hcapacity, htakes, hsink, hcells, hcounters⟩ := h
  refine ⟨hconfig, hcapacity, ?_, ?_, ?_, ?_⟩
  · rw [hsends, Sink.takes_append]
    exact ⟨ht, htakes⟩
  · rw [hsends, Sink.after_append]
    exact hsink
  · rw [rtake_append hl]
    exact hcells
  · rw [chunks_append hb.pos hl, List.map_cons, List.foldl_cons]
    exact hcounters

/-- In `s'` the buffer is full of the last chunk of a stream, and the cells before that chunk have
left. -/
structure Filled (tag : UInt8) (sink : Sink σ ε) (front : List Cell) (s s' : Session σ) :
    Prop where
  full : s'.buffer.size = s.buffer.store.capacity
  rest : Streamed tag sink front s (s'.withCells #[])

/-- All that an import of these cells can do: the cells held and those taken in leave in chunks, or
the sink ends the flush of one of the chunks. -/
inductive Imported (tag : UInt8) (sink : Sink σ ε) (s : Session σ) (cells : List Cell) :
    Except (ImportFailure ε) Unit × Session σ → Prop
  | done {s' : Session σ} (h : Streamed tag sink (s.buffer.store.cells.toList ++ cells) s s') :
      Imported tag sink s cells (.ok (), s')
  | ended {k : ℕ} {front : List Cell} {s' : Session σ} {calls : List Emission} {reason : ε}
      (log : Array Event) (hk : k ≤ cells.length)
      (hstream : s.buffer.store.cells.toList ++ cells.take k =
        front ++ s'.buffer.store.cells.toList)
      (hfilled : Filled tag sink front s s')
      (hstop : sink.Stops (s'.buffer.plan tag).emissions s'.sink calls reason) :
      Imported tag sink s cells (.error (.flush (.refused reason)), s'.stopped tag sink calls log)

variable {c : Cell} {cells : List Cell} {result : Except (ImportFailure ε) Unit × Session σ}

theorem Imported.take (h : Imported tag sink (s.takeIn c) cells result) :
    Imported tag sink s (c :: cells) result := by
  have hheld : (s.takeIn c).buffer.store.cells.toList = s.buffer.store.cells.toList ++ [c] :=
    Array.toList_push
  cases h with
  | done h =>
    rw [hheld, List.append_assoc, List.singleton_append] at h
    exact .done h.take
  | @ended k front s' calls reason log hk hstream hfilled hstop =>
    rw [hheld, List.append_assoc, List.singleton_append, ← List.take_succ_cons] at hstream
    exact .ended log (Nat.succ_le_succ hk) hstream ⟨hfilled.full, hfilled.rest.take⟩ hstop

section Full

variable (hb : s.buffer.Sound) (hfull : s.buffer.size = s.buffer.store.capacity)
include hb hfull

theorem Imported.flush {log : Array Event}
    (ht : sink.Takes (s.buffer.plan tag).emissions s.sink)
    (h : Imported tag sink (s.autoFlushed tag sink log) cells result) :
    Imported tag sink s cells result := by
  cases h with
  | done h => exact .done (h.flush hb hfull ht)
  | @ended k front s' calls reason log hk hstream hfilled hstop =>
    have hstream : cells.take k = front ++ s'.buffer.store.cells.toList := hstream
    refine .ended log hk ?_ ⟨hfilled.full, hfilled.rest.flush hb hfull ht⟩ hstop
    rw [hstream, List.append_assoc]

theorem Imported.stop {calls : List Emission} {reason : ε} (log : Array Event)
    (h : sink.Stops (s.buffer.plan tag).emissions s.sink calls reason) : Imported tag sink s cells
      (.error (.flush (.refused reason)), s.stopped tag sink calls log) := by
  have hnone : Streamed tag sink [] s (s.withCells #[]) := .of_lt hb.pos
  exact .ended log (Nat.zero_le _) (List.append_nil _) ⟨hfull, hnone⟩ h

end Full

theorem makeRoom_of_lt {s : Session σ} (sink : Sink σ ε)
    (h : s.buffer.size < s.buffer.store.capacity) : s.makeRoom tag sink = (.ok (), s) := by
  have hf : ¬s.buffer.isFull = true := by rwa [Buffer.isFull_iff, Nat.not_le]
  rw [makeRoom, if_neg hf]

theorem importCell_of_room {s : Session σ} (sink : Sink σ ε) (c : Cell)
    (h : s.buffer.size < s.buffer.store.capacity) : s.importCell tag sink c =
      match (s.takeIn c).makeRoom tag sink with
      | (.error failure, s) => (.error (.flush failure), s)
      | (.ok (), s) => (.ok (), s) := by
  rw [importCell, makeRoom_of_lt sink h]
  simp only [Buffer.push_eq h]
  rfl

/-- What becomes of a full buffer. -/
inductive Emptied (tag : UInt8) (sink : Sink σ ε) (s : Session σ) :
    Except (Failure ε) Unit × Session σ → Prop
  | sent (log : Array Event) (h : sink.Takes (s.buffer.plan tag).emissions s.sink) :
      Emptied tag sink s (.ok (), s.autoFlushed tag sink log)
  | ended {calls : List Emission} {reason : ε} (log : Array Event)
      (h : sink.Stops (s.buffer.plan tag).emissions s.sink calls reason) :
      Emptied tag sink s (.error (.refused reason), s.stopped tag sink calls log)

theorem sound_autoFlushed (hb : s.buffer.Sound) (h : s.buffer.size = s.buffer.store.capacity)
    (log : Array Event) : (s.autoFlushed tag sink log).buffer.Sound := by
  have hne := hb.isEmpty_eq_false (Buffer.isFull_iff.mpr h.ge)
  have hstep : Buffer.Step False s.buffer _ (s.autoFlushed tag sink log).buffer :=
    .send true tag hne
  exact hstep.sound hb

theorem sound_takeIn (hb : s.buffer.Sound) (hin : c.Inside s.buffer.config.grid)
    (h : s.buffer.size < s.buffer.store.capacity) : (s.takeIn c).buffer.Sound := by
  have hstep : Buffer.Step False s.buffer (.take c) (s.takeIn c).buffer := .take hin h
  exact hstep.sound hb

theorem makeRoom_emptied (hb : s.buffer.Sound) (h : s.buffer.size = s.buffer.store.capacity)
    (tag : UInt8) (sink : Sink σ ε) : Emptied tag sink s (s.makeRoom tag sink) := by
  let noted := { s with log := s.log.push (.full s.buffer.size tag) }
  have hf : s.buffer.isFull = true := Buffer.isFull_iff.mpr h.ge
  have hne := hb.isEmpty_eq_false hf
  rw [makeRoom, if_pos hf, autoFlush]
  dsimp only
  rcases sink.takes_or_stops (s.buffer.plan tag).emissions s.sink with ht | ⟨calls, reason, ht⟩
  · have hd : noted.delivery tag sink = _ := ht.deliver_eq
    rw [flush_sent (s := noted) hb tag hne (congrArg Prod.fst hd), hd]
    exact .sent _ ht
  · have hd : noted.delivery tag sink = _ := ht.deliver_eq
    rw [flush_failed (s := noted) hb tag hne (congrArg Prod.fst hd), hd]
    exact .ended _ ht

section Import

variable (hb : s.buffer.Sound)
include hb

theorem importCells_imported {cells : List Cell} (hroom : s.buffer.size < s.buffer.store.capacity)
    (hin : ∀ c ∈ cells, c.Inside s.buffer.config.grid) (tag : UInt8) (sink : Sink σ ε) :
    Imported tag sink s cells (s.importCells tag sink cells) := by
  induction cells generalizing s with
  | nil =>
    refine .done ?_
    rw [List.append_nil]
    exact .of_lt hroom
  | cons c cells ih =>
    obtain ⟨hc, hcells⟩ := List.forall_mem_cons.mp hin
    have hb' := sound_takeIn hb hc hroom
    have hsize : (s.takeIn c).buffer.size = s.buffer.size + 1 := Buffer.size_push _ _
    have hcapacity : (s.takeIn c).buffer.store.capacity = s.buffer.store.capacity := rfl
    -- the stream is the same whether the cell stays or completes a chunk
    refine .take ?_
    rw [importCells, importCell_of_room sink c hroom]
    rcases Nat.lt_or_eq_of_le (Nat.succ_le_of_lt hroom) with hlt | heq
    · have hroom' : (s.takeIn c).buffer.size < (s.takeIn c).buffer.store.capacity := by omega
      rw [makeRoom_of_lt sink hroom']
      exact ih hb' hroom' hcells
    · have hfull : (s.takeIn c).buffer.size = (s.takeIn c).buffer.store.capacity := by omega
      have hemptied := makeRoom_emptied hb' hfull tag sink
      generalize (s.takeIn c).makeRoom tag sink = r at hemptied
      cases hemptied with
      | sent log ht =>
        exact .flush hb' hfull ht (ih (sound_autoFlushed hb' hfull log) hb.pos hcells)
      | ended log ht => exact .stop hb' hfull log ht

theorem importCells_imported_cons {c : Cell} {cells : List Cell}
    (hin : ∀ d ∈ c :: cells, d.Inside s.buffer.config.grid) (tag : UInt8) (sink : Sink σ ε) :
    Imported tag sink s (c :: cells) (s.importCells tag sink (c :: cells)) := by
  rcases Nat.lt_or_eq_of_le hb.size_le with hlt | hfull
  · exact importCells_imported hb hlt hin tag sink
  · have hemptied := makeRoom_emptied hb hfull tag sink
    rw [importCells, importCell]
    generalize s.makeRoom tag sink = r at hemptied
    cases hemptied with
    | sent log ht =>
      have hroom : (s.autoFlushed tag sink log).buffer.size <
          (s.autoFlushed tag sink log).buffer.store.capacity := hb.pos
      have hrest := importCells_imported (sound_autoFlushed hb hfull log) hroom hin tag sink
      rw [importCells, importCell, makeRoom_of_lt sink hroom] at hrest
      exact .flush hb hfull ht hrest
    | ended log ht => exact .stop hb hfull log ht

theorem importAt_imported {row col : UInt64} {source : Fragment} (hf : source.WellFormed)
    (hfit : s.buffer.config.grid.checkRegion row col source.rows source.cols = .ok ())
    (tag : UInt8) (sink : Sink σ ε) : s.importAt row col source tag sink = (.ok (), s) ∨
      Imported tag sink s (source.cellsAt row col) (s.importAt row col source tag sink) := by
  have hin := hf.cellsAt_inside hfit
  rw [importAt, hfit]
  dsimp only
  cases hcells : source.cellsAt row col with
  | nil => exact .inl rfl
  | cons c cells => exact .inr (importCells_imported_cons hb (hcells ▸ hin) tag sink)

theorem importAt_outcome {row col : UInt64} {source : Fragment} (hf : source.WellFormed)
    (hfit : s.buffer.config.grid.checkRegion row col source.rows source.cols = .ok ())
    (tag : UInt8) (sink : Sink σ ε) : (s.importAt row col source tag sink).1 = .ok () ∨
      ∃ reason, (s.importAt row col source tag sink).1 = .error (.flush (.refused reason)) := by
  rcases importAt_imported hb hf hfit tag sink with h | h
  · exact .inl (congrArg Prod.fst h)
  · generalize s.importAt row col source tag sink = result at h
    cases h with
    | done => exact .inl rfl
    | ended => exact .inr ⟨_, rfl⟩

end Import

theorem Imported.of_accepting (hs : sink.Accepting) (h : Imported tag sink s cells result) :
    ∃ s', result = (.ok (), s') ∧
      Streamed tag sink (s.buffer.store.cells.toList ++ cells) s s' := by
  cases h with
  | done h => exact ⟨_, rfl, h⟩
  | ended log hk hstream hfilled hstop =>
    obtain ⟨taken, e, rest, -, -, -, he⟩ := hstop
    rw [hs] at he
    cases he

end Stream

end Session

end TileBuffer
