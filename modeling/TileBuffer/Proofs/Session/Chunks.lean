import TileBuffer.Proofs.Session.Placement
import TileBuffer.Proofs.Session.Stream

namespace TileBuffer

variable {σ ε : Type}

/-- A flush of a chunk on its own, with a sink that keeps everything. -/
def collected (config : Config) (tag : UInt8) (chunk : List Cell) :
    Flushed (Array Emission) Empty :=
  flush config chunk.toArray tag .collect #[]

theorem collected_eq {config : Config} (hg : config.grid.Sound) {chunk : List Cell}
    (hne : chunk ≠ []) (hin : ∀ c ∈ chunk, c.Inside config.grid) (tag : UInt8) :
    (collected config tag chunk).outcome = .ok (some (Plan.of config tag chunk).report) ∧
      (collected config tag chunk).sink.toList = (Plan.of config tag chunk).emissions := by
  have he : chunk.toArray.isEmpty = false := by simpa using hne
  rw [collected, flush_eq hg he (fun c hc ↦ hin c (List.mem_toArray.mp hc))]
  dsimp only
  rw [Sink.collect_accepting.deliver_eq_ok, Sink.deliver_collect]
  exact ⟨rfl, by simp⟩

/-- From `b` to `b'` the stream left in chunks, with these emissions. -/
structure Chunked (tag : UInt8) (stream : List Cell) (b b' : Buffer) (sent : List Emission) :
    Prop where
  config_eq : b'.config = b.config
  capacity_eq : b'.store.capacity = b.store.capacity
  sent_eq : sent = (chunks b.store.capacity stream).flatMap fun chunk ↦
    (collected b.config tag chunk).sink.toList
  cells_eq : b'.store.cells.toList = stream.rtake (stream.length % b.store.capacity)
  counters_eq : ∃ reports : List Report, ((chunks b.store.capacity stream).map fun chunk ↦
      (collected b.config tag chunk).outcome) = reports.map (fun r ↦ .ok (some r)) ∧
    b'.counters = ⟨b.counters.flushes + stream.length / b.store.capacity,
      b.counters.autoFlushes + stream.length / b.store.capacity,
      b.counters.cells + stream.length / b.store.capacity * b.store.capacity,
      b.counters.blocks + (reports.map Report.blocks).sum,
      b.counters.records + (reports.map Report.records).sum⟩

theorem collected_of_mem_chunks {config : Config} (hg : config.grid.Sound) {n : ℕ} (hn : 0 < n)
    {stream : List Cell} (hin : ∀ c ∈ stream, c.Inside config.grid) (tag : UInt8) :
    ∀ chunk ∈ chunks n stream,
      (collected config tag chunk).outcome = .ok (some (Plan.of config tag chunk).report) ∧
        (collected config tag chunk).sink.toList = (Plan.of config tag chunk).emissions := by
  intro chunk hc
  obtain ⟨hl, hmem⟩ := mem_of_mem_chunks hc
  exact collected_eq hg (List.ne_nil_of_length_pos (hl ▸ hn)) (fun c h ↦ hin c (hmem c h)) tag

theorem sum_cells_chunks (config : Config) (tag : UInt8) (n : ℕ) (stream : List Cell) :
    (((chunks n stream).map fun chunk ↦ (Plan.of config tag chunk).report).map Report.cells).sum =
      stream.length / n * n := by
  have hn : ∀ k ∈ ((chunks n stream).map fun chunk ↦
      (Plan.of config tag chunk).report).map Report.cells, k = n := by
    intro k hk
    rw [List.map_map] at hk
    obtain ⟨chunk, hc, rfl⟩ := List.mem_map.mp hk
    exact Plan.cells_report.trans (mem_of_mem_chunks hc).1
  rw [List.sum_eq_card_nsmul _ n hn, List.length_map, List.length_map, length_chunks, smul_eq_mul]

section Collected

variable {tag : UInt8} {stream : List Cell}

theorem Buffer.sends_eq {b : Buffer} (hb : b.Sound) (hin : ∀ c ∈ stream, c.Inside b.config.grid) :
    b.sends tag stream = (chunks b.store.capacity stream).flatMap fun chunk ↦
      (collected b.config tag chunk).sink.toList := by
  have hchunks := collected_of_mem_chunks hb.grid hb.pos hin tag
  exact List.flatMap_congr fun chunk hc ↦ (hchunks chunk hc).2.symm

namespace Session.Streamed

theorem counted {sink : Sink σ ε} {s s' : Session σ} (h : Streamed tag sink stream s s')
    (hb : s.buffer.Sound) (hin : ∀ c ∈ stream, c.Inside s.buffer.config.grid) :
    ∃ reports : List Report, ((chunks s.buffer.store.capacity stream).map fun chunk ↦
        (collected s.buffer.config tag chunk).outcome) = reports.map (fun r ↦ .ok (some r)) ∧
      s'.buffer.counters = ⟨
        s.buffer.counters.flushes + stream.length / s.buffer.store.capacity,
        s.buffer.counters.autoFlushes + stream.length / s.buffer.store.capacity,
        s.buffer.counters.cells +
          stream.length / s.buffer.store.capacity * s.buffer.store.capacity,
        s.buffer.counters.blocks + (reports.map Report.blocks).sum,
        s.buffer.counters.records + (reports.map Report.records).sum⟩ := by
  have hchunks := collected_of_mem_chunks hb.grid hb.pos hin tag
  refine ⟨(chunks s.buffer.store.capacity stream).map fun chunk ↦
    (Plan.of s.buffer.config tag chunk).report, ?_, ?_⟩
  · rw [List.map_map]
    exact List.map_congr_left fun chunk hc ↦ (hchunks chunk hc).1
  · rw [h.counters, Counters.foldl_record, List.length_map, length_chunks, sum_cells_chunks]

theorem chunked {sink : Sink σ ε} {s s' : Session (σ × List Emission)}
    (h : Streamed tag sink.watch stream s s') (hb : s.buffer.Sound)
    (hin : ∀ c ∈ stream, c.Inside s.buffer.config.grid) (hnil : s.sink.2 = []) :
    Chunked tag stream s.buffer s'.buffer s'.sink.2 := by
  refine ⟨h.config_eq, h.capacity_eq, ?_, h.cells, h.counted hb hin⟩
  rw [h.sink_eq, Sink.after_watch, hnil, List.nil_append]
  exact Buffer.sends_eq hb hin

end Session.Streamed

end Collected

namespace Session

theorem importCells_streamed_cons {s : Session (σ × List Emission)} (tag : UInt8)
    (hb : s.buffer.Sound) {sink : Sink σ ε} (hs : sink.Accepting) {c : Cell} {cells : List Cell}
    (hin : ∀ d ∈ c :: cells, d.Inside s.buffer.config.grid) :
    ∃ s', s.importCells tag sink.watch (c :: cells) = (.ok (), s') ∧
      Streamed tag sink.watch (s.buffer.store.cells.toList ++ c :: cells) s s' :=
  (importCells_imported_cons hb hin tag sink.watch).of_accepting hs.watch

end Session

/-- An import that fits goes through. Without values other than zero it does nothing, even to a
full buffer; else the cells held and those taken in leave chunk by chunk. -/
theorem importAt_chunked {config : Config} {b : Buffer} (hb : b.Reachable config) (s : σ)
    (log : Array Event) {row col : UInt64} {source : Fragment} (hf : source.WellFormed)
    (hfit : config.grid.checkRegion row col source.rows source.cols = .ok ()) (tag : UInt8)
    {sink : Sink σ ε} (hs : sink.Accepting) :
    ∃ cells, source.CellsAt config.grid row col cells ∧
      ∃ after, Session.importAt ⟨b, (s, []), log⟩ row col source tag sink.watch = (.ok (), after) ∧
        (cells = [] → after = ⟨b, (s, []), log⟩) ∧
        (cells ≠ [] → Chunked tag (b.store.cells.toList ++ cells) b after.buffer after.sink.2) := by
  obtain ⟨hsound, rfl⟩ := hb.sound
  have hin := hf.cellsAt_inside hfit
  refine ⟨source.cellsAt row col, hf.cellsAt (Grid.checkRegion_eq_ok_iff.mp hfit), ?_⟩
  simp only [Session.importAt, hfit]
  cases hcells : source.cellsAt row col with
  | nil => exact ⟨_, rfl, fun _ ↦ rfl, fun h ↦ absurd rfl h⟩
  | cons c cells =>
    rw [hcells] at hin
    obtain ⟨after, ho, hs'⟩ :=
      Session.importCells_streamed_cons (s := ⟨b, (s, []), log⟩) tag hsound hs hin
    refine ⟨after, ho, fun h ↦ absurd h (List.cons_ne_nil c cells), fun _ ↦ ?_⟩
    apply hs'.chunked hsound _ rfl
    intro d hd
    rcases List.mem_append.mp hd with hd | hd
    · exact hsound.inside_toList d hd
    · exact hin d hd

/-- A full buffer of two cells and a fragment with three values: two chunks go, as two records and
as a fragment, and one cell stays. -/
theorem importAt_chunked_full :
    let config : Config := ⟨.ofSizes 3 3 2 2, 2, .alwaysSparse, false⟩
    let one : Value := ⟨0x3ff0000000000000⟩
    let v : Value := ⟨0x4000000000000000⟩
    let b : Buffer := ⟨config, ⟨2, #[⟨3, 3, one⟩, ⟨1, 1, .zero⟩]⟩, .zero⟩
    let source : Fragment := ⟨2, 2, .dense #[v, v, .zero, v]⟩
    b.Reachable config ∧ source.WellFormed ∧
      config.grid.checkRegion 2 1 source.rows source.cols = .ok () ∧ Sink.collect.Accepting ∧
      source.CellsAt config.grid 2 1 [⟨2, 1, v⟩, ⟨2, 2, v⟩, ⟨3, 2, v⟩] ∧
      ∃ after, Session.importAt ⟨b, (#[], []), #[]⟩ 2 1 source 9 Sink.collect.watch =
          (.ok (), after) ∧
        after.sink.2 = [⟨⟨1, 1⟩, 9, .cell ⟨0, 0, .zero⟩⟩, ⟨⟨2, 2⟩, 9, .cell ⟨0, 0, one⟩⟩,
          ⟨⟨1, 1⟩, 9, .block ⟨2, 2, .sparse #[.empty, ⟨#[⟨0, v⟩, ⟨1, v⟩]⟩]⟩⟩] ∧
        after.buffer.store.cells.toList = [⟨3, 2, v⟩] ∧
        after.buffer.counters = ⟨2, 2, 4, 1, 2⟩ := by
  intro config one v b source
  have hb : b.Reachable config := .of_appends rfl [⟨3, 3, one⟩, ⟨1, 1, .zero⟩] rfl
  have hf : source.WellFormed := Fragment.wellFormed_dense.mpr rfl
  have hfit : config.grid.checkRegion 2 1 source.rows source.cols = .ok () := by decide
  obtain ⟨cells, hcells, after, ho, -, hchunked⟩ :=
    importAt_chunked hb #[] #[] hf hfit 9 Sink.collect_accepting
  have hplaced : source.CellsAt config.grid 2 1 [⟨2, 1, v⟩, ⟨2, 2, v⟩, ⟨3, 2, v⟩] := by
    have htaken : source.cellsAt 2 1 = [⟨2, 1, v⟩, ⟨2, 2, v⟩, ⟨3, 2, v⟩] := by decide
    exact htaken ▸ hf.cellsAt (Grid.checkRegion_eq_ok_iff.mp hfit)
  obtain rfl := hcells.unique hplaced
  have hchunked := hchunked (by simp)
  obtain ⟨reports, hreports, hcounters⟩ := hchunked.counters_eq
  refine ⟨hb, hf, hfit, Sink.collect_accepting, hplaced, after, ho, ?_, ?_, ?_⟩
  · exact hchunked.sent_eq.trans (by cbv)
  · exact hchunked.cells_eq.trans (by decide)
  · have hlast : reports = [⟨2, 2, .cell, .of 2 2, false⟩, ⟨2, 1, .blocked, .of 2 1, true⟩] := by
      have hmap : reports.map (fun r ↦ (.ok (some r) : Except (Failure Empty) (Option Report))) =
          [.ok (some ⟨2, 2, .cell, .of 2 2, false⟩), .ok (some ⟨2, 1, .blocked, .of 2 1, true⟩)] :=
        hreports.symm.trans (by cbv)
      rcases reports with _ | ⟨r, _ | ⟨r', _ | ⟨r'', reports⟩⟩⟩ <;> simp_all
    rw [hcounters, hlast]
    decide

end TileBuffer
