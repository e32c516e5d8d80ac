import TileBuffer.Proofs.Session.Chunks
import TileBuffer.Proofs.Session.Placement

namespace TileBuffer

variable {σ ε : Type}

namespace Session

/-- What can come of a cell that is handed to the buffer. -/
structure Appends (s : Session σ) (c : Cell) : Prop where
  outside_iff : (s.append c).1 = .error (.cellOutside c.row.toNat c.col.toNat
    s.buffer.config.grid.rows.length.toNat s.buffer.config.grid.cols.length.toNat) ↔
      ¬c.Inside s.buffer.config.grid
  full_iff : c.Inside s.buffer.config.grid →
    ((s.append c).1 = .error (.storeFull s.buffer.store.capacity) ↔
      s.buffer.size = s.buffer.store.capacity)
  failed : ∀ rejection, (s.append c).1 = .error rejection → (s.append c).2 = s ∧
    (c.Inside s.buffer.config.grid → rejection = .storeFull s.buffer.store.capacity)
  taken : (s.append c).1 = .ok () → (s.append c).2 = s.takeIn c

theorem appends {s : Session σ} (hb : s.buffer.Sound) (c : Cell) : s.Appends c := by
  by_cases hin : c.Inside s.buffer.config.grid
  · have hcheck : s.buffer.config.grid.checkCell c.row c.col = .ok () := if_pos hin
    rcases Nat.lt_or_eq_of_le hb.size_le with hlt | hfull
    · have hs : s.append c = (.ok (), s.takeIn c) := by
        rw [append, Buffer.append, hcheck]
        simp only [Buffer.push_eq hlt]
        rfl
      constructor <;> simp [hs, hin, hlt.ne]
    · have hf : s.buffer.store.isFull = true := Buffer.isFull_iff.mpr hfull.ge
      have hs : s.append c = (.error (.storeFull s.buffer.store.capacity), s) := by
        rw [append, Buffer.append, hcheck]
        simp only [Buffer.push, CellStore.push, hf, if_true]
      constructor <;> simp [hs, hin, hfull]
  · have hcheck : s.buffer.config.grid.checkCell c.row c.col = .error _ := if_neg hin
    have hs : s.append c = (.error (.cellOutside c.row.toNat c.col.toNat
        s.buffer.config.grid.rows.length.toNat s.buffer.config.grid.cols.length.toNat), s) := by
      rw [append, Buffer.append, hcheck]
    constructor <;> simp [hs, hin]

/-- From `s` an import of these cells went as far as `s'`. It took in `k` cells; with those held
they are `m` chunks, all sent, and the last one, which fills the buffer in tile order. Of what is
sent for that one the sink refused an emission, the last of the calls. -/
structure Interrupted (tag : UInt8) (sink : Sink σ ε) (cells : List Cell) (s s' : Session σ)
    (reason : ε) (calls : List Emission) (m k : ℕ) (front last : List Cell) : Prop where
  taken_le : k ≤ cells.length
  size_add : s.buffer.size + k = (m + 1) * s.buffer.store.capacity
  stream_eq : s.buffer.store.cells.toList ++ cells.take k = front ++ last
  length_front : front.length = m * s.buffer.store.capacity
  length_last : last.length = s.buffer.store.capacity
  config_eq : s'.buffer.config = s.buffer.config
  capacity_eq : s'.buffer.store.capacity = s.buffer.store.capacity
  cells : StablySorted s.buffer.config.grid last s'.buffer.store.cells.toList
  counters : ∃ reports : List Report, ((chunks s.buffer.store.capacity front).map fun chunk ↦
      (collected s.buffer.config tag chunk).outcome) = reports.map (fun r ↦ .ok (some r)) ∧
    s'.buffer.counters = ⟨s.buffer.counters.flushes + m, s.buffer.counters.autoFlushes + m,
      s.buffer.counters.cells + m * s.buffer.store.capacity,
      s.buffer.counters.blocks + (reports.map Report.blocks).sum,
      s.buffer.counters.records + (reports.map Report.records).sum⟩
  sent : ∃ sent offered, calls = sent ++ offered ∧
    sent = ((chunks s.buffer.store.capacity front).flatMap fun chunk ↦
      (collected s.buffer.config tag chunk).sink.toList) ∧
    sink.Takes sent s.sink ∧
    sink.Stops (collected s.buffer.config tag last).sink.toList (sink.after sent s.sink) offered
      reason
  sink_eq : s'.sink = sink.after calls s.sink

theorem Filled.length_front {tag : UInt8} {sink : Sink σ ε} {front : List Cell}
    {s u : Session σ} (h : Filled tag sink front s u) : front.length =
      front.length / s.buffer.store.capacity * s.buffer.store.capacity := by
  have hcells : [] = front.rtake (front.length % s.buffer.store.capacity) := h.rest.cells
  have hlength := congrArg List.length hcells
  have hd := Nat.div_add_mod' front.length s.buffer.store.capacity
  have hm := Nat.mod_le front.length s.buffer.store.capacity
  simp only [List.length_nil, List.rtake, List.length_drop] at hlength
  omega

theorem Filled.interrupted {tag : UInt8} {sink : Sink σ ε} {cells front calls seen} {k : ℕ}
    {s s' : Session σ} {u : Session (σ × List Emission)} {reason : ε} {log : Array Event}
    (h : Filled tag sink.watch front (s.watched []) u) (hb : s.buffer.Sound)
    (hin : ∀ c ∈ s.buffer.store.cells.toList ++ cells, c.Inside s.buffer.config.grid)
    (hk : k ≤ cells.length)
    (hstream : s.buffer.store.cells.toList ++ cells.take k = front ++ u.buffer.store.cells.toList)
    (hstop : sink.watch.Stops (u.buffer.plan tag).emissions u.sink calls reason)
    (hs' : s'.watched seen = u.stopped tag sink.watch calls log) :
    Interrupted tag sink cells s s' reason seen (front.length / s.buffer.store.capacity) k front
      u.buffer.store.cells.toList := by
  have hfront : front.length = front.length / s.buffer.store.capacity * s.buffer.store.capacity :=
    h.length_front
  have hlast : u.buffer.store.cells.toList.length = s.buffer.store.capacity := h.full
  have hlength := congrArg List.length hstream
  have hinside : ∀ c ∈ front ++ u.buffer.store.cells.toList, c.Inside s.buffer.config.grid := by
    intro c hc
    rw [← hstream, List.mem_append] at hc
    exact hin c (List.mem_append.mpr (hc.imp_right List.mem_of_mem_take))
  obtain ⟨hinfront, hinlast⟩ := List.forall_mem_append.mp hinside
  have hconfig : u.buffer.config = s.buffer.config := h.rest.config_eq
  have husink : u.sink = sink.watch.after (s.buffer.sends tag front) (s.sink, []) := h.rest.sink_eq
  have hbuffer : s'.buffer = u.buffer.withCells (u.buffer.plan tag).cells.toArray :=
    congrArg Session.buffer hs'
  have hsink : (s'.sink, seen) = sink.watch.after calls u.sink := congrArg Session.sink hs'
  -- the record of the watched sink holds what the chunks sent and then the calls of the last flush
  rw [Sink.after_watch] at husink
  rw [husink, Sink.after_watch, Prod.mk.injEq] at hsink
  obtain ⟨hstate, hseen⟩ := hsink
  rw [List.nil_append] at hseen
  refine ⟨hk, ?_, hstream, hfront, hlast, ?_, ?_, ?_, ?_, ⟨_, calls, hseen,
    Buffer.sends_eq hb hinfront, Sink.takes_watch.mp h.rest.takes, ?_⟩, ?_⟩
  · have hsize : s.buffer.size = s.buffer.store.cells.toList.length := rfl
    rw [List.length_append, List.length_append, List.length_take_of_le hk] at hlength
    rw [Nat.succ_mul]
    omega
  · rw [hbuffer]
    exact hconfig
  · rw [hbuffer]
    exact h.rest.capacity_eq
  · rw [hbuffer, ← hconfig]
    exact stablySorted_sortByTile _ _ _
  · rw [hbuffer]
    exact h.rest.counted hb hinfront
  · rw [husink, Sink.stops_watch, Buffer.plan, hconfig] at hstop
    have hne : u.buffer.store.cells.toList ≠ [] := List.ne_nil_of_length_pos (hlast ▸ hb.pos)
    rwa [(collected_eq hb.grid hne hinlast tag).2]
  · rw [hstate, hseen, Sink.after_append]

section Import

variable {s : Session σ} (hb : s.buffer.Sound) {row col : UInt64} {source : Fragment}
  (tag : UInt8) (sink : Sink σ ε)

theorem importAt_of_not_fits
    (h : ¬s.buffer.config.grid.Fits row col source.rows source.cols) :
    s.importAt row col source tag sink = (.error (.rejected (.regionOutside row col source.rows
      source.cols s.buffer.config.grid.rows.length s.buffer.config.grid.cols.length)), s) := by
  rw [importAt, Grid.checkRegion_of_not_fits h]

include hb

theorem importAt_not_rejected (hf : source.WellFormed)
    (hfit : s.buffer.config.grid.Fits row col source.rows source.cols) (rejection : Rejection) :
    (s.importAt row col source tag sink).1 ≠ .error (.rejected rejection) := by
  intro he
  rw [← Grid.checkRegion_eq_ok_iff] at hfit
  rcases importAt_outcome hb hf hfit tag sink with h | ⟨reason, h⟩
  · cases h.symm.trans he
  · cases h.symm.trans he

theorem importAt_interrupted (hf : source.WellFormed)
    (hfit : s.buffer.config.grid.Fits row col source.rows source.cols) {failure : Failure ε}
    (h : (s.importAt row col source tag sink).1 = .error (.flush failure)) :
    ∃ reason calls m k front last, failure = .refused reason ∧
      (s.watched []).importAt row col source tag sink.watch =
        (.error (.flush failure), (s.importAt row col source tag sink).2.watched calls) ∧
      Interrupted tag sink (source.cellsAt row col) s (s.importAt row col source tag sink).2 reason
        calls m k front last := by
  rw [← Grid.checkRegion_eq_ok_iff] at hfit
  have hwatch := s.importAt_watched tag sink [] row col source
  have hin := hf.cellsAt_inside hfit
  have hinside : ∀ c ∈ s.buffer.store.cells.toList ++ source.cellsAt row col,
      c.Inside s.buffer.config.grid := List.forall_mem_append.mpr ⟨hb.inside_toList, hin⟩
  rw [h] at hwatch
  rcases importAt_imported (s := s.watched []) hb hf hfit tag sink.watch with hout | hout
  · rw [hwatch] at hout
    cases congrArg Prod.fst hout
  · rw [hwatch] at hout
    generalize hs' : (s.importAt row col source tag sink).2.watched _ = t at hout
    cases hout with
    | ended log hk hstream hfilled hstop =>
      exact ⟨_, _, _, _, _, _, rfl, by rw [hwatch],
        hfilled.interrupted hb hinside hk hstream hstop hs'⟩

end Import

end Session

/-- A cell is refused outside the matrix, and inside when the buffer is full. A fragment is refused
as a whole when it does not fit, and nothing else refuses it or a part of it. None of this leaves a
trace. All else that can fail is a flush that an import sets off, and then the sink ended it. -/
theorem input_refused_or_interrupted {config : Config} {s : Session σ}
    (hb : s.buffer.Reachable config) :
    s.buffer.config = config ∧ s.buffer.store.capacity = config.capacity.toNat ∧
    (∀ c, s.Appends c) ∧
    ∀ {row col : UInt64} {source : Fragment}, source.WellFormed → ∀ (tag : UInt8)
        (sink : Sink σ ε),
      ((∃ rejection, (s.importAt row col source tag sink).1 = .error (.rejected rejection)) ↔
        ¬config.grid.Fits row col source.rows source.cols) ∧
      (¬config.grid.Fits row col source.rows source.cols →
        let failure : ImportFailure ε := .rejected (.regionOutside row col source.rows source.cols
          config.grid.rows.length config.grid.cols.length)
        s.importAt row col source tag sink = (.error failure, s) ∧
          (s.watched []).importAt row col source tag sink.watch =
            (.error failure, s.watched [])) ∧
      ∀ failure, (s.importAt row col source tag sink).1 = .error (.flush failure) →
        ∃ cells reason calls m k front last, source.CellsAt config.grid row col cells ∧
          failure = .refused reason ∧
          (s.watched []).importAt row col source tag sink.watch =
            (.error (.flush failure), (s.importAt row col source tag sink).2.watched calls) ∧
          Session.Interrupted tag sink cells s (s.importAt row col source tag sink).2 reason calls
            m k front last := by
  obtain ⟨hsound, rfl⟩ := hb.sound
  refine ⟨rfl, hsound.capacity, Session.appends hsound, fun {row col source} hf tag sink ↦ ?_⟩
  have hrejected (h : ¬s.buffer.config.grid.Fits row col source.rows source.cols) :=
    Session.importAt_of_not_fits tag sink h
  refine ⟨⟨?_, fun h ↦ ⟨_, congrArg Prod.fst (hrejected h)⟩⟩, fun h ↦ ?_, fun failure h ↦ ?_⟩
  · rintro ⟨rejection, h⟩ hfit
    exact Session.importAt_not_rejected hsound tag sink hf hfit rejection h
  · exact ⟨hrejected h, Session.importAt_of_not_fits (s := s.watched []) tag sink.watch h⟩
  · by_cases hfit : s.buffer.config.grid.Fits row col source.rows source.cols
    · obtain ⟨reason, calls, m, k, front, last, hinterrupted⟩ :=
        Session.importAt_interrupted hsound tag sink hf hfit h
      exact ⟨_, reason, calls, m, k, front, last, hf.cellsAt hfit, hinterrupted⟩
    · rw [hrejected hfit] at h
      cases h

/-- Row 4 of three rows, and a sink that is full in the middle of the second chunk: three of four
cells were taken in, and two of them are kept. -/
theorem input_refused_or_interrupted_upTo :
    let config : Config := ⟨.ofSizes 3 3 2 2, 2, .alwaysSparse, false⟩
    let v : Value := ⟨0x4000000000000000⟩
    let s : Session (Array Emission) := ⟨⟨config, ⟨2, #[⟨3, 3, v⟩]⟩, .zero⟩, #[], #[]⟩
    let source : Fragment := ⟨2, 2, .dense #[v, v, v, v]⟩
    let cells : List Cell := [⟨2, 2, v⟩, ⟨2, 3, v⟩, ⟨3, 2, v⟩, ⟨3, 3, v⟩]
    let sink : Sink (Array Emission) String := .upTo 3 "full"
    s.buffer.Reachable config ∧ source.WellFormed ∧
      (s.append ⟨4, 1, v⟩).1 = .error (.cellOutside 4 1 3 3) ∧
      (s.importAt 3 2 source 9 sink).1 = .error (.rejected (.regionOutside 3 2 2 2 3 3)) ∧
      (s.importAt 2 2 source 9 sink).1 = .error (.flush (.refused "full")) ∧
      source.CellsAt config.grid 2 2 cells ∧
      ∃ calls, (s.watched []).importAt 2 2 source 9 sink.watch =
          (.error (.flush (.refused "full")), (s.importAt 2 2 source 9 sink).2.watched calls) ∧
        Session.Interrupted 9 sink cells s (s.importAt 2 2 source 9 sink).2 "full" calls 1 3
          [⟨3, 3, v⟩, ⟨2, 2, v⟩] [⟨2, 3, v⟩, ⟨3, 2, v⟩] := by
  intro config v s source cells sink
  have hb : s.buffer.Reachable config := .of_appends rfl [⟨3, 3, v⟩] rfl
  have hf : source.WellFormed := Fragment.wellFormed_dense.mpr rfl
  have hrefused : (s.importAt 2 2 source 9 sink).1 = .error (.flush (.refused "full")) := by cbv
  have hflushes : (s.importAt 2 2 source 9 sink).2.buffer.counters.flushes = 1 := by cbv
  obtain ⟨-, -, happends, himport⟩ := input_refused_or_interrupted hb
  have hfit : ¬config.grid.Fits 3 2 source.rows source.cols := by
    rw [← Grid.checkRegion_eq_ok_iff]
    decide
  have hrejected := ((himport hf 9 sink).2.1 hfit).1
  obtain ⟨cells', reason, calls, m, k, front, last, hcells, hreason, hwatch, hinterrupted⟩ :=
    (himport hf 9 sink).2.2 _ hrefused
  have hplaced : source.CellsAt config.grid 2 2 cells := by
    have htaken : source.cellsAt 2 2 = cells := by decide
    exact htaken ▸ hf.cellsAt (Grid.checkRegion_eq_ok_iff.mp (by decide))
  obtain rfl := hcells.unique hplaced
  cases hreason
  -- one flush went through, so one chunk is sent and three cells were taken in
  have hm : m = 1 := by
    obtain ⟨reports, -, hcounters⟩ := hinterrupted.counters
    rw [hcounters] at hflushes
    simpa [s, Counters.zero] using hflushes
  subst hm
  have hk : k = 3 := by
    have hsize : 1 + k = (1 + 1) * 2 := hinterrupted.size_add
    omega
  subst hk
  obtain ⟨rfl, rfl⟩ : front = [⟨3, 3, v⟩, ⟨2, 2, v⟩] ∧ last = [⟨2, 3, v⟩, ⟨3, 2, v⟩] :=
    List.append_inj hinterrupted.stream_eq.symm hinterrupted.length_front
  exact ⟨hb, hf, (happends ⟨4, 1, v⟩).outside_iff.mpr (by decide), congrArg Prod.fst hrejected,
    hrefused, hplaced, calls, hwatch, hinterrupted⟩

end TileBuffer
