import TileBuffer.Proofs.Session.Steps

namespace TileBuffer

variable {σ ε : Type}

namespace Fragment

theorem WellFormed.cellsAt_inside {g : Grid} {f : Fragment} {row col : UInt64}
    (hf : f.WellFormed) (h : g.checkRegion row col f.rows f.cols = .ok ()) :
    ∀ c ∈ f.cellsAt row col, c.Inside g := by
  intro c hc
  obtain ⟨item, hitem, rfl⟩ := List.mem_map.mp hc
  have hin := inside_iff.mp (hf.inside_of_mem_nonzeros hitem)
  obtain ⟨hr, hc⟩ := Grid.containsRange_of_checkRegion h hin.1 hin.2
  exact Grid.contains_iff.mpr ⟨Axis.contains_add hr hin.1, Axis.contains_add hc hin.2⟩

end Fragment

namespace Session

section Flush

variable {s : Session σ} (hb : s.buffer.Sound) (tag : UInt8) {sink : Sink σ ε}

def delivery (s : Session σ) (tag : UInt8) (sink : Sink σ ε) : Except (Failure ε) Unit × σ :=
  sink.deliver .ok (s.buffer.plan tag).emissions s.sink

theorem flush_empty (he : s.buffer.isEmpty = true) : s.flush tag sink = (.ok none, s) := by
  have he' : s.buffer.store.cells.isEmpty = true := he
  simp [flush, TileBuffer.flush, he']

variable (hne : s.buffer.isEmpty = false)
include hb hne

theorem flush_sent (hd : (s.delivery tag sink).1 = .ok ()) : s.flush tag sink =
    (.ok (some (s.buffer.plan tag).report), ⟨s.buffer.flushed (s.buffer.plan tag).report,
      (s.delivery tag sink).2, s.log ++ [(s.buffer.plan tag).event]⟩) := by
  have hf := flush_eq hb.grid hne hb.inside tag sink s.sink
  simp only [delivery, Buffer.plan] at hd ⊢
  simp only [flush, hf, hd, Except.map]

theorem flush_failed {failure : Failure ε} (hd : (s.delivery tag sink).1 = .error failure) :
    s.flush tag sink = (.error failure, ⟨s.buffer.withCells (s.buffer.plan tag).cells.toArray,
      (s.delivery tag sink).2, s.log ++ [(s.buffer.plan tag).event]⟩) := by
  have hf := flush_eq hb.grid hne hb.inside tag sink s.sink
  simp only [delivery, Buffer.plan] at hd ⊢
  simp only [flush, hf, hd, Except.map, Buffer.withCells]

end Flush

section Steps

variable {refusals : Prop} {s : Session σ} (hb : s.buffer.Sound) (tag : UInt8) {sink : Sink σ ε}
  (hs : sink.Accepting ∨ refusals)
include hb hs

/-- A flush of a buffer with cells sends all of its plan, or fails where refusals can happen. -/
theorem flush_cases (auto : Bool) (hne : s.buffer.isEmpty = false) : (∃ sink' log',
      s.flush tag sink = (.ok (some (s.buffer.plan tag).report),
        ⟨s.buffer.flushed (s.buffer.plan tag).report, sink', log'⟩) ∧
      s.flushMoves auto tag sink =
        [.send auto (s.buffer.plan tag).report (s.buffer.plan tag).emissions]) ∨
    (refusals ∧ ∃ failure calls sink' log',
      s.flush tag sink = (.error failure,
        ⟨s.buffer.withCells (s.buffer.plan tag).cells.toArray, sink', log'⟩) ∧
      s.flushMoves auto tag sink = [.fail calls]) := by
  rcases hd : (s.delivery tag sink).1 with failure | ⟨⟩
  · have hr : refusals := by
      obtain hs | hr := hs
      · rw [delivery, hs.deliver_eq_ok] at hd
        cases hd
      · exact hr
    have hf := flush_failed hb tag hne hd
    exact .inr ⟨hr, failure, _, _, _, hf, by rw [flushMoves, hf]⟩
  · have hf := flush_sent hb tag hne hd
    refine .inl ⟨_, _, hf, ?_⟩
    rw [flushMoves, hf, flushCalls_eq hb.grid hne hb.inside, ← Buffer.plan,
      Sink.offered_of_deliver_ok hd]

theorem flush_steps : Buffer.Steps refusals s.buffer (s.flushMoves false tag sink)
    (s.flush tag sink).2.buffer := by
  cases hne : s.buffer.isEmpty with
  | true =>
    rw [flushMoves, flush_empty tag hne]
    exact .nil _
  | false =>
    rcases flush_cases hb tag hs false hne with ⟨_, _, hf, hm⟩ | ⟨hr, _, calls, _, _, hf, hm⟩
    · rw [hf, hm]
      exact .one (.send false tag hne)
    · rw [hf, hm]
      exact .one (.fail tag calls hr hne)

-- The note in the log comes before the flush, so the flush starts from another session.
theorem autoFlush_steps (hne : s.buffer.isEmpty = false) : Buffer.Steps refusals s.buffer
    (s.flushMoves true tag sink) (s.autoFlush tag sink).2.buffer := by
  let noted : Session σ := { s with log := s.log.push (.full s.buffer.size tag) }
  have hb' : noted.buffer.Sound := hb
  rw [← flushMoves_log tag sink s true (s.log.push (.full s.buffer.size tag)), autoFlush]
  dsimp only
  rcases flush_cases hb' tag hs true hne with ⟨_, _, hf, hm⟩ | ⟨hr, _, calls, _, _, hf, hm⟩
  · rw [hf, hm]
    exact .one (.send true tag hne)
  · rw [hf, hm]
    exact .one (.fail tag calls hr hne)

theorem makeRoom_steps : Buffer.Steps refusals s.buffer (s.makeRoomMoves tag sink)
    (s.makeRoom tag sink).2.buffer := by
  rw [makeRoomMoves, makeRoom]
  cases hf : s.buffer.isFull with
  | true => exact autoFlush_steps hb tag hs (hb.isEmpty_eq_false hf)
  | false => exact .nil _

theorem importCell_steps {c : Cell} (hc : c.Inside s.buffer.config.grid) :
    Buffer.Steps refusals s.buffer (s.importCellMoves tag sink c)
      (s.importCell tag sink c).2.buffer := by
  have hroom := makeRoom_steps hb tag hs
  rw [importCellMoves, importCell]
  rcases hr : s.makeRoom tag sink with ⟨failure | ⟨⟩, s'⟩
  · rw [hr] at hroom
    simpa using hroom
  · rw [hr] at hroom
    cases hp : s'.buffer.push c with
    | error rejection => simpa [hp] using hroom
    | ok buffer =>
      have htake := hroom.trans (.one (Buffer.step_of_push hp (hroom.config_eq ▸ hc)))
      have hrest := makeRoom_steps (htake.sound hb) tag hs (s := { s' with buffer := buffer })
      have h := htake.trans hrest
      rw [List.append_assoc] at h
      simp only [hp]
      rcases hr' : makeRoom { s' with buffer := buffer } tag sink with ⟨failure | ⟨⟩, s''⟩
      · rw [hr'] at h
        exact h
      · rw [hr'] at h
        exact h

theorem importCells_steps {cells : List Cell} (hc : ∀ c ∈ cells, c.Inside s.buffer.config.grid) :
    Buffer.Steps refusals s.buffer (s.importCellsMoves tag sink cells)
      (s.importCells tag sink cells).2.buffer := by
  induction cells generalizing s with
  | nil => exact .nil _
  | cons c cells ih =>
    obtain ⟨hc, hcells⟩ := List.forall_mem_cons.mp hc
    have hcell := importCell_steps hb tag hs hc
    rw [importCellsMoves, importCells]
    rcases hi : s.importCell tag sink c with ⟨failure | ⟨⟩, s'⟩
    · rw [hi] at hcell
      simpa using hcell
    · rw [hi] at hcell
      exact hcell.trans (ih (hcell.sound hb) (hcell.config_eq ▸ hcells))

theorem importAt_steps {row col : UInt64} {source : Fragment} (hf : source.WellFormed) :
    Buffer.Steps refusals s.buffer (s.importAtMoves row col source tag sink)
      (s.importAt row col source tag sink).2.buffer := by
  rw [importAtMoves, importAt]
  cases hr : s.buffer.config.grid.checkRegion row col source.rows source.cols with
  | error rejection => exact .nil _
  | ok => exact importCells_steps hb tag hs (hf.cellsAt_inside hr)

end Steps

end Session

namespace Request

def WellFormed : Request σ ε → Prop
  | importAt _ _ source _ _ => source.WellFormed
  | _ => True

def Accepting : Request σ ε → Prop
  | append _ => True
  | importAt _ _ _ _ sink => sink.Accepting
  | flush _ sink => sink.Accepting

end Request

namespace Session

variable {refusals : Prop} {s : Session σ}

theorem serve_steps (hb : s.buffer.Sound) {request : Request σ ε} (hw : request.WellFormed)
    (hs : request.Accepting ∨ refusals) : Buffer.Steps refusals s.buffer (s.requestMoves request)
      (s.serve request).2.buffer := by
  cases request with
  | append c =>
    rw [requestMoves, serve, append]
    cases ha : s.buffer.append c with
    | error rejection => exact .nil _
    | ok buffer => exact .one (Buffer.step_of_append ha)
  | importAt row col source tag sink => exact importAt_steps hb tag hs hw
  | flush tag sink => exact flush_steps hb tag hs

theorem serveAll_steps (hb : s.buffer.Sound) {requests : List (Request σ ε)}
    (hw : ∀ r ∈ requests, r.WellFormed) (hs : ∀ r ∈ requests, r.Accepting ∨ refusals) :
    Buffer.Steps refusals s.buffer (s.moves requests) (s.serveAll requests).2.buffer := by
  induction requests generalizing s with
  | nil => exact .nil _
  | cons request requests ih =>
    obtain ⟨hw, hws⟩ := List.forall_mem_cons.mp hw
    obtain ⟨hs, hss⟩ := List.forall_mem_cons.mp hs
    have hfirst := serve_steps hb hw hs
    exact hfirst.trans (ih (hfirst.sound hb) hws hss)

end Session

def Buffer.Reachable (config : Config) (b : Buffer) : Prop :=
  ∃ (σ ε : Type) (fresh : Buffer) (s : σ) (requests : List (Request σ ε)),
    ofConfig config = .ok fresh ∧ (∀ r ∈ requests, r.WellFormed) ∧
      ((Session.start fresh s).serveAll requests).2.buffer = b

theorem Buffer.Reachable.of_appends {config : Config} {b : Buffer}
    (hc : ofConfig config = .ok (.fresh config)) (cells : List Cell)
    (hb : ((Session.start (.fresh config) ()).serveAll
      (cells.map (Request.append : Cell → Request Unit Empty))).2.buffer = b) :
    b.Reachable config := by
  refine ⟨Unit, Empty, .fresh config, (), _, hc, fun r hr ↦ ?_, hb⟩
  obtain ⟨c, -, rfl⟩ := List.mem_map.mp hr
  trivial

theorem Buffer.Reachable.sound {config : Config} {b : Buffer} (h : b.Reachable config) :
    b.Sound ∧ b.config = config := by
  obtain ⟨σ, ε, fresh, s, requests, hf, hw, rfl⟩ := h
  obtain ⟨hc, rfl⟩ := ofConfig_eq_ok hf
  have hsteps := Session.serveAll_steps (s := Session.start (.fresh config) s)
    (sound_fresh hc) hw fun _ _ ↦ .inr trivial
  exact ⟨hsteps.sound (sound_fresh hc), hsteps.config_eq⟩

end TileBuffer
