import TileBuffer.Proofs.Session.Refusal

namespace TileBuffer

variable {σ ε : Type}

/-- The same configuration and counters, and the same cells in every tile. -/
structure Buffer.Alike (b b' : Buffer) : Prop where
  config_eq : b'.config = b.config
  capacity_eq : b'.store.capacity = b.store.capacity
  counters_eq : b'.counters = b.counters
  cells : SameByTile b.config.grid b.store.cells.toList b'.store.cells.toList

namespace Buffer.Alike

variable {b b' b'' : Buffer}

theorem refl (b : Buffer) : b.Alike b := ⟨rfl, rfl, rfl, fun _ ↦ rfl⟩

theorem trans (h : b.Alike b') (h' : b'.Alike b'') : b.Alike b'' := by
  refine ⟨h'.config_eq.trans h.config_eq, h'.capacity_eq.trans h.capacity_eq,
    h'.counters_eq.trans h.counters_eq, h.cells.trans ?_⟩
  have hc := h'.cells
  rwa [h.config_eq] at hc

theorem size_eq (h : b.Alike b') : b'.size = b.size := h.cells.perm.length_eq.symm

theorem isEmpty_eq (h : b.Alike b') : b'.isEmpty = b.isEmpty := by
  have hs := h.size_eq
  rw [size, size, CellStore.size, CellStore.size] at hs
  rw [isEmpty, isEmpty, CellStore.isEmpty, CellStore.isEmpty, Array.isEmpty, Array.isEmpty, hs]

theorem isFull_eq (h : b.Alike b') : b'.isFull = b.isFull := by
  have hs := h.size_eq
  rw [Bool.eq_iff_iff, isFull_iff, isFull_iff, h.capacity_eq, hs]

theorem plan_eq (h : b.Alike b') (tag : UInt8) : b'.plan tag = b.plan tag := by
  rw [plan, plan, h.config_eq, Plan.of, Plan.of, h.cells.sortByTile_eq]

theorem push (h : b.Alike b') (c : Cell) :
    (∃ r, b.push c = .error r ∧ b'.push c = .error r) ∨
      ∃ d d', b.push c = .ok d ∧ b'.push c = .ok d' ∧ d.Alike d' := by
  cases hf : b.isFull with
  | true =>
    have hf' : b'.isFull = true := h.isFull_eq.trans hf
    rw [Buffer.isFull] at hf hf'
    refine .inl ⟨.storeFull b.store.capacity, ?_, ?_⟩
    · rw [Buffer.push, CellStore.push, if_pos hf]
    · rw [Buffer.push, CellStore.push, if_pos hf', h.capacity_eq]
  | false =>
    have hroom : b.size < b.store.capacity := by
      rw [← Nat.not_le, ← isFull_iff, hf]
      exact Bool.false_ne_true
    have hroom' : b'.size < b'.store.capacity := by
      rwa [h.size_eq, h.capacity_eq]
    refine .inr ⟨_, _, push_eq hroom c, push_eq hroom' c, ?_⟩
    refine ⟨h.config_eq, h.capacity_eq, h.counters_eq, ?_⟩
    rw [withCells, withCells, Array.toList_push, Array.toList_push]
    exact h.cells.append [c]

theorem append (h : b.Alike b') (c : Cell) :
    (∃ r, b.append c = .error r ∧ b'.append c = .error r) ∨
      ∃ d d', b.append c = .ok d ∧ b'.append c = .ok d' ∧ d.Alike d' := by
  rw [Buffer.append, Buffer.append, h.config_eq]
  cases b.config.grid.checkCell c.row c.col with
  | error r => exact .inl ⟨r, rfl, rfl⟩
  | ok => exact h.push c

theorem recordAuto (h : b.Alike b') :
    Alike { b with counters := b.counters.recordAuto }
      { b' with counters := b'.counters.recordAuto } := by
  refine ⟨h.config_eq, h.capacity_eq, ?_, h.cells⟩
  rw [h.counters_eq]

end Buffer.Alike

namespace Session

structure Alike (s s' : Session σ) : Prop where
  buffer : s.buffer.Alike s'.buffer
  sink_eq : s'.sink = s.sink
  log_eq : s'.log = s.log

/-- The same outcome, and sessions that are alike. -/
inductive Matches {α : Type} : α × Session σ → α × Session σ → Prop
  | mk (outcome : α) {s s' : Session σ} (h : s.Alike s') : Matches (outcome, s) (outcome, s')

namespace Alike

variable {s s' : Session σ} (h : s.Alike s') (tag : UInt8) (sink : Sink σ ε)
include h

theorem watched (seen : List Emission) : (s.watched seen).Alike (s'.watched seen) := by
  refine ⟨h.buffer, ?_, h.log_eq⟩
  rw [Session.watched, Session.watched, h.sink_eq]

theorem flush : Matches (s.flush tag sink) (s'.flush tag sink) := by
  have he := h.buffer.isEmpty_eq
  cases hne : s.buffer.isEmpty with
  | true =>
    rw [flush_empty tag hne, flush_empty tag (he.trans hne)]
    exact .mk _ h
  | false =>
    have hne' : s'.buffer.isEmpty = false := he.trans hne
    -- the plans are equal, so the same emissions go to the same sink
    have hplan := h.buffer.plan_eq tag
    rw [Buffer.isEmpty, CellStore.isEmpty] at hne hne'
    rw [Buffer.plan, Buffer.plan, h.buffer.config_eq] at hplan
    rw [Session.flush, Session.flush, h.buffer.config_eq, h.sink_eq, h.log_eq, TileBuffer.flush,
      TileBuffer.flush, if_neg (by simp [hne]), if_neg (by simp [hne']), hplan]
    cases s.buffer.config.grid.checkTiles with
    | error fault => exact .mk _ ⟨h.buffer, rfl, rfl⟩
    | ok =>
      dsimp only
      rcases (Plan.of s.buffer.config tag s.buffer.store.cells.toList).deliver sink s.sink
        with ⟨failure | _, state⟩
      · refine .mk (Except.error failure) ?_
        refine ⟨⟨h.buffer.config_eq, h.buffer.capacity_eq, h.buffer.counters_eq, ?_⟩, rfl, rfl⟩
        exact fun _ ↦ rfl
      · refine .mk (Except.ok (some _)) ?_
        refine ⟨⟨h.buffer.config_eq, h.buffer.capacity_eq, ?_, fun _ ↦ rfl⟩, rfl, rfl⟩
        rw [Buffer.flushed, Buffer.flushed, h.buffer.counters_eq]

theorem autoFlush : Matches (s.autoFlush tag sink) (s'.autoFlush tag sink) := by
  have hnoted : Alike { s with log := s.log.push (.full s.buffer.size tag) }
      { s' with log := s'.log.push (.full s'.buffer.size tag) } := by
    refine ⟨h.buffer, h.sink_eq, ?_⟩
    rw [h.log_eq, h.buffer.size_eq]
  have hflush := hnoted.flush tag sink
  rw [Session.autoFlush, Session.autoFlush]
  dsimp only
  generalize Session.flush { s with log := s.log.push (.full s.buffer.size tag) } tag sink = r
    at hflush ⊢
  generalize Session.flush { s' with log := s'.log.push (.full s'.buffer.size tag) } tag sink = r'
    at hflush ⊢
  cases hflush with
  | mk outcome ha =>
    cases outcome with
    | error failure => exact .mk _ ha
    | ok report => exact .mk _ ⟨ha.buffer.recordAuto, ha.sink_eq, ha.log_eq⟩

theorem makeRoom : Matches (s.makeRoom tag sink) (s'.makeRoom tag sink) := by
  rw [Session.makeRoom, Session.makeRoom, h.buffer.isFull_eq]
  cases s.buffer.isFull with
  | true => exact h.autoFlush tag sink
  | false => exact .mk _ h

theorem importCell (c : Cell) : Matches (s.importCell tag sink c) (s'.importCell tag sink c) := by
  have hroom := h.makeRoom tag sink
  rw [Session.importCell, Session.importCell]
  generalize s.makeRoom tag sink = r at hroom ⊢
  generalize s'.makeRoom tag sink = r' at hroom ⊢
  obtain @⟨failure | _, t, t', ht⟩ := hroom
  · exact .mk _ ht
  · rcases ht.buffer.push c with ⟨r, hr, hr'⟩ | ⟨d, d', hd, hd', ha⟩
    · simp only [hr, hr']
      exact .mk _ ht
    · have htaken : Alike { t with buffer := d } { t' with buffer := d' } :=
        ⟨ha, ht.sink_eq, ht.log_eq⟩
      have hrest := htaken.makeRoom tag sink
      simp only [hd, hd']
      generalize Session.makeRoom { t with buffer := d } tag sink = u at hrest ⊢
      generalize Session.makeRoom { t' with buffer := d' } tag sink = u' at hrest ⊢
      obtain @⟨failure | _, u, u', hu⟩ := hrest
      · exact .mk _ hu
      · exact .mk _ hu

theorem importCells (cells : List Cell) :
    Matches (s.importCells tag sink cells) (s'.importCells tag sink cells) := by
  induction cells generalizing s s' with
  | nil => exact .mk _ h
  | cons c cells ih =>
    have hcell := h.importCell tag sink c
    rw [Session.importCells, Session.importCells]
    generalize s.importCell tag sink c = r at hcell ⊢
    generalize s'.importCell tag sink c = r' at hcell ⊢
    obtain @⟨_ | failure, t, t', ht⟩ := hcell
    · exact .mk _ ht
    · exact ih ht

theorem serve (request : Request σ ε) : Matches (s.serve request) (s'.serve request) := by
  cases request with
  | append c =>
    rw [Session.serve, Session.serve, Session.append, Session.append]
    rcases h.buffer.append c with ⟨r, hr, hr'⟩ | ⟨d, d', hd, hd', ha⟩
    · simp only [hr, hr']
      exact .mk _ h
    · simp only [hd, hd']
      exact .mk _ ⟨ha, h.sink_eq, h.log_eq⟩
  | importAt row col source tag sink =>
    rw [Session.serve, Session.serve, Session.importAt, Session.importAt, h.buffer.config_eq]
    cases s.buffer.config.grid.checkRegion row col source.rows source.cols with
    | error rejection => exact .mk _ h
    | ok =>
      have hcells := h.importCells tag sink (source.cellsAt row col)
      dsimp only
      generalize s.importCells tag sink (source.cellsAt row col) = r at hcells ⊢
      generalize s'.importCells tag sink (source.cellsAt row col) = r' at hcells ⊢
      obtain ⟨outcome, ht⟩ := hcells
      exact .mk _ ht
  | flush tag sink =>
    have hflush := h.flush tag sink
    rw [Session.serve, Session.serve]
    generalize s.flush tag sink = r at hflush ⊢
    generalize s'.flush tag sink = r' at hflush ⊢
    obtain ⟨outcome, ht⟩ := hflush
    exact .mk _ ht

end Alike

variable {s s' : Session σ}

theorem Alike.answer_eq (h : s.Alike s') (request : Request σ ε) :
    s'.answer request = s.answer request := by
  have hserve := (h.watched []).serve request.watch
  rw [answer, answer]
  generalize (s.watched []).serve request.watch = r at hserve ⊢
  generalize (s'.watched []).serve request.watch = r' at hserve ⊢
  obtain ⟨reply, ha⟩ := hserve
  dsimp only
  rw [ha.sink_eq, ha.log_eq, ha.buffer.size_eq, ha.buffer.counters_eq]

theorem Alike.answers_eq (h : s.Alike s') (requests : List (Request σ ε)) :
    s'.answers requests = s.answers requests := by
  induction requests generalizing s s' with
  | nil => rfl
  | cons request requests ih =>
    have hserve := h.serve request
    rw [answers, answers, h.answer_eq]
    generalize s.serve request = r at hserve ⊢
    generalize s'.serve request = r' at hserve ⊢
    obtain ⟨reply, ha⟩ := hserve
    rw [ih ha]

end Session

namespace Buffer

/-- The second buffer is the first after any number of flushes, all of which failed. Each has its
own tag and its own sink, in any state. -/
inductive Failed : Buffer → Buffer → Prop
  | nil (b : Buffer) : Failed b b
  | snoc {b b' : Buffer} (h : Failed b b') {σ ε : Type} (s : σ) (log : Array Event) (tag : UInt8)
      (sink : Sink σ ε) {failure : Failure ε}
      (hf : (Session.flush ⟨b', s, log⟩ tag sink).1 = .error failure) :
      Failed b (Session.flush ⟨b', s, log⟩ tag sink).2.buffer

variable {b b' : Buffer}

theorem Sound.alike_failed {s : Session σ} (hb : s.buffer.Sound) {tag : UInt8} {sink : Sink σ ε}
    {failure : Failure ε} (hf : (s.flush tag sink).1 = .error failure) :
    (s.flush tag sink).2.buffer.Sound ∧ s.buffer.Alike (s.flush tag sink).2.buffer := by
  cases hne : s.buffer.isEmpty with
  | true =>
    rw [Session.flush_empty tag hne] at hf
    cases hf
  | false =>
    rcases hd : (s.delivery tag sink).1 with failure | ⟨⟩
    · rw [Session.flush_failed hb tag hne hd]
      have hstep : Step True s.buffer (.fail []) _ := .fail tag [] trivial hne
      refine ⟨hstep.sound hb, rfl, rfl, rfl, ?_⟩
      exact (stablySorted_sortByTile _ _ _).stable.symm
    · rw [Session.flush_sent hb tag hne hd] at hf
      cases hf

theorem Failed.alike (h : b.Failed b') (hb : b.Sound) : b'.Sound ∧ b.Alike b' := by
  induction h with
  | nil => exact ⟨hb, .refl _⟩
  | snoc _ s log tag sink hf ih =>
    obtain ⟨hb', ha⟩ := ih
    have hstep := Sound.alike_failed (s := ⟨_, s, log⟩) hb' hf
    exact ⟨hstep.1, ha.trans hstep.2⟩

theorem Sound.answer_accepted (hb : b.Sound) (tag : UInt8) :
    ∃ report sent, ∀ {σ ε : Type} {sink : Sink σ ε}, sink.Accepting → ∀ s log,
      (Session.answer ⟨b, s, log⟩ (.flush tag sink)).reply = .flushed (.ok report) ∧
        (Session.answer ⟨b, s, log⟩ (.flush tag sink)).calls = sent := by
  cases hne : b.isEmpty with
  | true =>
    refine ⟨none, [], fun {σ ε sink} _ s log ↦ ?_⟩
    rw [Session.answer_flush_empty ⟨b, s, log⟩ tag sink hne]
    exact ⟨rfl, rfl⟩
  | false =>
    refine ⟨some (b.plan tag).report, (b.plan tag).emissions, fun {σ ε sink} hs s log ↦ ?_⟩
    have hflushes := Session.flushes_plan (s := ⟨b, s, log⟩) hb.grid hne hb.inside tag sink
    obtain ⟨hf, hcalls⟩ := hflushes.taken (hs.takes _ s)
    refine ⟨?_, hcalls⟩
    rw [Session.answer_flush, hf]

end Buffer

/-- After flushes that failed a buffer answers every later session as it would have before them,
and a flush that is tried again sends what the first attempt would have sent. -/
theorem answers_eq_of_failed {config : Config} {b b' : Buffer} (hb : b.Reachable config)
    (hf : b.Failed b') :
    (∀ {σ ε : Type} (s : σ) (log : Array Event) (requests : List (Request σ ε)),
      Session.answers ⟨b', s, log⟩ requests = Session.answers ⟨b, s, log⟩ requests) ∧
    ∀ {σ ε σ' ε' : Type} {first : Sink σ ε} {retry : Sink σ' ε'}, first.Accepting →
      retry.Accepting → ∀ tag s s' log log', ∃ report,
        (Session.answer ⟨b, s, log⟩ (.flush tag first)).reply = .flushed (.ok report) ∧
        (Session.answer ⟨b', s', log'⟩ (.flush tag retry)).reply = .flushed (.ok report) ∧
        (Session.answer ⟨b', s', log'⟩ (.flush tag retry)).calls =
          (Session.answer ⟨b, s, log⟩ (.flush tag first)).calls := by
  obtain ⟨hsound, -⟩ := hb.sound
  obtain ⟨-, halike⟩ := hf.alike hsound
  have hs {σ : Type} (s : σ) (log : Array Event) : Session.Alike ⟨b, s, log⟩ ⟨b', s, log⟩ :=
    ⟨halike, rfl, rfl⟩
  refine ⟨fun s log requests ↦ (hs s log).answers_eq requests, ?_⟩
  intro σ ε σ' ε' first retry hfirst hretry tag s s' log log'
  obtain ⟨report, sent, ha⟩ := hsound.answer_accepted tag
  obtain ⟨hreply, hcalls⟩ := ha hfirst s log
  obtain ⟨hreply', hcalls'⟩ := ha hretry s' log'
  rw [(hs s' log').answer_eq]
  exact ⟨report, hreply, hreply', hcalls'.trans hcalls.symm⟩

/-- Two cells in the wrong order: the sink takes one of them, so the flush fails half way and leaves
the cells sorted. -/
theorem answers_eq_of_failed_halfway :
    let config : Config := ⟨.ofSizes 3 3 2 2, 2, .alwaysSparse, false⟩
    let cells : List Cell := [⟨3, 3, ⟨0x3ff0000000000000⟩⟩, ⟨1, 1, .zero⟩]
    let b : Buffer := ⟨config, ⟨2, cells.toArray⟩, .zero⟩
    let b' : Buffer := ⟨config, ⟨2, cells.reverse.toArray⟩, .zero⟩
    let requests : List (Request (Array Emission) String) :=
      [.append ⟨2, 2, .zero⟩, .flush 4 (.upTo 1 "full"), .flush 5 (.upTo 9 "full")]
    b.Reachable config ∧ b.Failed b' ∧
      Session.answers ⟨b', #[], #[]⟩ requests = Session.answers ⟨b, #[], #[]⟩ requests := by
  intro config cells b b' requests
  have hb : b.Reachable config := .of_appends rfl cells rfl
  have hf : b.Failed b' := by
    let once : Sink (Array Emission) String := .upTo 1 "full"
    have hfirst : ((Session.mk b #[] #[]).flush 4 once).1 = .error (.refused "full") := by cbv
    have hsorted : ((Session.mk b #[] #[]).flush 4 once).2.buffer = b' := by cbv
    rw [← hsorted]
    exact (Buffer.Failed.nil b).snoc #[] #[] 4 once hfirst
  exact ⟨hb, hf, (answers_eq_of_failed hb hf).1 #[] #[] requests⟩

end TileBuffer
