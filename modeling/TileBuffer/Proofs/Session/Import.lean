import TileBuffer.Proofs.Fragment.Built
import TileBuffer.Proofs.Session.Stream
import TileBuffer.Proofs.Session.LastWrite

namespace TileBuffer

variable {σ ε : Type}

namespace Cell

def lastNonzeroAt (cells : List Cell) (row col : UInt64) : Option Value :=
  lastAt (cells.filter fun c ↦ !c.value.isZero) row col

theorem lastNonzeroAt_eq {cells : List Cell} (h : ∀ c ∈ cells, c.value.isZero = false)
    (row col : UInt64) : lastNonzeroAt cells row col = lastAt cells row col := by
  rw [lastNonzeroAt, List.filter_eq_self.mpr]
  intro c hc
  rw [h c hc]
  rfl

end Cell

namespace Fragment

variable {f : Fragment} {g : Grid} {row col : UInt64} {i j : ℕ}

def nonzero? (f : Fragment) (i j : ℕ) : Option Value :=
  if (f.get i j).isZero then none else some (f.get i j)

def lastNonzero? (f : Fragment) (i j : ℕ) : Option Value :=
  ((f.valuesAt i j).filter fun v ↦ !v.isZero).getLast?

/-- Where zero is read, nothing but zeros is stored. -/
def HidesNothing (f : Fragment) : Prop :=
  ∀ i j, (f.get i j).isZero = true → ∀ v ∈ f.valuesAt i j, v.isZero = true

theorem lastNonzero?_eq_none_iff :
    f.lastNonzero? i j = none ↔ ∀ v ∈ f.valuesAt i j, v.isZero = true := by
  rw [lastNonzero?, List.getLast?_eq_none_iff, List.filter_eq_nil_iff]
  simp

theorem WellFormed.lastNonzero?_eq (hf : f.WellFormed) (h : (f.get i j).isZero = false) :
    f.lastNonzero? i j = some (f.get i j) := by
  rw [hf.get_eq] at h ⊢
  rw [lastNonzero?]
  cases hl : (f.valuesAt i j).getLast? with
  | none =>
    rw [hl] at h
    cases h
  | some v =>
    rw [hl, Option.getD_some] at h
    obtain ⟨front, hfront⟩ := List.getLast?_eq_some_iff.mp hl
    rw [hfront, List.filter_append, List.filter_singleton, h]
    simp

theorem WellFormed.lastNonzero?_eq_nonzero? (hf : f.WellFormed) (h : f.HidesNothing) (i j : ℕ) :
    f.lastNonzero? i j = f.nonzero? i j := by
  rw [nonzero?]
  cases hz : (f.get i j).isZero with
  | true => exact lastNonzero?_eq_none_iff.mpr (h i j hz)
  | false => exact hf.lastNonzero?_eq hz

theorem WellFormed.hidesNothing_iff (hf : f.WellFormed) : f.HidesNothing ↔
    ∀ i < f.rows, ∀ j < f.cols, f.lastNonzero? i j = f.nonzero? i j := by
  constructor
  · exact fun h i _ j _ ↦ hf.lastNonzero?_eq_nonzero? h i j
  · intro h i j hz
    by_cases hin : f.inside i j = true
    · obtain ⟨hi, hj⟩ := inside_iff.mp hin
      rw [← lastNonzero?_eq_none_iff, h i hi j hj, nonzero?, if_pos hz]
    · rw [hf.valuesAt_eq_nil hin]
      exact fun v hv ↦ nomatch hv

theorem WellFormed.hidesNothing_of_dense (hf : f.WellFormed) (hd : f.isSparse = false) :
    f.HidesNothing := by
  intro i j hz v hv
  by_cases hin : f.inside i j = true
  · rw [valuesAt_eq_get hd hin, List.mem_singleton] at hv
    exact hv ▸ hz
  · rw [hf.valuesAt_eq_nil hin] at hv
    cases hv

section Placed

variable (hf : f.WellFormed)
include hf

theorem WellFormed.lastAt_cellsAt (hfit : g.checkRegion row col f.rows f.cols = .ok ())
    (hi : i < f.rows) (hj : j < f.cols) : Cell.lastAt (f.cellsAt row col) (row + UInt64.ofNat i)
      (col + UInt64.ofNat j) = f.lastNonzero? i j := by
  obtain ⟨hr, hc⟩ := Grid.containsRange_of_checkRegion hfit hi hj
  have hat : f.nonzeros.filter (Cell.isAt (row + UInt64.ofNat i) (col + UInt64.ofNat j) ∘
      fun item ↦ ⟨row + UInt64.ofNat item.row, col + UInt64.ofNat item.col, item.value⟩) =
        f.nonzeros.filter (Item.isAt i j) := by
    refine List.filter_congr fun item hitem ↦ ?_
    have hin := inside_iff.mp (hf.inside_of_mem_nonzeros hitem)
    rw [Function.comp_apply, Bool.eq_iff_iff, Cell.isAt_iff, Item.isAt_iff,
      Axis.add_inj hr hin.1 hi, Axis.add_inj hc hin.2 hj]
  rw [lastNonzero?, ← hf.valuesAt_nonzeros, Cell.lastAt, Cell.valuesAt, cellsAt, List.filter_map,
    List.map_map, hat]
  rfl

theorem WellFormed.lastAt_cellsAt_eq_none {r c : UInt64}
    (h : ∀ i < f.rows, ∀ j < f.cols, (row + UInt64.ofNat i, col + UInt64.ofNat j) ≠ (r, c)) :
    Cell.lastAt (f.cellsAt row col) r c = none := by
  rw [Cell.lastAt_eq_none_iff]
  intro d hd
  obtain ⟨item, hitem, rfl⟩ := List.mem_map.mp hd
  have hin := inside_iff.mp (hf.inside_of_mem_nonzeros hitem)
  rw [Bool.eq_false_iff]
  intro hat
  obtain ⟨hr, hc⟩ := Cell.isAt_iff.mp hat
  exact h item.row hin.1 item.col hin.2 (Prod.ext hr hc)

end Placed

end Fragment

namespace Session

variable {s : Session σ} (hb : s.buffer.Sound) (tag : UInt8) {sink : Sink σ ε}
  (hs : sink.Accepting)
include hb hs

theorem flush_ok : ∃ report, (s.flush tag sink).1 = .ok report := by
  cases hne : s.buffer.isEmpty with
  | true => exact ⟨none, congrArg Prod.fst (flush_empty tag hne)⟩
  | false => exact ⟨_, congrArg Prod.fst (flush_sent hb tag hne (hs.deliver_eq_ok _ _))⟩

theorem importAt_ok {row col : UInt64} {source : Fragment} (hf : source.WellFormed)
    (hfit : s.buffer.config.grid.checkRegion row col source.rows source.cols = .ok ()) :
    (s.importAt row col source tag sink).1 = .ok () := by
  rcases importAt_imported hb hf hfit tag sink with h | h
  · rw [h]
  · obtain ⟨s', hs', -⟩ := h.of_accepting hs
    rw [hs']

end Session

/-- Of the entries, the last at each position of the fragment that is not zero is as `look` says,
and there is none elsewhere. -/
structure Fragment.ShownAs (f : Fragment) (look : ℕ → ℕ → Option Value) (row col : UInt64)
    (entries : List Cell) : Prop where
  covered : ∀ i < f.rows, ∀ j < f.cols,
    Cell.lastNonzeroAt entries (row + UInt64.ofNat i) (col + UInt64.ofNat j) = look i j
  uncovered : ∀ r c, (∀ i < f.rows, ∀ j < f.cols,
    (row + UInt64.ofNat i, col + UInt64.ofNat j) ≠ (r, c)) → Cell.lastNonzeroAt entries r c = none

def WholeRun.ofImport {config : Config} {b : Buffer} (hb : Buffer.ofConfig config = .ok b)
    {source : Fragment} (hf : source.WellFormed) (row col : UInt64) (tag tag' : UInt8)
    {sink : Sink σ ε} (hs : sink.Accepting) (start : σ) : WholeRun σ ε where
  config := config
  buffer := b
  start := start
  requests := [.importAt row col source tag sink]
  tag := tag'
  sink := sink
  fresh := hb
  wellFormed := List.forall_mem_singleton.mpr hf
  nonzero := List.forall_mem_singleton.mpr trivial
  accepting := List.forall_mem_singleton.mpr hs
  accepting_last := hs

theorem WholeRun.checkRegion_session (r : WholeRun σ ε) {row col : UInt64} {height width : ℕ}
    (h : r.config.grid.checkRegion row col height width = .ok ()) :
    r.session.buffer.config.grid.checkRegion row col height width = .ok () := by
  rw [r.buffer_session]
  exact h

section Import

variable {config : Config} {b : Buffer} (hb : Buffer.ofConfig config = .ok b) {source : Fragment}
  (hf : source.WellFormed) {row col : UInt64}
  (hfit : config.grid.checkRegion row col source.rows source.cols = .ok ()) (tag tag' : UInt8)
  {sink : Sink σ ε} (hs : sink.Accepting) (start : σ)
include hfit

theorem WholeRun.accepted_ofImport :
    (ofImport hb hf row col tag tag' hs start).accepted = source.cellsAt row col := by
  let r := ofImport hb hf row col tag tag' hs start
  have hfit' := r.checkRegion_session hfit
  have hok := Session.importAt_ok r.sound tag hs hf hfit'
  have himport : Move.accepted (r.session.importAtMoves row col source tag sink) =
      source.cellsAt row col := by
    rw [Session.importAt, hfit'] at hok
    rw [Session.importAtMoves, hfit']
    exact Session.accepted_importCellsMoves_eq _ _ _ hok
  have hflush := Session.accepted_flushMoves (r.session.serveAll r.requests).2 tag' sink false
  have hmoves : r.session.moves r.all = r.session.importAtMoves row col source tag sink ++
      ((r.session.serveAll r.requests).2.flushMoves false tag' sink ++ []) := rfl
  change Move.accepted (r.session.moves r.all) = _
  rw [hmoves, List.append_nil, Move.accepted, List.flatMap_append, ← Move.accepted,
    ← Move.accepted, himport, hflush, List.append_nil]

theorem WholeRun.shownAs_ofImport : source.ShownAs source.lastNonzero? row col
    (ofImport hb hf row col tag tag' hs start).entries := by
  let r := ofImport hb hf row col tag tag' hs start
  -- no entry is zero, so the last entry is the last that is not zero
  have hlast (p q : UInt64) :
      Cell.lastNonzeroAt r.entries p q = Cell.lastAt (source.cellsAt row col) p q := by
    rw [Cell.lastNonzeroAt_eq r.isZero_entries, r.lastAt_entries_eq]
    exact congrArg (Cell.lastAt · p q) (accepted_ofImport hb hf hfit tag tag' hs start)
  constructor
  · intro i hi j hj
    exact (hlast _ _).trans (hf.lastAt_cellsAt hfit hi hj)
  · intro p q h
    exact (hlast p q).trans (hf.lastAt_cellsAt_eq_none h)

theorem WholeRun.replies_ofImport : ∃ report,
    ((Session.start b (start, [])).serveAll
      ((ofImport hb hf row col tag tag' hs start).all.map Request.watch)).1 =
        [.imported (.ok ()), .flushed (.ok report)] := by
  let r := ofImport hb hf row col tag tag' hs start
  have hfit' := r.checkRegion_session hfit
  have himport := Session.importAt_ok r.sound tag hs hf hfit'
  obtain ⟨report, hflush⟩ := Session.flush_ok (r.steps_requests.sound r.sound) tag' hs
  refine ⟨report, ?_⟩
  have hwatch := congrArg Prod.fst (r.session.serveAll_watched [] r.all)
  have hreplies : (r.session.serveAll r.all).1 =
      [.imported (r.session.importAt row col source tag sink).1,
        .flushed ((r.session.serveAll r.requests).2.flush tag' sink).1] := rfl
  rw [hreplies, himport, hflush] at hwatch
  exact hwatch

end Import

/-- An import and a flush go through. For each position of the fragment the last entry sent that is
not zero is the last such value stored there, and none is sent for other cells of the matrix. So
the entries agree with what the fragment reads as exactly when it hides nothing. -/
theorem import_then_flush {config : Config} {b : Buffer} (hb : Buffer.ofConfig config = .ok b)
    {source : Fragment} (hbuilt : source.Built) {row col : UInt64}
    (hfit : config.grid.checkRegion row col source.rows source.cols = .ok ()) (tag tag' : UInt8)
    {sink : Sink σ ε} (hs : sink.Accepting) (start : σ) :
    ∃ report after, (Session.start b (start, [])).serveAll
        [.importAt row col source tag sink.watch, .flush tag' sink.watch] =
          ([.imported (.ok ()), .flushed (.ok report)], after) ∧
      let entries := after.sink.2.flatMap (Emission.entries config.grid)
      source.ShownAs source.lastNonzero? row col entries ∧
        (source.ShownAs source.nonzero? row col entries ↔ source.HidesNothing) := by
  have hf := hbuilt.wellFormed
  obtain ⟨report, hreplies⟩ := WholeRun.replies_ofImport hb hf hfit tag tag' hs start
  have hshown := WholeRun.shownAs_ofImport hb hf hfit tag tag' hs start
  refine ⟨report, _, Prod.ext hreplies rfl, hshown, ?_⟩
  rw [hf.hidesNothing_iff]
  constructor
  · intro h i hi j hj
    exact (hshown.covered i hi j hj).symm.trans (h.covered i hi j hj)
  · intro h
    refine ⟨fun i hi j hj ↦ ?_, hshown.uncovered⟩
    exact (hshown.covered i hi j hj).trans (h i hi j hj)

/-- A dense fragment with both zeros and a NaN, in four tiles. -/
theorem import_then_flush_dense :
    let config : Config := ⟨.ofSizes 3 3 2 2, 1, .alwaysSparse, false⟩
    let values : Array Value := #[⟨0x4000000000000000⟩, ⟨0x8000000000000000⟩, .zero,
      ⟨0x7ff8000000000001⟩]
    let source : Fragment := ⟨2, 2, .dense values⟩
    Buffer.ofConfig config = .ok (.fresh config) ∧ source.Built ∧
      config.grid.checkRegion 2 2 source.rows source.cols = .ok () ∧ Sink.collect.Accepting ∧
      ∃ report after, (Session.start (.fresh config) (#[], [])).serveAll
          [.importAt 2 2 source 5 Sink.collect.watch, .flush 6 Sink.collect.watch] =
            ([.imported (.ok ()), .flushed (.ok report)], after) ∧
        source.ShownAs source.nonzero? 2 2
          (after.sink.2.flatMap (Emission.entries config.grid)) := by
  intro config values source
  have hb : Buffer.ofConfig config = .ok (.fresh config) := rfl
  have hvalues : Fragment.ofValues 2 2 values = .ok source := rfl
  have hbuilt : source.Built := .ofValues hvalues
  have hfit : config.grid.checkRegion 2 2 source.rows source.cols = .ok () := by decide
  obtain ⟨report, after, hout, -, hiff⟩ :=
    import_then_flush hb hbuilt hfit 5 6 Sink.collect_accepting #[]
  have hshown := hiff.mpr (hbuilt.wellFormed.hidesNothing_of_dense rfl)
  exact ⟨hb, hbuilt, hfit, Sink.collect_accepting, report, after, hout, hshown⟩

/-- A one, and a zero stored after it: zero is read, and the one is sent. -/
theorem import_then_flush_hidden :
    let config : Config := ⟨.ofSizes 1 1 1 1, 2, .alwaysSparse, false⟩
    let one : Value := ⟨0x3ff0000000000000⟩
    let source := (Fragment.zeros 1 1 true).afterAll [.append 0 0 one, .append 0 0 .zero]
    let out := (Session.start (.fresh config) (#[], [])).serveAll
      [.importAt 1 1 source 0 Sink.collect.watch, .flush 0 Sink.collect.watch]
    let entries := out.2.sink.2.flatMap (Emission.entries config.grid)
    Buffer.ofConfig config = .ok (.fresh config) ∧ source.Built ∧
      config.grid.checkRegion 1 1 source.rows source.cols = .ok () ∧
      source.get 0 0 = .zero ∧ Cell.lastNonzeroAt entries 1 1 = some one ∧
      ¬source.ShownAs source.nonzero? 1 1 entries := by
  intro config one source out entries
  have hlast : Cell.lastNonzeroAt entries 1 1 = some one := by decide +kernel
  have hbuilt : source.Built := (Fragment.Built.zeros 1 1 true).afterAll (by decide)
  refine ⟨rfl, hbuilt, by decide, by decide, hlast, fun h ↦ ?_⟩
  have hread := h.covered 0 (by decide) 0 (by decide)
  have hzero : source.nonzero? 0 0 = none := by decide
  rw [hzero] at hread
  exact absurd (hlast.symm.trans hread) (by simp)

end TileBuffer
