import TileBuffer.Flush
import TileBuffer.Proofs.Fragment.Append
import TileBuffer.Proofs.Run
import TileBuffer.Proofs.Sink
import TileBuffer.Proofs.Tiling

namespace TileBuffer

variable {σ ε : Type}

def Cell.item (g : Grid) (c : Cell) : Item := ⟨(c.place g).1, (c.place g).2, c.value⟩

namespace Plan

variable {g : Grid} {f : Fragment} {cells : List Cell} {sparse : Bool}

theorem fill_eq (hf : f.WellFormed)
    (h : ∀ c ∈ cells, f.inside (c.place g).1 (c.place g).2 = true) :
    fill g f cells = .ok (f.afterAll ((cells.map (Cell.item g)).map Item.edit)) := by
  induction cells generalizing f with
  | nil => rfl
  | cons c cells ih =>
    obtain ⟨hc, hcells⟩ := List.forall_mem_cons.mp h
    have hs := f.sameShape_append (c.place g).1 (c.place g).2 c.value
    rw [fill]
    dsimp only
    rw [hf.append_eq hc]
    exact ih (hf.append hc c.value) fun c h ↦ (hs.inside_eq _ _).trans (hcells c h)

theorem fragment_eq_fill (g : Grid) (sparse : Bool) (run : Run) : fragment g sparse run =
    (fill g (.zeros (g.extent run.tile).1 (g.extent run.tile).2 sparse) run.cells).map
      Fragment.sortRows := by
  rw [fragment]
  dsimp only
  rw [Fragment.zeros?_unbounded]

def block (g : Grid) (sparse : Bool) (run : Run) : Fragment :=
  ((Fragment.zeros (g.extent run.tile).1 (g.extent run.tile).2 sparse).afterAll
    ((run.cells.map (Cell.item g)).map Item.edit)).sortRows

theorem sameShape_block (g : Grid) (sparse : Bool) (run : Run) :
    Fragment.SameShape (.zeros (g.extent run.tile).1 (g.extent run.tile).2 sparse)
      (block g sparse run) :=
  (Fragment.sameShape_appendAll _ _).trans (Fragment.sameShape_sortRows _)

theorem rows_block (g : Grid) (sparse : Bool) (run : Run) :
    (block g sparse run).rows = (g.extent run.tile).1 := by
  rw [(sameShape_block g sparse run).rows, Fragment.rows_zeros]

theorem cols_block (g : Grid) (sparse : Bool) (run : Run) :
    (block g sparse run).cols = (g.extent run.tile).2 := by
  rw [(sameShape_block g sparse run).cols, Fragment.cols_zeros]

theorem isSparse_block (g : Grid) (sparse : Bool) (run : Run) :
    (block g sparse run).isSparse = sparse := by
  rw [(sameShape_block g sparse run).isSparse, Fragment.isSparse_zeros]

def Settled (g : Grid) (run : Run) : Prop := ∀ c ∈ run.cells, c.Inside g ∧ c.tile g = run.tile

theorem Settled.hasTile {run : Run} (hr : Settled g run) (h : run.cells ≠ []) :
    g.HasTile run.tile := by
  obtain ⟨c, hc⟩ := List.exists_mem_of_ne_nil _ h
  exact (hr c hc).2 ▸ (hr c hc).1.hasTile

section Block

variable {run : Run} (hg : g.Sound) (hr : Settled g run)
include hg hr

theorem Settled.inside (sparse : Bool) : ∀ item ∈ run.cells.map (Cell.item g),
    (Fragment.zeros (g.extent run.tile).1 (g.extent run.tile).2 sparse).inside
      item.row item.col = true := by
  intro item h
  obtain ⟨c, hc, rfl⟩ := List.mem_map.mp h
  obtain ⟨hin, ht⟩ := hr c hc
  rw [Fragment.inside_iff, Fragment.rows_zeros, Fragment.cols_zeros, ← ht]
  exact hin.place_lt hg

theorem Settled.fragment_eq (sparse : Bool) : fragment g sparse run = .ok (block g sparse run) := by
  have h := hr.inside hg sparse
  rw [fragment_eq_fill, fill_eq (Fragment.wellFormed_zeros _ _ _) fun c hc ↦
    h (c.item g) (List.mem_map_of_mem hc)]
  rfl

theorem Settled.wellFormed (sparse : Bool) : (block g sparse run).WellFormed :=
  ((Fragment.wellFormed_zeros _ _ _).appendAll (hr.inside hg sparse)).sortRows

theorem Settled.valuesAt_block (i j : ℕ) : (block g true run).valuesAt i j =
    Item.valuesAt (run.cells.map (Cell.item g)) i j := by
  rw [block, Fragment.valuesAt_sortRows, (Fragment.wellFormed_zeros _ _ _).valuesAt_appendAll
    (hr.inside hg true) (Fragment.isSparse_zeros _ _ _), Fragment.valuesAt_zeros_sparse,
    List.nil_append]

theorem Settled.get_block (sparse : Bool) (i j : ℕ) : (block g sparse run).get i j =
    ((Item.valuesAt (run.cells.map (Cell.item g)) i j).getLast?).getD .zero := by
  have hz := Fragment.wellFormed_zeros (g.extent run.tile).1 (g.extent run.tile).2 sparse
  rw [block, (hz.appendAll (hr.inside hg sparse)).get_sortRows,
    hz.get_appendAll (hr.inside hg sparse), Fragment.get_zeros]

end Block

def emissions (p : Plan) : List Emission :=
  match p.costs.format with
  | .blocked => p.runs.map fun run ↦ ⟨run.tile, p.tag, .block (block p.grid p.sparse run)⟩
  | .cell => p.cells.map p.cellEmission

theorem emissions_blocked {p : Plan} (h : p.costs.format = .blocked) : p.emissions =
    p.runs.map fun run ↦ ⟨run.tile, p.tag, .block (block p.grid p.sparse run)⟩ := by
  rw [emissions, h]

theorem emissions_cell {p : Plan} (h : p.costs.format = .cell) :
    p.emissions = p.cells.map p.cellEmission := by rw [emissions, h]

variable {config : Config} {tag : UInt8}

section Of

theorem cells_of : (Plan.of config tag cells).cells =
    sortByTile config.grid config.parallel cells := rfl

theorem runs_of : (Plan.of config tag cells).runs =
    Run.split config.grid (sortByTile config.grid config.parallel cells) := rfl

theorem grid_of : (Plan.of config tag cells).grid = config.grid := rfl

theorem costs_of : (Plan.of config tag cells).costs =
    Costs.of (Plan.of config tag cells).cells.length (Plan.of config tag cells).runs.length := rfl

theorem sparse_of : (Plan.of config tag cells).sparse =
    match (Plan.of config tag cells).costs.format with
    | .blocked => config.policy.isSparse config.grid.rows.tileLength config.grid.cols.tileLength
      (UInt64.ofNat
        ((Plan.of config tag cells).cells.length / (Plan.of config tag cells).runs.length))
    | .cell => false := rfl

theorem cells_perm : (Plan.of config tag cells).cells.Perm cells := sortByTile_perm

theorem length_cells_of : (Plan.of config tag cells).cells.length = cells.length :=
  cells_perm.length_eq

theorem settled_of_mem_runs (hin : ∀ c ∈ cells, c.Inside config.grid) {run : Run}
    (h : run ∈ (Plan.of config tag cells).runs) : Settled config.grid run := by
  intro c hc
  have hp : (Plan.of config tag cells).cells.Perm cells := cells_perm
  exact ⟨hin c (hp.mem_iff.mp (Run.cells_subset h c hc)), (Run.mem_split h).2 c hc⟩

end Of

variable (hg : config.grid.Sound)
include hg

theorem Settled.blockEmission_eq {run : Run} (hr : Settled config.grid run) :
    (Plan.of config tag cells).blockEmission run =
      .ok ⟨run.tile, tag, .block (block config.grid (Plan.of config tag cells).sparse run)⟩ := by
  rw [blockEmission, grid_of, hr.fragment_eq hg]
  rfl

theorem deliver_of (hin : ∀ c ∈ cells, c.Inside config.grid) (sink : Sink σ ε) (s : σ) :
    (Plan.of config tag cells).deliver sink s =
      sink.deliver .ok (Plan.of config tag cells).emissions s := by
  rw [deliver]
  split
  next h =>
    rw [emissions_blocked h]
    exact Sink.deliver_eq (fun run h ↦ (settled_of_mem_runs hin h).blockEmission_eq hg) s
  next h =>
    rw [emissions_cell h]
    exact Sink.deliver_eq (fun c _ ↦ rfl) s

end Plan

section Tiles

variable {config : Config} {cells : Array Cell} (hc : config.grid.checkTiles = .ok ())
  (hne : cells.isEmpty = false) (tag : UInt8) (sink : Sink σ ε) (s : σ)
include hc hne

theorem flush_eq_deliver : flush config cells tag sink s =
    let p := Plan.of config tag cells.toList
    let d := p.deliver sink s
    ⟨d.1.map fun _ ↦ some p.report, p.cells.toArray, d.2, [p.event]⟩ := by
  rw [flush, if_neg (by simp [hne]), hc]

end Tiles

/-- What a flush of cells of the matrix does: it delivers the emissions of its plan, and leaves the
cells in tile order. -/
theorem flush_eq {config : Config} {cells : Array Cell} (hg : config.grid.Sound)
    (hne : cells.isEmpty = false) (hin : ∀ c ∈ cells, c.Inside config.grid) (tag : UInt8)
    (sink : Sink σ ε) (s : σ) : flush config cells tag sink s =
      let p := Plan.of config tag cells.toList
      let d := sink.deliver .ok p.emissions s
      ⟨d.1.map fun _ ↦ some p.report, p.cells.toArray, d.2, [p.event]⟩ := by
  rw [flush_eq_deliver hg.checkTiles_eq hne]
  dsimp only
  rw [Plan.deliver_of hg fun c h ↦ hin c (Array.mem_toList_iff.mp h)]

def flushCalls (config : Config) (cells : Array Cell) (tag : UInt8) (sink : Sink σ ε) (s : σ)
    (memory : Memory := .unbounded) : List Emission :=
  (flush config cells tag sink.watch (s, []) memory).sink.2

section Placed

variable {config : Config} {cells : Array Cell} (hg : config.grid.Sound)
  (hne : cells.isEmpty = false) (hin : ∀ c ∈ cells, c.Inside config.grid) (tag : UInt8)
  {sink : Sink σ ε}
include hg hne hin

theorem flushCalls_eq (s : σ) : flushCalls config cells tag sink s =
    sink.offered .ok (Plan.of config tag cells.toList).emissions s := by
  rw [flushCalls, flush_eq hg hne hin]
  rfl

theorem flush_accepted (hs : sink.Accepting) (s : σ) :
    (flush config cells tag sink s).outcome =
        .ok (some (Plan.of config tag cells.toList).report) ∧
      flushCalls config cells tag sink s = (Plan.of config tag cells.toList).emissions := by
  constructor
  · rw [flush_eq hg hne hin]
    dsimp only
    rw [hs.deliver_eq_ok]
    rfl
  · rw [flushCalls_eq hg hne hin, Sink.offered_of_deliver_ok (hs.deliver_eq_ok _ s)]

end Placed

section Watch

variable (tag : UInt8) (sink : Sink σ ε) (seen : List Emission)

theorem Plan.deliver_watch (p : Plan) (s : σ) : ∃ calls, ∀ seen,
    p.deliver sink.watch (s, seen) =
      ((p.deliver sink s).1, (p.deliver sink s).2, seen ++ calls) := by
  cases hf : p.costs.format with
  | blocked =>
    refine ⟨sink.offered p.blockEmission p.runs s, fun seen ↦ ?_⟩
    rw [deliver, deliver, hf]
    exact Sink.deliver_watch sink _ _ s seen
  | cell =>
    refine ⟨sink.offered (fun c ↦ .ok (p.cellEmission c)) p.cells s, fun seen ↦ ?_⟩
    rw [deliver, deliver, hf]
    exact Sink.deliver_watch sink _ _ s seen

theorem flush_watch (config : Config) (cells : Array Cell) (s : σ) :
    flush config cells tag sink.watch (s, seen) =
      ⟨(flush config cells tag sink s).outcome, (flush config cells tag sink s).cells,
        ((flush config cells tag sink s).sink, seen ++ flushCalls config cells tag sink s),
        (flush config cells tag sink s).log⟩ := by
  obtain ⟨calls, h⟩ := (Plan.of config tag cells.toList).deliver_watch sink s
  rw [flushCalls, flush, flush, flush]
  split
  · simp
  · cases config.grid.checkTiles with
    | error fault => simp
    | ok => simp [h]

theorem flushCalls_eq_nil {config : Config} {cells : Array Cell} {s : σ}
    (h : (flush config cells tag sink s).outcome = .ok none) :
    flushCalls config cells tag sink s = [] := by
  rw [flush] at h
  split at h
  next he =>
    rw [flushCalls, flush, if_pos he]
  next =>
    cases hc : config.grid.checkTiles with
    | error fault => simp [hc] at h
    | ok =>
      rw [hc] at h
      cases hd : ((Plan.of config tag cells.toList).deliver sink s).1 <;> simp [hd, Except.map] at h

end Watch

end TileBuffer
