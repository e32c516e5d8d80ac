import TileBuffer.Proofs.Fragment.Forms
import TileBuffer.Proofs.Report

namespace TileBuffer

/-- The same record, or fragments that read the same. -/
inductive Payload.ReadsAs : Payload → Payload → Prop
  | block {f f' : Fragment} (h : f.ReadsAs f') : ReadsAs (.block f) (.block f')
  | cell (item : Item) : ReadsAs (.cell item) (.cell item)

structure Emission.ReadsAs (e e' : Emission) : Prop where
  tile : e'.tile = e.tile
  tag : e'.tag = e.tag
  payload : e.payload.ReadsAs e'.payload

namespace Plan

variable {config config' : Config} {tag : UInt8} {cells : List Cell}

theorem Settled.block_readsAs {g : Grid} {run : Run} (hg : g.Sound) (hr : Settled g run)
    (sparse sparse' : Bool) : (block g sparse run).ReadsAs (block g sparse' run) := by
  apply Fragment.ReadsAs.of_get (hr.wellFormed hg sparse) (hr.wellFormed hg sparse')
  · rw [rows_block, rows_block]
  · rw [cols_block, cols_block]
  · intro i j
    rw [hr.get_block hg, hr.get_block hg]

def withStorage (p : Plan) (sparse : Bool) : Plan :=
  ⟨p.grid, p.tag, p.cells, p.runs, p.costs, sparse⟩

theorem of_eq_of_grid (h : config'.grid = config.grid) : Plan.of config' tag cells =
    (Plan.of config tag cells).withStorage (Plan.of config' tag cells).sparse := by
  simp only [withStorage, of, h, TileBuffer.sortByTile_eq]

theorem sparse_eq_of_policy (h : config'.grid = config.grid)
    (hp : config'.policy = config.policy) :
    (Plan.of config' tag cells).sparse = (Plan.of config tag cells).sparse := by
  simp only [of, h, hp, TileBuffer.sortByTile_eq]

theorem readsAs_withStorage (hg : config.grid.Sound) (hin : ∀ c ∈ cells, c.Inside config.grid)
    (sparse : Bool) : List.Forall₂ Emission.ReadsAs (Plan.of config tag cells).emissions
      ((Plan.of config tag cells).withStorage sparse).emissions := by
  cases hf : (Plan.of config tag cells).costs.format with
  | cell =>
    have hf' : ((Plan.of config tag cells).withStorage sparse).costs.format = .cell := hf
    rw [emissions_cell hf, emissions_cell hf', List.forall₂_map_left_iff,
      List.forall₂_map_right_iff]
    exact List.forall₂_same.mpr fun c _ ↦ ⟨rfl, rfl, .cell _⟩
  | blocked =>
    have hf' : ((Plan.of config tag cells).withStorage sparse).costs.format = .blocked := hf
    rw [emissions_blocked hf, emissions_blocked hf', List.forall₂_map_left_iff,
      List.forall₂_map_right_iff]
    refine List.forall₂_same.mpr fun run hrun ↦ ?_
    have hr := settled_of_mem_runs hin hrun
    exact ⟨rfl, rfl, .block (hr.block_readsAs hg _ sparse)⟩

end Plan

/-- Under another policy, and sorted another way, a flush reports the same but for its choice of
storage, leaves the cells in the same order, and sends what reads the same. -/
theorem flush_reads_same {σ ε σ' ε' : Type} {config config' : Config}
    (hg : config.grid.check = .ok ()) (hgrid : config'.grid = config.grid) {cells : Array Cell}
    (hne : cells.isEmpty = false) (hin : ∀ c ∈ cells, c.Inside config.grid) (tag : UInt8)
    {sink : Sink σ ε} {sink' : Sink σ' ε'} (hs : sink.Accepting) (hs' : sink'.Accepting) (s : σ)
    (s' : σ') : ∃ report report',
      (flush config cells tag sink s).outcome = .ok (some report) ∧
      (flush config' cells tag sink' s').outcome = .ok (some report') ∧
      report' = { report with sparse := report'.sparse } ∧
      (flush config' cells tag sink' s').cells = (flush config cells tag sink s).cells ∧
      List.Forall₂ Emission.ReadsAs (flushCalls config cells tag sink s)
        (flushCalls config' cells tag sink' s') ∧
      (config'.policy = config.policy → report' = report ∧
        flushCalls config' cells tag sink' s' = flushCalls config cells tag sink s) := by
  rw [Grid.check_eq_ok_iff] at hg
  have hg' : config'.grid.Sound := hgrid ▸ hg
  have hin' : ∀ c ∈ cells, c.Inside config'.grid := hgrid ▸ hin
  obtain ⟨hreport, hcalls⟩ := flush_accepted hg hne hin tag hs s
  obtain ⟨hreport', hcalls'⟩ := flush_accepted hg' hne hin' tag hs' s'
  have hplan : Plan.of config' tag cells.toList = _ := Plan.of_eq_of_grid hgrid
  refine ⟨_, _, hreport, hreport', ?_, ?_, ?_, fun hp ↦ ?_⟩
  · rw [hplan]
    rfl
  · rw [flush_eq hg hne hin, flush_eq hg' hne hin', hplan]
    rfl
  · rw [hcalls, hcalls']
    rw [hplan]
    exact Plan.readsAs_withStorage hg (fun c hc ↦ hin c (Array.mem_toList_iff.mp hc)) _
  · rw [Plan.sparse_eq_of_policy hgrid hp] at hplan
    rw [hcalls, hcalls', hplan]
    exact ⟨rfl, rfl⟩

/-- Three values at one position, the last of them zero: dense storage has that one, and sparse
storage keeps them all. -/
theorem flush_reads_same_repeated :
    let config : Config := ⟨.ofSizes 3 3 2 2, 4, .alwaysDense, false⟩
    let config' : Config := ⟨.ofSizes 3 3 2 2, 4, .alwaysSparse, true⟩
    let one : Value := ⟨0x3ff0000000000000⟩
    let two : Value := ⟨0x4000000000000000⟩
    let nan : Value := ⟨0x7ff8000000000001⟩
    let cells : Array Cell := #[⟨2, 2, one⟩, ⟨3, 3, nan⟩, ⟨2, 2, two⟩, ⟨2, 2, .zero⟩]
    let sent := flushCalls config cells 7 Sink.collect #[]
    let sent' := flushCalls config' cells 7 Sink.collect #[]
    config.grid.check = .ok () ∧ config'.grid = config.grid ∧ cells.isEmpty = false ∧
      (∀ c ∈ cells, c.Inside config.grid) ∧ Sink.collect.Accepting ∧
      sent = [⟨⟨1, 1⟩, 7, .block ⟨2, 2, .dense #[.zero, .zero, .zero, .zero]⟩⟩,
        ⟨⟨2, 2⟩, 7, .block ⟨1, 1, .dense #[nan]⟩⟩] ∧
      sent' = [⟨⟨1, 1⟩, 7, .block ⟨2, 2, .sparse #[.empty, ⟨#[⟨1, one⟩, ⟨1, two⟩, ⟨1, .zero⟩]⟩]⟩⟩,
        ⟨⟨2, 2⟩, 7, .block ⟨1, 1, .sparse #[⟨#[⟨0, nan⟩]⟩]⟩⟩] ∧
      ∃ report report',
        (flush config cells 7 Sink.collect #[]).outcome = .ok (some report) ∧
        (flush config' cells 7 Sink.collect #[]).outcome = .ok (some report') ∧
        report' = { report with sparse := report'.sparse } ∧
        (flush config' cells 7 Sink.collect #[]).cells =
          (flush config cells 7 Sink.collect #[]).cells ∧
        List.Forall₂ Emission.ReadsAs sent sent' ∧
        (config'.policy = config.policy → report' = report ∧ sent' = sent) := by
  intro config config' one two nan cells sent sent'
  have hg : config.grid.check = .ok () := rfl
  have hgrid : config'.grid = config.grid := rfl
  have hne : cells.isEmpty = false := rfl
  have hin : ∀ c ∈ cells, c.Inside config.grid := by decide
  refine ⟨hg, hgrid, hne, hin, Sink.collect_accepting, ?_, ?_,
    flush_reads_same hg hgrid hne hin 7 Sink.collect_accepting Sink.collect_accepting #[] #[]⟩
  · change flushCalls config cells 7 Sink.collect #[] = _
    cbv
  · change flushCalls config' cells 7 Sink.collect #[] = _
    cbv

end TileBuffer
