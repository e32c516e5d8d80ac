import TileBuffer.Proofs.Content
import TileBuffer.Proofs.Fragment.Canonical
import TileBuffer.Proofs.Report
import TileBuffer.Proofs.Tiles

namespace TileBuffer

variable {g : Grid} {parallel : Bool} {cells cells' : List Cell}

namespace Cell

/-- Every position gets the same values, in the same order. -/
def SameValues (cells cells' : List Cell) : Prop :=
  ∀ row col, valuesAt cells row col = valuesAt cells' row col

def Apart (c d : Cell) : Prop := (c.row, c.col) ≠ (d.row, d.col)

theorem length_valuesAt_le (hd : cells.Pairwise Apart) (row col : UInt64) :
    (valuesAt cells row col).length ≤ 1 := by
  have hp := hd.filter (isAt row col)
  rw [valuesAt, List.length_map]
  rcases hl : cells.filter (isAt row col) with _ | ⟨c, _ | ⟨d, rest⟩⟩
  · exact Nat.zero_le _
  · exact le_rfl
  · have hat {e : Cell} (he : e ∈ c :: d :: rest) : (e.row, e.col) = (row, col) := by
      rw [← hl] at he
      exact Prod.ext_iff.mpr (isAt_iff.mp (List.mem_filter.mp he).2)
    rw [hl] at hp
    have hcd : c.Apart d := List.rel_of_pairwise_cons hp List.mem_cons_self
    exact absurd ((hat List.mem_cons_self).trans (hat (by simp)).symm) hcd

theorem sameValues_of_perm (hp : cells.Perm cells') (hd : cells.Pairwise Apart) :
    SameValues cells cells' := by
  intro row col
  have hv : (valuesAt cells row col).Perm (valuesAt cells' row col) :=
    (hp.filter (isAt row col)).map Cell.value
  have hle := length_valuesAt_le hd row col
  rcases hl : valuesAt cells row col with _ | ⟨v, _ | ⟨w, rest⟩⟩
  · rw [hl] at hv
    exact hv.nil_eq
  · rw [hl] at hv
    exact hv.singleton_eq
  · rw [hl] at hle
    exact absurd hle (by simp)

theorem valuesAt_filter_tile (cells : List Cell) (t : Tile) (row col : UInt64) :
    valuesAt (cells.filter fun c ↦ c.tile g = t) row col =
      if g.tileOf row col = t then valuesAt cells row col else [] := by
  rw [valuesAt, List.filter_filter]
  split
  next ht =>
    refine congrArg (List.map Cell.value) (List.filter_congr fun c _ ↦ ?_)
    rw [Bool.and_eq_left_iff_imp, isAt_iff, decide_eq_true_eq]
    rintro ⟨rfl, rfl⟩
    exact ht
  next ht =>
    rw [List.map_eq_nil_iff, List.filter_eq_nil_iff]
    intro c _ hc
    rw [Bool.and_eq_true, isAt_iff, decide_eq_true_eq] at hc
    obtain ⟨⟨rfl, rfl⟩, hct⟩ := hc
    exact ht hct

end Cell

theorem sortByTile_congr_perm (g : Grid) (parallel : Bool) (hp : cells.Perm cells') :
    (sortByTile g parallel cells).Perm (sortByTile g parallel cells') :=
  sortByTile_perm.trans (hp.trans sortByTile_perm.symm)

theorem map_tile_sortByTile (hp : cells.Perm cells') :
    (sortByTile g parallel cells).map (Cell.tile g) =
      (sortByTile g parallel cells').map (Cell.tile g) := by
  have hs (l : List Cell) : ((sortByTile g parallel l).map (Cell.tile g)).Pairwise (· ≤ ·) := by
    rw [List.pairwise_map]
    exact sortByTile_pairwise
  have hperm := (sortByTile_congr_perm g parallel hp).map (Cell.tile g)
  exact hperm.eq_of_pairwise (fun _ _ _ _ ↦ Tile.le_antisymm) (hs cells) (hs cells')

theorem Run.tiles_split_eq (g : Grid) (parallel : Bool) (hp : cells.Perm cells') :
    (split g (sortByTile g parallel cells)).map Run.tile =
      (split g (sortByTile g parallel cells')).map Run.tile :=
  (listsTiles_split g parallel cells).eq_of_perm (listsTiles_split g parallel cells') hp

namespace Plan

variable {run run' : Run}

theorem Settled.valuesAt_items (hg : g.Sound) (hr : Settled g run) (ht : g.HasTile run.tile)
    (i j : ℕ) : Item.valuesAt (run.cells.map (Cell.item g)) i j =
      if i < (g.extent run.tile).1 ∧ j < (g.extent run.tile).2 then
        Cell.valuesAt run.cells (g.globalOf run.tile i j).1 (g.globalOf run.tile i j).2
      else [] := by
  have hfit := hr.fit_items hg
  split
  next hij =>
    rw [← Item.valuesAt_map_cell ht hfit hij.1 hij.2, hr.map_cell_item hg]
  next hij =>
    rw [Item.valuesAt, List.map_eq_nil_iff, List.filter_eq_nil_iff]
    intro item hitem hat
    obtain ⟨rfl, rfl⟩ := Item.isAt_iff.mp hat
    exact hij (hfit item hitem)

theorem block_congr (hg : g.Sound) (hr : Settled g run) (hr' : Settled g run')
    (htile : run.tile = run'.tile) (ht : g.HasTile run.tile)
    (h : Cell.SameValues run.cells run'.cells) (sparse : Bool) :
    block g sparse run = block g sparse run' := by
  obtain ⟨t, cells⟩ := run
  obtain ⟨t', cells'⟩ := run'
  dsimp only at htile
  subst htile
  refine Fragment.WellFormed.sortRows_appendAll_congr (hr.inside hg sparse) (hr'.inside hg sparse)
    (fun i j ↦ ?_) (Fragment.wellFormed_zeros _ _ _)
  rw [hr.valuesAt_items hg ht, hr'.valuesAt_items hg ht]
  dsimp only
  rw [h]

variable {config : Config} {tag : UInt8}

theorem report_congr (hp : cells.Perm cells') :
    (Plan.of config tag cells').report = (Plan.of config tag cells).report := by
  have hcells := (sortByTile_congr_perm config.grid config.parallel hp).length_eq
  have hruns : (Plan.of config tag cells).runs.length = (Plan.of config tag cells').runs.length := by
    have htiles := congrArg List.length (Run.tiles_split_eq config.grid config.parallel hp)
    rwa [List.length_map, List.length_map] at htiles
  rw [runs_of, runs_of] at hruns
  simp only [report, of, hcells, hruns]

theorem settled_ofTile (hin : ∀ c ∈ cells, c.Inside g) (t : Tile) :
    Settled g (Run.ofTile g cells t) := by
  intro c hc
  obtain ⟨hc, ht⟩ := List.mem_filter.mp hc
  exact ⟨hin c hc, of_decide_eq_true ht⟩

theorem emissions_congr (hg : config.grid.Sound) (hin : ∀ c ∈ cells, c.Inside config.grid)
    (h : Cell.SameValues cells cells')
    (hf : (Plan.of config tag cells).costs.format = .blocked) :
    (Plan.of config tag cells').emissions = (Plan.of config tag cells).emissions := by
  have hp : cells.Perm cells' := Cell.perm_of_valuesAt h
  have hin' : ∀ c ∈ cells', c.Inside config.grid := fun c hc ↦ hin c (hp.mem_iff.mpr hc)
  have hreport : (Plan.of config tag cells').report = (Plan.of config tag cells).report :=
    report_congr hp
  have hf' : (Plan.of config tag cells').costs.format = .blocked :=
    (congrArg Report.format hreport).trans hf
  have hsparse : (Plan.of config tag cells').sparse = (Plan.of config tag cells).sparse :=
    congrArg Report.sparse hreport
  -- both plans go through the same tiles in the same order
  obtain ⟨tiles, htiles⟩ : ∃ tiles, tiles = (Plan.of config tag cells).runs.map Run.tile := ⟨_, rfl⟩
  have hruns : (Plan.of config tag cells).runs = tiles.map (Run.ofTile config.grid cells) := by
    rw [htiles]
    exact Run.split_eq_map_ofTile config.grid config.parallel cells
  have hruns' : (Plan.of config tag cells').runs = tiles.map (Run.ofTile config.grid cells') := by
    rw [htiles, runs_of, runs_of, Run.tiles_split_eq _ _ hp]
    exact Run.split_eq_map_ofTile config.grid config.parallel cells'
  rw [emissions_blocked hf, emissions_blocked hf', hruns, hruns', List.map_map, List.map_map]
  refine List.map_congr_left fun t ht ↦ ?_
  obtain ⟨c, hc, rfl⟩ := Run.mem_tiles_iff.mp (htiles ▸ ht)
  have htile : config.grid.HasTile (c.tile config.grid) :=
    (hin c (sortByTile_perm.mem_iff.mp hc)).hasTile
  have hblock : block config.grid (Plan.of config tag cells).sparse
        (Run.ofTile config.grid cells (c.tile config.grid)) =
      block config.grid (Plan.of config tag cells).sparse
        (Run.ofTile config.grid cells' (c.tile config.grid)) := by
    refine block_congr hg (settled_ofTile hin _) (settled_ofTile hin' _) rfl htile ?_ _
    intro row col
    rw [Run.ofTile, Run.ofTile, Cell.valuesAt_filter_tile, Cell.valuesAt_filter_tile, h]
  rw [Function.comp_apply, Function.comp_apply, hsparse, grid_of, grid_of, hblock]
  rfl

end Plan

/-- The same emissions, but for the order of the records of one tile. -/
structure SentAlike (format : Format) (sent sent' : List Emission) : Prop where
  blocks : format = .blocked → sent' = sent
  tiles : sent'.map Emission.tile = sent.map Emission.tile
  records : ∀ t, (sent'.filter fun e ↦ e.tile = t).Perm (sent.filter fun e ↦ e.tile = t)

theorem Plan.sentAlike {config : Config} (hg : config.grid.Sound)
    (hin : ∀ c ∈ cells, c.Inside config.grid) (hp : cells.Perm cells')
    (hd : cells.Pairwise Cell.Apart) (tag : UInt8) :
    SentAlike (Plan.of config tag cells).report.format (Plan.of config tag cells).emissions
      (Plan.of config tag cells').emissions := by
  have hv := Cell.sameValues_of_perm hp hd
  have hreport : (Plan.of config tag cells').report = (Plan.of config tag cells).report :=
    report_congr hp
  cases hf : (Plan.of config tag cells).report.format with
  | blocked =>
    have he : (Plan.of config tag cells').emissions = (Plan.of config tag cells).emissions :=
      emissions_congr hg hin hv hf
    refine ⟨fun _ ↦ he, ?_, fun t ↦ ?_⟩ <;> rw [he]
  | cell =>
    have hf' := (congrArg Report.format hreport).trans hf
    rw [emissions_cell hf, emissions_cell hf']
    refine ⟨nofun, ?_, fun t ↦ ?_⟩
    · rw [List.map_map, List.map_map]
      exact (map_tile_sortByTile hp).symm
    · exact ((sortByTile_congr_perm config.grid config.parallel hp.symm).map _).filter _

/-- Cells of different positions may arrive in any order: the report and the fragments are the
same, and the records of each tile are the same up to their order. -/
theorem flush_perm {σ ε σ' ε' : Type} {config : Config} (hg : config.grid.check = .ok ())
    {cells cells' : Array Cell} (hne : cells.isEmpty = false)
    (hin : ∀ c ∈ cells, c.Inside config.grid) (hp : cells.toList.Perm cells'.toList)
    (hd : cells.toList.Pairwise Cell.Apart) (tag : UInt8) {sink : Sink σ ε} {sink' : Sink σ' ε'}
    (hs : sink.Accepting) (hs' : sink'.Accepting) (s : σ) (s' : σ') :
    ∃ report, (flush config cells tag sink s).outcome = .ok (some report) ∧
      (flush config cells' tag sink' s').outcome = .ok (some report) ∧
      SentAlike report.format (flushCalls config cells tag sink s)
        (flushCalls config cells' tag sink' s') := by
  rw [Grid.check_eq_ok_iff] at hg
  have hne' : cells'.isEmpty = false := by
    have hlength := hp.length_eq
    rw [Array.length_toList, Array.length_toList] at hlength
    rw [Array.isEmpty_eq_false_iff, ← Array.size_pos_iff] at hne ⊢
    omega
  have hin' : ∀ c ∈ cells', c.Inside config.grid := by
    intro c hc
    exact hin c (Array.mem_toList_iff.mp (hp.mem_iff.mpr (Array.mem_toList_iff.mpr hc)))
  obtain ⟨hreport, hcalls⟩ := flush_accepted hg hne hin tag hs s
  obtain ⟨hreport', hcalls'⟩ := flush_accepted hg hne' hin' tag hs' s'
  rw [Plan.report_congr hp] at hreport'
  refine ⟨_, hreport, hreport', ?_⟩
  rw [hcalls, hcalls']
  exact Plan.sentAlike hg (fun c hc ↦ hin c (Array.mem_toList_iff.mp hc)) hp hd tag

/-- Four cells of two tiles, forth and back: the same two fragments go. -/
theorem flush_perm_reverse :
    let config : Config := ⟨.ofSizes 3 3 2 2, 4, .alwaysSparse, false⟩
    let one : Value := ⟨0x3ff0000000000000⟩
    let nan : Value := ⟨0x7ff8000000000001⟩
    let minus : Value := ⟨0x8000000000000000⟩
    let cells : Array Cell := #[⟨1, 2, one⟩, ⟨2, 3, minus⟩, ⟨1, 1, .zero⟩, ⟨1, 3, nan⟩]
    config.grid.check = .ok () ∧ cells.isEmpty = false ∧ (∀ c ∈ cells, c.Inside config.grid) ∧
      cells.toList.Perm cells.reverse.toList ∧ cells.toList.Pairwise Cell.Apart ∧
      Sink.collect.Accepting ∧
      flushCalls config cells.reverse 7 Sink.collect #[] =
        [⟨⟨1, 1⟩, 7, .block ⟨2, 2, .sparse #[⟨#[⟨0, .zero⟩, ⟨1, one⟩]⟩, .empty]⟩⟩,
          ⟨⟨1, 2⟩, 7, .block ⟨2, 1, .sparse #[⟨#[⟨0, nan⟩]⟩, ⟨#[⟨0, minus⟩]⟩]⟩⟩] ∧
      ∃ report, report.format = .blocked ∧
        (flush config cells 7 Sink.collect #[]).outcome = .ok (some report) ∧
        (flush config cells.reverse 7 Sink.collect #[]).outcome = .ok (some report) ∧
        SentAlike report.format (flushCalls config cells 7 Sink.collect #[])
          (flushCalls config cells.reverse 7 Sink.collect #[]) := by
  intro config one nan minus cells
  have hg : config.grid.check = .ok () := rfl
  have hne : cells.isEmpty = false := rfl
  have hin : ∀ c ∈ cells, c.Inside config.grid := by decide
  have hp : cells.toList.Perm cells.reverse.toList := by
    rw [Array.toList_reverse]
    exact (List.reverse_perm _).symm
  have hd : cells.toList.Pairwise Cell.Apart := by
    unfold Cell.Apart
    decide
  obtain ⟨report, hreport, hreport', hsent⟩ :=
    flush_perm hg hne hin hp hd 7 Sink.collect_accepting Sink.collect_accepting #[] #[]
  have hblocked : report.format = .blocked := by
    have h : (flush config cells 7 Sink.collect #[]).outcome.map (Option.map Report.format) =
        .ok (some .blocked) := by cbv
    rw [hreport] at h
    exact Option.some.inj (Except.ok.inj h)
  exact ⟨hg, hne, hin, hp, hd, Sink.collect_accepting, by cbv, report, hblocked, hreport, hreport',
    hsent⟩

end TileBuffer
