import TileBuffer.Proofs.Flush
import TileBuffer.Proofs.Session.Moves

namespace TileBuffer

variable {σ ε : Type}

namespace Buffer

/-- What the checks of a configuration and of cells guarantee. -/
structure Sound (b : Buffer) : Prop where
  grid : b.config.grid.Sound
  capacity : b.store.capacity = b.config.capacity.toNat
  pos : 0 < b.store.capacity
  size_le : b.size ≤ b.store.capacity
  inside : ∀ c ∈ b.store.cells, c.Inside b.config.grid

def plan (b : Buffer) (tag : UInt8) : Plan := Plan.of b.config tag b.store.cells.toList

def afterFlush (b : Buffer) (auto : Bool) (r : Report) : Buffer :=
  let b := b.flushed r
  if auto then { b with counters := b.counters.recordAuto } else b

def withCells (b : Buffer) (cells : Array Cell) : Buffer :=
  { b with store := { b.store with cells := cells } }

theorem cells_afterFlush (b : Buffer) (auto : Bool) (r : Report) :
    (b.afterFlush auto r).store.cells = #[] := by cases auto <;> rfl

/-- One move of a buffer. A flush fails only where refusals can happen. -/
inductive Step (refusals : Prop) : Buffer → Move → Buffer → Prop
  | take {b : Buffer} {c : Cell} (hin : c.Inside b.config.grid)
      (hroom : b.size < b.store.capacity) :
      Step refusals b (.take c) (b.withCells (b.store.cells.push c))
  | send {b : Buffer} (auto : Bool) (tag : UInt8) (hne : b.isEmpty = false) :
      Step refusals b (.send auto (b.plan tag).report (b.plan tag).emissions)
        (b.afterFlush auto (b.plan tag).report)
  | fail {b : Buffer} (tag : UInt8) (calls : List Emission) (hr : refusals)
      (hne : b.isEmpty = false) :
      Step refusals b (.fail calls) (b.withCells (b.plan tag).cells.toArray)

inductive Steps (refusals : Prop) : Buffer → List Move → Buffer → Prop
  | nil (b : Buffer) : Steps refusals b [] b
  | snoc {b b' b'' : Buffer} {moves : List Move} {m : Move} (h : Steps refusals b moves b')
      (hs : Step refusals b' m b'') : Steps refusals b (moves ++ [m]) b''

variable {refusals : Prop} {b b' b'' : Buffer} {m : Move} {moves moves' : List Move}

theorem Steps.one (h : Step refusals b m b') : Steps refusals b [m] b' := .snoc (.nil b) h

theorem Steps.trans (h : Steps refusals b moves b') (h' : Steps refusals b' moves' b'') :
    Steps refusals b (moves ++ moves') b'' := by
  induction h' with
  | nil => rwa [List.append_nil]
  | snoc _ hs ih =>
    rw [← List.append_assoc]
    exact .snoc ih hs

theorem check_eq_ok_iff {config : Config} :
    config.check = .ok () ↔ config.grid.Sound ∧ 0 < config.capacity.toNat := by
  have hp : 0 < config.capacity.toNat ↔ config.capacity ≠ 0 := by
    rw [Nat.pos_iff_ne_zero, Ne, Ne, ← UInt64.toNat_inj]
    rfl
  rw [hp, ← Grid.check_eq_ok_iff, Config.check, checkCapacity]
  rcases config.grid.check with rejection | ⟨⟩
  · exact ⟨nofun, fun h ↦ nomatch h.1⟩
  · by_cases hc : config.capacity = 0 <;> simp [bind, Except.bind, hc]

theorem ofConfig_eq_ok {config : Config} (h : ofConfig config = .ok b) :
    config.check = .ok () ∧ b = fresh config := by
  rw [ofConfig] at h
  rcases hc : config.check with rejection | ⟨⟩
  · rw [hc] at h
    cases h
  · rw [hc] at h
    cases h
    exact ⟨rfl, rfl⟩

theorem sound_fresh {config : Config} (h : config.check = .ok ()) : (fresh config).Sound := by
  obtain ⟨hg, hc⟩ := check_eq_ok_iff.mp h
  exact ⟨hg, rfl, hc, Nat.zero_le _, by simp [fresh, CellStore.empty]⟩

theorem plan_perm (b : Buffer) (tag : UInt8) :
    (b.plan tag).cells.Perm b.store.cells.toList := Plan.cells_perm

theorem mem_plan {tag : UInt8} {c : Cell} : c ∈ (b.plan tag).cells ↔ c ∈ b.store.cells := by
  rw [(b.plan_perm tag).mem_iff, Array.mem_toList_iff]

theorem size_withCells_plan (b : Buffer) (tag : UInt8) :
    (b.withCells (b.plan tag).cells.toArray).size = b.size := (b.plan_perm tag).length_eq

theorem Sound.inside_toList (hb : b.Sound) : ∀ c ∈ b.store.cells.toList, c.Inside b.config.grid :=
  fun c hc ↦ hb.inside c (Array.mem_toList_iff.mp hc)

theorem Sound.isEmpty_eq_false (hb : b.Sound) (h : b.isFull = true) : b.isEmpty = false := by
  have hpos := hb.pos
  simp only [isFull, CellStore.isFull, decide_eq_true_eq] at h
  simp only [isEmpty, CellStore.isEmpty, Array.isEmpty_eq_false_iff, ne_eq,
    ← Array.size_eq_zero_iff]
  omega

theorem Step.config_eq (h : Step refusals b m b') : b'.config = b.config := by
  cases h with
  | take => rfl
  | send auto => cases auto <;> rfl
  | fail => rfl

theorem Step.capacity_eq (h : Step refusals b m b') : b'.store.capacity = b.store.capacity := by
  cases h with
  | take => rfl
  | send auto => cases auto <;> rfl
  | fail => rfl

theorem Step.sound (h : Step refusals b m b') (hb : b.Sound) : b'.Sound := by
  have hcells : b'.size ≤ b'.store.capacity ∧ ∀ c ∈ b'.store.cells, c.Inside b'.config.grid := by
    rw [h.config_eq, h.capacity_eq]
    cases h with
    | take hin hroom =>
      refine ⟨by simpa [size, CellStore.size, withCells] using hroom, fun c hc ↦ ?_⟩
      obtain hc | rfl := Array.mem_push.mp hc
      · exact hb.inside c hc
      · exact hin
    | send auto tag =>
      rw [size, CellStore.size, cells_afterFlush]
      exact ⟨Nat.zero_le _, by simp⟩
    | fail tag calls =>
      refine ⟨?_, fun c hc ↦ ?_⟩
      · rw [size_withCells_plan]
        exact hb.size_le
      · exact hb.inside c (mem_plan.mp (List.mem_toArray.mp hc))
  exact ⟨h.config_eq ▸ hb.grid, by rw [h.capacity_eq, h.config_eq, hb.capacity],
    h.capacity_eq ▸ hb.pos, hcells.1, hcells.2⟩

theorem Steps.config_eq (h : Steps refusals b moves b') : b'.config = b.config := by
  induction h with
  | nil => rfl
  | snoc _ hs ih => rw [hs.config_eq, ih]

theorem Steps.sound (h : Steps refusals b moves b') (hb : b.Sound) : b'.Sound := by
  induction h with
  | nil => exact hb
  | snoc _ hs ih => exact hs.sound ih

theorem Steps.offered_eq (h : Steps False b moves b') : Move.offered moves = Move.sent moves := by
  induction h with
  | nil => rfl
  | snoc _ hs ih =>
    rw [Move.offered_concat, Move.sent_concat, ih]
    cases hs with
    | take => rfl
    | send => rfl
    | fail tag calls hr => exact hr.elim

theorem isFull_iff : b.isFull = true ↔ b.store.capacity ≤ b.size := by
  simp [isFull, CellStore.isFull, size, CellStore.size]

theorem push_eq (h : b.size < b.store.capacity) (c : Cell) :
    b.push c = .ok (b.withCells (b.store.cells.push c)) := by
  have hf : ¬b.store.isFull = true := fun hf ↦ absurd (isFull_iff.mp hf) (Nat.not_le.mpr h)
  rw [push, CellStore.push, if_neg hf]
  rfl

theorem size_push (b : Buffer) (c : Cell) :
    (b.withCells (b.store.cells.push c)).size = b.size + 1 := by
  simp [size, CellStore.size, withCells]

theorem step_of_push {c : Cell} (h : b.push c = .ok b') (hin : c.Inside b.config.grid) :
    Step refusals b (.take c) b' := by
  rw [push, CellStore.push] at h
  cases hf : b.store.isFull with
  | true => simp [hf] at h
  | false =>
    simp only [hf, Bool.false_eq_true, if_false, Except.ok.injEq] at h
    subst h
    exact .take hin (by simpa [CellStore.isFull, size, CellStore.size] using hf)

theorem step_of_append {c : Cell} (h : b.append c = .ok b') : Step refusals b (.take c) b' := by
  rw [append, Grid.checkCell] at h
  by_cases hin : b.config.grid.contains c.row c.col = true
  · rw [if_pos hin] at h
    exact step_of_push h hin
  · rw [if_neg hin] at h
    cases h

end Buffer

end TileBuffer
