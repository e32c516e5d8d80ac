import TileBuffer.Config.Json
import TileBuffer.Proofs.Json

namespace TileBuffer

variable {j : Json}

theorem Json.word?_eq_some_iff {n : UInt64} : j.word? = some n ↔ j = .word n := by
  constructor
  · intro h
    match j, h with
    | .num (.whole _), rfl => rfl
  · rintro rfl
    rfl

theorem Json.value?_ofValue (v : Value) :
    (ofValue v).value? = if v.isFinite then some v else none := by
  rw [ofValue]
  split <;> rfl

namespace Tile

variable {t : Tile}

def Written (t : Tile) (j : Json) : Prop :=
  Json.IsRecord ["row", "col"] [.word t.row, .word t.col] j

theorem written_toJson (t : Tile) : t.Written t.toJson :=
  Json.isRecord_record rfl

theorem ofJson?_eq_some_iff : ofJson? j = some t ↔ t.Written j := by
  rw [Written, ← Json.fields?_eq_some_iff (by decide), ofJson?]
  constructor
  · intro h
    split at h
    next row col hf =>
      simp only [Option.bind_eq_bind, Option.bind_eq_some_iff, Json.word?_eq_some_iff] at h
      obtain ⟨_, rfl, _, rfl, h⟩ := h
      cases h
      exact hf
    next => cases h
  · intro h
    rw [h]
    rfl

end Tile

namespace Grid

variable {g : Grid}

abbrev fieldNames : List String := ["rows", "cols", "block_rows", "block_cols"]

def Written (g : Grid) (j : Json) : Prop :=
  Json.IsRecord fieldNames
    [.word g.rows.length, .word g.cols.length, .word g.rows.tileLength, .word g.cols.tileLength] j

theorem written_toJson (g : Grid) : g.Written g.toJson :=
  Json.isRecord_record rfl

theorem Written.ofJson?_eq (h : g.Written j) : ofJson? j = some g := by
  rw [ofJson?, h.fields?_eq (by decide)]
  rfl

theorem ofJson?_of_misses (h : Json.Misses fieldNames j) : ofJson? j = none := by
  rw [ofJson?, h.fields?_eq]

end Grid

namespace StoragePolicy

variable {p : StoragePolicy}

/-- Whether it is read once it is written: a turn point must be finite. -/
def legible : StoragePolicy → Bool
  | .turnPoint share => share.isFinite
  | _ => true

/-- The names are strings, and a turn point is a record under its name. -/
inductive Written : StoragePolicy → Json → Prop
  | turnPoint {share : Value} {j : Json} (h : Json.IsRecord ["turn_point"] [.ofValue share] j) :
      Written (.turnPoint share) (.record [("TurnPoint", j)])
  | alwaysSparse : Written .alwaysSparse (.string "AlwaysSparse")
  | alwaysDense : Written .alwaysDense (.string "AlwaysDense")

theorem written_of_toJson? (h : p.toJson? = some j) : p.Written j := by
  cases p with
  | turnPoint share =>
    cases h
    exact .turnPoint (Json.isRecord_record rfl)
  | alwaysSparse =>
    cases h
    exact .alwaysSparse
  | alwaysDense =>
    cases h
    exact .alwaysDense
  | custom rule => cases h

theorem exists_toJson?_iff : (∃ j, p.toJson? = some j) ↔ ∀ rule, p ≠ .custom rule := by
  cases p <;> simp [toJson?]

theorem ofJson?_turnPoint (j : Json) :
    ofJson? (.record [("TurnPoint", j)]) = turnPointOfJson? j := rfl

theorem Written.ofJson?_eq (h : p.Written j) :
    ofJson? j = if p.legible then some p else none := by
  cases h with
  | @turnPoint share j h =>
    rw [ofJson?_turnPoint, turnPointOfJson?, h.fields?_eq (by decide), legible]
    cases hf : share.isFinite <;> simp [Json.value?_ofValue, hf]
  | alwaysSparse => rfl
  | alwaysDense => rfl

theorem ofJson?_of_misses (h : Json.Misses ["turn_point"] j) :
    ofJson? (.record [("TurnPoint", j)]) = none := by
  rw [ofJson?_turnPoint, turnPointOfJson?, h.fields?_eq]

end StoragePolicy

namespace Config

variable {c : Config}

abbrev fieldNames : List String := ["geometry", "capacity", "density", "parallel"]

inductive Written (c : Config) (j : Json) : Prop
  | record {grid density : Json} (hg : c.grid.Written grid) (hd : c.policy.Written density)
      (h : Json.IsRecord fieldNames [grid, .word c.capacity, density, .bool c.parallel] j)

/-- A field is left out or repeated, in the configuration, its grid or its turn point. -/
inductive Broken (j : Json) : Prop
  | config (h : Json.Misses fieldNames j)
  | grid {grid capacity density parallel : Json}
      (h : Json.IsRecord fieldNames [grid, capacity, density, parallel] j)
      (hg : Json.Misses Grid.fieldNames grid)
  | turnPoint {grid capacity share parallel : Json}
      (h : Json.IsRecord fieldNames
        [grid, capacity, .record [("TurnPoint", share)], parallel] j)
      (hs : Json.Misses ["turn_point"] share)

theorem exists_toJson?_iff : (∃ j, c.toJson? = some j) ↔ ∀ rule, c.policy ≠ .custom rule := by
  rw [← StoragePolicy.exists_toJson?_iff, toJson?]
  cases c.policy.toJson? <;> simp

theorem written_of_toJson? (h : c.toJson? = some j) : c.Written j := by
  rw [toJson?, Option.bind_eq_bind, Option.bind_eq_some_iff] at h
  obtain ⟨density, hd, h⟩ := h
  cases h
  exact .record c.grid.written_toJson (StoragePolicy.written_of_toJson? hd)
    (Json.isRecord_record rfl)

theorem ofJson?_of_isRecord {grid capacity density parallel : Json}
    (h : Json.IsRecord fieldNames [grid, capacity, density, parallel] j) : ofJson? j = do
      return ⟨← Grid.ofJson? grid, ← capacity.word?, ← StoragePolicy.ofJson? density,
        ← parallel.bool?⟩ := by
  rw [ofJson?, h.fields?_eq (by decide)]

theorem Written.ofJson?_eq (h : c.Written j) :
    ofJson? j = if c.policy.legible then some c else none := by
  obtain ⟨hg, hd, h⟩ := h
  rw [ofJson?_of_isRecord h, hg.ofJson?_eq, hd.ofJson?_eq]
  cases c.policy.legible <;> rfl

theorem Broken.ofJson?_eq (h : Broken j) : ofJson? j = none := by
  cases h with
  | config h => rw [ofJson?, h.fields?_eq]
  | grid h hg => rw [ofJson?_of_isRecord h, Grid.ofJson?_of_misses hg]; rfl
  | @turnPoint grid capacity share parallel h hs =>
    rw [ofJson?_of_isRecord h, StoragePolicy.ofJson?_of_misses hs]
    cases Grid.ofJson? grid <;> cases capacity.word? <;> rfl

end Config

/-- A configuration can be written unless its storage rule is the caller's. Every form of what is
written is read as that configuration, if its turn point is finite, and nothing is read when a field
is left out or repeated. -/
theorem config_read_back (c : Config) :
    ((∃ j, c.toJson? = some j) ↔ ∀ rule, c.policy ≠ .custom rule) ∧
      (∀ j, c.toJson? = some j → c.Written j) ∧
      (∀ j, c.Written j → Config.ofJson? j = if c.policy.legible then some c else none) ∧
      (∀ j, Config.Broken j → Config.ofJson? j = none) ∧
      ∀ t : Tile, t.Written t.toJson ∧ ∀ j, Tile.ofJson? j = some t ↔ t.Written j :=
  ⟨Config.exists_toJson?_iff, fun _ ↦ Config.written_of_toJson?, fun _ h ↦ h.ofJson?_eq,
    fun _ h ↦ h.ofJson?_eq, fun t ↦ ⟨t.written_toJson, fun _ ↦ Tile.ofJson?_eq_some_iff⟩⟩

/-- Members in another order and among others, with arrays for the records inside. -/
example : Config.ofJson? (.record [("parallel", .bool true), ("note", .null),
    ("density", .record [("TurnPoint", .arr [.num (.real ⟨0x3fe0000000000000⟩)])]),
    ("geometry", .arr [.word 9, .word 4, .word 3, .word 2]), ("capacity", .word 7)]) =
      some ⟨.ofSizes 9 4 3 2, 7, .turnPoint ⟨0x3fe0000000000000⟩, true⟩ := rfl

end TileBuffer
