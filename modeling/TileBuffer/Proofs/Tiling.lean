import Mathlib.Tactic
import TileBuffer.Config
import TileBuffer.Emission

namespace TileBuffer

namespace Axis

variable {a : Axis} {ix t : UInt64} {i : ℕ}

def HasTile (a : Axis) (t : UInt64) : Prop :=
  1 ≤ t.toNat ∧ (t.toNat - 1) * a.tileLength.toNat < a.length.toNat

theorem contains_iff : a.contains ix = true ↔ 1 ≤ ix.toNat ∧ ix.toNat ≤ a.length.toNat := by
  simp [contains, UInt64.le_iff_toNat_le]

theorem toNat_pred (h : 1 ≤ ix.toNat) : (ix - 1).toNat = ix.toNat - 1 :=
  UInt64.toNat_sub_of_le ix 1 (UInt64.le_iff_toNat_le.mpr (by simpa using h))

theorem localOf_eq (h : 1 ≤ ix.toNat) : a.localOf ix = (ix.toNat - 1) % a.tileLength.toNat := by
  rw [localOf, UInt64.toNat_mod, toNat_pred h]

theorem toNat_tileOf (h : 1 ≤ ix.toNat) :
    (a.tileOf ix).toNat = (ix.toNat - 1) / a.tileLength.toNat + 1 := by
  have hlt := ix.toNat_lt
  have hle := Nat.div_le_self (ix.toNat - 1) a.tileLength.toNat
  rw [tileOf, UInt64.toNat_add, UInt64.toNat_div, toNat_pred h]
  exact Nat.mod_eq_of_lt (by simp only [UInt64.reduceToNat]; omega)

theorem toNat_before_tileOf (h : 1 ≤ ix.toNat) : (a.before (a.tileOf ix)).toNat =
    (ix.toNat - 1) / a.tileLength.toNat * a.tileLength.toNat := by
  have hlt := ix.toNat_lt
  have hle := Nat.div_mul_le_self (ix.toNat - 1) a.tileLength.toNat
  have ht := toNat_tileOf (a := a) h
  rw [before, UInt64.toNat_mul, toNat_pred (by rw [ht]; exact Nat.le_add_left 1 _), ht,
    Nat.add_sub_cancel]
  exact Nat.mod_eq_of_lt (by omega)

theorem HasTile.toNat_before (h : a.HasTile t) :
    (a.before t).toNat = (t.toNat - 1) * a.tileLength.toNat := by
  have hlt := a.length.toNat_lt
  rw [before, UInt64.toNat_mul, toNat_pred h.1]
  exact Nat.mod_eq_of_lt (h.2.trans hlt)

theorem HasTile.extent_eq (h : a.HasTile t) : a.extent t =
    min a.tileLength.toNat (a.length.toNat - (t.toNat - 1) * a.tileLength.toNat) := by
  rw [extent, h.toNat_before]

theorem HasTile.toNat_globalOf (h : a.HasTile t) (hi : i < a.extent t) :
    (a.globalOf t i).toNat = (t.toNat - 1) * a.tileLength.toNat + i + 1 := by
  have hlt := a.length.toNat_lt
  rw [h.extent_eq] at hi
  have hi' : (UInt64.ofNat i).toNat = i := by
    apply UInt64.toNat_ofNat_of_lt'
    simp only [UInt64.size]
    omega
  simp only [globalOf, UInt64.toNat_add, h.toNat_before, hi', UInt64.reduceToNat]
  omega

theorem HasTile.contains_globalOf (h : a.HasTile t) (hi : i < a.extent t) :
    a.contains (a.globalOf t i) = true := by
  rw [contains_iff, h.toNat_globalOf hi]
  rw [h.extent_eq] at hi
  omega

theorem HasTile.tileOf_globalOf (h : a.HasTile t) (hi : i < a.extent t) :
    a.tileOf (a.globalOf t i) = t := by
  have hi' : i < a.tileLength.toNat := hi.trans_le (h.extent_eq ▸ Nat.min_le_left _ _)
  rw [← UInt64.toNat_inj, toNat_tileOf (by rw [h.toNat_globalOf hi]; omega), h.toNat_globalOf hi,
    Nat.add_sub_cancel, Nat.add_comm _ i, Nat.add_mul_div_right _ _ (Nat.zero_lt_of_lt hi'),
    Nat.div_eq_of_lt hi']
  have h1 := h.1
  omega

theorem HasTile.localOf_globalOf (h : a.HasTile t) (hi : i < a.extent t) :
    a.localOf (a.globalOf t i) = i := by
  have hi' : i < a.tileLength.toNat := hi.trans_le (h.extent_eq ▸ Nat.min_le_left _ _)
  rw [localOf_eq (by rw [h.toNat_globalOf hi]; omega), h.toNat_globalOf hi, Nat.add_sub_cancel,
    Nat.add_comm _ i, Nat.add_mul_mod_self_right, Nat.mod_eq_of_lt hi']

theorem hasTile_tileOf (hc : a.contains ix = true) : a.HasTile (a.tileOf ix) := by
  rw [contains_iff] at hc
  have h := Nat.div_mul_le_self (ix.toNat - 1) a.tileLength.toNat
  rw [HasTile, toNat_tileOf hc.1, Nat.add_sub_cancel]
  exact ⟨Nat.le_add_left 1 _, by omega⟩

theorem bounds_of_containsRange {first : UInt64} {count : ℕ}
    (h : a.containsRange first count = true) :
    1 ≤ first.toNat ∧ ∀ i < count, (first + UInt64.ofNat i).toNat = first.toNat + i ∧
      first.toNat + i ≤ a.length.toNat := by
  have hsize : UInt64.size = 2 ^ 64 := rfl
  rw [containsRange, lastIndex?] at h
  split at h
  next last hl =>
    split at hl
    next hlt =>
      cases hl
      rw [Bool.and_eq_true, contains_iff, contains_iff] at h
      obtain ⟨hfirst, hlast⟩ := h
      have hadd (k : ℕ) (hk : k ≤ count - 1) :
          (first + UInt64.ofNat k).toNat = first.toNat + k := by
        rw [UInt64.toNat_add, UInt64.toNat_ofNat_of_lt' (by omega)]
        exact Nat.mod_eq_of_lt (by omega)
      rw [hadd _ le_rfl] at hlast
      refine ⟨hfirst.1, fun i hi ↦ ⟨hadd i (by omega), ?_⟩⟩
      omega
    next => cases hl
  next => cases h

theorem contains_add {first : UInt64} {count : ℕ} (h : a.containsRange first count = true)
    (hi : i < count) : a.contains (first + UInt64.ofNat i) = true := by
  obtain ⟨hfirst, hadd⟩ := bounds_of_containsRange h
  obtain ⟨hi, hle⟩ := hadd i hi
  rw [contains_iff, hi]
  omega

theorem add_inj {first : UInt64} {count j : ℕ} (h : a.containsRange first count = true)
    (hi : i < count) (hj : j < count) :
    first + UInt64.ofNat i = first + UInt64.ofNat j ↔ i = j := by
  obtain ⟨-, hadd⟩ := bounds_of_containsRange h
  rw [← UInt64.toNat_inj, (hadd i hi).1, (hadd j hj).1]
  omega

variable (hl : 0 < a.tileLength.toNat)
include hl

theorem HasTile.extent_pos (h : a.HasTile t) : 0 < a.extent t := by
  have hlt := h.2
  rw [h.extent_eq]
  omega

/-- An index falls inside its tile exactly when it lies on the axis: the tile is cut off there. -/
theorem localOf_lt_extent_iff (h : 1 ≤ ix.toNat) :
    a.localOf ix < a.extent (a.tileOf ix) ↔ a.contains ix = true := by
  have hd := Nat.div_add_mod' (ix.toNat - 1) a.tileLength.toNat
  have hm := Nat.mod_lt (ix.toNat - 1) hl
  rw [extent, toNat_before_tileOf h, localOf_eq h, contains_iff]
  omega

variable (hc : a.contains ix = true)
include hc

theorem localOf_lt_extent : a.localOf ix < a.extent (a.tileOf ix) :=
  (localOf_lt_extent_iff hl (contains_iff.mp hc).1).mpr hc

theorem globalOf_tileOf : a.globalOf (a.tileOf ix) (a.localOf ix) = ix := by
  rw [← UInt64.toNat_inj, (hasTile_tileOf hc).toNat_globalOf (localOf_lt_extent hl hc)]
  rw [contains_iff] at hc
  have hd := Nat.div_add_mod' (ix.toNat - 1) a.tileLength.toNat
  rw [localOf_eq hc.1, toNat_tileOf hc.1, Nat.add_sub_cancel]
  omega

end Axis

namespace Grid

variable {g : Grid} {t : Tile} {i j : ℕ}

def HasTile (g : Grid) (t : Tile) : Prop := g.rows.HasTile t.row ∧ g.cols.HasTile t.col

structure Sound (g : Grid) : Prop where
  tileRows : 0 < g.rows.tileLength.toNat
  tileCols : 0 < g.cols.tileLength.toNat
  rows : 0 < g.rows.length.toNat
  cols : 0 < g.cols.length.toNat

theorem check_eq_ok_iff : g.check = .ok () ↔ g.Sound := by
  have hp (n : UInt64) : 0 < n.toNat ↔ n ≠ 0 := by
    rw [Nat.pos_iff_ne_zero, Ne, Ne, ← UInt64.toNat_inj]
    rfl
  constructor
  · intro h
    rw [check] at h
    split at h
    next => cases h
    next ht =>
      split at h
      next => cases h
      next hm =>
        rw [not_or] at ht hm
        exact ⟨(hp _).mpr ht.1, (hp _).mpr ht.2, (hp _).mpr hm.1, (hp _).mpr hm.2⟩
  · rintro ⟨h₁, h₂, h₃, h₄⟩
    rw [hp] at h₁ h₂ h₃ h₄
    simp [check, h₁, h₂, h₃, h₄]

theorem checkTiles_eq (hrows : 0 < g.rows.tileLength.toNat) (hcols : 0 < g.cols.tileLength.toNat) :
    g.checkTiles = .ok () := by
  have hr : g.rows.tileLength ≠ 0 := fun hz ↦ by simp [hz] at hrows
  have hc : g.cols.tileLength ≠ 0 := fun hz ↦ by simp [hz] at hcols
  simp [checkTiles, hr, hc]

theorem Sound.checkTiles_eq (h : g.Sound) : g.checkTiles = .ok () :=
  Grid.checkTiles_eq h.tileRows h.tileCols

theorem contains_iff {row col : UInt64} :
    g.contains row col = true ↔ g.rows.contains row = true ∧ g.cols.contains col = true := by
  simp [contains]

theorem containsRange_of_checkRegion {row col : UInt64} {height width : ℕ}
    (h : g.checkRegion row col height width = .ok ()) (hi : i < height) (hj : j < width) :
    g.rows.containsRange row height = true ∧ g.cols.containsRange col width = true := by
  rw [checkRegion, if_neg (by omega)] at h
  split at h
  next hr => exact Bool.and_eq_true_iff.mp hr
  next => cases h

theorem HasTile.globalOf_inj {i' j' : ℕ} (h : g.HasTile t)
    (hi : i < (g.extent t).1) (hj : j < (g.extent t).2)
    (hi' : i' < (g.extent t).1) (hj' : j' < (g.extent t).2) :
    g.globalOf t i j = g.globalOf t i' j' ↔ i = i' ∧ j = j' := by
  constructor
  · intro he
    rw [globalOf, globalOf, Prod.mk.injEq] at he
    have hr := congrArg g.rows.localOf he.1
    have hc := congrArg g.cols.localOf he.2
    rw [h.1.localOf_globalOf hi, h.1.localOf_globalOf hi'] at hr
    rw [h.2.localOf_globalOf hj, h.2.localOf_globalOf hj'] at hc
    exact ⟨hr, hc⟩
  · rintro ⟨rfl, rfl⟩
    rfl

end Grid

namespace Cell

variable {g : Grid} {c : Cell}

def Inside (g : Grid) (c : Cell) : Prop := g.contains c.row c.col = true

instance (g : Grid) (c : Cell) : Decidable (c.Inside g) :=
  inferInstanceAs (Decidable (g.contains c.row c.col = true))

theorem Inside.hasTile (h : c.Inside g) : g.HasTile (c.tile g) :=
  have hc := Grid.contains_iff.mp h
  ⟨Axis.hasTile_tileOf hc.1, Axis.hasTile_tileOf hc.2⟩

theorem Inside.place_lt (hg : g.Sound) (h : c.Inside g) :
    (c.place g).1 < (g.extent (c.tile g)).1 ∧ (c.place g).2 < (g.extent (c.tile g)).2 :=
  have hc := Grid.contains_iff.mp h
  ⟨Axis.localOf_lt_extent hg.tileRows hc.1, Axis.localOf_lt_extent hg.tileCols hc.2⟩

theorem Inside.globalOf_place (hg : g.Sound) (h : c.Inside g) :
    g.globalOf (c.tile g) (c.place g).1 (c.place g).2 = (c.row, c.col) :=
  have hc := Grid.contains_iff.mp h
  Prod.ext (Axis.globalOf_tileOf hg.tileRows hc.1) (Axis.globalOf_tileOf hg.tileCols hc.2)

theorem tile_eq_of_globalOf {t : Tile} {i j : ℕ} (h : g.HasTile t)
    (hi : i < (g.extent t).1) (hj : j < (g.extent t).2)
    (he : g.globalOf t i j = (c.row, c.col)) : c.tile g = t := by
  rw [Grid.globalOf, Prod.mk.injEq] at he
  rw [tile, Grid.tileOf, ← he.1, ← he.2, h.1.tileOf_globalOf hi, h.2.tileOf_globalOf hj]

end Cell

end TileBuffer
