import TileBuffer.Proofs.Tiling

namespace TileBuffer

namespace Axis

variable {a : Axis} {first : UInt64} {count : ℕ}

theorem toNat_add_ofNat {k : ℕ} (h : first.toNat + k ≤ a.length.toNat) :
    (first + UInt64.ofNat k).toNat = first.toNat + k := by
  have hlt := a.length.toNat_lt
  have hsize : UInt64.size = 2 ^ 64 := rfl
  rw [UInt64.toNat_add, UInt64.toNat_ofNat_of_lt' (by omega)]
  exact Nat.mod_eq_of_lt (by omega)

theorem containsRange_iff (hc : 0 < count) : a.containsRange first count = true ↔
    1 ≤ first.toNat ∧ first.toNat + (count - 1) ≤ a.length.toNat := by
  constructor
  · intro h
    obtain ⟨hfirst, hadd⟩ := bounds_of_containsRange h
    exact ⟨hfirst, (hadd (count - 1) (Nat.sub_lt hc Nat.one_pos)).2⟩
  · rintro ⟨hfirst, hlast⟩
    have hlt := a.length.toNat_lt
    have hsize : UInt64.size = 2 ^ 64 := rfl
    have hword := toNat_add_ofNat hlast
    rw [containsRange, lastIndex?, if_pos (by omega)]
    simp only [Bool.and_eq_true, contains_iff, hword]
    omega

end Axis

namespace Grid

variable {g : Grid} {row col : UInt64} {height width : ℕ}

/-- Every position of the region is a cell of the matrix. -/
def Fits (g : Grid) (row col : UInt64) (height width : ℕ) : Prop :=
  ∀ i < height, ∀ j < width,
    (1 ≤ row.toNat + i ∧ row.toNat + i ≤ g.rows.length.toNat) ∧
      (1 ≤ col.toNat + j ∧ col.toNat + j ≤ g.cols.length.toNat)

theorem checkRegion_eq_ok_iff :
    g.checkRegion row col height width = .ok () ↔ g.Fits row col height width := by
  rw [checkRegion, Fits]
  by_cases hempty : height = 0 ∨ width = 0
  · rw [if_pos hempty]
    exact ⟨fun _ i hi j hj ↦ by omega, fun _ ↦ rfl⟩
  · have hh : 0 < height := by omega
    have hw : 0 < width := by omega
    rw [if_neg hempty, ite_eq_left_iff]
    simp only [Bool.and_eq_true, Axis.containsRange_iff hh, Axis.containsRange_iff hw,
      reduceCtorEq, imp_false, not_not]
    constructor
    · intro h i hi j hj
      omega
    · intro h
      have hfirst := h 0 hh 0 hw
      have hlast := h (height - 1) (by omega) (width - 1) (by omega)
      omega

theorem checkRegion_of_not_fits (h : ¬g.Fits row col height width) :
    g.checkRegion row col height width =
      .error (.regionOutside row col height width g.rows.length g.cols.length) := by
  rw [← checkRegion_eq_ok_iff, checkRegion] at h
  rw [checkRegion]
  split_ifs at h ⊢
  · exact absurd rfl h
  · exact absurd rfl h
  · rfl

section Below

variable {above : ℕ}

theorem Fits.upper (h : g.Fits row col (above + height) width) : g.Fits row col above width :=
  fun i hi j hj ↦ h i (Nat.lt_add_right height hi) j hj

theorem Fits.toNat_below (h : g.Fits row col (above + height) width) (hh : 0 < height)
    (hw : 0 < width) : (row + UInt64.ofNat above).toNat = row.toNat + above :=
  Axis.toNat_add_ofNat (h above (Nat.lt_add_of_pos_right hh) 0 hw).1.2

theorem Fits.lower (h : g.Fits row col (above + height) width) :
    g.Fits (row + UInt64.ofNat above) col height width := by
  intro i hi j hj
  have hcell := h (above + i) (by omega) j hj
  have hrow := h.toNat_below (Nat.zero_lt_of_lt hi) (Nat.zero_lt_of_lt hj)
  omega

end Below

end Grid

end TileBuffer
