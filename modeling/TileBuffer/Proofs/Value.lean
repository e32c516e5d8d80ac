import Mathlib.Tactic
import TileBuffer.Value

namespace TileBuffer

theorem roundDiv_mul {q d : ℕ} (h : 0 < d) : roundDiv (q * d) d = q := by
  rw [roundDiv, Nat.mul_mod_left, Nat.mul_div_cancel q h]
  exact if_pos (.inl (by omega))

namespace Value

/-- `significand * 2 ^ place` units make the magnitude. -/
def place (v : Value) : ℕ := v.magnitude.toNat / 2 ^ 52 - 1

def significand (v : Value) : ℕ := v.magnitude.toNat - v.place * 2 ^ 52

def isNegative (v : Value) : Bool := v.bits.toNat.testBit 63

theorem toNat_magnitude (v : Value) : v.magnitude.toNat = v.bits.toNat &&& (2 ^ 63 - 1) :=
  UInt64.toNat_and _ _

theorem place_add_significand (v : Value) :
    v.place * 2 ^ 52 + v.significand = v.magnitude.toNat := by
  rw [significand, place]
  omega

theorem significand_lt (v : Value) : v.significand < 2 ^ 53 := by
  rw [significand, place]
  omega

theorem place_eq_zero_or (v : Value) : v.place = 0 ∨ 2 ^ 52 ≤ v.significand := by
  rw [significand, place]
  omega

theorem isFinite_iff {v : Value} : v.isFinite = true ↔ v.magnitude.toNat < infinityBits := by
  rw [isFinite, decide_eq_true_eq, UInt64.lt_iff_toNat_lt]
  exact Iff.rfl

theorem place_le {v : Value} (h : v.isFinite = true) : v.place ≤ 2045 := by
  rw [isFinite_iff, infinityBits] at h
  rw [place]
  omega

theorem eq_of_magnitude (v : Value) :
    (if v.isNegative then negate ⟨v.magnitude⟩ else ⟨v.magnitude⟩) = v := by
  have hlt := v.bits.toNat_lt
  have hbit (i : ℕ) (hi : 63 < i) : v.bits.toNat.testBit i = false :=
    Nat.testBit_lt_two_pow (hlt.trans_le (Nat.pow_le_pow_right Nat.two_pos hi))
  have hmag (i : ℕ) : v.magnitude.toNat.testBit i = (v.bits.toNat.testBit i && decide (i < 63)) := by
    rw [toNat_magnitude, Nat.testBit_and, Nat.testBit_two_pow_sub_one]
  have hcase (bits : UInt64) (h : ∀ i, bits.toNat.testBit i = v.bits.toNat.testBit i) :
      (⟨bits⟩ : Value) = v :=
    congrArg Value.mk (UInt64.toNat_inj.mp (Nat.eq_of_testBit_eq h))
  split
  next h =>
    refine hcase _ fun i ↦ ?_
    have hxor : (v.magnitude ^^^ 0x8000000000000000).toNat = v.magnitude.toNat ^^^ 2 ^ 63 :=
      UInt64.toNat_xor _ _
    rw [hxor, Nat.testBit_xor, hmag, Nat.testBit_two_pow]
    rcases lt_trichotomy i 63 with hi | rfl | hi
    · simp [hi, hi.ne']
    · simpa [isNegative] using h.symm
    · simp [hbit i hi, hi.ne]
  next h =>
    refine hcase _ fun i ↦ ?_
    rw [hmag]
    rcases lt_trichotomy i 63 with hi | rfl | hi
    · simp [hi]
    · simpa [isNegative] using h
    · simp [hbit i hi]

theorem log2_sub {s p : ℕ} (hs : s < 2 ^ 53) (hp : p = 0 ∨ 2 ^ 52 ≤ s) :
    (s * 2 ^ p).log2 - 52 = p := by
  rcases hp with rfl | hp
  · rw [pow_zero, mul_one, Nat.sub_eq_zero_iff_le]
    rcases Nat.eq_zero_or_pos s with rfl | hpos
    · exact Nat.zero_le _
    · exact Nat.le_of_lt_succ ((Nat.log2_lt hpos.ne').mpr hs)
  · have hpos : s * 2 ^ p ≠ 0 := Nat.mul_ne_zero (by omega) (Nat.pow_pos Nat.two_pos).ne'
    have hlog : (s * 2 ^ p).log2 = p + 52 := by
      rw [Nat.log2_eq_iff hpos, Nat.add_comm p, Nat.add_right_comm, pow_add, pow_add]
      exact ⟨Nat.mul_le_mul_right _ hp, Nat.mul_lt_mul_of_pos_right hs (Nat.pow_pos Nat.two_pos)⟩
    omega

/-- A number that is a value has that value as the nearest. -/
theorem nearest?_eq {a d s p : ℕ} (hd : 0 < d) (ha : a * unitsInOne = s * 2 ^ p * d)
    (hs : s < 2 ^ 53) (hp : p = 0 ∨ 2 ^ 52 ≤ s) (hfin : p * 2 ^ 52 + s < infinityBits) :
    nearest? a d = some ⟨UInt64.ofNat (p * 2 ^ 52 + s)⟩ := by
  have hround : roundDiv (s * 2 ^ p * d) (d * Nat.pow 2 p) = s := by
    rw [Nat.mul_assoc, Nat.mul_comm (2 ^ p) d]
    exact roundDiv_mul (Nat.mul_pos hd (Nat.pow_pos Nat.two_pos))
  have hplace : ((s * 2 ^ p * d) / d).log2 - 52 = p := by
    rw [Nat.mul_div_cancel _ hd, log2_sub hs hp]
  rw [nearest?, ha, hplace, hround]
  exact if_pos hfin

end Value

end TileBuffer
