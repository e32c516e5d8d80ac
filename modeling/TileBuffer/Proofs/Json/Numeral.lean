import Mathlib.Tactic
import TileBuffer.Json.Numeral
import TileBuffer.Proofs.Value

namespace TileBuffer

theorem takeWhile_dropWhile_append {p : Char → Bool} {cs rest : List Char}
    (hp : ∀ c ∈ cs, p c = true) (hr : ∀ c ∈ rest.head?, p c = false) :
    (cs ++ rest).takeWhile p = cs ∧ (cs ++ rest).dropWhile p = rest := by
  rw [List.takeWhile_append_of_pos hp, List.dropWhile_append_of_pos hp]
  cases rest with
  | nil => simp
  | cons c rest => simp [hr c rfl]

namespace Numeral

variable {n k : ℕ} {cs tail : List Char} {negative : Bool}

theorem isDigit_eq (c : Char) : isDigit c = c.isDigit := by
  rw [Bool.eq_iff_iff, Char.isDigit_iff_toNat, isDigit, Bool.and_eq_true, decide_eq_true_eq,
    decide_eq_true_eq]
  exact Iff.rfl

theorem isDigit_of_mem {c : Char} (h : c ∈ Nat.toDigits 10 n) : isDigit c = true := by
  rw [isDigit_eq]
  exact Nat.isDigit_of_mem_toDigits (by decide) (by decide) h

/-- The digits of a number, as they are read. -/
def decimal (n : ℕ) : List ℕ := (Nat.toDigits 10 n).map digitValue

theorem ofDigits_decimal (n : ℕ) : ofDigits (decimal n) = n := by
  rw [ofDigits, decimal, List.foldl_map]
  exact Nat.ofDigitChars_toDigits (by decide) (by decide)

theorem length_decimal_le_iff (hk : 0 < k) : (decimal n).length ≤ k ↔ n < 10 ^ k := by
  rw [decimal, List.length_map]
  exact Nat.length_toDigits_le_iff (by decide) hk

theorem decimal_ne_nil (n : ℕ) : decimal n ≠ [] := by
  rw [decimal, Ne, List.map_eq_nil_iff]
  exact Nat.toDigits_ne_nil

theorem lt_pow_length_decimal (n : ℕ) : n < 10 ^ (decimal n).length :=
  (length_decimal_le_iff (List.length_pos_of_ne_nil (decimal_ne_nil n))).mp le_rfl

theorem digitValue_digitChar (h : n < 10) : digitValue n.digitChar = n :=
  Nat.toNat_digitChar_sub_48_of_lt_ten h

theorem decimal_eq_cons (h : n ≠ 0) : ∃ d ds, decimal n = d :: ds ∧ d ≠ 0 := by
  induction n using Nat.strongRecOn with
  | _ n ih =>
    rw [decimal, Nat.toDigits_eq_if (by decide)]
    split
    next hlt => exact ⟨n, [], by rw [List.map_singleton, digitValue_digitChar hlt], h⟩
    next hge =>
      obtain ⟨d, ds, hds, hd⟩ := ih (n / 10) (by omega) (by omega)
      exact ⟨d, ds ++ [digitValue (n % 10).digitChar], by rw [List.map_append, ← decimal, hds]; rfl,
        hd⟩

theorem isWhole_decimal (n : ℕ) : isWhole (decimal n) = true := by
  by_cases h : n = 0
  · subst h
    rfl
  · obtain ⟨d, ds, hds, hd⟩ := decimal_eq_cons h
    rw [hds]
    cases ds with
    | nil => rfl
    | cons d' ds => exact bne_iff_ne.mpr hd

theorem dropWhile_decimal (h : n ≠ 0) : (decimal n).dropWhile (· == 0) = decimal n := by
  obtain ⟨d, ds, hds, hd⟩ := decimal_eq_cons h
  rw [hds, List.dropWhile_cons_of_neg (by simpa using hd)]

theorem digits_toDigits (h : ∀ c ∈ tail.head?, isDigit c = false) :
    digits (Nat.toDigits 10 n ++ tail) = (decimal n, tail) := by
  obtain ⟨ht, hr⟩ := takeWhile_dropWhile_append (fun c hc ↦ isDigit_of_mem (n := n) hc) h
  rw [digits, ht, hr, decimal]

theorem ofChars?_eq (negative : Bool) (n : ℕ) {exponent : Option ℤ}
    (hd : ∀ c ∈ tail.head?, isDigit c = false)
    (hp : ∀ c ∈ tail.head?, c ≠ '.') (he : exponent? tail = some exponent) :
    ofChars? ((if negative then ['-'] else []) ++ (Nat.toDigits 10 n ++ tail)) =
      some ⟨negative, decimal n, [], exponent⟩ := by
  have hf : fraction? tail = some ([], tail) := by
    match tail with
    | [] => rfl
    | c :: tail =>
      have hc := hp c rfl
      rw [fraction?]
      intro rest h
      cases h
      exact hc rfl
  cases negative with
  | true =>
    rw [if_pos rfl, List.singleton_append, ofChars?]
    simp [digits_toDigits hd, isWhole_decimal, hf, he]
  | false =>
    obtain ⟨c, cs, hcs⟩ := List.exists_cons_of_ne_nil (Nat.toDigits_ne_nil (n := n) (b := 10))
    have hc : isDigit c = true := isDigit_of_mem (hcs ▸ List.mem_cons_self)
    have hminus : c ≠ '-' := by rintro rfl; cases hc
    have hds := digits_toDigits (n := n) hd
    rw [hcs, List.cons_append] at hds
    rw [if_neg Bool.false_ne_true, List.nil_append, hcs, List.cons_append]
    simp [ofChars?, hminus, hds, isWhole_decimal, hf, he]

theorem eq_minus_or_isDigit {c : Char} {numeral : Numeral}
    (h : ofChars? (c :: cs) = some numeral) : c = '-' ∨ isDigit c = true := by
  by_contra hc
  rw [not_or] at hc
  have hd : digits (c :: cs) = ([], c :: cs) := by
    rw [digits, List.takeWhile_cons_of_neg hc.2, List.dropWhile_cons_of_neg hc.2, List.map_nil]
  simp [ofChars?, hc.1, hd, isWhole] at h

theorem exponent?_toDigits (k : ℕ) :
    exponent? ('e' :: '-' :: Nat.toDigits 10 k) = some (some (-(k : ℤ))) := by
  have h : digits (Nat.toDigits 10 k ++ []) = (decimal k, []) := digits_toDigits (by simp)
  rw [List.append_nil] at h
  obtain ⟨d, ds, hds⟩ := List.exists_cons_of_ne_nil (decimal_ne_nil k)
  have hk := ofDigits_decimal k
  rw [hds] at h hk
  simp [exponent?, sign, h, hk]

theorem lt_length_decimal_add {m e : ℕ} (hm : m ≤ 10 ^ e) (h : 10 ^ k ≤ n * m) :
    k < (decimal n).length + e := by
  have hlt : 10 ^ k < 10 ^ ((decimal n).length + e) := calc
    10 ^ k ≤ n * m := h
    _ < 10 ^ (decimal n).length * 10 ^ e :=
      Nat.mul_lt_mul_of_lt_of_le (lt_pow_length_decimal n) hm (Nat.pow_pos (by decide))
    _ = 10 ^ ((decimal n).length + e) := (pow_add _ _ _).symm
  exact (Nat.pow_lt_pow_iff_right (by decide)).mp hlt

/-- A number that is not too small, too large or too long is not rounded before the division. -/
theorem magnitude?_decimal (h : n ≠ 0) (hlow : 10 ^ k ≤ n * Value.unitsInOne)
    (hhigh : n < 10 ^ (309 + k)) (hlong : n < 10 ^ maxDigits) :
    magnitude? ⟨negative, decimal n, [], some (-(k : ℤ))⟩ = Value.nearest? n (10 ^ k) := by
  have hsig : significant ⟨negative, decimal n, [], some (-(k : ℤ))⟩ = (decimal n, -(k : ℤ)) := by
    rw [significant, trimEnd]
    simp [dropWhile_decimal h]
  have hlen : (decimal n).length ≤ maxDigits := (length_decimal_le_iff (by decide)).mpr hlong
  have hplace : (decimal n).length ≤ 309 + k := (length_decimal_le_iff (by omega)).mpr hhigh
  have hsmall : k < (decimal n).length + 324 :=
    lt_length_decimal_add (e := 324) (by decide +kernel) hlow
  have hempty : (decimal n).isEmpty = false := by
    rw [List.isEmpty_eq_false_iff]
    exact decimal_ne_nil n
  have hbounded : bounded (decimal n) (-(k : ℤ)) = (n, -(k : ℤ)) := by
    rw [bounded, if_pos hlen, ofDigits_decimal]
  rw [magnitude?, hsig]
  dsimp only
  rw [hempty, Bool.false_or, if_neg (by simp; omega), if_neg (by omega), hbounded]
  cases k with
  | zero => exact congrArg (fun m ↦ Value.nearest? m 1) (Nat.mul_one n)
  | succ k => rfl

end Numeral

namespace Value

/-- The magnitude is this whole number divided by `10 ^ v.scale`. -/
def decimal (v : Value) : ℕ := v.significand * 2 ^ (v.place - 1074) * 5 ^ (1074 - v.place)

def scale (v : Value) : ℕ := 1074 - v.place

theorem two_pow_sub_mul {u q : ℕ} (h : u = 2 ^ q) (p : ℕ) :
    2 ^ (p - q) * u = 2 ^ p * 2 ^ (q - p) := by
  rw [h, ← pow_add, ← pow_add]
  exact congrArg (2 ^ ·) (by omega)

theorem decimal_mul (v : Value) :
    v.decimal * unitsInOne = v.significand * 2 ^ v.place * 10 ^ v.scale := by
  have htwo : 2 ^ (v.place - 1074) * unitsInOne = 2 ^ v.place * 2 ^ v.scale :=
    two_pow_sub_mul (q := 1074) (by decide +kernel) v.place
  have hten : 10 ^ v.scale = 2 ^ v.scale * 5 ^ v.scale := (Nat.mul_pow 2 5 v.scale)
  rw [decimal, ← scale, hten, Nat.mul_right_comm, Nat.mul_assoc v.significand, htwo]
  ac_rfl

theorem decimal_ne_zero {v : Value} (h : v.significand ≠ 0) : v.decimal ≠ 0 :=
  Nat.mul_ne_zero (Nat.mul_ne_zero h (Nat.two_pow_pos _).ne') (Nat.pow_pos (by decide)).ne'

theorem le_decimal {v : Value} (h : v.significand ≠ 0) :
    10 ^ v.scale ≤ v.decimal * unitsInOne := by
  rw [decimal_mul]
  exact Nat.le_mul_of_pos_left _ (Nat.mul_pos (Nat.pos_of_ne_zero h) (Nat.two_pow_pos _))

section

variable {s p k q e : ℕ} (hs : s < 2 ^ 53)

include hs in
theorem mul_two_pow_lt (hp : p ≤ q) (h : 2 ^ 53 * 2 ^ q ≤ 10 ^ e) :
    s * 2 ^ p * 5 ^ k < 10 ^ (e + k) := calc
  s * 2 ^ p * 5 ^ k < 2 ^ 53 * 2 ^ q * 10 ^ k :=
    Nat.mul_lt_mul_of_lt_of_le
      (Nat.mul_lt_mul_of_lt_of_le hs (Nat.pow_le_pow_right Nat.two_pos hp) (Nat.two_pow_pos q))
      (Nat.pow_le_pow_left (by decide) k) (Nat.pow_pos (by decide))
  _ ≤ 10 ^ e * 10 ^ k := Nat.mul_le_mul_right _ h
  _ = 10 ^ (e + k) := (pow_add _ _ _).symm

include hs in
theorem mul_five_pow_lt (hk : k ≤ q) (h : 2 ^ 53 * 5 ^ q ≤ 10 ^ e) : s * 5 ^ k < 10 ^ e := calc
  s * 5 ^ k < 2 ^ 53 * 5 ^ q :=
    Nat.mul_lt_mul_of_lt_of_le hs (Nat.pow_le_pow_right (by decide) hk) (Nat.pow_pos (by decide))
  _ ≤ 10 ^ e := h

end

theorem decimal_lt {v : Value} (h : v.isFinite = true) : v.decimal < 10 ^ (309 + v.scale) := by
  have hp : v.place - 1074 ≤ 971 := by
    have := place_le h
    omega
  exact mul_two_pow_lt (q := 971) (e := 309) v.significand_lt hp (by decide +kernel)

theorem decimal_lt_maxDigits {v : Value} (h : v.isFinite = true) :
    v.decimal < 10 ^ Numeral.maxDigits := by
  rcases le_total v.place 1074 with hp | hp
  · rw [decimal, Nat.sub_eq_zero_of_le hp, pow_zero, Nat.mul_one]
    exact mul_five_pow_lt (q := 1074) (e := Numeral.maxDigits) v.significand_lt (Nat.sub_le _ _)
      (by decide +kernel)
  · refine (decimal_lt h).trans_le (Nat.pow_le_pow_right (by decide) ?_)
    rw [scale, Nat.sub_eq_zero_of_le hp]
    decide

end Value

namespace Number

/-- The characters are a numeral that stands for the number. -/
def Spells (cs : List Char) (n : Number) : Prop :=
  ∃ numeral, Numeral.ofChars? cs = some numeral ∧ numeral.toNumber = n

/-- A number with all its digits. -/
def digits : Number → List Char
  | .whole n => Nat.toDigits 10 n.toNat
  | .real v =>
    (if v.isNegative then ['-'] else []) ++
      (Nat.toDigits 10 v.decimal ++ 'e' :: '-' :: Nat.toDigits 10 v.scale)
  | .beyond => ['1', 'e', '3', '0', '9']

def IsFinite : Number → Prop
  | .real v => v.isFinite = true
  | _ => True

theorem magnitude?_digits {v : Value} (h : v.isFinite = true) :
    Numeral.magnitude? ⟨v.isNegative, Numeral.decimal v.decimal, [], some (-(v.scale : ℤ))⟩ =
      some ⟨v.magnitude⟩ := by
  have hmag : (⟨UInt64.ofNat (v.place * 2 ^ 52 + v.significand)⟩ : Value) = ⟨v.magnitude⟩ := by
    rw [Value.place_add_significand, UInt64.ofNat_toNat]
  by_cases hs : v.significand = 0
  · have hp : v.place = 0 := v.place_eq_zero_or.resolve_right (by omega)
    have hd : v.decimal = 0 := by rw [Value.decimal, hs, Nat.zero_mul, Nat.zero_mul]
    rw [hd, ← hmag, hs, hp]
    rfl
  · rw [Numeral.magnitude?_decimal (Value.decimal_ne_zero hs) (Value.le_decimal hs)
      (Value.decimal_lt h) (Value.decimal_lt_maxDigits h), ← hmag]
    refine Value.nearest?_eq (Nat.pow_pos (by decide)) v.decimal_mul v.significand_lt
      v.place_eq_zero_or ?_
    rw [Value.place_add_significand]
    exact Value.isFinite_iff.mp h

theorem spells_digits {n : Number} (h : n.IsFinite) : Spells n.digits n := by
  cases n with
  | whole n =>
    refine ⟨⟨false, Numeral.decimal n.toNat, [], none⟩, ?_, ?_⟩
    · have he : Numeral.exponent? [] = some none := rfl
      have h := Numeral.ofChars?_eq false n.toNat (by simp) (by simp) he
      rwa [List.append_nil] at h
    · have hlen : (Numeral.decimal n.toNat).length ≤ 20 :=
        (Numeral.length_decimal_le_iff (by decide)).mpr (n.toNat_lt.trans (by decide))
      have hlt : n.toNat < UInt64.size := n.toNat_lt
      rw [Numeral.toNumber, Numeral.isWord]
      simp [Numeral.ofDigits_decimal, hlen, hlt]
  | real v =>
    refine ⟨⟨v.isNegative, Numeral.decimal v.decimal, [], some (-(v.scale : ℤ))⟩,
      Numeral.ofChars?_eq _ _ (by simp; decide) (by simp) (Numeral.exponent?_toDigits _), ?_⟩
    have hv := v.eq_of_magnitude
    rw [Numeral.toNumber, magnitude?_digits h]
    simp [Numeral.isWord, hv]
  | beyond => exact ⟨⟨false, [1], [], some 309⟩, by decide, by decide⟩

/-- A spelling that leaves most of the digits out. -/
example : Spells ['0', '.', '4'] (.real ⟨0x3fd999999999999a⟩) :=
  ⟨⟨false, [0], [4], none⟩, by decide, by decide +kernel⟩

end Number

end TileBuffer
