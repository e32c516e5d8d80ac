import Mathlib.Tactic
import TileBuffer.Json.Token
import TileBuffer.Proofs.Json.Numeral

namespace TileBuffer

namespace Token

variable {c d : Char} {cs rest s : List Char} {pieces : List Piece} {tokens : List Token}

def letter? : Char → Option Char
  | '"' => some '"'
  | '\\' => some '\\'
  | '\x08' => some 'b'
  | '\x0c' => some 'f'
  | '\n' => some 'n'
  | '\r' => some 'r'
  | '\t' => some 't'
  | _ => none

def escape (c : Char) : List Char :=
  match letter? c with
  | some d => ['\\', d]
  | none =>
    if c < ' ' then ['\\', 'u', '0', '0', (c.toNat / 16).digitChar, (c.toNat % 16).digitChar]
    else [c]

def piece (c : Char) : Piece :=
  match letter? c with
  | some _ => .char c
  | none => if c < ' ' then .unit c.toNat else .char c

theorem escaped?_letter (h : letter? c = some d) : escaped? d = some c ∧ d ≠ 'u' := by
  unfold letter? at h
  split at h <;> cases h <;> decide

theorem not_special (h : letter? c = none) : c ≠ '"' ∧ c ≠ '\\' := by
  constructor <;> rintro rfl <;> cases h

theorem hexDigit?_digitChar : ∀ n < 16, hexDigit? n.digitChar = some n := by decide

theorem hexUnit?_eq {n : ℕ} (h : n < 256) :
    hexUnit? '0' '0' (n / 16).digitChar (n % 16).digitChar = some n := by
  have hzero : hexDigit? '0' = some 0 := by decide
  rw [hexUnit?, hzero, hexDigit?_digitChar _ (by omega), hexDigit?_digitChar _ (by omega)]
  exact congrArg some (by omega)

theorem toNat_lt_of_lt (h : c < ' ') : c.toNat < 32 := h

theorem quoted?_escape : quoted? pieces (escape c ++ cs) = quoted? (piece c :: pieces) cs := by
  rw [escape, piece]
  cases hl : letter? c with
  | some d =>
    obtain ⟨hd, hu⟩ := escaped?_letter hl
    simp only [List.cons_append, List.nil_append]
    rw [quoted?]
    · rw [hd]
    · exact fun _ _ _ _ _ h ↦ absurd h hu
  | none =>
    obtain ⟨hq, hb⟩ := not_special hl
    by_cases hc : c < ' '
    · simp only [if_pos hc, List.cons_append, List.nil_append, quoted?]
      rw [hexUnit?_eq (by have := toNat_lt_of_lt hc; omega)]
    · simp only [if_neg hc, List.cons_append, List.nil_append]
      rw [quoted?]
      all_goals simp_all

/-- A quoted text is read as its pieces, up to the quote that ends it. -/
theorem quoted?_escapes (pieces : List Piece) (s rest : List Char) :
    quoted? pieces (s.flatMap escape ++ '"' :: rest) = some (pieces.reverse ++ s.map piece, rest) := by
  induction s generalizing pieces with
  | nil => rw [List.flatMap_nil, List.nil_append, quoted?, List.map_nil, List.append_nil]
  | cons c s ih =>
    rw [List.flatMap_cons, List.append_assoc, quoted?_escape, ih]
    simp

theorem textOf_unit {n : ℕ} (h : n < 0xd800) :
    textOf (.unit n :: pieces) = (textOf pieces).map (Char.ofNat n :: ·) := by
  have hlow : decide (0xd800 ≤ n) = false := decide_eq_false (Nat.not_le.mpr h)
  match pieces with
  | [] => simp [textOf, hlow]
  | .char c :: pieces => simp [textOf, hlow]
  | .unit low :: pieces => simp [textOf, hlow]

theorem textOf_pieces (s : List Char) : textOf (s.map piece) = some s := by
  induction s with
  | nil => rfl
  | cons c s ih =>
    rw [List.map_cons, piece]
    split
    next => rw [textOf, ih]; rfl
    next =>
      split
      next hc =>
        have := toNat_lt_of_lt hc
        rw [textOf_unit (by omega), ih, Char.ofNat_toNat]
        rfl
      next => rw [textOf, ih]; rfl

theorem isBlank_of_mark {token : Token} (h : mark? c = some token) : isBlank c = false := by
  unfold mark? at h
  split at h <;> cases h <;> decide

theorem scan_mark {token : Token} (h : mark? c = some token) :
    scan tokens (c :: rest) = scan (token :: tokens) rest := by
  rw [scan, if_neg (by rw [isBlank_of_mark h]; exact Bool.false_ne_true), h]

/-- What was read before does not matter. -/
theorem scan_eq (tokens : List Token) (cs : List Char) :
    scan tokens cs = (scan [] cs).map (tokens.reverse ++ ·) := by
  have hstep (t : Token) (rest : List Char) (h : rest.length < cs.length) :
      scan (t :: tokens) rest = (scan [t] rest).map (tokens.reverse ++ ·) := by
    rw [scan_eq (t :: tokens) rest, scan_eq [t] rest]
    cases scan [] rest <;> simp
  cases cs with
  | nil => rw [scan, scan]; simp
  | cons c cs =>
    rw [scan, scan]
    split
    · exact scan_eq tokens cs
    split
    · exact hstep _ _ (Nat.lt_succ_self _)
    split
    · split
      next h => exact hstep _ _ (Nat.lt_succ_of_le (quoted?_length_le h))
      next => rfl
    split
    · split
      · exact hstep _ _ (Nat.lt_succ_of_le (List.dropWhile_suffix _).length_le)
      · rfl
    · split
      · exact hstep _ _ (Nat.lt_succ_of_le (List.dropWhile_suffix _).length_le)
      · rfl
termination_by cs.length

/-- Whether a word or a number ends before this text. -/
def Ends (rest : List Char) : Prop := ∀ c ∈ rest.head?, isLetter c = false ∧ isNumeric c = false

theorem scan_plain (h : isLetter c = true ∨ isNumeric c = true) : scan tokens (c :: cs) =
    if isLetter c then
      (word? (c :: cs.takeWhile isLetter)).bind fun value ↦
        scan (.scalar value :: tokens) (cs.dropWhile isLetter)
    else
      (Numeral.ofChars? (c :: cs.takeWhile isNumeric)).bind fun numeral ↦
        scan (.scalar (.num numeral.toNumber) :: tokens) (cs.dropWhile isNumeric) := by
  have hblank : ¬isBlank c = true := by
    simp only [isBlank, Bool.or_eq_true, decide_eq_true_eq]
    rintro (((rfl | rfl) | rfl) | rfl) <;> revert h <;> decide
  have hmark : mark? c = none := by
    unfold mark?
    split
    all_goals first | rfl | (revert h; decide)
  have hquote : c ≠ '"' := by
    rintro rfl
    revert h
    decide
  rw [scan, if_neg hblank, hmark]
  dsimp only
  rw [if_neg hquote]
  congr 1
  · cases word? (c :: cs.takeWhile isLetter) <;> rfl
  · cases Numeral.ofChars? (c :: cs.takeWhile isNumeric) <;> rfl

theorem scan_word {value : Json} (hw : word? (c :: cs) = some value)
    (hcs : (c :: cs).all isLetter = true) (hr : Ends rest) :
    scan tokens (c :: cs ++ rest) = scan (.scalar value :: tokens) rest := by
  rw [List.all_eq_true] at hcs
  obtain ⟨ht, hd⟩ := takeWhile_dropWhile_append (fun d hd ↦ hcs d (List.mem_cons_of_mem c hd))
    fun d hd ↦ (hr d hd).1
  have hc := hcs c List.mem_cons_self
  rw [List.cons_append, scan_plain (.inl hc), if_pos hc, ht, hd, hw]
  rfl

theorem not_letter_of_isDigit (h : Numeral.isDigit c = true) : ¬isLetter c = true := by
  rw [Numeral.isDigit, Bool.and_eq_true, decide_eq_true_eq, decide_eq_true_eq] at h
  rw [isLetter, Bool.and_eq_true, decide_eq_true_eq, decide_eq_true_eq]
  exact fun hl ↦ absurd (Char.le_trans hl.1 h.2) (by decide)

theorem isNumeric_of_mem_digits {n : Number} (h : c ∈ n.digits) : isNumeric c = true := by
  have hd {n : ℕ} (h : c ∈ Nat.toDigits 10 n) : isNumeric c = true := by
    simp [isNumeric, Numeral.isDigit_of_mem h]
  cases n with
  | whole n => exact hd h
  | real v =>
    rw [Number.digits, List.mem_append, List.mem_append, List.mem_cons, List.mem_cons] at h
    rcases h with h | h | rfl | rfl | h
    · split at h
      · rw [List.mem_singleton] at h
        subst h
        decide
      · cases h
    · exact hd h
    · decide
    · decide
    · exact hd h
  | beyond =>
    have hall : Number.beyond.digits.all isNumeric = true := by decide
    exact List.all_eq_true.mp hall c h

theorem scan_numeral {numeral : Numeral} (hn : Numeral.ofChars? cs = some numeral)
    (hcs : ∀ d ∈ cs, isNumeric d = true) (hr : Ends rest) :
    scan tokens (cs ++ rest) = scan (.scalar (.num numeral.toNumber) :: tokens) rest := by
  cases cs with
  | nil => cases hn
  | cons c cs =>
    obtain ⟨ht, hd⟩ := takeWhile_dropWhile_append (fun d hd ↦ hcs d (List.mem_cons_of_mem c hd))
      fun d hd ↦ (hr d hd).2
    have hc : ¬isLetter c = true := by
      rcases Numeral.eq_minus_or_isDigit hn with rfl | hc
      · decide
      · exact not_letter_of_isDigit hc
    rw [List.cons_append, scan_plain (.inr (hcs c List.mem_cons_self)), if_neg hc, ht, hd, hn]
    rfl

/-- Finite numbers are written as numerals that stand for them, in one piece. -/
def Faithful (write : Number → List Char) : Prop :=
  ∀ n : Number, n.IsFinite → Number.Spells (write n) n ∧ ∀ c ∈ write n, isNumeric c = true

theorem faithful_digits : Faithful Number.digits := fun _ hn ↦
  ⟨Number.spells_digits hn, fun _ ↦ isNumeric_of_mem_digits⟩

theorem Faithful.scan_number {write : Number → List Char} (hw : Faithful write) {n : Number}
    (hn : n.IsFinite) (hr : Ends rest) :
    scan tokens (write n ++ rest) = scan (.scalar (.num n) :: tokens) rest := by
  obtain ⟨⟨numeral, hnumeral, hnumber⟩, hcs⟩ := hw n hn
  rw [scan_numeral hnumeral hcs hr, hnumber]

theorem scan_quoted {pieces : List Piece} (h : quoted? [] cs = some (pieces, rest)) :
    scan tokens ('"' :: cs) =
      scan (.scalar (.str ((textOf pieces).map String.ofList)) :: tokens) rest := by
  have hmark : mark? '"' = none := by decide
  rw [scan, if_neg (by decide), hmark]
  dsimp only
  rw [if_pos rfl]
  split
  next h' =>
    rw [h] at h'
    cases h'
    rfl
  next h' => simp [h] at h'

end Token

end TileBuffer
