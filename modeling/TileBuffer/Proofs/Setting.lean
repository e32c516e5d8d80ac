import Mathlib.Tactic
import TileBuffer.Buffer

namespace TileBuffer

namespace Parameter

variable {ps : List Parameter} {p q : Parameter} {i : ℕ}

/-- The parameter at `i` is `p`, and stands before `i` as well. -/
def RepeatsAt (ps : List Parameter) (i : ℕ) (p : Parameter) : Prop :=
  ps[i]? = some p ∧ p ∈ ps.take i

/-- `p` is the last parameter of the list that repeats an earlier one. -/
def LastRepeat (ps : List Parameter) (p : Parameter) : Prop :=
  ∃ i, RepeatsAt ps i p ∧ ∀ j q, RepeatsAt ps j q → j ≤ i

theorem RepeatsAt.lt (h : RepeatsAt ps i p) : i < ps.length :=
  (List.getElem?_eq_some_iff.mp h.1).1

theorem repeatsAt_concat : RepeatsAt (ps ++ [q]) i p ↔
    RepeatsAt ps i p ∨ i = ps.length ∧ p = q ∧ q ∈ ps := by
  rcases Nat.lt_trichotomy i ps.length with hi | rfl | hi
  · simp [RepeatsAt, List.getElem?_append_left hi, List.take_append_of_le_length hi.le, hi.ne]
  · simp only [RepeatsAt, List.getElem?_concat_length, Option.some_inj, List.take_left,
      List.getElem?_eq_none le_rfl, reduceCtorEq, false_and, false_or, true_and]
    constructor
    · rintro ⟨rfl, h⟩
      exact ⟨rfl, h⟩
    · rintro ⟨rfl, h⟩
      exact ⟨rfl, h⟩
  · constructor
    · intro h
      have := h.lt
      simp only [List.length_append, List.length_singleton] at this
      omega
    · rintro (h | h)
      · exact absurd h.lt (by omega)
      · omega

theorem lastRepeat_concat : LastRepeat (ps ++ [q]) p ↔
    if q ∈ ps then p = q else LastRepeat ps p := by
  split
  next hq =>
    constructor
    · rintro ⟨i, hi, hlast⟩
      have hle : ps.length ≤ i := hlast _ q (repeatsAt_concat.mpr (.inr ⟨rfl, rfl, hq⟩))
      rcases repeatsAt_concat.mp hi with h | h
      · exact absurd h.lt (Nat.not_lt.mpr hle)
      · exact h.2.1
    · rintro rfl
      refine ⟨ps.length, repeatsAt_concat.mpr (.inr ⟨rfl, rfl, hq⟩), fun j r hj ↦ ?_⟩
      have := hj.lt
      simp only [List.length_append, List.length_singleton] at this
      omega
  next hq =>
    have hiff (i : ℕ) (r : Parameter) : RepeatsAt (ps ++ [q]) i r ↔ RepeatsAt ps i r := by
      simp [repeatsAt_concat, hq]
    simp only [LastRepeat, hiff]

theorem exists_lastRepeat_iff : (∃ p, LastRepeat ps p) ↔ ¬ps.Nodup := by
  induction ps using List.reverseRecOn with
  | nil => simp [LastRepeat, RepeatsAt]
  | append_singleton ps q ih =>
    simp only [lastRepeat_concat, List.nodup_append, List.nodup_cons, List.mem_singleton]
    by_cases hq : q ∈ ps
    · simp [hq]
    · simp [hq, ih]

end Parameter

theorem Config.check_eq (c : Config) : c.check =
    if c.grid.rows.tileLength = 0 ∨ c.grid.cols.tileLength = 0 then
      .error (.emptyTile c.grid.rows.tileLength c.grid.cols.tileLength)
    else if c.grid.rows.length = 0 ∨ c.grid.cols.length = 0 then
      .error (.emptyMatrix c.grid.rows.length c.grid.cols.length)
    else if c.capacity = 0 then .error (.noCapacity c.capacity)
    else .ok () := by
  rw [check, Grid.check, checkCapacity]
  split_ifs <;> rfl

namespace Draft

variable {d : Draft} {s t : Setting} {p : Parameter} {settings : List Setting}

/-- The draft has a place for each setting, and this one is there. -/
def Holds (d : Draft) : Setting → Prop
  | .dimensions rows cols => d.dimensions = some (rows, cols)
  | .blockSize rows cols => d.blockSize = some (rows, cols)
  | .capacity cells => d.capacity = some cells
  | .density policy => d.density = some policy
  | .parallel flag => d.parallel = some flag

def put (d : Draft) : Setting → Draft
  | .dimensions rows cols => { d with dimensions := some (rows, cols) }
  | .blockSize rows cols => { d with blockSize := some (rows, cols) }
  | .capacity cells => { d with capacity := some cells }
  | .density policy => { d with density := some policy }
  | .parallel flag => { d with parallel := some flag }

theorem give_eq (d : Draft) (s : Setting) : d.give s =
    { d.put s with
      repeated := if d.has s.parameter then some s.parameter else d.repeated } := by
  cases h : d.has s.parameter <;> cases s <;> simp [give, put, h]

theorem has_give : (d.give s).has p = true ↔ d.has p = true ∨ p = s.parameter := by
  rw [give_eq]
  cases s <;> cases p <;> simp [put, has, Setting.parameter]

theorem holds_give : (d.give s).Holds t ↔ s = t ∨ t.parameter ≠ s.parameter ∧ d.Holds t := by
  rw [give_eq]
  cases s <;> cases t <;> simp [put, Holds, Setting.parameter]

theorem ofSettings_concat : ofSettings (settings ++ [s]) = (ofSettings settings).give s := by
  rw [ofSettings, List.foldl_append, List.foldl_cons, List.foldl_nil, ofSettings]

theorem has_ofSettings : (ofSettings settings).has p = true ↔ p ∈ settings.map Setting.parameter := by
  induction settings using List.reverseRecOn with
  | nil => cases p <;> simp [ofSettings, empty, has]
  | append_singleton settings s ih => simp [ofSettings_concat, has_give, ih]

theorem repeated_ofSettings : (ofSettings settings).repeated = some p ↔
    Parameter.LastRepeat (settings.map Setting.parameter) p := by
  induction settings using List.reverseRecOn with
  | nil => simp [ofSettings, empty, Parameter.LastRepeat, Parameter.RepeatsAt]
  | append_singleton settings s ih =>
    rw [ofSettings_concat, give_eq, List.map_append, List.map_singleton,
      Parameter.lastRepeat_concat]
    simp only [has_ofSettings]
    split
    · rw [Option.some_inj, eq_comm]
    · exact ih

theorem repeated_eq_none_iff :
    (ofSettings settings).repeated = none ↔ (settings.map Setting.parameter).Nodup := by
  rw [← not_iff_not, ← Parameter.exists_lastRepeat_iff, ← Ne, Option.ne_none_iff_exists']
  simp only [repeated_ofSettings]

theorem holds_ofSettings (hn : (settings.map Setting.parameter).Nodup) :
    (ofSettings settings).Holds t ↔ t ∈ settings := by
  induction settings using List.reverseRecOn with
  | nil => cases t <;> simp [ofSettings, empty, Holds]
  | append_singleton settings s ih =>
    rw [List.map_append, List.nodup_append] at hn
    obtain ⟨hn, -, hfresh⟩ := hn
    rw [ofSettings_concat, holds_give, ih hn, List.mem_append, List.mem_singleton, or_comm,
      eq_comm (a := s)]
    refine or_congr_left (and_iff_right_of_imp fun ht ↦ ?_)
    exact hfresh t.parameter (List.mem_map_of_mem ht) s.parameter (by simp)

theorem ext_of_holds {d' : Draft} (h : ∀ t, d.Holds t ↔ d'.Holds t)
    (hr : d.repeated = d'.repeated) : d = d' := by
  obtain ⟨dimensions, blockSize, capacity, density, parallel, repeated⟩ := d
  obtain ⟨dimensions', blockSize', capacity', density', parallel', repeated'⟩ := d'
  have hd : dimensions = dimensions' := Option.ext fun ⟨_, _⟩ ↦ h (.dimensions _ _)
  have hb : blockSize = blockSize' := Option.ext fun ⟨_, _⟩ ↦ h (.blockSize _ _)
  have hc : capacity = capacity' := Option.ext fun _ ↦ h (.capacity _)
  have hp : density = density' := Option.ext fun _ ↦ h (.density _)
  have hf : parallel = parallel' := Option.ext fun _ ↦ h (.parallel _)
  simp only [hd, hb, hc, hp, hf]
  exact congrArg _ hr

theorem ofSettings_perm {settings' : List Setting} (hn : (settings.map Setting.parameter).Nodup)
    (h : settings.Perm settings') : ofSettings settings' = ofSettings settings := by
  have hn' := (h.map Setting.parameter).nodup_iff.mp hn
  apply ext_of_holds
  · intro t
    rw [holds_ofSettings hn, holds_ofSettings hn', h.mem_iff]
  · rw [repeated_eq_none_iff.mpr hn, repeated_eq_none_iff.mpr hn']

section Finish

variable {rows cols tileRows tileCols : UInt64}

theorem config_of_repeated (h : d.repeated = some p) : d.config = .error (.repeated p) := by
  simp only [config, h]
  rfl

theorem config_of_no_dimensions (hr : d.repeated = none) (h : d.dimensions = none) :
    d.config = .error (.missing .dimensions) := by
  simp only [config, hr, h]
  rfl

theorem config_of_no_blockSize (hr : d.repeated = none) (hd : d.dimensions = some (rows, cols))
    (h : d.blockSize = none) : d.config = .error (.missing .blockSize) := by
  simp only [config, hr, hd, h]
  rfl

/-- The configuration of these sizes, with what else the draft holds and the defaults. -/
def ofSizes (d : Draft) (rows cols tileRows tileCols : UInt64) : Config where
  grid := .ofSizes rows cols tileRows tileCols
  capacity := d.capacity.getD defaultCapacity
  policy := d.density.getD default
  parallel := d.parallel.getD false

theorem check_ofSizes (d : Draft) : (d.ofSizes rows cols tileRows tileCols).check =
    if tileRows = 0 ∨ tileCols = 0 then .error (.emptyTile tileRows tileCols)
    else if rows = 0 ∨ cols = 0 then .error (.emptyMatrix rows cols)
    else if d.capacity.getD defaultCapacity = 0 then
      .error (.noCapacity (d.capacity.getD defaultCapacity))
    else .ok () := Config.check_eq _

theorem config_of_sizes (hr : d.repeated = none) (hd : d.dimensions = some (rows, cols))
    (hb : d.blockSize = some (tileRows, tileCols)) : d.config =
      (d.ofSizes rows cols tileRows tileCols).check.map
        fun _ ↦ d.ofSizes rows cols tileRows tileCols := by
  simp only [config, hr, hd, hb]
  change (d.ofSizes rows cols tileRows tileCols).check.bind _ = _
  cases (d.ofSizes rows cols tileRows tileCols).check <;> rfl

end Finish

end Draft

def Setting.NoZero : Setting → Prop
  | .dimensions rows cols => rows ≠ 0 ∧ cols ≠ 0
  | .blockSize rows cols => rows ≠ 0 ∧ cols ≠ 0
  | .capacity cells => cells ≠ 0
  | .density _ => True
  | .parallel _ => True

namespace Config

variable {settings : List Setting} {c : Config} {r : Rejection}

/-- The configuration has what the settings give, and otherwise the defaults. -/
structure MadeOf (settings : List Setting) (c : Config) : Prop where
  dimensions : .dimensions c.grid.rows.length c.grid.cols.length ∈ settings
  blockSize : .blockSize c.grid.rows.tileLength c.grid.cols.tileLength ∈ settings
  capacity : .capacity c.capacity ∈ settings ∨
    .capacity ∉ settings.map Setting.parameter ∧ c.capacity = 5000000
  policy : .density c.policy ∈ settings ∨ .density ∉ settings.map Setting.parameter ∧
    c.policy = .turnPoint StoragePolicy.defaultTurnPoint
  parallel : .parallel c.parallel ∈ settings ∨
    .parallel ∉ settings.map Setting.parameter ∧ c.parallel = false

/-- What is reported first of all that is wrong with the settings. -/
inductive FirstWrong (settings : List Setting) : Rejection → Prop
  | repeated {p : Parameter} (h : Parameter.LastRepeat (settings.map Setting.parameter) p) :
      FirstWrong settings (.repeated p)
  | noDimensions (hn : (settings.map Setting.parameter).Nodup)
      (h : .dimensions ∉ settings.map Setting.parameter) :
      FirstWrong settings (.missing .dimensions)
  | noBlockSize {rows cols : UInt64} (hn : (settings.map Setting.parameter).Nodup)
      (hd : .dimensions rows cols ∈ settings) (h : .blockSize ∉ settings.map Setting.parameter) :
      FirstWrong settings (.missing .blockSize)
  | emptyTile {rows cols tileRows tileCols : UInt64}
      (hn : (settings.map Setting.parameter).Nodup) (hd : .dimensions rows cols ∈ settings)
      (hb : .blockSize tileRows tileCols ∈ settings) (h : tileRows = 0 ∨ tileCols = 0) :
      FirstWrong settings (.emptyTile tileRows tileCols)
  | emptyMatrix {rows cols tileRows tileCols : UInt64}
      (hn : (settings.map Setting.parameter).Nodup) (hd : .dimensions rows cols ∈ settings)
      (hb : .blockSize tileRows tileCols ∈ settings) (ht : tileRows ≠ 0 ∧ tileCols ≠ 0)
      (h : rows = 0 ∨ cols = 0) : FirstWrong settings (.emptyMatrix rows cols)
  | noCapacity {rows cols tileRows tileCols : UInt64}
      (hn : (settings.map Setting.parameter).Nodup) (hd : .dimensions rows cols ∈ settings)
      (hb : .blockSize tileRows tileCols ∈ settings) (ht : tileRows ≠ 0 ∧ tileCols ≠ 0)
      (hm : rows ≠ 0 ∧ cols ≠ 0) (h : .capacity 0 ∈ settings) :
      FirstWrong settings (.noCapacity 0)

theorem given_or_default {α : Type} {place : Option α} {make : α → Setting} {p : Parameter}
    (hn : (settings.map Setting.parameter).Nodup)
    (hm : ∀ a, (Draft.ofSettings settings).Holds (make a) ↔ place = some a)
    (hp : (Draft.ofSettings settings).has p = place.isSome) (default : α) :
    make (place.getD default) ∈ settings ∨
      p ∉ settings.map Setting.parameter ∧ place.getD default = default := by
  rw [← Draft.holds_ofSettings hn, hm, ← Draft.has_ofSettings, hp]
  cases place with
  | none => exact .inr ⟨nofun, rfl⟩
  | some a => exact .inl rfl

theorem exists_dimensions (h : .dimensions ∈ settings.map Setting.parameter) :
    ∃ rows cols, .dimensions rows cols ∈ settings := by
  obtain ⟨s, hs, hp⟩ := List.mem_map.mp h
  cases s <;> cases hp
  exact ⟨_, _, hs⟩

theorem exists_blockSize (h : .blockSize ∈ settings.map Setting.parameter) :
    ∃ rows cols, .blockSize rows cols ∈ settings := by
  obtain ⟨s, hs, hp⟩ := List.mem_map.mp h
  cases s <;> cases hp
  exact ⟨_, _, hs⟩

section Sizes

variable {rows cols tileRows tileCols : UInt64} (hn : (settings.map Setting.parameter).Nodup)
  (hd : .dimensions rows cols ∈ settings) (hb : .blockSize tileRows tileCols ∈ settings)
include hn

theorem capacity_eq_zero_iff :
    (Draft.ofSettings settings).capacity.getD Draft.defaultCapacity = 0 ↔
      .capacity 0 ∈ settings := by
  rw [← Draft.holds_ofSettings hn, Draft.Holds]
  cases (Draft.ofSettings settings).capacity with
  | none => simp [Draft.defaultCapacity]
  | some cells => simp

include hd hb

theorem ofSettings_of_sizes : ofSettings settings =
    ((Draft.ofSettings settings).ofSizes rows cols tileRows tileCols).check.map
      fun _ ↦ (Draft.ofSettings settings).ofSizes rows cols tileRows tileCols :=
  Draft.config_of_sizes (Draft.repeated_eq_none_iff.mpr hn) ((Draft.holds_ofSettings hn).mpr hd)
    ((Draft.holds_ofSettings hn).mpr hb)

theorem madeOf_ofSizes :
    MadeOf settings ((Draft.ofSettings settings).ofSizes rows cols tileRows tileCols) where
  dimensions := hd
  blockSize := hb
  capacity := given_or_default hn (fun _ ↦ Iff.rfl) rfl _
  policy := given_or_default hn (fun _ ↦ Iff.rfl) rfl _
  parallel := given_or_default hn (fun _ ↦ Iff.rfl) rfl _

theorem noZero_of_sizes (ht : tileRows ≠ 0 ∧ tileCols ≠ 0) (hm : rows ≠ 0 ∧ cols ≠ 0)
    (hc : .capacity 0 ∉ settings) : ∀ s ∈ settings, s.NoZero := by
  intro s hs
  rw [← Draft.holds_ofSettings hn] at hs hd hb
  cases s with
  | dimensions rows' cols' =>
    cases hd.symm.trans hs
    exact hm
  | blockSize rows' cols' =>
    cases hb.symm.trans hs
    exact ht
  | capacity cells =>
    rintro rfl
    exact hc ((Draft.holds_ofSettings hn).mp hs)
  | density policy => trivial
  | parallel flag => trivial

end Sizes

theorem FirstWrong.ofSettings_eq (h : FirstWrong settings r) : ofSettings settings = .error r := by
  cases h with
  | repeated h => exact Draft.config_of_repeated (Draft.repeated_ofSettings.mpr h)
  | noDimensions hn h =>
    apply Draft.config_of_no_dimensions (Draft.repeated_eq_none_iff.mpr hn)
    rwa [← Draft.has_ofSettings, Draft.has, Option.not_isSome_iff_eq_none] at h
  | noBlockSize hn hd h =>
    apply Draft.config_of_no_blockSize (Draft.repeated_eq_none_iff.mpr hn)
      ((Draft.holds_ofSettings hn).mpr hd)
    rwa [← Draft.has_ofSettings, Draft.has, Option.not_isSome_iff_eq_none] at h
  | emptyTile hn hd hb h =>
    rw [ofSettings_of_sizes hn hd hb, Draft.check_ofSizes, if_pos h]
    rfl
  | emptyMatrix hn hd hb ht h =>
    rw [ofSettings_of_sizes hn hd hb, Draft.check_ofSizes, if_neg (not_or.mpr ht), if_pos h]
    rfl
  | noCapacity hn hd hb ht hm h =>
    have hc := (capacity_eq_zero_iff hn).mpr h
    rw [ofSettings_of_sizes hn hd hb, Draft.check_ofSizes, if_neg (not_or.mpr ht),
      if_neg (not_or.mpr hm), if_pos hc, hc]
    rfl

/-- The configuration of settings in which nothing is wrong. -/
structure Made (settings : List Setting) (c : Config) : Prop where
  nodup : (settings.map Setting.parameter).Nodup
  noZero : ∀ s ∈ settings, s.NoZero
  madeOf : MadeOf settings c
  ofSettings_eq : ofSettings settings = .ok c

theorem wrong_or_made (settings : List Setting) :
    (∃ r, FirstWrong settings r) ∨ ∃ c, Made settings c := by
  by_cases hn : (settings.map Setting.parameter).Nodup
  case neg =>
    obtain ⟨p, hp⟩ := Parameter.exists_lastRepeat_iff.mpr hn
    exact .inl ⟨_, .repeated hp⟩
  by_cases hd : .dimensions ∈ settings.map Setting.parameter
  case neg => exact .inl ⟨_, .noDimensions hn hd⟩
  obtain ⟨rows, cols, hd⟩ := exists_dimensions hd
  by_cases hb : .blockSize ∈ settings.map Setting.parameter
  case neg => exact .inl ⟨_, .noBlockSize hn hd hb⟩
  obtain ⟨tileRows, tileCols, hb⟩ := exists_blockSize hb
  by_cases ht : tileRows = 0 ∨ tileCols = 0
  case pos => exact .inl ⟨_, .emptyTile hn hd hb ht⟩
  by_cases hm : rows = 0 ∨ cols = 0
  case pos => exact .inl ⟨_, .emptyMatrix hn hd hb (not_or.mp ht) hm⟩
  by_cases hc : .capacity 0 ∈ settings
  case pos => exact .inl ⟨_, .noCapacity hn hd hb (not_or.mp ht) (not_or.mp hm) hc⟩
  refine .inr ⟨_, hn, noZero_of_sizes hn hd hb (not_or.mp ht) (not_or.mp hm) hc,
    madeOf_ofSizes hn hd hb, ?_⟩
  rw [ofSettings_of_sizes hn hd hb, Draft.check_ofSizes, if_neg ht, if_neg hm,
    if_neg (mt (capacity_eq_zero_iff hn).mp hc)]
  rfl

theorem ofSettings_eq_error_iff : ofSettings settings = .error r ↔ FirstWrong settings r := by
  constructor
  · intro h
    rcases wrong_or_made settings with ⟨r', hr⟩ | ⟨c, hc⟩
    · cases hr.ofSettings_eq.symm.trans h
      exact hr
    · cases hc.ofSettings_eq.symm.trans h
  · exact FirstWrong.ofSettings_eq

theorem made_of_ofSettings (h : ofSettings settings = .ok c) : Made settings c := by
  rcases wrong_or_made settings with ⟨r, hr⟩ | ⟨c', hc⟩
  · cases hr.ofSettings_eq.symm.trans h
  · cases hc.ofSettings_eq.symm.trans h
    exact hc

theorem FirstWrong.false (h : FirstWrong settings r)
    (hn : (settings.map Setting.parameter).Nodup)
    (hd : .dimensions ∈ settings.map Setting.parameter)
    (hb : .blockSize ∈ settings.map Setting.parameter) (hz : ∀ s ∈ settings, s.NoZero) : False := by
  cases h with
  | repeated h => exact Parameter.exists_lastRepeat_iff.mp ⟨_, h⟩ hn
  | noDimensions _ h => exact h hd
  | noBlockSize _ _ h => exact h hb
  | emptyTile _ _ hb h => exact h.elim (hz _ hb).1 (hz _ hb).2
  | emptyMatrix _ hd _ _ h => exact h.elim (hz _ hd).1 (hz _ hd).2
  | noCapacity _ _ _ _ _ h => exact hz _ h rfl

theorem exists_ofSettings_iff : (∃ c, ofSettings settings = .ok c) ↔
    (settings.map Setting.parameter).Nodup ∧
      .dimensions ∈ settings.map Setting.parameter ∧
      .blockSize ∈ settings.map Setting.parameter ∧ ∀ s ∈ settings, s.NoZero := by
  constructor
  · rintro ⟨c, h⟩
    have hc := made_of_ofSettings h
    exact ⟨hc.nodup, List.mem_map_of_mem hc.madeOf.dimensions,
      List.mem_map_of_mem hc.madeOf.blockSize, hc.noZero⟩
  · rintro ⟨hn, hd, hb, hz⟩
    rcases wrong_or_made settings with ⟨r, hr⟩ | ⟨c, hc⟩
    · exact (hr.false hn hd hb hz).elim
    · exact ⟨c, hc.ofSettings_eq⟩

theorem Made.check_eq_ok (h : Made settings c) : c.check = .ok () := by
  have ht := h.noZero _ h.madeOf.blockSize
  have hm := h.noZero _ h.madeOf.dimensions
  have hc : c.capacity ≠ 0 := by
    rcases h.madeOf.capacity with hc | ⟨-, hc⟩
    · exact h.noZero _ hc
    · rw [hc]
      decide
  rw [check_eq, if_neg (not_or.mpr ht), if_neg (not_or.mpr hm), if_neg hc]

end Config

/-- A buffer rejects no configuration that settings make. -/
theorem Buffer.ofSettings_eq (settings : List Setting) :
    ofSettings settings = (Config.ofSettings settings).map fresh := by
  rw [ofSettings]
  cases h : Config.ofSettings settings with
  | error r => rfl
  | ok c =>
    change ofConfig c = _
    rw [ofConfig, (Config.made_of_ofSettings h).check_eq_ok]
    rfl

/-- Settings make a configuration exactly when they give nothing twice, give the sizes and give no
zero, and then their order does not matter; otherwise the first thing wrong is reported. A buffer is
made of them whenever a configuration is, and starts empty. -/
theorem config_made_or_first_wrong (settings : List Setting) :
    ((∃ c, Config.ofSettings settings = .ok c) ↔
        (settings.map Setting.parameter).Nodup ∧
          .dimensions ∈ settings.map Setting.parameter ∧
          .blockSize ∈ settings.map Setting.parameter ∧ ∀ s ∈ settings, s.NoZero) ∧
      (∀ c, Config.ofSettings settings = .ok c → c.MadeOf settings) ∧
      (∀ settings', (settings.map Setting.parameter).Nodup → settings.Perm settings' →
        Config.ofSettings settings' = Config.ofSettings settings) ∧
      (∀ r, Config.ofSettings settings = .error r ↔ Config.FirstWrong settings r) ∧
      (∀ r, Buffer.ofSettings settings = .error r ↔ Config.ofSettings settings = .error r) ∧
      ∀ c, Config.ofSettings settings = .ok c → ∃ b, Buffer.ofSettings settings = .ok b ∧
        b.config = c ∧ b.isEmpty = true ∧ b.size = 0 ∧ b.remaining = c.capacity.toNat ∧
        b.counters = ⟨0, 0, 0, 0, 0⟩ := by
  refine ⟨Config.exists_ofSettings_iff, fun c h ↦ (Config.made_of_ofSettings h).madeOf,
    fun settings' hn h ↦ ?perm, fun r ↦ Config.ofSettings_eq_error_iff, fun r ↦ ?refused,
    fun c h ↦ ?built⟩
  case perm => rw [Config.ofSettings, Draft.ofSettings_perm hn h, Config.ofSettings]
  case refused =>
    rw [Buffer.ofSettings_eq]
    cases Config.ofSettings settings <;> simp [Except.map]
  case built => exact ⟨.fresh c, by rw [Buffer.ofSettings_eq, h]; rfl, rfl, rfl, rfl, rfl, rfl⟩

/-- Of two parameters that are given again the later one is reported, and before anything else. -/
example : Config.ofSettings [.capacity 0, .parallel true, .parallel true, .capacity 0,
    .dimensions 0 1] = .error (.repeated .capacity) := rfl

end TileBuffer
