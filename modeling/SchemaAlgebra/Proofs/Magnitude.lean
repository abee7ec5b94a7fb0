-- SUMMARY: The order of magnitudes, numbers up to the sign of zero, and exact integers and divisibility.
import SchemaAlgebra.Number.Basic
import Mathlib.Order.Monotone.Basic
import Mathlib.Tactic.Ring

/-!
# Magnitudes

Places of magnitudes ascend strictly in units, so a number is determined by its
exact value except that `0` and `-0` share one. Natural numbers up to `2 ^ 53`
are numbers exactly, and being a multiple of one is divisibility of units.
-/

namespace SchemaAlgebra

theorem binade_pos : 0 < binade := Nat.pow_pos (by decide)

namespace Number

-- ---------------------------------------------------------------------------
-- Order of magnitudes
-- ---------------------------------------------------------------------------

theorem unitsAt_of_lt {place : Nat} (h : place < binade) : unitsAt place = place := if_pos h

/-- From the first doubling on, a place is a run and an offset into it. -/
theorem unitsAt_run (run offset : Nat) (h : offset < binade) :
    unitsAt ((run + 1) * binade + offset) = (binade + offset) * 2 ^ run := by
  have hdiv : ((run + 1) * binade + offset) / binade = run + 1 := by
    rw [Nat.mul_comm, Nat.mul_add_div binade_pos, Nat.div_eq_of_lt h, Nat.add_zero]
  have hmod : ((run + 1) * binade + offset) % binade = offset := by
    rw [Nat.mul_comm, Nat.mul_add_mod, Nat.mod_eq_of_lt h]
  have hge : ¬ (run + 1) * binade + offset < binade := by
    have := Nat.le_mul_of_pos_left binade run.add_one_pos
    omega
  simp only [unitsAt, if_neg hge, hdiv, hmod, Nat.add_sub_cancel]
  rfl

/-- A place from the first doubling on, split into its run and offset. -/
theorem exists_run {place : Nat} (h : binade ≤ place) :
    ∃ run offset, offset < binade ∧ place = (run + 1) * binade + offset := by
  obtain ⟨run, hrun⟩ := Nat.exists_eq_add_of_le' (Nat.div_pos h binade_pos)
  refine ⟨run, place % binade, Nat.mod_lt _ binade_pos, ?_⟩
  rw [← hrun, Nat.mul_comm, Nat.div_add_mod]

theorem unitsAt_lt_succ (place : Nat) : unitsAt place < unitsAt (place + 1) := by
  by_cases h : place < binade
  · rw [unitsAt_of_lt h]
    by_cases h' : place + 1 < binade
    · rw [unitsAt_of_lt h']; omega
    · have heq : place + 1 = (0 + 1) * binade + 0 := by omega
      rw [heq, unitsAt_run 0 0 binade_pos]; omega
  · obtain ⟨run, offset, hoffset, rfl⟩ := exists_run (Nat.le_of_not_lt h)
    rw [unitsAt_run run offset hoffset]
    by_cases h' : offset + 1 < binade
    · rw [Nat.add_assoc, unitsAt_run run (offset + 1) h']
      exact Nat.mul_lt_mul_of_pos_right (by omega) (Nat.pow_pos (by decide))
    · have heq : (run + 1) * binade + offset + 1 = (run + 1 + 1) * binade + 0 := by
        rw [Nat.add_mul (run + 1) 1]; omega
      rw [heq, unitsAt_run (run + 1) 0 binade_pos, Nat.pow_succ, Nat.add_zero, ← Nat.mul_assoc,
        Nat.mul_right_comm]
      exact Nat.mul_lt_mul_of_pos_right (by omega) (Nat.pow_pos (by decide))

theorem unitsAt_strictMono : StrictMono unitsAt := strictMono_nat_of_lt_succ unitsAt_lt_succ

theorem unitsAt_zero : unitsAt 0 = 0 := unitsAt_of_lt binade_pos

theorem unitsAt_eq_zero {place : Nat} : unitsAt place = 0 ↔ place = 0 := by
  constructor
  · intro h; exact unitsAt_strictMono.injective (h.trans unitsAt_zero.symm)
  · rintro rfl; exact unitsAt_zero

-- ---------------------------------------------------------------------------
-- The sign of zero
-- ---------------------------------------------------------------------------

/-- The number with a zero made positive. -/
def unsigned (n : Number) : Number := if n.isZero then ofPlace false 0 else n

theorem zero_lt_magnitudeCount : 0 < magnitudeCount := Nat.mul_pos (by decide) binade_pos

theorem ofPlace_zero (negative : Bool) : ofPlace negative 0 = .finite negative ⟨0, zero_lt_magnitudeCount⟩ :=
  dif_pos zero_lt_magnitudeCount

theorem eq_zero_of_isZero {n : Number} (h : n.isZero = true) : ∃ negative, n = ofPlace negative 0 := by
  cases n with
  | nan => cases h
  | infinity negative => cases h
  | finite negative magnitude =>
      refine ⟨negative, ?_⟩
      rw [ofPlace_zero]
      congr 1
      exact Fin.ext (by simpa [isZero] using h)

theorem scaled?_ofPlace_zero (negative : Bool) : (ofPlace negative 0).scaled? = some 0 := by
  simp only [ofPlace_zero, scaled?, unitsAt_zero, signed]
  cases negative <;> rfl

@[simp] theorem scaled?_unsigned (n : Number) : n.unsigned.scaled? = n.scaled? := by
  unfold unsigned
  split
  · obtain ⟨negative, rfl⟩ := eq_zero_of_isZero ‹_›
    rw [scaled?_ofPlace_zero, scaled?_ofPlace_zero]
  · rfl

@[simp] theorem unsigned_unsigned (n : Number) : n.unsigned.unsigned = n.unsigned := by
  by_cases h : n.isZero = true
  · have hn : n.unsigned = ofPlace false 0 := if_pos h
    rw [hn]
    exact if_pos (by rw [ofPlace_zero]; rfl)
  · have hn : n.unsigned = n := if_neg h
    rw [hn, hn]

/-- The units at a place, of a finite number or of an infinity. -/
theorem scaled?_eq_some {n : Number} {x : Int} (h : n.scaled? = some x) :
    ∃ negative place, x = signed negative (unitsAt place) ∧
      (n = .infinity negative ∧ place = magnitudeCount ∨
        ∃ bound, n = .finite negative ⟨place, bound⟩) := by
  cases n with
  | nan => cases h
  | infinity negative => exact ⟨negative, magnitudeCount, (Option.some.inj h).symm, .inl ⟨rfl, rfl⟩⟩
  | finite negative magnitude =>
      exact ⟨negative, magnitude, (Option.some.inj h).symm, .inr ⟨magnitude.isLt, rfl⟩⟩

theorem signed_inj {negative negative' : Bool} {a b : Nat} (h : signed negative a = signed negative' b) :
    a = b ∧ (negative = negative' ∨ a = 0) := by
  cases negative <;> cases negative' <;> simp only [signed, if_true, if_false, Bool.false_eq_true] at h <;>
    refine ⟨by omega, ?_⟩ <;> first | exact .inl rfl | exact .inr (by omega)

/-- Numbers with one exact value are equal up to the sign of zero. -/
theorem unsigned_eq_of_scaled? {a b : Number} {x : Int} (ha : a.scaled? = some x) (hb : b.scaled? = some x) :
    a.unsigned = b.unsigned := by
  obtain ⟨negative, place, hx, hfa⟩ := scaled?_eq_some ha
  obtain ⟨negative', place', hx', hfb⟩ := scaled?_eq_some hb
  obtain ⟨hunits, hsign⟩ := signed_inj (hx.symm.trans hx')
  have hplace : place = place' := unitsAt_strictMono.injective hunits
  subst hplace
  rcases hsign with rfl | hzero
  · rcases hfa with ⟨rfl, hp⟩ | ⟨bound, rfl⟩ <;> rcases hfb with ⟨rfl, hp'⟩ | ⟨bound', rfl⟩
    · rfl
    · exact absurd bound' (by omega)
    · exact absurd bound (by omega)
    · rfl
  · have hplace : place = 0 := unitsAt_eq_zero.mp hzero
    subst hplace
    have hpos := zero_lt_magnitudeCount
    have isZero_of {negative : Bool} {n : Number}
        (h : n = .infinity negative ∧ 0 = magnitudeCount ∨ ∃ bound, n = .finite negative ⟨0, bound⟩) :
        n.isZero = true := by
      rcases h with ⟨-, h⟩ | ⟨bound, rfl⟩
      · omega
      · rfl
    rw [unsigned, unsigned, if_pos (isZero_of hfa), if_pos (isZero_of hfb)]

-- ---------------------------------------------------------------------------
-- Comparison
-- ---------------------------------------------------------------------------

theorem compareWith_eq_true {relation : Int → Int → Bool} {a b : Number} :
    compareWith relation a b = true ↔ ∃ x y, a.scaled? = some x ∧ b.scaled? = some y ∧ relation x y = true := by
  unfold compareWith
  cases a.scaled? <;> cases b.scaled? <;> simp

theorem equals_iff {a b : Number} :
    a.equals b = true ↔ ∃ x, a.scaled? = some x ∧ b.scaled? = some x := by
  simp only [equals, compareWith_eq_true, beq_iff_eq]
  constructor
  · rintro ⟨x, y, ha, hb, rfl⟩; exact ⟨x, ha, hb⟩
  · rintro ⟨x, ha, hb⟩; exact ⟨x, x, ha, hb, rfl⟩

theorem less_iff {a b : Number} :
    a.less b = true ↔ ∃ x y, a.scaled? = some x ∧ b.scaled? = some y ∧ x < y := by
  simp only [less, compareWith_eq_true, decide_eq_true_eq]

theorem lessEq_iff {a b : Number} :
    a.lessEq b = true ↔ ∃ x y, a.scaled? = some x ∧ b.scaled? = some y ∧ x ≤ y := by
  simp only [lessEq, compareWith_eq_true, decide_eq_true_eq]

theorem scaled?_isSome {n : Number} (h : n.isNaN = false) : ∃ x, n.scaled? = some x := by
  cases n with
  | nan => cases h
  | infinity negative => exact ⟨_, rfl⟩
  | finite negative magnitude => exact ⟨_, rfl⟩

theorem unsigned_eq_of_equals {a b : Number} (h : a.equals b = true) : a.unsigned = b.unsigned := by
  obtain ⟨x, ha, hb⟩ := equals_iff.mp h
  exact unsigned_eq_of_scaled? ha hb

theorem equals_of_unsigned_eq {a b : Number} (hn : a.isNaN = false) (h : a.unsigned = b.unsigned) :
    a.equals b = true := by
  obtain ⟨x, hx⟩ := scaled?_isSome hn
  refine equals_iff.mpr ⟨x, hx, ?_⟩
  rw [← scaled?_unsigned, ← h, scaled?_unsigned, hx]

@[simp] theorem isNaN_unsigned (n : Number) : n.unsigned.isNaN = n.isNaN := by
  unfold unsigned
  split
  · obtain ⟨negative, rfl⟩ := eq_zero_of_isZero ‹_›
    simp only [ofPlace_zero, isNaN]
  · rfl

@[simp] theorem isFinite_unsigned (n : Number) : n.unsigned.isFinite = n.isFinite := by
  unfold unsigned
  split
  · obtain ⟨negative, rfl⟩ := eq_zero_of_isZero ‹_›
    simp only [ofPlace_zero, isFinite]
  · rfl

-- ---------------------------------------------------------------------------
-- Exact integers
-- ---------------------------------------------------------------------------

theorem unitsPerOne_pos : 0 < unitsPerOne := Nat.two_pow_pos _

/-- A multiple of the distance at its size is a magnitude: its place is the run of its size and the
multiple. -/
theorem unitsAt_mantissa (run mantissa : Nat) (h : binade ≤ mantissa) (h' : mantissa < 2 * binade) :
    unitsAt (run * binade + mantissa) = mantissa * 2 ^ run := by
  obtain ⟨offset, rfl⟩ := Nat.exists_eq_add_of_le h
  rw [← Nat.add_assoc, ← Nat.succ_mul, unitsAt_run run offset (by omega)]

theorem roundQuotient_mul (a d : Nat) (h : 0 < d) : roundQuotient (a * d) d = a := by
  simp [roundQuotient, Nat.mul_div_cancel _ h, h]

/-- A quotient by one whose units are a mantissa at a distance is exact. -/
theorem scaled?_ofQuotient {a : Nat} (mantissa run : Nat) (h : a * unitsPerOne = mantissa * 2 ^ run)
    (hlow : binade ≤ mantissa) (hhigh : mantissa < 2 * binade) (hrun : run ≤ 2045) (negative : Bool) :
    (ofQuotient negative a 1).scaled? = some (signed negative (a * unitsPerOne)) := by
  have hlog : Nat.log2 (mantissa * 2 ^ run) = 52 + run := by
    have hbinade : binade = 2 ^ 52 := rfl
    rw [Nat.log2_eq_iff (Nat.mul_ne_zero (by omega) (Nat.pow_pos (by decide)).ne')]
    constructor
    · rw [Nat.pow_add, ← hbinade]; exact Nat.mul_le_mul_right _ hlow
    · rw [show 52 + run + 1 = 53 + run by omega, Nat.pow_add]
      exact Nat.mul_lt_mul_of_pos_right (by omega) (Nat.pow_pos (by decide))
  have hplace : run * binade + mantissa < magnitudeCount := by
    have : run * binade ≤ 2045 * binade := Nat.mul_le_mul_right _ hrun
    unfold magnitudeCount
    omega
  have hround : roundQuotient (mantissa * 2 ^ run) (1 * Nat.pow 2 run) = mantissa := by
    rw [Nat.one_mul]; exact roundQuotient_mul mantissa (2 ^ run) (Nat.pow_pos (by decide))
  have hnumber : ofQuotient negative a 1 = ofPlace negative (run * binade + mantissa) := by
    simp only [ofQuotient, Nat.div_one]
    rw [h, hlog, Nat.add_sub_cancel_left, hround]
  rw [hnumber, ofPlace, dif_pos hplace, scaled?, h]
  exact congrArg (fun units => some (signed negative units)) (unitsAt_mantissa run mantissa hlow hhigh)

theorem exists_unitsPerOne_eq : ∃ rest ≤ 1022, unitsPerOne = 2 ^ 52 * 2 ^ rest :=
  ⟨1022, le_rfl, by decide +kernel⟩

/-- Whole numbers up to `2 ^ 53` are numbers exactly. -/
theorem scaled?_ofQuotient_one {n : Nat} (h : n ≤ 2 ^ 53) (negative : Bool) :
    (ofQuotient negative n 1).scaled? = some (signed negative (n * unitsPerOne)) := by
  rcases Nat.eq_zero_or_pos n with rfl | hpos
  · rw [Nat.zero_mul]
    have hzero : ofQuotient negative 0 1 = ofPlace negative 0 := by
      simp [ofQuotient, roundQuotient]
    rw [hzero, scaled?_ofPlace_zero]
    cases negative <;> rfl
  obtain ⟨unit, hunit, hone⟩ := exists_unitsPerOne_eq
  have hlow : 2 ^ Nat.log2 n ≤ n := Nat.log2_self_le hpos.ne'
  have hhigh : n < 2 ^ (Nat.log2 n + 1) := Nat.lt_log2_self
  rcases Nat.lt_or_ge 52 (Nat.log2 n) with hlog | hlog
  · -- only `2 ^ 53` itself is that large
    have hn : n = 2 ^ 53 := by
      have := Nat.pow_le_pow_right Nat.two_pos hlog
      omega
    subst hn
    refine scaled?_ofQuotient binade (53 + unit) ?_ le_rfl ?_ (by omega) negative
    · rw [hone, Nat.pow_add, Nat.mul_left_comm]; rfl
    · have := binade_pos; omega
  · obtain ⟨rest, hrest⟩ := Nat.exists_eq_add_of_le hlog
    refine scaled?_ofQuotient (n * 2 ^ rest) (Nat.log2 n + unit) ?_ ?_ ?_ (by omega) negative
    · rw [hone, hrest, Nat.pow_add 2 (Nat.log2 n), Nat.pow_add 2 (Nat.log2 n)]
      ring
    · have hbinade : binade = 2 ^ Nat.log2 n * 2 ^ rest := by rw [← Nat.pow_add, ← hrest]; rfl
      rw [hbinade]; exact Nat.mul_le_mul_right _ hlow
    · have hbinade : 2 * binade = 2 ^ (Nat.log2 n + 1) * 2 ^ rest := by
        rw [Nat.pow_succ, Nat.mul_right_comm, ← Nat.pow_add, ← hrest, Nat.mul_comm]; rfl
      rw [hbinade]; exact Nat.mul_lt_mul_of_pos_right hhigh (Nat.pow_pos (by decide))

theorem scaled?_ofNat {n : Nat} (h : n ≤ 2 ^ 53) : (ofNat n).scaled? = some ((n * unitsPerOne : Nat) : Int) :=
  scaled?_ofQuotient_one h false

theorem scaled?_ofInt {i : Int} (h : i.natAbs ≤ 2 ^ 53) : (ofInt i).scaled? = some (i * unitsPerOne) := by
  rw [ofInt, scaled?_ofQuotient_one h]
  generalize unitsPerOne = one
  rcases Int.natAbs_eq i with hi | hi
  · have hsign : ¬ i < 0 := by omega
    simp only [hsign, decide_false, signed, Bool.false_eq_true, if_false, Nat.cast_mul]
    rw [← hi]
  · by_cases hzero : i = 0
    · subst hzero
      simp [signed]
    · have hsign : i < 0 := by omega
      simp only [hsign, decide_true, signed, if_true, Nat.cast_mul]
      rw [← Int.neg_mul, ← hi]

theorem isMultipleOf_of_scaled? {divisor : Nat} {step : Int} (h : (ofNat divisor).scaled? = some step)
    (n : Number) : n.isMultipleOf divisor = true ↔
      ∃ negative magnitude, n = .finite negative magnitude ∧ step ∣ unitsAt magnitude := by
  unfold isMultipleOf
  rw [h]
  cases n with
  | nan => exact ⟨nofun, nofun⟩
  | infinity negative => exact ⟨nofun, nofun⟩
  | finite negative magnitude =>
      simp only [beq_iff_eq]
      constructor
      · intro hmod; exact ⟨negative, magnitude, rfl, Int.dvd_of_emod_eq_zero hmod⟩
      · rintro ⟨_, _, heq, hdvd⟩
        cases heq
        exact Int.emod_eq_zero_of_dvd hdvd

/-- Being a multiple of an exact divisor is divisibility of the units. -/
theorem isMultipleOf_iff {divisor : Nat} (h : divisor ≤ 2 ^ 53) (n : Number) :
    n.isMultipleOf divisor = true ↔
      ∃ negative magnitude, n = .finite negative magnitude ∧ divisor * unitsPerOne ∣ unitsAt magnitude := by
  rw [isMultipleOf_of_scaled? (scaled?_ofNat h)]
  simp only [Int.natCast_dvd_natCast]

end Number

end SchemaAlgebra
