-- SUMMARY: The shortest digits of a magnitude: they exist, read back to it, and to no other magnitude.
import SchemaAlgebra.Number.Decimal
import SchemaAlgebra.Proofs.Magnitude
import Mathlib.Algebra.Order.Field.Rat
import Mathlib.Tactic.FieldSimp
import Mathlib.Tactic.Linarith
import Mathlib.Tactic.NormNum
import Mathlib.Tactic.Positivity

/-!
# Shortest digits

The distance to a neighbouring magnitude is more than `10 ^ -16` of the magnitude,
so of the two nearest decimals of seventeen digits one reads back. The decimals
that read back to different magnitudes are different, since the intervals between
midpoints overlap at most in an end that belongs to one of the two.
-/

namespace SchemaAlgebra

/-- The rational number that a decimal is. -/
def Decimal.value (decimal : Decimal) : ℚ := decimal.digits * (10 : ℚ) ^ decimal.exponent

namespace Number

-- ---------------------------------------------------------------------------
-- Reading back
-- ---------------------------------------------------------------------------

/-- Comparing a decimal is comparing natural numbers in one proportion to the rational numbers. -/
theorem compareDecimal_eq (d : Nat) (exponent : Int) (halves : Nat) :
    ∃ (a b : Nat) (scale : ℚ), 0 < scale ∧ compareDecimal d exponent halves = compare a b ∧
      (a : ℚ) = scale * (d * 10 ^ exponent * (2 * unitsPerOne)) ∧ (b : ℚ) = scale * halves := by
  unfold compareDecimal
  generalize unitsPerOne = one
  split
  · obtain ⟨n, rfl⟩ := Int.eq_ofNat_of_zero_le ‹_›
    refine ⟨_, _, 1, one_pos, rfl, ?_, (one_mul _).symm⟩
    simp
  · obtain ⟨n, hn⟩ := Int.eq_ofNat_of_zero_le (show 0 ≤ -exponent by omega)
    obtain rfl : exponent = -(n : Int) := by omega
    refine ⟨_, _, 10 ^ n, by positivity, rfl, ?_, ?_⟩
    · simp only [zpow_neg, zpow_natCast]
      push_cast
      field_simp
    · simp [mul_comm]

theorem compareDecimal_lt {d : Nat} {exponent : Int} {halves : Nat} :
    compareDecimal d exponent halves = .lt ↔ (d : ℚ) * 10 ^ exponent * (2 * unitsPerOne) < halves := by
  obtain ⟨a, b, scale, hpos, heq, ha, hb⟩ := compareDecimal_eq d exponent halves
  rw [heq, Nat.compare_eq_lt, ← Nat.cast_lt (α := ℚ), ha, hb, mul_lt_mul_iff_right₀ hpos]

theorem compareDecimal_gt {d : Nat} {exponent : Int} {halves : Nat} :
    compareDecimal d exponent halves = .gt ↔ (halves : ℚ) < d * 10 ^ exponent * (2 * unitsPerOne) := by
  obtain ⟨a, b, scale, hpos, heq, ha, hb⟩ := compareDecimal_eq d exponent halves
  rw [heq, Nat.compare_eq_gt, ← Nat.cast_lt (α := ℚ), ha, hb, mul_lt_mul_iff_right₀ hpos]

theorem compareDecimal_eq_eq {d : Nat} {exponent : Int} {halves : Nat} :
    compareDecimal d exponent halves = .eq ↔ (d : ℚ) * 10 ^ exponent * (2 * unitsPerOne) = halves := by
  obtain ⟨a, b, scale, hpos, heq, ha, hb⟩ := compareDecimal_eq d exponent halves
  rw [heq, Nat.compare_eq_eq, ← Nat.cast_inj (R := ℚ), ha, hb, mul_right_inj' hpos.ne']

/-- A decimal strictly between the midpoints reads back. -/
theorem readsBack_of_between {place d : Nat} {exponent : Int}
    (hlow : (unitsAt (place - 1) + unitsAt place : ℚ) < d * 10 ^ exponent * (2 * unitsPerOne))
    (hhigh : (d : ℚ) * 10 ^ exponent * (2 * unitsPerOne) < unitsAt place + unitsAt (place + 1)) :
    readsBack place d exponent = true := by
  have hbelow : compareDecimal d exponent (unitsAt (place - 1) + unitsAt place) = .gt :=
    compareDecimal_gt.mpr (by push_cast; exact hlow)
  have habove : compareDecimal d exponent (unitsAt place + unitsAt (place + 1)) = .lt :=
    compareDecimal_lt.mpr (by push_cast; exact hhigh)
  simp only [readsBack, hbelow, habove]

/-- A decimal that reads back is not outside the midpoints, and on a midpoint only for an even place. -/
theorem between_of_readsBack {place d : Nat} {exponent : Int} (h : readsBack place d exponent = true) :
    ((unitsAt (place - 1) + unitsAt place : ℚ) < d * 10 ^ exponent * (2 * unitsPerOne) ∧
        (d : ℚ) * 10 ^ exponent * (2 * unitsPerOne) < unitsAt place + unitsAt (place + 1)) ∨
      place % 2 = 0 ∧ (unitsAt (place - 1) + unitsAt place : ℚ) ≤ d * 10 ^ exponent * (2 * unitsPerOne) ∧
        (d : ℚ) * 10 ^ exponent * (2 * unitsPerOne) ≤ unitsAt place + unitsAt (place + 1) := by
  have hends : (unitsAt (place - 1) + unitsAt place : ℚ) ≤ unitsAt place + unitsAt (place + 1) := by
    have hle : unitsAt (place - 1) ≤ unitsAt (place + 1) := unitsAt_strictMono.monotone (by omega)
    have hcast : (unitsAt (place - 1) : ℚ) ≤ unitsAt (place + 1) := by exact_mod_cast hle
    linarith
  simp only [readsBack] at h
  split at h
  · rename_i hbelow habove
    refine .inl ⟨?_, ?_⟩
    · have := compareDecimal_gt.mp hbelow
      push_cast at this; exact this
    · have := compareDecimal_lt.mp habove
      push_cast at this; exact this
  · rename_i hbelow
    have heq := compareDecimal_eq_eq.mp hbelow
    push_cast at heq
    exact .inr ⟨by simpa using h, heq.symm.le, heq.trans_le hends⟩
  · rename_i habove _
    have heq := compareDecimal_eq_eq.mp habove
    push_cast at heq
    exact .inr ⟨by simpa using h, hends.trans heq.symm.le, heq.le⟩
  · cases h

theorem value_ne_of_readsBack {place place' d d' : Nat} {exponent exponent' : Int}
    (h : readsBack place d exponent = true) (h' : readsBack place' d' exponent' = true)
    (hlt : place < place') : (d : ℚ) * 10 ^ exponent ≠ d' * 10 ^ exponent' := by
  intro heq
  have hlow : unitsAt place ≤ unitsAt (place' - 1) := unitsAt_strictMono.monotone (by omega)
  have hhigh : unitsAt (place + 1) ≤ unitsAt place' := unitsAt_strictMono.monotone (by omega)
  have hlow : (unitsAt place : ℚ) ≤ unitsAt (place' - 1) := by exact_mod_cast hlow
  have hhigh : (unitsAt (place + 1) : ℚ) ≤ unitsAt place' := by exact_mod_cast hhigh
  have hb := between_of_readsBack h
  have hb' := between_of_readsBack h'
  rw [heq] at hb
  rcases hb with ⟨-, hb⟩ | ⟨heven, -, hb⟩ <;> rcases hb' with ⟨hb', -⟩ | ⟨heven', hb', -⟩
  · linarith
  · linarith
  · linarith
  · -- both places are even, so there is one between them
    have hbetween : unitsAt place < unitsAt (place' - 1) := unitsAt_strictMono (by omega)
    have hbetween : (unitsAt place : ℚ) < unitsAt (place' - 1) := by exact_mod_cast hbetween
    linarith

/-- Decimals of one value read back to one place. -/
theorem place_eq_of_readsBack {place place' d d' : Nat} {exponent exponent' : Int}
    (h : readsBack place d exponent = true) (h' : readsBack place' d' exponent' = true)
    (heq : (d : ℚ) * 10 ^ exponent = d' * 10 ^ exponent') : place = place' := by
  rcases Nat.lt_trichotomy place place' with hlt | rfl | hlt
  · exact absurd heq (value_ne_of_readsBack h h' hlt)
  · rfl
  · exact absurd heq.symm (value_ne_of_readsBack h' h hlt)

theorem value_pos_of_readsBack {place d : Nat} {exponent : Int} (hplace : place ≠ 0)
    (h : readsBack place d exponent = true) : (0 : ℚ) < d * 10 ^ exponent := by
  have hunits : 0 < unitsAt place := Nat.pos_of_ne_zero (unitsAt_eq_zero.not.mpr hplace)
  have hunits : (0 : ℚ) < unitsAt place := by exact_mod_cast hunits
  have hbelow : (0 : ℚ) ≤ unitsAt (place - 1) := Nat.cast_nonneg _
  have hone : (0 : ℚ) < 2 * unitsPerOne := mul_pos two_pos (Nat.cast_pos.mpr unitsPerOne_pos)
  refine pos_of_mul_pos_left ?_ hone.le
  rcases between_of_readsBack h with ⟨hlow, -⟩ | ⟨-, hlow, -⟩ <;> linarith

-- ---------------------------------------------------------------------------
-- Seventeen digits
-- ---------------------------------------------------------------------------

/-- The distance to the next smaller magnitude. -/
theorem units_lt_gap {place : Nat} (h : place ≠ 0) :
    unitsAt place < 10 ^ 16 * (unitsAt place - unitsAt (place - 1)) := by
  have hbinade : binade = 2 ^ 52 := rfl
  rcases Nat.lt_or_ge binade place with hlt | hle
  · obtain ⟨run, offset, hoffset, rfl⟩ := exists_run hlt.le
    have hpow := Nat.pow_pos (n := run) (show 0 < 2 by decide)
    rcases Nat.eq_zero_or_pos offset with rfl | hpos
    · -- the first place of a run: the distance below it is that of the run before
      obtain ⟨before, rfl⟩ : ∃ before, run = before + 1 := by
        cases run with
        | zero => omega
        | succ before => exact ⟨before, rfl⟩
      have hprev : (before + 1 + 1) * binade + 0 - 1 = (before + 1) * binade + (binade - 1) := by
        rw [Nat.succ_mul]; omega
      rw [hprev, unitsAt_run _ _ hoffset, unitsAt_run _ _ (by omega), Nat.pow_succ]
      have heq : (binade + 0) * (2 ^ before * 2) - (binade + (binade - 1)) * 2 ^ before = 2 ^ before := by
        rw [← Nat.mul_assoc, Nat.mul_right_comm, ← Nat.sub_mul]
        rw [show (binade + 0) * 2 - (binade + (binade - 1)) = 1 by omega, Nat.one_mul]
      rw [heq, ← Nat.mul_assoc, Nat.mul_right_comm]
      exact Nat.mul_lt_mul_of_pos_right (by omega) (Nat.pow_pos (by decide))
    · have hprev : (run + 1) * binade + offset - 1 = (run + 1) * binade + (offset - 1) := by omega
      rw [hprev, unitsAt_run _ _ hoffset, unitsAt_run _ _ (by omega), ← Nat.sub_mul]
      rw [show binade + offset - (binade + (offset - 1)) = 1 by omega, Nat.one_mul]
      exact Nat.mul_lt_mul_of_pos_right (by omega) hpow
  · have hself : unitsAt place = place := by
      rcases Nat.lt_or_eq_of_le hle with hlt | rfl
      · exact unitsAt_of_lt hlt
      · have := unitsAt_run 0 0 binade_pos
        simpa using this
    rw [hself, unitsAt_of_lt (show place - 1 < binade by omega)]
    omega

theorem pow_digitCount_le {n : Nat} (h : n ≠ 0) : 10 ^ (digitCount n - 1) ≤ n := by
  simp only [digitCount, if_neg h]
  rcases Nat.eq_zero_or_pos ((Nat.toDigits 10 n).length - 1) with hzero | hpos
  · rw [hzero]; omega
  · rw [← Nat.not_lt, ← Nat.length_toDigits_le_iff (by decide) hpos]; omega

theorem lt_pow_digitCount {n : Nat} (h : n ≠ 0) : n < 10 ^ digitCount n := by
  simp only [digitCount, if_neg h]
  exact (Nat.length_toDigits_le_iff (by decide) Nat.length_toDigits_pos).mp le_rfl

/-- The power of ten of the leading digit is not above the quotient. -/
theorem leadingExponent_le {a d : Nat} (ha : 0 < a) (hd : 0 < d) :
    (10 : ℚ) ^ leadingExponent a d * d ≤ a := by
  unfold leadingExponent
  split
  · have hquot : a / d ≠ 0 := (Nat.div_pos ‹_› hd).ne'
    have hcount : 0 < digitCount (a / d) := by
      simp only [digitCount, if_neg hquot]; exact Nat.length_toDigits_pos
    have hle : 10 ^ (digitCount (a / d) - 1) * d ≤ a :=
      (Nat.mul_le_mul_right d (pow_digitCount_le hquot)).trans (Nat.div_mul_le_self a d)
    rw [show (digitCount (a / d) : Int) - 1 = ((digitCount (a / d) - 1 : Nat) : Int) by omega, zpow_natCast]
    exact_mod_cast hle
  · have hceil : 2 ≤ (d + a - 1) / a := (Nat.le_div_iff_mul_le ha).mpr (by omega)
    have hle : (d + a - 1) / a ≤ 10 ^ digitCount ((d + a - 1) / a - 1) := by
      have := lt_pow_digitCount (show (d + a - 1) / a - 1 ≠ 0 by omega)
      omega
    have hd : d ≤ 10 ^ digitCount ((d + a - 1) / a - 1) * a := by
      have hmul := Nat.mul_le_mul_right a hle
      have hdiv := Nat.div_add_mod (d + a - 1) a
      have hmod := Nat.mod_lt (d + a - 1) ha
      rw [Nat.mul_comm ((d + a - 1) / a)] at hmul
      omega
    rw [zpow_neg, zpow_natCast, inv_mul_le_iff₀ (by positivity)]
    exact_mod_cast hd

/-- The grid point at or below a magnitude. -/
theorem floorAt_le (units : Nat) (exponent : Int) :
    (floorAt units exponent : ℚ) * 10 ^ exponent * unitsPerOne ≤ units ∧
      (units : ℚ) < (floorAt units exponent + 1 : Nat) * 10 ^ exponent * unitsPerOne := by
  have hone := unitsPerOne_pos
  unfold floorAt
  generalize unitsPerOne = one at hone
  split
  · obtain ⟨n, rfl⟩ := Int.eq_ofNat_of_zero_le ‹_›
    have hpos : 0 < one * 10 ^ n := Nat.mul_pos hone (Nat.pow_pos (by decide))
    have hle := Nat.div_mul_le_self units (one * 10 ^ n)
    have hlt := Nat.lt_div_mul_add (b := one * 10 ^ n) (a := units) hpos
    rw [← Nat.succ_mul] at hlt
    rw [Int.toNat_natCast, zpow_natCast, mul_assoc, mul_assoc, mul_comm _ (one : ℚ)]
    exact ⟨by exact_mod_cast hle, by exact_mod_cast hlt⟩
  · obtain ⟨n, hn⟩ := Int.eq_ofNat_of_zero_le (show 0 ≤ -exponent by omega)
    obtain rfl : exponent = -(n : Int) := by omega
    have hle := Nat.div_mul_le_self (units * 10 ^ n) one
    have hlt := Nat.lt_div_mul_add (b := one) (a := units * 10 ^ n) hone
    rw [← Nat.succ_mul] at hlt
    have hpow : (0 : ℚ) < 10 ^ n := by positivity
    rw [hn, Int.toNat_natCast, zpow_neg, zpow_natCast, mul_right_comm, mul_right_comm (Nat.cast _ : ℚ) _ (one : ℚ),
      ← div_eq_mul_inv, ← div_eq_mul_inv, div_le_iff₀ hpow, lt_div_iff₀ hpow]
    exact ⟨by exact_mod_cast hle, by exact_mod_cast hlt⟩

theorem nearestOnGrid?_isSome {tie : TieRule} {place : Nat} {exponent : Int}
    (h : readsBack place (floorAt (unitsAt place) exponent) exponent = true ∨
      readsBack place (floorAt (unitsAt place) exponent + 1) exponent = true) :
    ∃ d, nearestOnGrid? tie place exponent = some d := by
  simp only [nearestOnGrid?]
  generalize readsBack place (floorAt (unitsAt place) exponent) exponent = low at h
  generalize readsBack place (floorAt (unitsAt place) exponent + 1) exponent = high at h
  generalize compareDecimal (floorAt (unitsAt place) exponent + (floorAt (unitsAt place) exponent + 1))
    exponent (4 * unitsAt place) = middle
  cases low with
  | false => cases high with
    | false => rcases h with h | h <;> cases h
    | true => exact ⟨_, rfl⟩
  | true => cases high with
    | false => exact ⟨_, rfl⟩
    | true => cases middle <;> cases tie <;> exact ⟨_, rfl⟩

/-- What is taken from the grid reads back. -/
theorem readsBack_of_nearestOnGrid? {tie : TieRule} {place d : Nat} {exponent : Int}
    (h : nearestOnGrid? tie place exponent = some d) : readsBack place d exponent = true := by
  simp only [nearestOnGrid?] at h
  generalize compareDecimal (floorAt (unitsAt place) exponent + (floorAt (unitsAt place) exponent + 1))
    exponent (4 * unitsAt place) = middle at h
  cases hlow : readsBack place (floorAt (unitsAt place) exponent) exponent <;>
    cases hhigh : readsBack place (floorAt (unitsAt place) exponent + 1) exponent <;>
    simp only [hlow, hhigh] at h
  · cases h
  · cases h; exact hhigh
  · cases h; exact hlow
  · cases middle with
    | lt => cases h; exact hhigh
    | gt => cases h; exact hlow
    | eq => cases tie with
      | up => cases h; exact hhigh
      | even =>
          simp only [Option.some.injEq] at h
          subst h
          split
          · exact hlow
          · exact hhigh

/-- On the grid of the seventeenth digit, one of the two neighbours of a magnitude reads back. -/
theorem readsBack_seventeenth {place : Nat} (h : place ≠ 0) :
    let exponent := leadingExponent (unitsAt place) unitsPerOne - 16
    readsBack place (floorAt (unitsAt place) exponent) exponent = true ∨
      readsBack place (floorAt (unitsAt place) exponent + 1) exponent = true := by
  intro exponent
  have hunits : 0 < unitsAt place := Nat.pos_of_ne_zero (unitsAt_eq_zero.not.mpr h)
  have hleading := leadingExponent_le hunits unitsPerOne_pos
  obtain ⟨hfloor, hnext⟩ := floorAt_le (unitsAt place) exponent
  have hgap := units_lt_gap h
  have hgap' := units_lt_gap (show place + 1 ≠ 0 by omega)
  have hprev : unitsAt (place - 1) < unitsAt place := unitsAt_strictMono (by omega)
  have hsucc := unitsAt_lt_succ place
  rw [Nat.add_sub_cancel] at hgap'
  rw [show leadingExponent (unitsAt place) unitsPerOne = exponent + 16 by simp only [exponent]; omega,
    zpow_add₀ (by norm_num)] at hleading
  -- a step of the grid against the distances to both neighbours
  generalize hstep : (10 : ℚ) ^ exponent * unitsPerOne = step
  generalize floorAt (unitsAt place) exponent = low at hfloor hnext ⊢
  have hgap : (unitsAt place : ℚ) < 10 ^ 16 * (unitsAt place - unitsAt (place - 1)) := by
    rw [← Nat.cast_sub hprev.le]; exact_mod_cast hgap
  have hgap' : (unitsAt (place + 1) : ℚ) < 10 ^ 16 * (unitsAt (place + 1) - unitsAt place) := by
    rw [← Nat.cast_sub hsucc.le]; exact_mod_cast hgap'
  have hsucc : (unitsAt place : ℚ) < unitsAt (place + 1) := by exact_mod_cast hsucc
  have hsmall : step * 10 ^ 16 ≤ unitsAt place := by
    rw [mul_right_comm, hstep, zpow_ofNat] at hleading
    exact hleading
  rw [mul_assoc, hstep] at hfloor hnext
  push_cast at hnext
  have hlow (d : Nat) : (d : ℚ) * 10 ^ exponent * (2 * unitsPerOne) = 2 * (d * step) := by
    rw [← hstep]; ring
  rcases le_total (2 * (unitsAt place - low * step)) step with hle | hle
  · exact .inl (readsBack_of_between (by rw [hlow]; linarith) (by rw [hlow]; linarith))
  · refine .inr (readsBack_of_between ?_ ?_) <;> rw [hlow] <;> push_cast <;> linarith

-- ---------------------------------------------------------------------------
-- The shortest digits
-- ---------------------------------------------------------------------------

theorem value_stripZeros (fuel : Nat) (decimal : Decimal) : (stripZeros fuel decimal).value = decimal.value := by
  induction fuel generalizing decimal with
  | zero => rfl
  | succ fuel ih =>
      unfold stripZeros
      split
      · rename_i hmod
        rw [ih]
        have hdigits : decimal.digits = 10 * (decimal.digits / 10) := by omega
        have hcast : (decimal.digits : ℚ) = 10 * (decimal.digits / 10 : Nat) := by exact_mod_cast hdigits
        simp only [Decimal.value]
        rw [hcast, zpow_add₀ (by norm_num), zpow_one]
        ring
      · rfl

/-- The shortest digits of a magnitude have the value of a decimal that reads back to it. -/
theorem value_shortest (tie : TieRule) (magnitude : Magnitude) (h : magnitude.val ≠ 0) :
    ∃ d exponent, readsBack magnitude d exponent = true ∧
      (shortest tie magnitude).value = d * 10 ^ exponent := by
  simp only [shortest, if_neg h, value_stripZeros]
  generalize hfound : (List.range 17).findSome? _ = found
  cases found with
  | none =>
      rw [List.findSome?_eq_none_iff] at hfound
      have hnone := hfound 16 (by decide)
      rw [Option.map_eq_none_iff] at hnone
      obtain ⟨d, hd⟩ := nearestOnGrid?_isSome (readsBack_seventeenth h)
      exact absurd (hnone.symm.trans hd) nofun
  | some decimal =>
      obtain ⟨extra, -, hextra⟩ := List.exists_of_findSome?_eq_some hfound
      obtain ⟨d, hd, rfl⟩ := Option.map_eq_some_iff.mp hextra
      exact ⟨d, _, readsBack_of_nearestOnGrid? hd, rfl⟩

theorem value_shortest_pos (tie : TieRule) (magnitude : Magnitude) (h : magnitude.val ≠ 0) :
    0 < (shortest tie magnitude).value := by
  obtain ⟨d, exponent, hreads, hvalue⟩ := value_shortest tie magnitude h
  rw [hvalue]
  exact value_pos_of_readsBack h hreads

theorem value_shortest_zero (tie : TieRule) (magnitude : Magnitude) (h : magnitude.val = 0) :
    (shortest tie magnitude).value = 0 := by
  simp [shortest, if_pos h, Decimal.value]

/-- Magnitudes whose shortest digits have one value are equal. -/
theorem shortest_value_injective {tie : TieRule} {a b : Magnitude}
    (h : (shortest tie a).value = (shortest tie b).value) : a = b := by
  by_cases ha : a.val = 0 <;> by_cases hb : b.val = 0
  · exact Fin.ext (ha.trans hb.symm)
  · exact absurd (value_shortest_zero tie a ha) (h ▸ (value_shortest_pos tie b hb).ne')
  · exact absurd (value_shortest_zero tie b hb) (h ▸ (value_shortest_pos tie a ha).ne')
  · obtain ⟨d, exponent, hreads, hvalue⟩ := value_shortest tie a ha
    obtain ⟨d', exponent', hreads', hvalue'⟩ := value_shortest tie b hb
    exact Fin.ext (place_eq_of_readsBack hreads hreads' (by rw [← hvalue, h, hvalue']))

end Number

end SchemaAlgebra
