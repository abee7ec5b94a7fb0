-- SUMMARY: The text of a number inside JSON reads back, so different numbers have different texts.
import SchemaAlgebra.Number.Text
import SchemaAlgebra.Proofs.ShortestDecimal

/-!
# Texts of numbers

Both forms of a decimal, positional and scientific, read back to its value. With
the shortest digits this makes `jsonText` injective. Its characters are those of
numbers only, and a point or an exponent tells it from the text of an integer.
-/

namespace SchemaAlgebra.Number

-- ---------------------------------------------------------------------------
-- Digits
-- ---------------------------------------------------------------------------

theorem digitsValue_eq (cs : List Char) : digitsValue cs = Nat.ofDigitChars 10 cs 0 := rfl

@[simp] theorem digitsValue_toDigits (n : Nat) : digitsValue (Nat.toDigits 10 n) = n := by
  rw [digitsValue_eq, Nat.ofDigitChars_ten_toDigits]

theorem toDigits_all_isDigit (n : Nat) : ∀ c ∈ Nat.toDigits 10 n, c.isDigit = true :=
  fun _ h => Nat.isDigit_of_mem_toDigits (by decide) (by decide) h

theorem replicate_all_isDigit (n : Nat) : ∀ c ∈ List.replicate n '0', c.isDigit = true := by
  intro c h
  rw [List.eq_of_mem_replicate h]
  decide

/-- What follows a run of digits. -/
def NoDigitFirst (cs : List Char) : Prop := ∀ c rest, cs = c :: rest → c.isDigit = false

theorem spanDigits_append {digits rest : List Char} (hdigits : ∀ c ∈ digits, c.isDigit = true)
    (hrest : NoDigitFirst rest) : spanDigits (digits ++ rest) = (digits, rest) := by
  rw [spanDigits, List.span_eq_takeWhile_dropWhile]
  induction digits with
  | nil =>
      cases rest with
      | nil => rfl
      | cons c rest => simp [hrest c rest rfl]
  | cons c digits ih =>
      have hc := hdigits c List.mem_cons_self
      have ih := ih fun c h => hdigits c (List.mem_cons_of_mem _ h)
      simp only [Prod.mk.injEq] at ih
      simp [hc, ih.1, ih.2]

-- ---------------------------------------------------------------------------
-- Reading decimals
-- ---------------------------------------------------------------------------

theorem readDecimal?_point {whole fraction rest : List Char} (hwhole : ∀ c ∈ whole, c.isDigit = true)
    (hne : whole ≠ []) (hfraction : ∀ c ∈ fraction, c.isDigit = true) (hrest : NoDigitFirst rest) :
    readDecimal? (whole ++ '.' :: (fraction ++ rest)) = (readExponent rest).map fun exponent =>
      ⟨digitsValue (whole ++ fraction), exponent - fraction.length⟩ := by
  have hpoint : NoDigitFirst ('.' :: (fraction ++ rest)) := by
    intro c rest h
    cases h
    decide
  simp [readDecimal?, spanDigits_append hwhole hpoint, spanDigits_append hfraction hrest, hne]

theorem readDecimal?_whole {whole rest : List Char} (hwhole : ∀ c ∈ whole, c.isDigit = true)
    (hne : whole ≠ []) (hrest : ∀ c tail, rest = c :: tail → c.isDigit = false ∧ c ≠ '.') :
    readDecimal? (whole ++ rest) = (readExponent rest).map fun exponent => ⟨digitsValue whole, exponent⟩ := by
  have hspan := spanDigits_append hwhole (fun c tail h => (hrest c tail h).1)
  cases rest with
  | nil =>
      rw [List.append_nil] at hspan ⊢
      simp [readDecimal?, hspan, hne]
  | cons c tail =>
      have hc : c ≠ '.' := (hrest c tail rfl).2
      simp [readDecimal?, hspan, hne, hc]

/-- The exponent of the scientific form. -/
theorem readExponent_signed (exponent : Int) :
    readExponent ('e' :: ((if exponent < 0 then '-' else '+') :: Nat.toDigits 10 exponent.natAbs)) =
      some exponent := by
  have hdigits : (Nat.toDigits 10 exponent.natAbs).all Char.isDigit = true := by
    simpa using toDigits_all_isDigit exponent.natAbs
  have hne : (Nat.toDigits 10 exponent.natAbs).isEmpty = false := by
    simp [Nat.toDigits_ne_nil]
  split
  · simp [readExponent, hdigits, hne, -Nat.cast_natAbs]; omega
  · simp [readExponent, hdigits, hne, -Nat.cast_natAbs]; omega

-- ---------------------------------------------------------------------------
-- The two forms
-- ---------------------------------------------------------------------------

/-- The characters that numbers are written with. -/
def isNumberChar (c : Char) : Bool := c.isDigit || ['-', '+', '.', 'e'].contains c

theorem isNumberChar_of_isDigit {c : Char} (h : c.isDigit = true) : isNumberChar c = true := by
  rw [isNumberChar, h, Bool.true_or]

/-- A text that reads as a decimal of a value, starts with a digit, and has a point or an exponent. -/
structure Reads (cs : List Char) (value : ℚ) : Prop where
  digit : ∃ c rest, cs = c :: rest ∧ c.isDigit = true
  chars : ∀ c ∈ cs, isNumberChar c = true
  mark : '.' ∈ cs ∨ 'e' ∈ cs
  read : ∃ decimal, readDecimal? cs = some decimal ∧ decimal.value = value

theorem Reads.value_eq {cs : List Char} {x y : ℚ} (h : Reads cs x) (h' : Reads cs y) : x = y := by
  obtain ⟨decimal, hread, rfl⟩ := h.read
  obtain ⟨decimal', hread', rfl⟩ := h'.read
  rw [hread] at hread'
  cases hread'
  rfl

theorem digit_first_append {digits rest : List Char} (hdigits : ∀ c ∈ digits, c.isDigit = true)
    (hne : digits ≠ []) : ∃ c tail, digits ++ rest = c :: tail ∧ c.isDigit = true := by
  cases digits with
  | nil => exact absurd rfl hne
  | cons c digits => exact ⟨c, digits ++ rest, rfl, hdigits c List.mem_cons_self⟩

theorem chars_point {whole fraction : List Char} (hwhole : ∀ c ∈ whole, c.isDigit = true)
    (hfraction : ∀ c ∈ fraction, c.isDigit = true) : ∀ c ∈ whole ++ '.' :: fraction, isNumberChar c = true := by
  intro c hc
  rcases List.mem_append.mp hc with hc | hc
  · exact isNumberChar_of_isDigit (hwhole c hc)
  · rcases List.mem_cons.mp hc with rfl | hc
    · decide
    · exact isNumberChar_of_isDigit (hfraction c hc)

theorem toList_zeros (n : Nat) : (zeros n).toList = List.replicate n '0' := String.toList_ofList

theorem toList_toString (n : Nat) : (toString n).toList = Nat.toDigits 10 n := Nat.toList_repr

/-- Digits with leading zeros for at least `places + 1` characters. -/
def padded (digits places : Nat) : List Char :=
  List.replicate (places + 1 - (Nat.toDigits 10 digits).length) '0' ++ Nat.toDigits 10 digits

theorem padded_all_isDigit (digits places : Nat) : ∀ c ∈ padded digits places, c.isDigit = true := by
  intro c h
  rcases List.mem_append.mp h with h | h
  · exact replicate_all_isDigit _ c h
  · exact toDigits_all_isDigit _ c h

theorem lt_length_padded (digits places : Nat) : places < (padded digits places).length := by
  simp only [padded, List.length_append, List.length_replicate]
  omega

theorem digitsValue_padded (digits places : Nat) : digitsValue (padded digits places) = digits := by
  rw [digitsValue_eq, padded, Nat.ofDigitChars_append, Nat.ofDigitChars_replicate_zero, Nat.mul_zero,
    Nat.ofDigitChars_ten_toDigits]

/-- The positional form of a decimal that is no integer. -/
theorem positionalDigits_of_neg {decimal : Decimal} {places : Nat} (h : ¬ 0 ≤ decimal.exponent)
    (hplaces : (-decimal.exponent).toNat = places) (whole : String) :
    (positionalDigits whole decimal).toList =
      (padded decimal.digits places).take ((padded decimal.digits places).length - places) ++
        '.' :: (padded decimal.digits places).drop ((padded decimal.digits places).length - places) := by
  have hpadded : (if (toString decimal.digits).length ≤ places then
      zeros (places + 1 - (toString decimal.digits).length) ++ toString decimal.digits
      else toString decimal.digits).toList = padded decimal.digits places := by
    simp only [padded, ← String.length_toList, toList_toString]
    split
    · rw [String.toList_append, toList_zeros, toList_toString]
    · rename_i hlen
      rw [toList_toString, show places + 1 - (Nat.toDigits 10 decimal.digits).length = 0 by omega]
      rfl
  simp only [positionalDigits, if_neg h, hplaces, hpadded]
  simp

theorem reads_positional (decimal : Decimal) :
    Reads (positionalDigits ".0" decimal).toList decimal.value := by
  by_cases h : 0 ≤ decimal.exponent
  · obtain ⟨n, hn⟩ := Int.eq_ofNat_of_zero_le h
    have htext : (positionalDigits ".0" decimal).toList =
        (Nat.toDigits 10 decimal.digits ++ List.replicate n '0') ++ '.' :: (['0'] ++ []) := by
      simp only [positionalDigits, if_pos h]
      rw [hn, Int.toNat_natCast, String.toList_append, String.toList_append, toList_toString, toList_zeros]
      rfl
    have hdigits : ∀ c ∈ Nat.toDigits 10 decimal.digits ++ List.replicate n '0', c.isDigit = true := by
      intro c hc
      rcases List.mem_append.mp hc with hc | hc
      · exact toDigits_all_isDigit _ c hc
      · exact replicate_all_isDigit n c hc
    have hne : Nat.toDigits 10 decimal.digits ++ List.replicate n '0' ≠ [] := by
      simp [Nat.toDigits_ne_nil]
    rw [htext]
    have hzero : ∀ c ∈ ['0'], c.isDigit = true := by simp
    have hnil : NoDigitFirst [] := nofun
    have hread := readDecimal?_point hdigits hne hzero hnil
    refine ⟨digit_first_append hdigits hne, chars_point hdigits hzero, .inl (by simp), _, hread, ?_⟩
    have hvalue : digitsValue (Nat.toDigits 10 decimal.digits ++ List.replicate n '0' ++ ['0']) =
        decimal.digits * 10 ^ n * 10 := by
      rw [digitsValue_eq, Nat.ofDigitChars_append, Nat.ofDigitChars_append, Nat.ofDigitChars_ten_toDigits,
        Nat.ofDigitChars_replicate_zero, Nat.ofDigitChars_cons, Nat.ofDigitChars_nil]
      simp [mul_comm]
    simp only [Decimal.value, hvalue, hn]
    simp
  · obtain ⟨places, hplaces⟩ : ∃ places, (-decimal.exponent).toNat = places := ⟨_, rfl⟩
    have hcs := positionalDigits_of_neg h hplaces ".0"
    have hall := padded_all_isDigit decimal.digits places
    have hlen := lt_length_padded decimal.digits places
    have hvalue := digitsValue_padded decimal.digits places
    generalize padded decimal.digits places = cs at hcs hall hlen hvalue
    have hwhole : ∀ c ∈ cs.take (cs.length - places), c.isDigit = true :=
      fun c hc => hall c (List.mem_of_mem_take hc)
    have hne : cs.take (cs.length - places) ≠ [] := by
      rw [← List.length_pos_iff, List.length_take]; omega
    have hfraction : ∀ c ∈ cs.drop (cs.length - places), c.isDigit = true :=
      fun c hc => hall c (List.mem_of_mem_drop hc)
    have hnil : NoDigitFirst [] := nofun
    have hread := readDecimal?_point hwhole hne hfraction hnil
    rw [List.append_nil] at hread
    rw [hcs]
    refine ⟨digit_first_append hwhole hne, chars_point hwhole hfraction, .inl (by simp), _, hread, ?_⟩
    have hexponent : ((cs.drop (cs.length - places)).length : Int) = -decimal.exponent := by
      rw [List.length_drop]; omega
    simp only [Decimal.value, List.take_append_drop, hvalue, hexponent]
    simp

theorem reads_scientific (decimal : Decimal) : Reads (scientificDigits decimal).toList decimal.value := by
  have hall := toDigits_all_isDigit decimal.digits
  have hvalue := digitsValue_toDigits decimal.digits
  obtain ⟨first, rest, hdigits⟩ := List.exists_cons_of_ne_nil (Nat.toDigits_ne_nil (n := decimal.digits) (b := 10))
  rw [hdigits] at hall hvalue
  have hsplit : (toString decimal.digits).toList = first :: rest := by rw [toList_toString, hdigits]
  have hexponent := readExponent_signed (decimal.exponent + rest.length)
  have hrest : ∀ c tail, 'e' :: ((if decimal.exponent + rest.length < 0 then '-' else '+') ::
      Nat.toDigits 10 (decimal.exponent + rest.length).natAbs) = c :: tail → c.isDigit = false ∧ c ≠ '.' := by
    intro c tail h
    cases h
    decide
  have htext : (scientificDigits decimal).toList = first :: ((if rest.isEmpty then [] else '.' :: rest) ++
      'e' :: ((if decimal.exponent + rest.length < 0 then '-' else '+') ::
        Nat.toDigits 10 (decimal.exponent + rest.length).natAbs)) := by
    simp only [scientificDigits, hsplit]
    split <;> split <;> simp [*]
  have hfirst : ∀ c ∈ [first], c.isDigit = true := by
    intro c hc
    rw [List.mem_singleton.mp hc]
    exact hall first List.mem_cons_self
  have hchars : ∀ c ∈ first :: ((if rest.isEmpty then [] else '.' :: rest) ++
      'e' :: ((if decimal.exponent + rest.length < 0 then '-' else '+') ::
        Nat.toDigits 10 (decimal.exponent + rest.length).natAbs)), isNumberChar c = true := by
    intro c hc
    have hsign : isNumberChar (if decimal.exponent + rest.length < 0 then '-' else '+') = true := by
      split <;> decide
    simp only [List.mem_cons, List.mem_append] at hc
    rcases hc with rfl | hc | rfl | rfl | hc
    · exact isNumberChar_of_isDigit (hall c List.mem_cons_self)
    · split at hc
      · cases hc
      · rcases List.mem_cons.mp hc with rfl | hc
        · decide
        · exact isNumberChar_of_isDigit (hall c (List.mem_cons_of_mem _ hc))
    · decide
    · exact hsign
    · exact isNumberChar_of_isDigit (toDigits_all_isDigit _ c hc)
  rw [htext]
  refine ⟨⟨first, _, rfl, hall first List.mem_cons_self⟩, hchars, .inr (by simp), ?_⟩
  clear hchars htext
  cases rest with
  | nil =>
      refine ⟨_, (readDecimal?_whole hfirst (by simp) hrest).trans (congrArg _ hexponent), ?_⟩
      simp only [Decimal.value, hvalue, List.length_nil, Nat.cast_zero, Int.add_zero]
  | cons second rest =>
      have hfraction : ∀ c ∈ second :: rest, c.isDigit = true := fun c hc => hall c (List.mem_cons_of_mem _ hc)
      have hread := readDecimal?_point hfirst (by simp) hfraction fun c tail h => (hrest c tail h).1
      refine ⟨_, hread.trans (congrArg _ hexponent), ?_⟩
      simp only [Decimal.value, List.singleton_append, hvalue, Int.add_sub_cancel]

-- ---------------------------------------------------------------------------
-- Numbers
-- ---------------------------------------------------------------------------

/-- The text of a magnitude, without a sign. -/
def magnitudeText (magnitude : Magnitude) : String :=
  let decimal := shortest .even magnitude
  let leading : Int := decimal.exponent + digitCount decimal.digits - 1
  if magnitude.val = 0 ∨ (-5 ≤ leading ∧ leading ≤ 15) then positionalDigits ".0" decimal
  else scientificDigits decimal

theorem toList_jsonText (negative : Bool) (magnitude : Magnitude) :
    (jsonText (.finite negative magnitude)).toList =
      (if negative then ['-'] else []) ++ (magnitudeText magnitude).toList := by
  simp only [jsonText, magnitudeText, String.toList_append]
  cases negative <;> rfl

theorem reads_magnitudeText (magnitude : Magnitude) :
    Reads (magnitudeText magnitude).toList (shortest .even magnitude).value := by
  unfold magnitudeText
  dsimp only
  split
  · exact reads_positional _
  · exact reads_scientific _

/-- The texts of finite numbers: a minus or a digit, and only characters of numbers. -/
theorem jsonText_first (negative : Bool) (magnitude : Magnitude) :
    ∃ c rest, (jsonText (.finite negative magnitude)).toList = c :: rest ∧ (c.isDigit = true ∨ c = '-') := by
  obtain ⟨c, rest, hc, hdigit⟩ := (reads_magnitudeText magnitude).digit
  rw [toList_jsonText, hc]
  cases negative with
  | false => exact ⟨c, rest, rfl, .inl hdigit⟩
  | true => exact ⟨'-', c :: rest, rfl, .inr rfl⟩

theorem jsonText_chars (negative : Bool) (magnitude : Magnitude) :
    ∀ c ∈ (jsonText (.finite negative magnitude)).toList, isNumberChar c = true := by
  intro c hc
  rw [toList_jsonText] at hc
  rcases List.mem_append.mp hc with hc | hc
  · cases negative with
    | false => cases hc
    | true => rw [List.mem_singleton.mp hc]; decide
  · exact (reads_magnitudeText magnitude).chars c hc

theorem jsonText_mark (negative : Bool) (magnitude : Magnitude) :
    '.' ∈ (jsonText (.finite negative magnitude)).toList ∨ 'e' ∈ (jsonText (.finite negative magnitude)).toList := by
  rw [toList_jsonText]
  exact (reads_magnitudeText magnitude).mark.imp (List.mem_append_right _) (List.mem_append_right _)

/-- Different finite numbers have different texts. -/
theorem jsonText_injective {a b : Number} (ha : a.isFinite = true) (hb : b.isFinite = true)
    (h : a.jsonText = b.jsonText) : a = b := by
  cases a with
  | nan => cases ha
  | infinity negative => cases ha
  | finite negative magnitude => cases b with
    | nan => cases hb
    | infinity negative => cases hb
    | finite negative' magnitude' =>
        have htext := congrArg String.toList h
        rw [toList_jsonText, toList_jsonText] at htext
        have hreads := reads_magnitudeText magnitude
        have hreads' := reads_magnitudeText magnitude'
        obtain ⟨c, rest, hc, hdigit⟩ := hreads.digit
        obtain ⟨c', rest', hc', hdigit'⟩ := hreads'.digit
        have hminus : Char.isDigit '-' = false := by decide
        cases negative <;> cases negative' <;> simp only [if_true, Bool.false_eq_true, if_false,
          List.nil_append, List.singleton_append] at htext
        · rw [htext] at hreads
          rw [shortest_value_injective (hreads.value_eq hreads')]
        · rw [hc] at htext
          cases htext
          rw [hminus] at hdigit
          cases hdigit
        · rw [hc'] at htext
          cases htext
          rw [hminus] at hdigit'
          cases hdigit'
        · rw [List.cons.inj htext |>.2] at hreads
          rw [shortest_value_injective (hreads.value_eq hreads')]

end SchemaAlgebra.Number
