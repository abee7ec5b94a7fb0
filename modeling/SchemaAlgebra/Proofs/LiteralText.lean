-- SUMMARY: Encodings of literals: one for every value up to the sign of zero.
import SchemaAlgebra.Literal
import SchemaAlgebra.Proofs.CompactText
import SchemaAlgebra.Proofs.Naming

/-!
# Encodings of literals

Two values have one encoding exactly if they differ at most in the sign of zero.
The encodings that are JSON strings are told apart by their last character.
-/

namespace SchemaAlgebra

/-- The value with a zero made positive. -/
def Value.unsigned : Value → Value
  | .number n => .number n.unsigned
  | v => v

namespace Literal

open Number (signed unitsAt unitsPerOne)

-- ---------------------------------------------------------------------------
-- Numbers
-- ---------------------------------------------------------------------------

theorem scaled?_of_toInt? {n : Number} {i : Int} (h : n.toInt? = some i) : n.scaled? = some (i * unitsPerOne) := by
  cases n with
  | nan => cases h
  | infinity negative => cases h
  | finite negative magnitude =>
      simp only [Number.toInt?] at h
      split at h
      · rename_i hmod
        obtain ⟨whole, hwhole⟩ := Nat.dvd_of_mod_eq_zero hmod
        rw [hwhole, Nat.mul_div_cancel_left whole Number.unitsPerOne_pos] at h
        cases h
        simp only [Number.scaled?, hwhole]
        generalize unitsPerOne = one
        cases negative <;> simp [signed, mul_comm]
      · cases h

theorem encodeNumber_ofPlace_zero (negative : Bool) : encodeNumber (.ofPlace negative 0) = .integer 0 := by
  have hint : (Number.ofPlace negative 0).toInt? = some 0 := by
    simp only [Number.ofPlace_zero, Number.toInt?, Number.unitsAt_zero, Nat.zero_mod, if_true, Nat.zero_div]
    cases negative <;> rfl
  simp only [encodeNumber, hint]
  rfl

@[simp] theorem encodeNumber_unsigned (n : Number) : encodeNumber n.unsigned = encodeNumber n := by
  unfold Number.unsigned
  split
  · obtain ⟨negative, rfl⟩ := Number.eq_zero_of_isZero ‹_›
    rw [encodeNumber_ofPlace_zero, encodeNumber_ofPlace_zero]
  · rfl

/-- What an encoded number looks like. -/
theorem encodeNumber_cases (n : Number) :
    (∃ i, encodeNumber n = .integer i ∧ n.toInt? = some i) ∨ (encodeNumber n = .real n ∧ n.isFinite = true) ∨
      (n.isFinite = false ∧ encodeNumber n = .string n.display) := by
  unfold encodeNumber
  split
  · rename_i i hint
    split
    · exact .inl ⟨i, rfl, hint⟩
    · refine .inr (.inl ⟨rfl, ?_⟩)
      cases n <;> first | rfl | cases hint
  · split
    · rename_i hfinite; exact .inr (.inl ⟨rfl, hfinite⟩)
    · rename_i hfinite; exact .inr (.inr ⟨by simpa using hfinite, rfl⟩)

theorem isFinite_encodeNumber (n : Number) : (encodeNumber n).isFinite = true := by
  rcases encodeNumber_cases n with ⟨i, h, -⟩ | ⟨h, hfinite⟩ | ⟨-, h⟩ <;> rw [h]
  · rfl
  · exact hfinite
  · rfl

theorem display_injective {a b : Number} (ha : a.isFinite = false) (hb : b.isFinite = false)
    (h : a.display = b.display) : a = b := by
  have hnan : ∀ negative, Number.display .nan ≠ Number.display (.infinity negative) := by decide
  have hsign : ∀ s t, Number.display (.infinity s) = Number.display (.infinity t) → s = t := by decide
  cases a with
  | finite negative magnitude => cases ha
  | nan => cases b with
    | nan => rfl
    | infinity negative => exact absurd h (hnan negative)
    | finite negative magnitude => cases hb
  | infinity negative => cases b with
    | nan => exact absurd h.symm (hnan negative)
    | infinity negative' => rw [hsign negative negative' h]
    | finite negative' magnitude => cases hb

theorem encodeNumber_injective {a b : Number} (h : encodeNumber a = encodeNumber b) : a.unsigned = b.unsigned := by
  rcases encodeNumber_cases a with ⟨i, ha, hi⟩ | ⟨ha, -⟩ | ⟨hf, ha⟩ <;>
    rcases encodeNumber_cases b with ⟨j, hb, hj⟩ | ⟨hb, -⟩ | ⟨hf', hb⟩ <;> rw [ha, hb] at h
  · rw [Json.integer.inj h] at hi
    exact Number.unsigned_eq_of_scaled? (scaled?_of_toInt? hi) (scaled?_of_toInt? hj)
  · cases h
  · cases h
  · cases h
  · rw [Json.real.inj h]
  · cases h
  · cases h
  · cases h
  · rw [display_injective hf hf' (Json.string.inj h)]

/-- Numbers that compare as equal have one encoding. -/
theorem encodeNumber_of_equals {a b : Number} (h : a.equals b = true) : encodeNumber a = encodeNumber b := by
  rw [← encodeNumber_unsigned a, Number.unsigned_eq_of_equals h, encodeNumber_unsigned]

-- ---------------------------------------------------------------------------
-- Values
-- ---------------------------------------------------------------------------

/-- What the last character of a string tells about the value that it encodes. -/
inductive Mark where
  | string
  | undefined
  | number
  | bigint
  | identity
  deriving DecidableEq

def markOf? (c : Char) : Option Mark :=
  if c.isDigit then some .identity
  else match c with
    | '"' => some .string
    | 'd' => some .undefined
    | 'N' | 'y' => some .number
    | 'n' => some .bigint
    | _ => none

def mark? : Value → Option Mark
  | .string _ => some .string
  | .undefined => some .undefined
  | .number _ => some .number
  | .bigint _ => some .bigint
  | .symbol _ | .object _ => some .identity
  | .null | .boolean _ => none

theorem markOf?_of_isDigit {c : Char} (h : c.isDigit = true) : markOf? c = some .identity := by
  simp only [markOf?, h, if_true]

/-- The registry knows a value if its encoding needs a name. -/
def Named (registry : Registry) (v : Value) : Prop :=
  v.isSerializable = false → registry.Knows (.value v)

/-- What an encoding tells about its value. -/
def markIn? : Json → Option Mark
  | .string text => text.toList.getLast?.bind markOf?
  | .integer _ | .real _ => some .number
  | _ => none

theorem markIn?_encode {registry : Registry} (hlawful : registry.Lawful) {v : Value} (hv : Named registry v) :
    markIn? (encode registry v) = mark? v := by
  have identity (h : registry.Knows (.value v)) :
      markIn? (.string (registry.reference (.value v))) = some .identity := by
    obtain ⟨c, hlast, hdigit⟩ := Registry.reference_value hlawful h
    simp only [markIn?, hlast, Option.bind_some, markOf?_of_isDigit hdigit]
  cases v with
  | null => rfl
  | boolean b => rfl
  | undefined => exact (by decide : markIn? (.string "undefined") = some .undefined)
  | string s =>
      have hlast : (Json.quote s).toList.getLast? = some '"' := by
        rw [Json.toList_quote, List.getLast?_cons, List.getLast?_append]
        rfl
      simp only [encode, serialize?, markIn?, hlast]
      rfl
  | bigint n =>
      have hlast : (Value.bigintText n).toList.getLast? = some 'n' := by
        rw [Value.bigintText, String.toList_append, List.getLast?_append]
        rfl
      simp only [encode, serialize?, markIn?, hlast]
      rfl
  | number n =>
      change markIn? (encodeNumber n) = some .number
      rcases encodeNumber_cases n with ⟨i, hn, -⟩ | ⟨hn, -⟩ | ⟨hf, hn⟩ <;> rw [hn]
      · rfl
      · rfl
      · cases n with
        | nan => decide
        | infinity negative => cases negative <;> decide
        | finite negative magnitude => cases hf
  | symbol s => exact identity (hv rfl)
  | object o => exact identity (hv rfl)

@[simp] theorem encode_unsigned (registry : Registry) (v : Value) :
    encode registry v.unsigned = encode registry v := by
  cases v with
  | number n => exact encodeNumber_unsigned n
  | _ => rfl

theorem isFinite_encode (registry : Registry) (v : Value) : (encode registry v).isFinite = true := by
  cases v with
  | number n => exact isFinite_encodeNumber n
  | _ => rfl

/-- Values with one encoding differ at most in the sign of zero. -/
theorem encode_injective {registry : Registry} (hlawful : registry.Lawful) {v w : Value} (hv : Named registry v)
    (hw : Named registry w) (h : encode registry v = encode registry w) : v.unsigned = w.unsigned := by
  have hmark := congrArg markIn? h
  rw [markIn?_encode hlawful hv, markIn?_encode hlawful hw] at hmark
  have identity {v w : Value} (hv : registry.Knows (.value v)) (hw : registry.Knows (.value w))
      (h : Json.string (registry.reference (.value v)) = .string (registry.reference (.value w))) : v = w :=
    Registered.value.inj (Registry.reference_injective hlawful hv hw (Json.string.inj h))
  cases v <;> cases w <;> cases hmark
  · rfl
  · rfl
  · cases h
  · cases h
  · cases h; rfl
  · rw [Value.unsigned, Value.unsigned, encodeNumber_injective h]
  · rename_i m n
    have htext := congrArg String.toList (Json.string.inj h)
    simp only [Value.bigintText, String.toList_append] at htext
    rw [Json.integer_injective (List.append_cancel_right htext)]
  · rw [Json.quote_injective (Json.string.inj h)]
  · rw [identity (hv rfl) (hw rfl) h]
  · cases identity (hv rfl) (hw rfl) h
  · cases identity (hv rfl) (hw rfl) h
  · rw [identity (hv rfl) (hw rfl) h]

end Literal

end SchemaAlgebra
