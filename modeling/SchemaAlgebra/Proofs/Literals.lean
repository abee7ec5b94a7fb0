-- SUMMARY: Encodings of literals read back: each gives its value again, whatever was registered since, and no other.
import SchemaAlgebra.Definition.Reader
import SchemaAlgebra.Proofs.Acceptance
import SchemaAlgebra.Proofs.References

/-!
# Literals read back

Encodings that are JSON strings share one space of texts with strings, keywords and
references, which reading tells apart in a fixed order: a quote in front, then the
keywords, then a bigint, then a reference. The last character of an encoding decides
between all but the first, and no reference begins with a quote unless the qualifier
of all references does.
-/

namespace SchemaAlgebra

namespace Value

/-- One literal: strictly equal, or both NaN. -/
def Agrees (v w : Value) : Prop := v.strictlyEquals w = true ∨ v = .number .nan ∧ w = .number .nan

/-- Whether a bigint has the size of one. -/
def fits : Value → Bool
  | .bigint n => decide (-(2 ^ 127) ≤ n ∧ n < 2 ^ 127)
  | _ => true

theorem agrees_iff {v w : Value} : v.Agrees w ↔ v.unsigned = w.unsigned := by
  rw [← isUnitFor_iff, Agrees]
  by_cases hv : v = .number .nan
  · subst hv
    cases w with
    | number n =>
        cases n <;>
          simp [isUnitFor, strictlyEquals, Number.isNaN, Number.equals, Number.compareWith, Number.scaled?]
    | _ => simp [isUnitFor, strictlyEquals]
  · have hunit : v.isUnitFor w = v.strictlyEquals w := by
      unfold isUnitFor
      split
      · exact absurd rfl hv
      · rfl
    simp [hunit, hv]

end Value

-- ---------------------------------------------------------------------------
-- References
-- ---------------------------------------------------------------------------

namespace Registry

variable {earlier later : Registry} {thing : Registered}

/-- The reference that a thing has or would get is the one that it got. -/
theorem reference_register (hlawful : earlier.Lawful) (hid : thing.hasIdentity = true) :
    (earlier.register thing).2.reference thing = earlier.reference thing := by
  rw [reference_eq hid ((register_issued hlawful thing).nameOf? hid), (register_extends earlier thing).qualifier]
  rfl

/-- The reference of a thing that was registered stands for it. -/
theorem Descends.resolve?_reference (hlawful : earlier.Lawful) (h : later.Descends (earlier.register thing).2) :
    later.resolve? (earlier.reference thing) = some thing := by
  have hqualifier : later.qualifier = earlier.qualifier :=
    h.extends.qualifier.trans (register_extends earlier thing).qualifier
  have hreference : earlier.reference thing = later.qualify (earlier.register thing).1 := by
    rw [reference, qualify, qualify, hqualifier]
  rw [hreference, resolve?_qualify]
  exact h.lookup (register_lawful hlawful thing) (register_issued hlawful thing).lookup

theorem isReference_of_resolve? {registry : Registry} {text : String} (h : registry.resolve? text = some thing) :
    registry.isReference text = true := by
  obtain ⟨name, hname, -⟩ := Option.bind_eq_some_iff.mp h
  rw [isReference, hname, Option.isSome_some]

/-- A reference begins with a quote only if the qualifier does. -/
theorem head?_reference (registry : Registry) (thing : Registered) (h : registry.qualifier.toList.head? ≠ some '"') :
    (registry.reference thing).toList.head? ≠ some '"' := by
  rw [reference, qualify, String.toList_append, String.toList_append]
  cases hchars : registry.qualifier.toList with
  | nil => simp
  | cons c rest => simpa [hchars] using h

end Registry

namespace Literal

variable {registry earlier later : Registry} {text : String} {v w : Value}

-- ---------------------------------------------------------------------------
-- Decoding
-- ---------------------------------------------------------------------------

theorem decode?_quote (registry : Registry) (s : String) : decode? registry (Json.quote s) = some (.string s) := by
  have hblanks : Json.skipBlanks (Json.quote s).toList = (Json.quote s).toList ++ [] := by
    rw [Json.toList_quote, List.append_nil]
    rfl
  have hparse : Json.parseString? (Json.quote s) = some s := by
    rw [Json.parseString?, hblanks, Json.readString?_quote]
    rfl
  have hhead : (Json.quote s).toList.head? = some '"' := by rw [Json.toList_quote, List.head?_cons]
  unfold decode?
  rw [if_pos hhead, hparse]
  rfl

/-- A text that ends like no keyword is a bigint, or else a reference or a string. -/
theorem decode?_of_mark (hhead : text.toList.head? ≠ some '"') (hundefined : markIn? (.string text) ≠ some .undefined)
    (hnumber : markIn? (.string text) ≠ some .number) : decode? registry text =
      match readBigint? text with
      | some n => some (.bigint n)
      | none => if registry.isReference text then registry.resolveValue? text else some (.string text) := by
  have hkeyword {keyword : String} {mark : Mark} (hmark : markIn? (.string text) ≠ some mark)
      (hin : markIn? (.string keyword) = some mark) : text ≠ keyword := by
    rintro rfl
    exact hmark hin
  unfold decode?
  rw [if_neg hhead]
  split
  · exact absurd rfl (hkeyword hundefined (by decide))
  · exact absurd rfl (hkeyword hnumber (by decide))
  · exact absurd rfl (hkeyword hnumber (by decide))
  · exact absurd rfl (hkeyword hnumber (by decide))
  · rfl

theorem readBigint?_eq_none (h : markIn? (.string text) ≠ some .bigint) : readBigint? text = none := by
  unfold readBigint?
  split
  · rename_i body hreverse
    refine absurd ?_ h
    rw [markIn?, ← List.head?_reverse, hreverse]
    rfl
  · rfl

/-- The text of a bigint of 128 bits is read as the bigint. -/
theorem readBigint?_bigintText {n : Int} (hlow : -(2 ^ 127) ≤ n) (hhigh : n < 2 ^ 127) :
    readBigint? (Value.bigintText n) = some n := by
  have hreverse : (Value.bigintText n).toList.reverse = 'n' :: (toString n).toList.reverse := by
    rw [Value.bigintText, String.toList_append, List.reverse_append]
    rfl
  have hdigits := Number.toDigits_all_isDigit n.natAbs
  have hall : (Nat.toDigits 10 n.natAbs).all Char.isDigit = true := List.all_eq_true.mpr hdigits
  have hnonempty : (Nat.toDigits 10 n.natAbs).isEmpty = false := List.isEmpty_eq_false_iff.mpr Nat.toDigits_ne_nil
  simp only [readBigint?, hreverse, List.reverse_reverse, Json.toList_integer]
  rcases lt_or_ge n 0 with hn | hn
  · have hsize : n.natAbs ≤ Nat.pow 2 127 := by rw [Nat.pow_eq]; omega
    have hvalue : -|n| = n := by rw [abs_of_neg hn, neg_neg]
    simp [hn, hall, hnonempty, hsize, hvalue]
  · have hsize : n.natAbs < Nat.pow 2 127 := by rw [Nat.pow_eq]; omega
    have hvalue : (n.natAbs : Int) = n := by omega
    simp only [hn.not_gt, if_false, List.nil_append]
    split
    · rename_i hminus
      exact absurd (hdigits '-' (by rw [hminus]; exact List.mem_cons_self)) (by decide)
    · simp [hall, hnonempty, hsize, hvalue]

theorem encodeNumber_eq_integer {n : Number} {i : Int} (h : encodeNumber n = .integer i) :
    n.toInt? = some i ∧ i.natAbs < 2 ^ 53 := by
  unfold encodeNumber at h
  split at h
  · rename_i hint
    split at h
    · rename_i hsmall
      obtain rfl := Json.integer.inj h
      exact ⟨hint, hsmall⟩
    · cases h
  · split at h <;> cases h

-- ---------------------------------------------------------------------------
-- Encodings in later registries
-- ---------------------------------------------------------------------------

/-- The encoding of a value is the same in all registries in which it was registered. -/
theorem encode_descends (hlawful : earlier.Lawful)
    (h : later.Descends (earlier.registerAll (Content.unit v : Content Node).identities)) :
    encode later v = encode earlier v := by
  have identity (hid : v.isSerializable = false)
      (h : later.Descends (earlier.register (.value v)).2) :
      later.reference (.value v) = earlier.reference (.value v) := by
    have hthing : (Registered.value v).hasIdentity = true := by simp [Registered.hasIdentity, hid]
    rw [Registry.reference_extends (Registry.register_knows earlier hthing) h.extends,
      Registry.reference_register hlawful hthing]
  cases v with
  | symbol s => exact congrArg Json.string (identity rfl h)
  | object o => exact congrArg Json.string (identity rfl h)
  | _ => rfl

theorem named_descends (h : later.Descends (earlier.registerAll (Content.unit v : Content Node).identities)) :
    Named later v := by
  intro hid
  have hthing : (Registered.value v).hasIdentity = true := by simp [Registered.hasIdentity, hid]
  have hmem : .value v ∈ (Content.unit v : Content Node).identities := by simp [Content.identities, hid]
  exact (Registry.registerAll_knows earlier hmem hthing).mono h.extends

/-- An identity is read from its reference. -/
theorem decode?_reference (hlawful : earlier.Lawful) (hquote : earlier.qualifier.toList.head? ≠ some '"')
    (hid : v.isSerializable = false) (h : later.Descends (earlier.register (.value v)).2) :
    decode? later (earlier.reference (.value v)) = some v := by
  have hthing : (Registered.value v).hasIdentity = true := by simp [Registered.hasIdentity, hid]
  have hmark : markIn? (.string (earlier.reference (.value v))) = some .identity := by
    obtain ⟨c, hlast, hdigit⟩ := Registry.reference_value (Registry.register_lawful hlawful _)
      (Registry.register_knows earlier hthing)
    rw [Registry.reference_register hlawful hthing] at hlast
    rw [markIn?, hlast, Option.bind_some, markOf?_of_isDigit hdigit]
  have hresolve := h.resolve?_reference hlawful
  rw [decode?_of_mark (Registry.head?_reference earlier _ hquote) (by rw [hmark]; decide) (by rw [hmark]; decide),
    readBigint?_eq_none (by rw [hmark]; decide)]
  simp only [Registry.isReference_of_resolve? hresolve, if_true, Registry.resolveValue?, hresolve]

theorem decode?_bigint (registry : Registry) {n : Int} (hlow : -(2 ^ 127) ≤ n) (hhigh : n < 2 ^ 127) :
    decode? registry (Value.bigintText n) = some (.bigint n) := by
  have hmark : markIn? (.string (Value.bigintText n)) = some .bigint :=
    markIn?_encode (Registry.lawful_empty "") (v := .bigint n) nofun
  have hhead : (Value.bigintText n).toList.head? ≠ some '"' := by
    intro hhead
    have hmem := List.mem_of_head? hhead
    rw [Value.bigintText, String.toList_append] at hmem
    rcases List.mem_append.mp hmem with hmem | hmem
    · exact absurd (Json.integer_chars n '"' hmem) (by decide)
    · exact absurd hmem (by decide)
  rw [decode?_of_mark hhead (by rw [hmark]; decide) (by rw [hmark]; decide), readBigint?_bigintText hlow hhigh]

end Literal

namespace Definition

open Literal

/-- A finite number is read from its encoding up to the sign of zero. -/
theorem ofJson_encodeNumber {n : Number} (h : n.isFinite = true) :
    ∃ m, ofJson (encodeNumber n) = .number m ∧ m.isFinite = true ∧ m.unsigned = n.unsigned := by
  rcases encodeNumber_cases n with ⟨i, hn, hint⟩ | ⟨hn, -⟩ | ⟨hinfinite, -⟩
  · have hsmall := (encodeNumber_eq_integer hn).2
    have hequal : (Number.ofInt i).unsigned = n.unsigned :=
      Number.unsigned_eq_of_scaled? (Number.scaled?_ofInt hsmall.le) (scaled?_of_toInt? hint)
    refine ⟨.ofInt i, by rw [hn, ofJson], ?_, hequal⟩
    rw [← Number.isFinite_unsigned, hequal, Number.isFinite_unsigned, h]
  · exact ⟨n, by rw [hn, ofJson], h, rfl⟩
  · cases hinfinite.symm.trans h

/-- Any other number is encoded as a string. -/
theorem ofJson_encodeNumber_of_not_finite {n : Number} (h : n.isFinite = false) :
    ofJson (encodeNumber n) = .string n.display := by
  rcases encodeNumber_cases n with ⟨i, -, hint⟩ | ⟨-, hfinite⟩ | ⟨-, hn⟩
  · cases n with
    | finite negative magnitude => cases h
    | _ => cases hint
  · cases hfinite.symm.trans h
  · rw [hn, ofJson]

theorem readLiteral_string {space : Space} {text : String} {v : Value}
    (h : decode? space.registry text = some v) : (readLiteral (.string text)).exec space = (.ok v, space) := by
  have hregistry : registry.exec space = (.ok space.registry, space) := rfl
  rw [readLiteral, SpaceM.exec_bind, hregistry]
  dsimp only
  rw [h]
  rfl

/-- The encoding of a value is read as the value, in the space that it was written in and in every later one. -/
theorem readLiteral_encode {space later : Space} (hlawful : space.registry.Lawful)
    (hquote : space.registry.qualifier.toList.head? ≠ some '"') {v : Value} (hfits : v.fits = true)
    (h : later.registry.Descends (space.naming (.unit v)).registry) :
    ∃ w, (readLiteral (.ofJson (encode space.registry v))).exec later = (.ok w, later) ∧ w.Agrees v := by
  have exactly (hread : (readLiteral (.ofJson (encode space.registry v))).exec later = (.ok v, later)) :
      ∃ w, (readLiteral (.ofJson (encode space.registry v))).exec later = (.ok w, later) ∧ w.Agrees v :=
    ⟨v, hread, Value.agrees_iff.mpr rfl⟩
  cases v with
  | null => exact exactly rfl
  | boolean b => exact exactly rfl
  | undefined => exact exactly (readLiteral_string rfl)
  | string s => exact exactly (readLiteral_string (decode?_quote later.registry s))
  | bigint n =>
      obtain ⟨hlow, hhigh⟩ := of_decide_eq_true hfits
      exact exactly (readLiteral_string (decode?_bigint later.registry hlow hhigh))
  | symbol s => exact exactly (readLiteral_string (decode?_reference hlawful hquote rfl h))
  | object o => exact exactly (readLiteral_string (decode?_reference hlawful hquote rfl h))
  | number n =>
      change ∃ w, (readLiteral (.ofJson (encodeNumber n))).exec later = (.ok w, later) ∧ w.Agrees (.number n)
      cases hfinite : n.isFinite with
      | true =>
          obtain ⟨m, hm, -, hequal⟩ := ofJson_encodeNumber hfinite
          rw [hm]
          exact ⟨.number m, rfl, Value.agrees_iff.mpr (congrArg Value.number hequal)⟩
      | false =>
          rw [ofJson_encodeNumber_of_not_finite hfinite]
          refine ⟨.number n, readLiteral_string ?_, Value.agrees_iff.mpr rfl⟩
          cases n with
          | nan => rfl
          | infinity negative => cases negative <;> rfl
          | finite negative magnitude => cases hfinite

end Definition

namespace Space

open Definition Literal

variable [Behaviour] {space : Space}

/-- Literals are written and read without loss. The encoding of a value is read as a value strictly equal to it, or as
NaN if it is NaN, and it is the encoding of exactly the values that are. What was registered since makes no difference. -/
theorem Reachable.literal_bijection {adopting : Prop} (h : space.Reachable adopting)
    (hquote : space.registry.qualifier.toList.head? ≠ some '"') {v : Value} (hfits : v.fits = true) {later : Space}
    (hlater : later.Continues (space.naming (.unit v))) :
    (∃ w, (readLiteral (.ofJson (encode space.registry v))).exec later = (.ok w, later) ∧ w.Agrees v) ∧
      ∀ w, encode space.registry v = encode later.registry w ↔ v.Agrees w := by
  have hlawful := h.valid.lawful
  refine ⟨readLiteral_encode hlawful hquote hfits hlater.registry, fun w => ?_⟩
  have hlater' := hlater.registry.lawful (Registry.registerAll_lawful hlawful _)
  -- Once both are registered, both encodings are those of one registry.
  let final := later.registry.registerAll (Content.unit w : Content Node).identities
  have hfinal : final.Descends later.registry := .registerAll _ _
  have hdescends := hfinal.trans hlater.registry
  have hv : encode final v = encode space.registry v := encode_descends hlawful hdescends
  have hw : encode final w = encode later.registry w := encode_descends hlater' (.refl final)
  rw [Value.agrees_iff, ← hv, ← hw]
  constructor
  · exact encode_injective (hfinal.lawful hlater') (named_descends hdescends) (named_descends (.refl final))
  · intro heq
    rw [← encode_unsigned, heq, encode_unsigned]

omit [Behaviour] in
/-- A symbol is read from its reference, which is not the encoding of the string that spells it. -/
theorem symbol_reads_back :
    ((readLiteral (.string "$ark.symbol1")).exec ((new 0 .standard).naming (.unit (.symbol ⟨7, some "tag"⟩)))).1 =
        .ok (.symbol ⟨7, some "tag"⟩) ∧
      encode (new 0 .standard).registry (.symbol ⟨7, some "tag"⟩) ≠
        encode ((new 0 .standard).naming (.unit (.symbol ⟨7, some "tag"⟩))).registry (.string "$ark.symbol1") := by
  let _ := Stock.behaviour
  obtain ⟨⟨w, hread, hagrees⟩, honly⟩ := (@Reachable.new _ False 0 .standard).literal_bijection (by decide +kernel)
    (v := .symbol ⟨7, some "tag"⟩) rfl (.refl _)
  have hencoding : encode (new 0 .standard).registry (.symbol ⟨7, some "tag"⟩) = .string "$ark.symbol1" :=
    congrArg Json.string (by decide +kernel)
  rw [hencoding] at hread
  have hsymbol : w = .symbol ⟨7, some "tag"⟩ := by
    have hsame := Value.agrees_iff.mp hagrees
    cases w with
    | number n => cases hsame
    | _ => exact hsame
  refine ⟨?_, fun heq => ?_⟩
  · rw [hsymbol] at hread
    exact congrArg Prod.fst hread
  · rcases (honly _).mp heq with h | ⟨h, -⟩ <;> cases h

end Space

end SchemaAlgebra
