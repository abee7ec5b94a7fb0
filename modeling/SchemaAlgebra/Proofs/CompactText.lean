-- SUMMARY: Quoted strings read back, and different JSON documents have different compact texts.
import SchemaAlgebra.Json.Parser
import SchemaAlgebra.Proofs.NumberText

/-!
# Compact texts

A compact text tells where it ends: whatever follows is nothing, a comma or a
closing bracket. Two documents with a common text followed by such are equal, and
so is what follows. Numbers have to be finite, as others have no text.
-/

namespace SchemaAlgebra.Json

open Number (isNumberChar)

-- ---------------------------------------------------------------------------
-- Quoted strings
-- ---------------------------------------------------------------------------

theorem hexValue?_hexDigit : ∀ n < 16, hexValue? (hexDigit n) = some n := by decide

/-- A character stands for itself inside quotes, or is read back from an escape. -/
theorem escapeChar_cases (c : Char) :
    (escapeChar c = [c] ∧ c ≠ '"' ∧ c ≠ '\\' ∧ 32 ≤ c.toNat) ∨
      ∃ escape, escapeChar c = '\\' :: escape ∧
        ∀ strictness rest, readEscape? strictness (escape ++ rest) = some (c, rest) := by
  have ofNat_toNat (n : Nat) (h : c.toNat = n) : Char.ofNat n = c := by rw [← h, Char.ofNat_toNat]
  unfold escapeChar
  split
  · rename_i h; subst h; exact .inr ⟨_, rfl, fun _ _ => rfl⟩
  split
  · rename_i h; subst h; exact .inr ⟨_, rfl, fun _ _ => rfl⟩
  split
  · rename_i h; exact .inr ⟨_, rfl, fun _ _ => by rw [← ofNat_toNat 8 h]; rfl⟩
  split
  · rename_i h; exact .inr ⟨_, rfl, fun _ _ => by rw [← ofNat_toNat 12 h]; rfl⟩
  split
  · rename_i h; subst h; exact .inr ⟨_, rfl, fun _ _ => rfl⟩
  split
  · rename_i h; subst h; exact .inr ⟨_, rfl, fun _ _ => rfl⟩
  split
  · rename_i h; subst h; exact .inr ⟨_, rfl, fun _ _ => rfl⟩
  split
  · rename_i h
    refine .inr ⟨_, rfl, fun strictness rest => ?_⟩
    have hzero : hexValue? '0' = some 0 := by decide
    have hhigh := hexValue?_hexDigit (c.toNat / 16) (by omega)
    have hlow := hexValue?_hexDigit (c.toNat % 16) (by omega)
    have hunit : c.toNat / 16 * 16 + c.toNat % 16 = c.toNat := by omega
    simp [readEscape?, readUnicodeEscape?, readUnit?, hzero, hhigh, hlow, hunit,
      show c.toNat < 0xD800 by omega]
  · rename_i hquote hslash _ _ _ _ _ hcontrol
    exact .inl ⟨rfl, hquote, hslash, by omega⟩

/-- A string is read back from between its quotes. -/
theorem readQuoted?_escaped (strictness : Strictness) (cs rest : List Char) (fuel : Nat)
    (h : cs.length < fuel) :
    readQuoted? strictness fuel (cs.flatMap escapeChar ++ '"' :: rest) = some (cs, rest) := by
  induction cs generalizing fuel with
  | nil =>
      obtain ⟨fuel, rfl⟩ := Nat.exists_eq_add_of_lt h
      simp [readQuoted?]
  | cons c cs ih =>
      obtain ⟨fuel, rfl⟩ : ∃ more, fuel = more + 1 := ⟨fuel - 1, by omega⟩
      have ih := ih fuel (by simpa using h)
      rcases escapeChar_cases c with ⟨hc, hquote, hslash, hcontrol⟩ | ⟨escape, hc, hread⟩
      · simp [hc, readQuoted?, hquote, hslash, show ¬ c.toNat < 32 by omega, ih]
      · simp [hc, readQuoted?, hread, ih]

theorem toList_quote (s : String) : (quote s).toList = '"' :: (s.toList.flatMap escapeChar ++ ['"']) :=
  String.toList_ofList

theorem readString?_quote (strictness : Strictness) (s : String) (rest : List Char) :
    readString? strictness ((quote s).toList ++ rest) = some (s, rest) := by
  have hlength : s.toList.length ≤ (s.toList.flatMap escapeChar).length := by
    generalize s.toList = cs
    induction cs with
    | nil => exact Nat.le_refl 0
    | cons c cs ih =>
        have hpos : 0 < (escapeChar c).length := by
          rcases escapeChar_cases c with ⟨hc, -⟩ | ⟨escape, hc, -⟩ <;> simp [hc]
        simp only [List.flatMap_cons, List.length_append, List.length_cons]
        omega
  simp only [toList_quote, List.cons_append, List.append_assoc, List.nil_append, readString?]
  rw [readQuoted?_escaped]
  · simp
  · simp only [List.length_append]; omega

theorem quote_append_inj {s t : String} {x y : List Char} (h : (quote s).toList ++ x = (quote t).toList ++ y) :
    s = t ∧ x = y := by
  have hread := congrArg (readString? .paired) h
  rw [readString?_quote, readString?_quote] at hread
  exact Prod.mk.inj (Option.some.inj hread)

theorem quote_injective {s t : String} (h : quote s = quote t) : s = t :=
  (quote_append_inj (congrArg (fun text => text.toList ++ []) h)).1

-- ---------------------------------------------------------------------------
-- Ends
-- ---------------------------------------------------------------------------

/-- What can follow a document: nothing, a comma or a closing bracket. -/
def Ends (rest : List Char) : Prop :=
  ∀ c tail, rest = c :: tail → c = ',' ∨ c = ']' ∨ c = '\x7d'

theorem Ends.notNumber {rest : List Char} (h : Ends rest) {c : Char} {tail : List Char} (hc : rest = c :: tail) :
    isNumberChar c = false := by
  rcases h c tail hc with rfl | rfl | rfl <;> decide

/-- Two texts of numbers that are followed by an end are equal. -/
theorem number_append_inj {a b x y : List Char} (ha : ∀ c ∈ a, isNumberChar c = true)
    (hb : ∀ c ∈ b, isNumberChar c = true) (hx : Ends x) (hy : Ends y) (h : a ++ x = b ++ y) : a = b ∧ x = y := by
  induction a generalizing b with
  | nil =>
      cases b with
      | nil => exact ⟨rfl, h⟩
      | cons c b =>
          have := hx.notNumber h
          rw [hb c List.mem_cons_self] at this
          cases this
  | cons c a ih =>
      cases b with
      | nil =>
          have := hy.notNumber h.symm
          rw [ha c List.mem_cons_self] at this
          cases this
      | cons d b =>
          rw [List.cons_append, List.cons_append] at h
          obtain ⟨rfl, htail⟩ := List.cons.inj h
          obtain ⟨rfl, rfl⟩ := ih (fun c hc => ha c (List.mem_cons_of_mem _ hc))
            (fun c hc => hb c (List.mem_cons_of_mem _ hc)) htail
          exact ⟨rfl, rfl⟩

-- ---------------------------------------------------------------------------
-- Heads of texts
-- ---------------------------------------------------------------------------

mutual

/-- Whether all numbers in a document that are no integers are finite. -/
def isFinite : Json → Bool
  | .real x => x.isFinite
  | .array items => isFiniteItems items
  | .object fields => isFiniteFields fields
  | _ => true
termination_by structural json => json

def isFiniteItems : List Json → Bool
  | [] => true
  | item :: rest => isFinite item && isFiniteItems rest
termination_by structural items => items

def isFiniteFields : List (String × Json) → Bool
  | [] => true
  | (_, item) :: rest => isFinite item && isFiniteFields rest
termination_by structural fields => fields

end

/-- What the first character of a text tells about a document. -/
inductive Form where
  | null
  | bool
  | number
  | string
  | array
  | object
  deriving DecidableEq

def form : Json → Form
  | .null => .null
  | .bool _ => .bool
  | .integer _ | .real _ => .number
  | .string _ => .string
  | .array _ => .array
  | .object _ => .object

def formOf? (c : Char) : Option Form :=
  if c.isDigit || c == '-' then some .number
  else match c with
    | 'n' => some .null
    | 't' | 'f' => some .bool
    | '"' => some .string
    | '[' => some .array
    | '\x7b' => some .object
    | _ => none

theorem toList_integer (n : Int) :
    (toString n).toList = (if n < 0 then ['-'] else []) ++ Nat.toDigits 10 n.natAbs := by
  rw [Int.toString_eq_repr, Int.repr_eq_if]
  split
  · rw [Nat.toList_repr, show n.toNat = n.natAbs by omega, if_neg (by omega)]
    rfl
  · rw [String.toList_append, Nat.toList_repr, show (-n).toNat = n.natAbs by omega, if_pos (by omega)]
    rfl

theorem integer_chars (n : Int) : ∀ c ∈ (toString n).toList, isNumberChar c = true := by
  intro c hc
  rw [toList_integer] at hc
  rcases List.mem_append.mp hc with hc | hc
  · split at hc
    · rw [List.mem_singleton.mp hc]; decide
    · cases hc
  · exact Number.isNumberChar_of_isDigit (Number.toDigits_all_isDigit _ c hc)

theorem formOf?_of_isDigit {c : Char} (h : c.isDigit = true) : formOf? c = some .number := by
  simp only [formOf?, h, Bool.true_or, if_true]

/-- The first character of a text tells the form of the document. -/
theorem compact_first (json : Json) (h : json.isFinite = true) :
    ∃ c rest, json.compact.toList = c :: rest ∧ formOf? c = some json.form := by
  cases json with
  | null => exact ⟨'n', ['u', 'l', 'l'], by decide, by decide⟩
  | bool b => cases b with
    | false => exact ⟨'f', ['a', 'l', 's', 'e'], by decide, by decide⟩
    | true => exact ⟨'t', ['r', 'u', 'e'], by decide, by decide⟩
  | integer n =>
      rw [compact, toList_integer]
      obtain ⟨c, rest, hdigits⟩ := List.exists_cons_of_ne_nil (Nat.toDigits_ne_nil (n := n.natAbs) (b := 10))
      have hc : c.isDigit = true := Number.toDigits_all_isDigit n.natAbs c (by rw [hdigits]; exact List.mem_cons_self)
      rw [hdigits]
      split
      · exact ⟨'-', c :: rest, rfl, rfl⟩
      · exact ⟨c, rest, rfl, formOf?_of_isDigit hc⟩
  | real x => cases x with
    | nan => cases h
    | infinity negative => cases h
    | finite negative magnitude =>
        obtain ⟨c, rest, htext, hc⟩ := Number.jsonText_first negative magnitude
        refine ⟨c, rest, htext, ?_⟩
        rcases hc with hc | rfl
        · exact formOf?_of_isDigit hc
        · rfl
  | string s => exact ⟨'"', _, toList_quote s, rfl⟩
  | array items => exact ⟨'[', _, by rw [compact, String.append_assoc, String.toList_append]; rfl, rfl⟩
  | object fields => exact ⟨'\x7b', _, by rw [compact, String.append_assoc, String.toList_append]; rfl, rfl⟩

theorem ends_compact_ne {json : Json} (h : json.isFinite = true) {c : Char} {rest x : List Char}
    (hc : formOf? c = none) : json.compact.toList ++ x ≠ c :: rest := by
  obtain ⟨d, tail, hd, hform⟩ := compact_first json h
  intro heq
  rw [hd, List.cons_append] at heq
  rw [(List.cons.inj heq).1, hc] at hform
  cases hform

-- ---------------------------------------------------------------------------
-- Numbers
-- ---------------------------------------------------------------------------

theorem integer_injective {a b : Int} (h : (toString a).toList = (toString b).toList) : a = b := by
  rw [toList_integer, toList_integer] at h
  have hvalue {m n : Nat} (h : Nat.toDigits 10 m = Nat.toDigits 10 n) : m = n := by
    rw [← Number.digitsValue_toDigits m, h, Number.digitsValue_toDigits]
  have hminus (n : Nat) (rest : List Char) : Nat.toDigits 10 n ≠ '-' :: rest := by
    intro heq
    have hdigit := Number.toDigits_all_isDigit n '-' (by rw [heq]; exact List.mem_cons_self)
    exact absurd hdigit (by decide)
  split at h <;> split at h
  · have := hvalue (List.cons.inj h).2; omega
  · exact absurd h.symm (hminus _ _)
  · exact absurd h (hminus _ _)
  · have := hvalue h; omega

theorem integer_ne_real (n : Int) (negative : Bool) (magnitude : Magnitude) :
    (toString n).toList ≠ (Number.jsonText (.finite negative magnitude)).toList := by
  intro h
  have hmark := Number.jsonText_mark negative magnitude
  rw [← h, toList_integer] at hmark
  have hdigit : ∀ c ∈ (if n < 0 then ['-'] else []) ++ Nat.toDigits 10 n.natAbs, c = '-' ∨ c.isDigit = true := by
    intro c hc
    rcases List.mem_append.mp hc with hc | hc
    · split at hc
      · exact .inl (List.mem_singleton.mp hc)
      · cases hc
    · exact .inr (Number.toDigits_all_isDigit _ c hc)
  rcases hmark with hmark | hmark <;> exact absurd (hdigit _ hmark) (by decide)

/-- Numbers of either spelling, followed by an end. -/
theorem number_compact_inj {a b : Json} (ha : a.isFinite = true) (hb : b.isFinite = true)
    (hform : a.form = .number) (hform' : b.form = .number) {x y : List Char} (hx : Ends x) (hy : Ends y)
    (h : a.compact.toList ++ x = b.compact.toList ++ y) : a = b ∧ x = y := by
  have chars {json : Json} (h : json.isFinite = true) (hform : json.form = .number) :
      ∀ c ∈ json.compact.toList, isNumberChar c = true := by
    cases json with
    | integer n => exact integer_chars n
    | real n => cases n with
      | finite negative magnitude => exact Number.jsonText_chars negative magnitude
      | nan => cases h
      | infinity negative => cases h
    | null => cases hform
    | bool b => cases hform
    | string s => cases hform
    | array items => cases hform
    | object fields => cases hform
  obtain ⟨htext, rfl⟩ := number_append_inj (chars ha hform) (chars hb hform') hx hy h
  refine ⟨?_, rfl⟩
  cases a <;> cases hform <;> cases b <;> cases hform'
  · rw [integer_injective htext]
  · rename_i m n
    cases n with
    | finite negative magnitude => exact absurd htext (integer_ne_real _ _ _)
    | nan => cases hb
    | infinity negative => cases hb
  · rename_i m n
    cases m with
    | finite negative magnitude => exact absurd htext.symm (integer_ne_real _ _ _)
    | nan => cases ha
    | infinity negative => cases ha
  · rw [Number.jsonText_injective ha hb (String.toList_inj.mp htext)]

-- ---------------------------------------------------------------------------
-- Documents
-- ---------------------------------------------------------------------------

/-- Texts joined by commas, a closing bracket, and what follows it. -/
def enclosed (close : Char) (x : List Char) (texts : List String) : List Char :=
  (",".intercalate texts).toList ++ close :: x

/-- What follows the first of the texts that are enclosed. -/
def afterFirst (close : Char) (x : List Char) : List String → List Char
  | [] => close :: x
  | text :: rest => ',' :: enclosed close x (text :: rest)

theorem enclosed_nil (close : Char) (x : List Char) : enclosed close x [] = close :: x := rfl

theorem enclosed_cons (close : Char) (x : List Char) (text : String) (rest : List String) :
    enclosed close x (text :: rest) = text.toList ++ afterFirst close x rest := by
  cases rest with
  | nil => rw [enclosed, String.intercalate_singleton]; rfl
  | cons next rest =>
      rw [enclosed, String.intercalate_cons_cons, String.toList_append, String.toList_append, List.append_assoc,
        List.append_assoc]
      rfl

theorem ends_afterFirst {close : Char} (hclose : close = ']' ∨ close = '\x7d') (x : List Char)
    (texts : List String) : Ends (afterFirst close x texts) := by
  intro c tail h
  cases texts with
  | nil => obtain ⟨rfl, -⟩ := List.cons.inj h; exact .inr hclose
  | cons text rest => obtain ⟨rfl, -⟩ := List.cons.inj h; exact .inl rfl

theorem array_append (items : List Json) (x : List Char) :
    (array items).compact.toList ++ x = '[' :: enclosed ']' x (compactItems items) := by
  simp [compact, enclosed]

theorem object_append (fields : List (String × Json)) (x : List Char) :
    (object fields).compact.toList ++ x = '\x7b' :: enclosed '\x7d' x (compactFields fields) := by
  simp [compact, enclosed]

theorem form_eq {a b : Json} (ha : a.isFinite = true) (hb : b.isFinite = true) {x y : List Char}
    (h : a.compact.toList ++ x = b.compact.toList ++ y) : a.form = b.form := by
  obtain ⟨c, rest, hc, hform⟩ := compact_first a ha
  obtain ⟨c', rest', hc', hform'⟩ := compact_first b hb
  rw [hc, hc', List.cons_append, List.cons_append] at h
  rw [(List.cons.inj h).1, hform'] at hform
  exact (Option.some.inj hform).symm

mutual

/-- Documents with a common text before an end are equal, and so is what follows. -/
theorem compact_append_inj : (a b : Json) → a.isFinite = true → b.isFinite = true → {x y : List Char} →
    Ends x → Ends y → a.compact.toList ++ x = b.compact.toList ++ y → a = b ∧ x = y
  | .array items, b, ha, hb, x, y, _, _, h => by
    have hform := form_eq ha hb h
    cases b <;> cases hform
    rename_i items'
    rw [array_append, array_append] at h
    obtain ⟨rfl, rfl⟩ := items_inj items items' ha hb (List.cons.inj h).2
    exact ⟨rfl, rfl⟩
  | .object fields, b, ha, hb, x, y, _, _, h => by
    have hform := form_eq ha hb h
    cases b <;> cases hform
    rename_i fields'
    rw [object_append, object_append] at h
    obtain ⟨rfl, rfl⟩ := fields_inj fields fields' ha hb (List.cons.inj h).2
    exact ⟨rfl, rfl⟩
  | .string s, b, ha, hb, x, y, _, _, h => by
    have hform := form_eq ha hb h
    cases b <;> cases hform
    obtain ⟨rfl, rfl⟩ := quote_append_inj h
    exact ⟨rfl, rfl⟩
  | .bool s, b, ha, hb, x, y, _, _, h => by
    have hform := form_eq ha hb h
    cases b <;> cases hform
    rename_i t
    cases s <;> cases t <;> simp [compact] at h <;> exact ⟨rfl, h⟩
  | .null, b, ha, hb, x, y, _, _, h => by
    have hform := form_eq ha hb h
    cases b <;> cases hform
    exact ⟨rfl, List.append_cancel_left h⟩
  | .integer n, b, ha, hb, x, y, hx, hy, h =>
    number_compact_inj ha hb rfl (form_eq ha hb h).symm hx hy h
  | .real n, b, ha, hb, x, y, hx, hy, h =>
    number_compact_inj ha hb rfl (form_eq ha hb h).symm hx hy h
termination_by structural a => a

theorem items_inj : (as bs : List Json) → isFiniteItems as = true → isFiniteItems bs = true → {x y : List Char} →
    enclosed ']' x (compactItems as) = enclosed ']' y (compactItems bs) → as = bs ∧ x = y
  | [], [], _, _, x, y, h => ⟨rfl, (List.cons.inj h).2⟩
  | [], b :: bs, _, hb, x, y, h => by
    rw [compactItems, enclosed_nil, compactItems, enclosed_cons] at h
    exact absurd h.symm (ends_compact_ne (Bool.and_eq_true_iff.mp hb).1 rfl)
  | a :: as, [], ha, _, x, y, h => by
    rw [compactItems, compactItems, enclosed_nil, enclosed_cons] at h
    exact absurd h (ends_compact_ne (Bool.and_eq_true_iff.mp ha).1 rfl)
  | a :: as, b :: bs, ha, hb, x, y, h => by
    obtain ⟨hfirst, has⟩ := Bool.and_eq_true_iff.mp ha
    obtain ⟨hfirst', hbs⟩ := Bool.and_eq_true_iff.mp hb
    rw [compactItems, compactItems, enclosed_cons, enclosed_cons] at h
    have hends (x : List Char) (texts : List String) := ends_afterFirst (.inl rfl) x texts
    obtain ⟨rfl, hrest⟩ := compact_append_inj a b hfirst hfirst' (hends _ _) (hends _ _) h
    cases as with
    | nil => cases bs with
      | nil => exact ⟨rfl, (List.cons.inj hrest).2⟩
      | cons b bs => exact absurd (List.cons.inj hrest).1 (by decide)
    | cons a as => cases bs with
      | nil => exact absurd (List.cons.inj hrest).1 (by decide)
      | cons b bs =>
          obtain ⟨heq, rfl⟩ := items_inj (a :: as) (b :: bs) has hbs (List.cons.inj hrest).2
          exact ⟨congrArg _ heq, rfl⟩
termination_by structural as => as

theorem fields_inj : (as bs : List (String × Json)) → isFiniteFields as = true → isFiniteFields bs = true →
    {x y : List Char} → enclosed '\x7d' x (compactFields as) = enclosed '\x7d' y (compactFields bs) →
    as = bs ∧ x = y
  | [], [], _, _, x, y, h => ⟨rfl, (List.cons.inj h).2⟩
  | [], (key, b) :: bs, _, hb, x, y, h => by
    rw [compactFields, enclosed_nil, compactFields, enclosed_cons, String.toList_append, String.toList_append,
      toList_quote] at h
    exact absurd (List.cons.inj h).1 (by decide)
  | (key, a) :: as, [], ha, _, x, y, h => by
    rw [compactFields, compactFields, enclosed_nil, enclosed_cons, String.toList_append, String.toList_append,
      toList_quote] at h
    exact absurd (List.cons.inj h).1 (by decide)
  | (key, a) :: as, (key', b) :: bs, ha, hb, x, y, h => by
    obtain ⟨hfirst, has⟩ := Bool.and_eq_true_iff.mp ha
    obtain ⟨hfirst', hbs⟩ := Bool.and_eq_true_iff.mp hb
    rw [compactFields, compactFields, enclosed_cons, enclosed_cons] at h
    simp only [String.toList_append, List.append_assoc] at h
    obtain ⟨rfl, hvalue⟩ := quote_append_inj h
    have hends (x : List Char) (texts : List String) := ends_afterFirst (.inr rfl) x texts
    obtain ⟨rfl, hrest⟩ :=
      compact_append_inj a b hfirst hfirst' (hends _ _) (hends _ _) (List.append_cancel_left hvalue)
    cases as with
    | nil => cases bs with
      | nil => exact ⟨rfl, (List.cons.inj hrest).2⟩
      | cons b bs => exact absurd (List.cons.inj hrest).1 (by decide)
    | cons a as => cases bs with
      | nil => exact absurd (List.cons.inj hrest).1 (by decide)
      | cons b bs =>
          obtain ⟨heq, rfl⟩ := fields_inj (a :: as) (b :: bs) has hbs (List.cons.inj hrest).2
          exact ⟨congrArg _ heq, rfl⟩
termination_by structural as => as

end

/-- Different documents have different texts. -/
theorem compact_injective {a b : Json} (ha : a.isFinite = true) (hb : b.isFinite = true)
    (h : a.compact = b.compact) : a = b :=
  (compact_append_inj a b ha hb (x := []) (y := []) nofun nofun (by rw [h])).1

end SchemaAlgebra.Json
