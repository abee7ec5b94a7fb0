-- SUMMARY: A replaced property read back: where the new value is found under its key, and which other keys find it too.
import SchemaAlgebra.Value.Property

/-!
# Updates

Reading looks at the own properties first and then at the items of an array; replacing
looks at the items first. So a new value is not found where an own property stands
under a key that spells an item. And a key is a spelling of an index, not the index:
`0`, `00` and `+0` lead to one item, and a value written under one is found under all.
Everywhere else what was written is read back, and nothing else changes.
-/

namespace SchemaAlgebra

namespace Object

-- ---------------------------------------------------------------------------
-- Own properties
-- ---------------------------------------------------------------------------

/-- What is under a key once a property was replaced. -/
theorem lookup_insertProp (key other : PropKey) (value : Value) (props : List (PropKey × Value)) :
    (insertProp key value props).lookup other = if other = key then some value else props.lookup other := by
  have hcons (k : PropKey) (x : Value) (rest : List (PropKey × Value)) :
      ((k, x) :: rest).lookup other = if other = k then some x else rest.lookup other := by
    rw [List.lookup_cons]
    by_cases h : other = k
    · rw [if_pos h, beq_iff_eq.mpr h]
    · rw [if_neg h, beq_false_of_ne h]
  induction props with
  | nil => exact hcons key value []
  | cons entry rest ih =>
      obtain ⟨k, x⟩ := entry
      rw [insertProp]
      split
      · rename_i hk
        rw [hcons, hcons, hk]
        split <;> rfl
      · rename_i hk
        rw [hcons, hcons, ih]
        by_cases h : other = k
        · rw [if_pos h, if_pos h, if_neg (h ▸ hk)]
        · rw [if_neg h, if_neg h]

-- ---------------------------------------------------------------------------
-- Items
-- ---------------------------------------------------------------------------

variable {o : Object Value} {key other : PropKey} {i : Nat}

/-- The place of the item of an array that a key spells. -/
def itemAt? (o : Object Value) (key : PropKey) : Option Nat :=
  match o.body with
  | .array items => key.index?.filter (· < items.length)
  | _ => none

theorem itemAt?_eq_some : o.itemAt? key = some i ↔ ∃ items, o.body = .array items ∧ key.index? = some i ∧
    i < items.length := by
  unfold itemAt?
  cases o.body <;> simp [Option.filter_eq_some_iff]

theorem itemAt?_of_index?_eq_none (h : key.index? = none) : o.itemAt? key = none := by
  unfold itemAt?
  cases o.body <;> simp [h]

/-- A key that spells an item replaces the item, also where an own property is under it. -/
theorem withProp_of_item (h : o.itemAt? key = some i) (serial : Nat) (value : Value) : ∃ items, o.body = .array items ∧
    i < items.length ∧ o.withProp serial key value = { o with serial, body := .array (items.set i value) } := by
  obtain ⟨items, hbody, hindex, hlt⟩ := itemAt?_eq_some.mp h
  refine ⟨items, hbody, hlt, ?_⟩
  simp only [withProp, hbody, hindex, if_pos hlt]

/-- Every other key is an own property. -/
theorem withProp_of_no_item (h : o.itemAt? key = none) (serial : Nat) (value : Value) :
    o.withProp serial key value = { o with serial, props := insertProp key value o.props } := by
  obtain ⟨id, proto, body, props⟩ := o
  cases body with
  | array items =>
      cases hindex : key.index? with
      | none => simp only [withProp, hindex]
      | some i =>
          have hge : ¬ i < items.length := by simpa [itemAt?, hindex] using h
          simp only [withProp, hindex, if_neg hge]
  | _ => rfl

-- ---------------------------------------------------------------------------
-- Reading after writing
-- ---------------------------------------------------------------------------

/-- Whether an own property stands in front of the item that a key spells. -/
def hides (o : Object Value) (key : PropKey) : Bool :=
  (o.props.lookup key).isSome && (o.itemAt? key).isSome

/-- Whether another key is read from the item that a key spells. -/
def aliases (o : Object Value) (key other : PropKey) : Bool :=
  (o.itemAt? key).isSome && o.itemAt? other = o.itemAt? key && (o.props.lookup other).isNone

/-- Where no item is written, the new value is under its key and nothing else changes. -/
theorem get?_withProp_of_no_item (h : o.itemAt? key = none) (serial : Nat) (value : Value) (other : PropKey) :
    (o.withProp serial key value).get? other = if other = key then some value else o.get? other := by
  rw [withProp_of_no_item h]
  simp only [get?, lookup_insertProp]
  by_cases heq : other = key
  · simp only [if_pos heq]
  · simp only [if_neg heq]

/-- Where an item is written, the keys that are read from it give the new value, and nothing else changes. -/
theorem get?_withProp_of_item (h : o.itemAt? key = some i) (serial : Nat) (value : Value) (other : PropKey) :
    (o.withProp serial key value).get? other = if o.aliases key other then some value else o.get? other := by
  obtain ⟨items, hbody, hlt, hwrite⟩ := withProp_of_item h serial value
  have halias : o.aliases key other = true ↔ other.index? = some i ∧ o.props.lookup other = none := by
    have hother : o.itemAt? other = some i ↔ other.index? = some i := by
      rw [itemAt?_eq_some]
      constructor
      · rintro ⟨_, _, hindex, _⟩
        exact hindex
      · exact fun hindex => ⟨items, hbody, hindex, hlt⟩
    simp [aliases, h, hother]
  rw [hwrite]
  cases hown : o.props.lookup other with
  | some own => simp [get?, halias, hown]
  | none =>
      cases hindex : other.index? with
      | none => simp [get?, hbody, halias, hown, hindex]
      | some j =>
          -- A key that spells an index is not `length`.
          have hlength : other ≠ .string "length" := by
            rintro rfl
            simp [show (PropKey.string "length").index? = none by decide +kernel] at hindex
          by_cases hij : j = i
          · simp [get?, halias, hindex, hown, hij, hlength, hlt]
          · simp [get?, hbody, halias, hindex, hown, hij, hlength, List.getElem?_set_ne (Ne.symm hij)]

/-- What is under any key after a property was replaced. -/
theorem get?_withProp_eq (o : Object Value) (serial : Nat) (key : PropKey) (value : Value) (other : PropKey) :
    (o.withProp serial key value).get? other =
      if (other = key ∧ o.hides key = false) ∨ o.aliases key other then some value else o.get? other := by
  cases hitem : o.itemAt? key with
  | none =>
      have hhides : o.hides key = false := by simp [hides, hitem]
      have haliases : o.aliases key other = false := by simp [aliases, hitem]
      simp [get?_withProp_of_no_item hitem, hhides, haliases]
  | some i =>
      rw [get?_withProp_of_item hitem]
      -- A key that nothing hides is read from its own item.
      have hself (heq : other = key) (hhides : o.hides key = false) : o.aliases key other = true := by
        subst heq
        simpa [hides, aliases, hitem] using hhides
      by_cases halias : o.aliases key other = true
      · rw [if_pos halias, if_pos (.inr halias)]
      · have hnone : ¬ ((other = key ∧ o.hides key = false) ∨ o.aliases key other = true) := by
          rintro (⟨heq, hhides⟩ | h)
          · exact halias (hself heq hhides)
          · exact halias h
        rw [if_neg halias, if_neg hnone]

/-- A key is read from its own item unless an own property hides the item. -/
theorem not_aliases_self_of_hides (h : o.hides key = true) : o.aliases key key = false := by
  simp only [hides, Bool.and_eq_true] at h
  simp [aliases, ← Option.not_isSome, h.1]

/-- What was written under a key is read back exactly where no own property hides the item
it was written to, and another key is undisturbed exactly where it is not read from that
item, except where the value written was already there. -/
theorem withProp_lawful_iff (o : Object Value) (serial : Nat) (key : PropKey) (value : Value) :
    ((o.withProp serial key value).get? key = some value ↔ o.hides key = false ∨ o.get? key = some value) ∧
      ∀ other, other ≠ key → ((o.withProp serial key value).get? other = o.get? other ↔
        o.aliases key other = false ∨ o.get? other = some value) := by
  constructor
  · rw [get?_withProp_eq]
    cases hhides : o.hides key with
    | false => simp
    | true => simp [not_aliases_self_of_hides hhides]
  · intro other hne
    rw [get?_withProp_eq]
    cases haliases : o.aliases key other with
    | false => simp [hne]
    | true => simpa using eq_comm

/-- The length of an array is not an item, so it is not disturbed. -/
theorem array_length_undisturbed : PropKey.string "length" ≠ .string "0" ∧
    ((array 1 [.null]).withProp 2 (.string "0") (.boolean true)).get? (.string "length") = some (.number (.ofNat 1)) := by
  have hne : PropKey.string "length" ≠ .string "0" := by decide
  refine ⟨hne, ?_⟩
  rw [((withProp_lawful_iff (array 1 [.null]) 2 (.string "0") (.boolean true)).2 _ hne).mpr (.inl (by decide +kernel))]
  rfl

/-- An own property hides the item that was written, and another spelling of the index finds it. -/
theorem withProp_unlawful :
    (let o : Object Value := { array 1 [.null] with props := [(.string "0", .boolean false)] }
    (o.withProp 2 (.string "0") (.boolean true)).get? (.string "0") = some (.boolean false)) ∧
    (let o := array 1 [.null]
    (o.get? (.string "00"), (o.withProp 2 (.string "0") (.boolean true)).get? (.string "00")) =
      (some .null, some (.boolean true))) := by
  decide +kernel

-- ---------------------------------------------------------------------------
-- Keys apart
-- ---------------------------------------------------------------------------

/-- What was put under a key that spells no index is found there. -/
theorem get?_withProp_self (h : key.index? = none) (o : Object Value) (serial : Nat) (value : Value) :
    (o.withProp serial key value).get? key = some value := by
  rw [get?_withProp_of_no_item (itemAt?_of_index?_eq_none h), if_pos rfl]

end Object

/-- Whether two keys can lead to one place: they are the same, or spell the same index. -/
def PropKey.overlaps (a b : PropKey) : Bool :=
  a = b || (a.index?.isSome && a.index? = b.index?)

/-- Replacing a property keeps what is under keys that do not overlap with its own. -/
theorem Object.get?_withProp {key other : PropKey} (h : key.overlaps other = false) (o : Object Value) (serial : Nat)
    (value : Value) : (o.withProp serial key value).get? other = o.get? other := by
  simp only [PropKey.overlaps, Bool.or_eq_false_iff, decide_eq_false_iff_not, Bool.and_eq_false_iff] at h
  obtain ⟨hne, hindex⟩ := h
  have haliases : o.aliases key other = false := by
    cases hitem : o.itemAt? key with
    | none => simp [aliases, hitem]
    | some i =>
        obtain ⟨_, _, hkey, _⟩ := itemAt?_eq_some.mp hitem
        have hother : o.itemAt? other ≠ some i := by
          intro hsome
          obtain ⟨_, _, hindex', _⟩ := itemAt?_eq_some.mp hsome
          simp [hkey, hindex'] at hindex
        simp [aliases, hitem, hother]
  rw [get?_withProp_eq, haliases]
  simp [Ne.symm hne]

end SchemaAlgebra
