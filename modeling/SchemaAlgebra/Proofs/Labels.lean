-- SUMMARY: Generated labels: the counters they are taken from, and that a label tells its kind and its number.
import SchemaAlgebra.Proofs.Naming
import SchemaAlgebra.Space.Basic

/-!
# Labels

A node without a label of the user's is labelled by its kind and a number that is
counted up for each kind. No name of a kind has a digit in it, so labels of
different numbers or kinds differ. Numbers come again only after all numbers of 32
bits were given out for a kind.
-/

namespace SchemaAlgebra

/-- The label of the `n`-th node of a kind that is labelled by its kind. -/
def Kind.numbered (kind : Kind) (n : Nat) : String := kind.name ++ toString n

theorem Kind.name_no_digit (kind : Kind) : kind.name.toList.all (!·.isDigit) = true := by
  cases kind <;> rfl

theorem Kind.name_injective {a b : Kind} (h : a.name = b.name) : a = b := by
  cases a <;> cases b <;> first | rfl | exact absurd h (by decide)

/-- A numbered label tells its kind and its number. -/
theorem Kind.numbered_injective {a b : Kind} {m n : Nat} (h : a.numbered m = b.numbered n) : a = b ∧ m = n := by
  have hlist := congrArg String.toList h
  simp only [numbered, String.toList_append, Number.toList_toString] at hlist
  have hletters (kind : Kind) (k : Nat) :
      (kind.name.toList ++ Nat.toDigits 10 k).takeWhile (!·.isDigit) = kind.name.toList := by
    rw [List.takeWhile_append_of_pos (List.all_eq_true.mp kind.name_no_digit)]
    cases hdigits : Nat.toDigits 10 k with
    | nil => exact absurd hdigits Nat.toDigits_ne_nil
    | cons c rest =>
        have hc := Number.toDigits_all_isDigit k c (by rw [hdigits]; exact List.mem_cons_self)
        rw [List.takeWhile_cons, hc]
        exact List.append_nil _
  have hname : a.name.toList = b.name.toList := by rw [← hletters a m, hlist, hletters]
  obtain rfl := Kind.name_injective (String.toList_inj.mp hname)
  exact ⟨rfl, Registry.toString_injective (Registry.append_left_injective h)⟩

namespace Space

/-- The number of the label that was given out last for a kind. -/
def given (space : Space) (kind : Kind) : Nat := (space.labels.read kind).value.toNat

/-- The labels of a kind were counted past the last number of 32 bits. -/
def Overflowed (space : Space) (kind : Kind) : Prop := (space.labels.read kind).overflowed = true

/-- A label of the user's is taken as it is. -/
theorem nextLabel_some {space : Space} {kind : Kind} {caption : Caption} {label : String}
    (h : caption.label = some label) : space.nextLabel kind caption = (label, space.labels) := by
  rw [nextLabel, h]

/-- Without one the next number of the kind is given out, and that of no other kind. -/
theorem nextLabel_none {space : Space} {kind : Kind} {caption : Caption} (h : caption.label = none) :
    space.nextLabel kind caption = (kind.numbered (space.labels.read kind).count.value.toNat,
      space.labels.write kind (space.labels.read kind).count) := by
  rw [nextLabel, h]
  rfl

end Space

end SchemaAlgebra
