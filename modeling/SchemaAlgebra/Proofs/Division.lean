-- SUMMARY: The divisors of every reachable space are positive, so that no request divides by zero.
import SchemaAlgebra.Proofs.Multiples
import SchemaAlgebra.Stock

/-!
# Division

The arithmetic of divisors is exact, and fails for zeros only. No literal is read as a
divisor of zero, and the least common multiple of positive numbers is positive. So every
divisor of a reachable space is, and whatever is asked of the space, nothing is divided
by zero, not even where texts do not tell its nodes apart.
-/

namespace SchemaAlgebra

namespace Space

variable [Behaviour] {adopting : Prop} {space : Space}

theorem Reachable.divisor_word (h : space.Reachable adopting) {node : Node} (hnode : space.Holds node) {d : Nat}
    (hd : node.content = .divisor d) : ∃ word : Word, 1 ≤ word ∧ word.toNat = d := by
  obtain ⟨hpos, hfits⟩ := Node.divisor_fits h.valid hnode hd
  have hword : (UInt64.ofNat d).toNat = d := UInt64.toNat_ofNat_of_lt hfits
  refine ⟨.ofNat d, ?_, hword⟩
  rw [UInt64.le_iff_toNat_le, hword]
  exact hpos

/-- Nodes that are handed to a request may come from other reachable spaces. -/
theorem Reachable.never_divides_by_zero (h : space.Reachable adopting) (request : Request) {origin : Node → Space}
    (horigin : ∀ n, (origin n).Reachable adopting) (hresidents : ∀ n ∈ request.residents, space.Holds n)
    (hguests : ∀ n ∈ request.guests,
      space.Holds n ∨ adopting ∧ (origin n).number ≠ space.number ∧ (origin n).Holds n) :
    (request.run.exec space).1 ≠ .error (.internal .divisionByZero) := by
  have hwelcome (n : Node) (hn : n ∈ request.guests) := welcome_of_origin (horigin n).valid (hguests n hn)
  exact (request.run_spec hresidents hwelcome space h.valid (.refl space)).divides

/-- Of positive numbers of 64 bits, the loop finds the greatest common divisor, which is not zero, and dividing by it
gives the least common multiple exactly if that fits. The divisors of a reachable space are such numbers, and no request
divides by zero. -/
theorem divisor_arithmetic :
    (∀ a b : Word, 1 ≤ a → 1 ≤ b →
      (a.gcd b).toNat = Nat.gcd a.toNat b.toNat ∧ a.gcd b ≠ 0 ∧
        ∃ multiple, a.lcm b = .ok multiple ∧ multiple.map UInt64.toNat =
          if Nat.lcm a.toNat b.toNat < Nat.pow 2 64 then some (Nat.lcm a.toNat b.toNat) else none) ∧
    ∀ space : Space, space.Reachable adopting →
      (∀ node, space.Holds node → ∀ d, node.content = .divisor d → ∃ word : Word, 1 ≤ word ∧ word.toNat = d) ∧
      ∀ (request : Request) (origin : Node → Space), (∀ n, (origin n).Reachable adopting) →
        (∀ n ∈ request.residents, space.Holds n) →
        (∀ n ∈ request.guests,
          space.Holds n ∨ adopting ∧ (origin n).number ≠ space.number ∧ (origin n).Holds n) →
        (request.run.exec space).1 ≠ .error (.internal .divisionByZero) := by
  refine ⟨fun a b ha hb => ?_, fun space h => ⟨fun node hnode d => h.divisor_word hnode, ?_⟩⟩
  · have hgcd : a.gcd b ≠ 0 := fun hzero => Word.ne_zero ha (Word.gcd_eq_zero_iff.mp hzero).1
    exact ⟨Word.toNat_gcd a b, hgcd, Word.lcm_eq hgcd⟩
  · exact fun request origin horigin hresidents hguests =>
      h.never_divides_by_zero request horigin hresidents hguests

omit [Behaviour] in
/-- The divisors 4 and 6 have the least common multiple 12, and can be intersected. -/
theorem four_and_six_divide : ∃ (space : Space) (l r : Node), @Reachable Stock.behaviour False space ∧
    space.Holds l ∧ l.content = .divisor 4 ∧ space.Holds r ∧ r.content = .divisor 6 ∧
      (∃ word : Word, 1 ≤ word ∧ word.toNat = 4) ∧
      (∃ multiple, Word.lcm 4 6 = .ok multiple ∧ multiple.map UInt64.toNat = some 12) ∧
      ((@Request.run Stock.behaviour (.intersect l r)).exec space).1 ≠ .error (.internal .divisionByZero) := by
  let _ := Stock.behaviour
  let written (d : Nat) : Definition := .number (.ofNat d)
  let program : SpaceM Unit := do
    let _ ← Definition.readKind .divisor (written 4)
    let _ ← Definition.readKind .divisor (written 6)
  have hyields : program.yields (.new 0 .standard) (fun _ => true) = true := by
    decide +kernel
  obtain ⟨l, hl, hyields⟩ := SpaceM.yields_bind.mp hyields
  obtain ⟨r, hr, -⟩ := SpaceM.yields_bind.mp hyields
  have hcontent {d : Nat} {space : Space} {node : Node} (hint : (Number.ofNat d).toInt? = some (d : Int))
      (hfits : Nat.min d (Nat.pow 2 64 - 1) = d) (hvalid : space.Valid)
      (hread : ((Definition.readKind .divisor (written d)).exec space).1 = .ok node) : node.content = .divisor d := by
    obtain ⟨-, i, hi, -, hcontent⟩ := (@Definition.readLiteralDivisor_spec True space _ hvalid).result node hread
    obtain rfl := Option.some.inj (hint.symm.trans hi)
    rwa [Int.toNat_natCast, hfits] at hcontent
  have hnew := @Reachable.new _ False 0 .standard
  obtain ⟨hfirst, -, hheld⟩ := @Reachable.readKind _ _ False hnew .divisor (written 4) (List.forall_mem_nil _)
  obtain ⟨hsecond, hext, hheld'⟩ := @Reachable.readKind _ _ False hfirst .divisor (written 6) (List.forall_mem_nil _)
  have hlContent : l.content = .divisor 4 := hcontent (by decide +kernel) (by decide) hnew.valid hl
  have hrContent : r.content = .divisor 6 := hcontent (by decide +kernel) (by decide) hfirst.valid hr
  have hlHeld := hext.holds l (hheld l hl)
  have hrHeld := hheld' r hr
  obtain ⟨harithmetic, hspaces⟩ := @divisor_arithmetic _ False
  obtain ⟨hwords, hdivides⟩ := hspaces _ hsecond
  obtain ⟨-, -, hmultiple⟩ := harithmetic 4 6 (by decide) (by decide)
  exact ⟨_, l, r, hsecond, hlHeld, hlContent, hrHeld, hrContent, hwords l hlHeld 4 hlContent, hmultiple,
    hdivides (.intersect l r) (fun _ => _) (fun _ => hsecond) (List.forall_mem_singleton.mpr hlHeld)
      (List.forall_mem_singleton.mpr (.inl hrHeld))⟩

end Space

end SchemaAlgebra
