-- SUMMARY: What nodes accept follows from their plain nodes, and does not depend on the sign of zero.
import SchemaAlgebra.Proofs.Discrimination
import SchemaAlgebra.Proofs.Identity

/-!
# Acceptance

A written node accepts what its plain node accepts: captions, discriminants and
the sign of zeros in its content do not matter. The sign of a zero that is tested
does not matter either, unless a predicate looks at it.
-/

namespace SchemaAlgebra

-- ---------------------------------------------------------------------------
-- Leaves
-- ---------------------------------------------------------------------------

namespace Value

/-- A unit allows the value it is, up to the sign of zero. -/
theorem isUnitFor_iff {u v : Value} : u.isUnitFor v = true ↔ u.unsigned = v.unsigned := by
  cases u with
  | number a =>
      cases v with
      | number b =>
          simp only [unsigned, Value.number.injEq]
          cases a with
          | nan =>
              constructor
              · intro h
                cases b <;> first | rfl | cases h
              · intro h
                have hnan := congrArg Number.isNaN h
                rw [Number.isNaN_unsigned, Number.isNaN_unsigned] at hnan
                exact hnan.symm
          | _ => exact ⟨Number.unsigned_eq_of_equals, Number.equals_of_unsigned_eq rfl⟩
      | _ => cases a <;> exact ⟨by rintro ⟨⟩, by rintro ⟨⟩⟩
  | _ => cases v <;> simp [isUnitFor, strictlyEquals, unsigned]

theorem domain_unsigned (v : Value) : v.unsigned.domain = v.domain := by
  cases v <;> rfl

theorem get?_unsigned (v : Value) (key : PropKey) : v.unsigned.get? key = v.get? key := by
  cases v <;> rfl

theorem unsigned_unsigned (v : Value) : v.unsigned.unsigned = v.unsigned := by
  cases v <;> simp [unsigned]

end Value

namespace Bound

theorem allows_unsigned (bound : Bound) (side : BoundSide) (v : Value) :
    bound.allows side v.unsigned = bound.allows side v := by
  cases v with
  | number n =>
      obtain ⟨limit, exclusive, axis⟩ := bound
      cases axis with
      | value => cases side <;> cases exclusive <;>
          simp [allows, BoundAxis.measure?, Value.unsigned, Number.less, Number.lessEq, Number.compareWith]
      | _ => rfl
  | _ => rfl

theorem unsigned_allows (bound : Bound) (side : BoundSide) (v : Value) :
    bound.unsigned.allows side v = bound.allows side v := by
  obtain ⟨limit, exclusive, axis⟩ := bound
  simp only [allows, unsigned]
  cases axis.measure? v with
  | none => rfl
  | some n =>
      cases side <;> cases exclusive <;> simp [Number.less, Number.lessEq, Number.compareWith]

end Bound

theorem Number.isMultipleOf_none {divisor : Nat} (h : (Number.ofNat divisor).scaled? = none) (n : Number) :
    n.isMultipleOf divisor = false := by
  unfold Number.isMultipleOf
  split
  · rename_i h'
    rw [h] at h'
    cases h'
  · rfl

theorem Number.isMultipleOf_sign (negative negative' : Bool) (magnitude : Magnitude) (divisor : Nat) :
    (Number.finite negative magnitude).isMultipleOf divisor =
      (Number.finite negative' magnitude).isMultipleOf divisor := by
  cases hstep : (Number.ofNat divisor).scaled? with
  | none => rw [isMultipleOf_none hstep, isMultipleOf_none hstep]
  | some step =>
      rw [Bool.eq_iff_iff, Number.isMultipleOf_of_scaled? hstep, Number.isMultipleOf_of_scaled? hstep]
      constructor
      · rintro ⟨_, _, heq, hdvd⟩
        cases heq
        exact ⟨_, _, rfl, hdvd⟩
      · rintro ⟨_, _, heq, hdvd⟩
        cases heq
        exact ⟨_, _, rfl, hdvd⟩

theorem Number.isDivisibleBy_unsigned (divisor : Nat) (v : Value) :
    Number.isDivisibleBy divisor v.unsigned = Number.isDivisibleBy divisor v := by
  cases v with
  | number n =>
      simp only [Value.unsigned, Number.isDivisibleBy, Number.unsigned]
      split
      · obtain ⟨negative, rfl⟩ := Number.eq_zero_of_isZero ‹_›
        rw [Number.ofPlace_zero, Number.ofPlace_zero]
        exact Number.isMultipleOf_sign _ _ _ _
      · rfl
  | _ => rfl

-- ---------------------------------------------------------------------------
-- Lists of nodes
-- ---------------------------------------------------------------------------

namespace Node

variable [Behaviour]

theorem allows_mk (content : Content Node) (caption : Caption) (profile : Profile) (v : Value) :
    (Node.mk content caption profile).allows v = Content.allows profile.discriminant content v := rfl

/-- A union without a discriminant allows what some branch allows. -/
theorem someAllows_iff {branches : List Node} {v : Value} :
    someAllowsAt (fun _ => true) 0 branches v = true ↔ ∃ branch ∈ branches, branch.allows v = true := by
  rw [Discriminant.someAllowsAt_iff]
  constructor
  · rintro ⟨i, b, hb, -, hv⟩
    exact ⟨b, List.mem_of_getElem? hb, hv⟩
  · rintro ⟨b, hb, hv⟩
    obtain ⟨i, hi⟩ := List.mem_iff_getElem?.mp hb
    exact ⟨i, b, hi, rfl, hv⟩

theorem basisAllows_iff {basis : Option Node} {v : Value} :
    basisAllows basis v = true ↔ ∀ b ∈ basis, b.allows v = true := by
  cases basis <;> simp [basisAllows]

theorem everyAllows_map {f : Node → Node} {rules : List Node} {v : Value}
    (h : ∀ rule ∈ rules, (f rule).allows v = rule.allows v) : everyAllows (rules.map f) v = everyAllows rules v := by
  rw [Bool.eq_iff_iff, Discriminant.everyAllows_iff, Discriminant.everyAllows_iff]
  simp only [List.forall_mem_map]
  constructor
  · intro hall rule hrule
    rw [← h rule hrule]
    exact hall rule hrule
  · intro hall rule hrule
    rw [h rule hrule]
    exact hall rule hrule

theorem someAllows_map {f : Node → Node} {branches : List Node} {v : Value}
    (h : ∀ branch ∈ branches, (f branch).allows v = branch.allows v) :
    someAllowsAt (fun _ => true) 0 (branches.map f) v = someAllowsAt (fun _ => true) 0 branches v := by
  rw [Bool.eq_iff_iff, someAllows_iff, someAllows_iff]
  constructor
  · rintro ⟨b, hb, hv⟩
    obtain ⟨branch, hbranch, rfl⟩ := List.mem_map.mp hb
    exact ⟨branch, hbranch, by rwa [h branch hbranch] at hv⟩
  · rintro ⟨branch, hbranch, hv⟩
    exact ⟨f branch, List.mem_map_of_mem hbranch, by rwa [h branch hbranch]⟩

theorem basisAllows_map {f : Node → Node} {basis : Option Node} {v : Value}
    (h : ∀ b ∈ basis, (f b).allows v = b.allows v) : basisAllows (basis.map f) v = basisAllows basis v := by
  cases basis with
  | none => rfl
  | some b => exact h b rfl

-- ---------------------------------------------------------------------------
-- Plain nodes
-- ---------------------------------------------------------------------------

/-- A content accepts what it accepts with plain nodes in it. -/
theorem allows_map {f : Node → Node} {content : Content Node} {v : Value}
    (h : ∀ c ∈ content.children, ∀ x, (f c).allows x = c.allows x) :
    Content.allows none (content.map f) v = Content.allows none content v := by
  cases content with
  | union branches ordered => exact someAllows_map fun b hb => h b hb v
  | morph input output transforms => exact h input List.mem_cons_self v
  | intersection basis constraints =>
      have hbasis : basisAllows (basis.map f) v = basisAllows basis v :=
        basisAllows_map fun b hb => h b (List.mem_append_left _ (Option.mem_toList.mpr hb)) v
      have hrest : everyAllows (constraints.map f) v = everyAllows constraints v :=
        everyAllows_map fun c hc => h c (List.mem_append_right _ hc) v
      simp only [Content.map, Content.allows, hbasis, hrest]
  | required key value =>
      simp only [Content.map, Content.allows]
      cases v.get? key with
      | none => rfl
      | some x => exact h value List.mem_cons_self x
  | optional key value =>
      simp only [Content.map, Content.allows]
      cases v.get? key with
      | none => rfl
      | some x => exact h value List.mem_cons_self x
  | _ => rfl

theorem allows_content_unsigned (content : Content Node) (v : Value) :
    Content.allows none content.unsigned v = Content.allows none content v := by
  cases content with
  | unit u =>
      simp only [Content.unsigned, Content.allows]
      rw [Bool.eq_iff_iff, Value.isUnitFor_iff, Value.isUnitFor_iff, Value.unsigned_unsigned]
  | max bound => exact bound.unsigned_allows .max v
  | min bound => exact bound.unsigned_allows .min v
  | _ => rfl

/-- A written node accepts what its content does without a discriminant. -/
theorem Written.allows {registry : Registry} {node : Node} (h : node.Written registry) (v : Value) :
    node.allows v = Content.allows none node.content v := by
  cases node with
  | mk content caption profile =>
      rw [allows_mk]
      cases hd : profile.discriminant with
      | none => rfl
      | some d =>
          obtain ⟨branches, ordered, hcontent, hbranches⟩ := h.discriminant d hd
          change content = _ at hcontent
          subst hcontent
          exact Discriminant.someAllowsAt_candidates hbranches v

/-- A written node accepts what its plain node accepts, whatever names that is formed with. -/
theorem allows_plain {registry : Registry} {node : Node} (h : node.Everywhere (Written registry))
    (names : Registry) (v : Value) : (node.plain names).allows v = node.allows v := by
  induction node using induct generalizing v with
  | step content caption profile ih =>
      rw [h.self.allows, plain_mk]
      change Content.allows none (content.map (plain names)).unsigned v = Content.allows none content v
      rw [allows_content_unsigned, allows_map]
      intro c hc x
      exact ih c hc (h.child hc) x

end Node

-- ---------------------------------------------------------------------------
-- The sign of the value
-- ---------------------------------------------------------------------------

theorem Discriminant.answer?_unsigned (d : Discriminant) (v : Value) : d.answer? v.unsigned = d.answer? v := by
  unfold Discriminant.answer?
  cases d.path with
  | nil =>
      simp only [Discriminant.follow?, Option.bind_some, Value.domain_unsigned]
      cases v with
      | number n => simp [Value.unsigned, CaseKey.text?, Literal.serialize?]
      | _ => rfl
  | cons key path => simp only [Discriminant.follow?, Value.get?_unsigned]

/-- What every predicate refuses is `-0`, and nothing else. -/
@[reducible] def Behaviour.refusingMinusZero : Behaviour where
  test _ v := match v with
    | .number n => decide (n ≠ .ofQuotient true 0 1)
    | _ => true
  run _ _ v serial := ⟨v, [], serial⟩

variable [Behaviour]

/-- No predicate tells `0` from `-0`. -/
def BlindToSign : Prop := ∀ predicate v, Behaviour.test predicate v.unsigned = Behaviour.test predicate v

namespace Node

/-- Where predicates do not look at the sign of a zero, nodes do not. -/
theorem allows_unsigned (hblind : BlindToSign) (node : Node) (v : Value) : node.allows v.unsigned = node.allows v := by
  induction node using induct with
  | step content caption profile ih =>
      rw [allows_mk, allows_mk]
      cases content with
      | union branches ordered =>
          have hsome (eligible : Nat → Bool) : someAllowsAt eligible 0 branches v.unsigned =
              someAllowsAt eligible 0 branches v := by
            rw [Bool.eq_iff_iff, Discriminant.someAllowsAt_iff, Discriminant.someAllowsAt_iff]
            refine exists_congr fun i => exists_congr fun b => and_congr_right fun hb => ?_
            rw [ih b (List.mem_of_getElem? hb)]
          cases hd : profile.discriminant with
          | none => exact hsome _
          | some d =>
              simp only [Content.allows, Discriminant.candidates, Discriminant.answer?_unsigned]
              exact hsome _
      | morph input output transforms => exact ih input List.mem_cons_self
      | intersection basis constraints =>
          simp only [Content.allows]
          rw [Bool.eq_iff_iff, Bool.and_eq_true, Bool.and_eq_true, basisAllows_iff, basisAllows_iff,
            Discriminant.everyAllows_iff, Discriminant.everyAllows_iff]
          refine and_congr (forall₂_congr fun b hb => ?_) (forall₂_congr fun c hc => ?_)
          · rw [ih b (List.mem_append_left _ (Option.mem_toList.mpr hb))]
          · rw [ih c (List.mem_append_right _ hc)]
      | unit u =>
          simp only [Content.allows]
          rw [Bool.eq_iff_iff, Value.isUnitFor_iff, Value.isUnitFor_iff, Value.unsigned_unsigned]
      | proto p => cases v <;> rfl
      | domain d => simp only [Content.allows, Value.domain_unsigned]
      | divisor d => exact Number.isDivisibleBy_unsigned d v
      | max bound => exact bound.allows_unsigned .max v
      | min bound => exact bound.allows_unsigned .min v
      | pattern p => cases v <;> rfl
      | predicate p => exact hblind p v
      | required key value => simp only [Content.allows, Value.get?_unsigned]
      | optional key value => simp only [Content.allows, Value.get?_unsigned]

end Node

end SchemaAlgebra
